/-
Tasks that interleave on shared memory.

A task takes one atomic step at a time: it reads and writes the shared state, leaves
notes, and is then at its next program point.  A pool holds the shared state, the tasks
under way and all notes so far, and a turn starts a task or lets one of them take its
next step.  What holds of the shared state and the notes is proved from single steps.
What a task carries from one step to the next is followed by accounting: a thing that is
drawn once and used at most once for each time it was drawn is used at most once,
whatever the order of the steps.  Conservation does the same for things of which there may
be several in one place, and which may lie in the shared state for a while.
-/
import Mathlib.Algebra.Order.Group.Multiset
import Mathlib.Tactic.Abel
import Neth.Lib.Trace

namespace Interleave

variable {σ τ ν ι α : Type*}

/-- The shared state, the tasks under way, each under the position it was started at, and the notes
so far. -/
structure Pool (σ τ ν : Type*) where
  shared : σ
  tasks : List τ
  log : List ν

/-- A new call, or the next step of the `n`-th. -/
inductive Turn (ι : Type*) where
  | call (i : ι)
  | advance (n : Nat)

/-- The turn starts a call of the given kind, or none. -/
def Turn.Within (Good : ι → Prop) : Turn ι → Prop
  | .call i => Good i
  | .advance _ => True

theorem Turn.within_true (ts : List (Turn ι)) : ∀ e ∈ ts, e.Within fun _ => True := by
  intro e _
  cases e with
  | call i => trivial
  | advance n => trivial

/-- Where a call starts, and what a task does next. -/
structure Program (σ τ ν ι : Type*) where
  entry : ι → τ
  step : σ → τ → σ × List ν × τ

namespace Program

/-- What a turn does.  A step of a task that does not exist does nothing. -/
def turn (p : Program σ τ ν ι) (D : Pool σ τ ν) : Turn ι → Pool σ τ ν × Unit
  | .call i => ({ D with tasks := D.tasks ++ [p.entry i] }, ())
  | .advance n =>
      match D.tasks[n]? with
      | none => (D, ())
      | some t =>
          let (shared, notes, t') := p.step D.shared t
          (⟨shared, D.tasks.set n t', D.log ++ notes⟩, ())

/-- The pool after a sequence of turns. -/
def run (p : Program σ τ ν ι) (D : Pool σ τ ν) (ts : List (Turn ι)) : Pool σ τ ν :=
  (Trace.run p.turn D ts).1

variable {p : Program σ τ ν ι} {D : Pool σ τ ν} {s s' : σ} {t t' : τ} {n : Nat}

@[simp] theorem run_nil : p.run D [] = D := rfl

@[simp] theorem run_cons (e : Turn ι) (ts : List (Turn ι)) :
    p.run D (e :: ts) = p.run (p.turn D e).1 ts := rfl

theorem run_append (ts ts' : List (Turn ι)) : p.run D (ts ++ ts') = p.run (p.run D ts) ts' := by
  unfold run
  rw [Trace.run_append]

theorem turn_advance (h : D.tasks[n]? = some t) :
    (p.turn D (.advance n)).1 = ⟨(p.step D.shared t).1, D.tasks.set n (p.step D.shared t).2.2,
      D.log ++ (p.step D.shared t).2.1⟩ := by
  simp only [turn, h]

theorem turn_advance_none (h : D.tasks[n]? = none) : (p.turn D (.advance n)).1 = D := by
  simp only [turn, h]

/-! ### Invariants

A step is taken by one task, but the invariant is of the whole pool, so a task may rely on what the
others keep. -/

/-- What holds of the shared state with the notes so far, and of every task. -/
structure Holds (Inv : σ → List ν → Prop) (Ok : τ → Prop) (D : Pool σ τ ν) : Prop where
  shared : Inv D.shared D.log
  tasks : ∀ t ∈ D.tasks, Ok t

/-- An invariant that every step of a good task keeps, leaving a good task, holds after any
turns. -/
theorem run_holds {Inv : σ → List ν → Prop} {Ok : τ → Prop} (hentry : ∀ i, Ok (p.entry i))
    (hstep : ∀ s log t, Inv s log → Ok t →
      Inv (p.step s t).1 (log ++ (p.step s t).2.1) ∧ Ok (p.step s t).2.2)
    (hD : Holds Inv Ok D) (ts : List (Turn ι)) : Holds Inv Ok (p.run D ts) := by
  induction ts generalizing D with
  | nil => exact hD
  | cons e ts ih =>
      refine ih ?_
      cases e with
      | call i =>
          refine ⟨hD.shared, fun t ht => ?_⟩
          rcases List.mem_append.mp ht with ht | ht
          · exact hD.tasks t ht
          · rw [List.mem_singleton.mp ht]
            exact hentry i
      | advance n =>
          cases ht : D.tasks[n]? with
          | none =>
              rw [turn_advance_none ht]
              exact hD
          | some t =>
              rw [turn_advance ht]
              obtain ⟨hInv, hOk⟩ :=
                hstep D.shared D.log t hD.shared (hD.tasks t (List.mem_of_getElem? ht))
              refine ⟨hInv, fun u hu => ?_⟩
              rcases List.mem_or_eq_of_mem_set hu with hu | rfl
              · exact hD.tasks u hu
              · exact hOk

/-! ### Accounting

A note may draw a thing or use one, and a task may hold one on the way. -/

section Accounting

variable {drawn used : ν → Option α} {held : τ → Option α}

/-- What the notes have used and the tasks still hold was drawn, each time it was drawn once. -/
def Balanced (drawn used : ν → Option α) (held : τ → Option α) (D : Pool σ τ ν) : Prop :=
  (D.log.filterMap used : Multiset α) + (D.tasks.filterMap held : Multiset α)
    ≤ (D.log.filterMap drawn : Multiset α)

/-- Replacing a task gives back what it held. -/
theorem filterMap_set_add (held : τ → Option α) {tasks : List τ} (h : tasks[n]? = some t)
    (t' : τ) :
    ((tasks.set n t').filterMap held : Multiset α) + ((held t).toList : Multiset α)
      = (tasks.filterMap held : Multiset α) + ((held t').toList : Multiset α) := by
  induction tasks generalizing n with
  | nil => simp at h
  | cons u tasks ih =>
      have hcons : ∀ (v : τ) (vs : List τ), ((v :: vs).filterMap held : Multiset α)
          = ((held v).toList : Multiset α) + (vs.filterMap held : Multiset α) := by
        intro v vs
        cases hv : held v with
        | none => simp [hv]
        | some a => simp [hv]
      cases n with
      | zero =>
          obtain rfl : u = t := by simpa using h
          rw [List.set_cons_zero, hcons, hcons]
          abel
      | succ n =>
          have h' : tasks[n]? = some t := by simpa using h
          rw [List.set_cons_succ, hcons, hcons, add_assoc, ih h', add_assoc]

theorem run_balanced (hentry : ∀ i, held (p.entry i) = none)
    (hstep : ∀ s t, ((p.step s t).2.1.filterMap used : Multiset α)
        + ((held (p.step s t).2.2).toList : Multiset α)
      ≤ ((held t).toList : Multiset α) + ((p.step s t).2.1.filterMap drawn : Multiset α))
    (hD : Balanced drawn used held D) (ts : List (Turn ι)) :
    Balanced drawn used held (p.run D ts) := by
  induction ts generalizing D with
  | nil => exact hD
  | cons e ts ih =>
      refine ih ?_
      cases e with
      | call i =>
          unfold Balanced at hD ⊢
          simpa [turn, hentry i] using hD
      | advance n =>
          cases ht : D.tasks[n]? with
          | none =>
              rw [turn_advance_none ht]
              exact hD
          | some t =>
              rw [turn_advance ht]
              have hset := filterMap_set_add held ht (p.step D.shared t).2.2
              have hnotes := hstep D.shared t
              unfold Balanced at hD ⊢
              simp only [List.filterMap_append, ← Multiset.coe_add] at hD ⊢
              -- what the replaced task held is on both sides
              refine le_of_add_le_add_right (a := ((held t).toList : Multiset α)) ?_
              calc _ = (D.log.filterMap used : Multiset α) + (D.tasks.filterMap held : Multiset α)
                      + (((p.step D.shared t).2.1.filterMap used : Multiset α)
                        + ((held (p.step D.shared t).2.2).toList : Multiset α)) := by
                    rw [add_assoc, hset]
                    abel
                _ ≤ (D.log.filterMap drawn : Multiset α) + (((held t).toList : Multiset α)
                      + ((p.step D.shared t).2.1.filterMap drawn : Multiset α)) :=
                    add_le_add hD hnotes
                _ = _ := by abel

/-- What was never drawn twice was never used twice. -/
theorem Balanced.nodup_used (h : Balanced drawn used held D)
    (hdrawn : (D.log.filterMap drawn).Nodup) : (D.log.filterMap used).Nodup := by
  have hle : (D.log.filterMap used : Multiset α) ≤ (D.log.filterMap drawn : Multiset α) :=
    le_trans (Multiset.le_add_right _ _) h
  exact Multiset.coe_nodup.mp (Multiset.nodup_of_le hle (Multiset.coe_nodup.mpr hdrawn))

end Accounting

/-! ### Guarded invariants

What holds of a task may depend on the shared state.  Then every step has to leave it true of the
tasks that do not take it. -/

section Guarded

/-- What holds of the shared state with the notes so far, and of every task in that state. -/
structure Guarded (Inv : σ → List ν → Prop) (Ok : σ → τ → Prop) (D : Pool σ τ ν) : Prop where
  shared : Inv D.shared D.log
  tasks : ∀ t ∈ D.tasks, Ok D.shared t

/-- A call of the given kind starts as a good task, and every step of a good task keeps the
invariant and leaves all tasks good. -/
structure Guards (p : Program σ τ ν ι) (Good : ι → Prop) (Inv : σ → List ν → Prop)
    (Ok : σ → τ → Prop) : Prop where
  entry : ∀ s i, Good i → Ok s (p.entry i)
  step : ∀ s log t, Inv s log → Ok s t →
    Inv (p.step s t).1 (log ++ (p.step s t).2.1) ∧ Ok (p.step s t).1 (p.step s t).2.2
  other : ∀ s log t u, Inv s log → Ok s t → Ok s u → Ok (p.step s t).1 u

variable {Good : ι → Prop} {Inv : σ → List ν → Prop} {Ok : σ → τ → Prop}

theorem Guards.turn (h : p.Guards Good Inv Ok) (hD : Guarded Inv Ok D) {e : Turn ι}
    (he : e.Within Good) : Guarded Inv Ok (p.turn D e).1 := by
  cases e with
  | call i =>
      refine ⟨hD.shared, fun t ht => ?_⟩
      rcases List.mem_append.mp ht with ht | ht
      · exact hD.tasks t ht
      · rw [List.mem_singleton.mp ht]
        exact h.entry D.shared i he
  | advance n =>
      cases ht : D.tasks[n]? with
      | none =>
          rw [turn_advance_none ht]
          exact hD
      | some t =>
          rw [turn_advance ht]
          have hOk := hD.tasks t (List.mem_of_getElem? ht)
          obtain ⟨hInv', hOk'⟩ := h.step D.shared D.log t hD.shared hOk
          refine ⟨hInv', fun u hu => ?_⟩
          rcases List.mem_or_eq_of_mem_set hu with hu | rfl
          · exact h.other D.shared D.log t u hD.shared hOk (hD.tasks u hu)
          · exact hOk'

theorem Guards.run (h : p.Guards Good Inv Ok) (hD : Guarded Inv Ok D) {ts : List (Turn ι)}
    (hts : ∀ e ∈ ts, e.Within Good) : Guarded Inv Ok (p.run D ts) := by
  induction ts generalizing D with
  | nil => exact hD
  | cons e ts ih =>
      exact ih (h.turn hD (hts e (List.mem_cons_self ..)))
        fun e' he' => hts e' (List.mem_cons_of_mem e he')

end Guarded

/-! ### Watching

What the notes do not tell may still be watched: the same program with other notes takes the same
course. -/

section Watching

variable {μ : Type*}

/-- The program, with what an observer sees of each step for its notes. -/
def watch (p : Program σ τ ν ι) (seen : σ → τ → List μ) : Program σ τ μ ι where
  entry := p.entry
  step s t := ((p.step s t).1, seen s t, (p.step s t).2.2)

theorem run_watch (seen : σ → τ → List μ) (ts : List (Turn ι)) :
    ∀ (s : σ) (tasks : List τ) (log : List ν) (log' : List μ),
      ((p.watch seen).run ⟨s, tasks, log'⟩ ts).shared = (p.run ⟨s, tasks, log⟩ ts).shared ∧
      ((p.watch seen).run ⟨s, tasks, log'⟩ ts).tasks = (p.run ⟨s, tasks, log⟩ ts).tasks := by
  induction ts with
  | nil => exact fun s tasks log log' => ⟨rfl, rfl⟩
  | cons e ts ih =>
      intro s tasks log log'
      cases e with
      | call i => exact ih s (tasks ++ [p.entry i]) log log'
      | advance n =>
          cases ht : tasks[n]? with
          | none =>
              rw [run_cons, run_cons, turn_advance_none ht, turn_advance_none ht]
              exact ih s tasks log log'
          | some t =>
              rw [run_cons, run_cons, turn_advance ht, turn_advance ht]
              exact ih _ _ _ _

end Watching

/-! ### Conservation

Things come in with calls or are drawn by notes, lie in the hands of a task or in the shared state,
and are used by notes. -/

section Conservation

/-- All that the notes of a log stand for. -/
def tally (f : ν → Multiset α) (log : List ν) : Multiset α := (log.map f).sum

@[simp] theorem tally_nil (f : ν → Multiset α) : tally f [] = 0 := rfl

@[simp] theorem tally_cons (f : ν → Multiset α) (x : ν) (log : List ν) :
    tally f (x :: log) = f x + tally f log := by
  simp [tally]

@[simp] theorem tally_append (f : ν → Multiset α) (log log' : List ν) :
    tally f (log ++ log') = tally f log + tally f log' := by
  simp [tally]

theorem tally_eq_zero {f : ν → Multiset α} {log : List ν} (h : ∀ x ∈ log, f x = 0) :
    tally f log = 0 := by
  induction log with
  | nil => rfl
  | cons x log ih =>
      rw [tally_cons, h x (List.mem_cons_self ..), zero_add]
      exact ih fun y hy => h y (List.mem_cons_of_mem x hy)

@[simp] theorem tally_zero (log : List ν) : tally (fun _ => (0 : Multiset α)) log = 0 :=
  tally_eq_zero fun _ _ => rfl

theorem tally_add {f g h : ν → Multiset α} (hadd : ∀ x, f x = g x + h x) (log : List ν) :
    tally f log = tally g log + tally h log := by
  induction log with
  | nil => rfl
  | cons x log ih =>
      rw [tally_cons, tally_cons, tally_cons, ih, hadd x]
      abel

/-- A tally of at most one thing a note. -/
theorem tally_eq_map {β : Type*} {f : ν → Multiset β} {g : ν → Option α} {k : α → β}
    (h : ∀ x, f x = (((g x).map k).toList : Multiset β)) (log : List ν) :
    tally f log = (((log.filterMap g).map k : List β) : Multiset β) := by
  induction log with
  | nil => rfl
  | cons x log ih =>
      rw [tally_cons, ih, h x]
      cases hx : g x with
      | none => simp [hx]
      | some a => simp [hx]

/-- What a turn brings in. -/
def brings (brought : ι → Multiset α) : Turn ι → Multiset α
  | .call i => brought i
  | .advance _ => 0

@[simp] theorem tally_brings_zero (ts : List (Turn ι)) :
    tally (brings fun _ => (0 : Multiset α)) ts = 0 := by
  refine tally_eq_zero fun e _ => ?_
  cases e <;> rfl

/-- No step makes anything: what it uses, passes on and leaves behind, its task held, the shared
state had, or it has drawn. -/
structure Conserves (p : Program σ τ ν ι) (Inv : σ → List ν → Prop) (Ok : σ → τ → Prop)
    (brought : ι → Multiset α) (drawn used : ν → Multiset α) (held : σ → τ → Multiset α)
    (stored : σ → Multiset α) : Prop where
  entry : ∀ s i, held s (p.entry i) ≤ brought i
  step : ∀ s log t, Inv s log → Ok s t →
    tally used (p.step s t).2.1 + held (p.step s t).1 (p.step s t).2.2 + stored (p.step s t).1
      ≤ held s t + stored s + tally drawn (p.step s t).2.1
  other : ∀ s log t u, Inv s log → Ok s t → Ok s u → held (p.step s t).1 u ≤ held s u

/-- What was used, is held and is stored came from the supply or was drawn. -/
def Balance (supply : Multiset α) (drawn used : ν → Multiset α) (held : σ → τ → Multiset α)
    (stored : σ → Multiset α) (D : Pool σ τ ν) : Prop :=
  tally used D.log + tally (held D.shared) D.tasks + stored D.shared ≤ supply + tally drawn D.log

/-- One entry of a list is replaced, and the others do not grow. -/
theorem tally_set_le {f f' : τ → Multiset α} {tasks : List τ} (h : tasks[n]? = some t) (t' : τ)
    (hle : ∀ u ∈ tasks, f' u ≤ f u) :
    tally f' (tasks.set n t') + f t ≤ tally f tasks + f' t' := by
  have hall : ∀ us : List τ, (∀ u ∈ us, f' u ≤ f u) → tally f' us ≤ tally f us := by
    intro us hus
    induction us with
    | nil => exact le_refl _
    | cons u us ih =>
        rw [tally_cons, tally_cons]
        exact add_le_add (hus u (List.mem_cons_self ..))
          (ih fun v hv => hus v (List.mem_cons_of_mem u hv))
  induction tasks generalizing n with
  | nil => simp at h
  | cons u tasks ih =>
      have hrest : ∀ v ∈ tasks, f' v ≤ f v := fun v hv => hle v (List.mem_cons_of_mem u hv)
      cases n with
      | zero =>
          obtain rfl : u = t := by simpa using h
          rw [List.set_cons_zero, tally_cons, tally_cons]
          calc f' t' + tally f' tasks + f u ≤ f' t' + tally f tasks + f u := by
                gcongr
                exact hall tasks hrest
            _ = _ := by abel
      | succ n =>
          have h' : tasks[n]? = some t := by simpa using h
          rw [List.set_cons_succ, tally_cons, tally_cons, add_assoc, add_assoc]
          exact add_le_add (hle u (List.mem_cons_self ..)) (ih h' hrest)

variable {Good : ι → Prop} {Inv : σ → List ν → Prop} {Ok : σ → τ → Prop}
  {brought : ι → Multiset α}
  {drawn used : ν → Multiset α} {held : σ → τ → Multiset α} {stored : σ → Multiset α}
  {supply : Multiset α}

theorem Conserves.turn (hc : p.Conserves Inv Ok brought drawn used held stored)
    (hD : Guarded Inv Ok D) (hb : Balance supply drawn used held stored D) (e : Turn ι) :
    Balance (supply + brings brought e) drawn used held stored (p.turn D e).1 := by
  unfold Balance at hb ⊢
  cases e with
  | call i =>
      simp only [Program.turn, brings, tally_append, tally_cons, tally_nil, add_zero]
      calc _ = (tally used D.log + tally (held D.shared) D.tasks + stored D.shared)
              + held D.shared (p.entry i) := by abel
        _ ≤ (supply + tally drawn D.log) + brought i := add_le_add hb (hc.entry D.shared i)
        _ = _ := by abel
  | advance n =>
      cases ht : D.tasks[n]? with
      | none =>
          rw [turn_advance_none ht]
          simpa [brings] using hb
      | some t =>
          rw [turn_advance ht]
          have hOk := hD.tasks t (List.mem_of_getElem? ht)
          have hset := tally_set_le ht (p.step D.shared t).2.2 fun u hu =>
            hc.other D.shared D.log t u hD.shared hOk (hD.tasks u hu)
          have hstep := hc.step D.shared D.log t hD.shared hOk
          simp only [brings, add_zero, tally_append]
          -- what the replaced task held, and what was stored, is on both sides
          refine le_of_add_le_add_right (a := held D.shared t + stored D.shared
            + held (p.step D.shared t).1 (p.step D.shared t).2.2) ?_
          calc _ = (tally used D.log + stored D.shared)
                  + (tally (held (p.step D.shared t).1) (D.tasks.set n (p.step D.shared t).2.2)
                    + held D.shared t)
                  + (tally used (p.step D.shared t).2.1
                    + held (p.step D.shared t).1 (p.step D.shared t).2.2
                    + stored (p.step D.shared t).1) := by abel
            _ ≤ (tally used D.log + stored D.shared)
                  + (tally (held D.shared) D.tasks
                    + held (p.step D.shared t).1 (p.step D.shared t).2.2)
                  + (held D.shared t + stored D.shared + tally drawn (p.step D.shared t).2.1) := by
                gcongr
            _ = (tally used D.log + tally (held D.shared) D.tasks + stored D.shared)
                  + (held (p.step D.shared t).1 (p.step D.shared t).2.2 + held D.shared t
                    + stored D.shared + tally drawn (p.step D.shared t).2.1) := by abel
            _ ≤ (supply + tally drawn D.log)
                  + (held (p.step D.shared t).1 (p.step D.shared t).2.2 + held D.shared t
                    + stored D.shared + tally drawn (p.step D.shared t).2.1) := by
                gcongr
            _ = _ := by abel

/-- **Nothing is made on the way**, whatever the order of the steps. -/
theorem Conserves.run (hc : p.Conserves Inv Ok brought drawn used held stored)
    (hg : p.Guards Good Inv Ok) (hD : Guarded Inv Ok D)
    (hb : Balance supply drawn used held stored D) {ts : List (Turn ι)}
    (hts : ∀ e ∈ ts, e.Within Good) :
    Balance (supply + tally (brings brought) ts) drawn used held stored (p.run D ts) := by
  induction ts generalizing D supply with
  | nil => simpa using hb
  | cons e ts ih =>
      rw [tally_cons, ← add_assoc]
      exact ih (hg.turn hD (hts e (List.mem_cons_self ..))) (hc.turn hD hb e)
        fun e' he' => hts e' (List.mem_cons_of_mem e he')

/-- From an empty pool over a state in which nothing is stored. -/
theorem Conserves.used_le (hc : p.Conserves Inv Ok brought drawn used held stored)
    (hg : p.Guards Good Inv Ok) (hInv : Inv s []) (hstored : stored s = 0) {ts : List (Turn ι)}
    (hts : ∀ e ∈ ts, e.Within Good) :
    tally used (p.run ⟨s, [], []⟩ ts).log
      ≤ tally (brings brought) ts + tally drawn (p.run ⟨s, [], []⟩ ts).log := by
  have hb : Balance 0 drawn used held stored (⟨s, [], []⟩ : Pool σ τ ν) := by
    simp [Balance, hstored]
  have hrun := hc.run hg ⟨hInv, by simp⟩ hb hts
  unfold Balance at hrun
  rw [zero_add] at hrun
  exact le_trans (le_trans (Multiset.le_add_right _ _) (Multiset.le_add_right _ _)) hrun

end Conservation

/-- Where nothing occurs twice, it occurs in one place. -/
theorem eq_of_nodup_filterMap {f : ν → Option α} {log : List ν} (h : (log.filterMap f).Nodup)
    {i j : Nat} {x y : ν} {a : α} (hi : log[i]? = some x) (hj : log[j]? = some y)
    (hx : f x = some a) (hy : f y = some a) : i = j := by
  obtain ⟨hilt, hi⟩ := List.getElem?_eq_some_iff.mp hi
  obtain ⟨hjlt, hj⟩ := List.getElem?_eq_some_iff.mp hj
  have hpair := List.pairwise_iff_getElem.mp (List.pairwise_filterMap.mp h)
  rcases Nat.lt_trichotomy i j with hlt | heq | hlt
  · exact absurd rfl (hpair i j hilt hjlt hlt a (hi ▸ hx) a (hj ▸ hy))
  · exact heq
  · exact absurd rfl (hpair j i hjlt hilt hlt a (hj ▸ hy) a (hi ▸ hx))

/-! ### One task at a time

A call that is left alone runs to its end.  So every run in which calls do not overlap is one of the
runs considered here. -/

/-- The task, alone, takes the shared state from `s` to `s'` and leaves the notes. -/
inductive Finishes (p : Program σ τ ν ι) (idle : τ → Prop) : σ → τ → List ν → σ → Prop where
  | idle {s : σ} {t : τ} (h : idle t) : Finishes p idle s t [] s
  | step {s s₁ s' : σ} {t t₁ : τ} {notes notes₁ : List ν} (hstep : p.step s t = (s₁, notes₁, t₁))
      (h : Finishes p idle s₁ t₁ notes s') : Finishes p idle s t (notes₁ ++ notes) s'

variable {idle : τ → Prop} {notes : List ν}

/-- There are turns that bring the task to its end. -/
theorem Finishes.exists_turns (h : Finishes p idle s t notes s') :
    ∀ (tasks : List τ) (log : List ν), tasks[n]? = some t →
      ∃ k u, idle u ∧ p.run ⟨s, tasks, log⟩ (List.replicate k (.advance n))
        = ⟨s', tasks.set n u, log ++ notes⟩ := by
  induction h with
  | @idle s t hidle =>
      intro tasks log ht
      refine ⟨0, t, hidle, ?_⟩
      rw [List.append_nil, List.replicate_zero, run_nil]
      congr 1
      obtain ⟨hlt, rfl⟩ := List.getElem?_eq_some_iff.mp ht
      exact (List.set_getElem_self hlt).symm
  | @step s s₁ s' t t₁ notes notes₁ hstep _ ih =>
      intro tasks log ht
      have hlt : n < tasks.length := (List.getElem?_eq_some_iff.mp ht).1
      obtain ⟨k, u, hidle, hrun⟩ :=
        ih (tasks.set n t₁) (log ++ notes₁) (List.getElem?_set_self hlt)
      refine ⟨k + 1, u, hidle, ?_⟩
      rw [List.replicate_succ, run_cons, turn_advance ht]
      simp only [hstep]
      rw [hrun, List.set_set, List.append_assoc]

end Program

end Interleave
