/-
Leases: keys that are entered at a time and swept when they are due.

Entering a key that is there changes nothing, so a lease keeps the time of its first
entry, and a sweep drops the leases that are due at it.  Two questions are answered
from the history alone.  Which leases stand: the key was entered when it was free and
no sweep since was due.  And when two histories differ only in that the second enters
more, how can it hold less: by one sweep that found the older lease of the second due
and the younger lease of the first not, with no entry since.
-/
import Mathlib.Data.List.Induction
import Mathlib.Data.Option.Basic
import Mathlib.Logic.Function.Basic

namespace Leases

variable {K T : Type*}

/-- What happens to the leases. -/
inductive Event (K T : Type*) where
  /-- The key is entered, unless it is there. -/
  | enter (k : K) (t : T)
  /-- The leases that are due are dropped. -/
  | sweep (due : K → T → Bool)
  | idle

variable [DecidableEq K]

/-- An entry keeps the time at which it was made: entering it again changes nothing. -/
def step (tab : K → Option T) : Event K T → K → Option T
  | .enter k t => if (tab k).isSome then tab else Function.update tab k (some t)
  | .sweep due => fun k => (tab k).filter fun t => !due k t
  | .idle => tab

/-- The table after a sequence of events. -/
def run (tab : K → Option T) (es : List (Event K T)) : K → Option T := es.foldl step tab

section Run

variable {tab : K → Option T} {es : List (Event K T)} {e : Event K T} {k : K} {t : T}

@[simp] theorem run_nil : run tab [] = tab := rfl

@[simp] theorem run_cons : run tab (e :: es) = run (step tab e) es := rfl

@[simp] theorem run_append (fs : List (Event K T)) :
    run tab (es ++ fs) = run (run tab es) fs := List.foldl_append

/-- A lease that stands is left alone by everything but a sweep that finds it due. -/
theorem step_of_some (h : tab k = some t) (hdue : ∀ due, e = .sweep due → due k t = false) :
    step tab e k = some t := by
  cases e with
  | enter k' t' =>
      by_cases hk : k' = k
      · simp [step, hk, h]
      · by_cases hsome : (tab k').isSome
        · simp [step, hsome, h]
        · simp [step, hsome, Function.update_of_ne (Ne.symm hk), h]
  | sweep due => simp [step, h, hdue due rfl]
  | idle => exact h

/-- A key that is free stays free until it is entered. -/
theorem step_of_none (h : tab k = none) (hne : ∀ t, e ≠ .enter k t) : step tab e k = none := by
  cases e with
  | enter k' t' =>
      have hk : k ≠ k' := by
        intro heq
        exact hne t' (by rw [heq])
      by_cases hsome : (tab k').isSome
      · simp [step, hsome, h]
      · simp [step, hsome, Function.update_of_ne hk, h]
  | sweep due => simp [step, h]
  | idle => exact h

/-- A lease stands after a step if it stood and was not due, or was entered just now. -/
theorem of_step_eq_some (h : step tab e k = some t) :
    (tab k = some t ∧ ∀ due, e = .sweep due → due k t = false) ∨
      (tab k = none ∧ e = .enter k t) := by
  cases hk : tab k with
  | none =>
      refine .inr ⟨rfl, ?_⟩
      by_contra hne
      cases e with
      | enter k' t' =>
          by_cases hkk : k' = k
          · rw [hkk] at h hne
            simp only [step, hk, Option.isSome_none, Bool.false_eq_true, if_false,
              Function.update_self, Option.some.injEq] at h
            exact hne (by rw [h])
          · rw [step_of_none hk (fun t ht => hkk (Event.enter.inj ht).1)] at h
            cases h
      | sweep due => simp [step, hk] at h
      | idle => simp [step, hk] at h
  | some t' =>
      refine .inl ?_
      cases e with
      | enter k' u =>
          rw [step_of_some hk (fun due hdue => by cases hdue)] at h
          exact ⟨h, fun due hdue => by cases hdue⟩
      | sweep due =>
          simp only [step, hk, Option.filter_eq_some_iff] at h
          refine ⟨h.1, ?_⟩
          intro due' hdue
          obtain rfl := Event.sweep.inj hdue
          simpa using h.2
      | idle =>
          rw [step, hk] at h
          exact ⟨h, fun due hdue => by cases hdue⟩

theorem run_of_some (es : List (Event K T)) : ∀ {tab : K → Option T}, tab k = some t →
    (∀ due, .sweep due ∈ es → due k t = false) → run tab es k = some t := by
  induction es with
  | nil => intro tab h _; exact h
  | cons e es ih =>
      intro tab h hdue
      refine ih (step_of_some h ?_) (fun due hmem => hdue due (List.mem_cons_of_mem _ hmem))
      intro due he
      exact hdue due (by rw [he]; exact List.mem_cons_self)

theorem run_of_none (es : List (Event K T)) : ∀ {tab : K → Option T}, tab k = none →
    (∀ t, .enter k t ∉ es) → run tab es k = none := by
  induction es with
  | nil => intro tab h _; exact h
  | cons e es ih =>
      intro tab h hne
      refine ih (step_of_none h ?_) (fun t hmem => hne t (List.mem_cons_of_mem _ hmem))
      intro t he
      exact hne t (by rw [he]; exact List.mem_cons_self)

/-- **The leases that stand.**  A key has a lease of time `t` if it was entered at `t` when it was
free and no sweep since found it due. -/
theorem run_eq_some_iff (hnew : tab k = none) : run tab es k = some t ↔
    ∃ pre post, es = pre ++ .enter k t :: post ∧ run tab pre k = none ∧
      ∀ due, .sweep due ∈ post → due k t = false := by
  constructor
  · intro h
    induction es using List.reverseRecOn with
    | nil =>
        rw [run_nil, hnew] at h
        cases h
    | append_singleton es e ih =>
        rw [run_append] at h
        rcases of_step_eq_some h with ⟨hstood, hdue⟩ | ⟨hfree, he⟩
        · obtain ⟨pre, post, hes, hpre, hpost⟩ := ih hstood
          refine ⟨pre, post ++ [e], by rw [hes]; simp, hpre, ?_⟩
          intro due hmem
          rcases List.mem_append.mp hmem with hmem | hmem
          · exact hpost due hmem
          · exact hdue due (List.mem_singleton.mp hmem).symm
        · exact ⟨es, [], by rw [he], hfree, by simp⟩
  · intro h
    obtain ⟨pre, post, hes, hfree, hdue⟩ := h
    rw [hes, run_append, run_cons]
    refine run_of_some post ?_ hdue
    simp [step, hfree]

end Run

/-! ### Two histories

The same things happen to two tables, except that the second is entered more often. -/

/-- The second event does what the first does, or enters a key where the first does nothing. -/
inductive Covers : Event K T → Event K T → Prop where
  | same (e : Event K T) : Covers e e
  | more (k : K) (t : T) : Covers .idle (.enter k t)

omit [DecidableEq K] in
theorem Covers.eq_of_sweep {due : K → T → Bool} {e : Event K T} (h : Covers (.sweep due) e) :
    e = .sweep due := by
  cases h with
  | same _ => rfl

section Compare

variable {α : Type*} {f g : α → Event K T} {tab : K → Option T} {k : K}

/-- What one thing does to a key that the first table has and the second has not afterwards: either
it was so before and has not been entered since, or this was a sweep that told the leases apart. -/
theorem of_step_lag {tab' : K → Option T} {e e' : Event K T} {t : T} (hcov : Covers e e')
    (hfirst : step tab e k = some t) (hsecond : step tab' e' k = none) :
    (tab k = some t ∧ tab' k = none ∧ (∀ t, e' ≠ .enter k t) ∧
        ∀ due, e = .sweep due → due k t = false) ∨
      ∃ due t', e = .sweep due ∧ tab k = some t ∧ due k t = false ∧ tab' k = some t' ∧
        due k t' = true := by
  have hnew : ∀ u, e' ≠ .enter k u := by
    intro u he
    rw [he] at hsecond
    cases htab : tab' k with
    | none => simp [step, htab] at hsecond
    | some v => simp [step, htab] at hsecond
  have hstood : tab k = some t ∧ ∀ due, e = .sweep due → due k t = false := by
    rcases of_step_eq_some hfirst with hstood | ⟨-, he⟩
    · exact hstood
    · cases hcov with
      | same e => exact absurd he (hnew t)
      | more k' t' => cases he
  cases htab : tab' k with
  | none => exact .inl ⟨hstood.1, rfl, hnew, hstood.2⟩
  | some t' =>
      -- the second table lost the key at this step, so it was a sweep
      by_cases hsweep : ∃ due, e' = .sweep due ∧ due k t' = true
      · obtain ⟨due, he', hdue⟩ := hsweep
        rw [he'] at hcov
        cases hcov with
        | same _ => exact .inr ⟨due, t', rfl, hstood.1, hstood.2 due rfl, rfl, hdue⟩
      · rw [step_of_some htab] at hsecond
        · cases hsecond
        · intro due he'
          by_contra hdue
          exact hsweep ⟨due, he', by simpa using hdue⟩

/-- A lease that a sweep did not find due stands until a later one does. -/
theorem run_map_of_sweep {pre mid : List α} {a : α} {due : K → T → Bool} {t : T}
    (ha : f a = .sweep due) (hpre : run tab (pre.map f) k = some t) (hkept : due k t = false)
    (hsweeps : ∀ b ∈ mid, ∀ due, f b = .sweep due → due k t = false) :
    run tab ((pre ++ a :: mid).map f) k = some t := by
  rw [List.map_append, List.map_cons, run_append, run_cons]
  refine run_of_some _ (step_of_some hpre ?_) ?_
  · intro due' ha'
    rw [ha] at ha'
    rwa [← Event.sweep.inj ha']
  · intro due' hmem
    obtain ⟨b, hb, hfb⟩ := List.mem_map.mp hmem
    exact hsweeps b hb due' hfb

/-- **How the fuller history can hold less.**  The first table has a key that the second has not
exactly when some sweep found the second's lease due and the first's not, the second has not been
entered since, and no sweep since has found the first's due. -/
theorem lag_iff (hcov : ∀ a, Covers (f a) (g a)) (hnew : tab k = none) (as : List α) :
    ((run tab (as.map f) k).isSome ∧ run tab (as.map g) k = none) ↔
      ∃ pre a mid due t t', as = pre ++ a :: mid ∧ f a = .sweep due ∧
        run tab (pre.map f) k = some t ∧ due k t = false ∧
        run tab (pre.map g) k = some t' ∧ due k t' = true ∧
        (∀ b ∈ mid, ∀ u, g b ≠ .enter k u) ∧
        ∀ b ∈ mid, ∀ due, f b = .sweep due → due k t = false := by
  constructor
  · intro h
    obtain ⟨t, hfirst⟩ := Option.isSome_iff_exists.mp h.1
    have hsecond := h.2
    clear h
    induction as using List.reverseRecOn with
    | nil =>
        rw [List.map_nil, run_nil, hnew] at hfirst
        cases hfirst
    | append_singleton as a ih =>
        rw [List.map_append, run_append] at hfirst hsecond
        rcases of_step_lag (hcov a) hfirst hsecond with
          ⟨hstood, hgone, hnoenter, hnodue⟩ | ⟨due, t', he, hstood, hkept, hother, hdropped⟩
        · obtain ⟨pre, b, mid, due, u, t', has, hb, hpre, hkept, hother, hdropped, hmid, hsweeps⟩ :=
            ih hstood hgone
          -- the lease of the first table is the one it had at that sweep
          obtain rfl : u = t := by
            rw [has, run_map_of_sweep hb hpre hkept hsweeps] at hstood
            exact Option.some.inj hstood
          refine ⟨pre, b, mid ++ [a], due, u, t', by rw [has]; simp, hb, hpre, hkept, hother,
            hdropped, ?_, ?_⟩
          · exact List.forall_mem_append.mpr ⟨hmid, List.forall_mem_singleton.mpr hnoenter⟩
          · exact List.forall_mem_append.mpr ⟨hsweeps, List.forall_mem_singleton.mpr hnodue⟩
        · exact ⟨as, a, [], due, t, t', rfl, he, hstood, hkept, hother, hdropped, by simp, by simp⟩
  · intro h
    obtain ⟨pre, a, mid, due, t, t', has, ha, hpre, hkept, hother, hdropped, hmid, hsweeps⟩ := h
    have hga : g a = .sweep due := (ha ▸ hcov a).eq_of_sweep
    refine ⟨?_, ?_⟩
    · rw [has, run_map_of_sweep ha hpre hkept hsweeps]
      rfl
    · rw [has, List.map_append, List.map_cons, run_append, run_cons, hga]
      refine run_of_none (mid.map g) ?_ ?_
      · simp [step, hother, hdropped]
      · intro u hmem
        obtain ⟨b, hb, hgb⟩ := List.mem_map.mp hmem
        exact hmid b hb u hgb

end Compare

end Leases
