/-
Runs of a deterministic machine, with the trace they leave.

A machine is a step function from a state and an input to a new state and an
output.  `run` feeds it a list of inputs.  Everything proved about whole runs in
this development goes through the rules below: an invariant kept by every step holds
at the end, an invariant kept by every step that meets a condition holds at the end
of every run that meets it throughout, two machines related step by step leave the
same trace, and a component that moves by steps of its own is followed through a run
by its own steps alone.
-/
import Mathlib.Data.List.Basic

namespace Trace

variable {σ ε ω : Type*}

/-- Feed the inputs in order: the final state, and one output for each input. -/
def run (step : σ → ε → σ × ω) : σ → List ε → σ × List ω
  | s, [] => (s, [])
  | s, e :: es => ((run step (step s e).1 es).1, (step s e).2 :: (run step (step s e).1 es).2)

@[simp] theorem run_nil (step : σ → ε → σ × ω) (s : σ) : run step s [] = (s, []) := rfl

@[simp] theorem run_cons (step : σ → ε → σ × ω) (s : σ) (e : ε) (es : List ε) :
    run step s (e :: es)
      = ((run step (step s e).1 es).1, (step s e).2 :: (run step (step s e).1 es).2) := rfl

theorem run_append (step : σ → ε → σ × ω) (s : σ) (es fs : List ε) :
    run step s (es ++ fs)
      = ((run step (run step s es).1 fs).1,
          (run step s es).2 ++ (run step (run step s es).1 fs).2) := by
  induction es generalizing s with
  | nil => simp
  | cons e es ih => simp [ih]

theorem run_map {δ : Type*} (step : σ → ε → σ × ω) (f : δ → ε) (s : σ) (ds : List δ) :
    run step s (ds.map f) = run (fun s d => step s (f d)) s ds := by
  induction ds generalizing s with
  | nil => rfl
  | cons d ds ih => simp [ih]

theorem run_map_output {ω' : Type*} (step : σ → ε → σ × ω) (g : ω → ω') (s : σ) (es : List ε) :
    run (fun s e => ((step s e).1, g (step s e).2)) s es
      = ((run step s es).1, (run step s es).2.map g) := by
  induction es generalizing s with
  | nil => rfl
  | cons e es ih => simp [ih]

/-- The states of a run do not depend on what it leaves. -/
theorem run_fst_congr {ω' : Type*} (step : σ → ε → σ × ω) (step' : σ → ε → σ × ω')
    (h : ∀ s e, (step s e).1 = (step' s e).1) (es : List ε) :
    ∀ s, (run step s es).1 = (run step' s es).1 := by
  induction es with
  | nil => intro s; rfl
  | cons e es ih =>
      intro s
      rw [run_cons, run_cons, h]
      exact ih _

/-! ### Invariants

A condition on the steps of a run may depend on the state in which they are taken, so it is stated
along the run. -/

/-- Every step of the run meets `Q`, a condition on the state before it and its input. -/
def Meets (step : σ → ε → σ × ω) (Q : σ → ε → Prop) : σ → List ε → Prop
  | _, [] => True
  | s, e :: es => Q s e ∧ Meets step Q (step s e).1 es

instance Meets.decidable (step : σ → ε → σ × ω) (Q : σ → ε → Prop) [∀ s e, Decidable (Q s e)] :
    ∀ (s : σ) (es : List ε), Decidable (Meets step Q s es)
  | _, [] => .isTrue trivial
  | s, e :: es =>
      have := Meets.decidable step Q (step s e).1 es
      inferInstanceAs (Decidable (Q s e ∧ Meets step Q (step s e).1 es))

theorem meets_append {step : σ → ε → σ × ω} {Q : σ → ε → Prop} {s : σ} {es fs : List ε} :
    Meets step Q s (es ++ fs)
      ↔ Meets step Q s es ∧ Meets step Q (run step s es).1 fs := by
  induction es generalizing s with
  | nil => simp [Meets]
  | cons e es ih => simp [Meets, ih, and_assoc]

/-- A run meets the condition exactly when each of its steps does, wherever it stands. -/
theorem meets_iff {step : σ → ε → σ × ω} {Q : σ → ε → Prop} {s : σ} {es : List ε} :
    Meets step Q s es
      ↔ ∀ pre e post, es = pre ++ e :: post → Q (run step s pre).1 e := by
  constructor
  · intro h pre e post hes
    rw [hes, meets_append] at h
    exact h.2.1
  · intro h
    induction es generalizing s with
    | nil => trivial
    | cons e es ih =>
        refine ⟨h [] e es rfl, ih ?_⟩
        intro pre f post hes
        exact h (e :: pre) f post (by rw [hes]; rfl)

theorem run_invariant_of_meets {step : σ → ε → σ × ω} {Q : σ → ε → Prop} (Inv : σ → Prop)
    (hstep : ∀ s e, Inv s → Q s e → Inv (step s e).1) :
    ∀ (es : List ε) (s : σ), Inv s → Meets step Q s es → Inv (run step s es).1 := by
  intro es
  induction es with
  | nil => intro s h _; exact h
  | cons e es ih => intro s h hq; exact ih _ (hstep s e h hq.1) hq.2

/-- An invariant of the state and the inputs so far that every step keeps holds at the end. -/
theorem run_history {step : σ → ε → σ × ω} {Inv : List ε → σ → Prop}
    (hstep : ∀ past s e, Inv past s → Inv (past ++ [e]) (step s e).1) (es : List ε) :
    ∀ past s, Inv past s → Inv (past ++ es) (run step s es).1 := by
  induction es with
  | nil =>
      intro past s h
      rwa [List.append_nil]
  | cons e es ih =>
      intro past s h
      have hrest := ih (past ++ [e]) (step s e).1 (hstep past s e h)
      rwa [List.append_assoc] at hrest

/-- What each step that meets the condition does to its input, a run that meets it throughout does
to its inputs, one by one. -/
theorem run_forall₂_of_meets {step : σ → ε → σ × ω} {Q : σ → ε → Prop} {R : ε → ω → Prop}
    (hstep : ∀ s e, Q s e → R e (step s e).2) :
    ∀ (es : List ε) (s : σ), Meets step Q s es → List.Forall₂ R es (run step s es).2 := by
  intro es
  induction es with
  | nil => intro s _; exact .nil
  | cons e es ih => intro s hq; exact .cons (hstep s e hq.1) (ih _ hq.2)

/-- If the condition is what a step needs to keep the invariant, the runs whose states all have the
invariant are the runs that meet it. -/
theorem forall_prefix_iff_meets {step : σ → ε → σ × ω} {Q : σ → ε → Prop} {Inv : σ → Prop}
    (hstep : ∀ s e, Inv s → (Inv (step s e).1 ↔ Q s e)) {s : σ} (hs : Inv s) (es : List ε) :
    (∀ pre, pre <+: es → Inv (run step s pre).1) ↔ Meets step Q s es := by
  constructor
  · intro hall
    rw [meets_iff]
    intro pre e post hes
    have hbefore := hall pre ⟨e :: post, hes.symm⟩
    have hafter := hall (pre ++ [e]) ⟨post, by rw [hes]; simp⟩
    rw [run_append] at hafter
    exact (hstep _ e hbefore).mp hafter
  · intro hmeets pre hpre
    obtain ⟨post, rfl⟩ := hpre
    exact run_invariant_of_meets Inv (fun s e hinv hq => (hstep s e hinv).mpr hq) pre s hs
      (meets_append.mp hmeets).1

/-! ### Simulation

Two runs side by side: what one step preserves of a relation between their states, all steps do. -/

/-- Two machines that answer alike from related states, and stay related, leave the
same trace. -/
theorem run_simulation {τ : Type*} (step : σ → ε → σ × ω) (step' : τ → ε → τ × ω)
    (R : σ → τ → Prop)
    (hstep : ∀ s t e, R s t → (step s e).2 = (step' t e).2 ∧ R (step s e).1 (step' t e).1) :
    ∀ (es : List ε) (s : σ) (t : τ), R s t →
      (run step s es).2 = (run step' t es).2 ∧ R (run step s es).1 (run step' t es).1 := by
  intro es
  induction es with
  | nil => intro s t h; exact ⟨rfl, h⟩
  | cons e es ih =>
      intro s t h
      obtain ⟨hout, hrel⟩ := hstep s t e h
      obtain ⟨houts, hend⟩ := ih _ _ hrel
      exact ⟨by rw [run_cons, run_cons, hout, houts], hend⟩

/-- Two runs of one machine on inputs that are related one by one: if a step keeps the states
related and an observer cannot tell its outputs apart, the observer cannot tell the runs apart. -/
theorem run_alike {ω' : Type*} {step : σ → ε → σ × ω} {seen : ω → ω'} {R : σ → σ → Prop}
    {E : ε → ε → Prop}
    (hstep : ∀ s t e f, R s t → E e f →
      R (step s e).1 (step t f).1 ∧ seen (step s e).2 = seen (step t f).2)
    {es fs : List ε} (h : List.Forall₂ E es fs) :
    ∀ s t, R s t → (run step s es).2.map seen = (run step t fs).2.map seen := by
  induction h with
  | nil => intro s t _; rfl
  | @cons e f es fs hef _ ih =>
      intro s t hst
      obtain ⟨hrel, hseen⟩ := hstep s t e f hst hef
      rw [run_cons, run_cons, List.map_cons, List.map_cons, hseen, ih _ _ hrel]

/-! ### Labelled steps

A component of a machine moves by steps of its own, several to one step of the machine, each with
the outputs it accounts for.  `Executes` chains them. -/

/-- Any number of steps of a relation, with what they emit one after the other. -/
inductive Executes (R : σ → List ω → σ → Prop) : σ → List ω → σ → Prop where
  | nil (s : σ) : Executes R s [] s
  | cons {s t u : σ} {l l' : List ω} : R s l t → Executes R t l' u → Executes R s (l ++ l') u

namespace Executes

variable {R : σ → List ω → σ → Prop}

theorem single {s t : σ} {l : List ω} (h : R s l t) : Executes R s l t := by
  have h1 := cons h (nil t)
  rwa [List.append_nil] at h1

theorem append {s t u : σ} {l l' : List ω} (h : Executes R s l t) (h' : Executes R t l' u) :
    Executes R s (l ++ l') u := by
  induction h with
  | nil s => exact h'
  | cons hstep _ ih =>
      rw [List.append_assoc]
      exact cons hstep (ih h')

/-- What every step keeps, of the state and of the outputs so far, an execution keeps. -/
theorem invariant {Inv : σ → List ω → Prop}
    (hstep : ∀ s t l past, Inv s past → R s l t → Inv t (past ++ l)) {s t : σ} {l : List ω}
    (h : Executes R s l t) : ∀ past, Inv s past → Inv t (past ++ l) := by
  induction h with
  | nil s =>
      intro past hinv
      rwa [List.append_nil]
  | cons hR _ ih =>
      intro past hinv
      rw [← List.append_assoc]
      exact ih _ (hstep _ _ _ _ hinv hR)

/-- Where an output stands in the trace, there is a step that accounts for it. -/
theorem exists_step {s t : σ} {l : List ω} (h : Executes R s l t) :
    ∀ {pre post : List ω} {e : ω}, l = pre ++ e :: post →
      ∃ s' t' before l1 l2 after, Executes R s before s' ∧ R s' (l1 ++ e :: l2) t' ∧
        Executes R t' after t ∧ pre = before ++ l1 ∧ post = l2 ++ after := by
  induction h with
  | nil s =>
      intro pre post e heq
      simp at heq
  | @cons s t u l l' hR hrest ih =>
      intro pre post e heq
      rcases List.append_eq_append_iff.mp heq with ⟨rest, hpre, hl'⟩ | ⟨rest, hl, hpost⟩
      · -- behind the first step
        obtain ⟨s', t', before, l1, l2, after, hbefore, hstep, hafter, hrest, hpost⟩ := ih hl'
        refine ⟨s', t', l ++ before, l1, l2, after, .cons hR hbefore, hstep, hafter, ?_, hpost⟩
        rw [hpre, hrest, List.append_assoc]
      · rcases rest with _ | ⟨e', rest⟩
        · -- at the seam: `e` is the first output after the first step
          have hl' : l' = [] ++ e :: post := hpost.symm
          obtain ⟨s', t', before, l1, l2, after, hbefore, hstep, hafter, hrest, hpost⟩ := ih hl'
          refine ⟨s', t', l ++ before, l1, l2, after, .cons hR hbefore, hstep, hafter, ?_, hpost⟩
          rw [hl, List.append_nil, List.append_assoc, ← hrest, List.append_nil]
        · obtain ⟨rfl, rfl⟩ := List.cons.inj hpost
          rw [hl] at hR
          exact ⟨s, t, [], pre, rest, l', .nil s, hR, hrest, rfl, rfl⟩

end Executes

/-- If each step of a machine is an execution of a component, so is each run. -/
theorem executes_run {τ : Type*} {step : σ → ε → σ × List ω} {R : τ → List ω → τ → Prop}
    {proj : σ → τ} (es : List ε)
    (hstep : ∀ s, ∀ e ∈ es, Executes R (proj s) (step s e).2 (proj (step s e).1)) :
    ∀ s, Executes R (proj s) (run step s es).2.flatten (proj (run step s es).1) := by
  induction es with
  | nil => intro s; exact .nil _
  | cons e es ih =>
      intro s
      exact (hstep s e (List.mem_cons_self ..)).append
        (ih (fun s e' he' => hstep s e' (List.mem_cons_of_mem e he')) _)

end Trace
