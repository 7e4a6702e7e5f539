/-
Calls that can fail.

A chain of fallible calls succeeds exactly when each of them does on what the ones before
it returned.  The lemmas below turn such a chain into that conjunction, one call at a
time, so that neither direction of the argument has to look inside a monad.  Loops over
lists are treated in the same way.  The error type is arbitrary, and a change of the
message by `mapError` is seen through: it never decides whether a call succeeds.

Two calls come to the same if both fail, for whatever reasons, or both return the same.
That is the equality to ask for where only the messages differ.
-/
import Mathlib.Data.List.Forall2
import Mathlib.Logic.Basic

namespace Fallible

variable {ε ε' α β : Type}

theorem bind_ok {x : Except ε α} {f : α → Except ε β} {b : β} :
    (x >>= f) = .ok b ↔ ∃ a, x = .ok a ∧ f a = .ok b := by
  cases x with
  | error e => simp [bind, Except.bind]
  | ok a => simp [bind, Except.bind]

theorem mapError_ok {x : Except ε α} {f : ε → ε'} {a : α} :
    x.mapError f = .ok a ↔ x = .ok a := by
  cases x with
  | error e =>
      show (Except.error (f e) : Except ε' α) = .ok a ↔ _
      simp only [reduceCtorEq]
  | ok b =>
      show (Except.ok b : Except ε' α) = .ok a ↔ _
      simp only [Except.ok.injEq]

theorem map_ok {x : Except ε α} {f : α → β} {b : β} :
    (f <$> x) = .ok b ↔ ∃ a, x = .ok a ∧ f a = b := by
  cases x with
  | error e => simp [Functor.map, Except.map]
  | ok a => simp [Functor.map, Except.map]

theorem pure_ok {a b : α} : (pure a : Except ε α) = .ok b ↔ a = b := by
  simp [pure, Except.pure]

theorem throw_ok {e : ε} {b : α} : ¬ (throw e : Except ε α) = .ok b := by
  simp [throw, throwThe, MonadExceptOf.throw]

theorem throw_bind {e : ε} {f : α → Except ε β} : (throw e >>= f) = throw e := rfl

theorem ite_throw_ok {c : Prop} [Decidable c] {e : ε} {x : Except ε α} {b : α} :
    (if c then throw e else x) = .ok b ↔ ¬ c ∧ x = .ok b := by
  by_cases hc : c
  · simp [hc, throw_ok]
  · simp [hc]

/-- A result known through its `toOption` was a success. -/
theorem ok_of_toOption {x : Except ε α} {f : α → β} {b : β} (h : x.toOption.map f = some b) :
    ∃ a, x = .ok a ∧ f a = b := by
  cases x with
  | error e => cases h
  | ok a => exact ⟨a, rfl, Option.some.inj h⟩

/-- A loop whose turns check something that the earlier ones do not affect, and then go on. -/
theorem foldlM_ok {σ : Type} {f : σ → α → Except ε σ} {g : σ → α → σ} {Q : α → Prop}
    (hf : ∀ s a s', f s a = .ok s' ↔ Q a ∧ s' = g s a) (l : List α) :
    ∀ s s' : σ, l.foldlM f s = .ok s' ↔ (∀ a ∈ l, Q a) ∧ s' = l.foldl g s := by
  induction l with
  | nil =>
      intro s s'
      rw [List.foldlM_nil, pure_ok]
      simp [eq_comm]
  | cons a l ih =>
      intro s s'
      simp only [List.foldlM_cons, bind_ok, hf, ih, List.forall_mem_cons, List.foldl_cons]
      constructor
      · rintro ⟨_, ⟨ha, rfl⟩, hl, rfl⟩
        exact ⟨⟨ha, hl⟩, rfl⟩
      · rintro ⟨⟨ha, hl⟩, rfl⟩
        exact ⟨_, ⟨ha, rfl⟩, hl, rfl⟩

theorem mapM_ok {f : α → Except ε β} {l : List α} :
    ∀ {bs : List β}, l.mapM f = .ok bs ↔ List.Forall₂ (fun a b => f a = .ok b) l bs := by
  induction l with
  | nil =>
      intro bs
      rw [List.mapM_nil, pure_ok, List.forall₂_nil_left_iff, eq_comm]
  | cons a l ih =>
      intro bs
      simp only [List.mapM_cons, bind_ok, pure_ok, ih, List.forall₂_cons_left_iff]
      constructor
      · rintro ⟨b, hb, bs', hbs', rfl⟩
        exact ⟨b, bs', hb, hbs', rfl⟩
      · rintro ⟨b, bs', hb, hbs', rfl⟩
        exact ⟨b, hb, bs', hbs', rfl⟩

theorem filterMap_of_mapM {γ : Type} {f : α → Except ε β} (g : β → Option γ) {l : List α}
    {bs : List β} (h : l.mapM f = .ok bs) :
    bs.filterMap g = l.filterMap fun a => (f a).toOption.bind g := by
  have hall := mapM_ok.mp h
  clear h
  induction hall with
  | nil => rfl
  | cons hab _ ih =>
      rw [List.filterMap_cons, List.filterMap_cons, hab, ih]
      rfl

/-! ### Calls that come to the same -/

/-- Both fail, or both return the same. -/
def SameResult (x y : Except ε α) : Prop :=
  ((∃ e, x = .error e) ∧ ∃ e, y = .error e) ∨ ∃ a, x = .ok a ∧ y = .ok a

variable {x y : Except ε α}

theorem sameResult_iff : SameResult x y ↔ ∀ a, x = .ok a ↔ y = .ok a := by
  cases x with
  | error e =>
      cases y with
      | error e' => simp [SameResult]
      | ok b => simp [SameResult]
  | ok a =>
      cases y with
      | error e' => simp [SameResult]
      | ok b =>
          simp only [SameResult, reduceCtorEq, exists_false, false_and, false_or, Except.ok.injEq]
          constructor
          · rintro ⟨c, rfl, rfl⟩
            exact fun _ => Iff.rfl
          · exact fun h => ⟨a, rfl, (h a).mp rfl⟩

end Fallible
