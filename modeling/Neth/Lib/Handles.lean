/-
Opening things one after another, and closing them when something fails.

The state of such a routine is the list of handles that are open.  A step either fails or
goes on, and a routine that is abandoned half-way has to close what it has opened by then.
`Runs pre fail ok x` says that from `pre`, whatever else is open, `x` ends with `fail` open
if it fails and with `ok` open if it does not.  The rules follow the ways in which such
routines are put together.
-/
import Mathlib.Data.List.Basic

namespace Handles

variable {H : Type} [DecidableEq H] {α β : Type}

/-- A computation that may fail and that opens and closes handles. -/
def Opening (H α : Type) := List H → Except String α × List H

namespace Opening

instance : Monad (Opening H) where
  pure a := fun s => (.ok a, s)
  bind x f := fun s =>
    match x s with
    | (.error e, s') => (.error e, s')
    | (.ok a, s') => f a s'

/-- A step that opens nothing. -/
def attempt (r : Except String α) : Opening H α := fun s => (r, s)

/-- A step that opens a handle if it succeeds. -/
def acquire (h : H) (r : Except String α) : Opening H α := fun s =>
  match r with
  | .ok a => (.ok a, h :: s)
  | .error e => (.error e, s)

/-- Close a handle. -/
def release (h : H) : Opening H Unit := fun s => (.ok (), s.erase h)

/-- On an error, close the handles and return it. -/
def closing (hs : List H) (x : Opening H α) : Opening H α := fun s =>
  match x s with
  | (.error e, s') => (.error e, hs.foldl List.erase s')
  | (.ok a, s') => (.ok a, s')

/-- Put something in front of an error. -/
def mapError (f : String → String) (x : Opening H α) : Opening H α := fun s =>
  ((x s).1.mapError f, (x s).2)

/-- Close the handle at the end in any case. -/
def deferring (h : H) (x : Opening H α) : Opening H α := fun s => ((x s).1, (x s).2.erase h)

variable {x : Opening H α} {f : α → Opening H β} {s s' : List H} {e : String} {a : α} {b : β}
  {h : H} {hs : List H} {r : Except String α}

/-! ### What a routine that succeeded has done

A routine that returned a value has been through all its steps, with the state handed on from each
to the next. -/

section Ok

omit [DecidableEq H]

theorem bind_error (h : x s = (.error e, s')) : (x >>= f) s = (.error e, s') := by
  simp only [bind, h]

theorem bind_of_ok (h : x s = (.ok a, s')) : (x >>= f) s = f a s' := by
  simp only [bind, h]

@[simp] theorem pure_ok {a' : α} :
    (pure a : Opening H α) s = (.ok a', s') ↔ a = a' ∧ s = s' := by
  simp [pure]

@[simp] theorem bind_ok :
    (x >>= f) s = (.ok b, s') ↔ ∃ a s₁, x s = (.ok a, s₁) ∧ f a s₁ = (.ok b, s') := by
  rcases hx : x s with ⟨r, s₁⟩
  cases r with
  | error e => simp [bind_error hx]
  | ok a => simp [bind_of_ok hx]

@[simp] theorem attempt_ok : attempt r s = (.ok a, s') ↔ r = .ok a ∧ s = s' := by
  simp [attempt]

@[simp] theorem acquire_ok : acquire h r s = (.ok a, s') ↔ r = .ok a ∧ h :: s = s' := by
  cases r with
  | error e => simp [acquire]
  | ok a' => simp [acquire]

@[simp] theorem mapError_ok {g : String → String} :
    mapError g x s = (.ok a, s') ↔ x s = (.ok a, s') := by
  rcases hx : x s with ⟨r, s₁⟩
  cases r with
  | error e => simp [mapError, hx, Except.mapError]
  | ok a' => simp [mapError, hx, Except.mapError]

end Ok

@[simp] theorem closing_ok : closing hs x s = (.ok a, s') ↔ x s = (.ok a, s') := by
  rcases hx : x s with ⟨r, s₁⟩
  cases r with
  | error e => simp [closing, hx]
  | ok a' => simp [closing, hx]

@[simp] theorem deferring_ok :
    deferring h x s = (.ok a, s') ↔ ∃ s₁, x s = (.ok a, s₁) ∧ s₁.erase h = s' := by
  rcases hx : x s with ⟨r, s₁⟩
  cases r with
  | error e => simp [deferring, hx]
  | ok a' => simp [deferring, hx]

/-! ### What is open at the end

The rules follow the combinators: a step that fails leaves what was open before it, less what it is
told to close. -/

/-- From `pre`, and whatever else is open, the routine fails with `fail` open or succeeds with
`ok` open. -/
def Runs (pre fail ok : List H) (x : Opening H α) : Prop :=
  ∀ s, (∃ e, x (pre ++ s) = (.error e, fail ++ s)) ∨ ∃ a, x (pre ++ s) = (.ok a, ok ++ s)

variable {pre mid fail fail' ok : List H}

section Rules

omit [DecidableEq H]

theorem runs_pure (a : α) : Runs pre fail pre (pure a : Opening H α) := fun _ => .inr ⟨a, rfl⟩

theorem Runs.bind (hx : Runs pre fail mid x) (hf : ∀ a, Runs mid fail ok (f a)) :
    Runs pre fail ok (x >>= f) := by
  intro s
  rcases hx s with ⟨e, he⟩ | ⟨a, ha⟩
  · exact .inl ⟨e, bind_error he⟩
  · rcases hf a s with ⟨e, he⟩ | ⟨b, hb⟩
    · exact .inl ⟨e, (bind_of_ok ha).trans he⟩
    · exact .inr ⟨b, (bind_of_ok ha).trans hb⟩

theorem runs_attempt (r : Except String α) : Runs pre pre pre (attempt r : Opening H α) := by
  intro s
  cases r with
  | error e => exact .inl ⟨e, rfl⟩
  | ok a => exact .inr ⟨a, rfl⟩

theorem runs_acquire (h : H) (r : Except String α) : Runs pre pre (h :: pre) (acquire h r) := by
  intro s
  cases r with
  | error e => exact .inl ⟨e, rfl⟩
  | ok a => exact .inr ⟨a, rfl⟩

theorem Runs.mapError (hx : Runs pre fail ok x) (g : String → String) :
    Runs pre fail ok (x.mapError g) := by
  intro s
  rcases hx s with ⟨e, he⟩ | ⟨a, ha⟩
  · exact .inl ⟨g e, by simp only [Opening.mapError, he]; rfl⟩
  · exact .inr ⟨a, by simp only [Opening.mapError, ha]; rfl⟩

/-- A routine knows nothing of what its caller holds. -/
theorem Runs.frame (hx : Runs pre fail ok x) (held : List H) :
    Runs (pre ++ held) (fail ++ held) (ok ++ held) x := by
  intro s
  simp only [List.append_assoc]
  exact hx (held ++ s)

end Rules

theorem runs_release (h : H) : Runs (h :: ok) fail ok (release h) := by
  intro s
  exact .inr ⟨(), by simp [release]⟩

theorem Runs.closing (hx : Runs pre fail ok x)
    (hclose : ∀ s, hs.foldl List.erase (fail ++ s) = fail' ++ s) :
    Runs pre fail' ok (x.closing hs) := by
  intro s
  rcases hx s with ⟨e, he⟩ | ⟨a, ha⟩
  · exact .inl ⟨e, by simp only [Opening.closing, he, hclose]⟩
  · exact .inr ⟨a, by simp only [Opening.closing, ha]⟩

theorem Runs.deferring (hx : Runs pre (h :: fail) (h :: ok) x) :
    Runs pre fail ok (x.deferring h) := by
  intro s
  rcases hx s with ⟨e, he⟩ | ⟨a, ha⟩
  · exact .inl ⟨e, by simp [Opening.deferring, he]⟩
  · exact .inr ⟨a, by simp [Opening.deferring, ha]⟩

end Opening

end Handles
