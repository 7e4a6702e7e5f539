/-
Replay protection as a set.

The specification a sliding window implements knows every item it has accepted.  It
turns an item away when it has accepted that very item before, or when it has accepted
one that lies `size` or more above it.  No window and no bitmap appear: this is the
statement a bounded-memory implementation is compared with.

Items are taken from any type with an addition and an order.  Entering an item that was
turned away changes no later answer, so it does not matter whether an implementation
remembers such items.  The rest reads off the answers of a run which items have been let
through.
-/
import Mathlib.Data.Set.Insert
import Neth.Lib.Trace

namespace SlidingWindow

variable {α : Type*} [Add α] [LE α]

/-- `c` was accepted before, or lies `size` or more below something accepted. -/
def Rejects (size : α) (accepted : Set α) (c : α) : Prop :=
  c ∈ accepted ∨ ∃ m ∈ accepted, c + size ≤ m

theorem not_rejects_empty (size c : α) : ¬ Rejects size (∅ : Set α) c := by
  rintro (h | ⟨m, h, -⟩)
  · exact h
  · exact h

/-- Accepting `c` turns away `c` itself and whatever lies `size` below it, and nothing else. -/
theorem rejects_insert (size : α) (accepted : Set α) (c x : α) :
    Rejects size (insert c accepted) x
      ↔ x = c ∨ x + size ≤ c ∨ Rejects size accepted x := by
  constructor
  · rintro (h | ⟨m, h, hm⟩)
    · rcases h with rfl | h
      · exact Or.inl rfl
      · exact Or.inr (Or.inr (Or.inl h))
    · rcases h with rfl | h
      · exact Or.inr (Or.inl hm)
      · exact Or.inr (Or.inr (Or.inr ⟨m, h, hm⟩))
  · rintro (rfl | h | h | ⟨m, h, hm⟩)
    · exact Or.inl (Set.mem_insert _ _)
    · exact Or.inr ⟨c, Set.mem_insert _ _, h⟩
    · exact Or.inl (Set.mem_insert_of_mem _ h)
    · exact Or.inr ⟨m, Set.mem_insert_of_mem _ h, hm⟩

/-- What is turned away may as well be remembered: it turns away nothing that was not turned away
before. -/
theorem rejects_insert_of_rejects {β : Type*} [Add β] [Preorder β] {size : β}
    (hle : ∀ a : β, a ≤ a + size) {accepted : Set β} {c : β} (hc : Rejects size accepted c)
    (x : β) :
    Rejects size (insert c accepted) x ↔ Rejects size accepted x := by
  rw [rejects_insert]
  refine ⟨?_, fun hx => .inr (.inr hx)⟩
  rintro (rfl | hx | hx)
  · exact hc
  · rcases hc with hmem | ⟨m, hmem, hm⟩
    · exact .inr ⟨c, hmem, hx⟩
    · exact .inr ⟨m, hmem, hx.trans ((hle c).trans hm)⟩
  · exact hx

open Classical in
/-- One query: the answer is `true` for a rejection, and an item let through is remembered. -/
noncomputable def step (size : α) (accepted : Set α) (c : α) : Set α × Bool :=
  if Rejects size accepted c then (accepted, true) else (insert c accepted, false)

/-- What a run has let through: the items answered `false`. -/
def letThrough (cs : List α) (answers : List Bool) : Set α :=
  {c | (c, false) ∈ cs.zip answers}

omit [Add α] [LE α] in
theorem mem_letThrough_map {β : Type*} (f : β → α) (bs : List β) (answers : List Bool) (c : α) :
    c ∈ letThrough (bs.map f) answers ↔ ∃ b, (b, false) ∈ bs.zip answers ∧ f b = c := by
  simp only [letThrough, Set.mem_ofPred_eq, List.zip_map_left, List.mem_map]
  constructor
  · rintro ⟨⟨b, a⟩, hmem, heq⟩
    obtain ⟨rfl, rfl⟩ := Prod.mk.inj heq
    exact ⟨b, hmem, rfl⟩
  · rintro ⟨b, hmem, rfl⟩
    exact ⟨(b, false), hmem, rfl⟩

/-- The set the specification remembers is the set of items it let through. -/
theorem run_eq_letThrough (size : α) (cs : List α) (accepted : Set α) :
    (Trace.run (step size) accepted cs).1
      = accepted ∪ letThrough cs (Trace.run (step size) accepted cs).2 := by
  induction cs generalizing accepted with
  | nil => simp [letThrough]
  | cons c cs ih =>
      rw [Trace.run_cons, ih]
      by_cases hc : Rejects size accepted c
      · simp [step, hc, letThrough]
      · ext x
        simp [step, hc, letThrough, or_assoc, or_left_comm]

end SlidingWindow
