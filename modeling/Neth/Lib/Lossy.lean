/-
Two parties and a network that loses, delays, reorders and duplicates.

A party reacts to inputs of its own and to messages, and each reaction may send
messages to the other party.  A message in flight is delivered at any time and in any
order, or lost, or copied, but never altered.  What is known of such a system is a fact
about the two parties together with a fact about each message in flight; loss, delay,
reordering and duplication keep both, so that only the reactions of the parties have to
be looked at.
-/
import Mathlib.Data.List.Basic
import Mathlib.Logic.Function.Basic

namespace Lossy

/-- The two parties. -/
inductive Side where
  | left
  | right
  deriving DecidableEq

/-- The party at the other end. -/
def Side.other : Side → Side
  | .left => .right
  | .right => .left

@[simp] theorem Side.other_other (s : Side) : s.other.other = s := by
  cases s with
  | left => rfl
  | right => rfl

theorem Side.other_ne (s : Side) : s.other ≠ s := by
  cases s with
  | left => exact fun h => by cases h
  | right => exact fun h => by cases h

theorem Side.eq_other_of_ne {s t : Side} (h : t ≠ s) : t = s.other := by
  cases s with
  | left => cases t with
    | left => exact absurd rfl h
    | right => rfl
  | right => cases t with
    | left => rfl
    | right => exact absurd rfl h

variable {σ ι δ μ : Type*}

/-- How a party reacts: to an input, and to a message that arrives under circumstances `δ`.  It
ends in a new state and sends messages. -/
structure Party (σ ι δ μ : Type*) where
  act : σ → ι → σ × List μ
  receive : σ → δ → μ → σ × List μ

/-- The states of the parties and the messages in flight to each of them. -/
structure Net (σ μ : Type*) where
  node : Side → σ
  inbox : Side → List μ

/-- A party reacts to an input, or the `n`-th message in flight to a party is delivered under
circumstances `d`, lost or copied. -/
inductive Action (ι δ : Type*) where
  | act (s : Side) (i : ι)
  | deliver (s : Side) (d : δ) (n : Nat)
  | lose (s : Side) (n : Nat)
  | duplicate (s : Side) (n : Nat)

namespace Net

/-- Party `s` has reacted. -/
def moved (N : Net σ μ) (s : Side) (r : σ × List μ) : Net σ μ where
  node := Function.update N.node s r.1
  inbox := Function.update N.inbox s.other (N.inbox s.other ++ r.2)

/-- The `n`-th message to `s` is no longer in flight. -/
def removed (N : Net σ μ) (s : Side) (n : Nat) : Net σ μ :=
  { N with inbox := Function.update N.inbox s ((N.inbox s).eraseIdx n) }

/-- One action, and the messages it sent. -/
def step (party : Side → Party σ ι δ μ) (N : Net σ μ) : Action ι δ → Net σ μ × List μ
  | .act s i =>
      let r := (party s).act (N.node s) i
      (N.moved s r, r.2)
  | .deliver s d n =>
      match (N.inbox s)[n]? with
      | none => (N, [])
      | some m =>
          let r := (party s).receive (N.node s) d m
          ((N.removed s n).moved s r, r.2)
  | .lose s n => (N.removed s n, [])
  | .duplicate s n =>
      match (N.inbox s)[n]? with
      | none => (N, [])
      | some m => ({ N with inbox := Function.update N.inbox s (N.inbox s ++ [m]) }, [])

/-- **What an action does to a party**: nothing, or the party reacts to an input or a message. -/
theorem step_node (party : Side → Party σ ι δ μ) (N : Net σ μ) (a : Action ι δ) (t : Side) :
    (N.step party a).1.node t = N.node t ∨
      (∃ i, a = .act t i ∧ (N.step party a).1.node t = ((party t).act (N.node t) i).1) ∨
      ∃ d n m, a = .deliver t d n ∧ (N.inbox t)[n]? = some m ∧
        (N.step party a).1.node t = ((party t).receive (N.node t) d m).1 := by
  cases a with
  | act s i =>
      by_cases ht : t = s
      · subst ht
        exact .inr (.inl ⟨i, rfl, Function.update_self ..⟩)
      · exact .inl (Function.update_of_ne ht ..)
  | deliver s d n =>
      cases hm : (N.inbox s)[n]? with
      | none => exact .inl (by simp only [step, hm])
      | some m =>
          by_cases ht : t = s
          · subst ht
            refine .inr (.inr ⟨d, n, m, rfl, hm, ?_⟩)
            simp only [step, hm]
            exact Function.update_self ..
          · simp only [step, hm]
            exact .inl (Function.update_of_ne ht ..)
  | lose s n => exact .inl rfl
  | duplicate s n =>
      cases hm : (N.inbox s)[n]? with
      | none => exact .inl (by simp only [step, hm])
      | some m => exact .inl (by simp only [step, hm])

/-! ### Invariants -/

variable {J : (Side → σ) → Prop} {F : (Side → σ) → Side → μ → Prop} {N : Net σ μ}

variable (J F) in
/-- `J` holds of the parties, and `F` of each message in flight and the party it is for. -/
structure Holds (N : Net σ μ) : Prop where
  nodes : J N.node
  inFlight : ∀ s, ∀ m ∈ N.inbox s, F N.node s m

variable (J F) in
/-- The reaction `r` of party `s` keeps `J`, keeps what is known of the messages in flight, and
sends messages of which `F` holds. -/
structure Keeps (node : Side → σ) (s : Side) (r : σ × List μ) : Prop where
  nodes : J (Function.update node s r.1)
  inFlight : ∀ t m, F node t m → F (Function.update node s r.1) t m
  sent : ∀ m ∈ r.2, F (Function.update node s r.1) s.other m

theorem Holds.moved (h : Holds J F N) {s : Side} {r : σ × List μ} (hr : Keeps J F N.node s r) :
    Holds J F (N.moved s r) := by
  refine ⟨hr.nodes, ?_⟩
  intro t m hm
  simp only [Net.moved, Function.update_apply] at hm
  split at hm
  · next heq =>
      rcases List.mem_append.mp hm with hold | hnew
      · exact hr.inFlight t m (h.inFlight t m (heq ▸ hold))
      · rw [heq]
        exact hr.sent m hnew
  · exact hr.inFlight t m (h.inFlight t m hm)

/-- Changing what is in flight to one party, with messages that were in flight to it before. -/
theorem Holds.inbox (h : Holds J F N) (s : Side) {msgs : List μ}
    (hmsgs : ∀ m ∈ msgs, m ∈ N.inbox s) :
    Holds J F { N with inbox := Function.update N.inbox s msgs } := by
  refine ⟨h.nodes, ?_⟩
  intro t m hm
  simp only [Function.update_apply] at hm
  split at hm
  · next heq => exact h.inFlight t m (heq ▸ hmsgs m hm)
  · exact h.inFlight t m hm

theorem Holds.removed (h : Holds J F N) (s : Side) (n : Nat) : Holds J F (N.removed s n) :=
  h.inbox s fun _ hm => List.mem_of_mem_eraseIdx hm

/-- **The rule for one action**: only the reactions of the parties matter. -/
theorem Holds.step {party : Side → Party σ ι δ μ} {a : Action ι δ} (h : Holds J F N)
    (hact : ∀ s i, a = .act s i → Keeps J F N.node s ((party s).act (N.node s) i))
    (hdeliver : ∀ s d n m, a = .deliver s d n → (N.inbox s)[n]? = some m → F N.node s m →
      Keeps J F N.node s ((party s).receive (N.node s) d m)) :
    Holds J F (N.step party a).1 := by
  cases a with
  | act s i => exact h.moved (hact s i rfl)
  | deliver s d n =>
      cases hm : (N.inbox s)[n]? with
      | none =>
          simp only [Net.step, hm]
          exact h
      | some m =>
          have hfact := h.inFlight s m (List.mem_of_getElem? hm)
          simp only [Net.step, hm]
          exact (h.removed s n).moved (hdeliver s d n m rfl hm hfact)
  | lose s n => exact h.removed s n
  | duplicate s n =>
      cases hm : (N.inbox s)[n]? with
      | none =>
          simp only [Net.step, hm]
          exact h
      | some m =>
          simp only [Net.step, hm]
          refine h.inbox s ?_
          intro m' hm'
          rcases List.mem_append.mp hm' with hold | hcopy
          · exact hold
          · rw [List.mem_singleton.mp hcopy]
            exact List.mem_of_getElem? hm

end Net

end Lossy
