/-
Does a chain of reactions come to an end?

The parties get no inputs of their own, and every message in flight is delivered once.
If every answer to a message ranks below it, each delivery takes one rank out of the
multiset of those in flight and puts lower ones in, which cannot go on for ever however
many answers there are.  If some message can always be answered by another of its kind,
it does.

The first is the well-foundedness of the multiset order, which Mathlib has as the game
of the hydra.  The second needs only one delivery after another.
-/
import Mathlib.Data.List.Perm.Basic
import Mathlib.Logic.Hydra
import Mathlib.Tactic.Abel
import Neth.Lib.Lossy

namespace Lossy

namespace Net

variable {σ ι δ μ : Type*} {party : Side → Party σ ι δ μ} {N N' : Net σ μ}

variable (party) in
/-- `N'` is `N` after the delivery of one message. -/
def Reacts (N' N : Net σ μ) : Prop :=
  ∃ s d n, n < (N.inbox s).length ∧ N' = (N.step party (.deliver s d n)).1

theorem step_deliver {s : Side} {n : ℕ} {m : μ} (hm : (N.inbox s)[n]? = some m) (d : δ) :
    (N.step party (.deliver s d n)).1
      = (N.removed s n).moved s ((party s).receive (N.node s) d m) := by
  simp only [step, hm]

theorem inbox_delivered (N : Net σ μ) (s : Side) (n : ℕ) (r : σ × List μ) :
    ((N.removed s n).moved s r).inbox s = (N.inbox s).eraseIdx n := by
  simp [moved, removed, (Side.other_ne s).symm]

theorem inbox_other_delivered (N : Net σ μ) (s : Side) (n : ℕ) (r : σ × List μ) :
    ((N.removed s n).moved s r).inbox s.other = N.inbox s.other ++ r.2 := by
  simp [moved, removed, Side.other_ne s]

/-! ### Ranked messages

If whatever a message makes a party send is of lower rank, every chain of reactions ends.  The
messages in flight, as a multiset of ranks, go down with each delivery. -/

variable {Good : μ → Prop} {rank : μ → ℕ}

/-- The ranks of the messages in flight. -/
def ranks (rank : μ → ℕ) (N : Net σ μ) : Multiset ℕ :=
  (N.inbox .left).map rank + (N.inbox .right).map rank

theorem ranks_eq (N : Net σ μ) (s : Side) :
    N.ranks rank = (N.inbox s).map rank + (N.inbox s.other).map rank := by
  cases s with
  | left => rfl
  | right => exact add_comm _ _

/-- A delivery swaps one rank for those of the answers. -/
theorem ranks_delivered {s : Side} {n : ℕ} (hn : n < (N.inbox s).length) (r : σ × List μ) :
    ((N.removed s n).moved s r).ranks rank + {rank (N.inbox s)[n]}
      = N.ranks rank + (r.2.map rank : List ℕ) := by
  have hperm : (((N.inbox s).eraseIdx n).map rank : Multiset ℕ) + {rank (N.inbox s)[n]}
      = ((N.inbox s).map rank : List ℕ) := by
    have h := (List.getElem_cons_eraseIdx_perm hn).map rank
    rw [← Multiset.coe_eq_coe, List.map_cons, ← Multiset.cons_coe] at h
    rw [← h, add_comm, Multiset.singleton_add]
  rw [ranks_eq _ s, ranks_eq _ s, inbox_delivered, inbox_other_delivered, List.map_append,
    ← Multiset.coe_add, ← hperm]
  abel

/-- Every answer to a good message is good and ranks below it. -/
def Descends (party : Side → Party σ ι δ μ) (Good : μ → Prop) (rank : μ → ℕ) : Prop :=
  ∀ s q d m, Good m → ∀ m' ∈ ((party s).receive q d m).2, Good m' ∧ rank m' < rank m

theorem Descends.step (h : Descends party Good rank) (hgood : ∀ s, ∀ m ∈ N.inbox s, Good m)
    (hstep : Reacts party N' N) :
    Relation.CutExpand (· < ·) (N'.ranks rank) (N.ranks rank) ∧
      ∀ s, ∀ m ∈ N'.inbox s, Good m := by
  obtain ⟨s, d, n, hn, rfl⟩ := hstep
  have hm := hgood s _ (List.getElem_mem hn)
  have hanswers := h s (N.node s) d _ hm
  rw [step_deliver (List.getElem?_eq_getElem hn)]
  refine ⟨⟨_, rank (N.inbox s)[n], ?_, ranks_delivered hn _⟩, ?_⟩
  · intro k hk
    obtain ⟨m', hm', rfl⟩ := List.mem_map.mp (Multiset.mem_coe.mp hk)
    exact (hanswers m' hm').2
  · intro t m' hm'
    by_cases ht : t = s
    · subst ht
      rw [inbox_delivered] at hm'
      exact hgood t m' (List.mem_of_mem_eraseIdx hm')
    · obtain rfl := Side.eq_other_of_ne ht
      rw [inbox_other_delivered] at hm'
      rcases List.mem_append.mp hm' with hold | hnew
      · exact hgood _ m' hold
      · exact (hanswers m' hnew).1

/-- **Ranked reactions die out.** -/
theorem Descends.acc (h : Descends party Good rank) (hgood : ∀ s, ∀ m ∈ N.inbox s, Good m) :
    Acc (Reacts party) N := by
  have hwf : WellFounded (Relation.CutExpand (· < · : ℕ → ℕ → Prop)) := wellFounded_lt.cutExpand
  induction hr : N.ranks rank using hwf.induction generalizing N with
  | _ r ih =>
      refine Acc.intro N ?_
      intro N' hstep
      obtain ⟨hcut, hgood'⟩ := h.step hgood hstep
      rw [hr] at hcut
      exact ih _ hcut hgood' rfl

/-! ### Echoes

A message that makes its receiver send one like it is enough for a chain that never ends. -/

/-- **A message that can always be answered in kind is answered for ever.** -/
theorem not_acc_of_echo {Echo : μ → Prop}
    (h : ∀ s q m, Echo m → ∃ d, ∃ m' ∈ ((party s).receive q d m).2, Echo m') {s : Side} {m : μ}
    (hm : m ∈ N.inbox s) (hecho : Echo m) : ¬ Acc (Reacts party) N := by
  intro hacc
  induction hacc generalizing s m with
  | intro N _ ih =>
      obtain ⟨n, hn, rfl⟩ := List.getElem_of_mem hm
      obtain ⟨d, m', hm', hecho'⟩ := h s (N.node s) _ hecho
      refine ih (N.step party (.deliver s d n)).1 ⟨s, d, n, hn, rfl⟩ (s := s.other) (m := m') ?_
        hecho'
      rw [step_deliver (List.getElem?_eq_getElem hn), inbox_other_delivered]
      exact List.mem_append_right _ hm'

end Net

end Lossy
