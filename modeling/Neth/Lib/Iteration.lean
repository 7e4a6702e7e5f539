/-
Ranging over a map in no particular order.

A `range` visits every key of the map once, in an order that is not specified.  A search
by such a range finds the same key whatever the order exactly when there is only one to
find.

An order is a list without repetitions of the keys that are there.  Two orders of one
map are permutations of each other, so whatever does not depend on the order of a list
does not depend on that of the iteration.  The rest says how an order is kept up when
the map changes, so that every map built by assignments has one.
-/
import Mathlib.Data.List.Nodup
import Mathlib.Logic.Function.Basic

namespace Iteration

variable {K V : Type*}

/-- An order in which a `range` over the map may visit its keys. -/
structure OrderOf (m : K → Option V) (order : List K) : Prop where
  nodup : order.Nodup
  mem_iff : ∀ k, k ∈ order ↔ (m k).isSome

/-- Two orders of one map are permutations of each other. -/
theorem OrderOf.perm {m : K → Option V} {order order' : List K} (h : OrderOf m order)
    (h' : OrderOf m order') : order.Perm order' :=
  (List.perm_ext_iff_of_nodup h.nodup h'.nodup).mpr fun k => by rw [h.mem_iff, h'.mem_iff]

/-- What is gathered along the way does not depend on the order if only one key contributes. -/
theorem flatMap_eq_of_perm {α β : Type*} {f : α → List β} {l l' : List α} (hperm : l.Perm l') :
    l.Pairwise (fun a b => f a = [] ∨ f b = []) → l.flatMap f = l'.flatMap f := by
  induction hperm with
  | nil => intro _; rfl
  | cons a _ ih =>
      intro h
      rw [List.flatMap_cons, List.flatMap_cons, ih (List.pairwise_cons.mp h).2]
  | swap a b l =>
      intro h
      have hab := (List.pairwise_cons.mp h).1 a (List.mem_cons_self ..)
      rcases hab with hb | ha
      · simp [List.flatMap_cons, hb]
      · simp [List.flatMap_cons, ha]
  | trans h₁ _ ih₁ ih₂ =>
      intro h
      have hsymm : ∀ {a b : α}, f a = [] ∨ f b = [] → f b = [] ∨ f a = [] := Or.symm
      rw [ih₁ h, ih₂ ((h₁.pairwise_iff hsymm).mp h)]

theorem OrderOf.empty : OrderOf (fun _ => none : K → Option V) [] :=
  ⟨List.nodup_nil, by simp⟩

variable [DecidableEq K] {m : K → Option V} {order : List K}

/-- Any key may come first. -/
theorem OrderOf.front (h : OrderOf m order) {k : K} (hk : (m k).isSome) :
    OrderOf m (k :: order.erase k) := by
  have hperm := List.perm_cons_erase ((h.mem_iff k).mpr hk)
  refine ⟨hperm.nodup_iff.mp h.nodup, ?_⟩
  intro k'
  rw [← hperm.mem_iff, h.mem_iff]

/-- An assignment to a key that is there. -/
theorem OrderOf.update_of_mem (h : OrderOf m order) {k : K} (hk : k ∈ order) (v : V) :
    OrderOf (Function.update m k (some v)) order := by
  refine ⟨h.nodup, ?_⟩
  intro k'
  by_cases heq : k' = k
  · simp [heq, hk]
  · simp [heq, h.mem_iff]

/-- An assignment to a new key. -/
theorem OrderOf.cons (h : OrderOf m order) {k : K} (hk : k ∉ order) (v : V) :
    OrderOf (Function.update m k (some v)) (k :: order) := by
  refine ⟨List.nodup_cons.mpr ⟨hk, h.nodup⟩, ?_⟩
  intro k'
  by_cases heq : k' = k
  · simp [heq]
  · simp [heq, h.mem_iff]

theorem OrderOf.update (h : OrderOf m order) (k : K) (v : V) :
    ∃ order', OrderOf (Function.update m k (some v)) order' := by
  by_cases hk : k ∈ order
  · exact ⟨order, h.update_of_mem hk v⟩
  · exact ⟨k :: order, h.cons hk v⟩

section Search

variable {p : K → Bool} (h : OrderOf m order) (hp : ∀ k, p k = true → (m k).isSome)

include h hp

/-- What can be found can be found first. -/
theorem exists_order_find? {k : K} (hk : p k = true) :
    ∃ order', OrderOf m order' ∧ order'.find? p = some k :=
  ⟨k :: order.erase k, h.front (hp k hk), List.find?_cons_of_pos hk⟩

/-- Every range finds `k` exactly when `k` is what there is to find. -/
theorem forall_find?_eq_some_iff {k : K} :
    (∀ order', OrderOf m order' → order'.find? p = some k) ↔
      p k = true ∧ ∀ k', p k' = true → k' = k := by
  constructor
  · intro hall
    refine ⟨List.find?_some (hall order h), ?_⟩
    intro k' hk'
    obtain ⟨order', horder', hfind⟩ := exists_order_find? h hp hk'
    exact Option.some.inj (hfind.symm.trans (hall order' horder'))
  · intro hone order' horder'
    cases hfind : order'.find? p with
    | none =>
        have hnone := List.find?_eq_none.mp hfind k ((horder'.mem_iff k).mpr (hp k hone.1))
        exact absurd hone.1 hnone
    | some k' => rw [hone.2 k' (List.find?_some hfind)]

/-- All ranges find the same exactly when there is at most one key to find. -/
theorem forall_find?_eq_iff :
    (∀ o o', OrderOf m o → OrderOf m o' → o.find? p = o'.find? p) ↔
      ∀ k k', p k = true → p k' = true → k = k' := by
  constructor
  · intro hall k k' hk hk'
    obtain ⟨o, ho, hfind⟩ := exists_order_find? h hp hk
    obtain ⟨o', ho', hfind'⟩ := exists_order_find? h hp hk'
    rw [hall o o' ho ho', hfind'] at hfind
    exact (Option.some.inj hfind).symm
  · intro hone o o' ho ho'
    by_cases hfound : ∃ k, p k = true
    · obtain ⟨k, hk⟩ := hfound
      have hevery := (forall_find?_eq_some_iff h hp).mpr ⟨hk, fun k' hk' => hone k' k hk' hk⟩
      rw [hevery o ho, hevery o' ho']
    · have hnone : ∀ l : List K, l.find? p = none := by
        intro l
        rw [List.find?_eq_none]
        intro k _ hk
        exact hfound ⟨k, hk⟩
      rw [hnone, hnone]

end Search

end Iteration
