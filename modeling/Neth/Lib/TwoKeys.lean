/-
Objects that are reached by two keys.

A program keeps objects of some kind and finds them through two maps, each keyed by a
field of the object.  A table of this kind is sound if what is found under a first key
is also found under its second key, and what is found under a second key has that key.
It is paired if both maps hold the same objects, and anchored if what is found under a
second key is also found under its first.  Entering an object under a second key
that is free keeps a table sound, also when it takes the place of another under its
first key; what it displaced is then still found under its second key, and is called a
stray.  Entering one under a first key that is free keeps a table anchored, whatever it
displaces under the second.  Taking out an object under both of its keys keeps all of
this, and an object that an anchored table has lost under both keys is in neither map.
-/
import Mathlib.Data.List.Basic
import Mathlib.Logic.Function.Basic

namespace TwoKeys

variable {α κ ι : Type*}

/-- The objects ever entered, and the two maps into them. -/
structure Table (α κ ι : Type*) where
  objects : List α
  first : κ → Option Nat
  second : ι → Option Nat

namespace Table

/-- No object at all. -/
def empty : Table α κ ι := ⟨[], fun _ => none, fun _ => none⟩

section Keys

variable [DecidableEq κ] [DecidableEq ι] (key : α → κ) (idx : α → ι)

/-- A new object, entered under both of its keys. -/
def insert (t : Table α κ ι) (x : α) : Table α κ ι where
  objects := t.objects ++ [x]
  first := Function.update t.first (key x) (some t.objects.length)
  second := Function.update t.second (idx x) (some t.objects.length)

/-- Nothing under these keys any more. -/
def drop (t : Table α κ ι) (k : κ) (i : ι) : Table α κ ι :=
  { t with first := Function.update t.first k none, second := Function.update t.second i none }

end Keys

/-! ### Sound tables

Objects are kept under two keys and may be replaced under the first.  What stays behind under the
second is not an error; what must not happen is that a key leads to an object that has another. -/

variable (key : α → κ) (idx : α → ι)

/-- What is found under a key has that key, and what is found under the first is found under the
second as well. -/
structure Sound (t : Table α κ ι) : Prop where
  first : ∀ k r, t.first k = some r →
    ∃ x, t.objects[r]? = some x ∧ key x = k ∧ t.second (idx x) = some r
  second : ∀ i r, t.second i = some r → ∃ x, t.objects[r]? = some x ∧ idx x = i

/-- Both maps hold the same objects. -/
structure Paired (t : Table α κ ι) : Prop extends Sound key idx t where
  back : ∀ i r x, t.second i = some r → t.objects[r]? = some x → t.first (key x) = some r

/-- What is found under a second key is found under its first key too. -/
structure Anchored (t : Table α κ ι) : Prop where
  first : ∀ k r, t.first k = some r → ∃ x, t.objects[r]? = some x ∧ key x = k
  second : ∀ i r, t.second i = some r →
    ∃ x, t.objects[r]? = some x ∧ idx x = i ∧ t.first (key x) = some r

/-- The object is in neither map. -/
def Gone (t : Table α κ ι) (r : Nat) : Prop :=
  (∀ k, t.first k ≠ some r) ∧ ∀ i, t.second i ≠ some r

/-- Some object with first key `k` is found under its second key, but not under `k`. -/
def Stray (t : Table α κ ι) (k : κ) : Prop :=
  ∃ i r x, t.second i = some r ∧ t.objects[r]? = some x ∧ key x = k ∧ t.first k ≠ some r

variable {key idx} {t : Table α κ ι} {k : κ} {i : ι} {r : Nat} {x y : α}

theorem sound_empty : Sound key idx (empty : Table α κ ι) :=
  ⟨fun _ _ h => (nomatch h), fun _ _ h => nomatch h⟩

theorem paired_empty : Paired key idx (empty : Table α κ ι) :=
  ⟨sound_empty, fun _ _ _ h => nomatch h⟩

/-- An object is found under no second key but its own. -/
theorem Sound.idx_eq (h : Sound key idx t) (hi : t.second i = some r)
    (hr : t.objects[r]? = some x) : idx x = i := by
  obtain ⟨x', hr', hidx⟩ := h.second i r hi
  rw [hr] at hr'
  rw [Option.some.inj hr', hidx]

/-- An object is found under no first key but its own, and then under its second as well. -/
theorem Sound.of_first (h : Sound key idx t) (hk : t.first k = some r)
    (hr : t.objects[r]? = some x) : key x = k ∧ t.second (idx x) = some r := by
  obtain ⟨x', hr', hx'⟩ := h.first k r hk
  rw [hr] at hr'
  rw [Option.some.inj hr']
  exact hx'

/-- An object that was changed by `f` stands for one with the same keys. -/
theorem exists_of_getElem?_map (f : α → α) (hkey : ∀ x, key (f x) = key x)
    (hidx : ∀ x, idx (f x) = idx x) {objects : List α} (h : (objects.map f)[r]? = some y) :
    ∃ x, objects[r]? = some x ∧ key x = key y ∧ idx x = idx y := by
  rw [List.getElem?_map] at h
  obtain ⟨x, hx, rfl⟩ := Option.map_eq_some_iff.mp h
  exact ⟨x, hx, (hkey x).symm, (hidx x).symm⟩

/-- Whether a table is sound does not depend on what else is in its objects. -/
theorem Sound.of_map (f : α → α) {objects : List α} {first : κ → Option Nat}
    {second : ι → Option Nat} (hkey : ∀ x, key (f x) = key x) (hidx : ∀ x, idx (f x) = idx x)
    (h : Sound key idx ⟨objects.map f, first, second⟩) :
    Sound key idx ⟨objects, first, second⟩ := by
  refine ⟨?_, ?_⟩
  · intro k r hk
    obtain ⟨y, hr, hy, hsecond⟩ := h.first k r hk
    obtain ⟨x, hx, hkx, hix⟩ := exists_of_getElem?_map f hkey hidx hr
    exact ⟨x, hx, hkx.trans hy, by rw [hix]; exact hsecond⟩
  · intro i r hi
    obtain ⟨y, hr, hy⟩ := h.second i r hi
    obtain ⟨x, hx, -, hix⟩ := exists_of_getElem?_map f hkey hidx hr
    exact ⟨x, hx, hix.trans hy⟩

theorem Paired.anchored (h : Paired key idx t) : Anchored key idx t := by
  refine ⟨?_, ?_⟩
  · intro k r hk
    obtain ⟨x, hr, hkey, -⟩ := h.first k r hk
    exact ⟨x, hr, hkey⟩
  · intro i r hi
    obtain ⟨x, hr, hidx⟩ := h.second i r hi
    exact ⟨x, hr, hidx, h.back i r x hi hr⟩

theorem Sound.paired (h : Sound key idx t) (ha : Anchored key idx t) : Paired key idx t := by
  refine ⟨h, ?_⟩
  intro i r x hi hr
  obtain ⟨y, hy, -, hfirst⟩ := ha.second i r hi
  rw [hr] at hy
  rw [Option.some.inj hy]
  exact hfirst

theorem anchored_empty : Anchored key idx (empty : Table α κ ι) := paired_empty.anchored

theorem Anchored.key_eq (h : Anchored key idx t) (hk : t.first k = some r)
    (hr : t.objects[r]? = some x) : key x = k := by
  obtain ⟨y, hy, hkey⟩ := h.first k r hk
  rw [hr] at hy
  rw [Option.some.inj hy, hkey]

/-- Whether a table is anchored does not depend on what else is in its objects. -/
theorem Anchored.of_map (f : α → α) {objects : List α} {first : κ → Option Nat}
    {second : ι → Option Nat} (hkey : ∀ x, key (f x) = key x) (hidx : ∀ x, idx (f x) = idx x)
    (h : Anchored key idx ⟨objects.map f, first, second⟩) :
    Anchored key idx ⟨objects, first, second⟩ := by
  refine ⟨?_, ?_⟩
  · intro k r hk
    obtain ⟨y, hy, hky⟩ := h.first k r hk
    obtain ⟨x, hx, hkx, -⟩ := exists_of_getElem?_map f hkey hidx hy
    exact ⟨x, hx, hkx.trans hky⟩
  · intro i r hi
    obtain ⟨y, hy, hiy, hfirst⟩ := h.second i r hi
    obtain ⟨x, hx, hkx, hix⟩ := exists_of_getElem?_map f hkey hidx hy
    exact ⟨x, hx, hix.trans hiy, by rw [hkx]; exact hfirst⟩

section Operations

variable [DecidableEq κ] [DecidableEq ι]

/-- What was entered stays where it was. -/
theorem getElem?_insert (h : t.objects[r]? = some y) (x : α) :
    (t.insert key idx x).objects[r]? = some y := by
  have hlt : r < t.objects.length := (List.getElem?_eq_some_iff.mp h).1
  simpa [insert, List.getElem?_append_left hlt] using h

theorem getElem?_insert_self (t : Table α κ ι) (x : α) :
    (t.insert key idx x).objects[t.objects.length]? = some x := by
  simp [insert]

/-- What is found under a second key is the new object, or was found there before. -/
theorem Sound.second_insert (h : Sound key idx t) (hi : (t.insert key idx x).second i = some r)
    (hr : (t.insert key idx x).objects[r]? = some y) :
    (r = t.objects.length ∧ x = y) ∨ (t.second i = some r ∧ t.objects[r]? = some y) := by
  simp only [Table.insert, Function.update_apply] at hi
  split at hi
  · obtain rfl := Option.some.inj hi
    rw [getElem?_insert_self] at hr
    exact .inl ⟨rfl, Option.some.inj hr⟩
  · obtain ⟨z, hz, -⟩ := h.second i r hi
    rw [getElem?_insert hz] at hr
    exact .inr ⟨hi, Option.some.inj hr ▸ hz⟩

/-- What is still found under a second key was not taken out. -/
theorem second_drop {j : ι} (hi : (t.drop k j).second i = some r) :
    i ≠ j ∧ t.second i = some r := by
  simp only [Table.drop, Function.update_apply] at hi
  split at hi
  · cases hi
  · next hne => exact ⟨hne, hi⟩

theorem Sound.insert (h : Sound key idx t) (hfree : t.second (idx x) = none) :
    Sound key idx (t.insert key idx x) := by
  refine ⟨?_, ?_⟩
  · intro k r hk
    simp only [Table.insert, Function.update_apply] at hk
    split at hk
    · next heq =>
        obtain rfl := Option.some.inj hk
        exact ⟨x, getElem?_insert_self t x, heq.symm, Function.update_self ..⟩
    · obtain ⟨y, hr, hkey, hsecond⟩ := h.first k r hk
      refine ⟨y, getElem?_insert hr x, hkey, ?_⟩
      -- the second key of an object that is already there is taken
      have hne : idx y ≠ idx x := by
        intro heq
        rw [heq, hfree] at hsecond
        cases hsecond
      exact (Function.update_of_ne hne _ _).trans hsecond
  · intro i r hi
    simp only [Table.insert, Function.update_apply] at hi
    split at hi
    · next heq =>
        obtain rfl := Option.some.inj hi
        exact ⟨x, getElem?_insert_self t x, heq.symm⟩
    · obtain ⟨y, hr, hidx⟩ := h.second i r hi
      exact ⟨y, getElem?_insert hr x, hidx⟩

/-- Taking out an object leaves what is found under other keys. -/
theorem Sound.drop (h : Sound key idx t) (hk : t.first k = some r) (hr : t.objects[r]? = some x) :
    Sound key idx (t.drop k (idx x)) := by
  refine ⟨?_, ?_⟩
  · intro k' r' hk'
    simp only [Table.drop, Function.update_apply] at hk'
    split at hk'
    · cases hk'
    · next hne =>
        obtain ⟨y, hr', hkey, hsecond⟩ := h.first k' r' hk'
        refine ⟨y, hr', hkey, ?_⟩
        have hidx : idx y ≠ idx x := by
          intro heq
          obtain ⟨hkx, hsecond'⟩ := h.of_first hk hr
          rw [heq, hsecond'] at hsecond
          obtain rfl := Option.some.inj hsecond
          rw [hr] at hr'
          rw [← Option.some.inj hr', hkx] at hkey
          exact hne hkey.symm
        exact (Function.update_of_ne hidx _ _).trans hsecond
  · intro i r' hi
    exact h.second i r' (second_drop hi).2

/-! ### Anchored tables -/

theorem Anchored.insert (h : Anchored key idx t) (hnew : t.first (key x) = none) :
    Anchored key idx (t.insert key idx x) := by
  refine ⟨?_, ?_⟩
  · intro k r hk
    by_cases heq : k = key x
    · rw [heq] at hk ⊢
      simp only [Table.insert, Function.update_self] at hk
      obtain rfl := Option.some.inj hk
      exact ⟨x, getElem?_insert_self t x, rfl⟩
    · obtain ⟨y, hy, hkey⟩ := h.first k r ((Function.update_of_ne heq _ _).symm.trans hk)
      exact ⟨y, getElem?_insert hy x, hkey⟩
  · intro i r hi
    by_cases heq : i = idx x
    · rw [heq] at hi ⊢
      simp only [Table.insert, Function.update_self] at hi
      obtain rfl := Option.some.inj hi
      exact ⟨x, getElem?_insert_self t x, rfl, Function.update_self ..⟩
    · obtain ⟨y, hy, hidx, hfirst⟩ := h.second i r ((Function.update_of_ne heq _ _).symm.trans hi)
      have hne : key y ≠ key x := by
        intro hkey
        rw [hkey, hnew] at hfirst
        cases hfirst
      exact ⟨y, getElem?_insert hy x, hidx, (Function.update_of_ne hne _ _).trans hfirst⟩

theorem Anchored.drop (h : Anchored key idx t) (hk : t.first k = some r)
    (hr : t.objects[r]? = some x) : Anchored key idx (t.drop k (idx x)) := by
  refine ⟨?_, ?_⟩
  · intro k' r' hk'
    by_cases heq : k' = k
    · rw [heq] at hk'
      simp [Table.drop] at hk'
    · exact h.first k' r' ((Function.update_of_ne heq _ _).symm.trans hk')
  · intro i r' hi
    obtain ⟨hne, hi⟩ := second_drop hi
    obtain ⟨y, hy, hidx, hfirst⟩ := h.second i r' hi
    -- what else is found under `k` is the object that was taken out
    have hkey : key y ≠ k := by
      intro heq
      rw [heq, hk] at hfirst
      obtain rfl := Option.some.inj hfirst
      rw [hr] at hy
      rw [← Option.some.inj hy] at hidx
      exact hne hidx.symm
    exact ⟨y, hy, hidx, (Function.update_of_ne hkey _ _).trans hfirst⟩

/-- What is taken out under both of its keys is gone. -/
theorem Anchored.gone_drop (h : Anchored key idx t) (hk : t.first k = some r)
    (hr : t.objects[r]? = some x) : (t.drop k (idx x)).Gone r := by
  refine ⟨?_, ?_⟩
  · intro k' hk'
    by_cases heq : k' = k
    · rw [heq] at hk'
      simp [Table.drop] at hk'
    · have hother : t.first k' = some r := (Function.update_of_ne heq _ _).symm.trans hk'
      exact heq ((h.key_eq hother hr).symm.trans (h.key_eq hk hr))
  · intro i hi
    obtain ⟨hne, hi⟩ := second_drop hi
    obtain ⟨y, hy, hidx, -⟩ := h.second i r hi
    rw [hr] at hy
    rw [← Option.some.inj hy] at hidx
    exact hne hidx.symm

theorem Paired.insert (h : Paired key idx t) (hfree : t.second (idx x) = none)
    (hnew : t.first (key x) = none) : Paired key idx (t.insert key idx x) :=
  (h.toSound.insert hfree).paired (h.anchored.insert hnew)

theorem Paired.drop (h : Paired key idx t) (hk : t.first k = some r)
    (hr : t.objects[r]? = some x) : Paired key idx (t.drop k (idx x)) :=
  (h.toSound.drop hk hr).paired (h.anchored.drop hk hr)

/-- Nothing that is gone comes back by another object being entered. -/
theorem Gone.insert (h : t.Gone r) (hr : r < t.objects.length) (x : α) :
    (t.insert key idx x).Gone r := by
  refine ⟨?_, ?_⟩
  · intro k hk
    simp only [Table.insert, Function.update_apply] at hk
    split at hk
    · exact Nat.ne_of_gt hr (Option.some.inj hk)
    · exact h.1 k hk
  · intro i hi
    simp only [Table.insert, Function.update_apply] at hi
    split at hi
    · exact Nat.ne_of_gt hr (Option.some.inj hi)
    · exact h.2 i hi

theorem Gone.drop (h : t.Gone r) (k : κ) (i : ι) : (t.drop k i).Gone r := by
  refine ⟨?_, fun i' hi' => h.2 i' (second_drop hi').2⟩
  intro k' hk'
  by_cases heq : k' = k
  · rw [heq] at hk'
    simp [Table.drop] at hk'
  · exact h.1 k' ((Function.update_of_ne heq _ _).symm.trans hk')

/-! ### Strays

An object that has been replaced under its first key can only be reached by the second, and removing
by the first key passes it by. -/

/-- Entering an object makes a stray of the one it displaces, and of no other. -/
theorem stray_insert (h : Sound key idx t) (hfree : t.second (idx x) = none) :
    Stray key (t.insert key idx x) k ↔ Stray key t k ∨ (key x = k ∧ t.first k ≠ none) := by
  have hold : ∀ {i r}, t.second i = some r →
      (t.insert key idx x).second i = some r ∧ r ≠ t.objects.length := by
    intro i r hi
    obtain ⟨y, hr, -⟩ := h.second i r hi
    refine ⟨?_, Nat.ne_of_lt (List.getElem?_eq_some_iff.mp hr).1⟩
    have hne : i ≠ idx x := by
      intro heq
      rw [heq, hfree] at hi
      cases hi
    exact (Function.update_of_ne hne _ _).trans hi
  constructor
  · rintro ⟨i, r, y, hi, hr, hkey, hne⟩
    simp only [Table.insert, Function.update_apply] at hne
    rcases h.second_insert hi hr with ⟨rfl, rfl⟩ | ⟨hi, hr⟩
    · exact absurd (if_pos hkey.symm) hne
    · by_cases hk : t.first k = some r
      · by_cases hx : k = key x
        · exact .inr ⟨hx.symm, by simp [hk]⟩
        · rw [if_neg hx] at hne
          exact absurd hk hne
      · exact .inl ⟨i, r, y, hi, hr, hkey, hk⟩
  · have hdisplaced : ∀ {r}, r ≠ t.objects.length → (key x = k ∨ t.first k ≠ some r) →
        (t.insert key idx x).first k ≠ some r := by
      intro r hr hor hk
      simp only [Table.insert, Function.update_apply] at hk
      split at hk
      · exact hr (Option.some.inj hk).symm
      · next hne =>
          rcases hor with heq | hne'
          · exact hne heq.symm
          · exact hne' hk
    rintro (⟨i, r, y, hi, hr, hkey, hne⟩ | ⟨hkey, hsome⟩)
    · obtain ⟨hi', hlen⟩ := hold hi
      exact ⟨i, r, y, hi', getElem?_insert hr x, hkey, hdisplaced hlen (.inr hne)⟩
    · obtain ⟨r, hk⟩ := Option.ne_none_iff_exists'.mp hsome
      obtain ⟨y, hr, hy, hsecond⟩ := h.first k r hk
      obtain ⟨hi', hlen⟩ := hold hsecond
      exact ⟨idx y, r, y, hi', getElem?_insert hr x, hy, hdisplaced hlen (.inl hkey)⟩

/-- Taking out an object neither makes nor removes a stray. -/
theorem stray_drop {k' : κ} (h : Sound key idx t) (hk : t.first k' = some r)
    (hr : t.objects[r]? = some x) : Stray key (t.drop k' (idx x)) k ↔ Stray key t k := by
  obtain ⟨hkx, hsecond⟩ := h.of_first hk hr
  constructor
  · rintro ⟨i, r', y, hi, hr', hkey, hne⟩
    obtain ⟨hix, hi⟩ := second_drop hi
    simp only [Table.drop, Function.update_apply] at hne
    refine ⟨i, r', y, hi, hr', hkey, ?_⟩
    intro hfirst
    split at hne
    · next heq =>
        -- it would be the object that was taken out
        rw [heq, hk] at hfirst
        obtain rfl := Option.some.inj hfirst
        exact hix (h.idx_eq hi hr).symm
    · exact hne hfirst
  · rintro ⟨i, r', y, hi, hr', hkey, hne⟩
    have hix : i ≠ idx x := by
      intro heq
      rw [heq, hsecond] at hi
      obtain rfl := Option.some.inj hi
      rw [hr] at hr'
      obtain rfl := Option.some.inj hr'
      rw [← hkey, hkx] at hne
      exact hne hk
    refine ⟨i, r', y, (Function.update_of_ne hix _ _).trans hi, hr', hkey, ?_⟩
    simp only [Table.drop, Function.update_apply]
    split
    · simp
    · exact hne

end Operations

end Table

end TwoKeys
