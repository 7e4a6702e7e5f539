/-
Trimming.

What is removed from the two ends of a list are words, not letters: white space in
UTF-8 takes one to three bytes.  `trimLeft` drops words from the front for as long as
there is one, `trimRight` is the same on the reversed list, and `trim` is the one after
the other.  All that is used of the words is that none is empty.  A trimmed list has
no word at either end, the second step cannot uncover one at the front because what it
leaves is the front of what it was given, and a list with no word at either end is its
own trimming.
-/
import Mathlib.Data.List.Infix

namespace Trim

variable {α : Type} [DecidableEq α]

/-- At most `n` words of `words` off the front. -/
def dropWords (words : List (List α)) : Nat → List α → List α
  | 0, s => s
  | n + 1, s =>
      match words.find? fun w => w.isPrefixOf s with
      | some w => dropWords words n (s.drop w.length)
      | none => s

/-- The string without the words at its front. -/
def trimLeft (words : List (List α)) (s : List α) : List α := dropWords words s.length s

/-- The string without the words at its end. -/
def trimRight (words : List (List α)) (s : List α) : List α :=
  (trimLeft (words.map List.reverse) s.reverse).reverse

/-- The string without the words at both ends. -/
def trim (words : List (List α)) (s : List α) : List α := trimRight words (trimLeft words s)

/-- No word of `words` at the front. -/
def NoneLeft (words : List (List α)) (s : List α) : Prop := ∀ w ∈ words, ¬ w <+: s

/-- No word of `words` at the end. -/
def NoneRight (words : List (List α)) (s : List α) : Prop := ∀ w ∈ words, ¬ w <:+ s

variable {words : List (List α)} {s : List α}

/-! ### The front -/

theorem find_eq_none_iff : (words.find? fun w => w.isPrefixOf s) = none ↔ NoneLeft words s := by
  simp [NoneLeft, List.find?_eq_none]

theorem NoneLeft.dropWords (h : NoneLeft words s) (n : Nat) : dropWords words n s = s := by
  cases n with
  | zero => rfl
  | succ n => simp only [Trim.dropWords, find_eq_none_iff.mpr h]

theorem NoneLeft.trimLeft (h : NoneLeft words s) : trimLeft words s = s := h.dropWords s.length

/-- Each round takes at least one letter, so as many rounds as there are letters suffice. -/
theorem noneLeft_dropWords (hwords : [] ∉ words) (n : Nat) :
    ∀ s : List α, s.length ≤ n → NoneLeft words (dropWords words n s) := by
  induction n with
  | zero =>
      intro s hs w hw hpre
      obtain rfl := List.length_eq_zero_iff.mp (Nat.le_zero.mp hs)
      obtain rfl := List.prefix_nil.mp hpre
      exact hwords hw
  | succ n ih =>
      intro s hs
      rw [Trim.dropWords]
      cases hfind : words.find? fun w => w.isPrefixOf s with
      | none => exact find_eq_none_iff.mp hfind
      | some w =>
          have hpos : 0 < w.length := by
            refine List.length_pos_iff.mpr ?_
            rintro rfl
            exact hwords (List.mem_of_find?_eq_some hfind)
          refine ih _ ?_
          rw [List.length_drop]
          omega

theorem noneLeft_trimLeft (hwords : [] ∉ words) (s : List α) : NoneLeft words (trimLeft words s) :=
  noneLeft_dropWords hwords s.length s le_rfl

theorem suffix_of_dropWords (words : List (List α)) (n : Nat) :
    ∀ s : List α, dropWords words n s <:+ s := by
  induction n with
  | zero => exact fun s => List.suffix_rfl
  | succ n ih =>
      intro s
      rw [Trim.dropWords]
      cases words.find? fun w => w.isPrefixOf s with
      | none => exact List.suffix_rfl
      | some w => exact (ih _).trans (List.drop_suffix w.length s)

/-! ### The end -/

omit [DecidableEq α] in
theorem noneRight_iff : NoneRight words s ↔ NoneLeft (words.map List.reverse) s.reverse := by
  simp only [NoneRight, NoneLeft, List.forall_mem_map, List.reverse_prefix]

theorem NoneRight.trimRight (h : NoneRight words s) : trimRight words s = s := by
  rw [Trim.trimRight, (noneRight_iff.mp h).trimLeft, List.reverse_reverse]

theorem noneRight_trimRight (hwords : [] ∉ words) (s : List α) :
    NoneRight words (trimRight words s) := by
  refine noneRight_iff.mpr ?_
  rw [Trim.trimRight, List.reverse_reverse]
  refine noneLeft_trimLeft ?_ s.reverse
  simpa using hwords

theorem prefix_of_trimRight (words : List (List α)) (s : List α) : trimRight words s <+: s := by
  rw [← List.reverse_suffix, Trim.trimRight, List.reverse_reverse]
  exact suffix_of_dropWords _ _ s.reverse

/-! ### Both -/

theorem noneLeft_trim (hwords : [] ∉ words) (s : List α) : NoneLeft words (trim words s) :=
  fun w hw hpre => noneLeft_trimLeft hwords s w hw (hpre.trans (prefix_of_trimRight words _))

theorem trim_eq_self_iff (hwords : [] ∉ words) :
    trim words s = s ↔ NoneLeft words s ∧ NoneRight words s := by
  constructor
  · intro h
    rw [← h]
    exact ⟨noneLeft_trim hwords s, noneRight_trimRight hwords _⟩
  · rintro ⟨hleft, hright⟩
    rw [trim, hleft.trimLeft, hright.trimRight]

theorem trim_trim (hwords : [] ∉ words) (s : List α) : trim words (trim words s) = trim words s :=
  (trim_eq_self_iff hwords).mpr ⟨noneLeft_trim hwords s, noneRight_trimRight hwords _⟩

/-- A list that is not its own trimming has all letters of some word in it. -/
theorem exists_mem_of_trim_ne (hwords : [] ∉ words) (h : trim words s ≠ s) :
    ∃ w ∈ words, ∀ a ∈ w, a ∈ s := by
  rw [Ne, trim_eq_self_iff hwords, not_and_or] at h
  simp only [NoneLeft, NoneRight, not_forall, not_not] at h
  rcases h with ⟨w, hw, hpre⟩ | ⟨w, hw, hsuf⟩
  · exact ⟨w, hw, fun a ha => hpre.subset ha⟩
  · exact ⟨w, hw, fun a ha => hsuf.subset ha⟩

end Trim
