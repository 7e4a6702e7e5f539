/-
The distinguished encoding rules, as far as tags of one octet go.

An element is an identifier octet, the length of its contents and the contents.  A
length below 128 is one octet; a longer one is an octet that says how many follow and
the length in base 256, in as few digits as it takes, of which there can be 126 at most.
A sequence is an element whose contents are elements one after the other, and an
integer is its two's complement in as few octets as keep the sign.

For each of them there is a reader that refuses what is not in this form, and it gives
back what was written whatever comes after it.  The one bound is that of the format: a
length with 126 digits.
-/
import Mathlib.Algebra.Order.Ring.Nat
import Mathlib.Data.Nat.Log
import Neth.Lib.Bytes

namespace DER

open Bytes

/-- How many digits in base 256 it takes to write `n`, at least one. -/
def width (n : Nat) : Nat := n.log2 / 8 + 1

theorem lt_pow_width (n : Nat) : n < 256 ^ width n := by
  have hlog : n < 2 ^ (n.log2 + 1) := Nat.lt_log2_self
  have hle : n.log2 + 1 ≤ 8 * width n := by
    unfold width
    omega
  calc n < 2 ^ (n.log2 + 1) := hlog
    _ ≤ 2 ^ (8 * width n) := Nat.pow_le_pow_right (by decide) hle
    _ = 256 ^ width n := by rw [Nat.pow_mul]

theorem width_le {n k : Nat} (hk : 0 < k) (h : n < 256 ^ k) : width n ≤ k := by
  by_cases hn : n = 0
  · rw [hn]
    exact hk
  have hlog : n.log2 < 8 * k := by
    rw [Nat.log2_lt hn, Nat.pow_mul]
    exact h
  unfold width
  omega

/-! ### Lengths

Short form below 128, otherwise the number of octets first.  Only the shortest form is read. -/

/-- The longest length there is an encoding for, plus one. -/
def limit : Nat := 256 ^ 126

/-- The length octets. -/
def lengthOctets (n : Nat) : Bytes :=
  if n < 128 then [UInt8.ofNat n] else UInt8.ofNat (128 + width n) :: bePut (width n) n

/-- A length in the shortest form, and what follows it. -/
def readLength : Bytes → Option (Nat × Bytes)
  | [] => none
  | b :: bs =>
      if b.toNat < 128 then some (b.toNat, bs)
      else
        let k := b.toNat - 128
        let n := beGet (bs.take k)
        -- 127 digits are reserved; the rest is truncated, or has a shorter form
        if k = 127 ∨ bs.length < k ∨ n < 128 ∨ k ≠ width n then none else some (n, bs.drop k)

theorem readLength_append {n : Nat} (h : n < limit) (rest : Bytes) :
    readLength (lengthOctets n ++ rest) = some (n, rest) := by
  unfold lengthOctets
  split
  case isTrue hshort =>
    have hbyte : (UInt8.ofNat n).toNat = n := UInt8.toNat_ofNat_of_lt' (by
      show n < 256
      omega)
    simp only [List.cons_append, List.nil_append, readLength, hbyte, if_pos hshort]
  case isFalse hlong =>
    have hwidth : width n ≤ 126 := width_le (by decide) h
    have hbyte : (UInt8.ofNat (128 + width n)).toNat = 128 + width n :=
      UInt8.toNat_ofNat_of_lt' (by
        show 128 + width n < 256
        omega)
    have hk : 128 + width n - 128 = width n := Nat.add_sub_cancel_left 128 _
    have hget : beGet (bePut (width n) n) = n := by
      rw [beGet_bePut, Nat.mod_eq_of_lt (lt_pow_width n)]
    simp only [List.cons_append, readLength, hbyte, hk]
    rw [if_neg (by omega), List.take_left' (length_bePut _ n), List.drop_left' (length_bePut _ n),
      hget, if_neg]
    rw [List.length_append, length_bePut]
    omega

/-! ### Elements

A tag, a length and the content.  What follows an element is handed back, so that elements can be
read one after the other. -/

/-- INTEGER. -/
def integerTag : UInt8 := 0x02

/-- OCTET STRING. -/
def octetStringTag : UInt8 := 0x04

/-- An element. -/
def element (tag : UInt8) (content : Bytes) : Bytes :=
  tag :: (lengthOctets content.length ++ content)

/-- The first element of a string: its tag, its contents, and what follows it. -/
def readElement : Bytes → Option (UInt8 × Bytes × Bytes)
  | [] => none
  | tag :: bs =>
      -- 31 says that the tag goes on
      if tag.toNat % 32 = 31 then none
      else (readLength bs).bind fun (n, bs) =>
        if bs.length < n then none else some (tag, bs.take n, bs.drop n)

theorem readElement_append {tag : UInt8} (htag : tag.toNat % 32 ≠ 31) {content : Bytes}
    (h : content.length < limit) (rest : Bytes) :
    readElement (element tag content ++ rest) = some (tag, content, rest) := by
  simp only [element, List.cons_append, List.append_assoc, readElement]
  rw [if_neg htag, readLength_append h, Option.bind_some]
  simp only [List.length_append, List.take_left, List.drop_left]
  rw [if_neg (by omega)]

theorem length_lengthOctets_le {n : Nat} (h : n < limit) : (lengthOctets n).length ≤ 127 := by
  unfold lengthOctets
  split
  · rw [List.length_singleton]
    decide
  · have hwidth : width n ≤ 126 := width_le (by decide) h
    rw [List.length_cons, length_bePut]
    omega

theorem length_element_le (tag : UInt8) {content : Bytes} (h : content.length < limit) :
    (element tag content).length ≤ content.length + 128 := by
  have hlen := length_lengthOctets_le h
  rw [element, List.length_cons, List.length_append]
  omega

/-! ### Sequences -/

/-- Elements one after the other. -/
def elements (xs : List (UInt8 × Bytes)) : Bytes := xs.flatMap fun x => element x.1 x.2

/-- The elements a string consists of, at most `n`. -/
def readElements : Nat → Bytes → Option (List (UInt8 × Bytes))
  | _, [] => some []
  | 0, _ :: _ => none
  | n + 1, bs =>
      (readElement bs).bind fun (tag, content, rest) =>
        (readElements n rest).map ((tag, content) :: ·)

/-- What can be written as an element. -/
def Writable (x : UInt8 × Bytes) : Prop := x.1.toNat % 32 ≠ 31 ∧ x.2.length < limit

theorem readElements_elements (xs : List (UInt8 × Bytes)) :
    ∀ n, (elements xs).length ≤ n → (∀ x ∈ xs, Writable x) →
      readElements n (elements xs) = some xs := by
  induction xs with
  | nil => exact fun n _ _ => by cases n <;> rfl
  | cons x xs ih =>
      intro n hn hxs
      obtain ⟨htag, hlen⟩ := hxs x (List.mem_cons_self ..)
      have hsplit : elements (x :: xs) = element x.1 x.2 ++ elements xs := List.flatMap_cons ..
      have hpos : 0 < (element x.1 x.2).length := Nat.succ_pos _
      rw [hsplit, List.length_append] at hn
      cases n with
      | zero => omega
      | succ n =>
          have hrest := ih n (by omega) fun y hy => hxs y (List.mem_cons_of_mem _ hy)
          rw [hsplit, readElements, readElement_append htag hlen, Option.bind_some]
          · simp only [hrest, Option.map_some]
          · exact fun hnil => by rw [List.append_eq_nil_iff] at hnil; cases hnil.1

theorem length_elements_le {n : Nat} (hn : n ≤ limit) {xs : List (UInt8 × Bytes)}
    (hxs : ∀ x ∈ xs, x.2.length < n) : (elements xs).length ≤ xs.length * (n + 128) := by
  induction xs with
  | nil => exact Nat.zero_le _
  | cons x xs ih =>
      have hx := hxs x (List.mem_cons_self ..)
      have helement := length_element_le x.1 (Nat.lt_of_lt_of_le hx hn)
      have hrest := ih fun y hy => hxs y (List.mem_cons_of_mem _ hy)
      rw [elements, List.flatMap_cons, List.length_append, List.length_cons, Nat.succ_mul]
      unfold elements at hrest
      omega

/-- SEQUENCE, constructed. -/
def sequenceTag : UInt8 := 0x30

/-- A sequence of elements. -/
def sequence (xs : List (UInt8 × Bytes)) : Bytes := element sequenceTag (elements xs)

/-- A sequence, and what follows it. -/
def readSequence (bs : Bytes) : Option (List (UInt8 × Bytes) × Bytes) :=
  (readElement bs).bind fun (tag, content, rest) =>
    if tag = sequenceTag then (readElements content.length content).map (·, rest) else none

theorem readSequence_append {xs : List (UInt8 × Bytes)} (hxs : ∀ x ∈ xs, Writable x)
    (h : (elements xs).length < limit) (rest : Bytes) :
    readSequence (sequence xs ++ rest) = some (xs, rest) := by
  rw [readSequence, sequence, readElement_append (by decide) h, Option.bind_some]
  simp only [if_pos, readElements_elements xs _ le_rfl hxs]
  rfl

/-! ### Integers

Two's complement in as few octets as it takes, which for a positive number can mean a leading zero.
-/

/-- How far an integer is from the sign change, the same for `n` and `-n - 1`. -/
def magnitude : Int → Nat
  | .ofNat n => n
  | .negSucc n => n

/-- The number of octets an integer takes: one bit more than its magnitude. -/
def integerWidth (i : Int) : Nat := width (2 * magnitude i)

/-- The contents of an integer. -/
def integerOctets (i : Int) : Bytes :=
  bePut (integerWidth i) (i % (256 ^ integerWidth i : Nat)).toNat

/-- The integer that octets spell in two's complement. -/
def signed (bs : Bytes) : Int :=
  if 2 * beGet bs < 256 ^ bs.length then beGet bs else beGet bs - (256 ^ bs.length : Nat)

/-- An integer in the shortest form. -/
def readInteger (bs : Bytes) : Option Int :=
  if bs.length = integerWidth (signed bs) then some (signed bs) else none

theorem signed_integerOctets (i : Int) : signed (integerOctets i) = i := by
  have hroom : 2 * magnitude i < 256 ^ integerWidth i := lt_pow_width _
  have heven : 2 ∣ 256 ^ integerWidth i :=
    dvd_pow (by decide) (by unfold integerWidth width; omega)
  unfold signed integerOctets
  rw [beGet_bePut, length_bePut]
  generalize 256 ^ integerWidth i = m at hroom heven
  cases i with
  | ofNat n =>
      simp only [magnitude] at hroom
      have hmod : ((Int.ofNat n) % (m : Int)).toNat % m = n := by
        rw [Int.ofNat_eq_natCast, Int.emod_eq_of_lt (by omega) (by omega), Int.toNat_natCast,
          Nat.mod_eq_of_lt (by omega)]
      rw [hmod, if_pos hroom]
      rfl
  | negSucc n =>
      simp only [magnitude] at hroom
      have hmod : ((Int.negSucc n) % (m : Int)).toNat % m = m - (n + 1) := by
        have htoNat : ((m : Int) - 1 - n).toNat = m - (n + 1) := by omega
        rw [Int.negSucc_emod n (by omega), Int.emod_eq_of_lt (by omega) (by omega), htoNat,
          Nat.mod_eq_of_lt (by omega)]
      rw [hmod, if_neg (by omega)]
      omega

theorem readInteger_integerOctets (i : Int) : readInteger (integerOctets i) = some i := by
  unfold readInteger
  rw [signed_integerOctets, integerOctets, length_bePut, if_pos rfl]

end DER
