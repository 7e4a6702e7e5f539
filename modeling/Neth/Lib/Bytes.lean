/-
Byte strings and fixed-width integers inside them.

A byte string is a list of `UInt8`.  An integer is written into `k` of its bytes least
significant first by `lePut`, and read back by `leGet`; the big-endian forms are the
same two read backwards.  Widths are arbitrary, so one round-trip lemma serves every
field width, and a value too large for its field is truncated modulo `256 ^ k`, which is
what storing into a machine word does.

Buffers that are filled piece by piece are treated at the end: `put` writes at an
offset, and pieces that follow one another come to one write.
-/
import Mathlib.Algebra.Ring.Nat
import Mathlib.Data.List.Basic

/-- A byte string. -/
abbrev Bytes := List UInt8

namespace Bytes

/-- The `k` low-order bytes of `n`, least significant first. -/
def lePut : Nat → Nat → Bytes
  | 0, _ => []
  | k + 1, n => UInt8.ofNat n :: lePut k (n / 256)

/-- The integer a byte string spells, least significant byte first. -/
def leGet : Bytes → Nat
  | [] => 0
  | b :: bs => b.toNat + 256 * leGet bs

/-- The `k` low-order bytes of `n`, most significant first. -/
def bePut (k n : Nat) : Bytes := (lePut k n).reverse

/-- The integer a byte string spells, most significant byte first. -/
def beGet (bs : Bytes) : Nat := leGet bs.reverse

@[simp] theorem length_lePut (k n : Nat) : (lePut k n).length = k := by
  induction k generalizing n with
  | zero => rfl
  | succ k ih => simp [lePut, ih]

@[simp] theorem length_bePut (k n : Nat) : (bePut k n).length = k := by
  simp [bePut]

theorem leGet_lePut (k n : Nat) : leGet (lePut k n) = n % 256 ^ k := by
  induction k generalizing n with
  | zero => simp [lePut, leGet, Nat.mod_one]
  | succ k ih =>
      have hbyte : (UInt8.ofNat n).toNat = n % 256 := UInt8.toNat_ofNat'
      rw [lePut, leGet, ih, hbyte, Nat.pow_succ, Nat.mul_comm (256 ^ k) 256, Nat.mod_mul]

theorem beGet_bePut (k n : Nat) : beGet (bePut k n) = n % 256 ^ k := by
  rw [beGet, bePut, List.reverse_reverse, leGet_lePut]

theorem lePut_leGet (bs : Bytes) : lePut bs.length (leGet bs) = bs := by
  induction bs with
  | nil => rfl
  | cons b bs ih =>
      have hlow : UInt8.ofNat (b.toNat + 256 * leGet bs) = b := by
        apply UInt8.toNat_inj.mp
        rw [UInt8.toNat_ofNat', Nat.add_mul_mod_self_left]
        exact Nat.mod_eq_of_lt b.toNat_lt
      have hhigh : (b.toNat + 256 * leGet bs) / 256 = leGet bs := by
        have hlt := b.toNat_lt
        omega
      rw [List.length_cons, leGet, lePut, hlow, hhigh, ih]

theorem bePut_beGet {bs : Bytes} {k : Nat} (hk : bs.length = k) : bePut k (beGet bs) = bs := by
  subst hk
  rw [bePut, beGet, ← List.length_reverse, lePut_leGet, List.reverse_reverse]

/-- A string of `k` bytes spells a number of `k` bytes. -/
theorem leGet_lt (bs : Bytes) : leGet bs < 256 ^ bs.length := by
  induction bs with
  | nil => exact Nat.one_pos
  | cons b bs ih =>
      have hb := b.toNat_lt
      rw [leGet, List.length_cons, Nat.pow_succ]
      omega

theorem beGet_lt (bs : Bytes) : beGet bs < 256 ^ bs.length := by
  rw [beGet, ← List.length_reverse]
  exact leGet_lt bs.reverse

/-- The bytes `lo, …, lo + k - 1` of a string. -/
def slice (bs : Bytes) (lo k : Nat) : Bytes := (bs.drop lo).take k

@[simp] theorem length_slice (bs : Bytes) (lo k : Nat) :
    (slice bs lo k).length = min k (bs.length - lo) := by
  simp [slice]

/-! ### Writing into a buffer

`put` overwrites a stretch of a buffer.  Writes that follow each other are one write, and what lies
before or behind a write is as it was. -/

/-- The string with `ws` written over its bytes from `lo` on. -/
def put (bs : Bytes) (lo : Nat) (ws : Bytes) : Bytes := bs.take lo ++ ws ++ bs.drop (lo + ws.length)

theorem length_put {bs : Bytes} {lo : Nat} {ws : Bytes} (h : lo + ws.length ≤ bs.length) :
    (put bs lo ws).length = bs.length := by
  simp only [put, List.length_append, List.length_take, List.length_drop]
  omega

theorem set_eq_put {bs : Bytes} {i : Nat} (hi : i < bs.length) (b : UInt8) :
    bs.set i b = put bs i [b] := by
  simp [put, List.set_eq_take_append_cons_drop, hi]

/-- Two writes next to each other are one. -/
theorem put_put {bs : Bytes} {lo j : Nat} {ws : Bytes} (hlo : lo ≤ bs.length)
    (hj : j = lo + ws.length) (ws' : Bytes) : put (put bs lo ws) j ws' = put bs lo (ws ++ ws') := by
  have hfront : (bs.take lo ++ ws).length = j := by
    simp [Nat.min_eq_left hlo, hj]
  unfold put
  rw [← hfront, List.take_left, ← List.drop_drop, List.drop_left, List.drop_drop,
    List.length_append]
  simp only [List.append_assoc, Nat.add_assoc]

theorem set_put {bs : Bytes} {lo j : Nat} {ws : Bytes} (hj : j = lo + ws.length)
    (hlt : j < bs.length) (b : UInt8) : (put bs lo ws).set j b = put bs lo (ws ++ [b]) := by
  have hlen : j < (put bs lo ws).length := by
    simp only [put, List.length_append, List.length_take, List.length_drop]
    omega
  rw [set_eq_put hlen, put_put (by omega) hj]

theorem getElem?_put {bs : Bytes} {lo : Nat} {ws : Bytes} (h : lo ≤ bs.length) (i : Nat) :
    (put bs lo ws)[i]? = if lo ≤ i ∧ i < lo + ws.length then ws[i - lo]? else bs[i]? := by
  have hlen : (bs.take lo).length = lo := List.length_take_of_le h
  unfold put
  rw [List.append_assoc, List.getElem?_append, hlen, List.getElem?_append, List.getElem?_take,
    List.getElem?_drop]
  by_cases hlo : i < lo
  · rw [if_pos hlo, if_pos hlo, if_neg (by omega)]
  · by_cases hhi : i - lo < ws.length
    · rw [if_neg hlo, if_pos hhi, if_pos (by omega)]
    · rw [if_neg hlo, if_neg hhi, if_neg (by omega)]
      congr 1
      omega

/-- What was written is found where it was written. -/
theorem slice_put {bs : Bytes} {lo k : Nat} {ws : Bytes} (h : lo ≤ bs.length)
    (hk : ws.length = k) : slice (put bs lo ws) lo k = ws := by
  have hlen : (bs.take lo).length = lo := List.length_take_of_le h
  unfold slice put
  rw [List.append_assoc, List.drop_left' hlen, List.take_left' hk]

/-- Writing leaves what is in front as it was. -/
theorem slice_put_before {bs : Bytes} {lo i k : Nat} (ws : Bytes) (h : lo ≤ bs.length)
    (hik : i + k ≤ lo) : slice (put bs lo ws) i k = slice bs i k := by
  refine List.ext_getElem? fun j => ?_
  simp only [slice, List.getElem?_take, List.getElem?_drop, getElem?_put h]
  split_ifs with hj hput
  · omega
  · rfl
  · rfl

end Bytes
