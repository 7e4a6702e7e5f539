/-
The replay bitmap is a set of accepted counters.

Three steps.  The two loops of `shiftWindow` are described word by word, and from
that bit by bit: together they move the whole 4096-bit map up by `n` positions.
`checkReplay` is then described by what it turns away, `Stale`, a condition on
`windowEnd` and the bits.  Last, `Stale` is matched with the set-based
specification of `Lib/SlidingWindow.lean`, in which no window appears.

Nothing here assumes that the window was reached from a fresh one, except the last
step; the facts the data path needs hold of any window.
-/
import Neth.ReplayWindow
import Neth.Lib.SlidingWindow

namespace Neth

/-! ### What the two loops leave in each word -/

theorem getElem_shiftWords (s : Nat) :
    ∀ (i : Nat) (h : i ≤ 64) (w : Vector Word 64) (j : Nat) (hj : j < 64),
      (shiftWords s i h w)[j]
        = if j < i then (if j < s then 0 else w[j - s]) else w[j] := by
  intro i
  induction i with
  | zero => intro h w j hj; simp [shiftWords]
  | succ i ih =>
      intro h w j hj
      rw [shiftWords, ih _ _ j hj]
      rcases Nat.lt_trichotomy j i with hlt | rfl | hgt
      · -- still to be written: the word it will read lies below `i` and is untouched
        have hne : i ≠ j - s := by omega
        rw [if_pos hlt, if_pos (Nat.lt_succ_of_lt hlt), Vector.getElem_set_ne _ _ hne]
      · rw [if_neg (Nat.lt_irrefl j), if_pos (Nat.lt_succ_self j), Vector.getElem_set_self]
      · have hne : i ≠ j := by omega
        have hge : ¬ j < i + 1 := by omega
        rw [if_neg (Nat.lt_asymm hgt), if_neg hge, Vector.getElem_set_ne _ _ hne]

theorem getElem_shiftBits (b : Nat) :
    ∀ (i : Nat) (h : i ≤ 63) (w : Vector Word 64) (j : Nat) (hj : j < 64),
      (shiftBits b i h w)[j]
        = if 0 < j ∧ j ≤ i then (w[j] <<< b) ||| (w[j - 1] >>> (64 - b)) else w[j] := by
  intro i
  induction i with
  | zero =>
      intro h w j hj
      rw [shiftBits, if_neg (by omega)]
  | succ i ih =>
      intro h w j hj
      rw [shiftBits, ih _ _ j hj]
      rcases Nat.lt_trichotomy j (i + 1) with hlt | rfl | hgt
      · have hne : i + 1 ≠ j := by omega
        have hne' : i + 1 ≠ j - 1 := by omega
        rw [Vector.getElem_set_ne _ _ hne, Vector.getElem_set_ne _ _ hne']
        by_cases h0 : 0 < j
        · rw [if_pos ⟨h0, by omega⟩, if_pos ⟨h0, by omega⟩]
        · rw [if_neg (by omega), if_neg (by omega)]
      · rw [if_neg (by omega), if_pos ⟨Nat.succ_pos i, Nat.le_refl _⟩, Vector.getElem_set_self]
        simp
      · have hne : i + 1 ≠ j := by omega
        rw [if_neg (by omega), if_neg (by omega), Vector.getElem_set_ne _ _ hne]

/-! ### The bitmap as 4096 positions

The bitmap is one number to look at: position `i` stands for the counter `i` below the highest seen.
-/

/-- The bit at position `p`: bit `p % 64` of word `p / 64`. -/
def bitAt (w : Vector Word 64) (p : Nat) : Bool := (w[p / 64]?.getD 0).getLsbD (p % 64)

theorem bitAt_of_lt {w : Vector Word 64} {p : Nat} (hp : p / 64 < 64) :
    bitAt w p = w[p / 64].getLsbD (p % 64) := by
  simp [bitAt, Vector.getElem?_eq_getElem hp]

theorem bitAt_of_ge {w : Vector Word 64} {p : Nat} (hp : replayWindowSize ≤ p) :
    bitAt w p = false := by
  have hnone : ¬ p / 64 < 64 := by unfold replayWindowSize at hp; omega
  simp [bitAt, Vector.getElem?_eq_none (Nat.le_of_not_lt hnone)]

@[simp] theorem bitAt_zeroWindow (p : Nat) : bitAt zeroWindow p = false := by
  by_cases hp : p / 64 < 64
  · rw [bitAt_of_lt hp]
    simp [zeroWindow]
  · exact bitAt_of_ge (by unfold replayWindowSize; omega)

/-- The word loop moves the bit at `p` to `p + 64 * s`. -/
theorem bitAt_shiftWords (s : Nat) (w : Vector Word 64) {p : Nat} (hp : p < replayWindowSize) :
    bitAt (shiftWords s 64 (Nat.le_refl 64) w) p
      = if 64 * s ≤ p then bitAt w (p - 64 * s) else false := by
  have hword : p / 64 < 64 := by unfold replayWindowSize at hp; omega
  rw [bitAt_of_lt hword, getElem_shiftWords s 64 (Nat.le_refl 64) w _ hword, if_pos hword]
  by_cases hs : p / 64 < s
  · have hlt : ¬ 64 * s ≤ p := by omega
    rw [if_pos hs, if_neg hlt]
    simp
  · have hle : 64 * s ≤ p := by omega
    have hdiv : (p - 64 * s) / 64 = p / 64 - s := by omega
    have hmod : (p - 64 * s) % 64 = p % 64 := by omega
    rw [if_neg hs, if_pos hle, bitAt_of_lt (by omega)]
    simp only [hdiv, hmod]

/-- The carry loop and the final shift of word 0 move the bit at `p` to `p + b`. -/
theorem bitAt_shiftBits {b : Nat} (hb : b < 64) (hb0 : 0 < b) (w : Vector Word 64) {p : Nat}
    (hp : p < replayWindowSize) :
    bitAt ((shiftBits b 63 (by omega) w).set 0 ((shiftBits b 63 (by omega) w)[0] <<< b)) p
      = if b ≤ p then bitAt w (p - b) else false := by
  have hword : p / 64 < 64 := by unfold replayWindowSize at hp; omega
  rw [bitAt_of_lt hword]
  by_cases h0 : p / 64 = 0
  · have hpp : p % 64 = p := by omega
    simp only [h0, hpp, Vector.getElem_set_self, getElem_shiftBits]
    rw [if_neg (by omega), BitVec.getLsbD_shiftLeft]
    by_cases hle : b ≤ p
    · rw [if_pos hle, bitAt_of_lt (by omega)]
      have hdiv : (p - b) / 64 = 0 := by omega
      have hmod : (p - b) % 64 = p - b := by omega
      have hlt : p < 64 := by omega
      simp [hdiv, hmod, hle, hlt]
    · simp [hle, Nat.lt_of_not_le hle]
  · have hpos : 0 < p / 64 := Nat.pos_of_ne_zero h0
    rw [Vector.getElem_set_ne _ _ (Ne.symm h0), getElem_shiftBits, if_pos ⟨hpos, by omega⟩,
      BitVec.getLsbD_or, BitVec.getLsbD_shiftLeft, BitVec.getLsbD_ushiftRight,
      if_pos (by omega : b ≤ p), bitAt_of_lt (by omega)]
    by_cases hle : b ≤ p % 64
    · -- the bit stays inside its word; the carried part has nothing that high
      have hdiv : (p - b) / 64 = p / 64 := by omega
      have hmod : (p - b) % 64 = p % 64 - b := by omega
      have hhigh : ¬ 64 - b + p % 64 < 64 := by omega
      simp only [hdiv, hmod]
      rw [BitVec.getLsbD_of_ge _ _ (Nat.le_of_not_lt hhigh)]
      simp [Nat.mod_lt, hle]
    · -- the bit comes over from the word below
      have hdiv : (p - b) / 64 = p / 64 - 1 := by omega
      have hmod : (p - b) % 64 = 64 - b + p % 64 := by omega
      simp only [hdiv, hmod]
      simp [Nat.lt_of_not_le hle]

/-- **`shiftWindow` is a shift of the whole bitmap**: a bit lands `n` positions up, and what is
pushed past the last position is dropped. -/
theorem bitAt_shiftWindow (w : Vector Word 64) (n : UInt64) {p : Nat}
    (hp : p < replayWindowSize) :
    bitAt (shiftWindow w n) p = if n.toNat ≤ p then bitAt w (p - n.toNat) else false := by
  unfold shiftWindow
  by_cases hbig : n.toNat / 64 ≥ 64
  · have hlt : ¬ n.toNat ≤ p := by unfold replayWindowSize at hp; omega
    simp [hbig, hlt]
  · simp only [if_neg hbig]
    have hsplit : n.toNat = 64 * (n.toNat / 64) + n.toNat % 64 := by omega
    by_cases hb : n.toNat % 64 > 0
    · simp only [if_pos hb]
      rw [bitAt_shiftBits (Nat.mod_lt _ (by omega)) hb _ hp]
      by_cases hle : n.toNat % 64 ≤ p
      · rw [if_pos hle, bitAt_shiftWords _ _ (by omega)]
        by_cases hle' : 64 * (n.toNat / 64) ≤ p - n.toNat % 64
        · have hn : n.toNat ≤ p := by omega
          have hsub : p - n.toNat % 64 - 64 * (n.toNat / 64) = p - n.toNat := by omega
          rw [if_pos hle', if_pos hn, hsub]
        · have hn : ¬ n.toNat ≤ p := by omega
          rw [if_neg hle', if_neg hn]
      · have hn : ¬ n.toNat ≤ p := by omega
        rw [if_neg hle, if_neg hn]
    · have hn : 64 * (n.toNat / 64) = n.toNat := by omega
      simp only [if_neg hb]
      rw [bitAt_shiftWords _ _ hp, hn]

/-! ### Marking and testing one position -/

theorem getLsbD_one_shiftLeft {b q : Nat} (hq : q < 64) :
    ((1 : Word) <<< b).getLsbD q = decide (q = b) := by
  rw [BitVec.getLsbD_shiftLeft]
  by_cases hqb : q = b
  · simp [hqb, hqb ▸ hq]
  · by_cases hlt : q < b
    · simp [hlt, hqb]
    · have hne : q - b ≠ 0 := by omega
      simp [hq, hqb, BitVec.getLsbD_one, hne]

/-- The test `window[word] & (1 << bit) != 0` reads the bit. -/
theorem and_one_shiftLeft_ne_zero (x : Word) {b : Nat} (hb : b < 64) :
    x &&& ((1 : Word) <<< b) ≠ 0 ↔ x.getLsbD b = true := by
  constructor
  · intro h
    by_contra hbit
    apply h
    apply BitVec.eq_of_getLsbD_eq
    intro q hq
    rw [BitVec.getLsbD_and, getLsbD_one_shiftLeft hq]
    by_cases hqb : q = b
    · simpa [hqb] using hbit
    · simp [hqb]
  · intro h hzero
    have hbit : (x &&& ((1 : Word) <<< b)).getLsbD b = true := by
      rw [BitVec.getLsbD_and, getLsbD_one_shiftLeft hb, h]
      simp
    rw [hzero] at hbit
    simp at hbit

/-- Setting a bit sets that position and no other. -/
theorem bitAt_mark (w : Vector Word 64) {p : Nat} (hp : p / 64 < 64) (q : Nat) :
    bitAt (w.set (p / 64) (w[p / 64] ||| ((1 : Word) <<< (p % 64)))) q
      = (decide (q = p) || bitAt w q) := by
  by_cases hq : q / 64 < 64
  · rw [bitAt_of_lt hq, bitAt_of_lt hq]
    have hq64 : q % 64 < 64 := Nat.mod_lt _ (by omega)
    by_cases hword : p / 64 = q / 64
    · simp only [hword, Vector.getElem_set_self]
      rw [BitVec.getLsbD_or, getLsbD_one_shiftLeft hq64, Bool.or_comm]
      have hiff : q % 64 = p % 64 ↔ q = p := by omega
      simp only [hiff]
    · have hne : q ≠ p := by rintro rfl; exact hword rfl
      rw [Vector.getElem_set_ne _ _ hword]
      simp [hne]
  · have hge : replayWindowSize ≤ q := by unfold replayWindowSize; omega
    have hne : q ≠ p := by rintro rfl; exact hq hp
    rw [bitAt_of_ge hge, bitAt_of_ge hge]
    simp [hne]

/-! ### What `checkReplay` turns away

`Stale` is read off the fields alone: the counter lies too far below `windowEnd`, or
its bit is set.  A call answers `true` exactly for a stale counter and then changes
nothing; any other call makes the counter itself stale, and everything that has
fallen out of the window below it.
-/

/-- Too old for the window, or marked in it. -/
def ReplayWindow.Stale (h : ReplayWindow) (c : UInt64) : Prop :=
  c ≤ h.windowEnd ∧ (c.toNat + replayWindowSize ≤ h.windowEnd.toNat
    ∨ bitAt h.window (h.windowEnd.toNat - c.toNat) = true)

instance (h : ReplayWindow) (c : UInt64) : Decidable (h.Stale c) :=
  inferInstanceAs (Decidable (_ ∧ _))

theorem not_stale_fresh (c : UInt64) : ¬ ReplayWindow.fresh.Stale c := by
  rintro ⟨-, h | h⟩
  · have hz : (ReplayWindow.fresh.windowEnd).toNat = 0 := rfl
    unfold replayWindowSize at h
    omega
  · simp [ReplayWindow.fresh] at h

namespace ReplayWindow

variable {h : ReplayWindow} {c : UInt64}

theorem checkReplay_of_stale (hs : h.Stale c) : h.checkReplay c = (h, true) := by
  obtain ⟨hle, hs⟩ := hs
  have hnot : ¬ c > h.windowEnd := UInt64.not_lt.mpr hle
  have hsub : (h.windowEnd - c).toNat = h.windowEnd.toNat - c.toNat :=
    UInt64.toNat_sub_of_le _ _ hle
  unfold checkReplay
  simp only [if_neg hnot, hsub]
  split
  · rfl
  · rename_i hpos
    rcases hs with hold | hbit
    · exact absurd (by omega) hpos
    · have hword : (h.windowEnd.toNat - c.toNat) / 64 < 64 := by
        unfold replayWindowSize at hpos; omega
      rw [bitAt_of_lt hword] at hbit
      rw [if_pos ((and_one_shiftLeft_ne_zero _ (Nat.mod_lt _ (by omega))).mpr hbit)]

/-- The window after a counter above `windowEnd`: the old bits moved up, the new counter at
position 0. -/
theorem checkReplay_advance (hgt : h.windowEnd < c) :
    (h.checkReplay c).2 = false ∧ (h.checkReplay c).1.windowEnd = c ∧
      ∀ p, p < replayWindowSize → bitAt (h.checkReplay c).1.window p
        = (decide (p = 0) || (decide (c.toNat - h.windowEnd.toNat ≤ p)
            && bitAt h.window (p - (c.toNat - h.windowEnd.toNat)))) := by
  have hlt : h.windowEnd.toNat < c.toNat := UInt64.lt_iff_toNat_lt.mp hgt
  have hsub : (c - h.windowEnd).toNat = c.toNat - h.windowEnd.toNat :=
    UInt64.toNat_sub_of_le _ _ (UInt64.le_of_lt hgt)
  unfold checkReplay
  simp only [if_pos hgt]
  refine ⟨trivial, trivial, ?_⟩
  intro p hp
  have hmark := bitAt_mark (p := 0)
    (if (c - h.windowEnd).toNat ≥ replayWindowSize then zeroWindow
      else shiftWindow h.window (c - h.windowEnd)) (by omega) p
  simp only [Nat.zero_div, Nat.zero_mod, BitVec.shiftLeft_zero] at hmark
  rw [hmark]
  congr 1
  by_cases hbig : (c - h.windowEnd).toNat ≥ replayWindowSize
  · have hout : ¬ c.toNat - h.windowEnd.toNat ≤ p := by omega
    simp [hbig, hout]
  · rw [if_neg hbig, bitAt_shiftWindow _ _ hp, hsub]
    by_cases hle : c.toNat - h.windowEnd.toNat ≤ p <;> simp [hle]

/-- The window after an unmarked counter inside it: one more bit set. -/
theorem checkReplay_inside (hle : c ≤ h.windowEnd) (hs : ¬ h.Stale c) :
    (h.checkReplay c).2 = false ∧ (h.checkReplay c).1.windowEnd = h.windowEnd ∧
      ∀ p, bitAt (h.checkReplay c).1.window p
        = (decide (p = h.windowEnd.toNat - c.toNat) || bitAt h.window p) := by
  have hnot : ¬ c > h.windowEnd := UInt64.not_lt.mpr hle
  have hsub : (h.windowEnd - c).toNat = h.windowEnd.toNat - c.toNat :=
    UInt64.toNat_sub_of_le _ _ hle
  have hlen : ¬ h.windowEnd.toNat - c.toNat ≥ replayWindowSize := by
    intro hge
    have hcl : c.toNat ≤ h.windowEnd.toNat := UInt64.le_iff_toNat_le.mp hle
    refine hs ⟨hle, Or.inl ?_⟩
    unfold replayWindowSize at hge ⊢
    omega
  have hword : (h.windowEnd.toNat - c.toNat) / 64 < 64 := by
    unfold replayWindowSize at hlen; omega
  have hbit : ¬ (h.window[(h.windowEnd.toNat - c.toNat) / 64]
      &&& ((1 : Word) <<< ((h.windowEnd.toNat - c.toNat) % 64)) ≠ 0) := by
    rw [and_one_shiftLeft_ne_zero _ (Nat.mod_lt _ (by omega)), ← bitAt_of_lt hword]
    exact fun hb => hs ⟨hle, Or.inr hb⟩
  unfold checkReplay
  simp only [if_neg hnot, hsub, dif_neg hlen, if_neg hbit]
  exact ⟨trivial, trivial, fun p => bitAt_mark _ hword p⟩

/-- **The whole effect of accepting a counter.**  It becomes stale, with everything
`replayWindowSize` or more below it; what was stale stays so, and nothing else changes. -/
theorem stale_checkReplay (hs : ¬ h.Stale c) (x : UInt64) :
    (h.checkReplay c).1.Stale x
      ↔ x = c ∨ x.toNat + replayWindowSize ≤ c.toNat ∨ h.Stale x := by
  have heq : x = c ↔ x.toNat = c.toNat := UInt64.toNat_inj.symm
  by_cases hgt : h.windowEnd < c
  · obtain ⟨-, hend, hbits⟩ := checkReplay_advance hgt
    have hlt : h.windowEnd.toNat < c.toNat := UInt64.lt_iff_toNat_lt.mp hgt
    unfold Stale
    rw [hend, heq, UInt64.le_iff_toNat_le, UInt64.le_iff_toNat_le]
    by_cases hold : x.toNat + replayWindowSize ≤ c.toNat
    · have hxc : x.toNat ≤ c.toNat := by omega
      simp [hold, hxc]
    · by_cases hxc : x.toNat ≤ c.toNat
      · rw [hbits _ (by omega)]
        -- inside the new window: position 0 is `c`, the rest is the old bitmap moved up
        by_cases hxe : x.toNat ≤ h.windowEnd.toNat
        · have hpos : c.toNat - x.toNat - (c.toNat - h.windowEnd.toNat)
              = h.windowEnd.toNat - x.toNat := by omega
          have hge : c.toNat - h.windowEnd.toNat ≤ c.toNat - x.toNat := by omega
          have hold' : ¬ x.toNat + replayWindowSize ≤ h.windowEnd.toNat := by omega
          have hne : c.toNat - x.toNat ≠ 0 := by omega
          have hne' : x.toNat ≠ c.toNat := by omega
          simp [hold, hold', hxc, hxe, hpos, hge, hne, hne']
        · have hge : ¬ c.toNat - h.windowEnd.toNat ≤ c.toNat - x.toNat := by omega
          have hzero : c.toNat - x.toNat = 0 ↔ x.toNat = c.toNat := by omega
          simp [hold, hxc, hxe, hge, hzero]
      · have hne : x.toNat ≠ c.toNat := by omega
        have hxe : ¬ x.toNat ≤ h.windowEnd.toNat := by omega
        simp [hold, hxc, hxe, hne]
  · have hle : c ≤ h.windowEnd := UInt64.not_lt.mp hgt
    obtain ⟨-, hend, hbits⟩ := checkReplay_inside hle hs
    have hcl : c.toNat ≤ h.windowEnd.toNat := UInt64.le_iff_toNat_le.mp hle
    unfold Stale
    rw [hend, hbits, heq, UInt64.le_iff_toNat_le]
    by_cases hxe : x.toNat ≤ h.windowEnd.toNat
    · have hpos : h.windowEnd.toNat - x.toNat = h.windowEnd.toNat - c.toNat
          ↔ x.toNat = c.toNat := by omega
      have hmono : x.toNat + replayWindowSize ≤ c.toNat →
          x.toNat + replayWindowSize ≤ h.windowEnd.toNat := by omega
      simp only [hxe, hpos, Bool.or_eq_true, decide_eq_true_eq, true_and]
      tauto
    · have hne : x.toNat ≠ c.toNat := by omega
      have hold : ¬ x.toNat + replayWindowSize ≤ c.toNat := by omega
      simp [hxe, hne, hold]

theorem checkReplay_of_not_stale (hs : ¬ h.Stale c) : (h.checkReplay c).2 = false := by
  by_cases hgt : h.windowEnd < c
  · exact (checkReplay_advance hgt).1
  · exact (checkReplay_inside (UInt64.not_lt.mp hgt) hs).1

/-- The answer of a call, whatever the state. -/
theorem checkReplay_snd (h : ReplayWindow) (c : UInt64) :
    (h.checkReplay c).2 = true ↔ h.Stale c := by
  by_cases hs : h.Stale c
  · simp [checkReplay_of_stale hs, hs]
  · simp [checkReplay_of_not_stale hs, hs]

/-- A call that answers `false` does change the window. -/
theorem checkReplay_ne_of_not_stale (hs : ¬ h.Stale c) : (h.checkReplay c).1 ≠ h := by
  intro heq
  have hstale := (stale_checkReplay hs c).mpr (Or.inl rfl)
  rw [heq] at hstale
  exact hs hstale

/-- Staleness is never lost. -/
theorem stale_checkReplay_of_stale (c : UInt64) {x : UInt64} (hx : h.Stale x) :
    (h.checkReplay c).1.Stale x := by
  by_cases hs : h.Stale c
  · rw [checkReplay_of_stale hs]
    exact hx
  · exact (stale_checkReplay hs x).mpr (Or.inr (Or.inr hx))

theorem stale_self (h : ReplayWindow) (c : UInt64) : (h.checkReplay c).1.Stale c := by
  by_cases hs : h.Stale c
  · exact stale_checkReplay_of_stale c hs
  · exact (stale_checkReplay hs c).mpr (Or.inl rfl)

/-! ### The bitmap refines the set

The relation is that both turn away the same counters.  It holds of a fresh window
and the empty set, and `stale_checkReplay` on one side is `rejects_insert` on the
other.
-/

/-- The bitmap turns away what the set turns away. -/
def Tracks (h : ReplayWindow) (accepted : Set Nat) : Prop :=
  ∀ x : UInt64, h.Stale x ↔ SlidingWindow.Rejects replayWindowSize accepted x.toNat

theorem tracks_fresh : Tracks fresh ∅ := fun x =>
  ⟨fun hx => absurd hx (not_stale_fresh x),
    fun hx => absurd hx (SlidingWindow.not_rejects_empty _ _)⟩

theorem tracks_checkReplay {accepted : Set Nat} (ht : Tracks h accepted) (c : UInt64) :
    (h.checkReplay c).2 = (SlidingWindow.step replayWindowSize accepted c.toNat).2 ∧
      Tracks (h.checkReplay c).1 (SlidingWindow.step replayWindowSize accepted c.toNat).1 := by
  unfold SlidingWindow.step
  by_cases hs : h.Stale c
  · rw [if_pos ((ht c).mp hs), checkReplay_of_stale hs]
    exact ⟨rfl, ht⟩
  · rw [if_neg (fun hr => hs ((ht c).mpr hr))]
    refine ⟨checkReplay_of_not_stale hs, ?_⟩
    intro x
    rw [stale_checkReplay hs, SlidingWindow.rejects_insert, ht x, UInt64.toNat_inj]

/--
**`CheckReplay` on a fresh session is the set-based replay check.**  Its answers to any
sequence of counters are those of the specification; spelled out for the next call
after any sequence, it answers `true` exactly when that counter was let through by an
earlier call or some counter let through exceeds it by `replayWindowSize` or more.
-/
theorem checkReplay_refines (cs : List UInt64) :
    (Trace.run checkReplay fresh cs).2
        = (Trace.run (SlidingWindow.step replayWindowSize) ∅ (cs.map UInt64.toNat)).2 ∧
      ∀ c : UInt64, ((Trace.run checkReplay fresh cs).1.checkReplay c).2 = true ↔
        c ∈ SlidingWindow.letThrough cs (Trace.run checkReplay fresh cs).2 ∨
        ∃ m ∈ SlidingWindow.letThrough cs (Trace.run checkReplay fresh cs).2,
          c.toNat + 4096 ≤ m.toNat := by
  have hsim := Trace.run_simulation checkReplay
    (fun A (c : UInt64) => SlidingWindow.step replayWindowSize A c.toNat)
    Tracks (fun _ _ c ht => tracks_checkReplay ht c) cs fresh ∅ tracks_fresh
  rw [← Trace.run_map (SlidingWindow.step replayWindowSize) UInt64.toNat] at hsim
  obtain ⟨htrace, htracks⟩ := hsim
  refine ⟨htrace, fun c => ?_⟩
  -- what the specification remembers, in terms of the answers the bitmap gave
  have hset : ∀ n, n ∈ (Trace.run (SlidingWindow.step replayWindowSize) ∅
      (cs.map UInt64.toNat)).1 ↔
      ∃ m ∈ SlidingWindow.letThrough cs (Trace.run checkReplay fresh cs).2, m.toNat = n := by
    intro n
    rw [SlidingWindow.run_eq_letThrough, Set.empty_union, ← htrace,
      SlidingWindow.mem_letThrough_map]
    rfl
  rw [checkReplay_snd, htracks c]
  unfold SlidingWindow.Rejects
  constructor
  · rintro (hmem | ⟨n, hmem, hn⟩)
    · obtain ⟨m, hm, hmc⟩ := (hset _).mp hmem
      rw [UInt64.toNat_inj] at hmc
      exact Or.inl (hmc ▸ hm)
    · obtain ⟨m, hm, rfl⟩ := (hset _).mp hmem
      exact Or.inr ⟨m, hm, hn⟩
  · rintro (hmem | ⟨m, hmem, hm⟩)
    · exact Or.inl ((hset _).mpr ⟨c, hmem, rfl⟩)
    · exact Or.inr ⟨m.toNat, (hset _).mpr ⟨m, hmem, rfl⟩, hm⟩

end ReplayWindow

end Neth
