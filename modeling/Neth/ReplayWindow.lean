/-
The replay bitmap of `hostmap.go`.

`window` holds 64 words of 64 bits.  Bit `b` of word `i` stands for the counter
`windowEnd - (64 * i + b)`, so bit 0 of word 0 is `windowEnd` itself and older
counters sit at higher positions.  `shiftWindow` moves every bit up in place, in
two loops that both run from the last word down; they are modelled as loops over
the array, index by index, because the order is what makes them correct.

Words are `BitVec 64`, whose shifts by a natural number drop bits exactly as Go's
do; counters are `UInt64`.
-/
import Neth.Lib.Bytes

namespace Neth

/-- One `uint64` of the bitmap. -/
abbrev Word := BitVec 64

/-- `replayWindowSize`, the number of counters tracked in the bitmap. -/
def replayWindowSize : Nat := 64 * 64

/-- The replay fields of `HostInfo`. -/
structure ReplayWindow where
  /-- Highest counter accepted. -/
  windowEnd : UInt64
  window : Vector Word 64
  deriving DecidableEq

/-- `[64]uint64{}`. -/
def zeroWindow : Vector Word 64 := Vector.replicate 64 0

/-- The fields of a `HostInfo` as allocated. -/
def ReplayWindow.fresh : ReplayWindow := ⟨0, zeroWindow⟩

/-- The whole-word loop, with indices `i - 1, …, 0` still to go. -/
def shiftWords (wordShift : Nat) : (i : Nat) → i ≤ 64 → Vector Word 64 → Vector Word 64
  | 0, _, w => w
  | i + 1, h, w =>
      -- `src := i - wordShift` is negative exactly when `i < wordShift`
      let v := if i < wordShift then 0 else w[i - wordShift]
      shiftWords wordShift i (by omega) (w.set i v (by omega))

/-- The carry loop, with indices `i, …, 1` still to go. -/
def shiftBits (bitShift : Nat) : (i : Nat) → i ≤ 63 → Vector Word 64 → Vector Word 64
  | 0, _, w => w
  | i + 1, h, w =>
      let v := (w[i + 1] <<< bitShift) ||| (w[i] >>> (64 - bitShift))
      shiftBits bitShift i (by omega) (w.set (i + 1) v (by omega))

/-- Shift the bitmap by `n` positions; bits pushed past the last position are lost. -/
def shiftWindow (w : Vector Word 64) (n : UInt64) : Vector Word 64 :=
  let wordShift := n.toNat / 64
  let bitShift := n.toNat % 64
  if wordShift ≥ 64 then
    zeroWindow
  else
    let w := shiftWords wordShift 64 (by omega) w
    if bitShift > 0 then
      let w := shiftBits bitShift 63 (by omega) w
      w.set 0 (w[0] <<< bitShift)
    else w

/-- `CheckReplay`: `true` if the counter was received before or is too old, else `false` with
the counter marked. -/
def ReplayWindow.checkReplay (h : ReplayWindow) (counter : UInt64) : ReplayWindow × Bool :=
  if counter > h.windowEnd then
    let diff := counter - h.windowEnd
    let w := if diff.toNat ≥ replayWindowSize then zeroWindow else shiftWindow h.window diff
    (⟨counter, w.set 0 (w[0] ||| 1)⟩, false)
  else
    let pos := (h.windowEnd - counter).toNat
    if hpos : pos ≥ replayWindowSize then
      (h, true)
    else
      have hword : pos / 64 < 64 := by unfold replayWindowSize at hpos; omega
      if h.window[pos / 64] &&& ((1 : Word) <<< (pos % 64)) ≠ 0 then
        (h, true)
      else
        (⟨h.windowEnd,
          h.window.set (pos / 64) (h.window[pos / 64] ||| ((1 : Word) <<< (pos % 64)))⟩, false)

end Neth
