/-
Lists of byte strings as one byte string.

Each byte of an item is written behind a 1, and a 0 ends the item.  Nothing is counted,
so items may have any length and the code has no width to overflow.

Decoding undoes encoding, one item at a time, and the length of the code is known.  That
is all that is needed to write terms down as bytes: a term is the list of its parts, and
comparing two codes is comparing the parts.  Real formats would do as well, but their
lengths would have to be bounded in every lemma.
-/
import Neth.Lib.Bytes

namespace Framing

/-- One item: its bytes, each behind a 1, then a 0. -/
def frame : Bytes → Bytes
  | [] => [0]
  | b :: bs => 1 :: b :: frame bs

/-- A list of items. -/
def frames (items : List Bytes) : Bytes := items.flatMap frame

/-- Read a list of items back. -/
def unframes : Bytes → Option (List Bytes)
  | [] => some []
  | [t] => if t = 0 then some [[]] else none
  | t :: b :: rest =>
      if t = 0 then (unframes (b :: rest)).map ([] :: ·)
      else if t = 1 then
        match unframes rest with
        | some (item :: items) => some ((b :: item) :: items)
        | _ => none
      else none

theorem length_frame (item : Bytes) : (frame item).length = 2 * item.length + 1 := by
  induction item with
  | nil => rfl
  | cons b bs ih => simp only [frame, List.length_cons, ih]; omega

theorem unframes_zero (rest : Bytes) :
    unframes (0 :: rest) = (unframes rest).map ([] :: ·) := by
  cases rest with
  | nil => rfl
  | cons b rest => rw [unframes, if_pos rfl]

theorem unframes_frame_append (item rest : Bytes) :
    unframes (frame item ++ rest) = (unframes rest).map (item :: ·) := by
  induction item with
  | nil => exact unframes_zero rest
  | cons b bs ih =>
      show unframes (1 :: b :: (frame bs ++ rest)) = _
      rw [unframes, if_neg (by decide), if_pos rfl, ih]
      cases unframes rest with
      | none => rfl
      | some items => rfl

@[simp] theorem unframes_frames (items : List Bytes) : unframes (frames items) = some items := by
  induction items with
  | nil => rfl
  | cons item items ih =>
      show unframes (frame item ++ frames items) = _
      rw [unframes_frame_append, ih]
      rfl

end Framing
