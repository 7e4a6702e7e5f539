/-
No packet takes the data path out of bounds.

The checked functions of `Accesses.lean` are compared with the total ones, from the
leaves up: each returns `.ok` of what its counterpart computes, on every input and in
every state, so none of its checks ever fails.  Most bounds are found where the access
is, in the guard just before it.  Two are not.  `handleMessage` slices the header off
without looking at the length, which `consumeOutsidePacket` did; and the window index of
`CheckReplay` is below 64 because the difference of two counters was just compared with
the size of the window.

The two loops of `shiftWindow` work in place.  Their accesses are written out as lists,
and neither list reads a word after writing it.
-/
import Neth.Accesses
import Neth.Proofs.Header
import Neth.Proofs.ReplayWindow
import Neth.Symbolic

namespace Neth

variable {P : Platform}

namespace Accesses

open Checked

/-! ### The two loops

Which cells a loop reads and writes, in which order, written down as lists; the loops are then shown
to make exactly these accesses. -/

/-- What step `i` of the word loop reads. -/
def wordReads (wordShift i : Nat) : List Access :=
  if i < wordShift then [] else [.read (i - wordShift)]

/-- The accesses of the word loop, with indices `i - 1, …, 0` still to go. -/
def wordAccesses (wordShift : Nat) : Nat → List Access
  | 0 => []
  | i + 1 => wordReads wordShift i ++ .write i :: wordAccesses wordShift i

/-- The accesses of the carry loop, with indices `i, …, 1` still to go. -/
def bitAccesses : Nat → List Access
  | 0 => []
  | i + 1 => [.read (i + 1), .read i] ++ .write (i + 1) :: bitAccesses i

theorem shiftWord_eq (wordShift : Nat) {i : Nat} (hi : i < 64) (w : Vector Word 64)
    (log : List Access) :
    shiftWord wordShift i ⟨w, log⟩
      = .ok ((), ⟨w.set i (if i < wordShift then 0 else w[i - wordShift]),
          log ++ (wordReads wordShift i ++ [.write i])⟩) := by
  unfold shiftWord wordReads
  by_cases hlt : i < wordShift
  · have hneg : ((i : Int) - wordShift) < 0 := by omega
    simp only [hneg, if_pos, if_pos hlt]
    exact write_of_lt hi 0
  · have hsrc : ((i : Int) - wordShift) = ((i - wordShift : Nat) : Int) := by omega
    have hnonneg : ¬ ((i : Int) - wordShift) < 0 := by omega
    simp only [if_neg hlt, if_neg hnonneg]
    rw [hsrc, read_bind (by omega), write_of_lt hi, List.append_assoc]

theorem shiftWords_eq (wordShift : Nat) :
    ∀ (i : Nat) (hi : i ≤ 64) (w : Vector Word 64) (log : List Access),
      countdown (shiftWord wordShift) 0 i ⟨w, log⟩
        = .ok ((), ⟨Neth.shiftWords wordShift i hi w, log ++ wordAccesses wordShift i⟩) := by
  intro i
  induction i with
  | zero =>
      intro hi w log
      rw [wordAccesses, List.append_nil]
      rfl
  | succ i ih =>
      intro hi w log
      rw [countdown, Nat.zero_add, bind_of_ok (shiftWord_eq wordShift (by omega) w log),
        ih (by omega), Neth.shiftWords, wordAccesses]
      simp only [List.append_assoc, List.singleton_append]

theorem shiftBit_eq {bitShift : Nat} (hb : bitShift < 64) (hb0 : 0 < bitShift) {i : Nat}
    (hi : i + 1 < 64) (w : Vector Word 64) (log : List Access) :
    shiftBit bitShift (i + 1) ⟨w, log⟩
      = .ok ((), ⟨w.set (i + 1) ((w[i + 1] <<< bitShift) ||| (w[i] >>> (64 - bitShift))),
          log ++ ([.read (i + 1), .read i] ++ [.write (i + 1)])⟩) := by
  have hpred : (((i + 1 : Nat) : Int) - 1) = (i : Int) := by omega
  rw [shiftBit, read_bind hi, amount_bind hb, hpred, read_bind (by omega),
    amount_bind (by omega), write_of_lt hi]
  simp only [List.append_assoc, List.cons_append, List.nil_append]

theorem shiftBits_eq {bitShift : Nat} (hb : bitShift < 64) (hb0 : 0 < bitShift) :
    ∀ (i : Nat) (hi : i ≤ 63) (w : Vector Word 64) (log : List Access),
      countdown (shiftBit bitShift) 1 i ⟨w, log⟩
        = .ok ((), ⟨Neth.shiftBits bitShift i hi w, log ++ bitAccesses i⟩) := by
  intro i
  induction i with
  | zero =>
      intro hi w log
      rw [bitAccesses, List.append_nil]
      rfl
  | succ i ih =>
      intro hi w log
      rw [countdown, Nat.add_comm 1 i, bind_of_ok (shiftBit_eq hb hb0 (by omega) w log),
        ih (by omega), Neth.shiftBits, bitAccesses]
      simp only [List.append_assoc, List.cons_append, List.nil_append]

theorem cell_lt_of_mem_wordAccesses {wordShift : Nat} {a : Access} :
    ∀ {i : Nat}, a ∈ wordAccesses wordShift i → a.cell < i := by
  intro i
  induction i with
  | zero => intro ha; cases ha
  | succ i ih =>
      intro ha
      rcases List.mem_append.mp ha with hread | hrest
      · unfold wordReads at hread
        split at hread
        · cases hread
        · obtain rfl := List.mem_singleton.mp hread
          show i - wordShift < i + 1
          omega
      · rcases List.mem_cons.mp hrest with rfl | hrest
        · exact Nat.lt_succ_self i
        · exact Nat.lt_succ_of_lt (ih hrest)

theorem unspoilt_wordAccesses (wordShift : Nat) : ∀ i, Unspoilt (wordAccesses wordShift i) := by
  intro i
  induction i with
  | zero => exact List.Pairwise.nil
  | succ i ih =>
      refine .step ?_ ih fun a ha => cell_lt_of_mem_wordAccesses ha
      intro a ha
      unfold wordReads at ha
      split at ha
      · cases ha
      · exact ⟨_, List.mem_singleton.mp ha⟩

theorem cell_le_of_mem_bitAccesses {a : Access} : ∀ {i : Nat}, a ∈ bitAccesses i → a.cell ≤ i := by
  intro i
  induction i with
  | zero => intro ha; cases ha
  | succ i ih =>
      intro ha
      simp only [bitAccesses, List.cons_append, List.nil_append, List.mem_cons] at ha
      rcases ha with rfl | rfl | rfl | hrest
      · exact Nat.le_refl _
      · exact Nat.le_succ i
      · exact Nat.le_refl _
      · exact Nat.le_succ_of_le (ih hrest)

theorem unspoilt_bitAccesses : ∀ i, Unspoilt (bitAccesses i) := by
  intro i
  induction i with
  | zero => exact List.Pairwise.nil
  | succ i ih =>
      refine .step ?_ ih fun a ha => Nat.lt_succ_of_le (cell_le_of_mem_bitAccesses ha)
      intro a ha
      simp only [List.mem_cons, List.not_mem_nil, or_false] at ha
      rcases ha with rfl | rfl
      · exact ⟨_, rfl⟩
      · exact ⟨_, rfl⟩

/-! ### The replay window

With the accesses known, the programs run without a fault and compute what the functions of
`ReplayWindow` do. -/

theorem runs_shiftWords (wordShift : Nat) (w : Vector Word 64) :
    Runs (shiftWords wordShift) w () (Neth.shiftWords wordShift 64 (Nat.le_refl 64) w) :=
  fun log => ⟨_, shiftWords_eq wordShift 64 (Nat.le_refl 64) w log⟩

theorem runs_shiftBits {bitShift : Nat} (hb : bitShift < 64) (hb0 : 0 < bitShift)
    (w : Vector Word 64) :
    Runs (shiftBits bitShift) w () (Neth.shiftBits bitShift 63 (Nat.le_refl 63) w) :=
  fun log => ⟨_, shiftBits_eq hb hb0 63 (Nat.le_refl 63) w log⟩

theorem runs_shiftWindow (n : UInt64) (w : Vector Word 64) :
    Runs (shiftWindow n) w () (Neth.shiftWindow w n) := by
  unfold shiftWindow Neth.shiftWindow
  by_cases hbig : n.toNat / 64 ≥ 64
  · simp only [if_pos hbig]
    exact runs_replace zeroWindow
  · simp only [if_neg hbig]
    refine (runs_shiftWords (n.toNat / 64) w).bind ?_
    by_cases hb0 : n.toNat % 64 > 0
    · have hb : n.toNat % 64 < 64 := Nat.mod_lt _ (by omega)
      simp only [if_pos hb0]
      refine (runs_shiftBits hb hb0 _).bind ?_
      refine (runs_read (i := 0) (by omega)).bind ?_
      refine (runs_amount hb).bind ?_
      exact runs_write (i := 0) (by omega) _
    · simp only [if_neg hb0]
      exact runs_pure ()

/-- **`shiftWindow` is a shift by `n` of 4096 bits.**  Every position below 4096 gets the bit `n`
below it, or 0 where there is none; the checked function computes the same window without a fault;
and neither of its loops reads a word it has overwritten. -/
theorem shiftWindow_shifts (w : Vector Word 64) (n : UInt64) :
    (∀ p, p < replayWindowSize →
      bitAt (Neth.shiftWindow w n) p = if n.toNat ≤ p then bitAt w (p - n.toNat) else false) ∧
    Runs (shiftWindow n) w () (Neth.shiftWindow w n) ∧
    (∃ w' log, shiftWords (n.toNat / 64) ⟨w, []⟩ = .ok ((), ⟨w', log⟩) ∧ Unspoilt log) ∧
    (0 < n.toNat % 64 → ∀ w₀ : Vector Word 64,
      ∃ w' log, shiftBits (n.toNat % 64) ⟨w₀, []⟩ = .ok ((), ⟨w', log⟩) ∧ Unspoilt log) := by
  refine ⟨fun p hp => bitAt_shiftWindow w n hp, runs_shiftWindow n w, ?_, ?_⟩
  · exact ⟨_, _, shiftWords_eq _ 64 (Nat.le_refl 64) w [], unspoilt_wordAccesses _ 64⟩
  · intro hb0 w₀
    have hb : n.toNat % 64 < 64 := Nat.mod_lt _ (by omega)
    exact ⟨_, _, shiftBits_eq hb hb0 63 (Nat.le_refl 63) w₀ [], unspoilt_bitAccesses 63⟩

/-- A window with bits 0 and 2 set. -/
def lowWindow : Vector Word 64 := .ofFn fun i => if i.val = 0 then 5 else 0

/-- Bits 0 and 2 of a window, moved by three words and seven bits. -/
theorem shiftWindow_shifts_199 :
    bitAt (Neth.shiftWindow lowWindow 199) 199 = true ∧
      bitAt (Neth.shiftWindow lowWindow 199) 200 = false ∧
      ∃ w' log, shiftBits (UInt64.toNat 199 % 64) ⟨zeroWindow, []⟩ = .ok ((), ⟨w', log⟩) ∧
        Unspoilt log := by
  obtain ⟨hbits, -, -, hcarry⟩ := shiftWindow_shifts lowWindow 199
  refine ⟨?_, ?_, hcarry (by decide) zeroWindow⟩
  · rw [hbits 199 (by decide)]
    decide
  · rw [hbits 200 (by decide)]
    decide

/-- The end of `CheckReplay` for a counter above the window. -/
theorem runs_markNewest (h0 : 0 < 64) (counter : UInt64) (w : Vector Word 64) :
    Runs (do
      let x ← Checked.read 0
      write 0 (x ||| 1)
      pure (counter, false)) w (counter, false) (w.set 0 (w[0] ||| 1) h0) := by
  refine (runs_read (i := 0) h0).bind ?_
  refine (runs_write (i := 0) h0 _).bind ?_
  exact runs_pure _

theorem runs_checkReplay (h : ReplayWindow) (counter : UInt64) :
    Runs (checkReplay h.windowEnd counter) h.window
      ((h.checkReplay counter).1.windowEnd, (h.checkReplay counter).2)
      (h.checkReplay counter).1.window := by
  unfold checkReplay ReplayWindow.checkReplay
  by_cases hgt : counter > h.windowEnd
  · simp only [if_pos hgt]
    by_cases hjump : (counter - h.windowEnd).toNat ≥ replayWindowSize
    · simp only [if_pos hjump]
      exact (runs_replace zeroWindow).bind (runs_markNewest (by decide) counter zeroWindow)
    · simp only [if_neg hjump]
      exact (runs_shiftWindow _ _).bind (runs_markNewest (by decide) counter _)
  · simp only [if_neg hgt]
    by_cases hold : (h.windowEnd - counter).toNat ≥ replayWindowSize
    · simp only [if_pos hold, dif_pos hold]
      exact runs_pure _
    · simp only [if_neg hold, dif_neg hold]
      have hword : (h.windowEnd - counter).toNat / 64 < 64 := by
        unfold replayWindowSize at hold
        omega
      have hbit : (h.windowEnd - counter).toNat % 64 < 64 := Nat.mod_lt _ (by omega)
      refine (runs_read hword).bind ?_
      refine (runs_amount hbit).bind ?_
      by_cases hseen : h.window[(h.windowEnd - counter).toNat / 64]
          &&& ((1 : Word) <<< ((h.windowEnd - counter).toNat % 64)) ≠ 0
      · simp only [if_pos hseen]
        exact runs_pure _
      · simp only [if_neg hseen]
        refine (runs_read hword).bind ?_
        refine (runs_amount hbit).bind ?_
        refine (runs_write hword _).bind ?_
        exact runs_pure _

theorem checkReplayHost_eq (h : HostInfo) (counter : UInt64) :
    checkReplayHost h counter = .ok (h.checkReplay counter) := by
  obtain ⟨log, hruns⟩ := runs_checkReplay h.toReplayWindow counter []
  rw [checkReplayHost, hruns]
  rfl

/-! ### The header -/

theorem slice_eq {lo k hi : Nat} {buf : Bytes} (hlo : lo + k = hi) (hhi : hi ≤ buf.length) :
    slice buf lo hi = .ok (Bytes.slice buf lo k) := by
  have hlen : hi - lo = k := by omega
  rw [slice_of_le (by omega) hhi, hlen]
  rfl

theorem uint_eq {k : Nat} {b : Bytes} (hk : 0 < k) (hb : k ≤ b.length) :
    uint k b = .ok (Bytes.beGet (b.take k)) := by
  rw [uint, index_of_lt (by omega) 0]
  rfl

theorem uint_slice {lo k : Nat} {buf : Bytes} (hk : 0 < k) (hhi : lo + k ≤ buf.length) :
    uint k (Bytes.slice buf lo k) = .ok (Bytes.beGet (Bytes.slice buf lo k)) := by
  have hlen : (Bytes.slice buf lo k).length = k := by
    rw [Bytes.length_slice]
    omega
  rw [uint_eq hk (Nat.le_of_eq hlen.symm), List.take_of_length_le (Nat.le_of_eq hlen)]

theorem putUint_eq {k lo hi : Nat} {buf : Bytes} (hk : 0 < k) (hlo : lo + k = hi)
    (hhi : hi ≤ buf.length) (n : Nat) :
    putUint k buf lo hi n = .ok (Bytes.put buf lo (Bytes.bePut k n)) := by
  rw [putUint, slice_eq hlo hhi, ok_bind, index_of_lt _ 0]
  · rfl
  · rw [Bytes.length_slice]
    omega

theorem parse_eq (buf : Bytes) : parse buf = .ok (Header.parse buf) := by
  unfold parse Header.parse
  by_cases hlen : buf.length < headerLen
  · simp only [if_pos hlen]
    rfl
  · have h16 : 16 ≤ buf.length := Nat.not_lt.mp hlen
    simp only [if_neg hlen, index_of_lt (show 0 < buf.length by omega) 0, ok_bind,
      amount_of_lt (show 4 < 8 by omega)]
    by_cases hv : buf.getD 0 0 >>> 4 ≠ headerVersion
    · rw [if_pos hv]
      exact if_pos hv
    · rw [if_neg hv]
      refine (if_neg hv).trans ?_
      simp only [index_of_lt (show 1 < buf.length by omega) 0, ok_bind,
        slice_eq (show 4 + 4 = 8 from rfl) (show 8 ≤ buf.length by omega),
        slice_eq (show 8 + 8 = 16 from rfl) h16, uint_slice (show 0 < 4 by omega)
          (show 4 + 4 ≤ buf.length by omega), uint_slice (show 0 < 8 by omega)
          (show 8 + 8 ≤ buf.length by omega)]
      rfl

theorem encode_eq (h : Header) (buf : Bytes) : encode h buf = .ok (h.encodeInto buf) := by
  unfold encode Header.encodeInto
  by_cases hlen : buf.length < headerLen
  · simp only [if_pos hlen]
    rfl
  · have h16 : 16 ≤ buf.length := Nat.not_lt.mp hlen
    simp only [if_neg hlen, amount_of_lt (show 4 < 8 by omega), ok_bind]
    rw [assign_of_lt (by omega), ok_bind, assign_of_lt (by simp; omega), ok_bind,
      assign_of_lt (by simp; omega), ok_bind, assign_of_lt (by simp; omega), ok_bind,
      putUint_eq (by omega) rfl (by simp; omega), ok_bind, putUint_eq (by omega) rfl, ok_bind]
    · rfl
    · rw [Bytes.length_put (by simp; omega)]
      simpa using h16

theorem bytes_eq (h : Header) : bytes h = .ok h.bytes := by
  rw [bytes, encode_eq, ok_bind, Header.encodeInto_of_le h (by simp)]
  simp [headerLen]
  rfl

/-! ### The field extractors -/

theorem notIPv4_eq (pkt : Bytes) : notIPv4 pkt = .ok (Neth.notIPv4 pkt) := by
  unfold notIPv4 Neth.notIPv4
  by_cases hlen : pkt.length < 20
  · simp only [hlen, decide_true, Bool.true_or]
    rfl
  · simp only [hlen, decide_false, Bool.false_or,
      index_of_lt (show 0 < pkt.length by omega) 0, amount_of_lt (show 4 < 8 by omega), ok_bind]
    rfl

theorem addrAt_eq {pkt : Bytes} {lo : Nat} (h : lo + 4 ≤ pkt.length) :
    addrAt pkt lo = .ok (Neth.addrAt pkt lo) := by
  unfold addrAt
  simp only [index_of_lt (show lo < pkt.length by omega) 0,
    index_of_lt (show lo + 1 < pkt.length by omega) 0,
    index_of_lt (show lo + 2 < pkt.length by omega) 0,
    index_of_lt (show lo + 3 < pkt.length by omega) 0, ok_bind]
  rfl

theorem length_of_notIPv4 {pkt : Bytes} (h : Neth.notIPv4 pkt = false) : 20 ≤ pkt.length := by
  unfold Neth.notIPv4 at h
  simp at h
  omega

/-- The address extractors differ in the offset only. -/
theorem addrFromIPv4_eq {pkt : Bytes} {lo : Nat} (hlo : lo + 4 ≤ 20) :
    (do if ← notIPv4 pkt then pure none else return some (← addrAt pkt lo))
      = (.ok (if Neth.notIPv4 pkt then none else some (Neth.addrAt pkt lo)) :
          Except Fault (Option Addr)) := by
  rw [notIPv4_eq, ok_bind]
  cases hnot : Neth.notIPv4 pkt with
  | true => rfl
  | false =>
      have hlen := length_of_notIPv4 hnot
      simp only [addrAt_eq (show lo + 4 ≤ pkt.length by omega), ok_bind]
      rfl

theorem dstIPFromIPv4_eq (pkt : Bytes) : dstIPFromIPv4 pkt = .ok (Neth.dstIPFromIPv4 pkt) :=
  addrFromIPv4_eq (by omega)

theorem srcIPFromIPv4_eq (pkt : Bytes) : srcIPFromIPv4 pkt = .ok (Neth.srcIPFromIPv4 pkt) :=
  addrFromIPv4_eq (by omega)

theorem protoFromIPv4_eq (pkt : Bytes) : protoFromIPv4 pkt = .ok (Neth.protoFromIPv4 pkt) := by
  unfold protoFromIPv4 Neth.protoFromIPv4
  by_cases hlen : pkt.length < 10
  · rw [if_pos hlen, if_pos hlen]
    rfl
  · rw [if_neg hlen, if_neg hlen, index_of_lt (by omega) 0]

/-- The length field may claim anything from 0 to 60 bytes; the guard counts from what it
claims. -/
theorem dstPortFromIPv4_eq (pkt : Bytes) :
    dstPortFromIPv4 pkt = .ok (Neth.dstPortFromIPv4 pkt) := by
  unfold dstPortFromIPv4 Neth.dstPortFromIPv4
  by_cases hlen : pkt.length < 20
  · simp only [if_pos hlen]
    rfl
  · simp only [if_neg hlen, index_of_lt (show 0 < pkt.length by omega) 0,
      index_of_lt (show 9 < pkt.length by omega) 0, ok_bind]
    by_cases hports : (pkt.getD 9 0 = protoTCP ∨ pkt.getD 9 0 = protoUDP) ∧
        pkt.length ≥ ihl pkt + 4
    · have hroom := hports.2
      have hlong : 2 ≤ (pkt.drop (ihl pkt + 2)).length := by
        rw [List.length_drop]
        omega
      rw [if_pos hports]
      refine (if_pos hports).trans ?_
      show (sliceFrom pkt (ihl pkt + 2) >>= _) = _
      rw [sliceFrom_of_le (by omega), ok_bind, uint_eq (by omega) hlong]
      rfl
    · rw [if_neg hports]
      exact if_neg hports

/-! ### The two directions

Nothing is assumed of a packet or a datagram here: whatever comes in, every index is in bounds. -/

theorem sendToRemote_eq (I : Interface P) (env : Env P) (r : Ref) (plaintext : Bytes) :
    sendToRemote I env r plaintext = .ok (I.sendToRemote env r plaintext) := by
  unfold sendToRemote Interface.sendToRemote
  cases I.hostmap.deref r with
  | none => rfl
  | some found =>
      simp only [bytes_eq, ok_bind]
      rw [sliceFrom_of_le (by simp), ok_bind]
      rfl

theorem queuePacket_eq (m : HandshakeManager P) (v : Addr) (pkt : Bytes) :
    queuePacket m v pkt = .ok (m.queuePacket v pkt) := by
  unfold queuePacket HandshakeManager.queuePacket
  cases m.pending v with
  | none => rfl
  | some r =>
      simp only [List.modify_eq_set_getElem?]
      cases m.handshakes[r]? with
      | none => rfl
      | some ph =>
          simp only [Option.map_eq_map, Option.map_some, Option.getD_some]
          by_cases hfull : ph.pendingPackets.length ≥ maxPendingPackets
          · have hpos : 1 ≤ ph.pendingPackets.length := by
              unfold maxPendingPackets at hfull
              omega
            simp only [if_pos hfull, sliceFrom_of_le hpos, ok_bind]
            rfl
          · simp only [if_neg hfull]
            rfl

theorem forwardInside_eq (I : Interface P) (env : Env P) (dstIP : Addr) (pkt : Bytes) :
    forwardInside I env dstIP pkt = .ok (I.forwardInside env dstIP pkt) := by
  unfold forwardInside Interface.forwardInside
  cases I.hostmap.getByVpnIP dstIP with
  | some found => exact sendToRemote_eq I env found.1 pkt
  | none =>
      simp only [queuePacket_eq, ok_bind]
      cases I.peerCerts dstIP with
      | none => rfl
      | some remoteCert =>
          cases haddrs : I.lighthouse.getAddrs dstIP with
          | nil => rfl
          | cons addr rest =>
              have hcount : ¬ (addr :: rest).length = 0 := by simp
              have hfirst : index (addr :: rest) 0 = .ok addr := index_of_lt (by simp) addr
              simp only [if_neg hcount, hfirst, ok_bind]
              rcases I.handshakeMgr.startHandshake env dstIP addr remoteCert with ⟨m, effs, e | _⟩
              · rfl
              · rfl

theorem consumeInsidePacket_eq (I : Interface P) (env : Env P) (pkt : Bytes) :
    consumeInsidePacket I env pkt = .ok (I.consumeInsidePacket env pkt) := by
  unfold consumeInsidePacket Interface.consumeInsidePacket
  rw [dstIPFromIPv4_eq, ok_bind]
  cases Neth.dstIPFromIPv4 pkt with
  | none => rfl
  | some dstIP =>
      simp only [protoFromIPv4_eq, dstPortFromIPv4_eq, forwardInside_eq, ok_bind]
      split
      · rfl
      · rfl

theorem deliver_eq (I : Interface P) (env : Env P) (host : HostInfo) (plaintext : Bytes) :
    deliver I env host plaintext = .ok (I.deliver env host plaintext) := by
  unfold deliver Interface.deliver
  rw [srcIPFromIPv4_eq, ok_bind]
  cases Neth.srcIPFromIPv4 plaintext with
  | none => rfl
  | some srcIP =>
      simp only [protoFromIPv4_eq, dstPortFromIPv4_eq, ok_bind]
      rfl

theorem receive_eq (h : HostInfo) (hdr : Header) {pkt : Bytes} (hlen : headerLen ≤ pkt.length) :
    receive P h hdr pkt = .ok (h.receive P hdr pkt) := by
  unfold receive HostInfo.receive
  rw [checkReplayHost_eq, ok_bind]
  simp only
  split
  · rfl
  · rw [slice_eq (Nat.zero_add headerLen) hlen, ok_bind, sliceFrom_of_le hlen, ok_bind]
    have hhead : Bytes.slice pkt 0 headerLen = pkt.take headerLen := by
      rw [Bytes.slice, List.drop_zero]
    rw [hhead]
    cases decrypt P (h.checkReplay hdr.messageCounter).1.recvCipher hdr.messageCounter
      (pkt.take headerLen) (pkt.drop headerLen) with
    | error e => rfl
    | ok plaintext => rfl

theorem handleMessage_eq (I : Interface P) (env : Env P) {pkt : Bytes} (hdr : Header)
    (src : UDPAddr) (hlen : headerLen ≤ pkt.length) :
    handleMessage I env pkt hdr src = .ok (I.handleMessage env pkt hdr src) := by
  unfold handleMessage Interface.handleMessage
  cases I.hostmap.getByIndex hdr.remoteIndex with
  | none => rfl
  | some found =>
      simp only [receive_eq found.2 hdr hlen, ok_bind]
      cases (found.2.receive P hdr pkt).2 with
      | error e => rfl
      | ok plaintext =>
          simp only [deliver_eq, ok_bind]
          rfl

theorem handleHandshake_eq (I : Interface P) (env : Env P) {pkt : Bytes} (hdr : Header)
    (src : UDPAddr) :
    handleHandshake I env pkt hdr src = .ok (I.handleHandshake env pkt hdr src) := by
  unfold handleHandshake
  by_cases hlen : pkt.length < headerLen
  · rw [if_pos hlen]
    rfl
  · rw [if_neg hlen, parse_eq, ok_bind, sliceFrom_of_le (Nat.not_lt.mp hlen), ok_bind]
    rfl

theorem handleLightHouse_eq (I : Interface P) (env : Env P) {pkt : Bytes} (hdr : Header)
    (src : UDPAddr) (hlen : headerLen ≤ pkt.length) :
    handleLightHouse I env pkt hdr src = .ok (I.handleLightHouse env pkt hdr src) := by
  unfold handleLightHouse Interface.handleLightHouse
  simp only [sliceFrom_of_le hlen, ok_bind]
  cases I.hostmap.getByIndex hdr.remoteIndex with
  | some found =>
      cases P.unmarshalLightHouse (pkt.drop headerLen) with
      | error e => rfl
      | ok msg => rfl
  | none =>
      cases I.lighthouse.vpnIPByAddr env src with
      | none => rfl
      | some v =>
          cases P.unmarshalLightHouse (pkt.drop headerLen) with
          | error e => rfl
          | ok msg => rfl

theorem consumeOutsidePacket_eq (I : Interface P) (env : Env P) (pkt : Bytes) (src : UDPAddr) :
    consumeOutsidePacket I env pkt src = .ok (I.consumeOutsidePacket env pkt src) := by
  unfold consumeOutsidePacket Interface.consumeOutsidePacket
  by_cases hlen : pkt.length < headerLen
  · simp only [if_pos hlen]
    rfl
  · have hle := Nat.not_lt.mp hlen
    simp only [if_neg hlen, parse_eq, ok_bind]
    cases Header.parse pkt with
    | error e => rfl
    | ok hdr =>
        simp only [handleMessage_eq I env hdr src hle, handleHandshake_eq,
          handleLightHouse_eq I env hdr src hle]
        split_ifs
        all_goals rfl

variable (P) in
/-- **The data path stays in bounds.**  For every byte string, every counter and every state, the
functions with checked accesses return what the total ones do: no index, slice or shift of them
fails. -/
theorem data_path_in_bounds :
    (∀ buf, parse buf = .ok (Header.parse buf)) ∧
    (∀ pkt, dstIPFromIPv4 pkt = .ok (Neth.dstIPFromIPv4 pkt)) ∧
    (∀ pkt, srcIPFromIPv4 pkt = .ok (Neth.srcIPFromIPv4 pkt)) ∧
    (∀ pkt, protoFromIPv4 pkt = .ok (Neth.protoFromIPv4 pkt)) ∧
    (∀ pkt, dstPortFromIPv4 pkt = .ok (Neth.dstPortFromIPv4 pkt)) ∧
    (∀ n w, Runs (shiftWindow n) w () (Neth.shiftWindow w n)) ∧
    (∀ h counter, checkReplayHost h counter = .ok (h.checkReplay counter)) ∧
    (∀ (I : Interface P) env pkt hdr src, headerLen ≤ pkt.length →
      handleMessage I env pkt hdr src = .ok (I.handleMessage env pkt hdr src)) ∧
    (∀ (I : Interface P) env pkt src,
      consumeOutsidePacket I env pkt src = .ok (I.consumeOutsidePacket env pkt src)) ∧
    (∀ (I : Interface P) env pkt,
      consumeInsidePacket I env pkt = .ok (I.consumeInsidePacket env pkt)) :=
  ⟨parse_eq, dstIPFromIPv4_eq, srcIPFromIPv4_eq, protoFromIPv4_eq, dstPortFromIPv4_eq,
    runs_shiftWindow, checkReplayHost_eq, fun I env _ hdr src => handleMessage_eq I env hdr src,
    consumeOutsidePacket_eq, consumeInsidePacket_eq⟩

section Concrete

open Symbolic

/-- A session of node 1 with node 2, with the highest counter there is at the end of its window. -/
def session : HostInfo where
  toReplayWindow := ⟨0xffffffffffffffff, zeroWindow⟩
  vpnIP := nodeIP 2
  remote := nodeAddr 2
  index := 7
  remoteIndex := 8
  sendCipher := ⟨Vector.replicate 32 1⟩
  recvCipher := ⟨Vector.replicate 32 2⟩
  counter := 0
  cert := none

/-- A node with one session. -/
def nodeWithSession : Interface platform :=
  { Interface.new (nodeCert 1 []) (nodeKey 1) [caCert] (.new [] []) (.new false [] []) none [] with
    hostmap := HostMap.new.add session }

/-- A data packet that is nothing but its header, for that session, under the lowest counter of its
window. -/
theorem data_path_in_bounds_bare_header :
    let hdr : Header := ⟨headerVersion, typeMessage, 0, 7, 0xfffffffffffff000⟩
    handleMessage nodeWithSession (calmEnv 0 []) hdr.bytes hdr (nodeAddr 2)
      = .ok (nodeWithSession.handleMessage (calmEnv 0 []) hdr.bytes hdr (nodeAddr 2)) := by
  intro hdr
  obtain ⟨-, -, -, -, -, -, -, hmessage, -, -⟩ := data_path_in_bounds platform
  exact hmessage nodeWithSession (calmEnv 0 []) hdr.bytes hdr (nodeAddr 2)
    (Nat.le_of_eq hdr.length_bytes.symm)

end Concrete

end Accesses

end Neth
