/-
What a response does to the initiator.

`HandleStage1` takes the pending handshake out of both maps as soon as it has found
it, and checks the response afterwards.  A response that fails a check therefore
cancels the handshake and loses its queue; the lemmas below say that this is the only
thing a failing response can change, and that only a response which passes every
check may name a pending handshake without harm.

The certificate a response carries is checked against the CA pool and nothing else:
it need not be the one the handshake was started with.
-/
import Neth.Proofs.Responder

namespace Neth

namespace HandshakeManager

variable {P : Platform} {m : HandshakeManager P} {now : Time} {pkt : Bytes}

/-- The response passes the seven checks against the pending handshake. -/
def ValidResponse (m : HandshakeManager P) (now : Time) (ph : PendingHandshake P) (pkt : Bytes) :
    Prop :=
  ∃ msg details cert read cs, Envelope m now pkt msg details cert ∧
    (P.readMessage ph.state msg.noisePayload).1 = .ok read ∧ read.ciphers = some cs

theorem exists_readStage1_ok {ph : PendingHandshake P} :
    (∃ s, m.readStage1 now ph pkt = .ok s) ↔ ValidResponse m now ph pkt := by
  constructor
  · rintro ⟨s, hs⟩
    obtain ⟨msg, henv, read, cs1, cs2, hread, hcs, -⟩ := readStage1_ok.mp hs
    exact ⟨msg, _, _, read, _, henv, hread, hcs⟩
  · rintro ⟨msg, details, cert, read, ⟨cs1, cs2⟩, henv, hread, hcs⟩
    exact ⟨⟨details, cert, _⟩, readStage1_ok.mpr ⟨msg, henv, read, cs1, cs2, hread, hcs, rfl⟩⟩

/-! ### The call by cases

A packet names a pending handshake or none.  If it does, the handshake is gone afterwards, whether
the response could be read or not. -/

/-- The datagram names a pending handshake. -/
def Names (m : HandshakeManager P) (pkt : Bytes) (idx : UInt32) (ph : PendingHandshake P) : Prop :=
  ∃ hdr, Header.parse pkt = .ok hdr ∧ hdr.remoteIndex = idx ∧ m.getIndex idx = some ph

theorem handleStage1_of_names (now : Time) {idx : UInt32} {ph : PendingHandshake P}
    (h : m.Names pkt idx ph) :
    m.handleStage1 now pkt = (m.take idx ph,
      (m.readStage1 now ph pkt).map fun s => (stage1Host ph s, ph.pendingPackets)) := by
  obtain ⟨hdr, hhdr, rfl, hph⟩ := h
  unfold handleStage1
  rw [if_neg (Header.length_of_parse hhdr)]
  simp only [hhdr, hph]
  cases m.readStage1 now ph pkt with
  | error e => rfl
  | ok s => rfl

theorem handleStage1_of_not_names (now : Time) (h : ∀ idx ph, ¬ m.Names pkt idx ph) :
    ∃ e, m.handleStage1 now pkt = (m, .error e) := by
  unfold handleStage1
  split
  · exact ⟨_, rfl⟩
  · cases hhdr : Header.parse pkt with
    | error e => exact ⟨_, rfl⟩
    | ok hdr =>
        cases hph : m.getIndex hdr.remoteIndex with
        | none =>
            simp only [hph]
            exact ⟨_, rfl⟩
        | some ph => exact absurd ⟨hdr, hhdr, rfl, hph⟩ (h hdr.remoteIndex ph)

theorem handleStage1_ok {m' : HandshakeManager P} {h : HostInfo} {queue : List Bytes} :
    m.handleStage1 now pkt = (m', .ok (h, queue)) ↔ ∃ idx ph s, m.Names pkt idx ph ∧
      m.readStage1 now ph pkt = .ok s ∧ m' = m.take idx ph ∧ h = stage1Host ph s ∧
      queue = ph.pendingPackets := by
  constructor
  · intro hdone
    by_cases hnames : ∃ idx ph, m.Names pkt idx ph
    · obtain ⟨idx, ph, hnames⟩ := hnames
      rw [handleStage1_of_names now hnames] at hdone
      obtain ⟨rfl, hmap⟩ := Prod.mk.inj hdone
      cases hread : m.readStage1 now ph pkt with
      | error e =>
          rw [hread] at hmap
          cases hmap
      | ok s =>
          rw [hread] at hmap
          obtain ⟨rfl, rfl⟩ := Prod.mk.inj (Except.ok.inj hmap)
          exact ⟨idx, ph, s, hnames, hread, rfl, rfl, rfl⟩
    · obtain ⟨e, herr⟩ := handleStage1_of_not_names now fun idx ph hn => hnames ⟨idx, ph, hn⟩
      rw [herr] at hdone
      cases (Prod.mk.inj hdone).2
  · rintro ⟨idx, ph, s, hnames, hread, rfl, rfl, rfl⟩
    rw [handleStage1_of_names now hnames, hread]
    rfl

/-- Taking an entry out is seen in the index map. -/
theorem take_ne {idx : UInt32} {ph : PendingHandshake P} (h : m.getIndex idx = some ph) :
    m.take idx ph ≠ m := by
  intro heq
  have hnone : (m.take idx ph).indexMap idx = none := by simp [take]
  rw [heq] at hnone
  simp [getIndex, hnone] at h

/-- **A failing response changes nothing exactly when it names no pending handshake.**  For the
state `m` and the datagram `pkt`: if `HandleStage1` returns an error then the manager is as it was,
if and only if every pending handshake the datagram names is completed by it. -/
theorem handleStage1_error_unchanged_iff (m : HandshakeManager P) (now : Time) (pkt : Bytes) :
    ((∃ e, (m.handleStage1 now pkt).2 = .error e) → (m.handleStage1 now pkt).1 = m) ↔
      ∀ idx ph, m.Names pkt idx ph → ValidResponse m now ph pkt := by
  constructor
  · intro h idx ph hnames
    rw [handleStage1_of_names now hnames] at h
    rw [← exists_readStage1_ok]
    cases hread : m.readStage1 now ph pkt with
    | ok s => exact ⟨s, rfl⟩
    | error e =>
        rw [hread] at h
        obtain ⟨hdr, -, -, hph⟩ := hnames
        exact absurd (h ⟨e, rfl⟩) (take_ne hph)
  · rintro h ⟨e, herr⟩
    by_cases hnames : ∃ idx ph, m.Names pkt idx ph
    · obtain ⟨idx, ph, hnames⟩ := hnames
      obtain ⟨s, hs⟩ := exists_readStage1_ok.mpr (h idx ph hnames)
      rw [handleStage1_of_names now hnames, hs] at herr
      cases herr
    · obtain ⟨e', heq⟩ := handleStage1_of_not_names now fun idx ph hn => hnames ⟨idx, ph, hn⟩
      rw [heq]

section Concrete

open Symbolic

/-- Node 1 waiting for the answer of node 2 under index 7, with one packet queued. -/
def waiting : HandshakeManager platform :=
  ((nodeManager 1 1).startHandshake (calmEnv 7 [9]) (nodeIP 2) (nodeAddr 2)
    (nodeCert 2 [[2]])).1.queuePacket (nodeIP 2) [1, 2, 3]

/-- A response header for index 7 with nothing behind it. -/
def emptyResponse : Bytes := Header.bytes ⟨headerVersion, typeHandshake, handshakeResponse, 7, 0⟩

/-- **Sixteen bytes cancel a handshake.**  The response is refused, and the handshake is gone with
the packet queued on it. -/
theorem handleStage1_forgets_handshake :
    (∃ e, (waiting.handleStage1 0 emptyResponse).2 = .error e) ∧
      (waiting.getPending (nodeIP 2)).map (·.pendingPackets) = some [[1, 2, 3]] ∧
      ((waiting.handleStage1 0 emptyResponse).1.getPending (nodeIP 2)).isNone ∧
      ((waiting.handleStage1 0 emptyResponse).1.getIndex 7).isNone ∧
      (waiting.handleStage1 0 emptyResponse).1 ≠ waiting := by
  have hqueue : (waiting.getPending (nodeIP 2)).map (·.pendingPackets) = some [[1, 2, 3]] := by
    decide +kernel
  have hgone : ((waiting.handleStage1 0 emptyResponse).1.getPending (nodeIP 2)).isNone := by
    decide +kernel
  refine ⟨⟨"handshake: parse message: proto: cannot parse invalid wire-format data", rfl⟩, hqueue,
    hgone, by decide +kernel, ?_⟩
  intro heq
  rw [heq, Option.isNone_iff_eq_none] at hgone
  rw [hgone] at hqueue
  cases hqueue

end Concrete

end HandshakeManager

end Neth
