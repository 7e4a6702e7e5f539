/-
What the MAC of a handshake message covers.

The MAC is taken over the details and the Noise payload, one after the other, as
`neth.proto` documents it.  Where the first ends and the second begins is no part of
that input.  So the MAC determines the two fields together, and each of them once the
length of the details is known: a byte can be moved from one field to the other, and no
other change goes unnoticed.

This is about changes to a message that has been written.  That somebody without the
certificate could not write one is not claimed, since the key of the MAC is public.
-/
import Neth.Proofs.Handshake
import Neth.Proofs.Symbolic

namespace Neth

variable {P : Platform}

namespace HandshakeMessage

/-- The MAC input. -/
def covered (m : HandshakeMessage) : Bytes := m.details ++ m.noisePayload

/-- The message was built by a node with the certificate `c`, for either stage. -/
def BuiltBy (P : Platform) (c : Certificate) (m : HandshakeMessage) : Prop :=
  (∃ noise idx now, buildInitiatorMessage P c noise idx now = .ok m) ∨
    ∃ noise i r now, buildResponderMessage P c noise i r now = .ok m

theorem verifyHMAC_buildMessage {what : String} {c : Certificate} {noise : Bytes} {i r : UInt32}
    {now : Time} {m : HandshakeMessage} (h : buildMessage P what c noise i r now = .ok m) :
    verifyHMAC P m c = .ok () := by
  simp only [buildMessage, Fallible.bind_ok, Fallible.mapError_ok, Fallible.pure_ok] at h
  obtain ⟨d, -, rfl⟩ := h
  exact HandshakeManager.verifyHMAC_ok.mpr rfl

theorem BuiltBy.verifies {c : Certificate} {m : HandshakeMessage} (h : BuiltBy P c m) :
    verifyHMAC P m c = .ok () := by
  rcases h with ⟨noise, idx, now, h⟩ | ⟨noise, i, r, now, h⟩
  · exact verifyHMAC_buildMessage h
  · exact verifyHMAC_buildMessage h

/-- Next to a message that verifies, one with the same MAC verifies if it covers the same. -/
theorem verifyHMAC_iff (hinj : P.HMACInjective) {c : Certificate} {m m' : HandshakeMessage}
    (hmac : m'.hmac = m.hmac) (h : verifyHMAC P m c = .ok ()) :
    verifyHMAC P m' c = .ok () ↔ m'.covered = m.covered := by
  have h := HandshakeManager.verifyHMAC_ok.mp h
  rw [HandshakeManager.verifyHMAC_ok, hmac, ← h]
  exact (hinj _).eq_iff

theorem fields_eq_iff {m m' : HandshakeMessage} (h : m'.covered = m.covered) :
    (m'.details = m.details ∧ m'.noisePayload = m.noisePayload)
      ↔ m'.details.length = m.details.length := by
  constructor
  · intro hfields
    rw [hfields.1]
  · intro hlen
    exact List.append_inj h hlen

/-- **The MAC pins the two fields together, and each of them once one length is known.**  Two
messages with the same MAC that verify under one certificate cover the same bytes, and agree in
both fields if and only if their details have the same length.  What a node builds verifies, and a
message that carries its MAC verifies exactly if it covers the same bytes; if the details have the
same length, then no difference in either field goes unnoticed. -/
theorem verifyHMAC_pins (hinj : P.HMACInjective) (c : Certificate) :
    (∀ m m' : HandshakeMessage, m'.hmac = m.hmac → verifyHMAC P m c = .ok () →
      verifyHMAC P m' c = .ok () → m'.covered = m.covered ∧
        ((m'.details = m.details ∧ m'.noisePayload = m.noisePayload)
          ↔ m'.details.length = m.details.length)) ∧
    (∀ m, BuiltBy P c m → verifyHMAC P m c = .ok () ∧ ∀ m', m'.hmac = m.hmac →
      (verifyHMAC P m' c = .ok () ↔ m'.covered = m.covered) ∧
      (m'.details.length = m.details.length →
        (m'.details ≠ m.details ∨ m'.noisePayload ≠ m.noisePayload) →
        verifyHMAC P m' c ≠ .ok ())) := by
  constructor
  · intro m m' hmac h h'
    have hcovered := (verifyHMAC_iff hinj hmac h).mp h'
    exact ⟨hcovered, fields_eq_iff hcovered⟩
  · intro m hbuilt
    refine ⟨hbuilt.verifies, fun m' hmac => ⟨verifyHMAC_iff hinj hmac hbuilt.verifies, ?_⟩⟩
    intro hlen hdiffers h'
    have hcovered := (verifyHMAC_iff hinj hmac hbuilt.verifies).mp h'
    obtain ⟨hdetails, hpayload⟩ := (fields_eq_iff hcovered).mpr hlen
    rcases hdiffers with hne | hne
    · exact hne hdetails
    · exact hne hpayload

section Concrete

open Symbolic

theorem hmacInjective : platform.HMACInjective := by
  intro key data data' h
  have hitems := congrArg Framing.unframes h
  simpa using hitems

/-- The first message of node 1 with the Noise message `noise`. -/
def hello (noise : Bytes) : HandshakeMessage :=
  let details := marshalDetails ⟨(nodeCert 1 []).pem platform, 42, 0, 0⟩
  ⟨details, noise, messageMAC platform (nodeCert 1 []) details noise⟩

theorem builtBy_hello (noise : Bytes) : BuiltBy platform (nodeCert 1 []) (hello noise) :=
  .inl ⟨noise, 42, 0, rfl⟩

/-- A changed byte of the Noise payload is noticed. -/
theorem verifyHMAC_pins_tampered :
    verifyHMAC platform (hello [1, 2, 3]) (nodeCert 1 []) = .ok () ∧
      verifyHMAC platform { hello [1, 2, 3] with noisePayload := [254, 2, 3] } (nodeCert 1 [])
        ≠ .ok () := by
  obtain ⟨-, hbuilt⟩ := verifyHMAC_pins hmacInjective (nodeCert 1 [])
  obtain ⟨hverifies, hothers⟩ := hbuilt _ (builtBy_hello [1, 2, 3])
  obtain ⟨-, hnoticed⟩ := hothers { hello [1, 2, 3] with noisePayload := [254, 2, 3] } rfl
  refine ⟨hverifies, hnoticed rfl (.inr ?_)⟩
  show [254, 2, 3] ≠ [1, 2, 3]
  decide

/-- **A byte can change sides.**  The first byte of the Noise payload is moved to the end of the
details, and the message still verifies under the MAC it was built with. -/
theorem verifyHMAC_moved_byte :
    platform.HMACInjective ∧ BuiltBy platform (nodeCert 1 []) (hello [1, 2, 3]) ∧
      let moved : HandshakeMessage :=
        ⟨(hello [1, 2, 3]).details ++ [1], [2, 3], (hello [1, 2, 3]).hmac⟩
      verifyHMAC platform moved (nodeCert 1 []) = .ok () ∧
        moved.details ≠ (hello [1, 2, 3]).details ∧
        moved.noisePayload ≠ (hello [1, 2, 3]).noisePayload := by
  refine ⟨hmacInjective, builtBy_hello _, ?_, ?_, ?_⟩
  · refine (verifyHMAC_iff hmacInjective ?_ (builtBy_hello [1, 2, 3]).verifies).mpr ?_
    · rfl
    · exact List.append_assoc _ [1] [2, 3]
  · show (hello [1, 2, 3]).details ++ [1] ≠ (hello [1, 2, 3]).details
    exact fun h => absurd (List.append_right_eq_self.mp h) (by decide)
  · show [2, 3] ≠ [1, 2, 3]
    decide

end Concrete

end HandshakeMessage

end Neth
