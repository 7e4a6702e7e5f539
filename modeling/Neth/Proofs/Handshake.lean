/-
When the handshake checks pass.

`readStage0` and `readStage1` are chains of checks.  Both begin with the same ones on
the outer message, collected in `Envelope`: it decodes, the certificate in its details
parses and is signed by a CA of the pool, and its MAC is right for that certificate.
The two lemmas below say exactly what is left to check after that: Noise, and nothing
that ties the Noise keys to the certificate.

They are equivalences, so that both what is accepted and what is refused can be read off
them.  All later modules about handshakes go through them.
-/
import Neth.Assumptions
import Neth.HandshakeManager
import Neth.Lib.Fallible
import Neth.Proofs.Header

namespace Neth

variable {P : Platform}

@[simp] theorem cipherFromState_eq (cs : CipherState) :
    cipherFromState cs = .ok ⟨cs.unsafeKey⟩ := by
  simp [cipherFromState, pure, Except.pure]

/-- The cipher states of a finished exchange always become ciphers, by role. -/
theorem ciphersFromStates_ok {cs : Option (CipherState × CipherState)} {isInitiator : Bool}
    {c : AEAD × AEAD} :
    ciphersFromStates cs isInitiator = .ok c ↔ ∃ cs1 cs2, cs = some (cs1, cs2) ∧
      c = if isInitiator then (⟨cs1.unsafeKey⟩, ⟨cs2.unsafeKey⟩)
        else (⟨cs2.unsafeKey⟩, ⟨cs1.unsafeKey⟩) := by
  cases cs with
  | none => simp [ciphersFromStates, Fallible.throw_ok]
  | some cs =>
      obtain ⟨cs1, cs2⟩ := cs
      simp only [ciphersFromStates, cipherFromState_eq, Fallible.bind_ok, Fallible.pure_ok,
        Except.ok.injEq, exists_eq_left', Option.some.injEq, Prod.mk.injEq]
      constructor
      · intro h
        exact ⟨cs1, cs2, ⟨rfl, rfl⟩, h.symm⟩
      · rintro ⟨_, _, ⟨rfl, rfl⟩, h⟩
        exact h.symm

@[simp] theorem length_fingerprint (c : Certificate) : (c.fingerprint P).length = 32 := by
  simp [Certificate.fingerprint]

@[simp] theorem length_derivePreSharedKey (a b : Certificate) :
    (derivePreSharedKey P a b).length = 32 := by
  simp [derivePreSharedKey]

/-- Both ends derive the same key. -/
theorem derivePreSharedKey_comm (a b : Certificate) :
    derivePreSharedKey P a b = derivePreSharedKey P b a := by
  unfold derivePreSharedKey
  rw [List.zipWith_comm]
  congr 1
  funext x y
  exact UInt8.xor_comm y x

namespace HandshakeManager

variable {m : HandshakeManager P} {now : Time} {pkt : Bytes}

/-- The outer message decodes to `msg` and `details`, and carries the certificate `cert`, which
is signed by a CA of the pool and under whose fingerprint the MAC is right. -/
structure Envelope (m : HandshakeManager P) (now : Time) (pkt : Bytes) (msg : HandshakeMessage)
    (details : HandshakeDetails) (cert : Certificate) : Prop where
  message : P.unmarshalMessage (pkt.drop headerLen) = .ok msg
  detailsOk : P.unmarshalDetails msg.details = .ok details
  certOk : Certificate.parse P details.cert = .ok cert
  verified : cert.verify P m.caPool now = .ok ()
  mac : messageMAC P cert msg.details msg.noisePayload = msg.hmac

theorem verifyHMAC_ok {msg : HandshakeMessage} {cert : Certificate} {u : Unit} :
    verifyHMAC P msg cert = .ok u ↔ messageMAC P cert msg.details msg.noisePayload = msg.hmac := by
  unfold verifyHMAC
  by_cases h : messageMAC P cert msg.details msg.noisePayload = msg.hmac
  · simp [h, pure, Except.pure]
  · simp [h, Fallible.throw_ok]

theorem readStage0_ok {s : Stage0 P} :
    m.readStage0 now pkt = .ok s ↔ (∃ hdr, Header.parse pkt = .ok hdr) ∧
      ∃ msg, Envelope m now pkt msg s.details s.senderCert ∧
        ∃ hs read, P.newHandshakeState ⟨false, m.localKey, [],
            derivePreSharedKey P m.localCert s.senderCert, 0⟩ = .ok hs ∧
          P.readMessage hs msg.noisePayload = (.ok read, s.state) := by
  constructor
  · intro h
    simp only [readStage0, parseHandshakeMessage, parseDetails, newResponderState,
      Fallible.throw_bind, Fallible.ite_throw_ok, Fallible.bind_ok, Fallible.mapError_ok,
      verifyHMAC_ok] at h
    obtain ⟨-, hdr, hhdr, msg, hmsg, details, hdetails, cert, hcert, _, hverify, _, hmac, hs, hhs,
      h⟩ := h
    cases hread : P.readMessage hs msg.noisePayload with
    | mk res hs' =>
        rw [hread] at h
        cases res with
        | error e => exact absurd h Fallible.throw_ok
        | ok read =>
            obtain rfl := Fallible.pure_ok.mp h
            exact ⟨⟨hdr, hhdr⟩, msg, ⟨hmsg, hdetails, hcert, hverify, hmac⟩, hs, read, hhs, hread⟩
  · rintro ⟨⟨hdr, hhdr⟩, msg, henv, hs, read, hhs, hread⟩
    simp only [readStage0, parseHandshakeMessage, parseDetails, newResponderState,
      Fallible.throw_bind, Fallible.ite_throw_ok, Fallible.bind_ok, Fallible.mapError_ok,
      verifyHMAC_ok]
    refine ⟨Header.length_of_parse hhdr, hdr, hhdr, msg, henv.message, s.details,
      henv.detailsOk, s.senderCert, henv.certOk, (), henv.verified, (), henv.mac, hs, hhs, ?_⟩
    rw [hread]
    rfl

theorem readStage1_ok {ph : PendingHandshake P} {s : Stage1} :
    m.readStage1 now ph pkt = .ok s ↔
      ∃ msg, Envelope m now pkt msg s.details s.responderCert ∧
        ∃ read cs1 cs2, (P.readMessage ph.state msg.noisePayload).1 = .ok read ∧
          read.ciphers = some (cs1, cs2) ∧
          s.ciphers = (⟨cs1.unsafeKey⟩, ⟨cs2.unsafeKey⟩) := by
  simp only [readStage1, parseHandshakeMessage, parseDetails, Fallible.bind_ok,
    Fallible.mapError_ok, Fallible.pure_ok, verifyHMAC_ok, ciphersFromStates_ok, if_true]
  constructor
  · rintro ⟨msg, hmsg, details, hdetails, cert, hcert, _, hverify, _, hmac, read, hread, ciphers,
      ⟨cs1, cs2, hcs, rfl⟩, rfl⟩
    exact ⟨msg, ⟨hmsg, hdetails, hcert, hverify, hmac⟩, read, cs1, cs2, hread, hcs, rfl⟩
  · rintro ⟨msg, henv, read, cs1, cs2, hread, hcs, hciphers⟩
    refine ⟨msg, henv.message, s.details, henv.detailsOk, s.responderCert, henv.certOk, (),
      henv.verified, (), henv.mac, read, hread, _, ⟨cs1, cs2, hcs, rfl⟩, ?_⟩
    rw [← hciphers]

/-! ### When the builders and handlers succeed

Each function is described by what must have gone well for it to return, so that later proofs need
not unfold it. -/

/-- The datagram of a handshake message with the given details, Noise message and indexes. -/
def Wire (P : Platform) (cert : Certificate) (noise : Bytes) (details : HandshakeDetails)
    (remoteIndex : UInt32) (subtype : HandshakeSubType) (wire : Bytes) : Prop :=
  ∃ d body, P.marshalDetails details = .ok d ∧
    P.marshalMessage ⟨d, noise, messageMAC P cert d noise⟩ = .ok body ∧
    wire = Header.bytes ⟨headerVersion, typeHandshake, subtype, remoteIndex, 0⟩ ++ body

/-- The details a node writes about itself. -/
def ownDetails (P : Platform) (cert : Certificate) (initiatorIndex responderIndex : UInt32)
    (now : Time) : HandshakeDetails :=
  ⟨cert.pem P, initiatorIndex, responderIndex, UInt64.ofNat now⟩

theorem newPending_ok {env : Env P} {v : Addr} {addr : UDPAddr} {remoteCert : Certificate}
    {ph : PendingHandshake P} :
    m.newPending env v addr remoteCert = .ok ph ↔
      ∃ idx hs w wire, env.index = .ok idx ∧
        P.newHandshakeState ⟨true, m.localKey, remoteCert.x25519PublicKey,
          derivePreSharedKey P m.localCert remoteCert, 0⟩ = .ok hs ∧
        P.writeMessage hs env.entropy [] = .ok w ∧
        Wire P m.localCert w.message (ownDetails P m.localCert idx 0 env.now) 0
          handshakeInitiation wire ∧
        ph = ⟨w.state, idx, v, addr, [], 1, env.now + retryBase, wire⟩ := by
  simp only [newPending, newInitiatorState, buildHandshakePacket, buildInitiatorMessage,
    buildMessage, marshalHandshakePacket, Wire, ownDetails, Fallible.bind_ok,
    Fallible.mapError_ok, Fallible.pure_ok]
  constructor
  · rintro ⟨idx, hidx, hs, hhs, w, hw, wire, ⟨msg, ⟨d, hd, rfl⟩, body, hbody, rfl⟩, rfl⟩
    exact ⟨idx, hs, w, _, hidx, hhs, hw, ⟨d, body, hd, hbody, rfl⟩, rfl⟩
  · rintro ⟨idx, hs, w, wire, hidx, hhs, hw, ⟨d, body, hd, hbody, rfl⟩, rfl⟩
    exact ⟨idx, hidx, hs, hhs, w, hw, _, ⟨_, ⟨d, hd, rfl⟩, body, hbody, rfl⟩, rfl⟩

theorem buildStage1_ok {env : Env P} {s : Stage0 P} {idx : UInt32} {wire : Bytes}
    {cs : Option (CipherState × CipherState)} :
    m.buildStage1 env s = .ok (idx, wire, cs) ↔
      ∃ w, env.index = .ok idx ∧ P.writeMessage s.state env.entropy [] = .ok w ∧
        Wire P m.localCert w.message (ownDetails P m.localCert s.details.initiatorIndex idx env.now)
          s.details.initiatorIndex handshakeResponse wire ∧ cs = w.ciphers := by
  simp only [buildStage1, buildResponderMessage, buildMessage, marshalHandshakePacket, Wire,
    ownDetails, Fallible.bind_ok, Fallible.mapError_ok, Fallible.pure_ok]
  constructor
  · rintro ⟨idx', hidx, w, hw, msg, ⟨d, hd, rfl⟩, wire', ⟨body, hbody, rfl⟩, h⟩
    obtain ⟨rfl, rfl, rfl⟩ := h
    exact ⟨w, hidx, hw, ⟨d, body, hd, hbody, rfl⟩, rfl⟩
  · rintro ⟨w, hidx, hw, ⟨d, body, hd, hbody, rfl⟩, rfl⟩
    exact ⟨idx, hidx, w, hw, _, ⟨d, hd, rfl⟩, _, ⟨body, hbody, rfl⟩, rfl⟩

theorem handleStage0_ok {env : Env P} {src : UDPAddr} {host : HostInfo} :
    (m.handleStage0 env pkt src).2 = .ok host ↔
      ∃ s idx wire cs ciphers, m.readStage0 env.now pkt = .ok s ∧
        m.buildStage1 env s = .ok (idx, wire, cs) ∧ env.writeTo wire src = .ok () ∧
        ciphersFromStates cs false = .ok ciphers ∧ host = stage0Host s src idx ciphers := by
  unfold handleStage0
  cases hread : m.readStage0 env.now pkt with
  | error e => simp [Fallible.throw_ok]
  | ok s =>
      cases hbuild : m.buildStage1 env s with
      | error e => simp [hbuild, Fallible.throw_ok]
      | ok r =>
          obtain ⟨idx, wire, cs⟩ := r
          cases hwrite : env.writeTo wire src with
          | error e => simp [hbuild, hwrite, Fallible.throw_ok]
          | ok u =>
              cases hcs : ciphersFromStates cs false with
              | error e => simp [hbuild, hwrite, hcs, Fallible.throw_ok]
              | ok ciphers =>
                  obtain ⟨send, recv⟩ := ciphers
                  simp [hbuild, hwrite, hcs, pure, Except.pure, eq_comm]

end HandshakeManager

end Neth
