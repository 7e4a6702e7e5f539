/-
An honest handshake, end to end.

An honest node holds the key pair its certificate names and a certificate that reads
back from its own bytes.  What such a node puts on the wire is taken apart by the
other end into exactly what went in, both ends derive the same pre-shared key, Noise
leaves them with the same two cipher states, and the role decides which is for
sending.  The lemmas come in pairs, what a message leads to if the checks pass and
what must have been in it if they did, because the second kind is what an invariant
of a network needs.
-/
import Neth.Proofs.Delivery
import Neth.Proofs.Initiator

namespace Neth

variable {P : Platform}

/-- A node whose key pair and certificate belong together. -/
structure Honest (m : HandshakeManager P) : Prop where
  key : P.ValidKey m.localKey
  certKey : m.localCert.x25519PublicKey = m.localKey.publicKey
  parses : Certificate.parseDER P m.localCert.raw = .ok m.localCert

/-- The first datagram that got out. -/
def firstWritten (effs : List Effect) : Bytes :=
  (effs.filterMap fun
    | .writeTo data _ true => some data
    | _ => none).headD []

namespace HandshakeManager

/-! ### Messages on the wire -/

section Wire

variable {cert cert' : Certificate} {noise wire : Bytes} {details details' : HandshakeDetails}
  {remoteIndex : UInt32} {subtype : HandshakeSubType} {m : HandshakeManager P} {now : Time}
  {msg : HandshakeMessage}

theorem Wire.parse (h : Wire P cert noise details remoteIndex subtype wire) :
    Header.parse wire = .ok ⟨headerVersion, typeHandshake, subtype, remoteIndex, 0⟩ := by
  obtain ⟨d, body, -, -, rfl⟩ := h
  exact Header.parse_bytes_append _ rfl (show typeHandshake < 16 by decide) body

theorem parse_pem (hpem : P.PEMCodec pemTypeCert)
    (hparse : Certificate.parseDER P cert.raw = .ok cert) :
    Certificate.parse P (cert.pem P) = .ok cert := by
  unfold Certificate.parse Certificate.pem
  rw [hpem]
  exact hparse

/-- What is on the wire decodes to what was put there. -/
theorem Wire.decode (hcodecs : P.Codecs)
    (h : Wire P cert noise details remoteIndex subtype wire) :
    ∃ d, P.unmarshalMessage (wire.drop headerLen) = .ok ⟨d, noise, messageMAC P cert d noise⟩ ∧
      P.unmarshalDetails d = .ok details := by
  obtain ⟨d, body, hd, hbody, rfl⟩ := h
  obtain ⟨d', hd', hdetails⟩ := hcodecs.details details
  obtain rfl : d = d' := Except.ok.inj (hd.symm.trans hd')
  obtain ⟨body', hbody', hmessage⟩ := hcodecs.message ⟨d, noise, messageMAC P cert d noise⟩
  obtain rfl : body = body' := Except.ok.inj (hbody.symm.trans hbody')
  exact ⟨d, by rw [Header.drop_bytes, hmessage], hdetails⟩

/-- What a node writes about itself passes every check of the outer message but the CA's. -/
theorem Wire.envelope (hcodecs : P.Codecs) (hparse : Certificate.parseDER P cert.raw = .ok cert)
    (hcert : details.cert = cert.pem P)
    (h : Wire P cert noise details remoteIndex subtype wire)
    (hverify : cert.verify P m.caPool now = .ok ()) :
    ∃ msg, Envelope m now wire msg details cert ∧ msg.noisePayload = noise := by
  obtain ⟨d, hmessage, hdetails⟩ := h.decode hcodecs
  refine ⟨⟨d, noise, messageMAC P cert d noise⟩, ⟨hmessage, hdetails, ?_, hverify, rfl⟩, rfl⟩
  rw [hcert]
  exact parse_pem hcodecs.pem hparse

/-- Conversely, an outer message that passed the checks says what was written. -/
theorem Wire.envelope_eq (hcodecs : P.Codecs)
    (hparse : Certificate.parseDER P cert.raw = .ok cert) (hcert : details.cert = cert.pem P)
    (h : Wire P cert noise details remoteIndex subtype wire)
    (henv : Envelope m now wire msg details' cert') :
    details' = details ∧ cert' = cert ∧ msg.noisePayload = noise ∧
      cert.verify P m.caPool now = .ok () := by
  obtain ⟨d, hmessage, hdetails⟩ := h.decode hcodecs
  obtain rfl := Except.ok.inj (hmessage.symm.trans henv.message)
  obtain rfl := Except.ok.inj (hdetails.symm.trans henv.detailsOk)
  have hcertOk := henv.certOk
  rw [hcert, parse_pem hcodecs.pem hparse] at hcertOk
  obtain rfl := Except.ok.inj hcertOk
  exact ⟨rfl, rfl, rfl, henv.verified⟩

end Wire

/-! ### The two messages of a handshake

Each message is described by what went into it, and the other side is shown to read exactly that. -/

section Messages

variable (P) (cA cB : Certificate) (kA kB : DHKey)

/-- `wire` is an initiation of `A` to `B` under `idx`, and writing it left `A`'s Noise in `st`. -/
def Initiation (st : P.HandshakeState) (idx : UInt32) (wire : Bytes) : Prop :=
  ∃ w now, w.state = st ∧
    P.FirstMessage kA kB.publicKey (derivePreSharedKey P cA cB) w ∧
    Wire P cA w.message (ownDetails P cA idx 0 now) 0 handshakeInitiation wire

/-- `wire` is the answer of `B` for the session `host`: whoever reads it in the state `st` gets the
two ciphers of that session. -/
def Response (st : P.HandshakeState) (idx : UInt32) (host : HostInfo) (wire : Bytes) : Prop :=
  ∃ noise read cs1 cs2 now,
    Wire P cB noise (ownDetails P cB idx host.index now) idx handshakeResponse wire ∧
    (P.readMessage st noise).1 = .ok read ∧ read.ciphers = some (cs1, cs2) ∧
    host.sendCipher = ⟨cs2.unsafeKey⟩ ∧ host.recvCipher = ⟨cs1.unsafeKey⟩

end Messages

section Roles

variable {cA cB : Certificate} {kA kB : DHKey} {st : P.HandshakeState} {idx : UInt32}
  {wire : Bytes} {m : HandshakeManager P} {env : Env P} {src : UDPAddr}

/-- What `StartHandshake` stores is an initiation. -/
theorem initiation_of_newPending {v : Addr} {addr : UDPAddr} {ph : PendingHandshake P}
    (hkey : cB.x25519PublicKey = kB.publicKey) (h : m.newPending env v addr cB = .ok ph) :
    Initiation P m.localCert cB m.localKey kB ph.state ph.localIndex ph.stage0msg ∧
      ph.remoteVpnIP = v ∧ ph.remoteAddr = addr ∧ env.index = .ok ph.localIndex ∧
      ph.pendingPackets = [] := by
  obtain ⟨idx, hs, w, wire, hidx, hnew, hw, hwire, rfl⟩ := newPending_ok.mp h
  rw [hkey] at hnew
  exact ⟨⟨w, env.now, rfl, ⟨hs, env.entropy, [], hnew, hw⟩, hwire⟩, rfl, rfl, hidx, rfl⟩

theorem exists_newPending (hnoise : P.IKpsk0) (hcodecs : P.Codecs) (hkeyA : P.ValidKey m.localKey)
    (hkeyB : P.ValidKey kB) (hkey : cB.x25519PublicKey = kB.publicKey)
    (hidx : env.index = .ok idx) (v : Addr) (addr : UDPAddr) :
    ∃ ph, m.newPending env v addr cB = .ok ph := by
  obtain ⟨hs, w, hnew, hw⟩ := hnoise.initiate m.localKey kB (derivePreSharedKey P m.localCert cB)
    env.entropy hkeyA hkeyB (length_derivePreSharedKey m.localCert cB)
  rw [← hkey] at hnew
  obtain ⟨wire, hwire⟩ := exists_wire hcodecs m.localCert w.message
    (ownDetails P m.localCert idx 0 env.now) 0 handshakeInitiation
  exact ⟨_, newPending_ok.mpr ⟨idx, hs, w, wire, hidx, hnew, hw, hwire, rfl⟩⟩

/-! #### The responder -/

/-- An honest responder reads an initiation if the CA vouches for the sender, gets out of it what
the sender put in, and can answer so that both ends agree. -/
theorem readStage0_initiation (hnoise : P.IKpsk0) (hcodecs : P.Codecs)
    (hkeyA : P.ValidKey kA) (hparseA : Certificate.parseDER P cA.raw = .ok cA)
    (hkeyB : P.ValidKey m.localKey)
    (hinit : Initiation P cA m.localCert kA m.localKey st idx wire) :
    ∃ now0 hs,
      (∀ now, m.readStage0 now wire = .ok ⟨ownDetails P cA idx 0 now0, cA, hs⟩ ↔
        cA.verify P m.caPool now = .ok ()) ∧
      (∀ now s, m.readStage0 now wire = .ok s → s = ⟨ownDetails P cA idx 0 now0, cA, hs⟩) ∧
      ∀ e, ∃ w cs read, P.writeMessage hs e [] = .ok w ∧ w.ciphers = some cs ∧
        (P.readMessage st w.message).1 = .ok read ∧ read.ciphers = some cs := by
  obtain ⟨w, now0, rfl, hfirst, hwire⟩ := hinit
  rw [derivePreSharedKey_comm] at hfirst
  obtain ⟨hs, read, hs', hnew, hread, -, hanswer⟩ :=
    hnoise.respond kA m.localKey _ w hkeyA hkeyB hfirst
  have hinv : ∀ now s, m.readStage0 now wire = .ok s →
      s = ⟨ownDetails P cA idx 0 now0, cA, hs'⟩ ∧ cA.verify P m.caPool now = .ok () := by
    intro now s hs0
    obtain ⟨-, msg, henv, hs1, read1, hnew1, hread1⟩ := readStage0_ok.mp hs0
    obtain ⟨hdetails, hcert, hpayload, hverify⟩ := hwire.envelope_eq hcodecs hparseA rfl henv
    rw [hcert] at hnew1
    obtain rfl : hs = hs1 := Except.ok.inj (hnew.symm.trans hnew1)
    rw [hpayload, hread] at hread1
    refine ⟨?_, hverify⟩
    calc s = ⟨s.details, s.senderCert, s.state⟩ := rfl
      _ = ⟨ownDetails P cA idx 0 now0, cA, hs'⟩ := by
        rw [hdetails, hcert, (Prod.mk.inj hread1).2]
  refine ⟨now0, hs', ?_, fun now s h => (hinv now s h).1, hanswer⟩
  intro now
  refine ⟨fun h => (hinv now _ h).2, ?_⟩
  intro hverify
  obtain ⟨msg, henv, hpayload⟩ := hwire.envelope hcodecs hparseA rfl hverify
  refine readStage0_ok.mpr ⟨⟨_, hwire.parse⟩, msg, henv, hs, read, hnew, ?_⟩
  rw [hpayload]
  exact hread

/-- A session of the responder, and the answer that went out for it. -/
structure Answered (P : Platform) (cA cB : Certificate) (st : P.HandshakeState) (idx : UInt32)
    (src : UDPAddr) (host : HostInfo) (wire : Bytes) : Prop where
  response : Response P cB st idx host wire
  window : host.toReplayWindow = .fresh
  vpnIP : host.vpnIP = cA.vpnIP.addr
  remote : host.remote = src
  remoteIndex : host.remoteIndex = idx
  counter : host.counter = 0
  cert : host.cert = some cA

/-- What an honest responder does with an initiation: it fails without a datagram getting out, or
it answers and has a session that matches the answer. -/
theorem handleStage0_initiation (hnoise : P.IKpsk0) (hcodecs : P.Codecs)
    (hkeyA : P.ValidKey kA) (hparseA : Certificate.parseDER P cA.raw = .ok cA)
    (hkeyB : P.ValidKey m.localKey)
    (hinit : Initiation P cA m.localCert kA m.localKey st idx wire) (env : Env P) (src : UDPAddr) :
    (∃ sent e, m.handleStage0 env wire src = (sent, .error e) ∧
      ∀ data addr, .writeTo data addr true ∉ sent) ∨
    ∃ host answer, m.handleStage0 env wire src = ([.writeTo answer src true], .ok host) ∧
      env.index = .ok host.index ∧ Answered P cA m.localCert st idx src host answer := by
  obtain ⟨now0, hs, -, hread, hanswer⟩ :=
    readStage0_initiation hnoise hcodecs hkeyA hparseA hkeyB hinit
  unfold handleStage0
  cases hs0 : m.readStage0 env.now wire with
  | error e => exact .inl ⟨[], e, rfl, by simp⟩
  | ok s =>
      obtain rfl := hread _ _ hs0
      obtain ⟨w, cs, read, hw, hcs, hread', hciphers⟩ := hanswer env.entropy
      cases hbuild : m.buildStage1 env ⟨ownDetails P cA idx 0 now0, cA, hs⟩ with
      | error e =>
          simp only [hbuild]
          exact .inl ⟨[], e, rfl, by simp⟩
      | ok r =>
          obtain ⟨iB, answer, cs'⟩ := r
          obtain ⟨w', hidx, hw', hwire, rfl⟩ := buildStage1_ok.mp hbuild
          obtain rfl : w = w' := Except.ok.inj (hw.symm.trans hw')
          have hok : ciphersFromStates w.ciphers false
              = .ok (⟨cs.2.unsafeKey⟩, ⟨cs.1.unsafeKey⟩) :=
            ciphersFromStates_ok.mpr ⟨cs.1, cs.2, hcs, rfl⟩
          simp only [hbuild, Env.send, hok]
          cases env.writeTo answer src with
          | error e => exact .inl ⟨_, _, rfl, by simp [Except.isOk, Except.toBool]⟩
          | ok u =>
              refine .inr ⟨_, answer, rfl, hidx, ⟨?_, rfl, rfl, rfl, rfl, rfl, rfl⟩⟩
              exact ⟨w.message, read, cs.1, cs.2, env.now, hwire, hread', hciphers, rfl, rfl⟩

/-- If the CA vouches for the sender and nothing fails around it, it answers. -/
theorem exists_handleStage0_initiation (hnoise : P.IKpsk0) (hcodecs : P.Codecs)
    (hkeyA : P.ValidKey kA) (hparseA : Certificate.parseDER P cA.raw = .ok cA)
    (hkeyB : P.ValidKey m.localKey)
    (hinit : Initiation P cA m.localCert kA m.localKey st idx wire) {iB : UInt32}
    (hidx : env.index = .ok iB) (hwrite : ∀ data addr, env.writeTo data addr = .ok ())
    (hverify : cA.verify P m.caPool env.now = .ok ()) (src : UDPAddr) :
    ∃ host answer, m.handleStage0 env wire src = ([.writeTo answer src true], .ok host) ∧
      host.index = iB ∧ Answered P cA m.localCert st idx src host answer := by
  obtain ⟨now0, hs, hread, -, hanswer⟩ :=
    readStage0_initiation hnoise hcodecs hkeyA hparseA hkeyB hinit
  obtain ⟨w, cs, -, hw, hcs, -, -⟩ := hanswer env.entropy
  obtain ⟨host, hok, -⟩ := exists_handleStage0_ok hcodecs env src hidx hwrite
    ((hread env.now).mpr hverify) hw hcs
  rcases handleStage0_initiation hnoise hcodecs hkeyA hparseA hkeyB hinit env src with
    ⟨sent, e, herr, -⟩ | ⟨host', answer, hres, hidx', hanswered⟩
  · rw [herr] at hok
    cases hok
  · exact ⟨host', answer, hres, Except.ok.inj (hidx'.symm.trans hidx), hanswered⟩

/-! #### The initiator -/

/-- In the state its initiation left it in, an honest initiator takes from the answer what the
responder put in, if the CA vouches for the responder. -/
theorem readStage1_response (m : HandshakeManager P) (ph : PendingHandshake P) {host : HostInfo}
    (hcodecs : P.Codecs) (hparseB : Certificate.parseDER P cB.raw = .ok cB)
    (hresp : Response P cB ph.state idx host wire) :
    ∃ now0, (∀ now, m.readStage1 now ph wire
          = .ok ⟨ownDetails P cB idx host.index now0, cB, host.recvCipher, host.sendCipher⟩ ↔
        cB.verify P m.caPool now = .ok ()) ∧
      ∀ now s, m.readStage1 now ph wire = .ok s →
        s = ⟨ownDetails P cB idx host.index now0, cB, host.recvCipher, host.sendCipher⟩ := by
  obtain ⟨noise, read, cs1, cs2, now0, hwire, hread, hcs, hsend, hrecv⟩ := hresp
  have hinv : ∀ now s, m.readStage1 now ph wire = .ok s →
      s = ⟨ownDetails P cB idx host.index now0, cB, host.recvCipher, host.sendCipher⟩ ∧
        cB.verify P m.caPool now = .ok () := by
    intro now s hs
    obtain ⟨msg, henv, read', cs1', cs2', hread', hcs', hciphers⟩ := readStage1_ok.mp hs
    obtain ⟨hdetails, hcert, hpayload, hverify⟩ := hwire.envelope_eq hcodecs hparseB rfl henv
    rw [hpayload] at hread'
    obtain rfl : read = read' := Except.ok.inj (hread.symm.trans hread')
    obtain ⟨rfl, rfl⟩ := Prod.mk.inj (Option.some.inj (hcs.symm.trans hcs'))
    refine ⟨?_, hverify⟩
    calc s = ⟨s.details, s.responderCert, s.ciphers⟩ := rfl
      _ = ⟨ownDetails P cB idx host.index now0, cB, host.recvCipher, host.sendCipher⟩ := by
        rw [hdetails, hcert, hciphers, hsend, hrecv]
  refine ⟨now0, ?_, fun now s h => (hinv now s h).1⟩
  intro now
  refine ⟨fun h => (hinv now _ h).2, ?_⟩
  intro hverify
  obtain ⟨msg, henv, hpayload⟩ := hwire.envelope hcodecs hparseB rfl hverify
  refine readStage1_ok.mpr ⟨msg, henv, read, cs1, cs2, ?_, hcs, ?_⟩
  · rw [hpayload]
    exact hread
  · rw [hsend, hrecv]

end Roles

/-! ### The queue -/

section Queue

variable {m : HandshakeManager P} {v : Addr} {idx : UInt32} {ph : PendingHandshake P}

/-- `ph` waits for the answer of `v` under the local index `idx`. -/
def Waits (m : HandshakeManager P) (v : Addr) (idx : UInt32) (ph : PendingHandshake P) : Prop :=
  ∃ n, m.pending v = some n ∧ m.indexMap idx = some n ∧ m.handshakes[n]? = some ph

theorem waits_insert (m : HandshakeManager P) (ph : PendingHandshake P) :
    (m.insert ph).Waits ph.remoteVpnIP ph.localIndex ph := by
  refine ⟨m.handshakes.length, ?_, ?_, ?_⟩
  · simp [insert]
  · simp [insert]
  · simp [insert]

/-- What is left of a queue: the last packets, as many as fit. -/
def kept (pkts : List Bytes) : List Bytes := pkts.drop (pkts.length - maxPendingPackets)

theorem length_kept (pkts : List Bytes) : (kept pkts).length ≤ maxPendingPackets := by
  simp only [kept, List.length_drop]
  omega

/-- Queueing one more drops the oldest if the queue is full. -/
theorem kept_append (pkts : List Bytes) (pkt : Bytes) :
    (if (kept pkts).length ≥ maxPendingPackets then (kept pkts).drop 1 else kept pkts) ++ [pkt]
      = kept (pkts ++ [pkt]) := by
  have hlen : (kept pkts).length = pkts.length - (pkts.length - maxPendingPackets) := by
    simp [kept]
  have hpos : 0 < maxPendingPackets := by decide
  by_cases hfull : maxPendingPackets ≤ pkts.length
  · rw [if_pos (by omega)]
    unfold kept
    rw [List.drop_drop, List.length_append, List.length_singleton,
      List.drop_append_of_le_length (by omega)]
    congr 2
    omega
  · rw [if_neg (by omega)]
    have hnone : pkts.length - maxPendingPackets = 0 := by omega
    have hnone' : (pkts ++ [pkt]).length - maxPendingPackets = 0 := by
      rw [List.length_append, List.length_singleton]
      omega
    unfold kept
    rw [hnone, hnone']
    rfl

/-- `QueuePacket` for each packet of a list. -/
def queueAll (m : HandshakeManager P) (v : Addr) (pkts : List Bytes) : HandshakeManager P :=
  pkts.foldl (fun m pkt => m.queuePacket v pkt) m

theorem waits_queuePacket (h : m.Waits v idx ph) (pkt : Bytes) :
    (m.queuePacket v pkt).Waits v idx { ph with
      pendingPackets := (if ph.pendingPackets.length ≥ maxPendingPackets
        then ph.pendingPackets.drop 1 else ph.pendingPackets) ++ [pkt] } := by
  obtain ⟨n, hpending, hindex, hph⟩ := h
  refine ⟨n, ?_, ?_, ?_⟩
  · simp [queuePacket, hpending]
  · simp [queuePacket, hpending, hindex]
  · simp [queuePacket, hpending, hph]

@[simp] theorem queuePacket_caPool (m : HandshakeManager P) (v : Addr) (pkt : Bytes) :
    (m.queuePacket v pkt).caPool = m.caPool := by
  unfold queuePacket
  split
  · rfl
  · rfl

theorem queueAll_caPool (v : Addr) (pkts : List Bytes) :
    ∀ m : HandshakeManager P, (m.queueAll v pkts).caPool = m.caPool := by
  induction pkts with
  | nil => intro m; rfl
  | cons pkt pkts ih => intro m; exact (ih _).trans (queuePacket_caPool m v pkt)

theorem waits_queueAll (v : Addr) (idx : UInt32) (ph : PendingHandshake P) (pkts : List Bytes) :
    ∀ (m : HandshakeManager P) (before : List Bytes),
      m.Waits v idx { ph with pendingPackets := kept before } →
      (m.queueAll v pkts).Waits v idx { ph with pendingPackets := kept (before ++ pkts) } := by
  induction pkts with
  | nil =>
      intro m before h
      rw [List.append_nil]
      exact h
  | cons pkt pkts ih =>
      intro m before h
      have hnext := waits_queuePacket h pkt
      simp only [kept_append] at hnext
      have hall := ih _ (before ++ [pkt]) hnext
      rw [List.append_assoc] at hall
      exact hall

end Queue

end HandshakeManager

/-! ### The two messages at the node -/

namespace Interface

variable {I : Interface P} {env : Env P} {wire : Bytes} {src : UDPAddr} {idx : UInt32}

theorem step_handshake {hdr : Header} (hparse : Header.parse wire = .ok hdr)
    (htype : hdr.type = typeHandshake) :
    I.step (env, .outside wire src) = I.handleHandshake env wire hdr src := by
  have hmessage : ¬ hdr.type = typeMessage := by
    rw [htype]
    decide
  show I.consumeOutsidePacket env wire src = _
  unfold consumeOutsidePacket
  rw [if_neg (Header.length_of_parse hparse), hparse]
  simp only
  rw [if_neg hmessage, if_pos htype]

theorem step_initiation {counter : UInt64}
    (hparse : Header.parse wire
      = .ok ⟨headerVersion, typeHandshake, handshakeInitiation, idx, counter⟩) :
    I.step (env, .outside wire src) = match I.handshakeMgr.handleStage0 env wire src with
      | (sent, .error _) => (I, sent)
      | (sent, .ok host) => (I.installed host, sent) := by
  rw [step_handshake hparse rfl]
  unfold handleHandshake
  rw [if_pos rfl]
  cases I.handshakeMgr.handleStage0 env wire src with
  | mk sent res =>
      cases res with
      | error e => rfl
      | ok host =>
          show (I.installed host, sent ++ []) = _
          rw [List.append_nil]

theorem step_response {counter : UInt64}
    (hparse : Header.parse wire
      = .ok ⟨headerVersion, typeHandshake, handshakeResponse, idx, counter⟩) :
    I.step (env, .outside wire src) = match I.handshakeMgr.handleStage1 env.now wire with
      | (m, .error _) => ({ I with handshakeMgr := m }, [])
      | (m, .ok (host, pending)) =>
          (({ I with handshakeMgr := m }).installed host).sendAll env I.hostmap.hosts.length
            pending := by
  rw [step_handshake hparse rfl]
  unfold handleHandshake
  rw [if_neg (show ¬ handshakeResponse = handshakeInitiation by decide), if_pos rfl]
  cases I.handshakeMgr.handleStage1 env.now wire with
  | mk m res =>
      cases res with
      | error e => rfl
      | ok done => rfl

theorem hosts_installed (I : Interface P) (h : HostInfo) :
    (I.installed h).hostmap.hosts[I.hostmap.hosts.length]? = some h := by
  simp [installed, HostMap.add]

end Interface

/-! ### Flushing the queue

The packets are sealed in the order of the queue, under counters that follow one another. -/

namespace HostInfo

variable (P) in
/-- A packet as the session seals it under a counter: header, plaintext and ciphertext. -/
def sealAt (h : HostInfo) (counter : UInt64) (plaintext : Bytes) : Bytes × Bytes × Bytes :=
  ((h.dataHeader counter).bytes, plaintext,
    encrypt P h.sendCipher counter (h.dataHeader counter).bytes plaintext)

variable (P) in
/-- The packets of a list, sealed one after the other. -/
def flushed (h : HostInfo) : List Bytes → List (Bytes × Bytes × Bytes)
  | [] => []
  | pkt :: pkts =>
      h.sealAt P (h.counter + 1) pkt :: flushed { h with counter := h.counter + 1 } pkts

theorem flushed_plaintexts (pkts : List Bytes) :
    ∀ h : HostInfo, (h.flushed P pkts).map (·.2.1) = pkts := by
  induction pkts with
  | nil => intro h; rfl
  | cons pkt pkts ih => intro h; exact congrArg (pkt :: ·) (ih _)

theorem counter_next {h : HostInfo} {n : Nat} (hlt : h.counter.toNat + (n + 1) < 2 ^ 64) :
    (h.counter + 1).toNat = h.counter.toNat + 1 := by
  rw [UInt64.toNat_add]
  exact Nat.mod_eq_of_lt (by simp; omega)

/-- Each is sealed under one of the next counters. -/
theorem exists_counter_of_mem_flushed (pkts : List Bytes) :
    ∀ (h : HostInfo) (x : Bytes × Bytes × Bytes), x ∈ h.flushed P pkts →
      h.counter.toNat + pkts.length < 2 ^ 64 →
      ∃ c : UInt64, x = h.sealAt P c x.2.1 ∧ h.counter.toNat < c.toNat ∧
        c.toNat ≤ h.counter.toNat + pkts.length := by
  induction pkts with
  | nil => intro h x hx; cases hx
  | cons pkt pkts ih =>
      intro h x hx hlt
      rw [List.length_cons] at hlt ⊢
      have hnext := counter_next hlt
      rcases List.mem_cons.mp hx with rfl | hx
      · exact ⟨h.counter + 1, rfl, by omega, by omega⟩
      · obtain ⟨c, hc, hlow, hhigh⟩ := ih { h with counter := h.counter + 1 } x hx
          (by simp only [hnext]; omega)
        simp only [hnext] at hlow hhigh
        exact ⟨c, hc, by omega, by omega⟩

theorem counterAt_dataHeader (h : HostInfo) (c : UInt64) :
    counterAt (h.dataHeader c).bytes = c := by
  have hparse := Header.parse_bytes_append (h.dataHeader c) rfl (show typeMessage < 16 by decide) []
  have hcounter := counterAt_take hparse
  rwa [Header.take_bytes] at hcounter

/-- Later packets are sealed under higher counters. -/
theorem sorted_flushed (pkts : List Bytes) :
    ∀ h : HostInfo, h.counter.toNat + pkts.length < 2 ^ 64 →
      ((h.flushed P pkts).map fun x => counterAt x.1).Pairwise (· < ·) := by
  induction pkts with
  | nil => intro h _; exact List.Pairwise.nil
  | cons pkt pkts ih =>
      intro h hlt
      rw [List.length_cons] at hlt
      have hnext := counter_next hlt
      have hlt' : ({ h with counter := h.counter + 1 } : HostInfo).counter.toNat + pkts.length
          < 2 ^ 64 := by
        simp only [hnext]
        omega
      refine List.pairwise_cons.mpr ⟨?_, ih _ hlt'⟩
      intro c hmem
      obtain ⟨x, hx, rfl⟩ := List.mem_map.mp hmem
      obtain ⟨c, hc, hlow, -⟩ := exists_counter_of_mem_flushed pkts _ x hx hlt'
      rw [hc]
      simp only [sealAt, counterAt_dataHeader]
      exact UInt64.lt_iff_toNat_lt.mpr hlow

theorem nodup_flushed (pkts : List Bytes) (h : HostInfo)
    (hlt : h.counter.toNat + pkts.length < 2 ^ 64) :
    ((h.flushed P pkts).map fun x => counterAt x.1).Nodup :=
  (sorted_flushed pkts h hlt).imp fun hc => UInt64.ne_of_lt hc

end HostInfo

namespace Interface

/-- Flushing seals every packet, writes every datagram, and touches only the session's counter. -/
structure Flushes (I : Interface P) (env : Env P) (r : Ref) (h : HostInfo) (pkts : List Bytes) :
    Prop where
  sealed : sealedIn r (I.sendAll env r pkts).2 = h.flushed P pkts
  written : ∀ x ∈ h.flushed P pkts, env.send (x.1 ++ x.2.2) h.remote ∈ (I.sendAll env r pkts).2
  session : ∃ c, (I.sendAll env r pkts).1.hostmap.hosts[r]? = some { h with counter := c }
  byVpnIP : (I.sendAll env r pkts).1.hostmap.byVpnIP = I.hostmap.byVpnIP

theorem hosts_counted {I : Interface P} {r : Ref} {h : HostInfo}
    (hr : I.hostmap.hosts[r]? = some h) :
    (I.counted r h).hostmap.hosts[r]? = some { h with counter := h.counter + 1 } := by
  rw [counted, HostMap.hosts_assign hr, if_pos rfl]

/-- The effects of a flush, in their order. -/
theorem sendAll_effects (env : Env P) (r : Ref) (pkts : List Bytes) :
    ∀ (I : Interface P) (h : HostInfo), I.hostmap.hosts[r]? = some h →
      (I.sendAll env r pkts).2 = (h.flushed P pkts).flatMap fun x =>
        [.encrypted r x.1 x.2.1 x.2.2, env.send (x.1 ++ x.2.2) h.remote] := by
  induction pkts with
  | nil => intro I h _; rfl
  | cons pkt pkts ih =>
      intro I h hr
      simp only [sendAll, sendToRemote_eq hr env pkt]
      rw [ih (I.counted r h) _ (hosts_counted hr)]
      rfl

theorem sendAll_hostmap (env : Env P) (r : Ref) (pkts : List Bytes) :
    ∀ (I : Interface P) (h : HostInfo), I.hostmap.hosts[r]? = some h →
      (∃ c, (I.sendAll env r pkts).1.hostmap.hosts[r]? = some { h with counter := c }) ∧
        (I.sendAll env r pkts).1.hostmap.byVpnIP = I.hostmap.byVpnIP := by
  induction pkts with
  | nil => intro I h hr; exact ⟨⟨h.counter, hr⟩, rfl⟩
  | cons pkt pkts ih =>
      intro I h hr
      simp only [sendAll, sendToRemote_eq hr env pkt]
      obtain ⟨⟨c, hsession⟩, hip⟩ := ih (I.counted r h) _ (hosts_counted hr)
      exact ⟨⟨c, hsession⟩, hip⟩

theorem sendAll_flushes (env : Env P) (r : Ref) (pkts : List Bytes) :
    ∀ (I : Interface P) (h : HostInfo), I.hostmap.hosts[r]? = some h →
      Flushes I env r h pkts := by
  intro I h hr
  have heffs := sendAll_effects env r pkts I h hr
  obtain ⟨hsession, hip⟩ := sendAll_hostmap env r pkts I h hr
  refine ⟨?_, ?_, hsession, hip⟩
  · rw [heffs, sealedIn, List.filterMap_flatMap]
    simp [Env.send]
  · intro x hx
    rw [heffs]
    exact List.mem_flatMap.mpr ⟨x, hx, List.mem_cons_of_mem _ (List.mem_singleton.mpr rfl)⟩

/-! ### Receiving what was flushed

A datagram of the flush is opened whenever it arrives for the first time, whichever of the others
have arrived before it. -/

theorem openedIn_deliver (I : Interface P) (env : Env P) (host : HostInfo) (plaintext : Bytes)
    (r : Ref) : openedIn r (I.deliver env host plaintext).2 = [] := by
  unfold deliver
  split
  · rfl
  · simp only
    split
    · simp [openedIn]
    · simp [openedIn]

/-- A sealed packet whose counter is fresh arrives. -/
theorem step_sealAt (hopen : P.OpenSeal) {I : Interface P} {r : Ref} {h hA : HostInfo}
    (hget : I.hostmap.getByIndex hA.remoteIndex = some (r, h))
    (hcipher : hA.sendCipher = h.recvCipher) {c : UInt64} (hfresh : ¬ h.Stale c)
    (pkt : Bytes) (env : Env P) (src : UDPAddr) :
    let x := hA.sealAt P c pkt
    openedIn r (I.step (env, .outside (x.1 ++ x.2.2) src)).2 = [(x.1, pkt)] ∧
      (I.step (env, .outside (x.1 ++ x.2.2) src)).1.hostmap.getByIndex hA.remoteIndex
        = some (r, { h with toReplayWindow := (h.toReplayWindow.checkReplay c).1 }) := by
  intro x
  have hparse : Header.parse (x.1 ++ x.2.2) = .ok (hA.dataHeader c) :=
    Header.parse_bytes_append _ rfl (show typeMessage < 16 by decide) _
  let d : Datagram P hA.remoteIndex := ⟨env, src, x.1 ++ x.2.2, hA.dataHeader c, hparse, rfl, rfl⟩
  have htake : d.pkt.take headerLen = (hA.dataHeader c).bytes := Header.take_bytes _ _
  have hdecrypt : decrypt P h.recvCipher c (d.pkt.take headerLen) (d.pkt.drop headerLen)
      = .ok pkt := by
    have hdrop : d.pkt.drop headerLen = encrypt P hA.sendCipher c (hA.dataHeader c).bytes pkt :=
      Header.drop_bytes _ _
    rw [htake, hdrop, decrypt, encrypt, hcipher, hopen]
    rfl
  have hreceive : (h.receive P d.hdr d.pkt).2 = .ok pkt :=
    HostInfo.receive_ok.mpr ⟨hfresh, hdecrypt⟩
  have hafter := (step_datagram hget d).2
  refine ⟨?_, hafter⟩
  show openedIn r (I.step d.event).2 = _
  rw [step_event]
  unfold handleMessage
  rw [d.addressed, hget]
  simp only [hreceive, htake]
  have hcons : ∀ effs, openedIn r (.decrypted r (hA.dataHeader c).bytes pkt :: effs)
      = ((hA.dataHeader c).bytes, pkt) :: openedIn r effs := by
    intro effs
    simp [openedIn]
  rw [hcons, openedIn_deliver]
  rfl

/-- The arrival of a sealed packet. -/
def arrival (env : Env P) (src : UDPAddr) (x : Bytes × Bytes × Bytes) : Env P × Event :=
  (env, .outside (x.1 ++ x.2.2) src)

/-- Packets whose counters are within the window and pairwise different all arrive, in whatever
order they come. -/
theorem run_arrivals (hopen : P.OpenSeal) {hA : HostInfo} {r : Ref} (env : Env P) (src : UDPAddr)
    (order : List (Bytes × Bytes × Bytes)) :
    ∀ (I : Interface P) (h : HostInfo) (seen : List UInt64),
      I.hostmap.getByIndex hA.remoteIndex = some (r, h) → hA.sendCipher = h.recvCipher →
      (∀ c, c.toNat < replayWindowSize → (h.Stale c ↔ c ∈ seen)) →
      (∀ x ∈ order, ∃ c, x = hA.sealAt P c x.2.1 ∧ c.toNat < replayWindowSize ∧ c ∉ seen) →
      (order.map fun x => counterAt x.1).Nodup →
      openedIn r (I.run (order.map (arrival env src))).2.flatten
        = order.map fun x => (x.1, x.2.1) := by
  induction order with
  | nil => intro I h seen _ _ _ _ _; rfl
  | cons x order ih =>
      intro I h seen hget hcipher hseen hseals hnodup
      obtain ⟨c, hx, hc, hnew⟩ := hseals x List.mem_cons_self
      have hfresh : ¬ h.Stale c := fun hs => hnew ((hseen c hc).mp hs)
      obtain ⟨hopened, hafter⟩ := step_sealAt hopen hget hcipher hfresh x.2.1 env src
      rw [← hx] at hopened hafter
      obtain ⟨hnotin, hnodup⟩ := List.nodup_cons.mp hnodup
      have hcounter : counterAt x.1 = c := by
        rw [hx]
        exact hA.counterAt_dataHeader c
      -- the window has now also seen `c`, and has not moved past any of the others
      have hseen' : ∀ c', c'.toNat < replayWindowSize →
          (ReplayWindow.Stale (h.toReplayWindow.checkReplay c).1 c' ↔ c' ∈ c :: seen) := by
        intro c' hc'
        rw [ReplayWindow.stale_checkReplay hfresh, List.mem_cons, ← hseen c' hc']
        refine ⟨?_, ?_⟩
        · intro hor
          rcases hor with heq | hold | hs
          · exact .inl heq
          · omega
          · exact .inr hs
        · intro hor
          rcases hor with heq | hs
          · exact .inl heq
          · exact .inr (.inr hs)
      have hseals' : ∀ y ∈ order, ∃ c', y = hA.sealAt P c' y.2.1 ∧
          c'.toNat < replayWindowSize ∧ c' ∉ c :: seen := by
        intro y hy
        obtain ⟨c', hy', hc', hnew'⟩ := hseals y (List.mem_cons_of_mem x hy)
        refine ⟨c', hy', hc', ?_⟩
        intro hmem
        rcases List.mem_cons.mp hmem with rfl | hmem
        · refine hnotin (List.mem_map.mpr ⟨y, hy, ?_⟩)
          show counterAt y.1 = counterAt x.1
          rw [hcounter, hy']
          exact hA.counterAt_dataHeader _
        · exact hnew' hmem
      have hrest := ih _ _ (c :: seen) hafter hcipher hseen' hseals' hnodup
      show openedIn r ((I.step (env, .outside (x.1 ++ x.2.2) src)).2
        ++ ((I.step (env, .outside (x.1 ++ x.2.2) src)).1.run
          (order.map (arrival env src))).2.flatten) = _
      rw [openedIn_append, hrest, hopened]
      rfl

/-- What a new session flushes, the new session at the other end opens, whatever part of it comes
and in whatever order. -/
theorem run_flushed (hopen : P.OpenSeal) {I : Interface P} {r : Ref} {hA hB : HostInfo}
    (hget : I.hostmap.getByIndex hA.remoteIndex = some (r, hB))
    (hcipher : hA.sendCipher = hB.recvCipher) (hcounter : hA.counter = 0)
    (hwindow : hB.toReplayWindow = .fresh) {pkts : List Bytes}
    (hpkts : pkts.length ≤ maxPendingPackets) {order : List (Bytes × Bytes × Bytes)}
    (hnodup : order.Nodup) (hmem : ∀ x ∈ order, x ∈ hA.flushed P pkts) (env : Env P)
    (src : UDPAddr) :
    openedIn r (I.run (order.map (arrival env src))).2.flatten
      = order.map fun x => (x.1, x.2.1) := by
  have hzero : hA.counter.toNat = 0 := by
    rw [hcounter]
    rfl
  unfold maxPendingPackets at hpkts
  -- the counters of the flush run from 1 to its length, far inside the window
  have hlen : hA.counter.toNat + pkts.length < 2 ^ 64 := by omega
  refine run_arrivals hopen env src order I hB [] hget hcipher ?_ ?_ ?_
  · intro c _
    rw [hwindow]
    simpa using not_stale_fresh c
  · intro x hx
    obtain ⟨c, hx', -, hle⟩ := HostInfo.exists_counter_of_mem_flushed pkts hA x (hmem x hx) hlen
    refine ⟨c, hx', ?_, List.not_mem_nil⟩
    unfold replayWindowSize
    omega
  · refine List.Nodup.map_on ?_ hnodup
    intro x hx y hy heq
    exact List.inj_on_of_nodup_map (HostInfo.nodup_flushed pkts hA hlen) (hmem x hx) (hmem y hy)
      heq

end Interface

/-! ### Concrete nodes -/

namespace Symbolic

/-- Node `n` as it starts, with a firewall that lets everything pass. -/
def node (n : UInt8) : Interface platform :=
  .new (nodeCert n [[n]]) (nodeKey n) [caCert] (.new [Interface.anyRule] [Interface.anyRule])
    (.new false [] []) none []

/-- Node 1, with what it needs to reach node 2. -/
def caller : Interface platform :=
  .new (nodeCert 1 [[1]]) (nodeKey 1) [caCert] (.new [Interface.anyRule] [Interface.anyRule])
    ((LightHouse.new false [] []).addStaticEntry (nodeIP 2) (nodeAddr 2)) none [nodeCert 2 [[2]]]

theorem honest_node (n : UInt8) : Honest (node n).handshakeMgr where
  key := ⟨List.length_replicate, rfl⟩
  certKey := Vector.toList_replicate
  parses := parseDER_issue _ _ _ _ _ _

end Symbolic

end Neth
