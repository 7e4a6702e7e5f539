/-
Who the responder believes it is talking to.

`HandleStage0` learns two identities: the certificate in the clear, under a MAC that
anyone who has seen the certificate can compute, and the static key that Noise hands
over.  It installs the session under the first and never compares it with the second.
So the two agree exactly as far as senders choose to make them agree: a session is bound
to its certificate if the Noise message was written with the certificate's own key, and
of a message that was written with another key it is not.

Noise is asked for little here.  A responder that can read a message learns the public
key it was written with, whether or not the writer knew the private half: X25519 has
several spellings of one public key, so a pair with an unusual spelling is readable and
yet is not the pair of any certificate.  What is said below therefore quantifies over
every `DHKey`, and nothing rests on reading being possible for some of them only.
-/
import Neth.Proofs.Handshake
import Neth.Proofs.Symbolic

namespace Neth

namespace HandshakeManager

variable {P : Platform} {m : HandshakeManager P} {now : Time} {pkt : Bytes}

/-! ### Writers

The pair a message was written with need not be one: `WriteMessage` puts the public half into the
message and calculates with the private one.  -/

/-- The Noise message was written with the key pair `k` to this node, under the pre-shared key of
this node's certificate and `cert`. -/
def WrittenBy (m : HandshakeManager P) (cert : Certificate) (noise : Bytes) (k : DHKey) : Prop :=
  ∃ w, P.FirstMessage k m.localKey.publicKey (derivePreSharedKey P m.localCert cert) w ∧
    w.message = noise

/-- The datagram passes the checks on its outer message, and its Noise message was written with the
key in the certificate it carries. -/
def WrittenByOwner (m : HandshakeManager P) (now : Time) (pkt : Bytes) : Prop :=
  ∃ msg details cert k, Envelope m now pkt msg details cert ∧
    WrittenBy m cert msg.noisePayload k ∧ k.publicKey = cert.x25519PublicKey

/-- `HandleStage0` calls `onComplete` with no session. -/
def Refuses (m : HandshakeManager P) (env : Env P) (pkt : Bytes) (src : UDPAddr) : Prop :=
  ∀ host, (m.handleStage0 env pkt src).2 ≠ .ok host

/-- The session with which `HandleStage0` calls `onComplete`, if any, has a certificate for the key
that Noise has learned. -/
def Authenticates (m : HandshakeManager P) (env : Env P) (pkt : Bytes) (src : UDPAddr) : Prop :=
  ∀ host s, (m.handleStage0 env pkt src).2 = .ok host → m.readStage0 env.now pkt = .ok s →
    host.cert.map (·.x25519PublicKey) = some (P.peerStatic s.state)

/-- The outer message says what it says. -/
theorem Envelope.unique {msg msg' : HandshakeMessage} {details details' : HandshakeDetails}
    {cert cert' : Certificate} (h : Envelope m now pkt msg details cert)
    (h' : Envelope m now pkt msg' details' cert') :
    msg' = msg ∧ details' = details ∧ cert' = cert := by
  obtain rfl := Except.ok.inj (h.message.symm.trans h'.message)
  obtain rfl := Except.ok.inj (h.detailsOk.symm.trans h'.detailsOk)
  exact ⟨rfl, rfl, Except.ok.inj (h'.certOk.symm.trans h.certOk)⟩

/-- If the datagram is read at all, Noise has learned the key it was written with. -/
theorem peerStatic_of_writtenBy (hlearns : P.LearnsInitiator) (hkey : P.ValidKey m.localKey)
    {msg : HandshakeMessage} {details : HandshakeDetails} {cert : Certificate} {k : DHKey}
    {s : Stage0 P} (henv : Envelope m now pkt msg details cert)
    (hk : WrittenBy m cert msg.noisePayload k) (hread : m.readStage0 now pkt = .ok s) :
    s.senderCert = cert ∧ P.peerStatic s.state = k.publicKey := by
  obtain ⟨w, hfirst, hw⟩ := hk
  obtain ⟨-, msg', henv', hs, read, hnew, hnoise⟩ := readStage0_ok.mp hread
  obtain ⟨rfl, -, hcert⟩ := henv.unique henv'
  rw [hcert] at hnew
  rw [← hw] at hnoise
  exact ⟨hcert, hlearns k m.localKey _ w hs s.state read hkey hfirst hnew hnoise⟩

/-- A message that the holder of a key pair has written is read and can be answered. -/
theorem readStage0_of_writtenBy (hnoise : P.IKpsk0) (hkey : P.ValidKey m.localKey) {hdr : Header}
    {msg : HandshakeMessage} {details : HandshakeDetails} {cert : Certificate} {k : DHKey}
    (hhdr : Header.parse pkt = .ok hdr) (henv : Envelope m now pkt msg details cert)
    (hk : WrittenBy m cert msg.noisePayload k) (hvalid : P.ValidKey k) :
    ∃ hs, m.readStage0 now pkt = .ok ⟨details, cert, hs⟩ ∧
      ∀ e, ∃ w cs, P.writeMessage hs e [] = .ok w ∧ w.ciphers = some cs := by
  obtain ⟨w, hfirst, hw⟩ := hk
  obtain ⟨hs, read, hs', hnew, hread, -, hanswer⟩ :=
    hnoise.respond k m.localKey _ w hvalid hkey hfirst
  rw [hw] at hread
  refine ⟨hs', readStage0_ok.mpr ⟨⟨hdr, hhdr⟩, msg, henv, hs, read, hnew, hread⟩, ?_⟩
  intro e
  obtain ⟨w', cs, -, hw', hcs, -⟩ := hanswer e
  exact ⟨w', cs, hw', hcs⟩

/-! ### Answering

A message that a key pair wrote to this node is read and answered, whoever owns the pair, and the
session gets the certificate that came with it. -/

/-- Encoding never fails. -/
theorem exists_wire (hcodecs : P.Codecs) (cert : Certificate) (noise : Bytes)
    (details : HandshakeDetails) (remoteIndex : UInt32) (subtype : HandshakeSubType) :
    ∃ wire, Wire P cert noise details remoteIndex subtype wire := by
  obtain ⟨d, hd, -⟩ := hcodecs.details details
  obtain ⟨body, hbody, -⟩ := hcodecs.message ⟨d, noise, messageMAC P cert d noise⟩
  exact ⟨_, d, body, hd, hbody, rfl⟩

/-- Once a message is read and can be answered, a world in which nothing else fails completes the
handshake. -/
theorem exists_handleStage0_ok (hcodecs : P.Codecs) (env : Env P) {idx : UInt32} {s : Stage0 P}
    {w : NoiseWrite P.HandshakeState} {cs : CipherState × CipherState} (src : UDPAddr)
    (hidx : env.index = .ok idx) (hwrite : ∀ data addr, env.writeTo data addr = .ok ())
    (hread : m.readStage0 env.now pkt = .ok s)
    (hw : P.writeMessage s.state env.entropy [] = .ok w) (hcs : w.ciphers = some cs) :
    ∃ host, (m.handleStage0 env pkt src).2 = .ok host ∧ host.cert = some s.senderCert := by
  obtain ⟨wire, hwire⟩ := exists_wire hcodecs m.localCert w.message
    (ownDetails P m.localCert s.details.initiatorIndex idx env.now) s.details.initiatorIndex
    handshakeResponse
  have hbuild : m.buildStage1 env s = .ok (idx, wire, w.ciphers) :=
    buildStage1_ok.mpr ⟨w, hidx, hw, hwire, rfl⟩
  have hciphers : ciphersFromStates w.ciphers false
      = .ok (⟨cs.2.unsafeKey⟩, ⟨cs.1.unsafeKey⟩) :=
    ciphersFromStates_ok.mpr ⟨cs.1, cs.2, hcs, rfl⟩
  exact ⟨_, handleStage0_ok.mpr
    ⟨s, idx, wire, _, _, hread, hbuild, hwrite wire src, hciphers, rfl⟩, rfl⟩

/-- The certificate of the session is the one in the datagram. -/
theorem cert_of_handleStage0 {env : Env P} {src : UDPAddr} {host : HostInfo} {s : Stage0 P}
    (hok : (m.handleStage0 env pkt src).2 = .ok host) (hread : m.readStage0 env.now pkt = .ok s) :
    host.cert = some s.senderCert := by
  obtain ⟨s', idx, wire, cs, ciphers, hread', -, -, -, rfl⟩ := handleStage0_ok.mp hok
  rw [Except.ok.inj (hread.symm.trans hread')]
  rfl

/-- For a message written with `k`, the two identities agree if and only if `k` is the key of the
certificate; without a session there is nothing to agree. -/
theorem authenticates_iff_of_writtenBy (hlearns : P.LearnsInitiator) (hkey : P.ValidKey m.localKey)
    {env : Env P} {src : UDPAddr} {msg : HandshakeMessage} {details : HandshakeDetails}
    {cert : Certificate} {k : DHKey} (henv : Envelope m env.now pkt msg details cert)
    (hk : WrittenBy m cert msg.noisePayload k) :
    m.Authenticates env pkt src ↔
      k.publicKey = cert.x25519PublicKey ∨ m.Refuses env pkt src := by
  constructor
  · intro hauth
    by_cases hrefuses : m.Refuses env pkt src
    · exact .inr hrefuses
    · left
      unfold Refuses at hrefuses
      push Not at hrefuses
      obtain ⟨host, hok⟩ := hrefuses
      obtain ⟨s, _, _, _, _, hread, -⟩ := handleStage0_ok.mp hok
      obtain ⟨hcert, hpeer⟩ := peerStatic_of_writtenBy hlearns hkey henv hk hread
      have hsame := hauth host s hok hread
      rw [cert_of_handleStage0 hok hread, hcert, hpeer] at hsame
      exact (Option.some.inj hsame).symm
  · rintro (hown | hrefuses) host s hok hread
    · obtain ⟨hcert, hpeer⟩ := peerStatic_of_writtenBy hlearns hkey henv hk hread
      rw [cert_of_handleStage0 hok hread, hcert, hpeer, hown]
      rfl
    · exact absurd hok (hrefuses host)

/-- **The responder authenticates the datagrams written with the certificate's key.**  Whatever the
world around the call does, the key Noise has learned is that of the certificate the session is
installed with if the message was written with that key, or no session is installed.  For a message
that was written with any `k` at all this is exact.  And a message that the holder of a key pair
has written does lead to a session, unless the world around the call fails. -/
theorem handleStage0_authenticates_iff (hlearns : P.LearnsInitiator) (hnoise : P.IKpsk0)
    (hcodecs : P.Codecs) (m : HandshakeManager P) (hkey : P.ValidKey m.localKey) (pkt : Bytes)
    (src : UDPAddr) :
    (∀ env, m.WrittenByOwner env.now pkt ∨ m.Refuses env pkt src →
      m.Authenticates env pkt src) ∧
    (∀ env msg details cert k, Envelope m env.now pkt msg details cert →
      WrittenBy m cert msg.noisePayload k →
      (m.Authenticates env pkt src ↔
        k.publicKey = cert.x25519PublicKey ∨ m.Refuses env pkt src)) ∧
    ∀ hdr now msg details cert k, Header.parse pkt = .ok hdr → Envelope m now pkt msg details cert →
      WrittenBy m cert msg.noisePayload k → P.ValidKey k →
      ∃ env, env.now = now ∧ ¬ m.Refuses env pkt src := by
  refine ⟨?_, ?_, ?_⟩
  · rintro env (⟨msg, details, cert, k, henv, hk, hown⟩ | hrefuses)
    · exact (authenticates_iff_of_writtenBy hlearns hkey henv hk).mpr (.inl hown)
    · exact fun host s hok _ => absurd hok (hrefuses host)
  · intro env msg details cert k henv hk
    exact authenticates_iff_of_writtenBy hlearns hkey henv hk
  · intro hdr now msg details cert k hhdr henv hk hvalid
    obtain ⟨hs, hread, hanswer⟩ := readStage0_of_writtenBy hnoise hkey hhdr henv hk hvalid
    obtain ⟨-, ⟨-, e, -⟩, -⟩ := hk
    obtain ⟨w, cs, hw, hcs⟩ := hanswer e
    -- a world in which nothing fails at that time
    let env : Env P := ⟨now, .ok 0, e, fun _ _ => .ok (), []⟩
    obtain ⟨host, hok, -⟩ := exists_handleStage0_ok hcodecs env src rfl (fun _ _ => rfl)
      hread hw hcs
    exact ⟨env, rfl, fun hrefuses => hrefuses host hok⟩

/-! ### An honest and a forged initiation -/

section Concrete

open Symbolic

/-- The manager of a node that holds the certificate of node `n` and the key pair of node `k`. -/
def nodeManager (n k : UInt8) : HandshakeManager platform :=
  .new (nodeCert n [[n]]) (nodeKey k) [caCert]

/-- The initiation such a node sends to node 2. -/
def initiation (n k : UInt8) : Bytes :=
  match (nodeManager n k).newPending (calmEnv 7 [9]) (nodeIP 2) (nodeAddr 2) (nodeCert 2 [[2]]) with
  | .ok ph => ph.stage0msg
  | .error _ => []

/-- What node 2 finds in an initiation with the certificate of node 1: the key pair that was
used. -/
theorem writtenBy_initiation {k : UInt8}
    (hread : (((nodeManager 2 2).readStage0 0 (initiation 1 k)).toOption.map (·.senderCert))
      = some (nodeCert 1 [[1]]))
    (hnoise : ((platform.unmarshalMessage ((initiation 1 k).drop headerLen)).toOption.map
      (·.noisePayload)) = some (Framing.frames [(nodeKey k).publicKey, (nodeKey 2).publicKey,
        derivePreSharedKey platform (nodeCert 2 [[2]]) (nodeCert 1 [[1]]), [9], []])) :
    ∃ msg details, Envelope (nodeManager 2 2) 0 (initiation 1 k) msg details (nodeCert 1 [[1]]) ∧
      WrittenBy (nodeManager 2 2) (nodeCert 1 [[1]]) msg.noisePayload (nodeKey k) := by
  obtain ⟨s, hs, hcert⟩ := Fallible.ok_of_toOption hread
  obtain ⟨-, msg, henv, -⟩ := readStage0_ok.mp hs
  rw [hcert] at henv
  obtain ⟨msg', hmsg', hpayload⟩ := Fallible.ok_of_toOption hnoise
  obtain rfl := Except.ok.inj (henv.message.symm.trans hmsg')
  refine ⟨msg, s.details, henv, _, firstMessage_frames (nodeKey k) (nodeKey 2).publicKey
    (derivePreSharedKey platform (nodeCert 2 [[2]]) (nodeCert 1 [[1]])) [9] [] ?_, hpayload.symm⟩
  exact length_derivePreSharedKey _ _

/-- Node 2 answers an initiation that node 1 wrote and one that node 3 wrote, both with the
certificate of node 1.  The first is authenticated and the second is not. -/
theorem handleStage0_authenticates_1_not_3 :
    platform.ValidKey (nodeManager 2 2).localKey ∧
      (nodeManager 2 2).Authenticates (calmEnv 8 [5]) (initiation 1 1) (nodeAddr 1) ∧
      ¬ (nodeManager 2 2).Refuses (calmEnv 8 [5]) (initiation 1 1) (nodeAddr 1) ∧
      ¬ (nodeManager 2 2).Authenticates (calmEnv 8 [5]) (initiation 1 3) (nodeAddr 3) := by
  have hkey : platform.ValidKey (nodeManager 2 2).localKey := ⟨rfl, rfl⟩
  obtain ⟨msg, details, henv, hk⟩ := writtenBy_initiation (k := 1) (by decide +kernel)
    (by decide +kernel)
  obtain ⟨msg', details', henv', hk'⟩ := writtenBy_initiation (k := 3) (by decide +kernel)
    (by decide +kernel)
  obtain ⟨howner, -⟩ := handleStage0_authenticates_iff learnsInitiator ikpsk0 codecs
    (nodeManager 2 2) hkey (initiation 1 1) (nodeAddr 1)
  obtain ⟨-, hiff, -⟩ := handleStage0_authenticates_iff learnsInitiator ikpsk0 codecs
    (nodeManager 2 2) hkey (initiation 1 3) (nodeAddr 3)
  have hanswers : ∀ n k, ((nodeManager 2 2).handleStage0 (calmEnv 8 [5]) (initiation 1 n)
      (nodeAddr k)).2.isOk = true →
      ¬ (nodeManager 2 2).Refuses (calmEnv 8 [5]) (initiation 1 n) (nodeAddr k) := by
    intro n k hok hrefuses
    cases hres : ((nodeManager 2 2).handleStage0 (calmEnv 8 [5]) (initiation 1 n)
      (nodeAddr k)).2 with
    | error e =>
        rw [hres] at hok
        cases hok
    | ok host => exact hrefuses host hres
  refine ⟨hkey, howner _ (.inl ⟨msg, details, _, _, henv, hk, rfl⟩),
    hanswers 1 1 (by decide +kernel), ?_⟩
  intro hauth
  rcases (hiff _ msg' details' _ _ henv' hk').mp hauth with hown | hrefuses
  · exact absurd hown (by decide)
  · exact hanswers 3 3 (by decide +kernel) hrefuses

/-- **A node without the key is let in.**  Whoever has seen the certificate of node 1 and holds any
key pair at all, here that of node 3, gets a session for node 1's address and groups. -/
theorem handleStage0_accepts_impostor :
    ∃ host s,
      ((nodeManager 2 2).handleStage0 (calmEnv 8 [5]) (initiation 1 3) (nodeAddr 3)).2 = .ok host ∧
      (nodeManager 2 2).readStage0 (calmEnv 8 [5]).now (initiation 1 3) = .ok s ∧
      host.vpnIP = nodeIP 1 ∧ host.cert = some (nodeCert 1 [[1]]) ∧
      platform.peerStatic s.state = (nodeKey 3).publicKey ∧
      host.cert.map (·.x25519PublicKey) ≠ some (platform.peerStatic s.state) := by
  have hhost : (((nodeManager 2 2).handleStage0 (calmEnv 8 [5]) (initiation 1 3)
      (nodeAddr 3)).2.toOption.map fun host => (host.vpnIP, host.cert))
      = some (nodeIP 1, some (nodeCert 1 [[1]])) := by
    decide +kernel
  have hread : (((nodeManager 2 2).readStage0 (calmEnv 8 [5]).now (initiation 1 3)).toOption.map
      fun s => s.state.peer) = some (nodeKey 3).publicKey := by
    decide +kernel
  obtain ⟨host, hok, hfields⟩ := Fallible.ok_of_toOption hhost
  obtain ⟨s, hs, hpeer⟩ := Fallible.ok_of_toOption hread
  obtain ⟨hip, hcert⟩ := Prod.mk.inj hfields
  refine ⟨host, s, hok, hs, hip, hcert, hpeer, ?_⟩
  rw [hcert, show platform.peerStatic s.state = (nodeKey 3).publicKey from hpeer]
  decide

end Concrete

end HandshakeManager

end Neth
