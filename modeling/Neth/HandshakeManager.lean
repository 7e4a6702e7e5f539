/-
The handshake manager, `handshake_manager.go`.

Pending handshakes are objects like sessions: `pending` and `indexMap` hold pointers to
them, and queueing a packet through one map is seen through the other.

A handler that can fail in many places is cut where its checks end.  `readStage0` is
`HandleStage0` up to and including the Noise read, and `readStage1` is `HandleStage1`
after the index lookup; both are pure, so that a failure there says by itself what has
not happened yet.

Each function is one step here.  In the code `HandleStage1` releases its mutex after the
lookup, and `HandleStage0` takes none; the steps in which other calls may come between
are told apart in `Concurrent.lean`.
-/
import Neth.Handshake
import Neth.Header
import Neth.HostMap

namespace Neth

/-- How many packets wait for one handshake; a further one displaces the oldest. -/
def maxPendingPackets : Nat := 50

/-- How often an initiation is sent, counting the first time. -/
def maxHandshakeAttempts : Nat := 10

/-- The delay before the first retransmission. -/
def retryBase : Time := 500 * 1000000

/-- No delay is longer. -/
def retryMax : Time := 30 * 1000000000

/-- `pendingHandshake`: an initiation that has been sent and not been answered yet. -/
structure PendingHandshake (P : Platform) where
  state : P.HandshakeState
  localIndex : UInt32
  remoteVpnIP : Addr
  remoteAddr : UDPAddr
  /-- Packets waiting for the session to establish. -/
  pendingPackets : List Bytes
  attempts : Nat
  nextRetry : Time
  /-- The wire packet to retransmit. -/
  stage0msg : Bytes

/-- `HandshakeManager`: what the node shows of itself, whom it believes, and the handshakes it has
started, under the VPN IP of the peer and under the local index. -/
structure HandshakeManager (P : Platform) where
  localCert : Certificate
  localKey : DHKey
  caPool : List Certificate
  /-- Every pending handshake ever started; a `Ref` is a position in it. -/
  handshakes : List (PendingHandshake P)
  pending : GoMap Addr Ref
  indexMap : GoMap UInt32 Ref

variable {P : Platform}

/-! ### Wire packets

Both messages have the same envelope: the details with the certificate of the sender and the
indexes, the Noise message, and an HMAC over the two, behind a header. -/

variable (P) in
/-- `marshalHandshakePacket`. -/
def marshalHandshakePacket (msg : HandshakeMessage) (remoteIndex : UInt32)
    (subtype : HandshakeSubType) : Except String Bytes := do
  let hdr : Header := ⟨headerVersion, typeHandshake, subtype, remoteIndex, 0⟩
  let body ← (P.marshalMessage msg).mapError ("handshake: marshal message: " ++ ·)
  pure (hdr.bytes ++ body)

variable (P) in
/-- `buildHandshakePacket`. -/
def buildHandshakePacket (localCert : Certificate) (noiseMsg : Bytes) (localIndex : UInt32)
    (subtype : HandshakeSubType) (now : Time) : Except String Bytes := do
  let outerMsg ← buildInitiatorMessage P localCert noiseMsg localIndex now
  marshalHandshakePacket P outerMsg 0 subtype

/-- `ciphersFromStates`: the send and the receive cipher.  Noise numbers them by direction, the
first from initiator to responder. -/
def ciphersFromStates (cs : Option (CipherState × CipherState)) (isInitiator : Bool) :
    Except String (AEAD × AEAD) :=
  match cs with
  | none =>
      -- a nil `*CipherState`: the pattern was not finished, which after the last message of
      -- IK does not happen
      throw "runtime error: invalid memory address or nil pointer dereference"
  | some (cs1, cs2) => do
      let c1 ← cipherFromState cs1
      let c2 ← cipherFromState cs2
      pure (if isInitiator then (c1, c2) else (c2, c1))

namespace HandshakeManager

/-- `NewHandshakeManager`. -/
def new (localCert : Certificate) (localKey : DHKey) (caPool : List Certificate) :
    HandshakeManager P :=
  ⟨localCert, localKey, caPool, [], fun _ => none, fun _ => none⟩

/-- The entry of `pending` for a VPN IP. -/
def getPending (m : HandshakeManager P) (ip : Addr) : Option (PendingHandshake P) :=
  (m.pending ip).bind (m.handshakes[·]?)

/-- The entry of `indexMap` for a local index. -/
def getIndex (m : HandshakeManager P) (idx : UInt32) : Option (PendingHandshake P) :=
  (m.indexMap idx).bind (m.handshakes[·]?)

/-! ### Starting a handshake

The initiation is complete before the handshake is entered, so nothing is left behind where a step
fails.  The handshake stays entered if the datagram does not get out; only the caller is told. -/

/-- `StartHandshake` up to the object it stores: index, Noise state and first message. -/
def newPending (m : HandshakeManager P) (env : Env P) (remoteVpnIP : Addr) (addr : UDPAddr)
    (remoteCert : Certificate) : Except String (PendingHandshake P) := do
  let localIndex ← env.index.mapError ("handshake: random index: " ++ ·)
  let psk := derivePreSharedKey P m.localCert remoteCert
  let hs ← (newInitiatorState P m.localKey remoteCert.x25519PublicKey psk).mapError
    ("handshake: initiator state: " ++ ·)
  let w ← (P.writeMessage hs env.entropy []).mapError ("handshake: write stage-0: " ++ ·)
  let wireBytes ← buildHandshakePacket P m.localCert w.message localIndex handshakeInitiation
    env.now
  pure { state := w.state
         localIndex := localIndex
         remoteVpnIP := remoteVpnIP
         remoteAddr := addr
         pendingPackets := []
         attempts := 1
         nextRetry := env.now + retryBase
         stage0msg := wireBytes }

/-- A new object entered into both maps. -/
def insert (m : HandshakeManager P) (ph : PendingHandshake P) : HandshakeManager P :=
  { m with
    handshakes := m.handshakes ++ [ph]
    pending := Function.update m.pending ph.remoteVpnIP (some m.handshakes.length)
    indexMap := Function.update m.indexMap ph.localIndex (some m.handshakes.length) }

/-- `StartHandshake`. -/
def startHandshake (m : HandshakeManager P) (env : Env P) (remoteVpnIP : Addr) (addr : UDPAddr)
    (remoteCert : Certificate) : HandshakeManager P × List Effect × Except String Unit :=
  match m.pending remoteVpnIP with
  | some _ => (m, [], pure ())  -- already in progress
  | none =>
      match m.newPending env remoteVpnIP addr remoteCert with
      | .error e => (m, [], throw e)
      | .ok ph => (m.insert ph, [env.send ph.stage0msg addr], env.writeTo ph.stage0msg addr)

/-! ### The responder

A responder keeps nothing between the two messages.  It answers an initiation at once and hands the
session over, so that every copy of an initiation makes a session. -/

/-- What `HandleStage0` knows of a message once Noise has read it. -/
structure Stage0 (P : Platform) where
  details : HandshakeDetails
  senderCert : Certificate
  state : P.HandshakeState

/-- `HandleStage0` up to and including `ReadMessage`. -/
def readStage0 (m : HandshakeManager P) (now : Time) (pkt : Bytes) : Except String (Stage0 P) := do
  if pkt.length < headerLen then
    throw ("handshake: stage0 packet too short: " ++ toString pkt.length)
  let _ ← (Header.parse pkt).mapError ("handshake: parse header: " ++ ·)
  let msg ← parseHandshakeMessage P (pkt.drop headerLen)
  let details ← parseDetails P msg
  let senderCert ← (Certificate.parse P details.cert).mapError
    ("handshake: parse sender cert: " ++ ·)
  (senderCert.verify P m.caPool now).mapError ("handshake: cert verify: " ++ ·)
  verifyHMAC P msg senderCert
  let psk := derivePreSharedKey P m.localCert senderCert
  let hs ← newResponderState P m.localKey psk
  match P.readMessage hs msg.noisePayload with
  | (.error e, _) => throw ("handshake: noise read stage-0: " ++ e)
  | (.ok _, hs') => pure ⟨details, senderCert, hs'⟩

/-- The reply of `HandleStage0`: the local index, the datagram and the cipher states. -/
def buildStage1 (m : HandshakeManager P) (env : Env P) (s : Stage0 P) :
    Except String (UInt32 × Bytes × Option (CipherState × CipherState)) := do
  let localIndex ← env.index
  let w ← (P.writeMessage s.state env.entropy []).mapError ("handshake: noise write stage-1: " ++ ·)
  let respMsg ← buildResponderMessage P m.localCert w.message s.details.initiatorIndex localIndex
    env.now
  let respBytes ← marshalHandshakePacket P respMsg s.details.initiatorIndex handshakeResponse
  pure (localIndex, respBytes, w.ciphers)

/-- The session object of `HandleStage0`. -/
def stage0Host (s : Stage0 P) (src : UDPAddr) (localIndex : UInt32) (ciphers : AEAD × AEAD) :
    HostInfo where
  toReplayWindow := .fresh
  vpnIP := s.senderCert.vpnIP.addr
  remote := src
  index := localIndex
  remoteIndex := s.details.initiatorIndex
  sendCipher := ciphers.1
  recvCipher := ciphers.2
  counter := 0
  cert := some s.senderCert

/-- `HandleStage0`: the datagrams it sends, and the session handed to `onComplete` or the error.
The manager is not changed. -/
def handleStage0 (m : HandshakeManager P) (env : Env P) (pkt : Bytes) (src : UDPAddr) :
    List Effect × Except String HostInfo :=
  match m.readStage0 env.now pkt with
  | .error e => ([], throw e)
  | .ok s =>
      match m.buildStage1 env s with
      | .error e => ([], throw e)
      | .ok (localIndex, respBytes, cs) =>
          match env.writeTo respBytes src with
          | .error e => ([env.send respBytes src], throw ("handshake: send stage-1: " ++ e))
          | .ok () =>
              match ciphersFromStates cs false with
              | .error e => ([env.send respBytes src], throw e)
              | .ok ciphers =>
                  ([env.send respBytes src], pure (stage0Host s src localIndex ciphers))

/-! ### The initiator

The pending handshake is taken out of both maps before its response is read.  A response that turns
out to be no good has ended the handshake all the same. -/

/-- What `HandleStage1` learns from a response. -/
structure Stage1 where
  details : HandshakeDetails
  responderCert : Certificate
  ciphers : AEAD × AEAD

/-- `HandleStage1` after the index lookup, up to the session object: the seven checks. -/
def readStage1 (m : HandshakeManager P) (now : Time) (ph : PendingHandshake P) (pkt : Bytes) :
    Except String Stage1 := do
  let msg ← parseHandshakeMessage P (pkt.drop headerLen)
  let details ← parseDetails P msg
  let responderCert ← (Certificate.parse P details.cert).mapError
    ("handshake: parse responder cert: " ++ ·)
  (responderCert.verify P m.caPool now).mapError ("handshake: cert verify: " ++ ·)
  verifyHMAC P msg responderCert
  let r ← (P.readMessage ph.state msg.noisePayload).1.mapError
    ("handshake: noise read stage-1: " ++ ·)
  let ciphers ← ciphersFromStates r.ciphers true
  pure ⟨details, responderCert, ciphers⟩

/-- The session object of `HandleStage1`. -/
def stage1Host (ph : PendingHandshake P) (s : Stage1) : HostInfo where
  toReplayWindow := .fresh
  vpnIP := ph.remoteVpnIP
  remote := ph.remoteAddr
  index := ph.localIndex
  remoteIndex := s.details.responderIndex
  sendCipher := s.ciphers.1
  recvCipher := s.ciphers.2
  counter := 0
  cert := some s.responderCert

/-- The manager once `HandleStage1` has taken an entry out of both maps. -/
def take (m : HandshakeManager P) (idx : UInt32) (ph : PendingHandshake P) : HandshakeManager P :=
  { m with
    pending := Function.update m.pending ph.remoteVpnIP none
    indexMap := Function.update m.indexMap idx none }

/-- `HandleStage1`: the manager afterwards, and the session and queue handed to `onComplete` or
the error. -/
def handleStage1 (m : HandshakeManager P) (now : Time) (pkt : Bytes) :
    HandshakeManager P × Except String (HostInfo × List Bytes) :=
  if pkt.length < headerLen then
    (m, throw ("handshake: stage1 packet too short: " ++ toString pkt.length))
  else
    match Header.parse pkt with
    | .error e => (m, throw ("handshake: parse header: " ++ e))
    | .ok h =>
        match m.getIndex h.remoteIndex with
        | none => (m, throw ("handshake: unknown RemoteIndex " ++ toString h.remoteIndex))
        | some ph =>
            -- both entries are deleted here, before anything in the packet is checked
            match m.readStage1 now ph pkt with
            | .error e => (m.take h.remoteIndex ph, throw e)
            | .ok s => (m.take h.remoteIndex ph, pure (stage1Host ph s, ph.pendingPackets))

/-! ### Queueing and retransmission

The delays double up to a limit.  A handshake that has been sent often enough is dropped at its next
turn, with the packets that wait for it. -/

/-- `QueuePacket`. -/
def queuePacket (m : HandshakeManager P) (remoteVpnIP : Addr) (pkt : Bytes) :
    HandshakeManager P :=
  match m.pending remoteVpnIP with
  | none => m
  | some r =>
      { m with handshakes := m.handshakes.modify r fun ph =>
          let kept := if ph.pendingPackets.length ≥ maxPendingPackets
            then ph.pendingPackets.drop 1  -- drop oldest
            else ph.pendingPackets
          { ph with pendingPackets := kept ++ [pkt] } }

/-- The wait before the next transmission. -/
def retryDelay (attempts : Nat) : Time := min (retryBase * 2 ^ min attempts 6) retryMax

/-- One turn of the loop of `retryPending`. -/
def retryOne (env : Env P) (m : HandshakeManager P) (vpnIP : Addr) :
    HandshakeManager P × List Effect :=
  match m.pending vpnIP with
  | none => (m, [])
  | some r =>
      match m.handshakes[r]? with
      | none => (m, [])
      | some ph =>
          if env.now < ph.nextRetry then (m, [])
          else if ph.attempts ≥ maxHandshakeAttempts then
            ({ m with
                pending := Function.update m.pending vpnIP none
                indexMap := Function.update m.indexMap ph.localIndex none }, [])
          else
            let ph' := { ph with
              attempts := ph.attempts + 1
              nextRetry := env.now + retryDelay (ph.attempts + 1) }
            ({ m with handshakes := m.handshakes.set r ph' },
              [env.send ph.stage0msg ph.remoteAddr])

/-- `retryPending`, visiting the entries in the order of the iteration. -/
def retryPending (m : HandshakeManager P) (env : Env P) : HandshakeManager P × List Effect :=
  env.order.foldl
    (fun acc vpnIP =>
      let (m, effs) := retryOne env acc.1 vpnIP
      (m, acc.2 ++ effs))
    (m, [])

end HandshakeManager

end Neth
