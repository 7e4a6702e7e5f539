/-
The orchestrator, `interface.go`: what a node does with a packet from the TUN device
and with a datagram from the network.

`Interface` is the state of one node.  Each goroutine of the daemon reacts to one
kind of `Event`, and `step` is the reaction; `run` is a whole run, with the effects
of every step.  A call is one step: the locks of the source make each access to a
shared table atomic, and the results about a node speak of whole calls.
-/
import Neth.HandshakeManager
import Neth.IPv4
import Neth.LightHouse
import Neth.Lib.Trace

namespace Neth

/-- `Interface`: the node itself, with the tables that its goroutines share. -/
structure Interface (P : Platform) where
  hostmap : HostMap
  handshakeMgr : HandshakeManager P
  fw : Firewall
  lighthouse : LightHouse
  punchy : Option Punchy
  peerCerts : GoMap Addr Certificate

variable {P : Platform}

/-! ### The data path of one session

A counter is marked in the replay window before the packet is decrypted, so also for a packet that
then turns out not to be genuine. -/

/-- Why a data packet got no further than its session. -/
inductive Dropped where
  | replay
  | decryptFailed (err : String)

variable (P) in
/-- The replay check and the decryption of `handleMessage`, in that order. -/
def HostInfo.receive (h : HostInfo) (hdr : Header) (pkt : Bytes) :
    HostInfo × Except Dropped Bytes :=
  let (h, replay) := h.checkReplay hdr.messageCounter
  if replay then
    (h, .error .replay)
  else
    match decrypt P h.recvCipher hdr.messageCounter (pkt.take headerLen) (pkt.drop headerLen) with
    | .error e => (h, .error (.decryptFailed e))
    | .ok plaintext => (h, .ok plaintext)

/-- The header `sendToRemote` writes. -/
def HostInfo.dataHeader (h : HostInfo) (counter : UInt64) : Header :=
  ⟨headerVersion, typeMessage, 0, h.remoteIndex, counter⟩

namespace Interface

/-- `sendToRemote`: the counter is taken first, then the packet is sealed under it. -/
def sendToRemote (I : Interface P) (env : Env P) (r : Ref) (plaintext : Bytes) :
    Interface P × List Effect :=
  match I.hostmap.deref r with
  | none => (I, [])
  | some (_, host) =>
      let counter := host.counter + 1
      let hdrBytes := (host.dataHeader counter).bytes
      let ct := encrypt P host.sendCipher counter hdrBytes plaintext
      ({ I with hostmap := I.hostmap.assign r { host with counter } },
        [.encrypted r hdrBytes plaintext ct, env.send (hdrBytes ++ ct) host.remote])

/-- `sendToRemote` for each packet of a list. -/
def sendAll (I : Interface P) (env : Env P) (r : Ref) : List Bytes → Interface P × List Effect
  | [] => (I, [])
  | pkt :: pkts =>
      let (I, effs) := I.sendToRemote env r pkt
      let (I, effs') := I.sendAll env r pkts
      (I, effs ++ effs')

/-- `onHandshakeComplete`. -/
def onHandshakeComplete (I : Interface P) (env : Env P) (h : HostInfo) (pending : List Bytes) :
    Interface P × List Effect :=
  let r := I.hostmap.hosts.length  -- the pointer to `h`
  let I := { I with
    hostmap := I.hostmap.add h
    peerCerts := match h.cert with
      | some c => Function.update I.peerCerts h.vpnIP (some c)
      | none => I.peerCerts }
  I.sendAll env r pending

/-- `AddPeerCert`. -/
def addPeerCert (I : Interface P) (vpnIP : Addr) (c : Certificate) : Interface P :=
  { I with peerCerts := Function.update I.peerCerts vpnIP (some c) }

/-! ### Packets from the TUN device

The firewall comes first, with the groups of the session there is; a peer without a session has no
groups.  What may go out and has no session is queued, which holds it only if a handshake is pending
by then. -/

/-- `consumeInsidePacket` after the firewall has admitted the packet. -/
def forwardInside (I : Interface P) (env : Env P) (dstIP : Addr) (pkt : Bytes) :
    Interface P × List Effect :=
  match I.hostmap.getByVpnIP dstIP with
  | some (r, _) => I.sendToRemote env r pkt
  | none =>
      let queued (m : HandshakeManager P) : Interface P :=
        { I with handshakeMgr := m.queuePacket dstIP pkt }
      match I.peerCerts dstIP with
      | none => (queued I.handshakeMgr, [])
      | some remoteCert =>
          match I.lighthouse.getAddrs dstIP with
          | [] => (queued I.handshakeMgr, I.lighthouse.queryPeer env dstIP)
          | addr :: _ =>
              match I.handshakeMgr.startHandshake env dstIP addr remoteCert with
              | (m, effs, .error _) => ({ I with handshakeMgr := m }, effs)
              | (m, effs, .ok ()) => (queued m, effs)

/-- The groups of a session's certificate, nil without a session or certificate. -/
def hostGroups (host : Option (Ref × HostInfo)) : List GoString :=
  match host with
  | some (_, h) => (h.cert.map (·.groups)).getD []
  | none => []

/-- `consumeInsidePacket`. -/
def consumeInsidePacket (I : Interface P) (env : Env P) (pkt : Bytes) :
    Interface P × List Effect :=
  match dstIPFromIPv4 pkt with
  | none => (I, [])
  | some dstIP =>
      let dstGroups := hostGroups (I.hostmap.getByVpnIP dstIP)
      let proto := protoFromIPv4 pkt
      let dstPort := dstPortFromIPv4 pkt
      let tracked := I.fw.ct.isEstablished (Firewall.key dstIP dstPort proto)
      let (fw, allowed) := I.fw.allowOutbound env.now dstIP dstGroups dstPort proto
      let I := { I with fw }
      let verdict := Effect.outbound pkt dstGroups tracked allowed
      if allowed then
        let (I, effs) := I.forwardInside env dstIP pkt
        (I, verdict :: effs)
      else (I, [verdict])

/-! ### Datagrams from the network

Which handler gets a datagram is decided on its header, which nothing has authenticated at that
point. -/

/-- `handleMessage` once the packet is decrypted: firewall, then TUN. -/
def deliver (I : Interface P) (env : Env P) (host : HostInfo) (plaintext : Bytes) :
    Interface P × List Effect :=
  match srcIPFromIPv4 plaintext with
  | none => (I, [])
  | some srcIP =>
      let srcGroups := (host.cert.map (·.groups)).getD []
      let inProto := protoFromIPv4 plaintext
      let dstPort := dstPortFromIPv4 plaintext
      let tracked := I.fw.ct.isEstablished (Firewall.key srcIP dstPort inProto)
      let (fw, allowed) := I.fw.allowInbound env.now srcIP srcGroups dstPort inProto
      ({ I with fw },
        .inbound plaintext srcGroups tracked allowed ::
          if allowed then [.tunWrite plaintext] else [])

/-- `handleMessage`. -/
def handleMessage (I : Interface P) (env : Env P) (pkt : Bytes) (hdr : Header) (src : UDPAddr) :
    Interface P × List Effect :=
  match I.hostmap.getByIndex hdr.remoteIndex with
  | none =>
      (I, match I.punchy with
        | some p => p.respondToPunch env src
        | none => [])
  | some (r, host) =>
      let (host, result) := host.receive P hdr pkt
      let I := { I with hostmap := I.hostmap.assign r host }
      match result with
      | .error _ => (I, [])
      | .ok plaintext =>
          let (I, effs) := I.deliver env host plaintext
          (I, .decrypted r (pkt.take headerLen) plaintext :: effs)

/-- `handleHandshake`. -/
def handleHandshake (I : Interface P) (env : Env P) (pkt : Bytes) (hdr : Header)
    (src : UDPAddr) : Interface P × List Effect :=
  if hdr.subType = handshakeInitiation then
    match I.handshakeMgr.handleStage0 env pkt src with
    | (sent, .error _) => (I, sent)
    | (sent, .ok host) =>
        let (I, effs) := I.onHandshakeComplete env host []
        (I, sent ++ effs)
  else if hdr.subType = handshakeResponse then
    match I.handshakeMgr.handleStage1 env.now pkt with
    | (m, .error _) => ({ I with handshakeMgr := m }, [])
    | (m, .ok (host, pending)) => { I with handshakeMgr := m }.onHandshakeComplete env host pending
  else (I, [])

/-- `handleLightHouse`. -/
def handleLightHouse (I : Interface P) (env : Env P) (pkt : Bytes) (hdr : Header)
    (src : UDPAddr) : Interface P × List Effect :=
  let senderVPN := match I.hostmap.getByIndex hdr.remoteIndex with
    | some (_, host) => some host.vpnIP
    | none => I.lighthouse.vpnIPByAddr env src
  match senderVPN with
  | none => (I, [])
  | some senderVPN =>
      match P.unmarshalLightHouse (pkt.drop headerLen) with
      | .error _ => (I, [])
      | .ok msg =>
          let (lighthouse, effs) := I.lighthouse.handleMessage env msg senderVPN
          ({ I with lighthouse }, effs)

/-- `handleTest`. -/
def handleTest (env : Env P) (src : UDPAddr) : List Effect :=
  [env.send (Header.bytes ⟨headerVersion, typeTest, 0, 0, 0⟩) src]

/-- `handleCloseTunnel`. -/
def handleCloseTunnel (I : Interface P) (hdr : Header) : Interface P :=
  match I.hostmap.getByIndex hdr.remoteIndex with
  | some (_, host) => { I with hostmap := I.hostmap.remove host.vpnIP }
  | none => I

/-- `consumeOutsidePacket`. -/
def consumeOutsidePacket (I : Interface P) (env : Env P) (pkt : Bytes) (src : UDPAddr) :
    Interface P × List Effect :=
  if pkt.length < headerLen then (I, [])
  else
    match Header.parse pkt with
    | .error _ => (I, [])
    | .ok hdr =>
        if hdr.type = typeMessage then I.handleMessage env pkt hdr src
        else if hdr.type = typeHandshake then I.handleHandshake env pkt hdr src
        else if hdr.type = typeLightHouse then I.handleLightHouse env pkt hdr src
        else if hdr.type = typeTest then (I, handleTest env src)
        else if hdr.type = typeCloseTunnel then (I.handleCloseTunnel hdr, [])
        else (I, [])

/-! ### Runs of a node

An event is what one of the goroutines of `Run` reacts to.  Here a reaction is one step; the steps
inside it are told apart in `Concurrent`. -/

/-- What the goroutines of `Run` react to. -/
inductive Event where
  /-- `readFromTUN` got a packet. -/
  | inside (pkt : Bytes)
  /-- `readFromUDP` got a datagram. -/
  | outside (pkt : Bytes) (src : UDPAddr)
  /-- A tick of `HandshakeManager.Run`. -/
  | retry
  /-- A tick of `RunExpiry`. -/
  | expire
  /-- A tick of `LightHouse.Run`. -/
  | advertise

/-- One reaction. -/
def step (I : Interface P) (e : Env P × Event) : Interface P × List Effect :=
  match e.2 with
  | .inside pkt => I.consumeInsidePacket e.1 pkt
  | .outside pkt src => I.consumeOutsidePacket e.1 pkt src
  | .retry =>
      let (m, effs) := I.handshakeMgr.retryPending e.1
      ({ I with handshakeMgr := m }, effs)
  | .expire => ({ I with fw := I.fw.runExpiry e.1.now }, [.expired e.1.now])
  | .advertise => (I, I.lighthouse.advertise e.1)

/-- A run: the state it ends in, and the effects of its steps in order. -/
def run (I : Interface P) (es : List (Env P × Event)) : Interface P × List (List Effect) :=
  Trace.run step I es

/-- `NewInterface`, with the certificates `loadPeerCerts` read. -/
def new (localCert : Certificate) (localKey : DHKey) (caPool : List Certificate) (fw : Firewall)
    (lighthouse : LightHouse) (punchy : Option Punchy) (peers : List Certificate) : Interface P :=
  peers.foldl (fun I c => I.addPeerCert c.vpnIP.addr c)
    { hostmap := .new
      handshakeMgr := .new localCert localKey caPool
      fw
      lighthouse := match punchy with
        | some p => lighthouse.setPunchy p
        | none => lighthouse
      punchy
      peerCerts := fun _ => none }

end Interface

end Neth
