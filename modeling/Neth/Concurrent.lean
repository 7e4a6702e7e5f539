/-
The goroutines of one node, `Run` of `interface.go`, step by step.

`Interface.step` takes a whole call as one step.  Here a call is a task, and a step of it
is one access to what the goroutines share: one call under a mutex, one atomic add, one
write to the socket.  Between two steps of one call the other calls take any number of
theirs.  The source runs one call at a time in each goroutine; here any number of calls of
any kind is under way, so that its interleavings are among those of the model.

Local work is done with the step before or after it.  The lighthouse, whose tables nothing
else reads in between, and a turn of each timer are single steps.
-/
import Neth.Interface
import Neth.Lib.Interleave

namespace Neth

open Interleave

/-- The Noise handshake state a session comes from: that of a pending handshake, or the one that
`NewResponderState` made after `k` others. -/
inductive Origin where
  | initiator (ph : Ref)
  | responder (k : Nat)
  deriving DecidableEq

/-- A call of `Encrypt` by `sendToRemote`. -/
structure EncryptCall where
  session : Ref
  aead : AEAD
  counter : UInt64
  header : Bytes
  plaintext : Bytes
  deriving DecidableEq

/-- The nonce that `Encrypt` hands to `Seal`, as `wire_eq` below says. -/
def EncryptCall.nonce (c : EncryptCall) : Bytes := counterNonce c.counter

/-- The datagram `sendToRemote` makes of the result. -/
def EncryptCall.wire (P : Platform) (c : EncryptCall) : Bytes :=
  c.header ++ encrypt P c.aead c.counter c.header c.plaintext

theorem EncryptCall.wire_eq (P : Platform) (c : EncryptCall) :
    c.wire P = c.header ++ P.gcmSeal c.aead.key c.nonce c.plaintext c.header :=
  rfl

/-- What a step leaves behind.  The notes change nothing: they are what the theorems about
interleavings speak of. -/
inductive Note where
  | effect (e : Effect)
  /-- `StartHandshake` returned, and whether it returned nil. -/
  | started (ok : Bool)
  /-- A handshake state is now in the hands of one call of `HandleStage0` or `HandleStage1`. -/
  | claimed (o : Origin)
  /-- `onComplete` was called with the session object and the packets, and `Add` has stored the
  object as session `r`. -/
  | added (o : Origin) (r : Ref) (h : HostInfo) (pending : List Bytes)
  /-- `Counter.Add(1)` returned `counter`. -/
  | took (r : Ref) (counter : UInt64)
  | encrypted (call : EncryptCall)
  deriving DecidableEq

/-- The effect a note stands for, if it stands for one. -/
def Note.effect? : Note → Option Effect
  | .effect e => some e
  | _ => none

/-- The effects among the notes. -/
def effects (notes : List Note) : List Effect := notes.filterMap Note.effect?

/-- Where a call is: the step that it takes next, with what it has in its variables. -/
inductive Task (P : Platform) where
  /-- `consumeInsidePacket`, at `GetByVpnIP`. -/
  | inside (env : Env P) (pkt : Bytes)
  | allowOutbound (env : Env P) (dstIP : Addr) (pkt : Bytes) (host : Option Ref)
      (groups : List GoString)
  | getPeerCert (env : Env P) (dstIP : Addr) (pkt : Bytes)
  | getAddrs (env : Env P) (dstIP : Addr) (pkt : Bytes) (remoteCert : Certificate)
  | startHandshake (env : Env P) (dstIP : Addr) (pkt : Bytes) (addr : UDPAddr)
      (remoteCert : Certificate)
  | queuePacket (dstIP : Addr) (pkt : Bytes)
  /-- `sendToRemote` for each of the packets, at `Counter.Add`. -/
  | send (env : Env P) (r : Ref) (pkts : List Bytes)
  /-- `sendToRemote`, at `Encrypt`; the other packets are still to be sent. -/
  | encrypt (env : Env P) (r : Ref) (counter : UInt64) (pkt : Bytes) (pkts : List Bytes)
  /-- `consumeOutsidePacket`. -/
  | outside (env : Env P) (pkt : Bytes) (src : UDPAddr)
  | checkReplay (env : Env P) (pkt : Bytes) (hdr : Header) (r : Ref)
  | deliver (env : Env P) (host : HostInfo) (plaintext : Bytes)
  | handleStage0 (env : Env P) (pkt : Bytes) (src : UDPAddr)
  /-- `HandleStage1`, at the lookup and removal of the pending entry. -/
  | handleStage1 (env : Env P) (pkt : Bytes)
  /-- `HandleStage1`, at the checks. -/
  | readStage1 (env : Env P) (pkt : Bytes) (ph : Ref)
  /-- `onHandshakeComplete`, at `Add`. -/
  | add (env : Env P) (o : Origin) (h : HostInfo) (pending : List Bytes)
  /-- `onHandshakeComplete`, at the entry of the certificate. -/
  | storeCert (env : Env P) (r : Ref) (h : HostInfo) (pending : List Bytes)
  | remove (ip : Addr)
  | retryPending (env : Env P)
  | runExpiry (env : Env P)
  | advertise (env : Env P)
  | done

/-- What the goroutines share. -/
structure Shared (P : Platform) where
  node : Interface P
  /-- How many states `NewResponderState` has made. -/
  responders : Nat

variable {P : Platform}

namespace Shared

/-- The step changes the manager and nothing else. -/
def setManager (s : Shared P) (m : HandshakeManager P) : Shared P :=
  { s with node := { s.node with handshakeMgr := m } }

/-- The step changes the session table and nothing else. -/
def setHostmap (s : Shared P) (m : HostMap) : Shared P :=
  { s with node := { s.node with hostmap := m } }

end Shared

namespace Task

/-- The first step of `consumeOutsidePacket`: everything up to the first access to a shared table,
and that access. -/
def dispatch (s : Shared P) (env : Env P) (pkt : Bytes) (src : UDPAddr) :
    Shared P × List Note × Task P :=
  if pkt.length < headerLen then (s, [], .done)
  else
    match Header.parse pkt with
    | .error _ => (s, [], .done)
    | .ok hdr =>
        if hdr.type = typeMessage then
          match s.node.hostmap.getByIndex hdr.remoteIndex with
          | none =>
              (s, (match s.node.punchy with
                | some p => p.respondToPunch env src
                | none => []).map .effect, .done)
          | some (r, _) => (s, [], .checkReplay env pkt hdr r)
        else if hdr.type = typeHandshake then
          if hdr.subType = handshakeInitiation then (s, [], .handleStage0 env pkt src)
          else if hdr.subType = handshakeResponse then (s, [], .handleStage1 env pkt)
          else (s, [], .done)
        else if hdr.type = typeLightHouse then
          let (node, effs) := s.node.handleLightHouse env pkt hdr src
          ({ s with node }, effs.map .effect, .done)
        else if hdr.type = typeTest then
          (s, (Interface.handleTest env src).map .effect, .done)
        else if hdr.type = typeCloseTunnel then
          match s.node.hostmap.getByIndex hdr.remoteIndex with
          | some (_, host) => (s, [], .remove host.vpnIP)
          | none => (s, [], .done)
        else (s, [], .done)

/-- `HandleStage1` up to where it lets go of the mutex. -/
def takePending (s : Shared P) (env : Env P) (pkt : Bytes) : Shared P × List Note × Task P :=
  if pkt.length < headerLen then (s, [], .done)
  else
    match Header.parse pkt with
    | .error _ => (s, [], .done)
    | .ok h =>
        match s.node.handshakeMgr.indexMap h.remoteIndex with
        | none => (s, [], .done)
        | some r =>
            match s.node.handshakeMgr.handshakes[r]? with
            | none => (s, [], .done)
            | some ph =>
                (s.setManager (s.node.handshakeMgr.take h.remoteIndex ph),
                  [.claimed (.initiator r)], .readStage1 env pkt r)

/-- One step: what it does to the shared state, the notes it leaves, and where the task is then. -/
def step (s : Shared P) : Task P → Shared P × List Note × Task P
  | .inside env pkt =>
      match dstIPFromIPv4 pkt with
      | none => (s, [], .done)
      | some dstIP =>
          let host := s.node.hostmap.getByVpnIP dstIP
          (s, [], .allowOutbound env dstIP pkt (host.map (·.1)) (Interface.hostGroups host))
  | .allowOutbound env dstIP pkt host groups =>
      let proto := protoFromIPv4 pkt
      let dstPort := dstPortFromIPv4 pkt
      let tracked := s.node.fw.ct.isEstablished (Firewall.key dstIP dstPort proto)
      let (fw, allowed) := s.node.fw.allowOutbound env.now dstIP groups dstPort proto
      ({ s with node := { s.node with fw } }, [.effect (.outbound pkt groups tracked allowed)],
        if allowed then
          match host with
          | some r => .send env r [pkt]
          | none => .getPeerCert env dstIP pkt
        else .done)
  | .getPeerCert env dstIP pkt =>
      match s.node.peerCerts dstIP with
      | none => (s, [], .queuePacket dstIP pkt)
      | some remoteCert => (s, [], .getAddrs env dstIP pkt remoteCert)
  | .getAddrs env dstIP pkt remoteCert =>
      match s.node.lighthouse.getAddrs dstIP with
      | [] => (s, (s.node.lighthouse.queryPeer env dstIP).map .effect, .queuePacket dstIP pkt)
      | addr :: _ => (s, [], .startHandshake env dstIP pkt addr remoteCert)
  | .startHandshake env dstIP pkt addr remoteCert =>
      match s.node.handshakeMgr.startHandshake env dstIP addr remoteCert with
      | (m, effs, .error _) => (s.setManager m, effs.map .effect ++ [.started false], .done)
      | (m, effs, .ok ()) =>
          (s.setManager m, effs.map .effect ++ [.started true], .queuePacket dstIP pkt)
  | .queuePacket dstIP pkt =>
      (s.setManager (s.node.handshakeMgr.queuePacket dstIP pkt), [], .done)
  | .send _ _ [] => (s, [], .done)
  | .send env r (pkt :: pkts) =>
      match s.node.hostmap.hosts[r]? with
      | none => (s, [], .done)
      | some host =>
          let counter := host.counter + 1
          (s.setHostmap (s.node.hostmap.assign r { host with counter }), [.took r counter],
            .encrypt env r counter pkt pkts)
  | .encrypt env r counter pkt pkts =>
      match s.node.hostmap.hosts[r]? with
      | none => (s, [], .done)
      | some host =>
          let hdrBytes := (host.dataHeader counter).bytes
          let call : EncryptCall := ⟨r, host.sendCipher, counter, hdrBytes, pkt⟩
          let ct := Neth.encrypt P host.sendCipher counter hdrBytes pkt
          (s, [.encrypted call, .effect (.encrypted r hdrBytes pkt ct),
            .effect (env.send (call.wire P) host.remote)], .send env r pkts)
  | .outside env pkt src => dispatch s env pkt src
  | .checkReplay env pkt hdr r =>
      match s.node.hostmap.hosts[r]? with
      | none => (s, [], .done)
      | some host =>
          let (host, result) := host.receive P hdr pkt
          let s := s.setHostmap (s.node.hostmap.assign r host)
          match result with
          | .error _ => (s, [], .done)
          | .ok plaintext =>
              (s, [.effect (.decrypted r (pkt.take headerLen) plaintext)],
                .deliver env host plaintext)
  | .deliver env host plaintext =>
      let (node, effs) := s.node.deliver env host plaintext
      ({ s with node }, effs.map .effect, .done)
  | .handleStage0 env pkt src =>
      match s.node.handshakeMgr.handleStage0 env pkt src with
      | (sent, .error _) => (s, sent.map .effect, .done)
      | (sent, .ok host) =>
          ({ s with responders := s.responders + 1 },
            sent.map .effect ++ [.claimed (.responder s.responders)],
            .add env (.responder s.responders) host [])
  | .handleStage1 env pkt => takePending s env pkt
  | .readStage1 env pkt r =>
      match s.node.handshakeMgr.handshakes[r]? with
      | none => (s, [], .done)
      | some ph =>
          match s.node.handshakeMgr.readStage1 env.now ph pkt with
          | .error _ => (s, [], .done)
          | .ok st =>
              (s, [], .add env (.initiator r) (HandshakeManager.stage1Host ph st)
                ph.pendingPackets)
  | .add env o h pending =>
      let r := s.node.hostmap.hosts.length  -- the pointer to `h`
      (s.setHostmap (s.node.hostmap.add h), [.added o r h pending], .storeCert env r h pending)
  | .storeCert env r h pending =>
      ({ s with node := { s.node with
          peerCerts := match h.cert with
            | some c => Function.update s.node.peerCerts h.vpnIP (some c)
            | none => s.node.peerCerts } }, [], .send env r pending)
  | .remove ip => (s.setHostmap (s.node.hostmap.remove ip), [], .done)
  | .retryPending env =>
      let (m, effs) := s.node.handshakeMgr.retryPending env
      (s.setManager m, effs.map .effect, .done)
  | .runExpiry env =>
      ({ s with node := { s.node with fw := s.node.fw.runExpiry env.now } },
        [.effect (.expired env.now)], .done)
  | .advertise env => (s, (s.node.lighthouse.advertise env).map .effect, .done)
  | .done => (s, [], .done)

/-- The task that reacts to an event. -/
def of (e : Env P × Interface.Event) : Task P :=
  match e.2 with
  | .inside pkt => .inside e.1 pkt
  | .outside pkt src => .outside e.1 pkt src
  | .retry => .retryPending e.1
  | .expire => .runExpiry e.1
  | .advertise => .advertise e.1

end Task

/-- A node with the calls under way in it. -/
abbrev Daemon (P : Platform) := Pool (Shared P) (Task P) Note

namespace Daemon

variable (P) in
/-- The calls of a node as tasks: where each event starts, and what a task does next. -/
def program : Program (Shared P) (Task P) Note (Env P × Interface.Event) where
  entry := Task.of
  step := Task.step

/-- A node that has just started, before any call. -/
def start (I : Interface P) : Daemon P := ⟨⟨I, 0⟩, [], []⟩

/-- The node after any calls have come in and taken any of their steps. -/
def run (D : Daemon P) (ts : List (Turn (Env P × Interface.Event))) : Daemon P :=
  (program P).run D ts

end Daemon

end Neth
