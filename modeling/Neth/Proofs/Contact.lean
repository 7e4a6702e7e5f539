/-
The first packets between two machines.

Two nodes have been started from their files.  Applications on the first machine send to
the second before the nodes have ever talked: the first packet makes the node call, the
others queue up behind it.  What follows is the whole way of these packets, through both
firewalls, the handshake and both ciphers, to the TUN device of the second machine, with
every datagram below the one the previous call wrote.

`Ready` lists the conditions on the two machines: certificates, rules, one address, and
writes that succeed.
-/
import Neth.Proofs.Exchange
import Neth.Proofs.Inside
import Neth.Proofs.Source
import Neth.Proofs.Start

namespace Neth

variable {P : Platform}

/-! ### Calling

What node A does with the first packet for B, and with those that follow while the handshake is
under way. -/

/-- A rule lets the packet out to a peer the node has no session with. -/
def Firewall.LetsOut (f : Firewall) (pkt : Bytes) (v : Addr) : Prop :=
  ∃ rule ∈ f.outbound, ruleMatches rule v [] (dstPortFromIPv4 pkt) (protoFromIPv4 pkt) = true

theorem Firewall.outbound_allow (f : Firewall) (rules : List Rule) (now : Time) (ip : Addr)
    (groups : List GoString) (port : UInt16) (proto : Proto) :
    (f.allow rules now ip groups port proto).1.outbound = f.outbound ∧
      (f.allow rules now ip groups port proto).1.inbound = f.inbound := by
  rcases f.allow_fst rules now ip groups port proto with h | ⟨h, -⟩
  · rw [h]
    exact ⟨rfl, rfl⟩
  · rw [h]
    exact ⟨rfl, rfl⟩

namespace Interface

variable {I : Interface P} {env : Env P} {v : Addr} {addr : UDPAddr} {cert : Certificate}
  {pkt : Bytes}

/-- What the node needs to call `v`, and it has no session yet. -/
structure CanCall (I : Interface P) (v : Addr) (addr : UDPAddr) (cert : Certificate) : Prop where
  session : I.hostmap.getByVpnIP v = none
  cert : I.peerCerts v = some cert
  addr : ∃ others, I.lighthouse.getAddrs v = addr :: others

theorem forwardInside_of_canCall (h : I.CanCall v addr cert) {m : HandshakeManager P}
    {effs : List Effect}
    (hstart : I.handshakeMgr.startHandshake env v addr cert = (m, effs, .ok ())) :
    I.forwardInside env v pkt = ({ I with handshakeMgr := m.queuePacket v pkt }, effs) := by
  obtain ⟨others, haddr⟩ := h.addr
  unfold forwardInside
  rw [h.session]
  simp only
  rw [h.cert]
  simp only
  rw [haddr]
  simp only
  rw [hstart]

/-- A packet that a rule lets out is queued behind the handshake. -/
theorem step_inside_call (env : Env P) (h : I.CanCall v addr cert)
    (hdst : dstIPFromIPv4 pkt = some v) (hlets : I.fw.LetsOut pkt v) {m : HandshakeManager P}
    {effs : List Effect}
    (hstart : I.handshakeMgr.startHandshake env v addr cert = (m, effs, .ok ())) :
    ∃ fw tracked, fw.outbound = I.fw.outbound ∧ I.step (env, .inside pkt)
      = ({ I with fw, handshakeMgr := m.queuePacket v pkt },
        .outbound pkt [] tracked true :: effs) := by
  have hallowed : (I.fw.allowOutbound env.now v [] (dstPortFromIPv4 pkt)
      (protoFromIPv4 pkt)).2 = true := by
    rw [Firewall.allowOutbound, Firewall.allow_snd, Bool.or_eq_true, List.any_eq_true]
    exact .inr hlets
  have hfw := (I.fw.outbound_allow I.fw.outbound env.now v [] (dstPortFromIPv4 pkt)
    (protoFromIPv4 pkt)).1
  refine ⟨(I.fw.allowOutbound env.now v [] (dstPortFromIPv4 pkt) (protoFromIPv4 pkt)).1,
    I.fw.ct.isEstablished (Firewall.key v (dstPortFromIPv4 pkt) (protoFromIPv4 pkt)), hfw, ?_⟩
  show I.consumeInsidePacket env pkt = _
  unfold consumeInsidePacket
  rw [hdst]
  simp only [h.session, hostGroups, hallowed, if_true]
  have hcall : ({ I with fw := (I.fw.allowOutbound env.now v [] (dstPortFromIPv4 pkt)
      (protoFromIPv4 pkt)).1 } : Interface P).CanCall v addr cert := ⟨h.session, h.cert, h.addr⟩
  rw [forwardInside_of_canCall hcall hstart]

/-- So are the packets that follow. -/
theorem run_inside_call (pkts : List (Env P × Bytes)) : ∀ {I : Interface P},
    I.CanCall v addr cert → (∃ r, I.handshakeMgr.pending v = some r) →
    (∀ p ∈ pkts, dstIPFromIPv4 p.2 = some v ∧ I.fw.LetsOut p.2 v) →
    ∃ fw, (I.run (pkts.map fun p => (p.1, .inside p.2))).1
      = { I with fw, handshakeMgr := I.handshakeMgr.queueAll v (pkts.map (·.2)) } := by
  induction pkts with
  | nil => intro I _ _ _; exact ⟨I.fw, rfl⟩
  | cons p pkts ih =>
      intro I hcall hpending hpkts
      obtain ⟨r, hr⟩ := hpending
      have hstart : I.handshakeMgr.startHandshake p.1 v addr cert
          = (I.handshakeMgr, [], .ok ()) := by
        unfold HandshakeManager.startHandshake
        rw [hr]
        rfl
      obtain ⟨hdst, hlets⟩ := hpkts p (List.mem_cons_self ..)
      obtain ⟨fw, tracked, hfw, hstep⟩ := step_inside_call p.1 hcall hdst hlets hstart
      obtain ⟨fw', hrun⟩ := ih (I := { I with
          fw, handshakeMgr := I.handshakeMgr.queuePacket v p.2 }) ⟨hcall.session, hcall.cert,
            hcall.addr⟩ ⟨r, by rw [← hr, (I.handshakeMgr.queuePacket_maps v p.2).1]⟩ (by
          intro q hq
          obtain ⟨hdst', rule, hrule, hmatch⟩ := hpkts q (List.mem_cons_of_mem _ hq)
          exact ⟨hdst', rule, by rw [hfw]; exact hrule, hmatch⟩)
      refine ⟨fw', ?_⟩
      show ((I.step (p.1, .inside p.2)).1.run (pkts.map fun p => (p.1, .inside p.2))).1 = _
      rw [hstep, hrun]
      rfl

/-! ### Arriving

The other node opens the packets on the session that the header names, and asks the firewall about
each.  Where a rule lets all of them in, the TUN device gets what was opened, packet by packet and
in the same order. -/

/-- The packets written to the TUN device. -/
def tunWrites (effs : List Effect) : List Bytes :=
  effs.filterMap fun
    | .tunWrite data => some data
    | _ => none

theorem tunWrites_append (effs effs' : List Effect) :
    tunWrites (effs ++ effs') = tunWrites effs ++ tunWrites effs' :=
  List.filterMap_append

/-- An inbound rule lets the packet in, under the source address in it and the groups of the
session. -/
def Passes (rules : List Rule) (groups : List GoString) (pkt : Bytes) : Prop :=
  ∃ s, srcIPFromIPv4 pkt = some s ∧ ∃ rule ∈ rules,
    ruleMatches rule s groups (dstPortFromIPv4 pkt) (protoFromIPv4 pkt) = true

theorem deliver_passes (env : Env P) {host : HostInfo}
    (h : Passes I.fw.inbound host.groups pkt) :
    tunWrites (I.deliver env host pkt).2 = [pkt] ∧
      (I.deliver env host pkt).1.fw.inbound = I.fw.inbound ∧
      (I.deliver env host pkt).1.hostmap = I.hostmap := by
  obtain ⟨s, hsrc, hrule⟩ := h
  have hallowed : (I.fw.allowInbound env.now s ((host.cert.map (·.groups)).getD [])
      (dstPortFromIPv4 pkt) (protoFromIPv4 pkt)).2 = true :=
    (I.fw.allowInbound_iff env.now _ pkt s).mpr (.inr hrule)
  unfold deliver
  rw [hsrc]
  simp only [hallowed, if_true, and_true]
  exact ⟨rfl, (I.fw.outbound_allow ..).2⟩

/-- One datagram for the session. -/
theorem step_tunWrites {idx : UInt32} {r : Ref} {h : HostInfo}
    (hget : I.hostmap.getByIndex idx = some (r, h)) (d : Datagram P idx)
    (hpass : ∀ q ∈ openedIn r (I.step d.event).2, Passes I.fw.inbound h.groups q.2) :
    tunWrites (I.step d.event).2 = (openedIn r (I.step d.event).2).map (·.2) ∧
      (I.step d.event).1.fw.inbound = I.fw.inbound ∧
      ∃ h', (I.step d.event).1.hostmap.getByIndex idx = some (r, h') ∧ h'.cert = h.cert := by
  rw [step_event] at hpass ⊢
  unfold handleMessage at hpass ⊢
  rw [d.addressed, hget] at hpass ⊢
  have hcert : (h.receive P d.hdr d.pkt).1.cert = h.cert := by rw [HostInfo.receive_eq]
  have hafter := HostMap.getByIndex_assign hget (h.receive P d.hdr d.pkt).1
  cases hres : (h.receive P d.hdr d.pkt).2 with
  | error e =>
      simp only [hres] at hpass ⊢
      exact ⟨rfl, trivial, _, hafter, hcert⟩
  | ok plaintext =>
      simp only [hres] at hpass ⊢
      have hopened : ∀ (I : Interface P) (host : HostInfo), openedIn r
          (.decrypted r (d.pkt.take headerLen) plaintext :: (I.deliver d.env host plaintext).2)
            = [(d.pkt.take headerLen, plaintext)] := by
        intro I host
        rw [← List.singleton_append, openedIn_append, openedIn_deliver, List.append_nil]
        simp [openedIn]
      rw [hopened] at hpass ⊢
      have hlets := hpass _ (List.mem_singleton_self _)
      rw [HostInfo.groups, ← hcert] at hlets
      obtain ⟨hwritten, hinbound, hhostmap⟩ := deliver_passes (I := { I with
        hostmap := I.hostmap.assign r (h.receive P d.hdr d.pkt).1 }) d.env hlets
      refine ⟨hwritten, hinbound, _, ?_, hcert⟩
      rw [hhostmap]
      exact hafter

/-- **What opens reaches the applications**, in a run of datagrams for one session, where the rules
let all of it in under the certificate of the session. -/
theorem run_tunWrites {idx : UInt32} {r : Ref} {groups : List GoString}
    (es : List (Env P × Event)) (hes : ∀ e ∈ es, ∃ d : Datagram P idx, d.event = e) :
    ∀ {I : Interface P} {h : HostInfo}, I.hostmap.getByIndex idx = some (r, h) →
      h.groups = groups →
      (∀ q ∈ openedIn r (I.run es).2.flatten, Passes I.fw.inbound groups q.2) →
      tunWrites (I.run es).2.flatten = (openedIn r (I.run es).2.flatten).map (·.2) := by
  induction es with
  | nil => exact fun _ _ _ => rfl
  | cons e es ih =>
      intro I h hget hgroups hpass
      obtain ⟨d, rfl⟩ := hes e (List.mem_cons_self ..)
      have hflat : (I.run (d.event :: es)).2.flatten
          = (I.step d.event).2 ++ ((I.step d.event).1.run es).2.flatten := rfl
      rw [hflat, openedIn_append] at hpass
      obtain ⟨hnow, hinbound, h', hget', hcert⟩ := step_tunWrites hget d fun q hq => by
        rw [hgroups]
        exact hpass q (List.mem_append_left _ hq)
      have hlater := ih (fun e' he' => hes e' (List.mem_cons_of_mem _ he')) hget'
        (by rw [← hgroups, HostInfo.groups, HostInfo.groups, hcert])
        fun q hq => by
          rw [hinbound]
          exact hpass q (List.mem_append_right _ hq)
      rw [hflat, tunWrites_append, openedIn_append, List.map_append, hnow, hlater]

end Interface

/-! ### The whole way

The call, the answer, the flush, and what B makes of the datagrams that reach it. -/

/-- Two machines, the packets the first is handed for the second with the worlds they are handled
in, and the worlds and apparent senders of the datagrams in between. -/
structure Contact (P : Platform) where
  A : Startup P
  B : Startup P
  first : Env P × Bytes
  others : List (Env P × Bytes)
  respond : Env P
  finish : Env P
  addr : UDPAddr
  srcA : UDPAddr
  srcB : UDPAddr

namespace Contact

variable (x : Contact P)

/-- The certificate of the node that calls. -/
def certA : Certificate := x.A.node.handshakeMgr.localCert

/-- The certificate of the node that is called. -/
def certB : Certificate := x.B.node.handshakeMgr.localCert

/-- The VPN IP of the node that is called. -/
def vB : Addr := x.certB.vpnIP.addr

/-- What the machine of A sends, in order. -/
def packets : List Bytes := x.first.2 :: x.others.map (·.2)

/-- `A` gets the packets from its TUN device. -/
def called : Interface P × List (List Effect) :=
  x.A.node.run ((x.first :: x.others).map fun p => (p.1, .inside p.2))

/-- The datagram with which A calls. -/
def initiation : Bytes := firstWritten x.called.2.flatten

/-- `B` gets the initiation. -/
def answered : Interface P × List Effect :=
  x.B.node.step (x.respond, .outside x.initiation x.srcA)

/-- The datagram with which B answers. -/
def response : Bytes := firstWritten x.answered.2

/-- `A` gets the response. -/
def finished : Interface P × List Effect :=
  x.called.1.step (x.finish, .outside x.response x.srcB)

/-- The nodes were started and trust each other's certificates at the time, `A` has been told of
`B`, rules on both sides let the packets pass, and nothing fails around the nodes. -/
structure Ready : Prop where
  startedA : ∃ M T cfg s s', newInterface P M T cfg s = (.ok x.A, s')
  startedB : ∃ M T cfg s s', newInterface P M T cfg s = (.ok x.B, s')
  verifyA : x.certA.verify P x.B.node.handshakeMgr.caPool x.respond.now = .ok ()
  verifyB : x.certB.verify P x.A.node.handshakeMgr.caPool x.finish.now = .ok ()
  cert : x.A.node.peerCerts x.vB = some x.certB
  addr : ∃ more, x.A.node.lighthouse.getAddrs x.vB = x.addr :: more
  out : ∀ p ∈ x.packets, dstIPFromIPv4 p = some x.vB ∧ x.A.node.fw.LetsOut p x.vB
  into : ∀ p ∈ x.packets, Interface.Passes x.B.node.fw.inbound x.certA.groups p
  indexA : ∃ idx, x.first.1.index = .ok idx
  indexB : ∃ idx, x.respond.index = .ok idx
  writesA : ∀ data addr, x.first.1.writeTo data addr = .ok ()
  writesB : ∀ data addr, x.respond.writeTo data addr = .ok ()

/-- The exchange between the two nodes that the first packet sets off. -/
def exchange : Exchange P where
  A := { x.A.node with fw := x.called.1.fw }
  B := x.B.node
  start := x.first.1
  respond := x.respond
  finish := x.finish
  addr := x.addr
  srcA := x.srcA
  srcB := x.srcB
  packets := x.packets

variable {x}

/-- A node that has just started. -/
theorem fresh_of_started {st : Startup P}
    (h : ∃ M T cfg s s', newInterface P M T cfg s = (.ok st, s')) :
    Honest st.node.handshakeMgr ∧ st.node.hostmap = .new ∧
      ∀ v, st.node.handshakeMgr.pending v = none := by
  obtain ⟨M, T, cfg, s, s', h⟩ := h
  have hmgr := handshakeMgr_of_newInterface h
  refine ⟨(sound_of_newInterface h).honest (by rw [hmgr]; rfl) (by rw [hmgr]; rfl), ?_, ?_⟩
  · obtain ⟨fw, lighthouse, peers, _, _, -, -, -, -, -, hnode⟩ := newInterface_ok h
    rw [hnode, Interface.new_hostmap]
  · intro v
    rw [hmgr]
    rfl

theorem Ready.undisturbed (h : x.Ready) : x.exchange.Undisturbed := by
  obtain ⟨honestA, -, hidle⟩ := fresh_of_started h.startedA
  obtain ⟨honestB, -, -⟩ := fresh_of_started h.startedB
  exact ⟨honestA, honestB, h.verifyA, h.verifyB, hidle _, h.indexA, h.indexB, h.writesA, h.writesB⟩

/-- `A` calls with the first packet, and queues them all. -/
theorem Ready.called (hnoise : P.IKpsk0) (hcodecs : P.Codecs) (h : x.Ready) :
    x.called.1 = x.exchange.waiting ∧ x.initiation = x.exchange.initiation ∧
      .writeTo x.initiation x.addr true ∈ x.called.2.flatten := by
  obtain ⟨-, hhosts, -⟩ := fresh_of_started h.startedA
  obtain ⟨ph, hstarted, -, hip, -⟩ := Exchange.exists_started hnoise hcodecs h.undisturbed
  have hcall : x.A.node.CanCall x.vB x.addr x.certB := ⟨by rw [hhosts]; rfl, h.cert, h.addr⟩
  obtain ⟨hdst, hlets⟩ := h.out x.first.2 (List.mem_cons_self ..)
  obtain ⟨fw, tracked, hfw, hstep⟩ := Interface.step_inside_call x.first.1 hcall hdst hlets hstarted
  -- from now on a handshake is pending, and the other packets go the same way
  have hpending : ((x.A.node.handshakeMgr.insert ph).queuePacket x.vB x.first.2).pending x.vB
      = some x.A.node.handshakeMgr.handshakes.length := by
    rw [(HandshakeManager.queuePacket_maps _ _ _).1, HandshakeManager.insert, hip]
    exact Function.update_self ..
  obtain ⟨fw', hrun⟩ := Interface.run_inside_call (I := { x.A.node with
    fw, handshakeMgr := (x.A.node.handshakeMgr.insert ph).queuePacket x.vB x.first.2 }) x.others
    ⟨hcall.session, hcall.cert, hcall.addr⟩ ⟨_, hpending⟩ (by
      intro p hp
      obtain ⟨hdst', rule, hrule, hmatch⟩ := h.out p.2
        (List.mem_cons_of_mem _ (List.mem_map_of_mem hp))
      exact ⟨hdst', rule, by rw [hfw]; exact hrule, hmatch⟩)
  have hcalled : x.called = (((x.A.node.step (x.first.1, .inside x.first.2)).1.run
      (x.others.map fun p => (p.1, .inside p.2))).1,
      (x.A.node.step (x.first.1, .inside x.first.2)).2 ::
        ((x.A.node.step (x.first.1, .inside x.first.2)).1.run
          (x.others.map fun p => (p.1, .inside p.2))).2) := rfl
  rw [hstep] at hcalled
  have hstate := (congrArg Prod.fst hcalled).trans hrun
  have heffs := congrArg Prod.snd hcalled
  have hinitiation : x.initiation = ph.stage0msg := by
    unfold initiation
    rw [heffs]
    rfl
  refine ⟨?_, ?_, ?_⟩
  · have hwaiting : x.exchange.waiting = { x.A.node with
        fw := x.called.1.fw
        handshakeMgr := x.exchange.started.1.queueAll x.vB x.packets } := rfl
    rw [hwaiting, hstarted, hstate]
    rfl
  · rw [hinitiation, Exchange.initiation, hstarted]
    rfl
  · rw [heffs, hinitiation]
    exact List.mem_append_left _ (List.mem_cons_of_mem _ (List.mem_singleton.mpr rfl))

/-- The two ends after the handshake: the sessions are the first of each node, they fit together,
and `A` has flushed its queue. -/
structure Sessions (x : Contact P) (hA hB : HostInfo) : Prop where
  answered : x.answered = (x.B.node.installed hB, [.writeTo x.response x.srcA true])
  finished : ∃ I : Interface P, I.hostmap.hosts[0]? = some hA ∧
    x.finished = I.sendAll x.finish 0 (HandshakeManager.kept x.packets)
  remote : hA.remote = x.addr
  index : hA.remoteIndex = hB.index
  cipher : hA.sendCipher = hB.recvCipher
  counter : hA.counter = 0
  window : hB.toReplayWindow = .fresh
  cert : hB.cert = some x.certA

theorem Ready.sessions (hnoise : P.IKpsk0) (hcodecs : P.Codecs) (h : x.Ready) :
    ∃ hA hB, x.Sessions hA hB := by
  obtain ⟨hwaiting, hinitiation, -⟩ := h.called hnoise hcodecs
  have hready := h.undisturbed
  obtain ⟨-, hhostsA, -⟩ := fresh_of_started h.startedA
  obtain ⟨ph, hstarted, hinit, hip, haddr, hqueue⟩ :=
    Exchange.exists_started hnoise hcodecs hready
  have hmsg : x.exchange.initiation = ph.stage0msg := by
    unfold Exchange.initiation
    rw [hstarted]
    rfl
  rw [← hmsg] at hinit
  obtain ⟨hB, hres0, -, hanswered⟩ := Exchange.exists_answered hnoise hcodecs hready hinit
  obtain ⟨hA, m, hres1, -, hremote, -, hremoteA, hcounter, hsend, -⟩ :=
    Exchange.exists_finished hcodecs hready hip hqueue (congrArg Prod.fst hstarted)
      hanswered.response
  -- the calls of the contact are those of the exchange
  have hanswer : x.answered = x.exchange.answered := by
    unfold answered
    rw [hinitiation]
    rfl
  have hresponse : x.response = x.exchange.response := by
    unfold response
    rw [hanswer]
    rfl
  refine ⟨hA, hB, ?_, ?_, hremote.trans haddr, hremoteA, hsend, hcounter, hanswered.window,
    hanswered.cert⟩
  · obtain ⟨w, now0, -, -, hwire⟩ := hinit
    rw [hanswer, hresponse, Exchange.answered, Interface.step_initiation hwire.parse, hres0]
    rfl
  · obtain ⟨noise, read, cs1, cs2, now1, hwire, -⟩ := hanswered.response
    have hhosts : x.exchange.waiting.hostmap = .new := hhostsA
    have hinstalled := Interface.hosts_installed { x.exchange.waiting with handshakeMgr := m } hA
    refine ⟨({ x.exchange.waiting with handshakeMgr := m }).installed hA, ?_, ?_⟩
    · rwa [hhosts] at hinstalled
    · have hzero : x.exchange.waiting.hostmap.hosts.length = 0 := by rw [hhosts]; rfl
      unfold finished
      rw [hwaiting, hresponse, Interface.step_response hwire.parse, hzero,
        show x.exchange.waiting.handshakeMgr.handleStage1 x.finish.now x.exchange.response = _
          from hres1]
      rfl

/-- What `A` sends over the new session. -/
theorem Sessions.flushed {hA hB : HostInfo} (h : x.Sessions hA hB) :
    sealedIn 0 x.finished.2 = hA.flushed P (HandshakeManager.kept x.packets) ∧
      ∀ y ∈ sealedIn 0 x.finished.2, x.finish.send (y.1 ++ y.2.2) x.addr ∈ x.finished.2 := by
  obtain ⟨I, hhost, hfinished⟩ := h.finished
  obtain ⟨hsealed, hwritten, -, -⟩ := Interface.sendAll_flushes x.finish 0
    (HandshakeManager.kept x.packets) I hA hhost
  rw [← hfinished] at hsealed hwritten
  refine ⟨hsealed, fun y hy => ?_⟩
  rw [hsealed] at hy
  rw [← h.remote]
  exact hwritten y hy

/-- The datagrams are for the session whose index `A` was told. -/
theorem datagram_of_mem_flushed {hA : HostInfo} (hcounter : hA.counter = 0) {pkts : List Bytes}
    (hpkts : pkts.length ≤ maxPendingPackets) {y : Bytes × Bytes × Bytes}
    (hy : y ∈ hA.flushed P pkts) (env : Env P) (src : UDPAddr) :
    ∃ d : Datagram P hA.remoteIndex, d.event = Interface.arrival env src y := by
  have hlen : hA.counter.toNat + pkts.length < 2 ^ 64 := by
    unfold maxPendingPackets at hpkts
    rw [hcounter, show (0 : UInt64).toNat = 0 from rfl]
    omega
  obtain ⟨c, hc, -⟩ := HostInfo.exists_counter_of_mem_flushed pkts hA y hy hlen
  refine ⟨⟨env, src, y.1 ++ y.2.2, hA.dataHeader c, ?_, rfl, rfl⟩, rfl⟩
  rw [hc]
  exact Header.parse_bytes_append _ rfl (show typeMessage < 16 by decide) _

/-- What `B` does with it. -/
theorem Sessions.arrives (hopen : P.OpenSeal) {hA hB : HostInfo} (h : x.Sessions hA hB)
    (hhosts : x.B.node.hostmap = .new)
    (hinto : ∀ p ∈ x.packets, Interface.Passes x.B.node.fw.inbound x.certA.groups p)
    {order : List (Bytes × Bytes × Bytes)} (hnodup : order.Nodup)
    (hmem : ∀ y ∈ order, y ∈ hA.flushed P (HandshakeManager.kept x.packets)) (env : Env P)
    (src : UDPAddr) :
    Interface.tunWrites (x.answered.1.run (order.map (Interface.arrival env src))).2.flatten
      = order.map (·.2.1) := by
  have hnode : x.answered.1 = x.B.node.installed hB := congrArg Prod.fst h.answered
  have hget : x.answered.1.hostmap.getByIndex hA.remoteIndex = some (0, hB) := by
    have hhost := Interface.hosts_installed x.B.node hB
    have hindex : (x.B.node.installed hB).hostmap.byIndex hB.index
        = some x.B.node.hostmap.hosts.length := Function.update_self ..
    rw [hhosts] at hhost hindex
    rw [hnode, h.index]
    exact HostMap.getByIndex_eq_some.mpr ⟨hindex, hhost⟩
  have hopened := Interface.run_flushed hopen hget h.cipher h.counter h.window
    (HandshakeManager.length_kept x.packets) hnodup hmem env src
  have hgroups : hB.groups = x.certA.groups := by
    rw [HostInfo.groups, h.cert]
    rfl
  have hes : ∀ e ∈ order.map (Interface.arrival env src),
      ∃ d : Datagram P hA.remoteIndex, d.event = e := by
    intro e he
    obtain ⟨y, hy, rfl⟩ := List.mem_map.mp he
    exact datagram_of_mem_flushed h.counter (HandshakeManager.length_kept x.packets) (hmem y hy)
      env src
  rw [Interface.run_tunWrites _ hes hget hgroups, hopened, List.map_map]
  · rfl
  · intro q hq
    rw [hopened] at hq
    obtain ⟨y, hy, rfl⟩ := List.mem_map.mp hq
    -- what was flushed had been queued
    have hpacket : y.2.1 ∈ HandshakeManager.kept x.packets := by
      rw [← HostInfo.flushed_plaintexts (P := P) (HandshakeManager.kept x.packets) hA]
      exact List.mem_map_of_mem (hmem y hy)
    rw [hnode]
    exact hinto y.2.1 (List.mem_of_mem_drop hpacket)

/-- **The first packets get through.**  Two nodes were started from their files.  They trust each
other's certificates at the time, the first has been told the certificate and an address of the
second, outbound rules there and inbound rules here let the packets pass, and an index can be drawn
and datagrams written.  Then the first packet makes the first node call, the other node answers, and
the packets that are still queued then are sealed and sent.  Whatever part of these datagrams
reaches the other node, in whatever order, it writes the packets in them to its TUN device, in that
order and nothing else. -/
theorem first_packets_arrive (hnoise : P.IKpsk0) (hcodecs : P.Codecs) (hopen : P.OpenSeal)
    (x : Contact P) (h : x.Ready) :
    .writeTo x.initiation x.addr true ∈ x.called.2.flatten ∧
      .writeTo x.response x.srcA true ∈ x.answered.2 ∧
      (sealedIn 0 x.finished.2).map (·.2.1) = HandshakeManager.kept x.packets ∧
      (∀ y ∈ sealedIn 0 x.finished.2, x.finish.send (y.1 ++ y.2.2) x.addr ∈ x.finished.2) ∧
      ∀ (order : List (Bytes × Bytes × Bytes)) (env : Env P) (src : UDPAddr), order.Nodup →
        (∀ y ∈ order, y ∈ sealedIn 0 x.finished.2) →
        Interface.tunWrites (x.answered.1.run (order.map (Interface.arrival env src))).2.flatten
          = order.map (·.2.1) := by
  obtain ⟨-, -, hcalled⟩ := h.called hnoise hcodecs
  obtain ⟨-, hhosts, -⟩ := fresh_of_started h.startedB
  obtain ⟨hA, hB, hsessions⟩ := h.sessions hnoise hcodecs
  obtain ⟨hsealed, hwritten⟩ := hsessions.flushed
  refine ⟨hcalled, ?_, ?_, hwritten, ?_⟩
  · rw [hsessions.answered]
    exact List.mem_singleton.mpr rfl
  · rw [hsealed, HostInfo.flushed_plaintexts]
  · intro order env src hnodup hmem
    rw [hsealed] at hmem
    exact hsessions.arrives hopen hhosts h.into hnodup hmem env src

/-- The rule of the machines. -/
def anyone : Rule := ⟨0, true, protoAny, [], true, .zero, true⟩

open Symbolic in
/-- The packets that machine 1 has for machine 2. -/
def packets12 : List Bytes :=
  [tcpPacket 1 2 40000 443, tcpPacket 1 2 40001 22, tcpPacket 1 2 40002 80]

open Symbolic in
/-- Machines 1 and 2 with these packets. -/
theorem exists_ready12 : ∃ x : Contact vault, x.Ready ∧ x.packets = packets12 := by
  obtain ⟨A, s, hA, hnodeA⟩ : ∃ st s, newInterface vault (machine 1 [2]) prefixText config []
      = (.ok st, s) ∧ (decide (st.node.handshakeMgr.localCert = nodeCert 1 [[1]]) &&
        decide (st.node.handshakeMgr.caPool = [caCert]) &&
        decide (st.node.peerCerts (nodeIP 2) = some (nodeCert 2 [[2]])) &&
        decide (st.node.lighthouse.getAddrs (nodeIP 2) = [nodeAddr 2]) &&
        decide (st.node.fw.outbound = [anyone])) = true := exists_of_toOption (by decide +kernel)
  obtain ⟨B, s', hB, hnodeB⟩ : ∃ st s, newInterface vault (machine 2 [1]) prefixText config []
      = (.ok st, s) ∧ (decide (st.node.handshakeMgr.localCert = nodeCert 2 [[2]]) &&
        decide (st.node.handshakeMgr.caPool = [caCert]) &&
        decide (st.node.fw.inbound = [anyone])) = true := exists_of_toOption (by decide +kernel)
  simp only [Bool.and_eq_true, decide_eq_true_eq] at hnodeA hnodeB
  obtain ⟨⟨⟨⟨hcertA, hpoolA⟩, hpeer⟩, haddr⟩, hout⟩ := hnodeA
  obtain ⟨⟨hcertB, hpoolB⟩, hin⟩ := hnodeB
  let env (idx : UInt32) : Env vault := ⟨0, .ok idx, [9], fun _ _ => .ok (), []⟩
  let x : Contact vault := ⟨A, B, (env 7, tcpPacket 1 2 40000 443),
    [(env 0, tcpPacket 1 2 40001 22), (env 0, tcpPacket 1 2 40002 80)], env 8, env 0, nodeAddr 2,
    nodeAddr 1, nodeAddr 2⟩
  have hpackets : ∀ p ∈ packets12, dstIPFromIPv4 p = some (nodeIP 2) ∧
      srcIPFromIPv4 p = some (nodeIP 1) := by decide
  have hvB : x.vB = nodeIP 2 := congrArg (·.vpnIP.addr) hcertB
  refine ⟨x, ?_, rfl⟩
  refine ⟨⟨_, _, _, _, _, hA⟩, ⟨_, _, _, _, _, hB⟩, ?_, ?_, ?_, ⟨[], ?_⟩, ?_, ?_, ⟨7, rfl⟩,
    ⟨8, rfl⟩, fun _ _ => rfl, fun _ _ => rfl⟩
  · show A.node.handshakeMgr.localCert.verify vault B.node.handshakeMgr.caPool 0 = _
    rw [hcertA, hpoolB]
    decide +kernel
  · show B.node.handshakeMgr.localCert.verify vault A.node.handshakeMgr.caPool 0 = _
    rw [hcertB, hpoolA]
    decide +kernel
  · rw [hvB]
    exact hpeer.trans (congrArg some hcertB.symm)
  · rw [hvB]
    exact haddr
  · intro p hp
    rw [hvB]
    refine ⟨(hpackets p hp).1, anyone, ?_, rfl⟩
    show anyone ∈ A.node.fw.outbound
    rw [hout]
    exact List.mem_singleton.mpr rfl
  · intro p hp
    refine ⟨nodeIP 1, (hpackets p hp).2, anyone, ?_, rfl⟩
    show anyone ∈ B.node.fw.inbound
    rw [hin]
    exact List.mem_singleton.mpr rfl

open Symbolic in
/-- Machines 1 and 2, and three packets.  The last one arrives first, and the second one is lost. -/
theorem first_packets_arrive_12 :
    ∃ x : Contact vault, x.Ready ∧ x.packets = packets12 ∧
      ∃ y₁ y₂ y₃, sealedIn 0 x.finished.2 = [y₁, y₂, y₃] ∧
        Interface.tunWrites
            (x.answered.1.run ([y₃, y₁].map (Interface.arrival x.finish (nodeAddr 1)))).2.flatten
          = [tcpPacket 1 2 40002 80, tcpPacket 1 2 40000 443] := by
  obtain ⟨x, hready, hpackets⟩ := exists_ready12
  obtain ⟨-, -, hplain, -, harrive⟩ :=
    first_packets_arrive vault_ikpsk0 vault_codecs vault_openSeal x hready
  have hkept : HandshakeManager.kept x.packets = packets12 := by
    rw [hpackets]
    rfl
  rw [hkept] at hplain
  refine ⟨x, hready, hpackets, ?_⟩
  obtain ⟨y₁, ys, hys, h₁, hplain⟩ := List.map_eq_cons_iff.mp hplain
  obtain ⟨y₂, ys, rfl, -, hplain⟩ := List.map_eq_cons_iff.mp hplain
  obtain ⟨y₃, ys, rfl, h₃, hplain⟩ := List.map_eq_cons_iff.mp hplain
  obtain rfl := List.map_eq_nil_iff.mp hplain
  have hne : y₃ ≠ y₁ := by
    rintro rfl
    exact absurd (h₁.symm.trans h₃) (by decide)
  have hwritten := harrive [y₃, y₁] x.finish (nodeAddr 1) (by simp [hne]) (by rw [hys]; simp)
  exact ⟨y₁, y₂, y₃, hys, hwritten.trans (by simp [h₁, h₃])⟩

end Contact

end Neth
