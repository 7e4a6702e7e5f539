/-
A call alone does what the one-step model says.

The steps of `Task.step` that one call takes, with no other call in between, end in the
state of `Interface.step` and leave its effects.  So a run of `Interface` is an
interleaving of the daemon in which each call ends before the next one comes in, and
what holds over all interleavings holds over these runs.

There is one lemma for each step and one for each call, assembled from them.
`exists_turns_of_run` puts the calls together and is what the two models are connected
by.
-/
import Neth.Concurrent
import Neth.Proofs.Node

namespace Neth

open Interleave

variable {P : Platform}

@[simp] theorem effects_append (notes notes' : List Note) :
    effects (notes ++ notes') = effects notes ++ effects notes' :=
  List.filterMap_append ..

@[simp] theorem effects_map_effect (effs : List Effect) : effects (effs.map .effect) = effs := by
  simp [effects, Note.effect?, List.filterMap_map, Function.comp_def]

/-- A mark behind the effects of a step is not one of them. -/
theorem effects_map_effect_append (effs : List Effect) {note : Note} (h : note.effect? = none) :
    effects (effs.map .effect ++ [note]) = effs := by
  rw [effects_append, effects_map_effect]
  simp [effects, h]

namespace Task

/-! ### The steps

What a step comes to, by what it finds in the shared state. -/

section Steps

variable {s : Shared P} {env : Env P} {pkt : Bytes} {pkts : List Bytes} {dstIP : Addr} {r : Ref}
  {src : UDPAddr} {hdr : Header} {host host' : HostInfo} {ph : PendingHandshake P}

theorem step_inside_none (h : dstIPFromIPv4 pkt = none) :
    Task.step s (.inside env pkt) = (s, [], .done) := by
  simp only [Task.step, h]

theorem step_inside (h : dstIPFromIPv4 pkt = some dstIP) :
    Task.step s (.inside env pkt) = (s, [],
      .allowOutbound env dstIP pkt ((s.node.hostmap.getByVpnIP dstIP).map (·.1))
        (Interface.hostGroups (s.node.hostmap.getByVpnIP dstIP))) := by
  simp only [Task.step, h]

theorem step_allowOutbound {groups : List GoString} {fw : Firewall} {allowed : Bool}
    (s : Shared P) (host : Option Ref)
    (h : s.node.fw.allowOutbound env.now dstIP groups (dstPortFromIPv4 pkt) (protoFromIPv4 pkt)
      = (fw, allowed)) :
    Task.step s (.allowOutbound env dstIP pkt host groups)
      = (⟨{ s.node with fw }, s.responders⟩,
        [.effect (.outbound pkt groups (s.node.fw.ct.isEstablished
          (Firewall.key dstIP (dstPortFromIPv4 pkt) (protoFromIPv4 pkt))) allowed)],
        if allowed then host.elim (.getPeerCert env dstIP pkt) fun r => .send env r [pkt]
        else .done) := by
  cases host with
  | none => simp [Task.step, h]
  | some r => simp [Task.step, h]

theorem step_getPeerCert_none (h : s.node.peerCerts dstIP = none) :
    Task.step s (.getPeerCert env dstIP pkt) = (s, [], .queuePacket dstIP pkt) := by
  simp only [Task.step, h]

theorem step_getPeerCert {remoteCert : Certificate} (h : s.node.peerCerts dstIP = some remoteCert) :
    Task.step s (.getPeerCert env dstIP pkt) = (s, [], .getAddrs env dstIP pkt remoteCert) := by
  simp only [Task.step, h]

theorem step_getAddrs_nil (env : Env P) (pkt : Bytes) (remoteCert : Certificate)
    (h : s.node.lighthouse.getAddrs dstIP = []) :
    Task.step s (.getAddrs env dstIP pkt remoteCert)
      = (s, (s.node.lighthouse.queryPeer env dstIP).map .effect, .queuePacket dstIP pkt) := by
  simp only [Task.step, h]

theorem step_getAddrs_cons {remoteCert : Certificate} {addr : UDPAddr} {addrs : List UDPAddr}
    (h : s.node.lighthouse.getAddrs dstIP = addr :: addrs) :
    Task.step s (.getAddrs env dstIP pkt remoteCert)
      = (s, [], .startHandshake env dstIP pkt addr remoteCert) := by
  simp only [Task.step, h]

theorem step_startHandshake_error {addr : UDPAddr} {cert : Certificate} {m : HandshakeManager P}
    {effs : List Effect} {err : String} (pkt : Bytes)
    (h : s.node.handshakeMgr.startHandshake env dstIP addr cert = (m, effs, .error err)) :
    Task.step s (.startHandshake env dstIP pkt addr cert)
      = (s.setManager m, effs.map .effect ++ [.started false], .done) := by
  simp only [Task.step, h]

theorem step_startHandshake {addr : UDPAddr} {cert : Certificate} {m : HandshakeManager P}
    {effs : List Effect} (pkt : Bytes)
    (h : s.node.handshakeMgr.startHandshake env dstIP addr cert = (m, effs, .ok ())) :
    Task.step s (.startHandshake env dstIP pkt addr cert)
      = (s.setManager m, effs.map .effect ++ [.started true], .queuePacket dstIP pkt) := by
  simp only [Task.step, h]

theorem step_send_none (h : s.node.hostmap.hosts[r]? = none) :
    Task.step s (.send env r (pkt :: pkts)) = (s, [], .done) := by
  simp only [Task.step, h]

theorem step_send (h : s.node.hostmap.hosts[r]? = some host) :
    Task.step s (.send env r (pkt :: pkts))
      = (s.setHostmap (s.node.hostmap.assign r { host with counter := host.counter + 1 }),
        [.took r (host.counter + 1)], .encrypt env r (host.counter + 1) pkt pkts) := by
  simp only [Task.step, h]

theorem step_encrypt_none {c : UInt64} (h : s.node.hostmap.hosts[r]? = none) :
    Task.step s (.encrypt env r c pkt pkts) = (s, [], .done) := by
  simp only [Task.step, h]

theorem step_encrypt {c : UInt64} (h : s.node.hostmap.hosts[r]? = some host) :
    let call : EncryptCall := ⟨r, host.sendCipher, c, (host.dataHeader c).bytes, pkt⟩
    Task.step s (.encrypt env r c pkt pkts)
      = (s, [.encrypted call, .effect (.encrypted r call.header pkt
            (Neth.encrypt P host.sendCipher c call.header pkt)),
          .effect (env.send (call.wire P) host.remote)], .send env r pkts) := by
  simp only [Task.step, h]

theorem step_checkReplay_none (h : s.node.hostmap.hosts[r]? = none) :
    Task.step s (.checkReplay env pkt hdr r) = (s, [], .done) := by
  simp only [Task.step, h]

theorem step_checkReplay_error {err : Dropped} (h : s.node.hostmap.hosts[r]? = some host)
    (hreceive : host.receive P hdr pkt = (host', .error err)) :
    Task.step s (.checkReplay env pkt hdr r)
      = (s.setHostmap (s.node.hostmap.assign r host'), [], .done) := by
  simp only [Task.step, h, hreceive]

theorem step_checkReplay {plaintext : Bytes} (h : s.node.hostmap.hosts[r]? = some host)
    (hreceive : host.receive P hdr pkt = (host', .ok plaintext)) :
    Task.step s (.checkReplay env pkt hdr r)
      = (s.setHostmap (s.node.hostmap.assign r host'),
        [Effect.decrypted r (pkt.take headerLen) plaintext].map .effect,
        .deliver env host' plaintext) := by
  simp only [Task.step, h, hreceive]
  rfl

theorem step_handleStage0_error {effs : List Effect} {err : String}
    (h : s.node.handshakeMgr.handleStage0 env pkt src = (effs, .error err)) :
    Task.step s (.handleStage0 env pkt src) = (s, effs.map .effect, .done) := by
  simp only [Task.step, h]

theorem step_handleStage0 {effs : List Effect}
    (h : s.node.handshakeMgr.handleStage0 env pkt src = (effs, .ok host)) :
    Task.step s (.handleStage0 env pkt src)
      = (⟨s.node, s.responders + 1⟩, effs.map .effect ++ [.claimed (.responder s.responders)],
        .add env (.responder s.responders) host []) := by
  simp only [Task.step, h]

/-- `HandleStage1` takes out the handshake whose index its datagram has, and nothing if there is
none. -/
theorem step_handleStage1_cases (s : Shared P) (env : Env P) (pkt : Bytes) :
    (∃ hdr r ph, Header.parse pkt = .ok hdr ∧
        s.node.handshakeMgr.indexMap hdr.remoteIndex = some r ∧
        s.node.handshakeMgr.handshakes[r]? = some ph ∧
        Task.step s (.handleStage1 env pkt)
          = (s.setManager (s.node.handshakeMgr.take hdr.remoteIndex ph),
            [.claimed (.initiator r)], .readStage1 env pkt r)) ∨
      (∀ hdr, Header.parse pkt = .ok hdr →
          s.node.handshakeMgr.getIndex hdr.remoteIndex = none) ∧
        Task.step s (.handleStage1 env pkt) = (s, [], .done) := by
  have hstep : Task.step s (.handleStage1 env pkt) = takePending s env pkt := rfl
  unfold takePending at hstep
  cases hparse : Header.parse pkt with
  | error e =>
      rw [hparse] at hstep
      exact .inr ⟨fun hdr hhdr => (by cases hhdr), hstep.trans (ite_self _)⟩
  | ok hdr =>
      rw [if_neg (Header.length_of_parse hparse), hparse] at hstep
      cases hidx : s.node.handshakeMgr.indexMap hdr.remoteIndex with
      | none =>
          simp only [hidx] at hstep
          refine .inr ⟨fun hdr' hhdr => ?_, hstep⟩
          rw [← Except.ok.inj hhdr, HandshakeManager.getIndex, hidx, Option.bind_none]
      | some r =>
          cases hr : s.node.handshakeMgr.handshakes[r]? with
          | none =>
              simp only [hidx, hr] at hstep
              refine .inr ⟨fun hdr' hhdr => ?_, hstep⟩
              rw [← Except.ok.inj hhdr, HandshakeManager.getIndex, hidx, Option.bind_some, hr]
          | some ph =>
              simp only [hidx, hr] at hstep
              exact .inl ⟨hdr, r, ph, rfl, hidx, hr, hstep⟩

theorem step_readStage1_none (h : s.node.handshakeMgr.handshakes[r]? = none) :
    Task.step s (.readStage1 env pkt r) = (s, [], .done) := by
  simp only [Task.step, h]

theorem step_readStage1_error {err : String}
    (h : s.node.handshakeMgr.handshakes[r]? = some ph)
    (hread : s.node.handshakeMgr.readStage1 env.now ph pkt = .error err) :
    Task.step s (.readStage1 env pkt r) = (s, [], .done) := by
  simp only [Task.step, h, hread]

theorem step_readStage1 {st : HandshakeManager.Stage1}
    (h : s.node.handshakeMgr.handshakes[r]? = some ph)
    (hread : s.node.handshakeMgr.readStage1 env.now ph pkt = .ok st) :
    Task.step s (.readStage1 env pkt r)
      = (s, [], .add env (.initiator r) (HandshakeManager.stage1Host ph st)
        ph.pendingPackets) := by
  simp only [Task.step, h, hread]

end Steps

/-! ### The datagram of a call

From `outside` on, a call carries the datagram it was started with and no other. -/

/-- The datagram that the task has in its variables and is still to look at. -/
def datagram : Task P → Option Bytes
  | .outside _ pkt _ => some pkt
  | .checkReplay _ pkt _ _ => some pkt
  | .handleStage0 _ pkt _ => some pkt
  | .handleStage1 _ pkt => some pkt
  | .readStage1 _ pkt _ => some pkt
  | _ => none

theorem datagram_dispatch (s : Shared P) (env : Env P) {pkt pkt' : Bytes} {src : UDPAddr}
    (h : (dispatch s env pkt src).2.2.datagram = some pkt') : pkt' = pkt := by
  unfold dispatch at h
  split at h
  · cases h
  · split at h
    · cases h
    · split_ifs at h
      · split at h
        · cases h
        · exact (Option.some.inj h).symm
      · exact (Option.some.inj h).symm
      · exact (Option.some.inj h).symm
      · cases h
      · cases h
      · cases h
      · split at h <;> cases h
      · cases h

/-- A task goes on with the datagram it came in with. -/
theorem datagram_of_step {s : Shared P} {t : Task P} {pkt : Bytes}
    (h : (Task.step s t).2.2.datagram = some pkt) : t.datagram = some pkt := by
  cases t with
  | outside env pkt' src => exact congrArg some (datagram_dispatch s env h).symm
  | handleStage0 env pkt' src =>
      rcases hres : s.node.handshakeMgr.handleStage0 env pkt' src with ⟨sent, err | host⟩
      · rw [step_handleStage0_error hres] at h
        cases h
      · rw [step_handleStage0 hres] at h
        cases h
  | handleStage1 env pkt' =>
      rcases step_handleStage1_cases s env pkt' with ⟨hdr, r, ph, -, -, -, hstep⟩ | ⟨-, hstep⟩
      · rw [hstep] at h
        exact h
      · rw [hstep] at h
        cases h
  | readStage1 env pkt' r =>
      simp only [Task.step] at h
      split at h
      · cases h
      · split at h <;> cases h
  | checkReplay env pkt' hdr r =>
      simp only [Task.step] at h
      split at h
      · cases h
      · split at h <;> cases h
  | allowOutbound env v pkt' host groups =>
      rcases hverdict : s.node.fw.allowOutbound env.now v groups (dstPortFromIPv4 pkt')
        (protoFromIPv4 pkt') with ⟨fw, allowed⟩
      rw [step_allowOutbound s host hverdict] at h
      cases allowed with
      | false => cases h
      | true => cases host <;> cases h
  | send env r pkts =>
      cases pkts with
      | nil => cases h
      | cons pkt' pkts =>
          simp only [Task.step] at h
          split at h <;> cases h
  | inside | getPeerCert | getAddrs | encrypt | startHandshake =>
      simp only [Task.step] at h
      split at h <;> cases h
  | _ => cases h

/-! ### A call alone

A call that nobody interferes with comes to the end that `step` gives it in one go: same node, same
effects. -/

/-- The task, alone, ends with this node and these effects. -/
def Alone (s : Shared P) (t : Task P) (res : Interface P × List Effect) : Prop :=
  ∃ notes k, (Daemon.program P).Finishes (· = .done) s t notes ⟨res.1, k⟩ ∧ effects notes = res.2

variable {s s' : Shared P} {t t' : Task P} {res : Interface P × List Effect}
  {effs : List Effect} {notes : List Note}

theorem alone_done (s : Shared P) : Alone s .done (s.node, []) :=
  ⟨[], s.responders, .idle rfl, rfl⟩

theorem Alone.step (hstep : Task.step s t = (s', notes, t')) (h : Alone s' t' res) :
    Alone s t (res.1, effects notes ++ res.2) := by
  obtain ⟨rest, k, hrest, heffs⟩ := h
  exact ⟨notes ++ rest, k, .step hstep hrest, by rw [effects_append, heffs]⟩

/-- A step that leaves no effects. -/
theorem Alone.silent (hstep : Task.step s t = (s', notes, t')) (h : Alone s' t' res)
    (hnotes : effects notes = []) : Alone s t res := by
  have hall := h.step hstep
  rwa [hnotes, List.nil_append] at hall

/-- The last step of a call. -/
theorem Alone.last (hstep : Task.step s t = (s', notes, .done)) :
    Alone s t (s'.node, effects notes) := by
  have hall := (alone_done s').step hstep
  rwa [List.append_nil] at hall

/-! ### Sending -/

/-- The loop over `sendToRemote`, two steps to a packet. -/
theorem alone_send (env : Env P) (r : Ref) (pkts : List Bytes) : ∀ s : Shared P,
    Alone s (.send env r pkts) (s.node.sendAll env r pkts) := by
  induction pkts with
  | nil =>
      intro s
      have hstep : Task.step s (.send env r []) = (s, [], .done) := rfl
      exact Alone.last hstep
  | cons pkt pkts ih =>
      intro s
      cases hr : s.node.hostmap.hosts[r]? with
      | none =>
          have hnone : ∀ pkts, s.node.sendAll env r pkts = (s.node, []) := by
            intro pkts
            induction pkts with
            | nil => rfl
            | cons pkt pkts ih =>
                simp only [Interface.sendAll, Interface.sendToRemote_of_none hr, ih]
                rfl
          rw [hnone]
          exact Alone.last (step_send_none hr)
      | some host =>
          -- the counter is taken, then the packet is sealed under it
          let host' := { host with counter := host.counter + 1 }
          let s₁ := s.setHostmap (s.node.hostmap.assign r host')
          have hr₁ : s₁.node.hostmap.hosts[r]? = some host' := by
            have hset := HostMap.hosts_assign hr host' r
            rwa [if_pos rfl] at hset
          simp only [Interface.sendAll, Interface.sendToRemote_eq hr]
          exact ((ih s₁).step (step_encrypt hr₁)).silent (step_send hr) rfl

/-- `onHandshakeComplete`. -/
theorem alone_add (s : Shared P) (env : Env P) (o : Origin) (h : HostInfo) (pending : List Bytes) :
    Alone s (.add env o h pending) (s.node.onHandshakeComplete env h pending) := by
  let r := s.node.hostmap.hosts.length
  let s₁ := s.setHostmap (s.node.hostmap.add h)
  have hadd : Task.step s (.add env o h pending)
      = (s₁, [.added o r h pending], .storeCert env r h pending) := rfl
  have hstore : Task.step s₁ (.storeCert env r h pending)
      = (⟨s.node.installed h, s.responders⟩, [], .send env r pending) := rfl
  exact ((alone_send env r pending _).silent hstore rfl).silent hadd rfl

/-! ### Packets from the TUN device -/

/-- `QueuePacket` ends a call. -/
theorem alone_queuePacket (s : Shared P) (dstIP : Addr) (pkt : Bytes) :
    Alone s (.queuePacket dstIP pkt)
      ((s.setManager (s.node.handshakeMgr.queuePacket dstIP pkt)).node, []) := by
  have hstep : Task.step s (.queuePacket dstIP pkt)
      = (s.setManager (s.node.handshakeMgr.queuePacket dstIP pkt), [], .done) := rfl
  exact Alone.last hstep

/-- `consumeInsidePacket` after the firewall has admitted a packet for which there is no session. -/
theorem alone_getPeerCert (s : Shared P) (env : Env P) (dstIP : Addr) (pkt : Bytes)
    (hhost : s.node.hostmap.getByVpnIP dstIP = none) :
    Alone s (.getPeerCert env dstIP pkt) (s.node.forwardInside env dstIP pkt) := by
  unfold Interface.forwardInside
  rw [hhost]
  simp only
  cases hcert : s.node.peerCerts dstIP with
  | none =>
      exact (alone_queuePacket s dstIP pkt).silent (step_getPeerCert_none hcert) rfl
  | some remoteCert =>
      refine Alone.silent (step_getPeerCert hcert) ?_ rfl
      cases haddrs : s.node.lighthouse.getAddrs dstIP with
      | nil =>
          have hqueue := (alone_queuePacket s dstIP pkt).step
            (step_getAddrs_nil env pkt remoteCert haddrs)
          rwa [effects_map_effect, List.append_nil] at hqueue
      | cons addr addrs =>
          refine Alone.silent (step_getAddrs_cons haddrs) ?_ rfl
          rcases hstart : s.node.handshakeMgr.startHandshake env dstIP addr remoteCert with
            ⟨m, effs, err | ⟨⟨⟩⟩⟩
          · have hlast := Alone.last (step_startHandshake_error pkt hstart)
            rw [effects_map_effect_append effs rfl] at hlast
            simp only [hstart]
            exact hlast
          · have hqueue := (alone_queuePacket (s.setManager m) dstIP pkt).step
              (step_startHandshake pkt hstart)
            rw [effects_map_effect_append effs rfl, List.append_nil] at hqueue
            simp only [hstart]
            exact hqueue

theorem alone_inside (s : Shared P) (env : Env P) (pkt : Bytes) :
    Alone s (.inside env pkt) (s.node.consumeInsidePacket env pkt) := by
  unfold Interface.consumeInsidePacket
  cases hdst : dstIPFromIPv4 pkt with
  | none => exact Alone.last (step_inside_none hdst)
  | some dstIP =>
      refine Alone.silent (step_inside hdst) ?_ rfl
      rcases hverdict : s.node.fw.allowOutbound env.now dstIP
        (Interface.hostGroups (s.node.hostmap.getByVpnIP dstIP)) (dstPortFromIPv4 pkt)
        (protoFromIPv4 pkt) with ⟨fw, _ | _⟩
      · simp only [hverdict]
        exact Alone.last (step_allowOutbound s _ hverdict)
      · let s₁ : Shared P := ⟨{ s.node with fw }, s.responders⟩
        -- the session found before the firewall was asked is the one that forwarding finds
        cases hhost : s.node.hostmap.getByVpnIP dstIP with
        | none =>
            rw [hhost] at hverdict
            simp only [hverdict, hhost]
            exact (alone_getPeerCert s₁ env dstIP pkt hhost).step
              (step_allowOutbound s none hverdict)
        | some found =>
            obtain ⟨r, h⟩ := found
            rw [hhost] at hverdict
            have hsend := (alone_send env r [pkt] s₁).step (step_allowOutbound s (some r) hverdict)
            have hforward : s₁.node.forwardInside env dstIP pkt
                = s₁.node.sendAll env r [pkt] := by
              have hfound : s₁.node.hostmap.getByVpnIP dstIP = some (r, h) := hhost
              simp only [Interface.forwardInside, hfound, Interface.sendAll, List.append_nil]
            simp only [hverdict, hhost]
            rw [← hforward] at hsend
            exact hsend

/-! ### Datagrams -/

/-- `handleMessage` once the session is found. -/
theorem alone_checkReplay (s : Shared P) (env : Env P) (pkt : Bytes) (hdr : Header)
    (src : UDPAddr) {r : Ref} {host : HostInfo}
    (hget : s.node.hostmap.getByIndex hdr.remoteIndex = some (r, host)) :
    Alone s (.checkReplay env pkt hdr r) (s.node.handleMessage env pkt hdr src) := by
  have hr := (HostMap.getByIndex_eq_some.mp hget).2
  unfold Interface.handleMessage
  simp only [hget]
  rcases hreceive : host.receive P hdr pkt with ⟨host', err | plaintext⟩
  · exact Alone.last (step_checkReplay_error hr hreceive)
  · let s₁ := s.setHostmap (s.node.hostmap.assign r host')
    have hdeliver : Task.step s₁ (.deliver env host' plaintext)
        = (⟨(s₁.node.deliver env host' plaintext).1, s₁.responders⟩,
          (s₁.node.deliver env host' plaintext).2.map .effect, .done) := rfl
    have hlast := Alone.last hdeliver
    rw [effects_map_effect] at hlast
    exact hlast.step (step_checkReplay hr hreceive)

theorem alone_handleStage0 (s : Shared P) (env : Env P) (pkt : Bytes) {hdr : Header}
    (src : UDPAddr) (hsub : hdr.subType = handshakeInitiation) :
    Alone s (.handleStage0 env pkt src) (s.node.handleHandshake env pkt hdr src) := by
  unfold Interface.handleHandshake
  rw [if_pos hsub]
  rcases hres : s.node.handshakeMgr.handleStage0 env pkt src with ⟨sent, err | host⟩
  · have hlast := Alone.last (step_handleStage0_error hres)
    rwa [effects_map_effect] at hlast
  · have hall := (alone_add _ env (.responder s.responders) host []).step (step_handleStage0 hres)
    rwa [effects_map_effect_append sent rfl] at hall

theorem alone_handleStage1 (s : Shared P) (env : Env P) {pkt : Bytes} {hdr : Header}
    (src : UDPAddr) (hparse : Header.parse pkt = .ok hdr)
    (hsub : hdr.subType = handshakeResponse) :
    Alone s (.handleStage1 env pkt) (s.node.handleHandshake env pkt hdr src) := by
  have hlong := Header.length_of_parse hparse
  have hnot : hdr.subType ≠ handshakeInitiation := by
    rw [hsub]
    decide
  unfold Interface.handleHandshake HandshakeManager.handleStage1
  rw [if_neg hnot, if_pos hsub, if_neg hlong, hparse]
  simp only
  rcases step_handleStage1_cases s env pkt with
    ⟨hdr', r, ph, hparse', hidx, hr, htake⟩ | ⟨hnone, hstep⟩
  · obtain rfl : hdr = hdr' := Except.ok.inj (hparse.symm.trans hparse')
    have hph : s.node.handshakeMgr.getIndex hdr.remoteIndex = some ph := by
      rw [HandshakeManager.getIndex, hidx, Option.bind_some, hr]
    let s₁ := s.setManager (s.node.handshakeMgr.take hdr.remoteIndex ph)
    have hr₁ : s₁.node.handshakeMgr.handshakes[r]? = some ph := hr
    refine Alone.silent htake ?_ rfl
    simp only [hph]
    cases hread : s.node.handshakeMgr.readStage1 env.now ph pkt with
    | error err =>
        have hread₁ : s₁.node.handshakeMgr.readStage1 env.now ph pkt = .error err := hread
        exact Alone.last (step_readStage1_error hr₁ hread₁)
    | ok st =>
        have hread₁ : s₁.node.handshakeMgr.readStage1 env.now ph pkt = .ok st := hread
        exact (alone_add s₁ env _ _ _).silent (step_readStage1 hr₁ hread₁) rfl
  · simp only [hnone hdr hparse]
    exact Alone.last hstep

theorem alone_outside (s : Shared P) (env : Env P) (pkt : Bytes) (src : UDPAddr) :
    Alone s (.outside env pkt src) (s.node.consumeOutsidePacket env pkt src) := by
  have hdispatch : Task.step s (.outside env pkt src) = dispatch s env pkt src := rfl
  unfold Interface.consumeOutsidePacket
  unfold dispatch at hdispatch
  by_cases hshort : pkt.length < headerLen
  · rw [if_pos hshort] at hdispatch ⊢
    exact Alone.last hdispatch
  rw [if_neg hshort] at hdispatch ⊢
  cases hparse : Header.parse pkt with
  | error e =>
      rw [hparse] at hdispatch
      exact Alone.last hdispatch
  | ok hdr =>
      rw [hparse] at hdispatch
      simp only at hdispatch ⊢
      by_cases hmessage : hdr.type = typeMessage
      · rw [if_pos hmessage] at hdispatch ⊢
        cases hget : s.node.hostmap.getByIndex hdr.remoteIndex with
        | none =>
            rw [hget] at hdispatch
            have hlast := Alone.last hdispatch
            rw [effects_map_effect] at hlast
            simp only [Interface.handleMessage, hget]
            exact hlast
        | some found =>
            rw [hget] at hdispatch
            exact (alone_checkReplay s env pkt hdr src hget).silent hdispatch rfl
      rw [if_neg hmessage] at hdispatch ⊢
      by_cases hhandshake : hdr.type = typeHandshake
      · rw [if_pos hhandshake] at hdispatch ⊢
        by_cases hinit : hdr.subType = handshakeInitiation
        · rw [if_pos hinit] at hdispatch
          exact (alone_handleStage0 s env pkt src hinit).silent hdispatch rfl
        rw [if_neg hinit] at hdispatch
        by_cases hresp : hdr.subType = handshakeResponse
        · rw [if_pos hresp] at hdispatch
          exact (alone_handleStage1 s env src hparse hresp).silent hdispatch rfl
        rw [if_neg hresp] at hdispatch
        simp only [Interface.handleHandshake, if_neg hinit, if_neg hresp]
        exact Alone.last hdispatch
      rw [if_neg hhandshake] at hdispatch ⊢
      by_cases hlight : hdr.type = typeLightHouse
      · rw [if_pos hlight] at hdispatch ⊢
        have hlast := Alone.last hdispatch
        rwa [effects_map_effect] at hlast
      rw [if_neg hlight] at hdispatch ⊢
      by_cases htest : hdr.type = typeTest
      · rw [if_pos htest] at hdispatch ⊢
        have hlast := Alone.last hdispatch
        rwa [effects_map_effect] at hlast
      rw [if_neg htest] at hdispatch ⊢
      by_cases hclose : hdr.type = typeCloseTunnel
      · rw [if_pos hclose] at hdispatch ⊢
        unfold Interface.handleCloseTunnel
        cases hget : s.node.hostmap.getByIndex hdr.remoteIndex with
        | none =>
            rw [hget] at hdispatch
            exact Alone.last hdispatch
        | some found =>
            rw [hget] at hdispatch
            have hremove : Task.step s (.remove found.2.vpnIP)
                = (s.setHostmap (s.node.hostmap.remove found.2.vpnIP), [], .done) := rfl
            exact (Alone.last hremove).silent hdispatch rfl
      · rw [if_neg hclose] at hdispatch ⊢
        exact Alone.last hdispatch

/-- **A call alone is one step of the node.** -/
theorem alone_of (s : Shared P) (e : Env P × Interface.Event) :
    Alone s (Task.of e) (s.node.step e) := by
  obtain ⟨env, ev⟩ := e
  cases ev with
  | inside pkt => exact alone_inside s env pkt
  | outside pkt src => exact alone_outside s env pkt src
  | retry =>
      have hretry : Task.step s (.retryPending env)
          = (s.setManager (s.node.handshakeMgr.retryPending env).1,
            (s.node.handshakeMgr.retryPending env).2.map .effect, .done) := rfl
      have hlast := Alone.last hretry
      rwa [effects_map_effect] at hlast
  | expire =>
      have hexpire : Task.step s (.runExpiry env)
          = (⟨{ s.node with fw := s.node.fw.runExpiry env.now }, s.responders⟩,
            [.effect (.expired env.now)], .done) := rfl
      exact Alone.last hexpire
  | advertise =>
      have hadvertise : Task.step s (.advertise env)
          = (s, (s.node.lighthouse.advertise env).map .effect, .done) := rfl
      have hlast := Alone.last hadvertise
      rwa [effects_map_effect] at hlast

end Task

namespace Daemon

/-- **The runs of the node are among the interleavings.**  Some turns take the calls one after the
other, each to its end, and leave the node and the effects of the run. -/
theorem exists_turns_of_run (es : List (Env P × Interface.Event)) : ∀ D : Daemon P,
    ∃ ts, (D.run ts).shared.node = (D.shared.node.run es).1 ∧
      effects (D.run ts).log = effects D.log ++ (D.shared.node.run es).2.flatten := by
  induction es with
  | nil => intro D; exact ⟨[], rfl, by simp [run, Interface.run]⟩
  | cons e es ih =>
      intro D
      obtain ⟨notes, k, hfinishes, heffs⟩ := Task.alone_of D.shared e
      have hlast : (D.tasks ++ [Task.of e])[D.tasks.length]? = some (Task.of e) := by simp
      obtain ⟨j, u, -, hturns⟩ := hfinishes.exists_turns _ D.log hlast
      obtain ⟨ts, hnode, hlog⟩ := ih
        ⟨⟨(D.shared.node.step e).1, k⟩, (D.tasks ++ [Task.of e]).set D.tasks.length u,
          D.log ++ notes⟩
      refine ⟨.call e :: List.replicate j (.advance D.tasks.length) ++ ts, ?_⟩
      have hrun : D.run (.call e :: List.replicate j (.advance D.tasks.length) ++ ts)
          = run ⟨⟨(D.shared.node.step e).1, k⟩, (D.tasks ++ [Task.of e]).set D.tasks.length u,
            D.log ++ notes⟩ ts := by
        unfold run
        rw [List.cons_append, Program.run_cons, Program.run_append]
        exact congrArg (fun D => (program P).run D ts) hturns
      rw [hrun]
      refine ⟨hnode, ?_⟩
      rw [hlog, effects_append, heffs]
      simp [Interface.run]

end Daemon

end Neth
