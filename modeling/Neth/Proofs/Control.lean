/-
The control plane of a node.

Who a session belongs to and which keys it has is decided by handshakes alone.  A
counter, a replay bit, a queued packet or a retry timer plays no part in it, and
neither do the firewall and the lighthouse.  `Interface.control` forgets all of these,
and `Reaction` lists what one event can do to what is left, with the datagrams that
get out.  Results about identities and keys over whole runs are proved from its cases.
-/
import Neth.Network
import Neth.Proofs.Initiator
import Neth.Proofs.Node

namespace Neth

variable {P : Platform}

/-! ### What stays of sessions and pending handshakes

Counters, replay windows, queues and timers change all the time and play no part in handshakes.  The
core of a table is what is left without them. -/

/-- The session as it was installed. -/
def HostInfo.core (h : HostInfo) : HostInfo := { h with toReplayWindow := .fresh, counter := 0 }

/-- The pending handshake without its queue and timer. -/
def PendingHandshake.core (ph : PendingHandshake P) : PendingHandshake P :=
  { ph with pendingPackets := [], attempts := 0, nextRetry := 0 }

namespace HostMap

/-- The sessions as they were installed. -/
def core (m : HostMap) : HostMap := { m with hosts := m.hosts.map HostInfo.core }

theorem deref_core (m : HostMap) (r : Ref) :
    m.core.deref r = (m.deref r).map (Prod.map id HostInfo.core) := by
  simp [deref, core, Function.comp_def]

theorem bind_deref_core (m : HostMap) (entry : Option Ref) :
    entry.bind m.core.deref = (entry.bind m.deref).map (Prod.map id HostInfo.core) := by
  cases entry with
  | none => rfl
  | some r => exact m.deref_core r

theorem getByVpnIP_core (m : HostMap) (ip : Addr) :
    m.core.getByVpnIP ip = (m.getByVpnIP ip).map (Prod.map id HostInfo.core) :=
  m.bind_deref_core (m.byVpnIP ip)

theorem getByIndex_core (m : HostMap) (idx : UInt32) :
    m.core.getByIndex idx = (m.getByIndex idx).map (Prod.map id HostInfo.core) :=
  m.bind_deref_core (m.byIndex idx)

theorem core_add (m : HostMap) (h : HostInfo) : (m.add h).core = m.core.add h.core := by
  simp [core, add, HostInfo.core]

theorem core_remove (m : HostMap) (ip : Addr) : (m.remove ip).core = m.core.remove ip := by
  unfold remove
  rw [getByVpnIP_core]
  cases m.getByVpnIP ip with
  | none => rfl
  | some p => rfl

/-- Assigning to a session's mutable fields is not seen. -/
theorem core_assign {m : HostMap} {r : Ref} {h h' : HostInfo} (hr : m.hosts[r]? = some h)
    (hcore : h'.core = h.core) : (m.assign r h').core = m.core := by
  have hlist : (m.assign r h').hosts.map HostInfo.core = m.hosts.map HostInfo.core := by
    refine List.ext_getElem? fun r' => ?_
    simp only [List.getElem?_map, hosts_assign hr]
    by_cases heq : r' = r
    · rw [if_pos heq, heq, hr]
      exact congrArg some hcore
    · rw [if_neg heq]
  unfold core
  rw [hlist]
  rfl

end HostMap

namespace HandshakeManager

/-- The pending handshakes without their queues and timers. -/
def core (m : HandshakeManager P) : HandshakeManager P :=
  { m with handshakes := m.handshakes.map PendingHandshake.core }

theorem core_insert (m : HandshakeManager P) (ph : PendingHandshake P) :
    (m.insert ph).core = m.core.insert ph.core := by
  simp [core, insert, PendingHandshake.core]

/-- Replacing a pending handshake by one with another queue or timer is not seen. -/
theorem core_set {m : HandshakeManager P} {r : Ref} {ph ph' : PendingHandshake P}
    (hr : m.handshakes[r]? = some ph) (hcore : ph'.core = ph.core) :
    ({ m with handshakes := m.handshakes.set r ph' } : HandshakeManager P).core = m.core := by
  have hlt : r < m.handshakes.length := (List.getElem?_eq_some_iff.mp hr).1
  have hlist : (m.handshakes.set r ph').map PendingHandshake.core
      = m.handshakes.map PendingHandshake.core := by
    refine List.ext_getElem? fun r' => ?_
    simp only [List.getElem?_map, List.getElem?_set]
    by_cases heq : r = r'
    · rw [if_pos heq, if_pos hlt, ← heq, hr]
      exact congrArg some hcore
    · rw [if_neg heq]
  unfold core
  rw [hlist]

theorem core_queuePacket (m : HandshakeManager P) (v : Addr) (pkt : Bytes) :
    (m.queuePacket v pkt).core = m.core := by
  unfold queuePacket
  cases m.pending v with
  | none => rfl
  | some r =>
      cases hr : m.handshakes[r]? with
      | none =>
          simp only
          rw [List.modify_eq_set_getElem?, hr]
          rfl
      | some ph =>
          simp only
          rw [List.modify_eq_set_getElem?, hr]
          exact core_set hr rfl

/-- Queueing a packet enters and removes nothing. -/
theorem queuePacket_maps (m : HandshakeManager P) (v : Addr) (pkt : Bytes) :
    (m.queuePacket v pkt).pending = m.pending ∧
      (m.queuePacket v pkt).handshakes.length = m.handshakes.length := by
  unfold queuePacket
  split
  · exact ⟨rfl, rfl⟩
  · exact ⟨rfl, by simp⟩

theorem getIndex_core (m : HandshakeManager P) (idx : UInt32) :
    m.core.getIndex idx = (m.getIndex idx).map PendingHandshake.core := by
  unfold getIndex
  cases hr : m.indexMap idx with
  | none => simp [core, hr]
  | some r => simp [core, hr]

theorem names_core {m : HandshakeManager P} {pkt : Bytes} {idx : UInt32}
    {ph : PendingHandshake P} (h : m.Names pkt idx ph) : m.core.Names pkt idx ph.core := by
  obtain ⟨hdr, hparse, hidx, hph⟩ := h
  exact ⟨hdr, hparse, hidx, by rw [getIndex_core, hph]; rfl⟩

theorem exists_names_of_core {m : HandshakeManager P} {pkt : Bytes} {idx : UInt32}
    {ph : PendingHandshake P} (h : m.core.Names pkt idx ph) :
    ∃ ph', m.Names pkt idx ph' ∧ ph'.core = ph := by
  obtain ⟨hdr, hparse, hidx, hph⟩ := h
  rw [getIndex_core] at hph
  obtain ⟨ph', hph', hcore⟩ := Option.map_eq_some_iff.mp hph
  exact ⟨ph', ⟨hdr, hparse, hidx, hph'⟩, hcore⟩

/-- `StartHandshake` does nothing to the manager, or stores a new pending handshake and sends its
first message. -/
theorem startHandshake_cases (m : HandshakeManager P) (env : Env P) (v : Addr) (addr : UDPAddr)
    (cert : Certificate) :
    (∃ res, m.startHandshake env v addr cert = (m, [], res)) ∨
      ∃ ph res, m.pending v = none ∧ m.newPending env v addr cert = .ok ph ∧
        m.startHandshake env v addr cert = (m.insert ph, [env.send ph.stage0msg addr], res) := by
  unfold startHandshake
  cases hidle : m.pending v with
  | some r => exact .inl ⟨_, rfl⟩
  | none =>
      cases hnew : m.newPending env v addr cert with
      | error e => exact .inl ⟨_, rfl⟩
      | ok ph => exact .inr ⟨ph, _, rfl, rfl, rfl⟩

/-! ### Retransmission

A turn of the loop either changes a timer, which the core does not show, or takes a handshake out.
-/

/-- What one turn of the loop of `retryPending` can do. -/
inductive RetryStep (env : Env P) : HandshakeManager P → List Effect → HandshakeManager P → Prop
  | idle (m : HandshakeManager P) : RetryStep env m [] m
  | resend {m : HandshakeManager P} {v : Addr} {r : Ref} {ph : PendingHandshake P}
      (hpending : m.pending v = some r) (hr : m.handshakes[r]? = some ph) :
      RetryStep env m [env.send ph.stage0msg ph.remoteAddr] m
  | giveUp {m : HandshakeManager P} {v : Addr} {r : Ref} {ph : PendingHandshake P}
      (hpending : m.pending v = some r) (hr : m.handshakes[r]? = some ph) :
      RetryStep env m [] { m with
        pending := Function.update m.pending v none
        indexMap := Function.update m.indexMap ph.localIndex none }

theorem retryOne_retryStep (env : Env P) (m : HandshakeManager P) (v : Addr) :
    RetryStep env m.core (m.retryOne env v).2 (m.retryOne env v).1.core := by
  unfold retryOne
  cases hpending : m.pending v with
  | none => exact .idle _
  | some r =>
      cases hr : m.handshakes[r]? with
      | none =>
          simp only [hr]
          exact .idle _
      | some ph =>
          have hcore : m.core.handshakes[r]? = some ph.core := by simp [core, hr]
          simp only [hr]
          split_ifs
          · exact .idle _
          · have hstep : RetryStep env m.core [] { m.core with
                pending := Function.update m.pending v none
                indexMap := Function.update m.indexMap ph.core.localIndex none } :=
              .giveUp hpending hcore
            exact hstep
          · have hstep : RetryStep env m.core
                [env.send ph.core.stage0msg ph.core.remoteAddr] m.core := .resend hpending hcore
            simp only
            rw [core_set hr]
            · exact hstep
            · rfl

/-- The loop of `retryPending` keeps what taking out a handshake keeps. -/
theorem RetryStep.rule {env : Env P} (Inv : HandshakeManager P → Prop)
    (hdrop : ∀ {m : HandshakeManager P} {v r ph}, Inv m → m.pending v = some r →
      m.handshakes[r]? = some ph → Inv { m with
        pending := Function.update m.pending v none
        indexMap := Function.update m.indexMap ph.localIndex none })
    {m m' : HandshakeManager P} {effs : List Effect}
    (hretry : Trace.Executes (RetryStep env) m effs m') : Inv m → Inv m' := by
  induction hretry with
  | nil m => exact fun hm => hm
  | cons hstep _ ih =>
      intro hm
      refine ih ?_
      cases hstep with
      | idle => exact hm
      | resend _ _ => exact hm
      | giveUp hpending hr => exact hdrop hm hpending hr

/-- Nothing is started or changed by retransmission: the pending handshakes are the same. -/
theorem RetryStep.handshakes_eq {env : Env P} {m m' : HandshakeManager P} {effs : List Effect}
    (h : Trace.Executes (RetryStep env) m effs m') : m'.handshakes = m.handshakes ∧
      m'.localCert = m.localCert ∧ m'.localKey = m.localKey ∧ m'.caPool = m.caPool :=
  RetryStep.rule (fun m' => m'.handshakes = m.handshakes ∧ m'.localCert = m.localCert ∧
    m'.localKey = m.localKey ∧ m'.caPool = m.caPool) (fun hm _ _ => hm) h ⟨rfl, rfl, rfl, rfl⟩

theorem retryPending_executes (m : HandshakeManager P) (env : Env P) :
    Trace.Executes (RetryStep env) m.core (m.retryPending env).2 (m.retryPending env).1.core :=
  retryPending_rule (fun m' effs => Trace.Executes (RetryStep env) m.core effs m'.core) m env
    (.nil _) fun m' _ v h => h.append (.single (retryOne_retryStep env m' v))

end HandshakeManager

/-! ### Datagrams

A datagram is quiet if it is neither a handshake message nor one that closes a tunnel.  Most of what
a node sends is. -/

/-- `data` got out. -/
def Wrote (effs : List Effect) (data : Bytes) : Prop := ∃ addr, .writeTo data addr true ∈ effs

/-- A handshake datagram of the given subtype. -/
def IsHandshake (subtype : HandshakeSubType) (data : Bytes) : Prop :=
  ∃ hdr, Header.parse data = .ok hdr ∧ hdr.type = typeHandshake ∧ hdr.subType = subtype

theorem IsHandshake.not_quiet {subtype : HandshakeSubType} {data : Bytes}
    (h : IsHandshake subtype data) : ¬ Quiet data := by
  obtain ⟨hdr, hparse, htype, -⟩ := h
  exact fun hquiet => (hquiet hdr hparse).1 htype

theorem IsHandshake.unique {subtype subtype' : HandshakeSubType} {data : Bytes}
    (h : IsHandshake subtype data) (h' : IsHandshake subtype' data) : subtype = subtype' := by
  obtain ⟨hdr, hparse, -, rfl⟩ := h
  obtain ⟨hdr', hparse', -, rfl⟩ := h'
  rw [Except.ok.inj (hparse.symm.trans hparse')]

theorem IsHandshake.not_close {subtype : HandshakeSubType} {data : Bytes} {hdr : Header}
    (h : IsHandshake subtype data) (hparse : Header.parse data = .ok hdr) :
    hdr.type ≠ typeCloseTunnel := by
  obtain ⟨hdr', hparse', htype, -⟩ := h
  rw [Except.ok.inj (hparse.symm.trans hparse'), htype]
  decide

theorem wrote_of_mem_sentTo {addr : UDPAddr} {effs : List Effect} {data : Bytes}
    (h : data ∈ sentTo addr effs) : Wrote effs data := by
  obtain ⟨eff, hmem, heq⟩ := List.mem_filterMap.mp h
  split at heq
  · next data' addr' =>
      split at heq
      · obtain rfl := Option.some.inj heq
        exact ⟨_, hmem⟩
      · cases heq
  · cases heq

/-- Every datagram that got out is quiet. -/
def AllQuiet (effs : List Effect) : Prop := ∀ data, Wrote effs data → Quiet data

theorem wrote_append {effs effs' : List Effect} {data : Bytes} :
    Wrote (effs ++ effs') data ↔ Wrote effs data ∨ Wrote effs' data := by
  unfold Wrote
  simp only [List.mem_append, exists_or]

theorem not_wrote_nil {data : Bytes} : ¬ Wrote [] data := by
  rintro ⟨addr, hmem⟩
  cases hmem

theorem wrote_of_send {env : Env P} {data data' : Bytes} {addr : UDPAddr}
    (h : Wrote [env.send data addr] data') : data' = data := by
  obtain ⟨addr', hmem⟩ := h
  simp only [Env.send, List.mem_singleton, Effect.writeTo.injEq] at hmem
  exact hmem.1

theorem allQuiet_nil : AllQuiet [] := fun _ h => absurd h not_wrote_nil

theorem AllQuiet.append {effs effs' : List Effect} (h : AllQuiet effs) (h' : AllQuiet effs') :
    AllQuiet (effs ++ effs') := by
  intro data hwrote
  rcases wrote_append.mp hwrote with hw | hw
  · exact h data hw
  · exact h' data hw

theorem allQuiet_of_isQuietWrite {effs : List Effect} (h : ∀ e ∈ effs, e.IsQuietWrite) :
    AllQuiet effs := by
  rintro data ⟨addr, hmem⟩
  exact h _ hmem

/-- **What a responder sends is its second Noise message**, and if that finished the pattern then
the session it hands over is the one the message was written for. -/
theorem HandshakeManager.handleStage0_wrote {m : HandshakeManager P} {env : Env P} {pkt : Bytes}
    {src : UDPAddr} {data : Bytes} (h : Wrote (m.handleStage0 env pkt src).1 data) :
    ∃ s idx w, m.readStage0 env.now pkt = .ok s ∧ env.index = .ok idx ∧
      P.writeMessage s.state env.entropy [] = .ok w ∧
      Wire P m.localCert w.message (ownDetails P m.localCert s.details.initiatorIndex idx env.now)
        s.details.initiatorIndex handshakeResponse data ∧
      ∀ cs, w.ciphers = some cs → (m.handleStage0 env pkt src).2
        = .ok (stage0Host s src idx (⟨cs.2.unsafeKey⟩, ⟨cs.1.unsafeKey⟩)) := by
  cases hread : m.readStage0 env.now pkt with
  | error e =>
      simp only [handleStage0, hread] at h
      exact absurd h not_wrote_nil
  | ok s =>
      cases hbuild : m.buildStage1 env s with
      | error e =>
          simp only [handleStage0, hread, hbuild] at h
          exact absurd h not_wrote_nil
      | ok built =>
          obtain ⟨idx, wire, cs⟩ := built
          obtain ⟨w, hidx, hw, hwire, rfl⟩ := buildStage1_ok.mp hbuild
          have hsent : Wrote [env.send wire src] data := by
            simp only [handleStage0, hread, hbuild] at h
            split at h
            · exact h
            · split at h
              · exact h
              · exact h
          obtain rfl := wrote_of_send hsent
          have hwrite : env.writeTo data src = .ok () := by
            obtain ⟨addr, hmem⟩ := hsent
            obtain ⟨-, -, hok⟩ := Effect.writeTo.inj (List.mem_singleton.mp hmem)
            cases hres : env.writeTo data src with
            | error e =>
                rw [hres] at hok
                cases hok
            | ok u => rfl
          refine ⟨s, idx, w, rfl, hidx, hw, hwire, ?_⟩
          intro cs hcs
          refine handleStage0_ok.mpr ⟨s, idx, data, w.ciphers, _, hread, hbuild, hwrite, ?_, rfl⟩
          exact ciphersFromStates_ok.mpr ⟨cs.1, cs.2, hcs, rfl⟩

/-- What retransmission sends are first messages of pending handshakes. -/
theorem HandshakeManager.RetryStep.wrote {env : Env P} {m m' : HandshakeManager P}
    {effs : List Effect} (h : Trace.Executes (RetryStep env) m effs m') :
    ∀ data, Wrote effs data → ∃ v r ph, m.pending v = some r ∧ m.handshakes[r]? = some ph ∧
      data = ph.stage0msg := by
  induction h with
  | nil m => exact fun data hw => absurd hw not_wrote_nil
  | cons hstep hrest ih =>
      intro data hw
      rcases wrote_append.mp hw with hw | hw
      · cases hstep with
        | idle => exact absurd hw not_wrote_nil
        | @resend v r ph hpending hr => exact ⟨v, r, ph, hpending, hr, wrote_of_send hw⟩
        | giveUp _ _ => exact absurd hw not_wrote_nil
      · obtain ⟨v, r, ph, hpending, hr, hdata⟩ := ih data hw
        cases hstep with
        | idle => exact ⟨v, r, ph, hpending, hr, hdata⟩
        | resend _ _ => exact ⟨v, r, ph, hpending, hr, hdata⟩
        | @giveUp v' _ _ _ _ =>
            refine ⟨v, r, ph, ?_, hr, hdata⟩
            simp only [Function.update_apply] at hpending
            split at hpending
            · cases hpending
            · exact hpending

/-! ### One reaction

`Reaction` lists what an event can do to sessions and handshakes.  Every invariant of theirs is
proved from this list, without a look at the code. -/

/-- What a node knows about its peers: sessions and pending handshakes at their core, and the
certificates to start handshakes with. -/
structure Control (P : Platform) where
  hostmap : HostMap
  handshakeMgr : HandshakeManager P
  peerCerts : GoMap Addr Certificate

/-- The control state of a node. -/
def Interface.control (I : Interface P) : Control P :=
  ⟨I.hostmap.core, I.handshakeMgr.core, I.peerCerts⟩

/-- `onHandshakeComplete` up to the queue. -/
def Control.install (c : Control P) (h : HostInfo) : Control P :=
  { c with
    hostmap := c.hostmap.add h
    peerCerts := match h.cert with
      | some cert => Function.update c.peerCerts h.vpnIP (some cert)
      | none => c.peerCerts }

open HandshakeManager in
/-- Everything an event can do to the control state, with the datagrams it sends.  One constructor
for each kind of reaction; what a datagram must look like to cause it is a premise. -/
inductive Reaction (e : Env P × Interface.Event) : Control P → List Effect → Control P → Prop
  | idle (c : Control P) {effs : List Effect} (hquiet : AllQuiet effs) : Reaction e c effs c
  | close {c : Control P} {pkt : Bytes} {src : UDPAddr} {hdr : Header} (ip : Addr)
      (hevent : e.2 = .outside pkt src) (hparse : Header.parse pkt = .ok hdr)
      (htype : hdr.type = typeCloseTunnel) :
      Reaction e c [] { c with hostmap := c.hostmap.remove ip }
  | start {c : Control P} {pkt : Bytes} {v : Addr} {addr : UDPAddr} {cert : Certificate}
      {ph : PendingHandshake P} {effs : List Effect} (hevent : e.2 = .inside pkt)
      (hdst : dstIPFromIPv4 pkt = some v) (hsession : c.hostmap.getByVpnIP v = none)
      (hcert : c.peerCerts v = some cert) (hidle : c.handshakeMgr.pending v = none)
      (hnew : c.handshakeMgr.newPending e.1 v addr cert = .ok ph)
      (hwrote : ∀ data, Wrote effs data → data = ph.stage0msg) :
      Reaction e c effs { c with handshakeMgr := c.handshakeMgr.insert ph.core }
  | retry {c : Control P} {effs : List Effect} {m : HandshakeManager P} (hevent : e.2 = .retry)
      (hretry : Trace.Executes (RetryStep e.1) c.handshakeMgr effs m) :
      Reaction e c effs { c with handshakeMgr := m }
  | refuse {c : Control P} {pkt : Bytes} {src : UDPAddr} {sent : List Effect} {err : String}
      (hevent : e.2 = .outside pkt src) (hinit : IsHandshake handshakeInitiation pkt)
      (hread : c.handshakeMgr.handleStage0 e.1 pkt src = (sent, .error err)) :
      Reaction e c sent c
  | answer {c : Control P} {pkt : Bytes} {src : UDPAddr} {sent : List Effect} {host : HostInfo}
      (hevent : e.2 = .outside pkt src) (hinit : IsHandshake handshakeInitiation pkt)
      (hread : c.handshakeMgr.handleStage0 e.1 pkt src = (sent, .ok host)) :
      Reaction e c sent (c.install host.core)
  | abandon {c : Control P} {pkt : Bytes} {src : UDPAddr} {idx : UInt32} {ph : PendingHandshake P}
      {err : String} (hevent : e.2 = .outside pkt src)
      (hresp : IsHandshake handshakeResponse pkt) (hnames : c.handshakeMgr.Names pkt idx ph)
      (hread : c.handshakeMgr.readStage1 e.1.now ph pkt = .error err) :
      Reaction e c [] { c with handshakeMgr := c.handshakeMgr.take idx ph }
  | complete {c : Control P} {pkt : Bytes} {src : UDPAddr} {idx : UInt32}
      {ph : PendingHandshake P} {s : Stage1} {effs : List Effect} (hevent : e.2 = .outside pkt src)
      (hresp : IsHandshake handshakeResponse pkt) (hnames : c.handshakeMgr.Names pkt idx ph)
      (hread : c.handshakeMgr.readStage1 e.1.now ph pkt = .ok s) (hquiet : AllQuiet effs) :
      Reaction e c effs
        (Control.install { c with handshakeMgr := c.handshakeMgr.take idx ph } (stage1Host ph s))

namespace Interface

variable {I : Interface P}

theorem control_installed (I : Interface P) (h : HostInfo) :
    (I.installed h).control = I.control.install h.core := by
  unfold control installed Control.install
  simp only [HostMap.core_add]
  rfl

/-! #### Data -/

theorem control_assign {r : Ref} {h h' : HostInfo} (hr : I.hostmap.hosts[r]? = some h)
    (hcore : h'.core = h.core) :
    ({ I with hostmap := I.hostmap.assign r h' } : Interface P).control = I.control := by
  unfold control
  simp only
  rw [HostMap.core_assign hr hcore]

theorem quiet_datagram (h : HostInfo) (plaintext : Bytes) : Quiet (h.datagram P plaintext) :=
  quiet_bytes_append rfl (.inl rfl) _

theorem sendToRemote_control (I : Interface P) (env : Env P) (r : Ref) (pkt : Bytes) :
    (I.sendToRemote env r pkt).1.control = I.control ∧ AllQuiet (I.sendToRemote env r pkt).2 := by
  cases hr : I.hostmap.hosts[r]? with
  | none =>
      rw [sendToRemote_of_none hr]
      exact ⟨rfl, allQuiet_nil⟩
  | some host =>
      rw [sendToRemote_eq hr]
      refine ⟨?_, ?_⟩
      · exact control_assign hr rfl
      · rintro data ⟨addr, hmem⟩
        simp only [HostInfo.sealed, Env.send, List.mem_cons, reduceCtorEq, Effect.writeTo.injEq,
          false_or, List.not_mem_nil, or_false] at hmem
        rw [hmem.1]
        exact quiet_datagram host pkt

theorem sendAll_control (env : Env P) (r : Ref) (pkts : List Bytes) : ∀ I : Interface P,
    (I.sendAll env r pkts).1.control = I.control ∧ AllQuiet (I.sendAll env r pkts).2 := by
  induction pkts with
  | nil => intro I; exact ⟨rfl, allQuiet_nil⟩
  | cons pkt pkts ih =>
      intro I
      obtain ⟨hcontrol, hquiet⟩ := I.sendToRemote_control env r pkt
      obtain ⟨hcontrol', hquiet'⟩ := ih (I.sendToRemote env r pkt).1
      exact ⟨hcontrol'.trans hcontrol, hquiet.append hquiet'⟩

theorem allQuiet_deliver (I : Interface P) (env : Env P) (host : HostInfo) (plaintext : Bytes) :
    AllQuiet (I.deliver env host plaintext).2 := by
  unfold deliver
  split
  · exact allQuiet_nil
  · rintro data ⟨addr, hmem⟩
    simp only [List.mem_cons, reduceCtorEq, false_or] at hmem
    split at hmem
    · simp at hmem
    · simp at hmem

theorem deliver_control (I : Interface P) (env : Env P) (host : HostInfo) (plaintext : Bytes) :
    (I.deliver env host plaintext).1.control = I.control := by
  unfold deliver
  split
  · rfl
  · rfl

theorem core_receive (h : HostInfo) (hdr : Header) (pkt : Bytes) :
    (h.receive P hdr pkt).1.core = h.core := by
  unfold HostInfo.receive
  simp only
  split
  · rfl
  · split
    · rfl
    · rfl

theorem handleMessage_control (I : Interface P) (env : Env P) (pkt : Bytes) (hdr : Header)
    (src : UDPAddr) : (I.handleMessage env pkt hdr src).1.control = I.control ∧
      AllQuiet (I.handleMessage env pkt hdr src).2 := by
  unfold handleMessage
  cases hget : I.hostmap.getByIndex hdr.remoteIndex with
  | none =>
      refine ⟨rfl, ?_⟩
      simp only
      split
      · exact allQuiet_of_isQuietWrite (Punchy.quiet_respondToPunch _ env src)
      · exact allQuiet_nil
  | some p =>
      obtain ⟨r, host⟩ := p
      obtain ⟨-, hr⟩ := HostMap.getByIndex_eq_some.mp hget
      have hcontrol := control_assign hr (core_receive (P := P) host hdr pkt)
      simp only
      cases (host.receive P hdr pkt).2 with
      | error e => exact ⟨hcontrol, allQuiet_nil⟩
      | ok plaintext =>
          refine ⟨(deliver_control _ env _ plaintext).trans hcontrol, ?_⟩
          rintro data ⟨addr, hmem⟩
          simp only [List.mem_cons, reduceCtorEq, false_or] at hmem
          exact allQuiet_deliver _ env _ plaintext data ⟨addr, hmem⟩

/-! #### Handshakes -/

theorem handleHandshake_reacts (I : Interface P) (env : Env P) {pkt : Bytes} {hdr : Header}
    (hparse : Header.parse pkt = .ok hdr) (htype : hdr.type = typeHandshake) (src : UDPAddr) :
    Reaction (env, .outside pkt src) I.control (I.handleHandshake env pkt hdr src).2
      (I.handleHandshake env pkt hdr src).1.control := by
  unfold handleHandshake
  by_cases hinit : hdr.subType = handshakeInitiation
  · rw [if_pos hinit]
    have hpkt : IsHandshake handshakeInitiation pkt := ⟨hdr, hparse, htype, hinit⟩
    cases hres : I.handshakeMgr.handleStage0 env pkt src with
    | mk sent res =>
        cases res with
        | error e => exact .refuse rfl hpkt hres
        | ok host =>
            show Reaction _ I.control (sent ++ []) (I.installed host).control
            rw [List.append_nil, control_installed]
            exact .answer rfl hpkt hres
  rw [if_neg hinit]
  by_cases hresp : hdr.subType = handshakeResponse
  · rw [if_pos hresp]
    have hpkt : IsHandshake handshakeResponse pkt := ⟨hdr, hparse, htype, hresp⟩
    by_cases hnames : ∃ idx ph, I.handshakeMgr.Names pkt idx ph
    · obtain ⟨idx, ph, hnames⟩ := hnames
      rw [HandshakeManager.handleStage1_of_names env.now hnames]
      cases hread : I.handshakeMgr.readStage1 env.now ph pkt with
      | error e =>
          have habandon := Reaction.abandon (e := (env, .outside pkt src)) (c := I.control) rfl hpkt
            (HandshakeManager.names_core hnames) hread
          exact habandon
      | ok s =>
          let taken : Interface P := { I with handshakeMgr := I.handshakeMgr.take idx ph }
          let host := HandshakeManager.stage1Host ph s
          obtain ⟨hcontrol, hquiet⟩ := sendAll_control env I.hostmap.hosts.length ph.pendingPackets
            (taken.installed host)
          have hcomplete := Reaction.complete (e := (env, .outside pkt src)) (c := I.control) rfl
            hpkt (HandshakeManager.names_core hnames) hread hquiet
          show Reaction _ I.control
            ((taken.installed host).sendAll env I.hostmap.hosts.length ph.pendingPackets).2
            ((taken.installed host).sendAll env I.hostmap.hosts.length ph.pendingPackets).1.control
          rw [hcontrol, control_installed]
          exact hcomplete
    · obtain ⟨err, hres⟩ := HandshakeManager.handleStage1_of_not_names env.now
        fun idx ph hn => hnames ⟨idx, ph, hn⟩
      rw [hres]
      exact .idle _ allQuiet_nil
  · rw [if_neg hresp]
    exact .idle _ allQuiet_nil

/-- A packet for a peer: sent through its session, queued, or the start of a handshake.  The
verdict of the firewall stands before it in the trace. -/
theorem forwardInside_reacts (I : Interface P) (env : Env P) {pkt : Bytes} {v : Addr}
    (hdst : dstIPFromIPv4 pkt = some v) {verdict : Effect} (hverdict : ¬ verdict.IsWrite) :
    Reaction (env, .inside pkt) I.control (verdict :: (I.forwardInside env v pkt).2)
      (I.forwardInside env v pkt).1.control := by
  have hskip : ∀ {effs : List Effect} {data : Bytes}, Wrote (verdict :: effs) data →
      Wrote effs data := by
    rintro effs data ⟨addr, hmem⟩
    rcases List.mem_cons.mp hmem with heq | hmem
    · exact absurd (heq ▸ trivial) hverdict
    · exact ⟨addr, hmem⟩
  have hqueued : ({ I with handshakeMgr := I.handshakeMgr.queuePacket v pkt } :
      Interface P).control = I.control := by
    unfold control
    simp only
    rw [HandshakeManager.core_queuePacket]
  unfold forwardInside
  cases hsession : I.hostmap.getByVpnIP v with
  | some p =>
      obtain ⟨hcontrol, hquiet⟩ := I.sendToRemote_control env p.1 pkt
      simp only
      rw [hcontrol]
      exact .idle _ fun data hw => hquiet data (hskip hw)
  | none =>
      cases hcert : I.peerCerts v with
      | none =>
          simp only
          rw [hqueued]
          exact .idle _ fun data hw => allQuiet_nil data (hskip hw)
      | some cert =>
          cases I.lighthouse.getAddrs v with
          | nil =>
              simp only
              rw [hqueued]
              refine .idle _ fun data hw => ?_
              exact allQuiet_of_isQuietWrite (I.lighthouse.quiet_flatMap_send env _ _) data
                (hskip hw)
          | cons addr _ =>
              rcases I.handshakeMgr.startHandshake_cases env v addr cert with
                ⟨res, hres⟩ | ⟨ph, res, hidle, hnew, hres⟩
              · simp only [hres]
                cases res with
                | error e => exact .idle _ fun data hw => allQuiet_nil data (hskip hw)
                | ok u =>
                    rw [hqueued]
                    exact .idle _ fun data hw => allQuiet_nil data (hskip hw)
              · have hstart : Reaction (env, .inside pkt) I.control
                    (verdict :: [env.send ph.stage0msg addr])
                    { I.control with handshakeMgr := (I.handshakeMgr.insert ph).core } := by
                  rw [HandshakeManager.core_insert]
                  refine .start rfl hdst ?_ hcert hidle hnew fun data hw => wrote_of_send (hskip hw)
                  exact (HostMap.getByVpnIP_core _ v).trans (by rw [hsession]; rfl)
                simp only [hres]
                cases res with
                | error e => exact hstart
                | ok u =>
                    rw [← HandshakeManager.core_queuePacket _ v pkt] at hstart
                    exact hstart

theorem consumeInsidePacket_reacts (I : Interface P) (env : Env P) (pkt : Bytes) :
    Reaction (env, .inside pkt) I.control (I.consumeInsidePacket env pkt).2
      (I.consumeInsidePacket env pkt).1.control := by
  unfold consumeInsidePacket
  cases hdst : dstIPFromIPv4 pkt with
  | none => exact .idle _ allQuiet_nil
  | some v =>
      simp only
      generalize I.fw.allowOutbound env.now v (hostGroups (I.hostmap.getByVpnIP v))
        (dstPortFromIPv4 pkt) (protoFromIPv4 pkt) = judged
      split
      · refine forwardInside_reacts { I with fw := judged.1 } env hdst ?_
        simp [Effect.IsWrite]
      · refine .idle _ ?_
        rintro data ⟨addr, hmem⟩
        simp at hmem

theorem handleLightHouse_control (I : Interface P) (env : Env P) (pkt : Bytes) (hdr : Header)
    (src : UDPAddr) : (I.handleLightHouse env pkt hdr src).1.control = I.control ∧
      AllQuiet (I.handleLightHouse env pkt hdr src).2 := by
  unfold handleLightHouse
  simp only
  split
  · exact ⟨rfl, allQuiet_nil⟩
  · split
    · exact ⟨rfl, allQuiet_nil⟩
    · exact ⟨rfl, allQuiet_of_isQuietWrite (I.lighthouse.quiet_handleMessage env _ _)⟩

theorem handleCloseTunnel_reacts (I : Interface P) (env : Env P) {pkt : Bytes} {hdr : Header}
    (hparse : Header.parse pkt = .ok hdr) (htype : hdr.type = typeCloseTunnel) (src : UDPAddr) :
    Reaction (env, .outside pkt src) I.control [] (I.handleCloseTunnel hdr).control := by
  unfold handleCloseTunnel
  cases I.hostmap.getByIndex hdr.remoteIndex with
  | none => exact .idle _ allQuiet_nil
  | some p =>
      have hclose := Reaction.close (e := (env, .outside pkt src)) (c := I.control) p.2.vpnIP rfl
        hparse htype
      rw [show I.control.hostmap.remove p.2.vpnIP = (I.hostmap.remove p.2.vpnIP).core from
        (HostMap.core_remove _ _).symm] at hclose
      exact hclose

theorem consumeOutsidePacket_reacts (I : Interface P) (env : Env P) (pkt : Bytes) (src : UDPAddr) :
    Reaction (env, .outside pkt src) I.control (I.consumeOutsidePacket env pkt src).2
      (I.consumeOutsidePacket env pkt src).1.control := by
  unfold consumeOutsidePacket
  split
  · exact .idle _ allQuiet_nil
  · cases hparse : Header.parse pkt with
    | error e => exact .idle _ allQuiet_nil
    | ok hdr =>
        simp only
        split_ifs with hmessage hhandshake hlighthouse htest hclose
        · obtain ⟨hcontrol, hquiet⟩ := I.handleMessage_control env pkt hdr src
          rw [hcontrol]
          exact .idle _ hquiet
        · exact handleHandshake_reacts I env hparse hhandshake src
        · obtain ⟨hcontrol, hquiet⟩ := I.handleLightHouse_control env pkt hdr src
          rw [hcontrol]
          exact .idle _ hquiet
        · have hquiet : Quiet (Header.bytes ⟨headerVersion, typeTest, 0, 0, 0⟩ ++ []) :=
            quiet_bytes_append rfl (.inr (.inr rfl)) []
          rw [List.append_nil] at hquiet
          exact .idle _ (allQuiet_of_isQuietWrite (isQuietWrite_map_send env hquiet [src]))
        · exact handleCloseTunnel_reacts I env hparse hclose src
        · exact .idle _ allQuiet_nil

/-- **What an event does to the control plane.** -/
theorem step_reacts (I : Interface P) (e : Env P × Event) :
    Reaction e I.control (I.step e).2 (I.step e).1.control := by
  obtain ⟨env, ev⟩ := e
  cases ev with
  | inside pkt => exact consumeInsidePacket_reacts I env pkt
  | outside pkt src => exact consumeOutsidePacket_reacts I env pkt src
  | retry => exact .retry rfl (I.handshakeMgr.retryPending_executes env)
  | expire =>
      refine .idle _ ?_
      rintro data ⟨addr, hmem⟩
      simp [step] at hmem
  | advertise =>
      exact .idle _ (allQuiet_of_isQuietWrite (I.lighthouse.quiet_flatMap_send env _ _))

end Interface

end Neth
