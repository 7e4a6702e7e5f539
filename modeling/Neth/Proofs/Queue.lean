/-
A packet from the TUN device and a response that completes the handshake it waits for.

`consumeInsidePacket` looks for a session, starts a handshake and queues the packet in
three separate steps, and `HandleStage1` takes the pending handshake out of the maps
before it has a session to show for it.  What becomes of the packet is decided by the
step of `HandleStage1` that takes out the handshake for the packet's destination.  If
that step comes after `StartHandshake`, the packet has to be in the queue already, and
the response has to pass its checks.  Otherwise the packet is in nobody's hands when both
calls have returned.
-/
import Neth.Proofs.Nonces

namespace Neth

open Interleave

variable {P : Platform}

/-! ### Pointers to pending handshakes -/

/-- Every entry of the pending map points to a handshake. -/
def HandshakeManager.PendingValid (m : HandshakeManager P) : Prop :=
  ∀ v r, m.pending v = some r → r < m.handshakes.length

namespace HandshakeManager

variable {m : HandshakeManager P}

theorem PendingValid.startHandshake (h : m.PendingValid) (env : Env P) (v : Addr) (addr : UDPAddr)
    (cert : Certificate) : (m.startHandshake env v addr cert).1.PendingValid := by
  rcases m.startHandshake_cases env v addr cert with ⟨res, hres⟩ | ⟨ph, res, -, -, hres⟩
  · rw [hres]
    exact h
  · rw [hres]
    intro v' r hr
    simp only [insert, List.length_append, List.length_singleton] at hr ⊢
    by_cases heq : v' = ph.remoteVpnIP
    · rw [heq, Function.update_self] at hr
      rw [← Option.some.inj hr]
      exact Nat.lt_succ_self _
    · rw [Function.update_of_ne heq] at hr
      exact Nat.lt_succ_of_lt (h v' r hr)

/-- Where `StartHandshake` returns nil, a handshake is pending. -/
theorem pending_of_startHandshake {env : Env P} {v : Addr} {addr : UDPAddr} {cert : Certificate}
    {m' : HandshakeManager P} {effs : List Effect}
    (h : m.startHandshake env v addr cert = (m', effs, .ok ())) : ∃ r, m'.pending v = some r := by
  unfold HandshakeManager.startHandshake at h
  cases hpending : m.pending v with
  | some r =>
      simp only [hpending] at h
      obtain ⟨rfl, -⟩ := Prod.mk.inj h
      exact ⟨r, hpending⟩
  | none =>
      cases hnew : m.newPending env v addr cert with
      | error e =>
          simp only [hpending, hnew] at h
          cases (Prod.mk.inj (Prod.mk.inj h).2).2
      | ok ph =>
          simp only [hpending, hnew] at h
          obtain ⟨rfl, -⟩ := Prod.mk.inj h
          obtain ⟨idx, hs, w, wire, -, -, -, -, rfl⟩ := newPending_ok.mp hnew
          exact ⟨m.handshakes.length, Function.update_self ..⟩

/-- Neither queues nor timers matter for this. -/
theorem pendingValid_core : m.core.PendingValid ↔ m.PendingValid := by
  simp [PendingValid, core]

theorem PendingValid.queuePacket (h : m.PendingValid) (v : Addr) (pkt : Bytes) :
    (m.queuePacket v pkt).PendingValid := by
  rw [← pendingValid_core, core_queuePacket, pendingValid_core]
  exact h

/-- What `HandleStage1` and the retry loop do when they take out a handshake. -/
theorem PendingValid.drop (h : m.PendingValid) (v : Addr) (idx : UInt32) :
    PendingValid { m with
      pending := Function.update m.pending v none
      indexMap := Function.update m.indexMap idx none } := by
  intro v' r hr
  by_cases heq : v' = v
  · simp [heq] at hr
  · exact h v' r (by simpa [heq] using hr)

theorem PendingValid.take (h : m.PendingValid) (idx : UInt32) (ph : PendingHandshake P) :
    (m.take idx ph).PendingValid := h.drop ph.remoteVpnIP idx

theorem PendingValid.retryPending (h : m.PendingValid) (env : Env P) :
    (m.retryPending env).1.PendingValid := by
  rw [← pendingValid_core]
  exact RetryStep.rule PendingValid (fun hm _ _ => hm.drop _ _) (m.retryPending_executes env)
    (pendingValid_core.mpr h)

end HandshakeManager

/-- A datagram names one handshake. -/
theorem HandshakeManager.names_unique {m : HandshakeManager P} {data : Bytes} {idx idx' : UInt32}
    {ph ph' : PendingHandshake P} (h : m.Names data idx ph) (h' : m.Names data idx' ph') :
    ph = ph' := by
  obtain ⟨hdr, hparse, rfl, hph⟩ := h
  obtain ⟨hdr', hparse', rfl, hph'⟩ := h'
  obtain rfl := Except.ok.inj (hparse.symm.trans hparse')
  exact Option.some.inj (hph.symm.trans hph')

/-- The checks do not look at the maps. -/
theorem HandshakeManager.validResponse_take {m : HandshakeManager P} {idx : UInt32}
    {ph ph' : PendingHandshake P} {now : Time} {data : Bytes} :
    (m.take idx ph).ValidResponse now ph' data ↔ m.ValidResponse now ph' data := by
  rw [← exists_readStage1_ok, ← exists_readStage1_ok]
  rfl

/-- What was queued last is in the queue. -/
theorem HandshakeManager.mem_queuePacket {m : HandshakeManager P} {v : Addr} {r : Ref}
    (hv : m.pending v = some r) (hr : r < m.handshakes.length) (pkt : Bytes) :
    ∃ ph, (m.queuePacket v pkt).handshakes[r]? = some ph ∧ pkt ∈ ph.pendingPackets := by
  unfold queuePacket
  rw [hv]
  simp [hr]

namespace Task

/-- `HandleStage1` takes out the handshake its datagram names, and nothing if it names none. -/
theorem step_handleStage1 (s : Shared P) (env : Env P) (data : Bytes) :
    (∃ idx r ph, s.node.handshakeMgr.Names data idx ph ∧
        s.node.handshakeMgr.handshakes[r]? = some ph ∧
        Task.step s (.handleStage1 env data)
          = (s.setManager (s.node.handshakeMgr.take idx ph), [.claimed (.initiator r)],
            .readStage1 env data r)) ∨
      (∀ idx ph, ¬ s.node.handshakeMgr.Names data idx ph) ∧
        Task.step s (.handleStage1 env data) = (s, [], .done) := by
  rcases step_handleStage1_cases s env data with ⟨hdr, r, ph, hparse, hidx, hr, hstep⟩ |
      ⟨hnone, hstep⟩
  · have hph : s.node.handshakeMgr.getIndex hdr.remoteIndex = some ph := by
      rw [HandshakeManager.getIndex, hidx, Option.bind_some, hr]
    exact .inl ⟨hdr.remoteIndex, r, ph, ⟨hdr, hparse, rfl, hph⟩, hr, hstep⟩
  · refine .inr ⟨?_, hstep⟩
    rintro idx ph ⟨hdr, hparse, rfl, hph⟩
    rw [hnone hdr hparse] at hph
    cases hph

/-- What one step of a task can do to the manager. -/
inductive ManagerStep (m : HandshakeManager P) : Task P → HandshakeManager P → Prop where
  | idle (t : Task P) : ManagerStep m t m
  | startHandshake (env : Env P) (v : Addr) (pkt : Bytes) (addr : UDPAddr) (cert : Certificate) :
      ManagerStep m (.startHandshake env v pkt addr cert) (m.startHandshake env v addr cert).1
  | queuePacket (v : Addr) (pkt : Bytes) : ManagerStep m (.queuePacket v pkt) (m.queuePacket v pkt)
  | take (env : Env P) {data : Bytes} {idx : UInt32} {ph : PendingHandshake P}
      (hnames : m.Names data idx ph) : ManagerStep m (.handleStage1 env data) (m.take idx ph)
  | retryPending (env : Env P) : ManagerStep m (.retryPending env) (m.retryPending env).1

theorem managerStep_idle {s : Shared P} {t : Task P}
    (h : (Task.step s t).1.node.handshakeMgr = s.node.handshakeMgr) :
    ManagerStep s.node.handshakeMgr t (Task.step s t).1.node.handshakeMgr := by
  rw [h]
  exact .idle t

theorem managerStep (s : Shared P) (t : Task P) :
    ManagerStep s.node.handshakeMgr t (Task.step s t).1.node.handshakeMgr := by
  cases t with
  | startHandshake env v pkt addr cert =>
      have hmanager : (Task.step s (.startHandshake env v pkt addr cert)).1.node.handshakeMgr
          = (s.node.handshakeMgr.startHandshake env v addr cert).1 := by
        simp only [Task.step]
        split
        · rename_i hres
          rw [hres]
          rfl
        · rename_i hres
          rw [hres]
          rfl
      rw [hmanager]
      exact .startHandshake env v pkt addr cert
  | queuePacket v pkt => exact .queuePacket v pkt
  | retryPending env => exact .retryPending env
  | handleStage1 env data =>
      rcases step_handleStage1 s env data with ⟨idx, r, ph, hnames, -, hstep⟩ | ⟨-, hstep⟩
      · rw [hstep]
        exact .take env hnames
      · exact managerStep_idle (by rw [hstep])
  -- the other tasks do not write to the manager
  | inside | getPeerCert | getAddrs | encrypt | handleStage0 =>
      refine managerStep_idle ?_
      simp only [Task.step]
      split <;> rfl
  | readStage1 | checkReplay =>
      refine managerStep_idle ?_
      simp only [Task.step]
      split
      · rfl
      · split <;> rfl
  | send env r pkts =>
      refine managerStep_idle ?_
      cases pkts with
      | nil => rfl
      | cons pkt pkts =>
          simp only [Task.step]
          split <;> rfl
  | outside env pkt src =>
      refine managerStep_idle ?_
      simp only [Task.step, dispatch]
      split
      · rfl
      · split
        · rfl
        · rename_i hdr _
          obtain ⟨lighthouse, hnode⟩ := s.node.handleLightHouse_fst env pkt hdr src
          split_ifs
          · split <;> rfl
          · rfl
          · rfl
          · rfl
          · rw [hnode]
          · rfl
          · split <;> rfl
          · rfl
  | deliver =>
      refine managerStep_idle ?_
      simp only [Task.step, Interface.deliver]
      split <;> rfl
  | allowOutbound | add | storeCert | remove | runExpiry | advertise | done => exact .idle _

theorem step_pendingValid {s : Shared P} (h : s.node.handshakeMgr.PendingValid) (t : Task P) :
    (Task.step s t).1.node.handshakeMgr.PendingValid := by
  generalize hm : (Task.step s t).1.node.handshakeMgr = m
  have hstep : ManagerStep s.node.handshakeMgr t m := hm ▸ managerStep s t
  cases hstep with
  | idle => exact h
  | startHandshake env v pkt addr cert => exact h.startHandshake env v addr cert
  | queuePacket v pkt => exact h.queuePacket v pkt
  | take env _ => exact h.take _ _
  | retryPending env => exact h.retryPending env

/-! ### A call after its last access to the manager -/

/-- The checks of `HandleStage1` and all that follows, and the sending of a packet. -/
def Finishing : Task P → Prop
  | .readStage1 _ _ _ => True
  | .add _ _ _ _ => True
  | .storeCert _ _ _ _ => True
  | .send _ _ _ => True
  | .encrypt _ _ _ _ _ => True
  | .done => True
  | _ => False

theorem finishing_step (s : Shared P) {t : Task P} (h : t.Finishing) :
    (Task.step s t).2.2.Finishing ∧ .started true ∉ (Task.step s t).2.1 := by
  cases t with
  | readStage1 env data r =>
      simp only [Task.step]
      split
      · exact ⟨trivial, by simp⟩
      · split
        · exact ⟨trivial, by simp⟩
        · exact ⟨trivial, by simp⟩
  | add env o host pending => exact ⟨trivial, by simp [Task.step]⟩
  | storeCert env r host pending => exact ⟨trivial, by simp [Task.step]⟩
  | send env r pkts =>
      cases pkts with
      | nil => exact ⟨trivial, by simp [Task.step]⟩
      | cons pkt pkts =>
          simp only [Task.step]
          split
          · exact ⟨trivial, by simp⟩
          · exact ⟨trivial, by simp⟩
  | encrypt env r c pkt pkts =>
      simp only [Task.step]
      split
      · exact ⟨trivial, by simp⟩
      · exact ⟨trivial, by simp⟩
  | done => exact ⟨trivial, by simp [Task.step]⟩
  | _ => exact h.elim

theorem finishing_manager (s : Shared P) {t : Task P} (h : t.Finishing) :
    (Task.step s t).1.node.handshakeMgr = s.node.handshakeMgr := by
  generalize hm : (Task.step s t).1.node.handshakeMgr = m
  have hstep : ManagerStep s.node.handshakeMgr t m := hm ▸ managerStep s t
  cases hstep with
  | idle => rfl
  | _ => exact h.elim

/-! ### The packet's call -/

/-- `consumeInsidePacket` on its way to `StartHandshake`. -/
def Approaching (dst : Addr) (pkt : Bytes) : Task P → Prop
  | .inside _ p => p = pkt
  | .allowOutbound _ d p _ _ => d = dst ∧ p = pkt
  | .getPeerCert _ d p => d = dst ∧ p = pkt
  | .getAddrs _ d p _ => d = dst ∧ p = pkt
  | .startHandshake _ d p _ _ => d = dst ∧ p = pkt
  | _ => False

/-- `consumeInsidePacket` where it does not come to `StartHandshake` any more. -/
def Aside (dst : Addr) (pkt : Bytes) (t : Task P) : Prop :=
  t = .queuePacket dst pkt ∨ t.Finishing

theorem aside_step (s : Shared P) {dst : Addr} {pkt : Bytes} {t : Task P} (h : t.Aside dst pkt) :
    (Task.step s t).2.2.Aside dst pkt ∧ .started true ∉ (Task.step s t).2.1 := by
  rcases h with rfl | hfinishing
  · exact ⟨.inr trivial, by simp [Task.step]⟩
  · obtain ⟨hnext, hnotes⟩ := finishing_step s hfinishing
    exact ⟨.inr hnext, hnotes⟩

/-- No session was added and no packet sealed. -/
def Unused (log : List Note) : Prop := ∀ note ∈ log, note.used = none

theorem unused_map_effect (effs : List Effect) : Unused (effs.map .effect) := fun note hnote =>
  (plain_map_effect effs note hnote).2

theorem started_not_mem_map_effect (effs : List Effect) :
    Note.started true ∉ effs.map Note.effect := by
  simp

/-- A step of `consumeInsidePacket` leads on to `StartHandshake`, or away from it, or is its
successful return. -/
theorem approaching_step {dst : Addr} {pkt : Bytes} (hdst : dstIPFromIPv4 pkt = some dst)
    (s : Shared P) {t : Task P} (h : t.Approaching dst pkt) :
    let res := Task.step s t
    (res.2.2.Approaching dst pkt ∧ .started true ∉ res.2.1 ∧ Unused res.2.1) ∨
      (res.2.2.Aside dst pkt ∧ .started true ∉ res.2.1) ∨
      (res.2.2 = .queuePacket dst pkt ∧ .started true ∈ res.2.1 ∧ Unused res.2.1 ∧
        ∃ r, res.1.node.handshakeMgr.pending dst = some r) := by
  intro res
  cases t with
  | inside env p =>
      obtain rfl : p = pkt := h
      refine .inl ?_
      simp only [res, Task.step, hdst]
      exact ⟨⟨rfl, rfl⟩, by simp, by simp [Unused]⟩
  | allowOutbound env d p host groups =>
      obtain ⟨rfl, rfl⟩ : d = dst ∧ p = pkt := h
      rcases hverdict : s.node.fw.allowOutbound env.now d groups (dstPortFromIPv4 p)
        (protoFromIPv4 p) with ⟨fw, allowed⟩
      have hstep := step_allowOutbound s host hverdict
      cases allowed with
      | false =>
          refine .inr (.inl ?_)
          simp only [res, hstep]
          exact ⟨.inr trivial, by simp⟩
      | true =>
          cases host with
          | none =>
              refine .inl ?_
              simp only [res, hstep]
              exact ⟨⟨rfl, rfl⟩, by simp, unused_map_effect [_]⟩
          | some r =>
              refine .inr (.inl ?_)
              simp only [res, hstep]
              exact ⟨.inr trivial, by simp⟩
  | getPeerCert env d p =>
      obtain ⟨rfl, rfl⟩ : d = dst ∧ p = pkt := h
      simp only [res, Task.step]
      split
      · exact .inr (.inl ⟨.inl rfl, by simp⟩)
      · exact .inl ⟨⟨rfl, rfl⟩, by simp, by simp [Unused]⟩
  | getAddrs env d p cert =>
      obtain ⟨rfl, rfl⟩ : d = dst ∧ p = pkt := h
      simp only [res, Task.step]
      split
      · exact .inr (.inl ⟨.inl rfl, started_not_mem_map_effect _⟩)
      · exact .inl ⟨⟨rfl, rfl⟩, by simp, by simp [Unused]⟩
  | startHandshake env d p addr cert =>
      obtain ⟨rfl, rfl⟩ : d = dst ∧ p = pkt := h
      rcases hstart : s.node.handshakeMgr.startHandshake env d addr cert with
        ⟨m, effs, err | ⟨⟨⟩⟩⟩
      · refine .inr (.inl ?_)
        simp only [res, Task.step, hstart]
        exact ⟨.inr trivial, by simp⟩
      · refine .inr (.inr ?_)
        simp only [res, Task.step, hstart]
        refine ⟨trivial, by simp, ?_, HandshakeManager.pending_of_startHandshake hstart⟩
        · intro note hnote
          rcases List.mem_append.mp hnote with hnote | hnote
          · exact unused_map_effect effs note hnote
          · rw [List.mem_singleton.mp hnote]
            rfl
  | _ => exact h.elim

end Task

/-! ### Where the packet is

Both calls and the shared state together say where the packet is: still with its own call, in a
queue, carried by `HandleStage1`, or in nobody's hands. -/

namespace Daemon

section Phases

variable (dst : Addr) (pkt : Bytes)

/-- The handshake with the destination is pending, and the packet is queued on it once
`QueuePacket` has returned. -/
def Queued (s : Shared P) (t : Task P) : Prop :=
  ∃ r, s.node.handshakeMgr.pending dst = some r ∧ (t = .queuePacket dst pkt ∨
    t = .done ∧ ∃ ph, s.node.handshakeMgr.handshakes[r]? = some ph ∧ pkt ∈ ph.pendingPackets)

/-- The packet is in the queue of a handshake that `HandleStage1` has taken out and will complete,
or in the list it hands to `onComplete`. -/
def Carried (s : Shared P) (t : Task P) (log : List Note) : Prop :=
  (s.node.handshakeMgr.pending dst = none ∧
    ((∃ env data r ph, t = .readStage1 env data r ∧
        s.node.handshakeMgr.handshakes[r]? = some ph ∧ pkt ∈ ph.pendingPackets ∧
        s.node.handshakeMgr.ValidResponse env.now ph data) ∨
      ∃ env o h pending, t = .add env o h pending ∧ pkt ∈ pending)) ∨
    ∃ o r h pending, .added o r h pending ∈ log ∧ pkt ∈ pending

/-- `HandleStage1` carries something else, or will fail. -/
def Drops (s : Shared P) : Task P → Prop
  | .readStage1 env data r => ∀ ph, s.node.handshakeMgr.handshakes[r]? = some ph →
      ¬ (pkt ∈ ph.pendingPackets ∧ s.node.handshakeMgr.ValidResponse env.now ph data)
  | .add _ _ _ pending => pkt ∉ pending
  | .storeCert _ _ _ pending => pkt ∉ pending
  | .send _ _ pkts => pkt ∉ pkts
  | .encrypt _ _ _ p pkts => p ≠ pkt ∧ pkt ∉ pkts
  | .done => True
  | _ => False

/-- The note says that the packet was handed to `onComplete` or sealed. -/
def Reaches : Note → Prop
  | .added _ _ _ pending => pkt ∈ pending
  | .encrypted call => call.plaintext = pkt
  | _ => False

/-- Where the two calls can be together as long as the packet is not lost; `stage1` is
`HandleStage1` before it has taken anything out. -/
inductive Phase (stage1 : Task P) (s : Shared P) (t t' : Task P) (log : List Note) : Prop where
  | aside (ht : t.Aside dst pkt) (ht' : t' = stage1 ∨ t'.Finishing)
      (hlog : .started true ∉ log) : Phase stage1 s t t' log
  | before (ht : t.Approaching dst pkt) (ht' : t' = stage1 ∧ Task.Unused log ∨ t'.Finishing)
      (hlog : .started true ∉ log) : Phase stage1 s t t' log
  | queued (hqueued : Queued dst pkt s t) (ht' : t' = stage1 ∧ Task.Unused log ∨ t'.Finishing)
      (hlog : .started true ∈ log) : Phase stage1 s t t' log
  | carried (ht : t = .queuePacket dst pkt ∨ t = .done) (ht' : t'.Finishing)
      (hcarried : Carried dst pkt s t' log) : Phase stage1 s t t' log

/-- The packet is in nobody's hands, and stays there. -/
structure Lost (s : Shared P) (t t' : Task P) (log : List Note) : Prop where
  call : t = .queuePacket dst pkt ∨ t = .done
  pending : s.node.handshakeMgr.pending dst = none
  drops : Drops pkt s t'
  log : ∀ note ∈ log, ¬ Reaches pkt note

end Phases

variable {dst : Addr} {pkt : Bytes} {s : Shared P} {t t' : Task P} {log : List Note}

/-! #### The packet's call moves -/

/-- `QueuePacket` does nothing without a pending handshake. -/
theorem step_queuePacket_of_none (h : s.node.handshakeMgr.pending dst = none) :
    Task.step s (.queuePacket dst pkt) = (s, [], .done) := by
  simp only [Task.step, HandshakeManager.queuePacket, h]
  rfl

theorem Queued.step (hvalid : s.node.handshakeMgr.PendingValid) (h : Queued dst pkt s t) :
    Queued dst pkt (Task.step s t).1 (Task.step s t).2.2 ∧ (Task.step s t).2.1 = [] := by
  obtain ⟨r, hr, rfl | ⟨rfl, ph, hph⟩⟩ := h
  · refine ⟨⟨r, ?_, .inr ⟨rfl, ?_⟩⟩, rfl⟩
    · exact (congrFun (s.node.handshakeMgr.queuePacket_maps dst pkt).1 dst).trans hr
    · exact HandshakeManager.mem_queuePacket hr (hvalid dst r hr) pkt
  · exact ⟨⟨r, hr, .inr ⟨rfl, ph, hph⟩⟩, rfl⟩

/-- A call that has only `QueuePacket` left ends without a change. -/
theorem step_of_pending_none (h : s.node.handshakeMgr.pending dst = none)
    (ht : t = .queuePacket dst pkt ∨ t = .done) : Task.step s t = (s, [], .done) := by
  rcases ht with rfl | rfl
  · exact step_queuePacket_of_none h
  · rfl

theorem Phase.step_packet {stage1 : Task P} (hdst : dstIPFromIPv4 pkt = some dst)
    (hvalid : s.node.handshakeMgr.PendingValid) (h : Phase dst pkt stage1 s t t' log) :
    Phase dst pkt stage1 (Task.step s t).1 (Task.step s t).2.2 t'
      (log ++ (Task.step s t).2.1) := by
  cases h with
  | aside ht ht' hlog =>
      obtain ⟨hnext, hnotes⟩ := Task.aside_step s ht
      exact .aside hnext ht' (by simp [hlog, hnotes])
  | before ht ht' hlog =>
      -- the other call sees nothing of this step
      have hother : Task.Unused (Task.step s t).2.1 →
          t' = stage1 ∧ Task.Unused (log ++ (Task.step s t).2.1) ∨ t'.Finishing := by
        intro hunused
        refine ht'.imp (fun ⟨hstage, hlog⟩ => ⟨hstage, fun note hnote => ?_⟩) id
        exact (List.mem_append.mp hnote).elim (hlog note) (hunused note)
      rcases Task.approaching_step hdst s ht with
        ⟨hnext, hnotes, hunused⟩ | ⟨hnext, hnotes⟩ | ⟨hnext, hnotes, hunused, r, hr⟩
      · exact .before hnext (hother hunused) (by simp [hlog, hnotes])
      · exact .aside hnext (ht'.imp And.left id) (by simp [hlog, hnotes])
      · exact .queued ⟨r, hr, .inl hnext⟩ (hother hunused) (by simp [hnotes])
  | queued hqueued ht' hlog =>
      obtain ⟨hnext, hnotes⟩ := hqueued.step hvalid
      rw [hnotes, List.append_nil]
      exact .queued hnext ht' hlog
  | carried ht ht' hcarried =>
      rcases hcarried with ⟨hnone, hcarried⟩ | hadded
      · rw [step_of_pending_none hnone ht, List.append_nil]
        exact .carried (.inr rfl) ht' (.inl ⟨hnone, hcarried⟩)
      · have hdone : (Task.step s t).2.2 = .done := by
          rcases ht with rfl | rfl
          · rfl
          · rfl
        obtain ⟨o, r, host, pending, hmem, hpkt⟩ := hadded
        exact .carried (.inr hdone) ht'
          (.inr ⟨o, r, host, pending, List.mem_append_left _ hmem, hpkt⟩)

theorem Lost.step_packet (h : Lost dst pkt s t t' log) :
    Lost dst pkt (Task.step s t).1 (Task.step s t).2.2 t' (log ++ (Task.step s t).2.1) := by
  rw [step_of_pending_none h.pending h.call, List.append_nil]
  exact ⟨.inr rfl, h.pending, h.drops, h.log⟩

/-! #### `HandleStage1` moves -/

theorem Carried.step (h : Carried dst pkt s t' log) :
    Carried dst pkt (Task.step s t').1 (Task.step s t').2.2 (log ++ (Task.step s t').2.1) := by
  rcases h with ⟨hnone, ⟨env, data, r, ph, rfl, hr, hpkt, hresp⟩ |
      ⟨env, o, host, pending, rfl, hpkt⟩⟩ | ⟨o, r, host, pending, hmem, hpkt⟩
  · obtain ⟨st, hst⟩ := HandshakeManager.exists_readStage1_ok.mpr hresp
    rw [Task.step_readStage1 hr hst, List.append_nil]
    exact .inl ⟨hnone, .inr ⟨env, _, _, _, rfl, hpkt⟩⟩
  · exact .inr ⟨o, _, host, pending, List.mem_append_right _ (List.mem_singleton_self _), hpkt⟩
  · exact .inr ⟨o, r, host, pending, List.mem_append_left _ hmem, hpkt⟩

/-- The step that takes out a handshake for the destination finds the packet queued on it, and the
response is one that completes it. -/
def Spared (dst : Addr) (pkt : Bytes) (s : Shared P) (env : Env P) (data : Bytes) : Prop :=
  ∀ idx ph, s.node.handshakeMgr.Names data idx ph → ph.remoteVpnIP = dst →
    pkt ∈ ph.pendingPackets ∧ s.node.handshakeMgr.ValidResponse env.now ph data

theorem Phase.step_stage1 {env : Env P} {data : Bytes}
    (h : Phase dst pkt (.handleStage1 env data) s t t' log)
    (hspared : t' = .handleStage1 env data → .started true ∈ log → Spared dst pkt s env data) :
    Phase dst pkt (.handleStage1 env data) (Task.step s t').1 t (Task.step s t').2.2
      (log ++ (Task.step s t').2.1) := by
  -- whatever phase it is in, `HandleStage1` goes on to what it finishes with
  have hnext : t' = .handleStage1 env data ∨ t'.Finishing →
      (Task.step s t').2.2.Finishing ∧ .started true ∉ (Task.step s t').2.1 := by
    rintro (rfl | hfinishing)
    · rcases Task.step_handleStage1 s env data with ⟨idx, r, ph, -, -, hstep⟩ | ⟨-, hstep⟩
      · rw [hstep]
        exact ⟨trivial, by simp⟩
      · rw [hstep]
        exact ⟨trivial, by simp⟩
    · exact Task.finishing_step s hfinishing
  cases h with
  | aside ht ht' hlog =>
      obtain ⟨hfinishing, hnotes⟩ := hnext ht'
      exact .aside ht (.inr hfinishing) (by simp [hlog, hnotes])
  | before ht ht' hlog =>
      obtain ⟨hfinishing, hnotes⟩ := hnext (ht'.imp And.left id)
      exact .before ht (.inr hfinishing) (by simp [hlog, hnotes])
  | queued hqueued ht' hlog =>
      have hlog' : .started true ∈ log ++ (Task.step s t').2.1 := List.mem_append_left _ hlog
      rcases ht' with ⟨rfl, -⟩ | hfinishing
      · rcases Task.step_handleStage1 s env data with
          ⟨idx, r, ph, hnames, hr, hstep⟩ | ⟨-, hstep⟩
        · by_cases hip : ph.remoteVpnIP = dst
          · obtain ⟨hpkt, hresp⟩ := hspared rfl hlog idx ph hnames hip
            obtain ⟨r', hr', hcall⟩ := hqueued
            refine .carried (hcall.imp id And.left) (hnext (.inl rfl)).1 ?_
            rw [hstep]
            refine .inl ⟨?_, .inl ⟨env, data, r, ph, rfl, hr, hpkt,
              HandshakeManager.validResponse_take.mpr hresp⟩⟩
            simp [Shared.setManager, HandshakeManager.take, hip]
          · obtain ⟨r', hr', hcall⟩ := hqueued
            refine .queued ⟨r', ?_, ?_⟩ (.inr (hnext (.inl rfl)).1) hlog'
            · rw [hstep]
              exact (Function.update_of_ne (Ne.symm hip) _ _).trans hr'
            · rw [hstep]
              exact hcall
        · refine .queued ?_ (.inr (hnext (.inl rfl)).1) hlog'
          rw [hstep]
          exact hqueued
      · refine .queued ?_ (.inr (Task.finishing_step s hfinishing).1) hlog'
        unfold Queued
        rw [Task.finishing_manager s hfinishing]
        exact hqueued
  | carried ht ht' hcarried =>
      exact .carried ht (Task.finishing_step s ht').1 hcarried.step

/-- The packet's call is not the other one. -/
theorem Phase.packet_ne {stage1 : Task P} (h : Phase dst pkt stage1 s t t' log) (env : Env P)
    (data : Bytes) : t ≠ .handleStage1 env data := by
  rintro rfl
  cases h with
  | aside ht _ _ => exact ht.elim (fun heq => by cases heq) id
  | before ht _ _ => exact ht
  | queued hqueued _ _ =>
      obtain ⟨r, -, heq | ⟨heq, -⟩⟩ := hqueued
      · cases heq
      · cases heq
  | carried ht _ _ => exact ht.elim (fun heq => by cases heq) fun heq => by cases heq

theorem Phase.stage1_eq {stage1 : Task P} (h : Phase dst pkt stage1 s t t' log)
    (hnot : ¬ t'.Finishing) : t' = stage1 := by
  cases h with
  | aside _ ht' _ => exact ht'.resolve_right hnot
  | before _ ht' _ => exact (ht'.resolve_right hnot).1
  | queued _ ht' _ => exact (ht'.resolve_right hnot).1
  | carried _ ht' _ => exact absurd ht' hnot

/-- **The step that loses the packet.** -/
theorem Phase.lost {env : Env P} {data : Bytes}
    (h : Phase dst pkt (.handleStage1 env data) s t (.handleStage1 env data) log)
    (hlog : .started true ∈ log) (hlost : ¬ Spared dst pkt s env data) :
    Lost dst pkt (Task.step s (.handleStage1 env data)).1 t
      (Task.step s (.handleStage1 env data)).2.2
      (log ++ (Task.step s (.handleStage1 env data)).2.1) := by
  cases h with
  | aside _ _ hnot => exact absurd hlog hnot
  | before _ _ hnot => exact absurd hlog hnot
  | carried _ hfinishing _ => exact hfinishing.elim
  | queued hqueued ht' _ =>
      obtain ⟨-, hunused⟩ : _ ∧ Task.Unused log := ht'.resolve_right id
      obtain ⟨r', hr', hcall⟩ := hqueued
      -- some handshake that the datagram names is for the destination, and it is not spared
      unfold Spared at hlost
      push Not at hlost
      obtain ⟨idx, ph, hnames, hip, hbad⟩ := hlost
      rcases Task.step_handleStage1 s env data with
        ⟨idx', r, ph', hnames', hr, hstep⟩ | ⟨hnone, -⟩
      · obtain rfl := HandshakeManager.names_unique hnames hnames'
        rw [hstep]
        refine ⟨hcall.imp id And.left, ?_, ?_, ?_⟩
        · simp [Shared.setManager, HandshakeManager.take, hip]
        · intro ph' hr' hgood
          obtain rfl : ph = ph' := Option.some.inj (hr.symm.trans hr')
          exact hbad hgood.1 (HandshakeManager.validResponse_take.mp hgood.2)
        · intro note hnote hreaches
          have hnot : note.used = none := by
            rcases List.mem_append.mp hnote with hold | hnew
            · exact hunused note hold
            · rw [List.mem_singleton.mp hnew]
              rfl
          cases note with
          | added o r host pending => cases hnot
          | encrypted call => cases hnot
          | _ => exact hreaches
      · exact absurd hnames (hnone idx ph)

theorem Drops.finishing (h : Drops pkt s t) : t.Finishing := by
  cases t with
  | readStage1 | add | storeCert | send | encrypt | done => trivial
  | _ => exact h.elim

/-- What `HandleStage1` does without the packet does not bring it back. -/
theorem Drops.step (h : Drops pkt s t) :
    Drops pkt (Task.step s t).1 (Task.step s t).2.2 ∧
      ∀ note ∈ (Task.step s t).2.1, ¬ Reaches pkt note := by
  cases t with
  | readStage1 env data r =>
      simp only [Task.step]
      cases hr : s.node.handshakeMgr.handshakes[r]? with
      | none => exact ⟨trivial, by simp⟩
      | some ph =>
          simp only
          cases hread : s.node.handshakeMgr.readStage1 env.now ph data with
          | error e => exact ⟨trivial, by simp⟩
          | ok st =>
              have hresp := HandshakeManager.exists_readStage1_ok.mp ⟨st, hread⟩
              exact ⟨fun hpkt => h ph hr ⟨hpkt, hresp⟩, by simp⟩
  | add env o host pending =>
      refine ⟨h, fun note hnote => ?_⟩
      rw [List.mem_singleton.mp hnote]
      exact h
  | storeCert env r host pending => exact ⟨h, by simp [Task.step]⟩
  | send env r pkts =>
      cases pkts with
      | nil => exact ⟨trivial, by simp [Task.step]⟩
      | cons p pkts =>
          have hnot : p ≠ pkt ∧ pkt ∉ pkts := by
            have hmem : pkt ∉ p :: pkts := h
            rw [List.mem_cons, not_or] at hmem
            exact ⟨Ne.symm hmem.1, hmem.2⟩
          simp only [Task.step]
          split
          · exact ⟨trivial, by simp⟩
          · refine ⟨hnot, fun note hnote => ?_⟩
            rw [List.mem_singleton.mp hnote]
            exact id
  | encrypt env r c p pkts =>
      simp only [Task.step]
      split
      · exact ⟨trivial, by simp⟩
      · refine ⟨h.2, fun note hnote => ?_⟩
        simp only [List.mem_cons, List.not_mem_nil, or_false] at hnote
        rcases hnote with rfl | rfl | rfl
        · exact h.1
        · exact id
        · exact id
  | done => exact ⟨trivial, by simp [Task.step]⟩
  | _ => exact h.elim

theorem Lost.step_stage1 (h : Lost dst pkt s t t' log) :
    Lost dst pkt (Task.step s t').1 t (Task.step s t').2.2 (log ++ (Task.step s t').2.1) := by
  obtain ⟨hdrops, hnotes⟩ := h.drops.step
  refine ⟨h.call, ?_, hdrops, fun note hnote => ?_⟩
  · rw [Task.finishing_manager s h.drops.finishing]
    exact h.pending
  · exact (List.mem_append.mp hnote).elim (h.log note) (hnotes note)

/-! ### Every interleaving of the two calls

Only the two calls are in the pool, and each has a handful of steps.  The phases are kept as an
invariant all the same, so that no run has to be listed. -/

/-- `consumeInsidePacket` on the TUN goroutine and `HandleStage1` on the UDP goroutine. -/
def race (s : Shared P) (env : Env P) (pkt : Bytes) (env' : Env P) (data : Bytes) : Daemon P :=
  ⟨s, [.inside env pkt, .handleStage1 env' data], []⟩

/-- The packet is in the peer's pending queue, or was in a list handed to `onComplete`, or was sent
by `sendToRemote`. -/
def Kept (dst : Addr) (pkt : Bytes) (D : Daemon P) : Prop :=
  (∃ ph, D.shared.node.handshakeMgr.getPending dst = some ph ∧ pkt ∈ ph.pendingPackets) ∨
    (∃ o r h pending, .added o r h pending ∈ D.log ∧ pkt ∈ pending) ∨
    ∃ call, .encrypted call ∈ D.log ∧ call.plaintext = pkt

/-- If the step is `HandleStage1`'s removal and `StartHandshake` has returned nil, then a handshake
with the destination that it takes out has the packet in its queue and is completed. -/
def Spares (dst : Addr) (pkt : Bytes) (D : Daemon P) (e : Turn (Env P × Interface.Event)) : Prop :=
  ∀ n env data, e = .advance n → D.tasks[n]? = some (.handleStage1 env data) →
    .started true ∈ D.log → Spared dst pkt D.shared env data

section Race

variable {env' : Env P} {data : Bytes} {D : Daemon P}

variable (dst pkt env' data) in
/-- The two calls are in a phase. -/
def InPhase (D : Daemon P) : Prop :=
  ∃ s t t' log, D = ⟨s, [t, t'], log⟩ ∧ s.node.handshakeMgr.PendingValid ∧
    Phase dst pkt (.handleStage1 env' data) s t t' log

variable (dst pkt) in
/-- The packet is lost: it waits in the queue of a handshake that no table leads to. -/
def IsLost (D : Daemon P) : Prop := ∃ s t t' log, D = ⟨s, [t, t'], log⟩ ∧ Lost dst pkt s t t' log

theorem InPhase.turn (hdst : dstIPFromIPv4 pkt = some dst) (hD : InPhase dst pkt env' data D)
    (n : Nat) (hspares : Spares dst pkt D (.advance n)) :
    InPhase dst pkt env' data ((program P).turn D (.advance n)).1 := by
  obtain ⟨s, t, t', log, rfl, hvalid, hphase⟩ := hD
  match n with
  | 0 =>
      exact ⟨_, _, _, _, rfl, Task.step_pendingValid hvalid t, hphase.step_packet hdst hvalid⟩
  | 1 =>
      refine ⟨_, _, _, _, rfl, Task.step_pendingValid hvalid t', hphase.step_stage1 ?_⟩
      rintro rfl hlog
      exact hspares 1 env' data rfl rfl hlog
  | n + 2 => exact ⟨s, t, t', log, rfl, hvalid, hphase⟩

theorem InPhase.lost (hD : InPhase dst pkt env' data D) {n : Nat}
    (hspares : ¬ Spares dst pkt D (.advance n)) :
    IsLost dst pkt ((program P).turn D (.advance n)).1 := by
  obtain ⟨s, t, t', log, rfl, -, hphase⟩ := hD
  unfold Spares at hspares
  push Not at hspares
  obtain ⟨n', env, data', hn, htask, hlog, hlost⟩ := hspares
  obtain rfl : n = n' := Turn.advance.inj hn
  match n with
  | 0 =>
      obtain rfl : t = .handleStage1 env data' := Option.some.inj htask
      exact absurd rfl (hphase.packet_ne env data')
  | 1 =>
      obtain rfl : t' = .handleStage1 env data' := Option.some.inj htask
      obtain ⟨rfl, rfl⟩ := Task.handleStage1.inj (hphase.stage1_eq id)
      exact ⟨_, _, _, _, rfl, hphase.lost hlog hlost⟩
  | n + 2 => cases htask

theorem IsLost.turn (hD : IsLost dst pkt D) (n : Nat) :
    IsLost dst pkt ((program P).turn D (.advance n)).1 := by
  obtain ⟨s, t, t', log, rfl, hlost⟩ := hD
  match n with
  | 0 => exact ⟨_, _, _, _, rfl, hlost.step_packet⟩
  | 1 => exact ⟨_, _, _, _, rfl, hlost.step_stage1⟩
  | n + 2 => exact ⟨s, t, t', log, rfl, hlost⟩

theorem not_kept (hnone : D.shared.node.handshakeMgr.getPending dst = none)
    (hlog : ∀ note ∈ D.log, ¬ Reaches pkt note) : ¬ Kept dst pkt D := by
  rintro (⟨ph, hph, -⟩ | ⟨o, r, host, pending, hmem, hpkt⟩ | ⟨call, hmem, hpkt⟩)
  · rw [hnone] at hph
    cases hph
  · exact hlog _ hmem hpkt
  · exact hlog _ hmem hpkt

theorem IsLost.not_kept (hD : IsLost dst pkt D) : ¬ Kept dst pkt D := by
  obtain ⟨s, t, t', log, rfl, hlost⟩ := hD
  have hnone : s.node.handshakeMgr.getPending dst = none := by
    simp [HandshakeManager.getPending, hlost.pending]
  exact Daemon.not_kept hnone hlost.log

theorem InPhase.kept (hD : InPhase dst pkt env' data D) (hdone : D.tasks = [.done, .done])
    (hstarted : .started true ∈ D.log) : Kept dst pkt D := by
  obtain ⟨s, t, t', log, rfl, -, hphase⟩ := hD
  obtain ⟨rfl, rfl⟩ : t = .done ∧ t' = .done := by simpa using hdone
  cases hphase with
  | aside _ _ hlog => exact absurd hstarted hlog
  | before _ _ hlog => exact absurd hstarted hlog
  | queued hqueued _ _ =>
      obtain ⟨r, hr, hcall | ⟨-, ph, hph, hpkt⟩⟩ := hqueued
      · cases hcall
      · exact .inl ⟨ph, by simp [HandshakeManager.getPending, hr, hph], hpkt⟩
  | carried _ _ hcarried =>
      rcases hcarried with ⟨-, ⟨env, data, r, ph, ht, -⟩ | ⟨env, o, host, pending, ht, -⟩⟩ | hadded
      · cases ht
      · cases ht
      · exact .inr (.inl hadded)

theorem InPhase.run (hdst : dstIPFromIPv4 pkt = some dst) (hD : InPhase dst pkt env' data D)
    (ns : List Nat) (hspares : Trace.Meets (program P).turn (Spares dst pkt) D (ns.map .advance)) :
    InPhase dst pkt env' data (D.run (ns.map .advance)) := by
  induction ns generalizing D with
  | nil => exact hD
  | cons n ns ih => exact ih (hD.turn hdst n hspares.1) hspares.2

theorem IsLost.run (hD : IsLost dst pkt D) (ns : List Nat) :
    IsLost dst pkt (D.run (ns.map .advance)) := by
  induction ns generalizing D with
  | nil => exact hD
  | cons n ns ih => exact ih (hD.turn n)

/-- A run that keeps the packet spares it at every step. -/
theorem InPhase.meets (hdst : dstIPFromIPv4 pkt = some dst) (hD : InPhase dst pkt env' data D)
    (ns : List Nat) (hkept : Kept dst pkt (D.run (ns.map .advance))) :
    Trace.Meets (program P).turn (Spares dst pkt) D (ns.map .advance) := by
  induction ns generalizing D with
  | nil => trivial
  | cons n ns ih =>
      by_cases hspares : Spares dst pkt D (.advance n)
      · exact ⟨hspares, ih (hD.turn hdst n hspares) hkept⟩
      · exact absurd hkept ((hD.lost hspares).run ns).not_kept

end Race

theorem pendingValid_run (x : Network.Setup) (peers : List Certificate)
    (ts : List (Turn (Env P × Interface.Event))) :
    ((start (x.node P peers)).run ts).shared.node.handshakeMgr.PendingValid := by
  have hholds : Program.Holds (fun (s : Shared P) (_ : List Note) =>
      s.node.handshakeMgr.PendingValid) (fun _ => True) ((start (x.node P peers)).run ts) := by
    refine Program.run_holds (fun _ => trivial)
      (fun s _ t hvalid _ => ⟨Task.step_pendingValid hvalid t, trivial⟩) ⟨?_, by simp [start]⟩ ts
    intro v r hr
    simp [start, Network.Setup.node, HandshakeManager.new] at hr
  exact hholds.shared

/-- **When the packet is kept.**  In every state a node can be in, for every interleaving of
`consumeInsidePacket` with `HandleStage1` after which both have returned, `StartHandshake` with nil:
the packet is still queued, or was handed to `onComplete`, or was sent, exactly if each step of the
interleaving spares it. -/
theorem packet_kept_iff (x : Network.Setup) (peers : List Certificate)
    (ts : List (Turn (Env P × Interface.Event))) (env env' : Env P) (pkt data : Bytes) (dst : Addr)
    (ns : List Nat) (hdst : dstIPFromIPv4 pkt = some dst) :
    let D := race ((start (x.node P peers)).run ts).shared env pkt env' data
    (D.run (ns.map .advance)).tasks = [.done, .done] →
    .started true ∈ (D.run (ns.map .advance)).log →
    (Kept dst pkt (D.run (ns.map .advance)) ↔
      Trace.Meets (program P).turn (Spares dst pkt) D (ns.map .advance)) := by
  intro D hdone hstarted
  have hD : InPhase dst pkt env' data D :=
    ⟨_, _, _, _, rfl, pendingValid_run x peers ts,
      .before rfl (.inl ⟨rfl, by simp [Task.Unused]⟩) (by simp)⟩
  constructor
  · exact hD.meets hdst ns
  · intro hmeets
    exact (hD.run hdst ns hmeets).kept hdone hstarted

section Concrete

open Symbolic Network

instance (pkt : Bytes) : DecidablePred (Reaches pkt)
  | .added _ _ _ pending => inferInstanceAs (Decidable (pkt ∈ pending))
  | .encrypted call => inferInstanceAs (Decidable (call.plaintext = pkt))
  | .effect _ => .isFalse id
  | .started _ => .isFalse id
  | .claimed _ => .isFalse id
  | .took _ _ => .isFalse id

/-- The call has returned. -/
def isDone : Task P → Bool
  | .done => true
  | _ => false

theorem tasks_done {tasks : List (Task P)} (h : tasks.map isDone = [true, true]) :
    tasks = [.done, .done] := by
  have hdone : ∀ {t : Task P}, isDone t = true → t = .done := by
    intro t ht
    cases t with
    | done => rfl
    | _ => cases ht
  obtain ⟨t, rest, rfl, ht, hrest⟩ := List.map_eq_cons_iff.mp h
  obtain ⟨t', rest', rfl, ht', hrest'⟩ := List.map_eq_cons_iff.mp hrest
  rw [List.map_eq_nil_iff.mp hrest', hdone ht, hdone ht']

/-- A second packet for node 2. -/
def second : Bytes := tcpPacket 1 2 40001 22

/-- Node 1 waits for the answer of node 2 with a packet queued.  The next packet comes from the TUN
device, and the answer from the network. -/
def meeting : Daemon platform :=
  race ((start (setup1.node platform [setup2.cert])).run calling).shared (calmEnv 0 []) second
    (calmEnv 0 []) answer

/-- The packet is queued before the answer is looked at. -/
def queueFirst : List Nat := List.replicate 6 0 ++ List.replicate 9 1

theorem packet_kept_queueFirst :
    (meeting.run (queueFirst.map .advance)).tasks = [.done, .done] ∧
      .started true ∈ (meeting.run (queueFirst.map .advance)).log ∧
      Kept (nodeIP 2) second (meeting.run (queueFirst.map .advance)) ∧
      Trace.Meets (program platform).turn (Spares (nodeIP 2) second) meeting
        (queueFirst.map .advance) := by
  have hcomputed : (meeting.run (queueFirst.map .advance)).tasks.map isDone = [true, true] ∧
      .started true ∈ (meeting.run (queueFirst.map .advance)).log ∧
      ∃ note ∈ (meeting.run (queueFirst.map .advance)).log, Reaches second note := by
    decide +kernel
  obtain ⟨hdone, hstarted, note, hmem, hreaches⟩ := hcomputed
  have hkept : Kept (nodeIP 2) second (meeting.run (queueFirst.map .advance)) := by
    cases note with
    | added o r h pending => exact .inr (.inl ⟨o, r, h, pending, hmem, hreaches⟩)
    | encrypted call => exact .inr (.inr ⟨call, hmem, hreaches⟩)
    | _ => exact hreaches.elim
  have hmeets := (packet_kept_iff setup1 [setup2.cert] calling (calmEnv 0 []) (calmEnv 0 []) second
    answer (nodeIP 2) queueFirst (by decide) (tasks_done hdone) hstarted).mp hkept
  exact ⟨tasks_done hdone, hstarted, hkept, hmeets⟩

/-- `HandleStage1` runs from beginning to end between `StartHandshake` and `QueuePacket`. -/
def answerBetween : List Nat := List.replicate 5 0 ++ List.replicate 7 1 ++ [0]

/-- **A packet is lost to a handshake that completes.**  `StartHandshake` finds the handshake in
progress, the genuine answer of node 2 completes it, and `QueuePacket` finds nothing to queue on:
the session is there, and the packet is nowhere. -/
theorem packet_lost_between :
    dstIPFromIPv4 second = some (nodeIP 2) ∧
      (meeting.run (answerBetween.map .advance)).tasks = [.done, .done] ∧
      .started true ∈ (meeting.run (answerBetween.map .advance)).log ∧
      ((meeting.run (answerBetween.map .advance)).shared.node.hostmap.getByVpnIP
        (nodeIP 2)).isSome ∧
      ¬ Kept (nodeIP 2) second (meeting.run (answerBetween.map .advance)) := by
  have hcomputed : (meeting.run (answerBetween.map .advance)).tasks.map isDone = [true, true] ∧
      .started true ∈ (meeting.run (answerBetween.map .advance)).log ∧
      ((meeting.run (answerBetween.map .advance)).shared.node.hostmap.getByVpnIP
        (nodeIP 2)).isSome ∧
      ((meeting.run (answerBetween.map .advance)).shared.node.handshakeMgr.getPending
        (nodeIP 2)).isNone ∧
      ∀ note ∈ (meeting.run (answerBetween.map .advance)).log, ¬ Reaches second note := by
    decide +kernel
  obtain ⟨hdone, hstarted, hsession, hnone, hlog⟩ := hcomputed
  exact ⟨by decide, tasks_done hdone, hstarted, hsession,
    not_kept (Option.isNone_iff_eq_none.mp hnone) hlog⟩

end Concrete

end Daemon

end Neth
