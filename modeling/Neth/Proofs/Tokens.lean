/-
What one step of a call can do to counters, keys and handshake states.

A counter value is drawn by an atomic add and is then in the variables of one call until
that call seals a packet with it.  A Noise handshake state is claimed by one call, which
takes it out of the index map or has just made it, and is then in the variables of that
call until it has become a session.  Both are tokens.  `Acts` lists the steps that draw,
hold or use one, with what they do to the shared tables; every other step leaves both
alone.  Results about tokens over all interleavings are proved from its cases.
-/
import Neth.Proofs.Concurrent
import Neth.Proofs.DataChannel
import Neth.Proofs.Indexes

namespace Neth

open Interleave

variable {P : Platform}

/-! ### Tokens

A counter or a handshake state is drawn once and used at most once.  In between one task has it. -/

/-- What a call carries from one step to another and must not be used twice. -/
inductive Token where
  | counter (r : Ref) (c : UInt64)
  | state (o : Origin)
  deriving DecidableEq

/-- What a note draws. -/
def Note.drawn : Note → Option Token
  | .took r c => some (.counter r c)
  | .claimed o => some (.state o)
  | _ => none

/-- What a note uses up. -/
def Note.used : Note → Option Token
  | .encrypted call => some (.counter call.session call.counter)
  | .added o _ _ _ => some (.state o)
  | _ => none

/-- What a task has drawn and not used yet. -/
def Task.held : Task P → Option Token
  | .encrypt _ r c _ _ => some (.counter r c)
  | .readStage1 _ _ r => some (.state (.initiator r))
  | .add _ o _ _ => some (.state o)
  | _ => none

/-- The note is about no token. -/
def Note.Plain (note : Note) : Prop := note.drawn = none ∧ note.used = none

theorem plain_map_effect (effs : List Effect) : ∀ note ∈ effs.map Note.effect, note.Plain := by
  intro note hnote
  obtain ⟨e, -, rfl⟩ := List.mem_map.mp hnote
  exact ⟨rfl, rfl⟩

/-! ### What a step does

Of the shared state there count the counters and send keys of the sessions, the index map with the
number of pending handshakes ever started, and the number of responder states. -/

/-- The part of the shared state on which drawing and using depend. -/
structure Ledger where
  sessions : List (UInt64 × AEAD)
  indexMap : GoMap UInt32 Ref
  handshakes : Nat
  responders : Nat

/-- The ledger of a node. -/
def Shared.ledger (s : Shared P) : Ledger where
  sessions := s.node.hostmap.hosts.map fun h => (h.counter, h.sendCipher)
  indexMap := s.node.handshakeMgr.indexMap
  handshakes := s.node.handshakeMgr.handshakes.length
  responders := s.responders

/-- What one step of a task can do to the ledger, with its notes and the task afterwards. -/
inductive Acts : Ledger → Task P → List Note → Ledger → Task P → Prop where
  | quiet {l : Ledger} {t t' : Task P} {notes : List Note} (hnotes : ∀ note ∈ notes, note.Plain)
      (hheld : t'.held = none) : Acts l t notes l t'
  /-- Handshakes expire. -/
  | forget {l : Ledger} {t t' : Task P} {notes : List Note} {indexMap : GoMap UInt32 Ref}
      (hnotes : ∀ note ∈ notes, note.Plain) (hheld : t'.held = none)
      (hsub : ∀ idx r, indexMap idx = some r → l.indexMap idx = some r) :
      Acts l t notes { l with indexMap } t'
  /-- A handshake is started. -/
  | insert {l : Ledger} {t t' : Task P} {notes : List Note} (idx : UInt32)
      (hnotes : ∀ note ∈ notes, note.Plain) (hheld : t'.held = none) :
      Acts l t notes { l with
        indexMap := Function.update l.indexMap idx (some l.handshakes)
        handshakes := l.handshakes + 1 } t'
  | claim {l : Ledger} {t : Task P} {idx : UInt32} {r : Ref} (env : Env P) (pkt : Bytes)
      (hidx : l.indexMap idx = some r) :
      Acts l t [.claimed (.initiator r)] { l with indexMap := Function.update l.indexMap idx none }
        (.readStage1 env pkt r)
  | respond {l : Ledger} {t : Task P} {notes : List Note} {h : HostInfo} (env : Env P)
      (pending : List Bytes) (hnotes : ∀ note ∈ notes, note.Plain) (hnew : h.counter = 0) :
      Acts l t (notes ++ [.claimed (.responder l.responders)])
        { l with responders := l.responders + 1 } (.add env (.responder l.responders) h pending)
  | read {l : Ledger} {h : HostInfo} {r : Ref} (env : Env P) (pkt : Bytes) (pending : List Bytes)
      (hnew : h.counter = 0) :
      Acts l (.readStage1 env pkt r) [] l (.add env (.initiator r) h pending)
  | add {l : Ledger} {t' : Task P} (env : Env P) (o : Origin) (h : HostInfo) (pending : List Bytes)
      (hheld : t'.held = none) :
      Acts l (.add env o h pending) [.added o l.sessions.length h pending]
        { l with sessions := l.sessions ++ [(h.counter, h.sendCipher)] } t'
  | take {l : Ledger} {t : Task P} {r : Ref} {c : UInt64} {aead : AEAD} (env : Env P)
      (pkt : Bytes) (pkts : List Bytes) (hr : l.sessions[r]? = some (c, aead)) :
      Acts l t [.took r (c + 1)] { l with sessions := l.sessions.set r (c + 1, aead) }
        (.encrypt env r (c + 1) pkt pkts)
  | encrypt {l : Ledger} {t' : Task P} {c' : UInt64} {call : EncryptCall} {e : Effect}
      {addr : UDPAddr} {ok : Bool} (env : Env P) (pkts : List Bytes)
      (hr : l.sessions[call.session]? = some (c', call.aead))
      (hheader : ∃ idx, call.header
        = Header.bytes ⟨headerVersion, typeMessage, 0, idx, call.counter⟩)
      (hheld : t'.held = none) :
      Acts l (.encrypt env call.session call.counter call.plaintext pkts)
        [.encrypted call, .effect e, .effect (.writeTo (call.wire P) addr ok)] l t'

/-- The lighthouse is all that its messages change. -/
theorem Interface.handleLightHouse_fst (I : Interface P) (env : Env P) (pkt : Bytes) (hdr : Header)
    (src : UDPAddr) :
    ∃ lighthouse, (I.handleLightHouse env pkt hdr src).1 = { I with lighthouse } := by
  unfold handleLightHouse
  simp only
  split
  · exact ⟨_, rfl⟩
  · split
    · exact ⟨_, rfl⟩
    · exact ⟨_, rfl⟩

/-- The firewall is all that a delivery changes. -/
theorem Interface.deliver_fst (I : Interface P) (env : Env P) (host : HostInfo)
    (plaintext : Bytes) : ∃ fw, (I.deliver env host plaintext).1 = { I with fw } := by
  unfold deliver
  split
  · exact ⟨_, rfl⟩
  · exact ⟨_, rfl⟩

namespace Task

variable {s s' : Shared P} {t t' : Task P} {notes : List Note}

/-- The step is one of those listed. -/
def StepActs (s : Shared P) (t : Task P) : Prop :=
  Acts s.ledger t (Task.step s t).2.1 (Task.step s t).1.ledger (Task.step s t).2.2

theorem stepActs_of (hstep : Task.step s t = (s', notes, t'))
    (h : Acts s.ledger t notes s'.ledger t') : StepActs s t := by
  unfold StepActs
  rwa [hstep]

theorem stepActs_quiet (hstep : Task.step s t = (s', notes, t'))
    (hledger : s'.ledger = s.ledger) (hnotes : ∀ note ∈ notes, note.Plain)
    (hheld : t'.held = none) : StepActs s t :=
  stepActs_of hstep (hledger ▸ .quiet hnotes hheld)

/-- A step that changes and says nothing. -/
theorem stepActs_silent (hstep : Task.step s t = (s, [], t')) (hheld : t'.held = none) :
    StepActs s t :=
  stepActs_quiet hstep rfl (by simp) hheld

theorem ledger_sessions {r : Ref} {host : HostInfo}
    (hr : s.node.hostmap.hosts[r]? = some host) :
    s.ledger.sessions[r]? = some (host.counter, host.sendCipher) := by
  simp [Shared.ledger, hr]

/-- Changing another field of a session is not seen. -/
theorem ledger_assign {r : Ref} {host host' : HostInfo} (hr : s.node.hostmap.hosts[r]? = some host)
    (hcounter : host'.counter = host.counter) (hcipher : host'.sendCipher = host.sendCipher) :
    (s.setHostmap (s.node.hostmap.assign r host')).ledger = s.ledger := by
  obtain ⟨hlt, rfl⟩ := List.getElem?_eq_some_iff.mp hr
  have hsame : (s.node.hostmap.hosts.set r host').map (fun h => (h.counter, h.sendCipher))
      = s.node.hostmap.hosts.map fun h => (h.counter, h.sendCipher) := by
    rw [List.map_set, hcounter, hcipher]
    have hlt' : r < (s.node.hostmap.hosts.map fun h => (h.counter, h.sendCipher)).length := by
      rwa [List.length_map]
    have hself := List.set_getElem_self hlt'
    rwa [List.getElem_map] at hself
  simp only [Shared.ledger, Shared.setHostmap, HostMap.assign, hsame]

/-! #### Sessions -/

theorem stepActs_send (s : Shared P) (env : Env P) (r : Ref) (pkts : List Bytes) :
    StepActs s (.send env r pkts) := by
  cases pkts with
  | nil => exact stepActs_silent rfl rfl
  | cons pkt pkts =>
      cases hr : s.node.hostmap.hosts[r]? with
      | none => exact stepActs_silent (step_send_none hr) rfl
      | some host =>
          have hledger : (s.setHostmap (s.node.hostmap.assign r
              { host with counter := host.counter + 1 })).ledger = { s.ledger with
                sessions := s.ledger.sessions.set r (host.counter + 1, host.sendCipher) } := by
            simp [Shared.ledger, Shared.setHostmap, HostMap.assign, List.map_set]
          refine stepActs_of (step_send hr) ?_
          rw [hledger]
          exact .take env pkt pkts (ledger_sessions hr)

theorem stepActs_encrypt (s : Shared P) (env : Env P) (r : Ref) (c : UInt64) (pkt : Bytes)
    (pkts : List Bytes) : StepActs s (.encrypt env r c pkt pkts) := by
  cases hr : s.node.hostmap.hosts[r]? with
  | none => exact stepActs_silent (step_encrypt_none hr) rfl
  | some host =>
      let call : EncryptCall := ⟨r, host.sendCipher, c, (host.dataHeader c).bytes, pkt⟩
      have hcall : s.ledger.sessions[call.session]? = some (host.counter, call.aead) :=
        ledger_sessions hr
      exact stepActs_of (step_encrypt hr) (.encrypt env pkts hcall ⟨host.remoteIndex, rfl⟩ rfl)

theorem stepActs_checkReplay (s : Shared P) (env : Env P) (pkt : Bytes) (hdr : Header) (r : Ref) :
    StepActs s (.checkReplay env pkt hdr r) := by
  cases hr : s.node.hostmap.hosts[r]? with
  | none => exact stepActs_silent (step_checkReplay_none hr) rfl
  | some host =>
      have hhost : (host.receive P hdr pkt).1.counter = host.counter ∧
          (host.receive P hdr pkt).1.sendCipher = host.sendCipher := by
        rw [HostInfo.receive_eq]
        exact ⟨rfl, rfl⟩
      rcases hreceive : host.receive P hdr pkt with ⟨host', err | plaintext⟩
      · rw [hreceive] at hhost
        exact stepActs_quiet (step_checkReplay_error hr hreceive)
          (ledger_assign hr hhost.1 hhost.2) (by simp) rfl
      · rw [hreceive] at hhost
        exact stepActs_quiet (step_checkReplay hr hreceive) (ledger_assign hr hhost.1 hhost.2)
          (plain_map_effect _) rfl

/-! #### Handshakes -/

theorem stepActs_startHandshake (s : Shared P) (env : Env P) (dstIP : Addr) (pkt : Bytes)
    (addr : UDPAddr) (cert : Certificate) :
    StepActs s (.startHandshake env dstIP pkt addr cert) := by
  rcases hres : s.node.handshakeMgr.startHandshake env dstIP addr cert with ⟨m, effs, res⟩
  -- the manager afterwards does not depend on whether the datagram got out
  obtain ⟨ok, t', hheld, hstep⟩ : ∃ ok t', Task.held t' = none ∧
      Task.step s (.startHandshake env dstIP pkt addr cert)
        = (s.setManager m, effs.map .effect ++ [.started ok], t') := by
    rcases res with err | ⟨⟨⟩⟩
    · exact ⟨false, .done, rfl, step_startHandshake_error pkt hres⟩
    · exact ⟨true, .queuePacket dstIP pkt, rfl, step_startHandshake pkt hres⟩
  have hnotes : ∀ note ∈ effs.map .effect ++ [.started ok], Note.Plain note := by
    intro note hnote
    rcases List.mem_append.mp hnote with hnote | hnote
    · exact plain_map_effect effs note hnote
    · rw [List.mem_singleton.mp hnote]
      exact ⟨rfl, rfl⟩
  rcases s.node.handshakeMgr.startHandshake_cases env dstIP addr cert with
    ⟨res', hsame⟩ | ⟨ph, res', -, -, hnew⟩
  · obtain ⟨rfl, -⟩ := Prod.mk.inj (hres.symm.trans hsame)
    exact stepActs_quiet hstep rfl hnotes hheld
  · obtain ⟨rfl, -⟩ := Prod.mk.inj (hres.symm.trans hnew)
    have hledger : (s.setManager (s.node.handshakeMgr.insert ph)).ledger = { s.ledger with
        indexMap := Function.update s.ledger.indexMap ph.localIndex (some s.ledger.handshakes)
        handshakes := s.ledger.handshakes + 1 } := by
      simp [Shared.ledger, Shared.setManager, HandshakeManager.insert]
    refine stepActs_of hstep ?_
    rw [hledger]
    exact .insert ph.localIndex hnotes hheld

theorem stepActs_queuePacket (s : Shared P) (dstIP : Addr) (pkt : Bytes) :
    StepActs s (.queuePacket dstIP pkt) := by
  have hledger : (s.setManager (s.node.handshakeMgr.queuePacket dstIP pkt)).ledger = s.ledger := by
    unfold HandshakeManager.queuePacket
    split
    · rfl
    · simp [Shared.ledger, Shared.setManager]
  exact stepActs_quiet rfl hledger (by simp) rfl

theorem stepActs_retryPending (s : Shared P) (env : Env P) : StepActs s (.retryPending env) := by
  have hexecutes := s.node.handshakeMgr.retryPending_executes env
  have hlength : (s.node.handshakeMgr.retryPending env).1.handshakes.length
      = s.node.handshakeMgr.handshakes.length := by
    have hcore := congrArg List.length (HandshakeManager.RetryStep.handshakes_eq hexecutes).1
    simpa [HandshakeManager.core] using hcore
  have hledger : (s.setManager (s.node.handshakeMgr.retryPending env).1).ledger = { s.ledger with
      indexMap := (s.node.handshakeMgr.retryPending env).1.indexMap } := by
    simp [Shared.ledger, Shared.setManager, hlength]
  have hsub : ∀ idx r, (s.node.handshakeMgr.retryPending env).1.indexMap idx = some r →
      s.ledger.indexMap idx = some r := fun idx r hidx =>
    HandshakeManager.RetryStep.indexMap_eq hexecutes idx r hidx
  have hstep : Task.step s (.retryPending env)
      = (s.setManager (s.node.handshakeMgr.retryPending env).1,
        (s.node.handshakeMgr.retryPending env).2.map .effect, .done) := rfl
  refine stepActs_of hstep ?_
  rw [hledger]
  exact .forget (plain_map_effect _) rfl hsub

theorem stepActs_handleStage0 (s : Shared P) (env : Env P) (pkt : Bytes) (src : UDPAddr) :
    StepActs s (.handleStage0 env pkt src) := by
  rcases hres : s.node.handshakeMgr.handleStage0 env pkt src with ⟨sent, err | host⟩
  · exact stepActs_quiet (step_handleStage0_error hres) rfl (plain_map_effect sent) rfl
  · have hnew : host.counter = 0 := by
      obtain ⟨st, idx, wire, cs, ciphers, -, -, -, -, rfl⟩ :=
        HandshakeManager.handleStage0_ok.mp (congrArg Prod.snd hres)
      rfl
    exact stepActs_of (step_handleStage0 hres) (.respond env [] (plain_map_effect sent) hnew)

theorem stepActs_handleStage1 (s : Shared P) (env : Env P) (pkt : Bytes) :
    StepActs s (.handleStage1 env pkt) := by
  rcases step_handleStage1_cases s env pkt with ⟨hdr, r, ph, -, hidx, -, hstep⟩ | ⟨-, hstep⟩
  · have hclaim : s.ledger.indexMap hdr.remoteIndex = some r := hidx
    exact stepActs_of hstep (.claim env pkt hclaim)
  · exact stepActs_silent hstep rfl

theorem stepActs_readStage1 (s : Shared P) (env : Env P) (pkt : Bytes) (r : Ref) :
    StepActs s (.readStage1 env pkt r) := by
  cases hr : s.node.handshakeMgr.handshakes[r]? with
  | none => exact stepActs_silent (step_readStage1_none hr) rfl
  | some ph =>
      cases hread : s.node.handshakeMgr.readStage1 env.now ph pkt with
      | error err => exact stepActs_silent (step_readStage1_error hr hread) rfl
      | ok st => exact stepActs_of (step_readStage1 hr hread) (.read env pkt _ rfl)

theorem stepActs_add (s : Shared P) (env : Env P) (o : Origin) (h : HostInfo)
    (pending : List Bytes) : StepActs s (.add env o h pending) := by
  have hlength : s.ledger.sessions.length = s.node.hostmap.hosts.length := by
    simp [Shared.ledger]
  have hstep : Task.step s (.add env o h pending)
      = (s.setHostmap (s.node.hostmap.add h), [.added o s.ledger.sessions.length h pending],
        .storeCert env s.node.hostmap.hosts.length h pending) := by
    rw [hlength]
    rfl
  have hledger : (s.setHostmap (s.node.hostmap.add h)).ledger = { s.ledger with
      sessions := s.ledger.sessions ++ [(h.counter, h.sendCipher)] } := by
    simp [Shared.ledger, Shared.setHostmap, HostMap.add]
  refine stepActs_of hstep ?_
  rw [hledger]
  exact .add env o h pending rfl

/-! #### The other steps -/

theorem stepActs_outside (s : Shared P) (env : Env P) (pkt : Bytes) (src : UDPAddr) :
    StepActs s (.outside env pkt src) := by
  have hstep : Task.step s (.outside env pkt src) = dispatch s env pkt src := rfl
  unfold dispatch at hstep
  split at hstep
  · exact stepActs_silent hstep rfl
  · split at hstep
    · exact stepActs_silent hstep rfl
    · rename_i hdr _
      split_ifs at hstep
      · split at hstep
        · exact stepActs_quiet hstep rfl (plain_map_effect _) rfl
        · exact stepActs_silent hstep rfl
      · exact stepActs_silent hstep rfl
      · exact stepActs_silent hstep rfl
      · exact stepActs_silent hstep rfl
      · obtain ⟨lighthouse, hnode⟩ := s.node.handleLightHouse_fst env pkt hdr src
        simp only [hnode] at hstep
        exact stepActs_quiet hstep rfl (plain_map_effect _) rfl
      · exact stepActs_quiet hstep rfl (plain_map_effect _) rfl
      · split at hstep
        · exact stepActs_silent hstep rfl
        · exact stepActs_silent hstep rfl
      · exact stepActs_silent hstep rfl

/-- **What one step of a task can do.** -/
theorem stepActs (s : Shared P) (t : Task P) : StepActs s t := by
  cases t with
  | inside env pkt =>
      cases hdst : dstIPFromIPv4 pkt with
      | none => exact stepActs_silent (step_inside_none hdst) rfl
      | some dstIP => exact stepActs_silent (step_inside hdst) rfl
  | allowOutbound env dstIP pkt host groups =>
      rcases hverdict : s.node.fw.allowOutbound env.now dstIP groups (dstPortFromIPv4 pkt)
        (protoFromIPv4 pkt) with ⟨fw, allowed⟩
      refine stepActs_quiet (step_allowOutbound s host hverdict) rfl ?_ ?_
      · intro note hnote
        rw [List.mem_singleton.mp hnote]
        exact ⟨rfl, rfl⟩
      · cases allowed with
        | false => rfl
        | true => cases host with
          | none => rfl
          | some r => rfl
  | getPeerCert env dstIP pkt =>
      cases hcert : s.node.peerCerts dstIP with
      | none => exact stepActs_silent (step_getPeerCert_none hcert) rfl
      | some remoteCert => exact stepActs_silent (step_getPeerCert hcert) rfl
  | getAddrs env dstIP pkt remoteCert =>
      cases haddrs : s.node.lighthouse.getAddrs dstIP with
      | nil =>
          exact stepActs_quiet (step_getAddrs_nil env pkt remoteCert haddrs) rfl
            (plain_map_effect _) rfl
      | cons addr addrs => exact stepActs_silent (step_getAddrs_cons haddrs) rfl
  | startHandshake env dstIP pkt addr cert =>
      exact stepActs_startHandshake s env dstIP pkt addr cert
  | queuePacket dstIP pkt => exact stepActs_queuePacket s dstIP pkt
  | send env r pkts => exact stepActs_send s env r pkts
  | encrypt env r c pkt pkts => exact stepActs_encrypt s env r c pkt pkts
  | outside env pkt src => exact stepActs_outside s env pkt src
  | checkReplay env pkt hdr r => exact stepActs_checkReplay s env pkt hdr r
  | deliver env host plaintext =>
      obtain ⟨fw, hnode⟩ := s.node.deliver_fst env host plaintext
      have hstep : Task.step s (.deliver env host plaintext) = (⟨{ s.node with fw }, s.responders⟩,
          (s.node.deliver env host plaintext).2.map .effect, .done) := by
        simp only [Task.step, hnode]
      exact stepActs_quiet hstep rfl (plain_map_effect _) rfl
  | handleStage0 env pkt src => exact stepActs_handleStage0 s env pkt src
  | handleStage1 env pkt => exact stepActs_handleStage1 s env pkt
  | readStage1 env pkt r => exact stepActs_readStage1 s env pkt r
  | add env o h pending => exact stepActs_add s env o h pending
  | storeCert env r h pending => exact stepActs_quiet rfl rfl (by simp) rfl
  | remove ip => exact stepActs_quiet rfl rfl (by simp) rfl
  | retryPending env => exact stepActs_retryPending s env
  | runExpiry env =>
      exact stepActs_quiet rfl rfl (plain_map_effect [.expired env.now]) rfl
  | advertise env => exact stepActs_quiet rfl rfl (plain_map_effect _) rfl
  | done => exact stepActs_silent rfl rfl

end Task

end Neth
