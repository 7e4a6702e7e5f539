/-
What one step of a call can do to sessions and handshakes.

A handshake goes through several steps of one call.  The datagram is told apart, the
pending handshake is taken out, its response is read, the session is added; or the
initiation is answered, the response is written, and the session is added one step later.
Between two of them the call has the handshake in its variables, and no table has it.
`Proceeds` lists these steps with what they do to the tables, what they write and where the
call is afterwards.  Every other step leaves the tables alone at their core, writes nothing
that belongs to a handshake, and leads to a point where the call has none in hand.
-/
import Neth.Proofs.Control
import Neth.Proofs.Tokens

namespace Neth

open Interleave HandshakeManager

variable {P : Platform}

/-! ### The tables of a node

Two of the tables are enough here, at their core; a handshake in the hands of a call is in neither.
-/

/-- The sessions and the pending handshakes, at their core. -/
structure Tables (P : Platform) where
  hostmap : HostMap
  handshakeMgr : HandshakeManager P

/-- The tables of a node. -/
def Shared.tables (s : Shared P) : Tables P := ⟨s.node.hostmap.core, s.node.handshakeMgr.core⟩

/-- Who a session object that is stored was made with, and the object. -/
def Note.added? : Note → Option (Origin × HostInfo)
  | .added o _ h _ => some (o, h)
  | _ => none

/-- The call has no handshake in hand, and does not go on to one. -/
def Task.Passive : Task P → Prop
  | .outside .. => False
  | .handleStage0 .. => False
  | .handleStage1 .. => False
  | .readStage1 .. => False
  | .add .. => False
  | .remove .. => False
  | _ => True

/-- What one step of a task can do to the tables, with its notes and the task afterwards. -/
inductive Proceeds : Tables P → Task P → List Note → Tables P → Task P → Prop where
  | quiet {c : Tables P} {t t' : Task P} {notes : List Note} (hquiet : AllQuiet (effects notes))
      (hadded : ∀ note ∈ notes, note.added? = none) (hpassive : t'.Passive) :
      Proceeds c t notes c t'
  /-- A datagram is told apart. -/
  | initiation {c : Tables P} {env : Env P} {pkt : Bytes} {src : UDPAddr}
      (hinit : IsHandshake handshakeInitiation pkt) :
      Proceeds c (.outside env pkt src) [] c (.handleStage0 env pkt src)
  | response {c : Tables P} {env : Env P} {pkt : Bytes} {src : UDPAddr}
      (hresp : IsHandshake handshakeResponse pkt) :
      Proceeds c (.outside env pkt src) [] c (.handleStage1 env pkt)
  | close {c : Tables P} {env : Env P} {pkt : Bytes} {src : UDPAddr} {hdr : Header} (ip : Addr)
      (hparse : Header.parse pkt = .ok hdr) (htype : hdr.type = typeCloseTunnel) :
      Proceeds c (.outside env pkt src) [] c (.remove ip)
  /-- A handshake is started. -/
  | start {c : Tables P} {env : Env P} {v : Addr} {pkt : Bytes} {addr : UDPAddr}
      {cert : Certificate} {ph : PendingHandshake P} {notes : List Note} {t' : Task P}
      (hnew : c.handshakeMgr.newPending env v addr cert = .ok ph)
      (hwrote : ∀ data, Wrote (effects notes) data → data = ph.stage0msg)
      (hadded : ∀ note ∈ notes, note.added? = none) (hpassive : t'.Passive) :
      Proceeds c (.startHandshake env v pkt addr cert) notes
        { c with handshakeMgr := c.handshakeMgr.insert ph.core } t'
  | retry {c : Tables P} {env : Env P} {effs : List Effect} {m : HandshakeManager P}
      (hretry : Trace.Executes (RetryStep env) c.handshakeMgr effs m) :
      Proceeds c (.retryPending env) (effs.map .effect) { c with handshakeMgr := m } .done
  /-- An initiation is answered, or not. -/
  | refuse {c : Tables P} {env : Env P} {pkt : Bytes} {src : UDPAddr} {sent : List Effect}
      {err : String} (hread : c.handshakeMgr.handleStage0 env pkt src = (sent, .error err)) :
      Proceeds c (.handleStage0 env pkt src) (sent.map .effect) c .done
  | answer {c : Tables P} {env : Env P} {pkt : Bytes} {src : UDPAddr} {sent : List Effect}
      {host : HostInfo} (k : Nat)
      (hread : c.handshakeMgr.handleStage0 env pkt src = (sent, .ok host)) :
      Proceeds c (.handleStage0 env pkt src) (sent.map .effect ++ [.claimed (.responder k)]) c
        (.add env (.responder k) host [])
  /-- A pending handshake is taken out. -/
  | claim {c : Tables P} {env : Env P} {pkt : Bytes} {hdr : Header} {r : Ref}
      {ph : PendingHandshake P} (hparse : Header.parse pkt = .ok hdr)
      (hidx : c.handshakeMgr.indexMap hdr.remoteIndex = some r)
      (hr : c.handshakeMgr.handshakes[r]? = some ph) :
      Proceeds c (.handleStage1 env pkt) [.claimed (.initiator r)]
        { c with handshakeMgr := c.handshakeMgr.take hdr.remoteIndex ph } (.readStage1 env pkt r)
  | read {c : Tables P} {env : Env P} {pkt : Bytes} {r : Ref} {ph : PendingHandshake P}
      {st : Stage1} (pending : List Bytes) (hr : c.handshakeMgr.handshakes[r]? = some ph)
      (hread : c.handshakeMgr.readStage1 env.now ph pkt = .ok st) :
      Proceeds c (.readStage1 env pkt r) [] c (.add env (.initiator r) (stage1Host ph st) pending)
  | add {c : Tables P} (env : Env P) (o : Origin) (r : Ref) (h : HostInfo) (pending : List Bytes) :
      Proceeds c (.add env o h pending) [.added o r h pending]
        { c with hostmap := c.hostmap.add h.core } (.storeCert env r h pending)
  | remove {c : Tables P} (ip : Addr) :
      Proceeds c (.remove ip) [] { c with hostmap := c.hostmap.remove ip } .done

/-! ### Every step is one of these

One lemma for each kind of task.  Most of them are quiet. -/

/-- What is not written to the socket is quiet. -/
theorem allQuiet_singleton {e : Effect} (h : ¬ e.IsWrite) : AllQuiet [e] := by
  rintro data ⟨addr, hmem⟩
  obtain rfl := List.mem_singleton.mp hmem
  exact absurd trivial h

theorem added?_map_effect (effs : List Effect) :
    ∀ note ∈ effs.map Note.effect, note.added? = none := by
  intro note hnote
  obtain ⟨e, -, rfl⟩ := List.mem_map.mp hnote
  rfl

namespace Task

variable {s s' : Shared P} {t t' : Task P} {notes : List Note}

/-- The step is one of those listed. -/
def StepProceeds (s : Shared P) (t : Task P) : Prop :=
  Proceeds s.tables t (Task.step s t).2.1 (Task.step s t).1.tables (Task.step s t).2.2

theorem stepProceeds_of (hstep : Task.step s t = (s', notes, t'))
    (h : Proceeds s.tables t notes s'.tables t') : StepProceeds s t := by
  unfold StepProceeds
  rw [hstep]
  exact h

theorem stepProceeds_quiet (hstep : Task.step s t = (s', notes, t'))
    (htables : s'.tables = s.tables) (hquiet : AllQuiet (effects notes))
    (hadded : ∀ note ∈ notes, note.added? = none) (hpassive : t'.Passive) : StepProceeds s t :=
  stepProceeds_of hstep (htables ▸ .quiet hquiet hadded hpassive)

/-- A step that leaves effects and nothing else. -/
theorem stepProceeds_effects (effs : List Effect)
    (hstep : Task.step s t = (s', effs.map .effect, t')) (htables : s'.tables = s.tables)
    (hquiet : AllQuiet effs) (hpassive : t'.Passive) : StepProceeds s t :=
  stepProceeds_quiet hstep htables (by rwa [effects_map_effect]) (added?_map_effect effs) hpassive

/-- A step that leaves no trace in the tables or the notes. -/
theorem stepProceeds_silent (hstep : Task.step s t = (s, [], t')) (hpassive : t'.Passive) :
    StepProceeds s t :=
  stepProceeds_quiet hstep rfl allQuiet_nil (by simp) hpassive

/-- Assigning to a session's mutable fields is not seen. -/
theorem tables_assign {r : Ref} {h h' : HostInfo} (hr : s.node.hostmap.hosts[r]? = some h)
    (hcore : h'.core = h.core) :
    (s.setHostmap (s.node.hostmap.assign r h')).tables = s.tables := by
  unfold Shared.tables Shared.setHostmap
  simp only
  rw [HostMap.core_assign hr hcore]

/-! #### Packets -/

theorem stepProceeds_allowOutbound (s : Shared P) (env : Env P) (dstIP : Addr) (pkt : Bytes)
    (host : Option Ref) (groups : List GoString) :
    StepProceeds s (.allowOutbound env dstIP pkt host groups) := by
  rcases hverdict : s.node.fw.allowOutbound env.now dstIP groups (dstPortFromIPv4 pkt)
    (protoFromIPv4 pkt) with ⟨fw, allowed⟩
  have hstep := step_allowOutbound s host hverdict
  refine stepProceeds_effects [_] hstep rfl (allQuiet_singleton id) ?_
  cases allowed with
  | false => trivial
  | true => cases host with
    | none => trivial
    | some r => trivial

theorem stepProceeds_send (s : Shared P) (env : Env P) (r : Ref) (pkts : List Bytes) :
    StepProceeds s (.send env r pkts) := by
  cases pkts with
  | nil => exact stepProceeds_silent rfl trivial
  | cons pkt pkts =>
      cases hr : s.node.hostmap.hosts[r]? with
      | none => exact stepProceeds_silent (step_send_none hr) trivial
      | some host =>
          refine stepProceeds_quiet (step_send hr) (tables_assign hr rfl) allQuiet_nil ?_ trivial
          intro note hnote
          rw [List.mem_singleton.mp hnote]
          rfl

theorem stepProceeds_encrypt (s : Shared P) (env : Env P) (r : Ref) (c : UInt64) (pkt : Bytes)
    (pkts : List Bytes) : StepProceeds s (.encrypt env r c pkt pkts) := by
  cases hr : s.node.hostmap.hosts[r]? with
  | none => exact stepProceeds_silent (step_encrypt_none hr) trivial
  | some host =>
      refine stepProceeds_quiet (step_encrypt hr) rfl ?_ ?_ trivial
      · rintro data ⟨addr, hmem⟩
        simp only [effects, Note.effect?, List.filterMap_cons, List.filterMap_nil, Env.send,
          List.mem_cons, reduceCtorEq, Effect.writeTo.injEq, false_or, List.not_mem_nil,
          or_false] at hmem
        rw [hmem.1]
        exact quiet_bytes_append rfl (.inl rfl) _
      · simp [Note.added?]

theorem stepProceeds_checkReplay (s : Shared P) (env : Env P) (pkt : Bytes) (hdr : Header)
    (r : Ref) : StepProceeds s (.checkReplay env pkt hdr r) := by
  cases hr : s.node.hostmap.hosts[r]? with
  | none => exact stepProceeds_silent (step_checkReplay_none hr) trivial
  | some host =>
      have htables := tables_assign hr (Interface.core_receive (P := P) host hdr pkt)
      rcases hreceive : host.receive P hdr pkt with ⟨host', err | plaintext⟩
      · rw [hreceive] at htables
        exact stepProceeds_quiet (step_checkReplay_error hr hreceive) htables allQuiet_nil
          (by simp) trivial
      · rw [hreceive] at htables
        exact stepProceeds_effects [_] (step_checkReplay hr hreceive) htables
          (allQuiet_singleton id) trivial

theorem stepProceeds_deliver (s : Shared P) (env : Env P) (host : HostInfo) (plaintext : Bytes) :
    StepProceeds s (.deliver env host plaintext) := by
  obtain ⟨fw, hnode⟩ := s.node.deliver_fst env host plaintext
  have hstep : Task.step s (.deliver env host plaintext) = (⟨{ s.node with fw }, s.responders⟩,
      (s.node.deliver env host plaintext).2.map .effect, .done) := by
    simp only [Task.step, hnode]
  exact stepProceeds_effects _ hstep rfl (s.node.allQuiet_deliver env host plaintext) trivial

/-! #### Handshakes -/

theorem stepProceeds_startHandshake (s : Shared P) (env : Env P) (v : Addr) (pkt : Bytes)
    (addr : UDPAddr) (cert : Certificate) :
    StepProceeds s (.startHandshake env v pkt addr cert) := by
  rcases hres : s.node.handshakeMgr.startHandshake env v addr cert with ⟨m, effs, res⟩
  obtain ⟨ok, t', hstep, hpassive⟩ : ∃ ok t', Task.step s (.startHandshake env v pkt addr cert)
      = (s.setManager m, effs.map .effect ++ [.started ok], t') ∧ t'.Passive := by
    cases res with
    | error e => exact ⟨false, _, step_startHandshake_error pkt hres, trivial⟩
    | ok u => exact ⟨true, _, step_startHandshake pkt hres, trivial⟩
  have heffs : effects (effs.map .effect ++ [.started ok]) = effs :=
    effects_map_effect_append effs rfl
  have hadded : ∀ note ∈ effs.map Note.effect ++ [.started ok], note.added? = none := by
    intro note hnote
    rcases List.mem_append.mp hnote with hnote | hnote
    · exact added?_map_effect effs note hnote
    · rw [List.mem_singleton.mp hnote]
      rfl
  rcases s.node.handshakeMgr.startHandshake_cases env v addr cert with
    ⟨res', hsame⟩ | ⟨ph, res', -, hnew, hstart⟩
  · obtain ⟨rfl, rfl, -⟩ : m = s.node.handshakeMgr ∧ effs = [] ∧ res = res' := by
      simpa using hres.symm.trans hsame
    exact stepProceeds_quiet hstep rfl (by rw [heffs]; exact allQuiet_nil) hadded hpassive
  · obtain ⟨rfl, rfl, -⟩ : m = s.node.handshakeMgr.insert ph ∧
        effs = [env.send ph.stage0msg addr] ∧ res = res' := by
      simpa using hres.symm.trans hstart
    have htables : (s.setManager (s.node.handshakeMgr.insert ph)).tables
        = { s.tables with handshakeMgr := s.tables.handshakeMgr.insert ph.core } := by
      unfold Shared.tables Shared.setManager
      simp only [core_insert]
    refine stepProceeds_of hstep ?_
    rw [htables]
    refine .start hnew ?_ hadded hpassive
    intro data hw
    rw [heffs] at hw
    exact wrote_of_send hw

theorem stepProceeds_queuePacket (s : Shared P) (dstIP : Addr) (pkt : Bytes) :
    StepProceeds s (.queuePacket dstIP pkt) := by
  have htables : (s.setManager (s.node.handshakeMgr.queuePacket dstIP pkt)).tables = s.tables := by
    unfold Shared.tables Shared.setManager
    simp only [core_queuePacket]
  exact stepProceeds_quiet rfl htables allQuiet_nil (by simp) trivial

theorem stepProceeds_handleStage0 (s : Shared P) (env : Env P) (pkt : Bytes) (src : UDPAddr) :
    StepProceeds s (.handleStage0 env pkt src) := by
  rcases hres : s.node.handshakeMgr.handleStage0 env pkt src with ⟨sent, err | host⟩
  · exact stepProceeds_of (step_handleStage0_error hres) (.refuse hres)
  · exact stepProceeds_of (step_handleStage0 hres) (.answer s.responders hres)

theorem stepProceeds_handleStage1 (s : Shared P) (env : Env P) (pkt : Bytes) :
    StepProceeds s (.handleStage1 env pkt) := by
  rcases step_handleStage1_cases s env pkt with ⟨hdr, r, ph, hparse, hidx, hr, hstep⟩ | ⟨-, hstep⟩
  · have hcore : s.tables.handshakeMgr.handshakes[r]? = some ph.core := by
      simp [Shared.tables, core, hr]
    have hclaim : Proceeds s.tables (.handleStage1 env pkt) [.claimed (.initiator r)]
        { s.tables with
          handshakeMgr := s.tables.handshakeMgr.take hdr.remoteIndex ph.core }
        (.readStage1 env pkt r) := .claim hparse hidx hcore
    exact stepProceeds_of hstep hclaim
  · exact stepProceeds_silent hstep trivial

theorem stepProceeds_readStage1 (s : Shared P) (env : Env P) (pkt : Bytes) (r : Ref) :
    StepProceeds s (.readStage1 env pkt r) := by
  cases hr : s.node.handshakeMgr.handshakes[r]? with
  | none => exact stepProceeds_silent (step_readStage1_none hr) trivial
  | some ph =>
      have hcore : s.tables.handshakeMgr.handshakes[r]? = some ph.core := by
        simp [Shared.tables, core, hr]
      cases hread : s.node.handshakeMgr.readStage1 env.now ph pkt with
      | error err => exact stepProceeds_silent (step_readStage1_error hr hread) trivial
      | ok st =>
          have hproceeds := Proceeds.read ph.pendingPackets hcore hread
          exact stepProceeds_of (step_readStage1 hr hread) hproceeds

theorem stepProceeds_add (s : Shared P) (env : Env P) (o : Origin) (h : HostInfo)
    (pending : List Bytes) : StepProceeds s (.add env o h pending) := by
  have htables : (s.setHostmap (s.node.hostmap.add h)).tables
      = { s.tables with hostmap := s.tables.hostmap.add h.core } := by
    unfold Shared.tables Shared.setHostmap
    simp only [HostMap.core_add]
  have hproceeds := Proceeds.add (c := s.tables) env o s.node.hostmap.hosts.length h pending
  rw [← htables] at hproceeds
  exact stepProceeds_of rfl hproceeds

theorem stepProceeds_remove (s : Shared P) (ip : Addr) : StepProceeds s (.remove ip) := by
  have htables : (s.setHostmap (s.node.hostmap.remove ip)).tables
      = { s.tables with hostmap := s.tables.hostmap.remove ip } := by
    unfold Shared.tables Shared.setHostmap
    simp only [HostMap.core_remove]
  have hproceeds := Proceeds.remove (c := s.tables) ip
  rw [← htables] at hproceeds
  exact stepProceeds_of rfl hproceeds

/-! #### Datagrams -/

theorem stepProceeds_outside (s : Shared P) (env : Env P) (pkt : Bytes) (src : UDPAddr) :
    StepProceeds s (.outside env pkt src) := by
  have hstep : Task.step s (.outside env pkt src) = dispatch s env pkt src := rfl
  unfold dispatch at hstep
  split at hstep
  · exact stepProceeds_silent hstep trivial
  · cases hparse : Header.parse pkt with
    | error e =>
        simp only [hparse] at hstep
        exact stepProceeds_silent hstep trivial
    | ok hdr =>
        simp only [hparse] at hstep
        split_ifs at hstep with hmessage hhandshake hinit hresp hlighthouse htest hclose
        · split at hstep
          · refine stepProceeds_effects _ hstep rfl ?_ trivial
            cases s.node.punchy with
            | none => exact allQuiet_nil
            | some p => exact allQuiet_of_isQuietWrite (p.quiet_respondToPunch env src)
          · exact stepProceeds_silent hstep trivial
        · exact stepProceeds_of hstep (.initiation ⟨hdr, hparse, hhandshake, hinit⟩)
        · exact stepProceeds_of hstep (.response ⟨hdr, hparse, hhandshake, hresp⟩)
        · exact stepProceeds_silent hstep trivial
        · obtain ⟨lighthouse, hnode⟩ := s.node.handleLightHouse_fst env pkt hdr src
          obtain ⟨-, hquiet⟩ := s.node.handleLightHouse_control env pkt hdr src
          simp only [hnode] at hstep
          exact stepProceeds_effects _ hstep rfl hquiet trivial
        · have hquiet : Quiet (Header.bytes ⟨headerVersion, typeTest, 0, 0, 0⟩ ++ []) :=
            quiet_bytes_append rfl (.inr (.inr rfl)) []
          rw [List.append_nil] at hquiet
          exact stepProceeds_effects _ hstep rfl
            (allQuiet_of_isQuietWrite (isQuietWrite_map_send env hquiet [src])) trivial
        · split at hstep
          · exact stepProceeds_of hstep (.close _ hparse hclose)
          · exact stepProceeds_silent hstep trivial
        · exact stepProceeds_silent hstep trivial

/-- **What one step of a task does to sessions and handshakes.** -/
theorem stepProceeds (s : Shared P) (t : Task P) : StepProceeds s t := by
  cases t with
  | inside env pkt =>
      cases hdst : dstIPFromIPv4 pkt with
      | none => exact stepProceeds_silent (step_inside_none hdst) trivial
      | some dstIP => exact stepProceeds_silent (step_inside hdst) trivial
  | allowOutbound env dstIP pkt host groups =>
      exact stepProceeds_allowOutbound s env dstIP pkt host groups
  | getPeerCert env dstIP pkt =>
      cases hcert : s.node.peerCerts dstIP with
      | none => exact stepProceeds_silent (step_getPeerCert_none hcert) trivial
      | some remoteCert => exact stepProceeds_silent (step_getPeerCert hcert) trivial
  | getAddrs env dstIP pkt remoteCert =>
      cases haddrs : s.node.lighthouse.getAddrs dstIP with
      | nil =>
          exact stepProceeds_effects _ (step_getAddrs_nil env pkt remoteCert haddrs) rfl
            (allQuiet_of_isQuietWrite (s.node.lighthouse.quiet_flatMap_send env _ _)) trivial
      | cons addr addrs => exact stepProceeds_silent (step_getAddrs_cons haddrs) trivial
  | startHandshake env dstIP pkt addr cert =>
      exact stepProceeds_startHandshake s env dstIP pkt addr cert
  | queuePacket dstIP pkt => exact stepProceeds_queuePacket s dstIP pkt
  | send env r pkts => exact stepProceeds_send s env r pkts
  | encrypt env r c pkt pkts => exact stepProceeds_encrypt s env r c pkt pkts
  | outside env pkt src => exact stepProceeds_outside s env pkt src
  | checkReplay env pkt hdr r => exact stepProceeds_checkReplay s env pkt hdr r
  | deliver env host plaintext => exact stepProceeds_deliver s env host plaintext
  | handleStage0 env pkt src => exact stepProceeds_handleStage0 s env pkt src
  | handleStage1 env pkt => exact stepProceeds_handleStage1 s env pkt
  | readStage1 env pkt r => exact stepProceeds_readStage1 s env pkt r
  | add env o h pending => exact stepProceeds_add s env o h pending
  | storeCert env r h pending =>
      exact stepProceeds_quiet rfl rfl allQuiet_nil (by simp) trivial
  | remove ip => exact stepProceeds_remove s ip
  | retryPending env =>
      exact stepProceeds_of rfl (.retry (s.node.handshakeMgr.retryPending_executes env))
  | runExpiry env =>
      exact stepProceeds_effects [.expired env.now] rfl rfl (allQuiet_singleton id) trivial
  | advertise env =>
      exact stepProceeds_effects _ rfl rfl
        (allQuiet_of_isQuietWrite (s.node.lighthouse.quiet_flatMap_send env _ _)) trivial
  | done => exact stepProceeds_silent rfl trivial

end Task

end Neth
