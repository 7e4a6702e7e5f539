/-
Two honest nodes that may both initiate, over a lossy network.

Which of several sessions a node sends through depends on the order in which datagrams
arrive, and two nodes need not choose the same.  What depends on it less: a session that a
node makes as the initiator has its counterpart at the other node, under the index the
response named, with the same keys crossed.  The counterpart need not be in the table yet.
`HandleStage0` writes the response first and stores the session afterwards, so for a while
only the call has it, and a fast initiator is done before.  The next step of that call
stores it, and from then on it stays.

The invariant says of a response, in flight or in the hands of a call, that its sender has
the session it was made for, in the table or in a call that is about to store it.  That is
kept because no session is removed without a datagram that closes it, no node sends one,
and no index in use is drawn again.
-/
import Neth.Daemons
import Neth.Proofs.HeldIndexes
import Neth.Proofs.KeyAgreement

namespace Neth

open Lossy Interleave HandshakeManager

variable {P : Platform}

/-! ### What a node has made and sent

A session counts as made from the moment its response is written, and it is then in a call or in the
table.  Everything below is stated so that moving it from the one to the other changes nothing. -/

theorem Note.eq_of_added? {note : Note} {o : Origin} {h : HostInfo}
    (hadded : note.added? = some (o, h)) : ∃ r pending, note = .added o r h pending := by
  cases note with
  | added o' r h' pending =>
      obtain ⟨rfl, rfl⟩ := Prod.mk.inj (Option.some.inj hadded)
      exact ⟨r, pending, rfl⟩
  | _ => cases hadded

theorem HostMap.exists_of_core {m : HostMap} {idx : UInt32} {r : Ref} {g : HostInfo}
    (h : m.core.getByIndex idx = some (r, g)) :
    ∃ g', m.getByIndex idx = some (r, g') ∧ g'.core = g := by
  rw [HostMap.getByIndex_core] at h
  obtain ⟨⟨r', g'⟩, hget, heq⟩ := Option.map_eq_some_iff.mp h
  obtain ⟨rfl, rfl⟩ := Prod.mk.inj heq
  exact ⟨g', hget, rfl⟩

/-- The two sessions are ends of one: each has the index of the other, and the keys are crossed.
The second was made for `ip`. -/
def HostInfo.Mirrors (h : HostInfo) (ip : Addr) (g : HostInfo) : Prop :=
  g.index = h.remoteIndex ∧ g.remoteIndex = h.index ∧ g.vpnIP = ip ∧
    g.recvCipher = h.sendCipher ∧ g.sendCipher = h.recvCipher

theorem HostInfo.Mirrors.of_core {h g g' : HostInfo} {ip : Addr}
    (hg : h.Mirrors ip g) (hcore : g'.core = g.core) : h.Mirrors ip g' := by
  obtain ⟨hindex, hremote, hip, hrecv, hsend⟩ := hg
  exact ⟨(congrArg HostInfo.index hcore).trans hindex,
    (congrArg HostInfo.remoteIndex hcore).trans hremote,
    (congrArg HostInfo.vpnIP hcore).trans hip, (congrArg HostInfo.recvCipher hcore).trans hrecv,
    (congrArg HostInfo.sendCipher hcore).trans hsend⟩

namespace Daemon

/-- The node has made the session: it is found under its index, or a call of `HandleStage0` is about
to add it. -/
def Offers (D : Daemon P) (g : HostInfo) : Prop :=
  D.shared.tables.Has g ∨ ∃ env k pending, .add env (.responder k) g pending ∈ D.tasks

/-- Every session the node had made is still one it has made. -/
def Upholds (D D' : Daemon P) : Prop := ∀ g, D.Offers g → D'.Offers g

/-- The node has made, for `ip`, the session with the local index `idx`, which the peer knows as
`remote`, and it has the ciphers that the responder takes from `cs`. -/
def Answering (D : Daemon P) (idx remote : UInt32) (ip : Addr) (cs : CipherState × CipherState) :
    Prop :=
  ∃ g, D.Offers g ∧ g.index = idx ∧ g.remoteIndex = remote ∧ g.vpnIP = ip ∧
    g.sendCipher = ⟨cs.2.unsafeKey⟩ ∧ g.recvCipher = ⟨cs.1.unsafeKey⟩

end Daemon

variable (P) in
/-- The first message of `ph`, and the Noise state it left, belong together. -/
def Started (own : Certificate) (ph : PendingHandshake P) : Prop :=
  ∃ key rs psk w now, P.FirstMessage key rs psk w ∧ w.state = ph.state ∧
    Wire P own w.message (ownDetails P own ph.localIndex 0 now) 0 handshakeInitiation ph.stage0msg

/-- What a node with the certificate `own` has sent to the one with the certificate `peer`: other
traffic, an initiation, or a response for a session it has made, if the response finished the
pattern. -/
inductive Sent (own peer : Certificate) (D : Daemon P) (data : Bytes) : Prop
  | quiet (hquiet : Quiet data)
  | initiation {noise : Bytes} {idx : UInt32} {now : Time}
      (hwire : Wire P own noise (ownDetails P own idx 0 now) 0 handshakeInitiation data)
  | response {key : DHKey} {psk m : Bytes} {w : NoiseWrite P.HandshakeState} {remote idx : UInt32}
      {now : Time} (hsecond : P.SecondMessage key psk m w)
      (hwire : Wire P own w.message (ownDetails P own remote idx now) remote handshakeResponse data)
      (hsession : ∀ cs, w.ciphers = some cs → D.Answering idx remote peer.vpnIP.addr cs)

/-- What a call has in hand comes from the other node: a datagram that node has sent, or a session
that mirrors one of that node's. -/
def Task.Genuine (own peer : Certificate) (m : HandshakeManager P) (other : Daemon P) :
    Task P → Prop
  | .outside _ pkt _ => Sent peer own other pkt
  | .handleStage0 _ pkt _ => Sent peer own other pkt ∧ IsHandshake handshakeInitiation pkt
  | .handleStage1 _ pkt => Sent peer own other pkt ∧ IsHandshake handshakeResponse pkt
  | .readStage1 _ pkt r => Sent peer own other pkt ∧ IsHandshake handshakeResponse pkt ∧
      ∃ hdr, Header.parse pkt = .ok hdr ∧
        (m.handshakes[r]?).map (·.localIndex) = some hdr.remoteIndex
  | .add _ (.initiator _) h _ => ∃ g, other.Offers g ∧ h.Mirrors own.vpnIP.addr g
  -- no node sends what closes a tunnel
  | .remove _ => False
  | _ => True

/-- What holds of a node with the certificate `own` whose datagrams come from `other`, which has the
certificate `peer`. -/
structure Partner (own peer : Certificate) (D other : Daemon P) : Prop where
  apart : D.shared.tables.Apart D.tasks
  localCert : D.shared.tables.handshakeMgr.localCert = own
  started : ∀ ph ∈ D.shared.tables.handshakeMgr.handshakes, Started P own ph
  tasks : ∀ t ∈ D.tasks, t.Genuine own peer D.shared.tables.handshakeMgr other
  added : ∀ note ∈ D.log, ∀ o h, note.added? = some (.initiator o, h) →
    D.shared.tables.Has h ∧ ∃ g, other.Offers g ∧ h.Mirrors own.vpnIP.addr g

section Mono

variable {own peer : Certificate} {D D' other other' : Daemon P} {data : Bytes}

theorem Sent.mono (h : Sent own peer D data) (hup : D.Upholds D') : Sent own peer D' data := by
  cases h with
  | quiet hquiet => exact .quiet hquiet
  | initiation hwire => exact .initiation hwire
  | response hsecond hwire hsession =>
      refine .response hsecond hwire fun cs hcs => ?_
      obtain ⟨g, hoffers, hg⟩ := hsession cs hcs
      exact ⟨g, hup g hoffers, hg⟩

theorem Sent.not_close (h : Sent own peer D data) {hdr : Header}
    (hparse : Header.parse data = .ok hdr) : hdr.type ≠ typeCloseTunnel := by
  cases h with
  | quiet hquiet => exact (hquiet hdr hparse).2
  | initiation hwire => exact hwire.isHandshake.not_close hparse
  | response _ hwire _ => exact hwire.isHandshake.not_close hparse

theorem Task.Passive.genuine {t : Task P} (h : t.Passive) (m : HandshakeManager P) :
    t.Genuine own peer m other := by
  cases t with
  | outside | handleStage0 | handleStage1 | readStage1 | add | remove => exact absurd h id
  | _ => trivial

theorem Task.Genuine.mono {t : Task P} {m m' : HandshakeManager P}
    (h : t.Genuine own peer m other) (hknown : t.Known m) (hgrows : m.Grows m')
    (hup : other.Upholds other') : t.Genuine own peer m' other' := by
  cases t with
  | outside env pkt src => exact Sent.mono h hup
  | handleStage0 env pkt src => exact ⟨h.1.mono hup, h.2⟩
  | handleStage1 env pkt => exact ⟨h.1.mono hup, h.2⟩
  | readStage1 env pkt r =>
      obtain ⟨hsent, hresp, hdr, hparse, hidx⟩ := h
      exact ⟨hsent.mono hup, hresp, hdr, hparse, (hknown.index_eq hgrows).trans hidx⟩
  | add env o host pending =>
      cases o with
      | responder k => trivial
      | initiator r =>
          obtain ⟨g, hoffers, hmirrors⟩ := h
          exact ⟨g, hup g hoffers, hmirrors⟩
  | remove ip => exact h
  | _ => trivial

/-- The other node went on. -/
theorem Partner.mono (h : Partner own peer D other) (hup : other.Upholds other') :
    Partner own peer D other' where
  apart := h.apart
  localCert := h.localCert
  started := h.started
  tasks t ht := (h.tasks t ht).mono (h.apart.known t ht) (fun _ _ hr => hr) hup
  added note hnote o host hadded := by
    obtain ⟨hhas, g, hoffers, hmirrors⟩ := h.added note hnote o host hadded
    exact ⟨hhas, g, hup g hoffers, hmirrors⟩

end Mono

/-! ### One step of a call

Each part of the invariant has a lemma of its own, by cases on what the step can do; they are put
together in `Partner.advance`. -/

section Steps

variable {own peer : Certificate} {D other : Daemon P} {n : Nat} {t t' : Task P}
  {c c' : Tables P} {notes : List Note}

/-- The node after its `n`-th call has taken a step. -/
def Daemon.after (D : Daemon P) (n : Nat) (t : Task P) : Daemon P :=
  ⟨(Task.step D.shared t).1, D.tasks.set n (Task.step D.shared t).2.2,
    D.log ++ (Task.step D.shared t).2.1⟩

/-- The step of a call that is about to add a session. -/
theorem Daemon.has_after_add (D : Daemon P) (n : Nat) (env : Env P) (o : Origin) (g : HostInfo)
    (pending : List Bytes) : (D.after n (.add env o g pending)).shared.tables.Has g := by
  have hhas := Tables.has_add D.shared.tables g
  unfold Shared.tables at hhas
  simp only [← HostMap.core_add] at hhas
  exact hhas

/-- No step takes a session away. -/
theorem Partner.retains (h : Partner own peer D other) (hn : D.tasks[n]? = some t) :
    D.shared.tables.Retains (D.after n t).shared.tables := by
  refine h.apart.retains hn ?_ (Task.stepProceeds D.shared t)
  rintro ip rfl
  exact h.tasks _ (List.mem_of_getElem? hn)

/-- A call that is about to add a session adds it, and nothing is taken away. -/
theorem Partner.upholds (h : Partner own peer D other) (hn : D.tasks[n]? = some t) :
    D.Upholds (D.after n t) := by
  rintro g (hhas | ⟨env, k, pending, hadd⟩)
  · exact .inl (hhas.mono (h.retains hn))
  · obtain ⟨m, hm⟩ := List.mem_iff_getElem?.mp hadd
    by_cases heq : m = n
    · obtain rfl : .add env (.responder k) g pending = t :=
        Option.some.inj (hm.symm.trans (heq ▸ hn))
      exact .inl (D.has_after_add n env _ g pending)
    · refine .inr ⟨env, k, pending, List.mem_iff_getElem?.mpr ⟨m, ?_⟩⟩
      exact (List.getElem?_set_ne (Ne.symm heq)).trans hm

theorem Started.of_newPending {m : HandshakeManager P} {env : Env P} {v : Addr} {addr : UDPAddr}
    {cert : Certificate} {ph : PendingHandshake P} (hcert : m.localCert = own)
    (hnew : m.newPending env v addr cert = .ok ph) : Started P own ph.core := by
  obtain ⟨idx, hs, w, wire, -, hnewState, hw, hwire, rfl⟩ := newPending_ok.mp hnew
  rw [hcert] at hwire
  exact ⟨_, _, _, w, env.now, ⟨hs, env.entropy, [], hnewState, hw⟩, rfl, hwire⟩

theorem Started.sent {ph : PendingHandshake P} (h : Started P own ph) :
    Sent own peer D ph.stage0msg := by
  obtain ⟨key, rs, psk, w, now, -, -, hwire⟩ := h
  exact .initiation hwire

/-- A response is sent for a session that the call then has in hand. -/
theorem Sent.answer (hcodecs : P.Codecs) (hparse : Certificate.parseDER P peer.raw = .ok peer)
    {m : HandshakeManager P} (hcert : m.localCert = own) {env : Env P} {pkt data : Bytes}
    {src : UDPAddr} (hinit : IsHandshake handshakeInitiation pkt)
    (hflight : Sent peer own other pkt) (hsent : Wrote (m.handleStage0 env pkt src).1 data)
    (hdone : ∀ host, (m.handleStage0 env pkt src).2 = .ok host → D.Offers host) :
    Sent own peer D data := by
  obtain ⟨s, idx, w, hread, hidx, hw, hwire, hhost⟩ := handleStage0_wrote hsent
  rw [hcert] at hwire
  obtain ⟨-, msg, henv, hs, read, hnew, hread'⟩ := readStage0_ok.mp hread
  -- the certificate that was read is the one the peer had written
  have hpeer : s.senderCert = peer := by
    cases hflight with
    | quiet hquiet => exact absurd hquiet hinit.not_quiet
    | initiation hwire' => exact (hwire'.envelope_eq hcodecs hparse rfl henv).2.1
    | response _ hwire' _ => exact absurd (hwire'.isHandshake.unique hinit) (by decide)
  refine .response ⟨hs, read, s.state, env.entropy, [], hnew, hread', hw⟩ hwire ?_
  intro cs hcs
  refine ⟨_, hdone _ (hhost cs hcs), rfl, rfl, ?_, rfl, rfl⟩
  rw [← hpeer]
  rfl

/-- **A response that completes a handshake names the session it was made for.** -/
theorem Sent.complete (hbinds : P.BindsKeys) (hcodecs : P.Codecs)
    (hparse : Certificate.parseDER P peer.raw = .ok peer) {m : HandshakeManager P} {pkt : Bytes}
    {hdr : Header} {ph : PendingHandshake P} {st : Stage1} {now : Time}
    (hflight : Sent peer own other pkt) (hresp : IsHandshake handshakeResponse pkt)
    (hstarted : Started P own ph) (hhdr : Header.parse pkt = .ok hdr)
    (hlocal : ph.localIndex = hdr.remoteIndex) (hread : m.readStage1 now ph pkt = .ok st) :
    ∃ g, other.Offers g ∧ (stage1Host ph st).Mirrors own.vpnIP.addr g := by
  obtain ⟨key, rs, psk, w, now0, hfirst, hstate, -⟩ := hstarted
  obtain ⟨msg, henv, read, cs1, cs2, hnoise, hcs, hciphers⟩ := readStage1_ok.mp hread
  cases hflight with
  | quiet hquiet => exact absurd hquiet hresp.not_quiet
  | initiation hwire => exact absurd (hwire.isHandshake.unique hresp) (by decide)
  | @response key' psk' m' w' remote j now' hsecond hwire hsession =>
      obtain ⟨hdetails, -, hpayload, -⟩ := hwire.envelope_eq hcodecs hparse rfl henv
      rw [hpayload, ← hstate] at hnoise
      have hsame : w'.ciphers = some (cs1, cs2) :=
        (hbinds _ _ _ w _ _ _ w' read hfirst hsecond hnoise).symm.trans hcs
      obtain ⟨g, hoffers, hindex, hremote, hip, hsend, hrecv⟩ := hsession _ hsame
      refine ⟨g, hoffers, ?_, ?_, hip, ?_, ?_⟩
      · rw [hindex]
        exact (congrArg HandshakeDetails.responderIndex hdetails).symm
      · rw [hremote]
        exact (hlocal.trans (congrArg Header.remoteIndex
          (Except.ok.inj (hhdr.symm.trans hwire.parse)))).symm
      · rw [hrecv]
        exact (congrArg Prod.fst hciphers).symm
      · rw [hsend]
        exact (congrArg Prod.snd hciphers).symm

/-- What is pending was started by the node itself, whatever it does. -/
theorem Proceeds.started (h : Proceeds c t notes c' t') (hcert : c.handshakeMgr.localCert = own)
    (hstarted : ∀ ph ∈ c.handshakeMgr.handshakes, Started P own ph) :
    ∀ ph ∈ c'.handshakeMgr.handshakes, Started P own ph := by
  cases h with
  | start hnew _ _ _ =>
      intro ph hmem
      rcases List.mem_append.mp hmem with hold | hadded
      · exact hstarted ph hold
      · rw [List.mem_singleton.mp hadded]
        exact .of_newPending hcert hnew
  | retry hretry =>
      intro ph hmem
      rw [(RetryStep.handshakes_eq hretry).1] at hmem
      exact hstarted ph hmem
  | _ => exact hstarted

/-- What a step sends is as it should be. -/
theorem Proceeds.sent (hcodecs : P.Codecs) (hparse : Certificate.parseDER P peer.raw = .ok peer)
    (h : Proceeds c t notes c' t') (hcert : c.handshakeMgr.localCert = own)
    (hstarted : ∀ ph ∈ c.handshakeMgr.handshakes, Started P own ph)
    (hgenuine : t.Genuine own peer c.handshakeMgr other) {D' : Daemon P} (ht' : t' ∈ D'.tasks)
    {data : Bytes} (hw : Wrote (effects notes) data) : Sent own peer D' data := by
  cases h with
  | quiet hquiet _ _ => exact .quiet (hquiet data hw)
  | initiation _ | response _ | close _ _ _ | read _ _ _ | remove _ | claim _ _ _ | add _ _ _ _ _ =>
      exact absurd hw not_wrote_nil
  | start hnew hwrote _ _ =>
      rw [hwrote data hw]
      exact (Started.of_newPending hcert hnew).sent
  | retry hretry =>
      rw [effects_map_effect] at hw
      obtain ⟨v, r, ph, -, hr, rfl⟩ := RetryStep.wrote hretry data hw
      exact (hstarted ph (List.mem_of_getElem? hr)).sent
  | refuse hread =>
      rw [effects_map_effect] at hw
      refine .answer hcodecs hparse hcert hgenuine.2 hgenuine.1 (by rw [hread]; exact hw) ?_
      intro host hok
      rw [hread] at hok
      cases hok
  | answer k hread =>
      rw [effects_map_effect_append _ rfl] at hw
      refine .answer hcodecs hparse hcert hgenuine.2 hgenuine.1 (by rw [hread]; exact hw) ?_
      intro host hok
      rw [hread] at hok
      obtain rfl := Except.ok.inj hok
      exact .inr ⟨_, k, [], ht'⟩

/-- What a call has in hand afterwards still comes from the other node. -/
theorem Proceeds.genuine (hbinds : P.BindsKeys) (hcodecs : P.Codecs)
    (hparse : Certificate.parseDER P peer.raw = .ok peer) (h : Proceeds c t notes c' t')
    {tasks : List (Task P)} (hapart : c.Apart tasks)
    (hstarted : ∀ ph ∈ c.handshakeMgr.handshakes, Started P own ph)
    (hgenuine : t.Genuine own peer c.handshakeMgr other) :
    t'.Genuine own peer c'.handshakeMgr other := by
  cases h with
  | quiet _ _ hpassive => exact hpassive.genuine _
  | start _ _ _ hpassive => exact hpassive.genuine _
  | initiation hinit => exact ⟨hgenuine, hinit⟩
  | response hresp => exact ⟨hgenuine, hresp⟩
  | close ip hhdr htype => exact absurd htype (Sent.not_close hgenuine hhdr)
  | claim hhdr hidx hr =>
      obtain ⟨-, ph, hr', hlocal⟩ := hapart.pending _ _ hidx
      refine ⟨hgenuine.1, hgenuine.2, _, hhdr, ?_⟩
      exact (congrArg (Option.map _) hr').trans (congrArg some hlocal)
  | read pending hr hread =>
      obtain ⟨hsent, hresp, hdr, hhdr, hidx⟩ := hgenuine
      rw [hr] at hidx
      exact hsent.complete hbinds hcodecs hparse hresp (hstarted _ (List.mem_of_getElem? hr)) hhdr
        (Option.some.inj hidx) hread
  | retry _ | refuse _ | answer _ _ | add _ _ _ _ _ | remove _ => trivial

/-- A session that is added as the initiator mirrors one of the other node's. -/
theorem Proceeds.added (h : Proceeds c t notes c' t')
    (hgenuine : t.Genuine own peer c.handshakeMgr other) :
    ∀ note ∈ notes, ∀ o host, note.added? = some (.initiator o, host) →
      c'.Has host ∧ ∃ g, other.Offers g ∧ host.Mirrors own.vpnIP.addr g := by
  have hnone : (∀ note ∈ notes, note.added? = none) → ∀ note ∈ notes, ∀ o host,
      note.added? = some (.initiator o, host) →
      c'.Has host ∧ ∃ g, other.Offers g ∧ host.Mirrors own.vpnIP.addr g := by
    intro hnotes note hnote o host hadded
    rw [hnotes note hnote] at hadded
    cases hadded
  cases h with
  | quiet _ hadded _ => exact hnone hadded
  | start _ _ hadded _ => exact hnone hadded
  | initiation _ | response _ | close _ _ _ | read _ _ _ | remove _ => exact hnone (by simp)
  | retry _ | refuse _ => exact hnone (added?_map_effect _)
  | answer k _ =>
      refine hnone fun note hnote => ?_
      rcases List.mem_append.mp hnote with hnote | hnote
      · exact added?_map_effect _ note hnote
      · rw [List.mem_singleton.mp hnote]
        rfl
  | claim _ _ _ => exact hnone (by simp [Note.added?])
  | add env o r host pending =>
      intro note hnote o' host' hadded
      rw [List.mem_singleton.mp hnote] at hadded
      obtain ⟨rfl, rfl⟩ := Prod.mk.inj (Option.some.inj hadded)
      exact ⟨c.has_add host, hgenuine⟩

/-- **What a step of a node does keeps what holds of it**, and what it sends is as it should be. -/
theorem Partner.advance (hbinds : P.BindsKeys) (hcodecs : P.Codecs)
    (hparse : Certificate.parseDER P peer.raw = .ok peer) (h : Partner own peer D other)
    (hn : D.tasks[n]? = some t)
    (hfresh : ∀ idx, t.draws = some idx → D.shared.tables.Free D.tasks idx) :
    Partner own peer (D.after n t) other ∧
      ∀ data, Wrote (effects (Task.step D.shared t).2.1) data →
        Sent own peer (D.after n t) data := by
  have hmem := List.mem_of_getElem? hn
  have hstep := Task.stepProceeds D.shared t
  have hgenuine := h.tasks t hmem
  refine ⟨⟨h.apart.step hn hfresh hstep, hstep.grows.2.trans h.localCert,
    hstep.started h.localCert h.started, ?_, ?_⟩, ?_⟩
  · intro u hu
    rcases List.mem_or_eq_of_mem_set hu with hold | rfl
    · exact (h.tasks u hold).mono (h.apart.known u hold) hstep.grows.1 fun _ hg => hg
    · exact hstep.genuine hbinds hcodecs hparse h.apart h.started hgenuine
  · intro note hnote o host hadded
    rcases List.mem_append.mp hnote with hold | hnew
    · obtain ⟨hhas, hmirrors⟩ := h.added note hold o host hadded
      exact ⟨hhas.mono (h.retains hn), hmirrors⟩
    · exact hstep.added hgenuine note hnew o host hadded
  · intro data hw
    refine hstep.sent hcodecs hparse h.localCert h.started hgenuine ?_ hw
    exact List.mem_set (List.getElem?_eq_some_iff.mp hn).1 _

/-- A call is started, on a datagram the other node has sent or on none. -/
theorem Partner.call (h : Partner own peer D other) (e : Env P × Interface.Event)
    (hflight : ∀ pkt src, e.2 = .outside pkt src → Sent peer own other pkt) :
    Partner own peer { D with tasks := D.tasks ++ [Task.of e] } other := by
  obtain ⟨hindex, hknown, hgenuine⟩ : (Task.of e).index D.shared.tables.handshakeMgr = none ∧
      (Task.of e).Known D.shared.tables.handshakeMgr ∧
      (Task.of e).Genuine own peer D.shared.tables.handshakeMgr other := by
    obtain ⟨env, event⟩ := e
    cases event with
    | outside pkt src => exact ⟨rfl, trivial, hflight pkt src rfl⟩
    | _ => exact ⟨rfl, trivial, trivial⟩
  refine ⟨h.apart.call hknown hindex, h.localCert, h.started, ?_, h.added⟩
  intro t ht
  rcases List.mem_append.mp ht with hold | hnew
  · exact h.tasks t hold
  · rw [List.mem_singleton.mp hnew]
    exact hgenuine

end Steps

/-! ### The network

A turn of either node keeps what is known of both, and so do loss, delay, reordering and copies. -/

namespace Daemon

/-- The step draws no index that is in use at the node. -/
def DrawsFresh (D : Daemon P) (n : Nat) : Prop :=
  ∀ idx, (D.tasks[n]?).bind Task.draws = some idx → D.shared.tables.Free D.tasks idx

instance (c : Tables P) (tasks : List (Task P)) (idx : UInt32) : Decidable (c.Free tasks idx) :=
  inferInstanceAs (Decidable (_ ∧ _ ∧ ∀ t ∈ tasks, t.index c.handshakeMgr ≠ some idx))

instance (D : Daemon P) (n : Nat) : Decidable (D.DrawsFresh n) :=
  match hidx : (D.tasks[n]?).bind Task.draws with
  | none => .isTrue fun _ h => nomatch hidx.symm.trans h
  | some idx => decidable_of_iff (D.shared.tables.Free D.tasks idx)
      ⟨fun h _ heq => Option.some.inj (hidx.symm.trans heq) ▸ h, fun h => h idx hidx⟩

end Daemon

namespace Daemons

/-- An index that a node draws is in use neither for a session of that node, nor for a pending
handshake, nor by a call that has either in hand. -/
def FreshDraw (N : Daemons P) : DaemonsAction P → Prop
  | .act s (.advance n) => (N.node s).DrawsFresh n
  | _ => True

instance (N : Daemons P) : DecidablePred N.FreshDraw
  | .act s (.advance n) => inferInstanceAs (Decidable ((N.node s).DrawsFresh n))
  | .act _ (.call _) => .isTrue trivial
  | .deliver _ _ _ => .isTrue trivial
  | .lose _ _ => .isTrue trivial
  | .duplicate _ _ => .isTrue trivial

section Invariant

variable {cert : Side → Certificate} {addr : Side → UDPAddr} {N : Daemons P}
  {a : DaemonsAction P}

variable (cert) in
/-- The invariant holds of both nodes. -/
def Partners (node : Side → Daemon P) : Prop :=
  ∀ s, Partner (cert s) (cert s.other) (node s) (node s.other)

variable (cert) in
/-- What is in flight to `s` was sent by the other node. -/
def Flight (node : Side → Daemon P) (s : Side) (data : Bytes) : Prop :=
  Sent (cert s.other) (cert s) (node s.other) data

/-- A node has gone on to `D`, which keeps what holds of it, and has sent what it should. -/
theorem keeps_of {node : Side → Daemon P} (h : Partners cert node) {s : Side} {D : Daemon P}
    {sent : List Bytes} (hpartner : Partner (cert s) (cert s.other) D (node s.other))
    (hup : (node s).Upholds D) (hsent : ∀ data ∈ sent, Sent (cert s) (cert s.other) D data) :
    Net.Keeps (Partners cert) (Flight cert) node s (D, sent) := by
  refine ⟨?_, ?_, ?_⟩
  · intro t
    by_cases ht : t = s
    · subst ht
      rw [Function.update_self, Function.update_of_ne t.other_ne]
      exact hpartner
    · obtain rfl := Side.eq_other_of_ne ht
      rw [Function.update_of_ne ht, Side.other_other, Function.update_self]
      have hother := h s.other
      rw [Side.other_other] at hother
      exact hother.mono hup
  · intro t data hdata
    unfold Flight at hdata ⊢
    by_cases ht : t.other = s
    · subst ht
      rw [Function.update_self]
      exact hdata.mono hup
    · rw [Function.update_of_ne ht]
      exact hdata
  · intro data hdata
    unfold Flight
    rw [Side.other_other, Function.update_self]
    exact hsent data hdata

/-- A turn that only starts a call or lets none take a step sends nothing. -/
theorem takeTurn_of_log {D : Daemon P} {e : Turn (Env P × Interface.Event)} (dest : UDPAddr)
    (h : ((Daemon.program P).turn D e).1.log = D.log) :
    D.takeTurn dest e = (((Daemon.program P).turn D e).1, []) := by
  unfold Daemon.takeTurn
  simp only [h, List.drop_length]
  rfl

theorem takeTurn_advance {D : Daemon P} {n : Nat} {t : Task P} (dest : UDPAddr)
    (hn : D.tasks[n]? = some t) : D.takeTurn dest (.advance n)
      = (D.after n t, sentTo dest (effects (Task.step D.shared t).2.1)) := by
  have hturn : ((Daemon.program P).turn D (.advance n)).1 = D.after n t := Program.turn_advance hn
  unfold Daemon.takeTurn
  simp only [hturn, Daemon.after, List.drop_left]

theorem takeTurn_advance_none {D : Daemon P} {n : Nat} (dest : UDPAddr)
    (hn : D.tasks[n]? = none) : D.takeTurn dest (.advance n) = (D, []) := by
  have hturn : ((Daemon.program P).turn D (.advance n)).1 = D := Program.turn_advance_none hn
  rw [takeTurn_of_log dest (congrArg _ hturn), hturn]

/-- **Whatever turn a node takes, the invariant is kept.** -/
theorem takeTurn_keeps (hbinds : P.BindsKeys) (hcodecs : P.Codecs)
    (hparse : ∀ s, Certificate.parseDER P (cert s).raw = .ok (cert s))
    {node : Side → Daemon P} (h : Partners cert node) (s : Side)
    (e : Turn (Env P × Interface.Event))
    (hfresh : ∀ n, e = .advance n → (node s).DrawsFresh n)
    (hflight : ∀ env pkt src, e = .call (env, .outside pkt src) → Flight cert node s pkt)
    (dest : UDPAddr) :
    Net.Keeps (Partners cert) (Flight cert) node s ((node s).takeTurn dest e) := by
  cases e with
  | call e =>
      rw [takeTurn_of_log dest rfl]
      refine keeps_of h ((h s).call e fun pkt src hevent => ?_) ?_ fun _ hdata => nomatch hdata
      · exact hflight e.1 pkt src (by rw [← hevent])
      · rintro g (hhas | ⟨env, k, pending, hadd⟩)
        · exact .inl hhas
        · exact .inr ⟨env, k, pending, List.mem_append_left _ hadd⟩
  | advance n =>
      cases hn : (node s).tasks[n]? with
      | none =>
          rw [takeTurn_advance_none dest hn]
          exact keeps_of h (h s) (fun _ hg => hg) fun _ hdata => nomatch hdata
      | some t =>
          rw [takeTurn_advance dest hn]
          obtain ⟨hpartner, hsent⟩ := (h s).advance hbinds hcodecs (hparse s.other) hn
            fun idx hidx => hfresh n rfl idx (by rw [hn]; exact hidx)
          exact keeps_of h hpartner ((h s).upholds hn) fun data hdata =>
            hsent data (wrote_of_mem_sentTo hdata)

theorem turn_ne_outside (i : Turn (Env P × Tick)) (env : Env P) (pkt : Bytes) (src : UDPAddr) :
    Tick.turn i ≠ .call (env, .outside pkt src) := by
  cases i with
  | advance n => exact fun h => nomatch h
  | call i =>
      intro h
      obtain ⟨-, hevent⟩ := Prod.mk.inj (Turn.call.inj h)
      exact Network.event_ne_outside i.2 pkt src hevent

theorem drawsFresh_of_turn {i : Turn (Env P × Tick)} {s : Side} {n : Nat}
    (hfresh : N.FreshDraw (.act s i)) (h : Tick.turn i = .advance n) :
    (N.node s).DrawsFresh n := by
  cases i with
  | call i => cases h
  | advance m =>
      obtain rfl := Turn.advance.inj h
      exact hfresh

theorem step_holds_partners (hbinds : P.BindsKeys) (hcodecs : P.Codecs)
    (hparse : ∀ s, Certificate.parseDER P (cert s).raw = .ok (cert s))
    (h : Net.Holds (Partners cert) (Flight cert) N) (hfresh : N.FreshDraw a) :
    Net.Holds (Partners cert) (Flight cert) (step addr N a).1 := by
  refine h.step ?_ ?_
  · rintro s i rfl
    refine takeTurn_keeps hbinds hcodecs hparse h.nodes s (Tick.turn i) ?_ ?_ _
    · exact fun n hturn => drawsFresh_of_turn hfresh hturn
    · exact fun env pkt src hturn => absurd hturn (turn_ne_outside i env pkt src)
  · rintro s env n data rfl hdata hflight
    refine takeTurn_keeps hbinds hcodecs hparse h.nodes s (.call (env, .outside data _)) ?_ ?_ _
    · exact fun m hturn => nomatch hturn
    · intro env' pkt src hturn
      obtain ⟨-, hevent⟩ := Prod.mk.inj (Turn.call.inj hturn)
      obtain ⟨rfl, -⟩ := Interface.Event.outside.inj hevent
      exact hflight

theorem takeTurn_retains {node : Side → Daemon P} (h : Partners cert node) (s : Side)
    (e : Turn (Env P × Interface.Event)) (dest : UDPAddr) :
    (node s).shared.tables.Retains ((node s).takeTurn dest e).1.shared.tables := by
  cases e with
  | call e => exact fun _ _ _ hget => hget
  | advance n =>
      cases hn : (node s).tasks[n]? with
      | none =>
          rw [takeTurn_advance_none dest hn]
          exact fun _ _ _ hget => hget
      | some t =>
          rw [takeTurn_advance dest hn]
          exact (h s).retains hn

/-- No action takes a session away. -/
theorem step_retains (h : Net.Holds (Partners cert) (Flight cert) N) (a : DaemonsAction P)
    (t : Side) :
    (N.node t).shared.tables.Retains ((step addr N a).1.node t).shared.tables := by
  rcases Net.step_node (daemonParty P addr) N a t with hsame | ⟨i, rfl, hact⟩ |
    ⟨env, n, data, rfl, -, hreceive⟩
  · rw [step, hsame]
    exact fun _ _ _ hget => hget
  · rw [step, hact]
    exact takeTurn_retains h.nodes t _ _
  · rw [step, hreceive]
    exact takeTurn_retains h.nodes t _ _

end Invariant

theorem start_holds_partners (x : Side → Network.Setup) (peers : Side → List Certificate) :
    Net.Holds (Partners fun s => (x s).cert) (Flight fun s => (x s).cert)
      (start (P := P) x peers) := by
  refine ⟨fun s => ?_, fun s data hmem => nomatch hmem⟩
  have hmgr : ((x s).node P (peers s)).handshakeMgr.core = ((x s).manager P).core :=
    congrArg HandshakeManager.core (Interface.new_handshakeMgr ..)
  have htables : ((start (P := P) x peers).node s).shared.tables
      = ⟨((x s).node P (peers s)).hostmap.core, ((x s).manager P).core⟩ := by
    rw [← hmgr]
    rfl
  refine ⟨⟨?_, ?_, ?_, ?_⟩, ?_, ?_, ?_, ?_⟩
  · rw [htables]
    exact fun _ _ hidx => nomatch hidx
  · exact fun t ht => nomatch ht
  · exact fun t ht => nomatch ht
  · exact fun n n' t t' idx ht => nomatch ht
  · rw [htables]
    rfl
  · rw [htables]
    exact fun ph hph => nomatch hph
  · exact fun t ht => nomatch ht
  · exact fun note hnote => nomatch hnote

/-! ### Sessions of the initiator

What the invariant says about the sessions in the log, in terms of the tables as they are. -/

/-- The VPN IP of a node. -/
def ip (N : Daemons P) (s : Side) : Addr :=
  (N.node s).shared.node.handshakeMgr.localCert.vpnIP.addr

/-- The other node has the counterpart of the session `h` of node `s`: under the index `h` sends to,
with the index of `h`, made for `s`, with the same keys crossed. -/
def Matched (N : Daemons P) (s : Side) (h : HostInfo) : Prop :=
  ∃ r h', (N.hostmap s.other).getByIndex h.remoteIndex = some (r, h') ∧ h.Mirrors (N.ip s) h'

/-- The `n`-th call of the other node is `HandleStage0`, after it has written the response and
before it adds the counterpart of `h` to the table. -/
def Answered (N : Daemons P) (s : Side) (h : HostInfo) (n : Nat) : Prop :=
  ∃ env k h' pending, (N.node s.other).tasks[n]? = some (.add env (.responder k) h' pending) ∧
    h.Mirrors (N.ip s) h'

theorem matched_iff {N : Daemons P} {s : Side} {h : HostInfo} :
    N.Matched s h ↔ ∃ g, (N.node s.other).shared.tables.Has g ∧ h.Mirrors (N.ip s) g := by
  constructor
  · rintro ⟨r, g, hget, hmirrors⟩
    refine ⟨g, ⟨r, ?_⟩, hmirrors⟩
    have hcore : (N.hostmap s.other).core.getByIndex g.index = some (r, g.core) := by
      rw [HostMap.getByIndex_core, hmirrors.1, hget]
      rfl
    exact hcore
  · rintro ⟨g, ⟨r, hget⟩, hmirrors⟩
    obtain ⟨g', hget', hcore⟩ := HostMap.exists_of_core hget
    exact ⟨r, g', hmirrors.1 ▸ hget', hmirrors.of_core hcore⟩

section Initiator

variable {cert : Side → Certificate} {addr : Side → UDPAddr} {N : Daemons P} {s : Side}
  {h : HostInfo}

theorem ip_eq (hN : Net.Holds (Partners cert) (Flight cert) N) (s : Side) :
    N.ip s = (cert s).vpnIP.addr :=
  congrArg (fun c => c.vpnIP.addr) (hN.nodes s).localCert

theorem run_cons (N : Daemons P) (a : DaemonsAction P) (as : List (DaemonsAction P)) :
    (run addr N (a :: as)).1 = (run addr (step addr N a).1 as).1 := rfl

theorem run_concat (N : Daemons P) (as : List (DaemonsAction P)) (a : DaemonsAction P) :
    (run addr N (as ++ [a])).1 = (step addr (run addr N as).1 a).1 := by
  unfold run
  rw [Trace.run_append]
  rfl

/-- What the other node does is not seen at this one. -/
theorem step_other_node (N : Daemons P) (s : Side) (i : Turn (Env P × Tick)) :
    (step addr N (.act s.other i)).1.node s = N.node s :=
  Function.update_of_ne s.other_ne.symm ..

/-- The next step of the call that wrote the response. -/
theorem matched_of_answered {n : Nat} (h' : N.Answered s h n) :
    (step addr N (.act s.other (.advance n))).1.Matched s h := by
  obtain ⟨env, k, g, pending, hn, hmirrors⟩ := h'
  refine matched_iff.mpr ⟨g, ?_, ?_⟩
  · have hnode : ((step addr N (.act s.other (.advance n))).1.node s.other)
        = (N.node s.other).after n (.add env (.responder k) g pending) := by
      refine (Function.update_self ..).trans ?_
      exact congrArg Prod.fst (takeTurn_advance _ hn)
    rw [hnode]
    exact Daemon.has_after_add ..
  · unfold ip
    rw [step_other_node]
    exact hmirrors

/-- What is matched stays matched. -/
theorem run_matched (hbinds : P.BindsKeys) (hcodecs : P.Codecs)
    (hparse : ∀ s, Certificate.parseDER P (cert s).raw = .ok (cert s))
    (hN : Net.Holds (Partners cert) (Flight cert) N) (hmatched : N.Matched s h)
    (as : List (DaemonsAction P)) (hmeets : Trace.Meets (step addr) FreshDraw N as) :
    (run addr N as).1.Matched s h := by
  refine (Trace.run_invariant_of_meets
    (fun N : Daemons P => Net.Holds (Partners cert) (Flight cert) N ∧ N.Matched s h) ?_ as N
    ⟨hN, hmatched⟩ hmeets).2
  rintro N a ⟨hN, hmatched⟩ hfresh
  have hN' : Net.Holds (Partners cert) (Flight cert) (step addr N a).1 :=
    step_holds_partners hbinds hcodecs hparse hN hfresh
  obtain ⟨g, hhas, hmirrors⟩ := matched_iff.mp hmatched
  refine ⟨hN', matched_iff.mpr ⟨g, hhas.mono (step_retains hN a s.other), ?_⟩⟩
  rw [ip_eq hN', ← ip_eq hN]
  exact hmirrors

end Initiator

/-- **Initiator sessions are matched.**  Both nodes may initiate, to each other and to anyone, any
number of times, their calls interleave in any way, and the network may lose, delay, reorder and
copy what they send.  If no node draws an index that it has in use, then every session that a node
has added as the initiator is found under its index in every state reached afterwards.  Either it is
matched at the other node, or the call there that wrote the response has not come to its `Add` yet;
that step, whenever it is taken, makes it matched, and what is matched stays so. -/
theorem initiator_sessions_matched (hbinds : P.BindsKeys) (hcodecs : P.Codecs)
    (x : Side → Network.Setup)
    (hparse : ∀ s, Certificate.parseDER P (x s).cert.raw = .ok (x s).cert)
    (peers : Side → List Certificate) (addr : Side → UDPAddr) (as : List (DaemonsAction P))
    (s : Side) (o r : Ref) (h : HostInfo) (pending : List Bytes) :
    let N := (run addr (start x peers) as).1
    Trace.Meets (step addr) FreshDraw (start x peers) as →
    .added (.initiator o) r h pending ∈ (N.node s).log →
    (∃ r' g, (N.hostmap s).getByIndex h.index = some (r', g) ∧ g.core = h.core) ∧
      (N.Matched s h ∨ ∃ n, N.Answered s h n) ∧
      (∀ n, N.Answered s h n → (step addr N (.act s.other (.advance n))).1.Matched s h) ∧
      (N.Matched s h → ∀ bs, Trace.Meets (step addr) FreshDraw N bs →
        (run addr N bs).1.Matched s h) := by
  intro N hmeets hadded
  have hN : Net.Holds (Partners fun s => (x s).cert) (Flight fun s => (x s).cert) N :=
    Trace.run_invariant_of_meets _
      (fun _ _ h hfresh => step_holds_partners hbinds hcodecs hparse h hfresh) as _
      (start_holds_partners x peers) hmeets
  obtain ⟨⟨r', hget⟩, g, hoffers, hmirrors⟩ := (hN.nodes s).added _ hadded o h rfl
  rw [← ip_eq hN s] at hmirrors
  refine ⟨?_, ?_, fun n => matched_of_answered, ?_⟩
  · obtain ⟨g', hget', hcore⟩ := HostMap.exists_of_core hget
    exact ⟨r', g', hget', hcore⟩
  · rcases hoffers with hhas | ⟨env, k, pending', hadd⟩
    · exact .inl (matched_iff.mpr ⟨g, hhas, hmirrors⟩)
    · obtain ⟨n, hn⟩ := List.mem_iff_getElem?.mp hadd
      exact .inr ⟨n, env, k, g, pending', hn, hmirrors⟩
  · exact fun hmatched bs hbs => run_matched hbinds hcodecs hparse hN hmatched bs hbs

section Concrete

open Symbolic

/-- Nodes 1 and 2, each of which knows where the other is. -/
def crossing : Side → Network.Setup
  | .left => Network.setup1
  | .right => { Network.setup2 with
      lighthouse := (LightHouse.new false [] []).addStaticEntry (nodeIP 1) (nodeAddr 1) }

/-- Each knows the certificate of the other. -/
def crossingPeers : Side → List Certificate
  | .left => [Network.setup2.cert]
  | .right => [Network.setup1.cert]

/-- The `n`-th call of a node takes `k` steps. -/
def steps (s : Side) (n k : Nat) : List (DaemonsAction platform) :=
  List.replicate k (.act s (.advance n))

/-- Both nodes start a handshake.  Node 2 answers the initiation of node 1 and has written the
response, but not yet added the session, while node 1 answers the other initiation, gets the
response and adds its second session with node 2. -/
def bothCall : List (DaemonsAction platform) :=
  [.act .left (.call (calmEnv 7 [9], .inside (tcpPacket 1 2 40000 22)))] ++ steps .left 0 6 ++
    [.act .right (.call (calmEnv 17 [3], .inside (tcpPacket 2 1 40000 22)))] ++ steps .right 0 6 ++
    [.deliver .right (calmEnv 8 [5]) 0] ++ steps .right 1 2 ++
    [.deliver .left (calmEnv 18 [6]) 0] ++ steps .left 1 5 ++
    [.deliver .left (calmEnv 0 []) 0] ++ steps .left 2 4

/-- The state the two nodes are in then. -/
def bothCalled : Daemons platform :=
  (run Network.addr12 (start crossing crossingPeers) bothCall).1

/-- Node 2 adds the session. -/
def adding : DaemonsAction platform := .act .right (.advance 1)

/-- Node 2 gets its own response and adds that session too. -/
def afterwards : List (DaemonsAction platform) :=
  .deliver .right (calmEnv 1 []) 0 :: steps .right 2 4

theorem freshDraw_bothCall : Trace.Meets (step Network.addr12) FreshDraw
    (start crossing crossingPeers) (bothCall ++ adding :: afterwards) := by
  decide +kernel

/-- Node 1 has added a session as the initiator, and nothing is under its index at node 2. -/
theorem exists_added_bothCalled : ∃ r h pending,
    .added (.initiator 0) r h pending ∈ (bothCalled.node .left).log ∧
      (bothCalled.hostmap .right).getByIndex h.remoteIndex = none := by
  have hcomputed : ((bothCalled.node .left).log.filterMap Note.added?).map
      (fun a => (a.1, a.2.index, a.2.remoteIndex))
      = [(.responder 0, 18, 17), (.initiator 0, 7, 8)] := by
    decide +kernel
  have hmem : (Origin.initiator 0, (7 : UInt32), (8 : UInt32)) ∈
      ((bothCalled.node .left).log.filterMap Note.added?).map
        (fun a => (a.1, a.2.index, a.2.remoteIndex)) := by
    rw [hcomputed]
    decide
  obtain ⟨⟨o, h⟩, hadded, heq⟩ := List.mem_map.mp hmem
  obtain ⟨note, hnote, hsome⟩ := List.mem_filterMap.mp hadded
  obtain ⟨rfl, -, hremote⟩ : o = .initiator 0 ∧ h.index = 7 ∧ h.remoteIndex = 8 := by
    simpa using heq
  obtain ⟨r, pending, rfl⟩ := Note.eq_of_added? hsome
  refine ⟨r, h, pending, hnote, ?_⟩
  rw [hremote]
  decide +kernel

/-- **The session need not be there when the initiator is done**: node 1 has its session, and node 2
would drop a packet it sends through it. -/
theorem initiator_session_not_yet_matched :
    Trace.Meets (step Network.addr12) FreshDraw (start crossing crossingPeers) bothCall ∧
      ∃ r h pending, .added (.initiator 0) r h pending ∈ (bothCalled.node .left).log ∧
        (bothCalled.hostmap .right).getByIndex h.remoteIndex = none :=
  ⟨(Trace.meets_append.mp freshDraw_bothCall).1, exists_added_bothCalled⟩

theorem initiator_sessions_matched_crossing :
    Trace.Meets (step Network.addr12) FreshDraw (start crossing crossingPeers)
        (bothCall ++ adding :: afterwards) ∧
      ∃ r h pending, .added (.initiator 0) r h pending ∈ (bothCalled.node .left).log ∧
        ¬ bothCalled.Matched .left h ∧ bothCalled.Answered .left h 1 ∧
        (run Network.addr12 bothCalled (adding :: afterwards)).1.Matched .left h := by
  obtain ⟨r, h, pending, hadded, hnone⟩ := exists_added_bothCalled
  obtain ⟨hbefore, hstep, hafter⟩ := Trace.meets_append.mp freshDraw_bothCall
  have hcerts : ∀ s,
      Certificate.parseDER platform (crossing s).cert.raw = .ok (crossing s).cert := by
    intro s
    cases s with
    | left => exact parseDER_issue ..
    | right => exact parseDER_issue ..
  have hunmatched : ¬ bothCalled.Matched .left h := by
    rintro ⟨r', h', hget, -⟩
    exact absurd (hnone.symm.trans hget) (by simp)
  -- before the step of node 2
  obtain ⟨-, hor, hadds, -⟩ := initiator_sessions_matched bindsKeys codecs crossing hcerts
    crossingPeers Network.addr12 bothCall .left 0 r h pending hbefore hadded
  obtain ⟨n, hanswered⟩ := hor.resolve_left hunmatched
  obtain rfl : n = 1 := by
    obtain ⟨env, k, h', pending', hn, -⟩ := hanswered
    have hindexes : (bothCalled.node .right).tasks.map
        (Task.index (bothCalled.node .right).shared.node.handshakeMgr) = [none, some 8] := by
      decide +kernel
    have hthis : [none, some (8 : UInt32)][n]? = some (some h'.index) := by
      rw [← hindexes, List.getElem?_map]
      exact congrArg (Option.map _) hn
    clear hn hindexes
    rcases n with - | - | n
    · cases hthis
    · rfl
    · cases hthis
  -- after it
  have hmeets : Trace.Meets (step Network.addr12) FreshDraw (start crossing crossingPeers)
      (bothCall ++ [adding]) := Trace.meets_append.mpr ⟨hbefore, hstep, trivial⟩
  have hrun : (run Network.addr12 (start crossing crossingPeers) (bothCall ++ [adding])).1
      = (step Network.addr12 bothCalled adding).1 := run_concat ..
  have hnode : (step Network.addr12 bothCalled adding).1.node .left = bothCalled.node .left :=
    step_other_node bothCalled .left (.advance 1)
  generalize bothCall ++ [adding] = added at hmeets hrun
  obtain ⟨-, -, -, hstays⟩ := initiator_sessions_matched bindsKeys codecs crossing hcerts
    crossingPeers Network.addr12 added .left 0 r h pending hmeets
    (by rw [hrun, hnode]; exact hadded)
  rw [hrun] at hstays
  refine ⟨freshDraw_bothCall, r, h, pending, hadded, hunmatched, hanswered, ?_⟩
  rw [run_cons]
  exact hstays (hadds 1 hanswered) afterwards hafter

end Concrete

end Daemons

end Neth
