/-
What became of the packets that were queued for a handshake.

`QueuePacket` appends to the queue of the handshake that is pending for a VPN IP and
drops the oldest packet when there are fifty; nothing else touches a queue.  So the
queues of all handshakes are followed as one list, with an equation for each call, and
the queue of one handshake is always the last fifty of the packets queued for its peer
since it was started.  That goes on until the handshake is taken out of both maps, after
which it is never entered again: a response that still finds it has all of them.
-/
import Neth.Proofs.Retry
import Neth.Proofs.RoundTrip

namespace Neth

variable {P : Platform}

/-- Whom a handshake is with, and the packets that wait for it. -/
def PendingHandshake.held (ph : PendingHandshake P) : Addr × List Bytes :=
  (ph.remoteVpnIP, ph.pendingPackets)

namespace HandshakeManager

/-- The queues of all handshakes there ever were. -/
def queues (m : HandshakeManager P) : List (Addr × List Bytes) :=
  m.handshakes.map PendingHandshake.held

/-- A queue after one more packet. -/
def pushed (queue : List Bytes) (pkt : Bytes) : List Bytes :=
  (if queue.length ≥ maxPendingPackets then queue.drop 1 else queue) ++ [pkt]

theorem length_pushed {queue : List Bytes} (h : queue.length ≤ maxPendingPackets) (pkt : Bytes) :
    (pushed queue pkt).length ≤ maxPendingPackets := by
  have hpos : 0 < maxPendingPackets := by decide
  unfold pushed
  split
  · rw [List.length_append, List.length_drop, List.length_singleton]
    omega
  · rw [List.length_append, List.length_singleton]
    omega

/-- What a call adds to the queue for `v`. -/
def Call.queuedFor (v : Addr) : Call P → List Bytes
  | .queuePacket v' pkt => if v' = v then [pkt] else []
  | _ => []

/-- The packets that were queued for `v`, oldest first. -/
def queuedFor (v : Addr) (cs : List (Call P)) : List Bytes := cs.flatMap (Call.queuedFor v)

variable {m : HandshakeManager P} {v : Addr} {r : Ref} {ph : PendingHandshake P} {pkt : Bytes}

/-! ### The queues after a call -/

theorem getElem?_queues (m : HandshakeManager P) (r : Ref) :
    m.queues[r]? = m.handshakes[r]?.map PendingHandshake.held :=
  List.getElem?_map

theorem queues_set (hr : m.handshakes[r]? = some ph) {ph' : PendingHandshake P}
    (hheld : ph'.held = ph.held) :
    ({ m with handshakes := m.handshakes.set r ph' } : HandshakeManager P).queues = m.queues := by
  refine List.ext_getElem? fun r' => ?_
  have hlt : r < m.handshakes.length := (List.getElem?_eq_some_iff.mp hr).1
  simp only [getElem?_queues, List.getElem?_set]
  by_cases heq : r = r'
  · rw [if_pos heq, if_pos hlt, ← heq, hr]
    exact congrArg some hheld
  · rw [if_neg heq]

theorem queues_retryOne (env : Env P) (m : HandshakeManager P) (v : Addr) :
    (m.retryOne env v).1.queues = m.queues := by
  unfold retryOne
  cases m.pending v with
  | none => rfl
  | some r =>
      cases hr : m.handshakes[r]? with
      | none => simp only [hr]
      | some ph =>
          simp only [hr]
          split_ifs
          · rfl
          · rfl
          · exact queues_set hr rfl

theorem queues_retryPending (m : HandshakeManager P) (env : Env P) :
    (m.retryPending env).1.queues = m.queues := by
  have hloop : ∀ (order : List Addr) (m : HandshakeManager P),
      (Trace.run (retryStep env) m order).1.queues = m.queues := by
    intro order
    induction order with
    | nil => intro m; rfl
    | cons v order ih =>
        intro m
        exact (ih _).trans (queues_retryOne env m v)
  rw [retryPending_fst]
  exact hloop env.order m

theorem queues_handleStage1 (m : HandshakeManager P) (now : Time) (pkt : Bytes) :
    (m.handleStage1 now pkt).1.queues = m.queues := by
  by_cases hnames : ∃ idx ph, m.Names pkt idx ph
  · obtain ⟨idx, ph, hnames⟩ := hnames
    rw [handleStage1_of_names now hnames]
    rfl
  · obtain ⟨err, hres⟩ := handleStage1_of_not_names now fun idx ph hn => hnames ⟨idx, ph, hn⟩
    rw [hres]

theorem queues_insert (m : HandshakeManager P) (ph : PendingHandshake P) :
    (m.insert ph).queues = m.queues ++ [ph.held] := by
  simp [queues, insert]

/-- `QueuePacket` changes the queue of the handshake pending for its VPN IP. -/
theorem getElem?_queues_queuePacket (m : HandshakeManager P) (v : Addr) (pkt : Bytes) (r : Ref) :
    (m.queuePacket v pkt).queues[r]? = if m.pending v = some r
      then m.queues[r]?.map fun q => (q.1, pushed q.2 pkt) else m.queues[r]? := by
  rw [getElem?_queues, getElem?_queues]
  unfold queuePacket
  cases hpending : m.pending v with
  | none => rfl
  | some r' =>
      simp only [List.getElem?_modify, Option.some.injEq]
      by_cases hr : r' = r
      · simp only [if_pos hr]
        cases m.handshakes[r]? with
        | none => rfl
        | some ph => rfl
      · simp only [if_neg hr]
        cases m.handshakes[r]? with
        | none => rfl
        | some ph => rfl

/-- What a call does to the queues: only `QueuePacket` touches one, and only `StartHandshake` adds
one, with nothing in it. -/
theorem queues_call_cases (m : HandshakeManager P) (c : Call P) :
    (∃ v pkt, c = .queuePacket v pkt) ∨ (∀ v pkt, c ≠ .queuePacket v pkt) ∧
      ((m.call c).queues = m.queues ∨ ∃ v, (m.call c).queues = m.queues ++ [(v, [])]) := by
  cases c with
  | queuePacket v pkt => exact .inl ⟨v, pkt, rfl⟩
  | startHandshake env v addr cert =>
      refine .inr ⟨by simp, ?_⟩
      show (m.startHandshake env v addr cert).1.queues = _ ∨
        ∃ v', (m.startHandshake env v addr cert).1.queues = _
      rcases m.startHandshake_cases env v addr cert with ⟨res, hres⟩ | ⟨ph, res, -, hnew, hres⟩
      · rw [hres]
        exact .inl rfl
      · obtain ⟨idx, hs, w, wire, -, -, -, -, rfl⟩ := newPending_ok.mp hnew
        rw [hres]
        exact .inr ⟨v, queues_insert m _⟩
  | handleStage0 env pkt src => exact .inr ⟨by simp, .inl rfl⟩
  | handleStage1 now pkt => exact .inr ⟨by simp, .inl (queues_handleStage1 m now pkt)⟩
  | retryPending env => exact .inr ⟨by simp, .inl (queues_retryPending m env)⟩

/-- The call appends to the queue of handshake `r`. -/
def Appends (m : HandshakeManager P) (r : Ref) (c : Call P) (pkt : Bytes) : Prop :=
  ∃ v, c = .queuePacket v pkt ∧ m.pending v = some r

/-- The queue of a handshake after a call. -/
theorem getElem?_queues_call (m : HandshakeManager P) (c : Call P) {q : Addr × List Bytes}
    (hr : m.queues[r]? = some q) :
    ((∀ pkt, ¬ m.Appends r c pkt) ∧ (m.call c).queues[r]? = some q) ∨
      ∃ pkt, m.Appends r c pkt ∧ (m.call c).queues[r]? = some (q.1, pushed q.2 pkt) := by
  rcases queues_call_cases m c with ⟨v, pkt, rfl⟩ | ⟨hother, hqueues⟩
  · show _ ∧ (m.queuePacket v pkt).queues[r]? = _ ∨
      ∃ pkt', _ ∧ (m.queuePacket v pkt).queues[r]? = _
    rw [getElem?_queues_queuePacket, hr]
    by_cases hpending : m.pending v = some r
    · refine .inr ⟨pkt, ⟨v, rfl, hpending⟩, ?_⟩
      rw [if_pos hpending]
      rfl
    · refine .inl ⟨?_, if_neg hpending⟩
      rintro pkt' ⟨v', hc, hpending'⟩
      obtain ⟨rfl, -⟩ := Call.queuePacket.inj hc
      exact hpending hpending'
  · refine .inl ⟨fun pkt ⟨v, hc, _⟩ => hother v pkt hc, ?_⟩
    rcases hqueues with hqueues | ⟨v, hqueues⟩
    · rw [hqueues, hr]
    · have hlt : r < m.queues.length := (List.getElem?_eq_some_iff.mp hr).1
      rw [hqueues, List.getElem?_append_left hlt, hr]

/-- A handshake that was not there before has nothing in its queue. -/
theorem queue_eq_nil_of_call (c : Call P) {q : Addr × List Bytes} (hr : m.queues[r]? = none)
    (hr' : (m.call c).queues[r]? = some q) : q.2 = [] := by
  rcases queues_call_cases m c with ⟨v, pkt, rfl⟩ | ⟨-, hqueues | ⟨v, hqueues⟩⟩
  · change (m.queuePacket v pkt).queues[r]? = some q at hr'
    rw [getElem?_queues_queuePacket, hr] at hr'
    split at hr'
    · cases hr'
    · cases hr'
  · rw [hqueues, hr] at hr'
    cases hr'
  · rw [hqueues, List.getElem?_append_right (List.getElem?_eq_none_iff.mp hr),
      List.getElem?_singleton] at hr'
    split at hr'
    · rw [← Option.some.inj hr']
    · cases hr'

/-- No queue is longer than fifty. -/
def Bounded (m : HandshakeManager P) : Prop :=
  ∀ (r : Ref) (q : Addr × List Bytes), m.queues[r]? = some q → q.2.length ≤ maxPendingPackets

theorem Bounded.call (h : m.Bounded) (c : Call P) : (m.call c).Bounded := by
  intro r q' hr'
  cases hr : m.queues[r]? with
  | none =>
      rw [queue_eq_nil_of_call c hr hr']
      exact Nat.zero_le _
  | some q =>
      rcases getElem?_queues_call m c hr with ⟨-, hsame⟩ | ⟨pkt, -, hpushed⟩
      · obtain rfl := Option.some.inj (hsame.symm.trans hr')
        exact h r q hr
      · obtain rfl := Option.some.inj (hpushed.symm.trans hr')
        exact length_pushed (h r q hr) pkt

theorem Bounded.run (cs : List (Call P)) :
    ∀ m : HandshakeManager P, m.Bounded → (m.run cs).Bounded := by
  induction cs with
  | nil => exact fun m h => h
  | cons c cs ih => exact fun m h => ih (m.call c) (h.call c)

theorem bounded_new (localCert : Certificate) (localKey : DHKey) (caPool : List Certificate) :
    (new localCert localKey caPool : HandshakeManager P).Bounded := by
  intro r q hr
  cases hr

/-! ### The queue of one handshake

From the start of a handshake to its end the queue holds the last fifty packets that were queued for
it, in order. -/

/-- A handshake that is not pending for its peer is in neither map. -/
theorem Anchored.gone (hm : m.Anchored) {queue : List Bytes} (hr : m.queues[r]? = some (v, queue))
    (hnot : m.pending v ≠ some r) : m.Gone r := by
  rw [getElem?_queues] at hr
  obtain ⟨ph, hph, heq⟩ := Option.map_eq_some_iff.mp hr
  obtain ⟨rfl, -⟩ := Prod.mk.inj heq
  refine ⟨?_, ?_⟩
  · intro v' hpending
    have hv := hm.key_eq hpending hph
    rw [← hv] at hpending
    exact hnot hpending
  · intro idx hidx
    obtain ⟨ph', hr', -, hpending⟩ := hm.second idx r hidx
    obtain rfl : ph = ph' := Option.some.inj (hph.symm.trans hr')
    exact hnot hpending

theorem queuedFor_eq_nil (hpending : m.pending v = some r) {c : Call P}
    (h : ∀ pkt, ¬ m.Appends r c pkt) : c.queuedFor v = [] := by
  cases c with
  | queuePacket v' pkt =>
      refine if_neg ?_
      rintro rfl
      exact h pkt ⟨v', rfl, hpending⟩
  | startHandshake _ _ _ _ | handleStage0 _ _ _ | handleStage1 _ _ | retryPending _ => rfl

/-- Handshake `r` holds the last of `pkts` for `v`, unless it has been taken out. -/
def Holding (m : HandshakeManager P) (v : Addr) (r : Ref) (pkts : List Bytes) : Prop :=
  (m.Gone r ∧ r < m.handshakes.length) ∨
    (m.pending v = some r ∧ m.queues[r]? = some (v, kept pkts))

theorem Holding.call {pkts : List Bytes} (hm : m.core.Anchored) (h : m.Holding v r pkts)
    (c : Call P) : (m.call c).Holding v r (pkts ++ c.queuedFor v) := by
  rcases h with ⟨hgone, hlt⟩ | ⟨hpending, hr⟩
  · obtain ⟨hgone', hlt', -⟩ := hgone.executes hlt (call_executes m c)
    exact .inl ⟨hgone', hlt'⟩
  · have hr' : (m.call c).queues[r]? = some (v, kept (pkts ++ c.queuedFor v)) := by
      rcases getElem?_queues_call m c hr with
        ⟨hnone, hsame⟩ | ⟨pkt, ⟨v', rfl, hpending'⟩, hpushed⟩
      · rw [hsame, queuedFor_eq_nil hpending hnone, List.append_nil]
      · obtain rfl : v' = v := hm.of_core.pending_inj hpending' hpending
        rw [hpushed, Call.queuedFor, if_pos rfl, ← kept_append]
        rfl
    by_cases hpending' : (m.call c).pending v = some r
    · exact .inr ⟨hpending', hr'⟩
    · have hlt : r < (m.call c).queues.length := (List.getElem?_eq_some_iff.mp hr').1
      refine .inl ⟨(Anchored.executes hm (call_executes m c)).of_core.gone hr' hpending', ?_⟩
      simpa [queues] using hlt

theorem Holding.run (cs : List (Call P)) :
    ∀ (m : HandshakeManager P) (pkts : List Bytes), m.core.Anchored → m.Holding v r pkts →
      (m.run cs).Holding v r (pkts ++ queuedFor v cs) := by
  induction cs with
  | nil =>
      intro m pkts hm h
      rw [queuedFor, List.flatMap_nil, List.append_nil]
      exact h
  | cons c cs ih =>
      intro m pkts hm h
      rw [queuedFor, List.flatMap_cons, ← List.append_assoc]
      exact ih (m.call c) _ (Anchored.executes hm (call_executes m c)) (h.call hm c)

/-- A handshake that has just been started holds nothing. -/
theorem holding_start {env : Env P} {addr : UDPAddr} {cert : Certificate}
    (hidle : m.pending v = none) (hnew : m.newPending env v addr cert = .ok ph) :
    (m.call (.startHandshake env v addr cert)).Holding v m.handshakes.length [] := by
  obtain ⟨idx, hs, w, wire, -, -, -, -, hph⟩ := newPending_ok.mp hnew
  have hstart : m.call (.startHandshake env v addr cert) = m.insert ph := by
    show (m.startHandshake env v addr cert).1 = _
    simp only [startHandshake, hidle, hnew]
  have hheld : ph.held = (v, kept []) := by
    rw [hph]
    rfl
  rw [hstart]
  refine .inr ⟨?_, ?_⟩
  · rw [hph]
    exact Function.update_self v _ _
  · rw [queues_insert, hheld, queues, ← List.length_map (f := PendingHandshake.held),
      List.getElem?_concat_length]

theorem getPending_queuePacket_of_ne (hm : m.Anchored) {v' : Addr} (hne : v' ≠ v) (pkt : Bytes) :
    (m.queuePacket v pkt).getPending v' = m.getPending v' := by
  unfold getPending queuePacket
  cases hpending : m.pending v with
  | none => rfl
  | some r =>
      cases hpending' : m.pending v' with
      | none => rw [Option.bind_none, Option.bind_none]
      | some r' =>
          have hr : r ≠ r' := by
            rintro rfl
            exact hne (hm.pending_inj hpending' hpending)
          simp [List.getElem?_modify, hr]

/-- What a response finds that names a handshake which is still entered. -/
theorem Holding.names {pkts : List Bytes} (hm : m.Anchored) (h : m.Holding v r pkts)
    {hdr : Header} (hparse : Header.parse pkt = .ok hdr)
    (hidx : m.indexMap hdr.remoteIndex = some r) :
    ∃ ph, m.Names pkt hdr.remoteIndex ph ∧ ph.pendingPackets = kept pkts := by
  obtain ⟨ph, hph, -, -⟩ := hm.second hdr.remoteIndex r hidx
  refine ⟨ph, ⟨hdr, hparse, rfl, by rw [getIndex, hidx]; exact hph⟩, ?_⟩
  rcases h with ⟨hgone, -⟩ | ⟨-, hqueue⟩
  · exact absurd hidx (hgone.2 hdr.remoteIndex)
  · rw [getElem?_queues, show m.handshakes[r]? = some ph from hph] at hqueue
    exact congrArg Prod.snd (Option.some.inj hqueue)

/-- The session a response leads to has sent nothing, and its queue is at most fifty long. -/
theorem Bounded.handleStage1 (hm : m.Bounded) {now : Time} {m' : HandshakeManager P}
    {host : HostInfo} {queue : List Bytes}
    (hdone : m.handleStage1 now pkt = (m', .ok (host, queue))) :
    host.counter.toNat + queue.length ≤ maxPendingPackets := by
  obtain ⟨idx, ph, s, ⟨hdr, -, -, hph⟩, -, -, rfl, rfl⟩ := handleStage1_ok.mp hdone
  obtain ⟨r, -, hr⟩ := Option.bind_eq_some_iff.mp hph
  have hlen := hm r ph.held (by rw [getElem?_queues, hr]; rfl)
  show 0 + ph.pendingPackets.length ≤ _
  rw [Nat.zero_add]
  exact hlen

/-- **A completed handshake sends the last fifty packets that were queued for it.**  After any
calls a handshake is started, and after any more of them a response names it.  No queue was ever
longer than fifty and queueing for one peer leaves the handshakes with all others alone.  The queue
that is handed over is the end of what was queued for the peer since the start, and the node seals
and writes just that, in its order, under counters that go up. -/
theorem queued_packets_flushed (localCert : Certificate) (localKey : DHKey)
    (caPool : List Certificate) (before after : List (Call P)) (env : Env P) (v : Addr)
    (addr : UDPAddr) (cert : Certificate) (ph : PendingHandshake P)
    (hidle : (run (new localCert localKey caPool) before).pending v = none)
    (hnew : (run (new localCert localKey caPool) before).newPending env v addr cert = .ok ph) :
    let m₀ := run (new localCert localKey caPool) before
    let m := (m₀.call (.startHandshake env v addr cert)).run after
    (∀ ph ∈ m.handshakes, ph.pendingPackets.length ≤ maxPendingPackets) ∧
      (∀ v' pkt, v' ≠ v → (m.queuePacket v pkt).getPending v' = m.getPending v') ∧
      ∀ now pkt hdr m' host queue, Header.parse pkt = .ok hdr →
        m.indexMap hdr.remoteIndex = some m₀.handshakes.length →
        m.handleStage1 now pkt = (m', .ok (host, queue)) →
        queue = kept (queuedFor v after) ∧
          ∀ (I : Interface P) (env' : Env P),
            (I.onHandshakeComplete env' host queue).2 = (host.flushed P queue).flatMap (fun x =>
              [.encrypted I.hostmap.hosts.length x.1 x.2.1 x.2.2,
                env'.send (x.1 ++ x.2.2) host.remote]) ∧
            (host.flushed P queue).map (·.2.1) = queue ∧
            ((host.flushed P queue).map fun x => counterAt x.1).Pairwise (· < ·) := by
  intro m₀ m
  have hanchored₀ : m₀.core.Anchored := anchored_run localCert localKey caPool before
  have hstarted : (m₀.call (.startHandshake env v addr cert)).core.Anchored :=
    Anchored.executes hanchored₀ (call_executes m₀ _)
  have hanchored : m.core.Anchored := Anchored.executes hstarted (run_executes _ after)
  have hbounded : m.Bounded :=
    Bounded.run after _ ((Bounded.run before _ (bounded_new localCert localKey caPool)).call _)
  have hholding : m.Holding v m₀.handshakes.length (queuedFor v after) :=
    Holding.run after _ [] hstarted (holding_start hidle hnew)
  refine ⟨?_, ?_, ?_⟩
  · intro ph hmem
    obtain ⟨r, hr⟩ := List.mem_iff_getElem?.mp hmem
    exact hbounded r ph.held (by rw [getElem?_queues, hr]; rfl)
  · exact fun v' pkt hne => getPending_queuePacket_of_ne hanchored.of_core hne pkt
  · intro now pkt hdr m' host queue hparse hidx hdone
    obtain ⟨ph, hnames, hqueue⟩ := hholding.names hanchored.of_core hparse hidx
    have hlen := hbounded.handleStage1 hdone
    refine ⟨?_, fun I env' => ⟨?_, HostInfo.flushed_plaintexts queue host, ?_⟩⟩
    · rw [handleStage1_of_names now hnames] at hdone
      cases hread : m.readStage1 now ph pkt with
      | error e =>
          rw [hread] at hdone
          cases (Prod.mk.inj hdone).2
      | ok s =>
          rw [hread] at hdone
          rw [← hqueue]
          exact (Prod.mk.inj (Except.ok.inj (Prod.mk.inj hdone).2)).2.symm
    · exact Interface.sendAll_effects env' I.hostmap.hosts.length queue _ host
        (Interface.hosts_installed I host)
    · refine HostInfo.sorted_flushed queue host ?_
      unfold maxPendingPackets at hlen
      omega

open Symbolic

/-- Fifty-one packets for node 2, one for node 3, and a tick before the first is due again. -/
def fiftyOne : List (Call platform) :=
  .queuePacket (nodeIP 2) [0] :: .queuePacket (nodeIP 3) [99] ::
    .retryPending { calmEnv 0 [] with order := [nodeIP 2] } ::
    (List.range 50).map fun i => .queuePacket (nodeIP 2) [UInt8.ofNat (i + 1)]

/-- How node 1 starts a handshake with node 2. -/
def callNode2 : Call platform :=
  .startHandshake (calmEnv 7 [9]) (nodeIP 2) (nodeAddr 2) (nodeCert 2 [[2]])

/-- What node 2 answers. -/
def answerNode2 : Bytes :=
  let sent := (node 1).handshakeMgr.startHandshake (calmEnv 7 [9]) (nodeIP 2) (nodeAddr 2)
    (nodeCert 2 [[2]])
  firstWritten ((node 2).handshakeMgr.handleStage0 (calmEnv 8 [5]) (firstWritten sent.2.1)
    (nodeAddr 1)).1

theorem queued_packets_flushed_fifty_one :
    ∃ m' host, (((node 1).handshakeMgr.call callNode2).run fiftyOne).handleStage1 0 answerNode2
        = (m', .ok (host, (List.range 50).map fun i => [UInt8.ofNat (i + 1)])) ∧
      ((host.flushed platform ((List.range 50).map fun i => [UInt8.ofNat (i + 1)])).map
        fun x => counterAt x.1).Pairwise (· < ·) := by
  have hqueued : kept (queuedFor (nodeIP 2) fiftyOne)
      = (List.range 50).map fun i => [UInt8.ofNat (i + 1)] := by
    decide +kernel
  have hstarted : ((node 1).handshakeMgr.newPending (calmEnv 7 [9]) (nodeIP 2) (nodeAddr 2)
      (nodeCert 2 [[2]])).isOk := by
    decide +kernel
  have hcompleted : ((((node 1).handshakeMgr.call callNode2).run fiftyOne).handleStage1 0
      answerNode2).2.isOk := by
    decide +kernel
  cases hnew : (node 1).handshakeMgr.newPending (calmEnv 7 [9]) (nodeIP 2) (nodeAddr 2)
      (nodeCert 2 [[2]]) with
  | error e =>
      rw [hnew] at hstarted
      cases hstarted
  | ok ph =>
      rcases hdone : (((node 1).handshakeMgr.call callNode2).run fiftyOne).handleStage1 0
        answerNode2 with ⟨m', res⟩
      rw [hdone] at hcompleted
      cases res with
      | error e => cases hcompleted
      | ok done =>
          obtain ⟨host, queue⟩ := done
          obtain ⟨-, -, hflush⟩ := queued_packets_flushed (nodeCert 1 [[1]]) (nodeKey 1) [caCert] []
            fiftyOne (calmEnv 7 [9]) (nodeIP 2) (nodeAddr 2) (nodeCert 2 [[2]]) ph rfl hnew
          obtain ⟨hqueue, hsent⟩ := hflush 0 answerNode2
            ⟨headerVersion, typeHandshake, handshakeResponse, 7, 0⟩ m' host queue
            (by decide +kernel) (by decide +kernel) hdone
          obtain rfl : queue = (List.range 50).map fun i => [UInt8.ofNat (i + 1)] :=
            hqueue.trans hqueued
          exact ⟨m', host, rfl, (hsent (node 1) (calmEnv 0 [])).2.2⟩

end HandshakeManager

end Neth
