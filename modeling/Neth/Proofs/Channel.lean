/-
Which packets of the peer come through.

The replay window of a session is asked about every datagram that is addressed to it, before
the datagram is decrypted.  So what becomes of a genuine packet depends on the counters that
arrived before it, of genuine packets and of others alike, and on nothing else: not on which
of them the window took, and not on what the other goroutines do.  The packet comes through
unless its counter has arrived before or one that lies 4096 or more above it has.
-/
import Neth.Proofs.EndToEnd

namespace Neth

open Interleave

variable {P : Platform}

/-! ### The window remembers what it was asked

The window is asked once for every packet that reaches it, genuine or not.  What it has been asked
settles what it answers next. -/

theorem ReplayWindow.tracks_insert {h : ReplayWindow} {asked : Set Nat} (ht : h.Tracks asked)
    (c : UInt64) : (h.checkReplay c).1.Tracks (insert c.toNat asked) := by
  intro x
  by_cases hs : h.Stale c
  · rw [checkReplay_of_stale hs, ht x,
      SlidingWindow.rejects_insert_of_rejects (fun a => Nat.le_add_right a _) ((ht c).mp hs)]
  · rw [stale_checkReplay hs, SlidingWindow.rejects_insert, ht x, UInt64.toNat_inj]

namespace Task

/-- The session whose replay window the step asks, and the counter it asks about. -/
def query (_ : Shared P) : Task P → List (Ref × UInt64)
  | .checkReplay _ _ hdr r => [(r, hdr.messageCounter)]
  | _ => []

/-- A session is asked after it was added, and it is added with an empty window. -/
def Watched (s : Shared P) : Task P → Prop
  | .checkReplay _ pkt hdr r => s.node.hostmap.hosts[r]? ≠ none ∧ Header.parse pkt = .ok hdr
  | .add _ _ h _ => h.toReplayWindow = .fresh
  | _ => True

end Task

/-- The counters that a session was asked about. -/
def askedOf (r : Ref) (history : List (Ref × UInt64)) : Set Nat :=
  {n | ∃ c, (r, c) ∈ history ∧ c.toNat = n}

theorem askedOf_append (r : Ref) (history history' : List (Ref × UInt64)) :
    askedOf r (history ++ history') = askedOf r history ∪ askedOf r history' := by
  ext n
  constructor
  · rintro ⟨c, hc, hn⟩
    rcases List.mem_append.mp hc with hc | hc
    · exact .inl ⟨c, hc, hn⟩
    · exact .inr ⟨c, hc, hn⟩
  · rintro (⟨c, hc, hn⟩ | ⟨c, hc, hn⟩)
    · exact ⟨c, List.mem_append_left _ hc, hn⟩
    · exact ⟨c, List.mem_append_right _ hc, hn⟩

theorem askedOf_nil (r : Ref) : askedOf r [] = ∅ := by
  ext n
  simp [askedOf]

theorem not_rejects_askedOf {r : Ref} {history : List (Ref × UInt64)} {c : UInt64} :
    ¬ SlidingWindow.Rejects replayWindowSize (askedOf r history) c.toNat ↔
      ∀ c', (r, c') ∈ history → c' ≠ c ∧ c'.toNat < c.toNat + replayWindowSize := by
  constructor
  · intro hnot c' hc'
    refine ⟨?_, ?_⟩
    · rintro rfl
      exact hnot (.inl ⟨c', hc', rfl⟩)
    · exact Nat.not_le.mp fun hle => hnot (.inr ⟨c'.toNat, ⟨c', hc', rfl⟩, hle⟩)
  · rintro hall (⟨c', hc', heq⟩ | ⟨m, ⟨c', hc', rfl⟩, hle⟩)
    · exact (hall c' hc').1 (UInt64.toNat_inj.mp heq)
    · exact Nat.not_le.mpr (hall c' hc').2 hle

/-- Each window turns away what the counters it was asked about tell it to. -/
structure Remembers (s : Shared P) (history : List (Ref × UInt64)) : Prop where
  windows : ∀ (r : Ref) (h : HostInfo), s.node.hostmap.hosts[r]? = some h →
    h.toReplayWindow.Tracks (askedOf r history)
  unused : ∀ r : Ref, s.node.hostmap.hosts[r]? = none → askedOf r history = ∅

namespace Task

variable {s : Shared P} {t u : Task P}

theorem Watched.other (hu : u.Watched s) (t : Task P) : u.Watched (Task.step s t).1 := by
  cases u with
  | checkReplay env pkt hdr r =>
      refine ⟨fun hnone => ?_, hu.2⟩
      obtain ⟨h, hh⟩ := Option.ne_none_iff_exists'.mp hu.1
      obtain ⟨h', hh', -⟩ := (hostStep s t).continues hh
      rw [hh'] at hnone
      cases hnone
  | _ => exact hu

theorem watched_dispatch (s : Shared P) (env : Env P) (pkt : Bytes) (src : UDPAddr) :
    (dispatch s env pkt src).2.2.Watched (dispatch s env pkt src).1 := by
  unfold dispatch
  split
  · trivial
  · split
    · trivial
    · rename_i hdr hparse
      split_ifs
      · split
        · trivial
        · rename_i r host hget
          refine ⟨fun hnone => ?_, hparse⟩
          rw [(HostMap.getByIndex_eq_some.mp hget).2] at hnone
          cases hnone
      · trivial
      · trivial
      · trivial
      · trivial
      · trivial
      · split <;> trivial
      · trivial

theorem watched_step (s : Shared P) (t : Task P) :
    (Task.step s t).2.2.Watched (Task.step s t).1 := by
  cases t with
  | outside env pkt src => exact watched_dispatch s env pkt src
  | handleStage0 env pkt src =>
      rcases hres : s.node.handshakeMgr.handleStage0 env pkt src with ⟨sent, err | host⟩
      · rw [step_handleStage0_error hres]
        trivial
      · rw [step_handleStage0 hres]
        obtain ⟨st, idx, wire, cs, ciphers, -, -, -, -, rfl⟩ :=
          HandshakeManager.handleStage0_ok.mp (congrArg Prod.snd hres)
        rfl
  | readStage1 env pkt r =>
      simp only [Task.step]
      split
      · trivial
      · split
        · trivial
        · rfl
  | allowOutbound env v pkt host groups =>
      rcases hverdict : s.node.fw.allowOutbound env.now v groups (dstPortFromIPv4 pkt)
        (protoFromIPv4 pkt) with ⟨fw, allowed⟩
      rw [step_allowOutbound s host hverdict]
      cases allowed with
      | false => trivial
      | true => cases host <;> trivial
  | handleStage1 env pkt =>
      rcases step_handleStage1_cases s env pkt with ⟨hdr, r, ph, -, -, -, hstep⟩ | ⟨-, hstep⟩
      · rw [hstep]
        trivial
      · rw [hstep]
        trivial
  | send env r pkts =>
      cases pkts with
      | nil => trivial
      | cons pkt pkts =>
          simp only [Task.step]
          split <;> trivial
  | checkReplay env pkt hdr r =>
      simp only [Task.step]
      split
      · trivial
      · split <;> trivial
  | inside | getPeerCert | getAddrs | encrypt | startHandshake =>
      simp only [Task.step]
      split <;> trivial
  | _ => trivial

theorem query_eq_nil (h : t.asks = none) : Task.query s t = [] := by
  cases t with
  | checkReplay => cases h
  | _ => rfl

end Task

namespace Remembers

variable {s s' : Shared P} {history : List (Ref × UInt64)}

/-- The sessions there were are as they were, and a new one has an empty window. -/
theorem of_same (hs : Remembers s history)
    (hsame : ∀ (r : Ref) (h : HostInfo), s'.node.hostmap.hosts[r]? = some h →
      (∃ g, s.node.hostmap.hosts[r]? = some g ∧ h.toReplayWindow = g.toReplayWindow) ∨
      s.node.hostmap.hosts[r]? = none ∧ h.toReplayWindow = .fresh)
    (hgrows : ∀ r : Ref, s'.node.hostmap.hosts[r]? = none → s.node.hostmap.hosts[r]? = none) :
    Remembers s' history := by
  refine ⟨fun r h hr => ?_, fun r hr => hs.unused r (hgrows r hr)⟩
  rcases hsame r h hr with ⟨g, hg, hwindow⟩ | ⟨hnone, hfresh⟩
  · rw [hwindow]
    exact hs.windows r g hg
  · rw [hfresh, hs.unused r hnone]
    exact ReplayWindow.tracks_fresh

/-- A session judges a datagram. -/
theorem judge (hs : Remembers s history) {r : Ref} {host : HostInfo}
    (hr : s.node.hostmap.hosts[r]? = some host) (hdr : Header) (pkt : Bytes)
    (hs' : s'.node.hostmap = s.node.hostmap.assign r (host.receive P hdr pkt).1) :
    Remembers s' (history ++ [(r, hdr.messageCounter)]) := by
  have hwindow : (host.receive P hdr pkt).1.toReplayWindow
      = (host.toReplayWindow.checkReplay hdr.messageCounter).1 := by
    rw [HostInfo.receive_eq]
  have hasked : ∀ r', askedOf r' (history ++ [(r, hdr.messageCounter)])
      = if r' = r then insert hdr.messageCounter.toNat (askedOf r history)
        else askedOf r' history := by
    intro r'
    rw [askedOf_append]
    ext n
    by_cases heq : r' = r
    · simp [askedOf, heq, eq_comm, or_comm]
    · simp [askedOf, heq]
  refine ⟨fun r' h hr' => ?_, fun r' hr' => ?_⟩
  · rw [hs', HostMap.hosts_assign hr] at hr'
    rw [hasked]
    by_cases heq : r' = r
    · rw [if_pos heq] at hr' ⊢
      obtain rfl := Option.some.inj hr'
      rw [hwindow]
      exact ReplayWindow.tracks_insert (hs.windows r host hr) hdr.messageCounter
    · rw [if_neg heq] at hr' ⊢
      exact hs.windows r' h hr'
  · rw [hs', HostMap.hosts_assign hr] at hr'
    rw [hasked]
    by_cases heq : r' = r
    · rw [if_pos heq] at hr'
      cases hr'
    · rw [if_neg heq] at hr' ⊢
      exact hs.unused r' hr'

theorem step {t : Task P} (hs : Remembers s history) (ht : t.Watched s) :
    Remembers (Task.step s t).1 (history ++ Task.query s t) := by
  have hstep := Task.hostStep s t
  generalize hs' : (Task.step s t).1 = s' at hstep ⊢
  have hgrows : ∀ r : Ref, s'.node.hostmap.hosts[r]? = none → s.node.hostmap.hosts[r]? = none := by
    intro r hr'
    cases hr : s.node.hostmap.hosts[r]? with
    | none => rfl
    | some g =>
        obtain ⟨g', hg', -⟩ := hstep.continues hr
        rw [hr'] at hg'
        cases hg'
  generalize hm : s'.node.hostmap = m at hstep
  cases hstep with
  | idle hasks =>
      have hnone : t.asks = none := by
        cases t with
        | checkReplay env pkt hdr r => exact absurd (hasks r rfl) ht.1
        | _ => rfl
      rw [Task.query_eq_nil hnone, List.append_nil]
      refine hs.of_same (fun r h hr => .inl ⟨h, ?_, rfl⟩) hgrows
      rw [← hm]
      exact hr
  | @send env r pkts host hr =>
      rw [Task.query_eq_nil rfl, List.append_nil]
      refine hs.of_same (fun r' h hr' => .inl ?_) hgrows
      rw [hm, HostMap.hosts_assign hr] at hr'
      by_cases heq : r' = r
      · rw [if_pos heq] at hr'
        rw [heq, ← Option.some.inj hr']
        exact ⟨host, hr, rfl⟩
      · rw [if_neg heq] at hr'
        exact ⟨h, hr', rfl⟩
  | judge env pkt hdr hr => exact hs.judge hr hdr pkt hm
  | add env o h pending =>
      rw [Task.query_eq_nil rfl, List.append_nil]
      refine hs.of_same (fun r g hr => ?_) hgrows
      rw [hm] at hr
      rcases getElem?_append_singleton hr with hold | ⟨rfl, rfl⟩
      · exact .inl ⟨g, hold, rfl⟩
      · exact .inr ⟨by simp, ht⟩
  | remove ip =>
      rw [Task.query_eq_nil rfl, List.append_nil]
      refine hs.of_same (fun r h hr => .inl ⟨h, ?_, rfl⟩) hgrows
      rw [hm] at hr
      exact hr

end Remembers

/-! ### Genuine packets

A packet the peer has sealed is opened exactly if its counter is new to the window and not too old
for it. -/

/-- The session with the key opens a datagram that a node has sent, if its window lets it. -/
theorem EncryptCall.receive_wire (hopen : P.OpenSeal) {call : EncryptCall} {log : List Note}
    (hsent : call.Sent P log) {hdr : Header} (hparse : Header.parse (call.wire P) = .ok hdr)
    {h : HostInfo} (hkey : call.aead = h.recvCipher) :
    (call.wire P).take headerLen = call.header ∧ hdr.messageCounter = call.counter ∧
      (h.receive P hdr (call.wire P)).2
        = if h.Stale call.counter then .error .replay else .ok call.plaintext := by
  obtain ⟨⟨idx, hheader⟩, -⟩ := hsent
  have hlength : call.header.length = headerLen := by
    rw [hheader]
    exact Header.length_bytes _
  have hcounter : hdr.messageCounter = call.counter := by
    have htype : typeMessage < 16 := by decide
    rw [wire, hheader, Header.parse_bytes_append _ rfl htype] at hparse
    rw [← Except.ok.inj hparse]
  have htake : (call.wire P).take headerLen = call.header := List.take_left' hlength
  have hdrop : (call.wire P).drop headerLen
      = encrypt P call.aead call.counter call.header call.plaintext := List.drop_left' hlength
  refine ⟨htake, hcounter, ?_⟩
  by_cases hs : h.Stale call.counter
  · rw [if_pos hs, HostInfo.receive_eq, hcounter, ReplayWindow.checkReplay_of_stale hs]
    rfl
  · rw [if_neg hs]
    refine HostInfo.receive_ok.mpr ⟨by rwa [hcounter], ?_⟩
    rw [htake, hdrop, hcounter, ← hkey]
    exact Fallible.mapError_ok.mpr (hopen _ _ _ _)

namespace Daemon

open Program Network

theorem guards_watch : ((program P).watch Task.query).Guards (fun _ => True) Remembers
    Task.Watched where
  entry s i _ := by
    obtain ⟨env, e⟩ := i
    cases e <;> trivial
  step s history t hs ht := ⟨hs.step ht, Task.watched_step s t⟩
  other s history t u _ _ hu := hu.other t

/-- The counters about which the sessions of a node were asked, in a run from its start. -/
def asked (x : Setup) (peers : List Certificate) (ts : List (Turn (Env P × Interface.Event))) :
    List (Ref × UInt64) :=
  (((program P).watch Task.query).run ⟨⟨x.node P peers, 0⟩, [], []⟩ ts).log

theorem remembers_run (x : Setup) (peers : List Certificate)
    (ts : List (Turn (Env P × Interface.Event))) :
    Remembers ((start (x.node P peers)).run ts).shared (asked x peers ts) ∧
      ∀ t ∈ ((start (x.node P peers)).run ts).tasks,
        t.Watched ((start (x.node P peers)).run ts).shared := by
  have hhosts : (x.node P peers).hostmap = .new := Interface.new_hostmap ..
  have hstart : Remembers (⟨x.node P peers, 0⟩ : Shared P) [] := by
    refine ⟨fun r h hr => ?_, fun r _ => askedOf_nil r⟩
    have hnew : HostMap.new.hosts[r]? = some h := hhosts ▸ hr
    cases hnew
  have hrun := guards_watch.run (D := ⟨⟨x.node P peers, 0⟩, [], []⟩) ⟨hstart, by simp⟩
    (Turn.within_true ts)
  obtain ⟨hshared, htasks⟩ :=
    run_watch (p := program P) Task.query ts ⟨x.node P peers, 0⟩ [] [] []
  refine ⟨?_, ?_⟩
  · have hinv := hrun.shared
    rw [hshared] at hinv
    exact hinv
  · have hall := hrun.tasks
    rw [hshared, htasks] at hall
    exact hall

/-- **Which packets come through.**  Two nodes, each with any calls in any order of their steps.
When a datagram of the one is about to be judged by a session of the other that has its key, it is
opened, and opened to what was sealed, exactly if the session was asked before neither about its
counter nor about one that lies 4096 or more above it. -/
theorem genuine_opened_iff (hopen : P.OpenSeal) (x y : Setup) (peersX peersY : List Certificate)
    (tsX tsY : List (Turn (Env P × Interface.Event))) (call : EncryptCall)
    (hcall : .encrypted call ∈ logOf x peersX tsX) (n : Nat) (env : Env P) (hdr : Header) (r : Ref)
    (h : HostInfo) (htask : ((start (y.node P peersY)).run tsY).tasks[n]?
      = some (.checkReplay env (call.wire P) hdr r))
    (hr : (sessionsOf y peersY tsY).hosts[r]? = some h) (hkey : call.aead = h.recvCipher) :
    logOf y peersY (tsY ++ [.advance n])
        = logOf y peersY tsY ++ [.effect (.decrypted r call.header call.plaintext)] ↔
      ∀ c, (r, c) ∈ asked y peersY tsY →
        c ≠ call.counter ∧ c.toNat < call.counter.toNat + replayWindowSize := by
  obtain ⟨hremembers, hwatched⟩ := remembers_run y peersY tsY
  have hsent := ((accounts_run x peersX tsX).keyed.encrypted call hcall).2
  have hparse := (hwatched _ (List.mem_of_getElem? htask)).2
  obtain ⟨htake, hcounter, hreceive⟩ := call.receive_wire hopen hsent hparse hkey
  have hlog : logOf y peersY (tsY ++ [.advance n]) = logOf y peersY tsY
      ++ (Task.step ((start (y.node P peersY)).run tsY).shared
        (.checkReplay env (call.wire P) hdr r)).2.1 := by
    unfold logOf run
    rw [run_append, run_cons, run_nil]
    exact congrArg Pool.log (turn_advance (p := program P) htask)
  have hfresh : ¬ h.Stale call.counter ↔ ∀ c, (r, c) ∈ asked y peersY tsY →
      c ≠ call.counter ∧ c.toNat < call.counter.toNat + replayWindowSize := by
    rw [hremembers.windows r h hr call.counter]
    exact not_rejects_askedOf
  rw [← hfresh, hlog]
  rcases hres : h.receive P hdr (call.wire P) with ⟨h', err | plaintext⟩
  · rw [Task.step_checkReplay_error hr hres]
    rw [hres] at hreceive
    by_cases hs : h.Stale call.counter
    · simp [hs]
    · rw [if_neg hs] at hreceive
      cases hreceive
  · rw [Task.step_checkReplay hr hres, htake]
    rw [hres] at hreceive
    by_cases hs : h.Stale call.counter
    · rw [if_pos hs] at hreceive
      cases hreceive
    · rw [if_neg hs] at hreceive
      simp [hs, Except.ok.inj hreceive]

section Concrete

open Symbolic

/-- The datagram a call is about to have judged, its header and the session. -/
def judging : Task P → Option (Bytes × Header × Ref)
  | .checkReplay _ pkt hdr r => some (pkt, hdr, r)
  | _ => none

theorem exists_judging {t : Option (Task P)} {pkt : Bytes} {hdr : Header} {r : Ref}
    (h : t.bind judging = some (pkt, hdr, r)) : ∃ env, t = some (.checkReplay env pkt hdr r) := by
  obtain ⟨t, rfl, ht⟩ := Option.bind_eq_some_iff.mp h
  cases t with
  | checkReplay env pkt' hdr' r' =>
      obtain ⟨rfl, rfl, rfl⟩ : pkt' = pkt ∧ hdr' = hdr ∧ r' = r := by simpa [judging] using ht
      exact ⟨env, rfl⟩
  | _ => cases ht

/-- Node 1 sends a second packet. -/
def reachingTwice : List (Turn (Env platform × Interface.Event)) :=
  reaching ++
    .call (calmEnv 0 [], .inside (tcpPacket 1 2 40001 22)) :: List.replicate 4 (.advance 2)

/-- The calls of node 1 that sealed the two packets. -/
def carried (n : Nat) : EncryptCall :=
  (callsOf (logOf setup1 [setup2.cert] reachingTwice)).getD n ⟨0, ⟨pad32 []⟩, 0, [], []⟩

/-- Node 2 has answered and delivered the first packet.  A copy of it and the second packet have got
as far as the replay window. -/
def arriving : List (Turn (Env platform × Interface.Event)) :=
  .call (calmEnv 8 [5], .outside hello (nodeAddr 1)) :: List.replicate 5 (.advance 0)
    ++ .call (calmEnv 0 [], .outside ((carried 0).wire platform) (nodeAddr 1))
      :: List.replicate 3 (.advance 1)
    ++ [.call (calmEnv 0 [], .outside ((carried 0).wire platform) (nodeAddr 1)), .advance 2,
      .call (calmEnv 0 [], .outside ((carried 1).wire platform) (nodeAddr 1)), .advance 3]

/-- The copy stays closed, and the second packet is opened. -/
theorem genuine_opened_iff_carried :
    asked setup2 [setup1.cert] arriving = [(0, (carried 0).counter)] ∧
      logOf setup2 [setup1.cert] (arriving ++ [.advance 2]) ≠ logOf setup2 [setup1.cert] arriving
        ++ [.effect (.decrypted 0 (carried 0).header (carried 0).plaintext)] ∧
      logOf setup2 [setup1.cert] (arriving ++ [.advance 3]) = logOf setup2 [setup1.cert] arriving
        ++ [.effect (.decrypted 0 (carried 1).header (carried 1).plaintext)] := by
  have hasked : asked setup2 [setup1.cert] arriving = [(0, (carried 0).counter)] := by
    decide +kernel
  have hcomputed : ∀ n < 2, carried n ∈ callsOf (logOf setup1 [setup2.cert] reachingTwice) ∧
      (((start (setup2.node platform [setup1.cert])).run arriving).tasks[n + 2]?).bind judging
        = some ((carried n).wire platform,
          ⟨headerVersion, typeMessage, 0, 8, (carried n).counter⟩, 0) ∧
      (sessionsOf setup2 [setup1.cert] arriving).hosts[0]?.map (·.recvCipher)
        = some (carried n).aead ∧
      (carried n).counter = UInt64.ofNat (n + 1) := by
    decide +kernel
  have hopened : ∀ n < 2, (logOf setup2 [setup1.cert] (arriving ++ [.advance (n + 2)])
        = logOf setup2 [setup1.cert] arriving
          ++ [.effect (.decrypted 0 (carried n).header (carried n).plaintext)] ↔
      ∀ c, (0, c) ∈ asked setup2 [setup1.cert] arriving →
        c ≠ (carried n).counter ∧ c.toNat < (carried n).counter.toNat + replayWindowSize) := by
    intro n hn
    obtain ⟨hcall, htask, hsession, -⟩ := hcomputed n hn
    obtain ⟨env, htask⟩ := exists_judging htask
    obtain ⟨h, hr, hkey⟩ := Option.map_eq_some_iff.mp hsession
    exact genuine_opened_iff openSeal setup1 setup2 [setup2.cert] [setup1.cert] reachingTwice
      arriving (carried n) (mem_callsOf hcall) (n + 2) env _ 0 h htask hr hkey.symm
  have hfirst := (hcomputed 0 (by decide)).2.2.2
  have hsecond := (hcomputed 1 (by decide)).2.2.2
  refine ⟨hasked, fun heq => ?_, (hopened 1 (by decide)).mpr fun c hc => ?_⟩
  · have hmem : (0, (carried 0).counter) ∈ asked setup2 [setup1.cert] arriving := by
      rw [hasked]
      exact List.mem_singleton_self _
    exact ((hopened 0 (by decide)).mp heq _ hmem).1 rfl
  · rw [hasked, hfirst] at hc
    obtain rfl : c = 1 := by simpa using hc
    rw [hsecond]
    decide

end Concrete

end Daemon

end Neth
