/-
What the connection table holds, over whole runs of the firewall.

The calls `AllowInbound`, `AllowOutbound` and `Expire` come in any order, each with
the time at which it is made.  A call that a rule of its direction matches enters the
packet's key, a sweep drops the keys that are old enough, and everything else leaves
the table as it is: the table is a table of leases, and what it holds after a run is
read off the calls.  Every verdict is explained that way.

A key that is in the table keeps the time it was entered at, also when packets of its
connection keep coming.  So a connection in use is dropped once its first packet is
old enough, and a rule more, by entering a connection earlier, makes it go earlier.
-/
import Neth.Lib.Leases
import Neth.Proofs.Firewall

namespace Neth

/-- Which of the two rule lists applies. -/
inductive Direction where
  | inbound
  | outbound
  deriving DecidableEq

/-- The timeouts that `Expire` is told. -/
structure Timeouts where
  tcp : Time
  udp : Time
  other : Time

namespace Timeouts

/-- The ones of `RunExpiry`. -/
def default : Timeouts := ⟨defaultTCPTimeout, defaultUDPTimeout, defaultICMPTimeout⟩

/-- How long an entry for the protocol is kept. -/
def ttl (T : Timeouts) (proto : Proto) : Time := Conntrack.ttl T.tcp T.udp T.other proto

/-- A sweep at `now` drops a key last tracked at `last`. -/
def due (T : Timeouts) (now : Time) (k : ConnKey) (last : Time) : Bool :=
  decide (last + T.ttl k.proto ≤ now)

theorem due_eq_false {T : Timeouts} {now : Time} {k : ConnKey} {last : Time} :
    T.due now k last = false ↔ now < last + T.ttl k.proto := by
  rw [due, decide_eq_false_iff_not, Nat.not_le]

end Timeouts

namespace Firewall

/-- What the firewall is asked about a packet, in either direction, and when. -/
structure Packet where
  dir : Direction
  now : Time
  /-- The address of the remote side. -/
  ip : Addr
  groups : List GoString
  /-- The destination port. -/
  port : UInt16
  proto : Proto

/-- The entry of the table that the packet belongs to. -/
def Packet.key (p : Packet) : ConnKey := Firewall.key p.ip p.port p.proto

/-- Two packets are of one connection, whatever their directions. -/
def Packet.SameConnection (p q : Packet) : Prop := p.ip = q.ip ∧ p.port = q.port ∧ p.proto = q.proto

theorem Packet.sameConnection_iff {p q : Packet} : p.SameConnection q ↔ p.key = q.key := by
  simp [SameConnection, Packet.key, Firewall.key]

/-- A packet is judged, or the table is swept. -/
inductive Call where
  | packet (p : Packet)
  | expire (now : Time)

/-- The time of a call. -/
def Call.now : Call → Time
  | .packet p => p.now
  | .expire now => now

/-- The rules for a direction. -/
def rules (f : Firewall) : Direction → List Rule
  | .inbound => f.inbound
  | .outbound => f.outbound

/-- A rule of the packet's own direction matches it. -/
def permits (f : Firewall) (p : Packet) : Bool :=
  (f.rules p.dir).any fun r => ruleMatches r p.ip p.groups p.port p.proto

/-- `AllowInbound` or `AllowOutbound`, as the direction of the packet demands. -/
def judge (f : Firewall) (p : Packet) : Firewall × Bool :=
  match p.dir with
  | .inbound => f.allowInbound p.now p.ip p.groups p.port p.proto
  | .outbound => f.allowOutbound p.now p.ip p.groups p.port p.proto

/-- What the call returns. -/
def verdict (f : Firewall) (p : Packet) : Bool := (f.judge p).2

/-- The firewall after a call. -/
def call (T : Timeouts) (f : Firewall) : Call → Firewall
  | .packet p => (f.judge p).1
  | .expire now => f.expireWith now T.tcp T.udp T.other

/-- The firewall after a sequence of calls. -/
def run (T : Timeouts) (f : Firewall) (cs : List Call) : Firewall := cs.foldl (call T) f

variable (T : Timeouts)

theorem run_append (f : Firewall) (cs ds : List Call) :
    f.run T (cs ++ ds) = (f.run T cs).run T ds := List.foldl_append

/-! ### The table as leases

A call enters a key, sweeps the table or does nothing to it, and which of them depends on the rules
and not on the table.  So the table after any calls is that of the library. -/

theorem judge_eq (f : Firewall) (p : Packet) :
    f.judge p = f.allow (f.rules p.dir) p.now p.ip p.groups p.port p.proto := by
  unfold judge
  cases p.dir with
  | inbound => rfl
  | outbound => rfl

theorem judge_fst (f : Firewall) (p : Packet) :
    (f.judge p).1 = if f.ct.isEstablished p.key then f
      else if f.permits p then { f with ct := f.ct.track p.now p.key }
      else f := by
  rw [judge_eq, allow]
  simp only [apply_ite Prod.fst]
  rfl

theorem verdict_eq (f : Firewall) (p : Packet) :
    f.verdict p = (f.ct.isEstablished p.key || f.permits p) := by
  rw [verdict, judge_eq, allow_snd]
  rfl

/-- What a call does to the table of a firewall with the rules of `f`. -/
def Call.event (f : Firewall) : Call → Leases.Event ConnKey Time
  | .packet p => if f.permits p then .enter p.key p.now else .idle
  | .expire now => .sweep (T.due now)

/-- The leases that a run of calls leaves. -/
def leases (f : Firewall) (cs : List Call) : ConnKey → Option Time :=
  Leases.run (fun _ => none) (cs.map (Call.event T f))

/-- All keys of the table are keys of packets: they have no source. -/
def OfPackets (f : Firewall) : Prop :=
  ∀ k, (f.ct.seen k).isSome → k.srcIP = .zero ∧ k.srcPort = 0

/-- A key of a packet that is found reversed is its own reverse, so the second lookup finds nothing
that the first does not. -/
theorem OfPackets.isEstablished {f : Firewall} (h : f.OfPackets) (p : Packet) :
    f.ct.isEstablished p.key = (f.ct.seen p.key).isSome := by
  unfold Conntrack.isEstablished
  by_cases hrev : (f.ct.seen p.key.reversed).isSome
  · have hself : p.key.reversed = p.key := by
      obtain ⟨hip, hport⟩ := h _ hrev
      simp only [Packet.key, Firewall.key, ConnKey.reversed] at hip hport ⊢
      rw [hip, hport]
    rw [hself, Bool.or_self]
  · rw [Bool.not_eq_true] at hrev
    rw [hrev, Bool.or_false]

/-- The firewall has the rules of `f0`, and its table is `tab`. -/
structure Follows (f0 f : Firewall) (tab : ConnKey → Option Time) : Prop where
  rules : f.rules = f0.rules
  seen : f.ct.seen = tab
  keys : f.OfPackets

variable {T} {f0 f : Firewall} {tab : ConnKey → Option Time}

theorem Follows.permits (h : Follows f0 f tab) (p : Packet) : f.permits p = f0.permits p := by
  rw [Firewall.permits, h.rules]
  rfl

theorem Follows.packet (h : Follows f0 f tab) (p : Packet) :
    Follows f0 (f.judge p).1 (Leases.step tab (Call.event T f0 (.packet p))) := by
  have hest := h.keys.isEstablished p
  rw [judge_fst, Call.event, ← h.permits p]
  by_cases htracked : f.ct.isEstablished p.key = true
  · -- an established packet changes nothing, whether a rule matches or not
    rw [if_pos htracked]
    rw [hest, h.seen] at htracked
    have hstep : Leases.step tab (if f.permits p = true then .enter p.key p.now else .idle)
        = tab := by
      by_cases hrule : f.permits p = true
      · simp [hrule, Leases.step, htracked]
      · simp [hrule, Leases.step]
    rw [hstep]
    exact h
  · rw [if_neg htracked]
    rw [hest, h.seen] at htracked
    by_cases hrule : f.permits p = true
    · rw [if_pos hrule, if_pos hrule]
      refine ⟨h.rules, ?_, ?_⟩
      · rw [Leases.step, if_neg htracked, ← h.seen]
        rfl
      · intro k hk
        rcases Conntrack.isSome_track.mp hk with heq | hk
        · rw [heq]
          exact ⟨rfl, rfl⟩
        · exact h.keys k hk
    · rw [if_neg hrule, if_neg hrule]
      exact h

theorem Follows.expire (h : Follows f0 f tab) (now : Time) :
    Follows f0 (f.call T (.expire now)) (Leases.step tab (Call.event T f0 (.expire now))) := by
  refine ⟨h.rules, ?_, ?_⟩
  · funext k
    show (f.ct.seen k).filter _ = (tab k).filter _
    rw [h.seen]
    congr 1
    funext last
    have hage : ∀ now last ttl : Nat, (now : Int) - last ≥ ttl ↔ last + ttl ≤ now := by
      intro now last ttl
      omega
    exact congrArg (!·) (decide_eq_decide.mpr (hage now last _))
  · intro k hk
    exact h.keys k (Conntrack.isSome_of_expire hk)

theorem Follows.call (h : Follows f0 f tab) (c : Call) :
    Follows f0 (f.call T c) (Leases.step tab (Call.event T f0 c)) := by
  cases c with
  | packet p => exact h.packet p
  | expire now => exact h.expire now

theorem Follows.run (cs : List Call) : ∀ {f : Firewall} {tab : ConnKey → Option Time},
    Follows f0 f tab → Follows f0 (f.run T cs) (Leases.run tab (cs.map (Call.event T f0))) := by
  induction cs with
  | nil => intro f tab h; exact h
  | cons c cs ih => intro f tab h; exact ih (h.call c)

/-- A firewall fresh from `New`, after any calls. -/
theorem follows_run (inRules outRules : List Rule) (cs : List Call) :
    Follows (.new inRules outRules) ((new inRules outRules).run T cs)
      (leases T (.new inRules outRules) cs) :=
  Follows.run cs ⟨rfl, rfl, by intro k hk; cases hk⟩

theorem Follows.verdict (h : Follows f0 f tab) (p : Packet) :
    f.verdict p = ((tab p.key).isSome || f0.permits p) := by
  rw [verdict_eq, h.keys.isEstablished, h.seen, h.permits]

/-! ### Which call a key is owed to

A key stands in the table because of one packet, the first since it was last swept, and goes by the
time of that packet. -/

theorem Call.event_eq_enter {c : Call} {k : ConnKey} {t : Time} :
    c.event T f = .enter k t ↔ ∃ p, c = .packet p ∧ f.permits p = true ∧ p.key = k ∧ p.now = t := by
  cases c with
  | packet p =>
      unfold Call.event
      by_cases hrule : f.permits p = true
      · simp [hrule]
      · simp [hrule]
  | expire now => simp [Call.event]

theorem Call.event_eq_sweep {c : Call} {due : ConnKey → Time → Bool} :
    c.event T f = .sweep due ↔ ∃ now, c = .expire now ∧ T.due now = due := by
  cases c with
  | packet p =>
      unfold Call.event
      by_cases hrule : f.permits p = true
      · simp [hrule]
      · simp [hrule]
  | expire now => simp [Call.event]

/-- No sweep among the calls drops a key tracked at `t`. -/
def Outlives (T : Timeouts) (proto : Proto) (t : Time) (cs : List Call) : Prop :=
  ∀ now, .expire now ∈ cs → now < t + T.ttl proto

theorem outlives_iff {k : ConnKey} {t : Time} {cs : List Call} :
    Outlives T k.proto t cs ↔
      ∀ due, .sweep due ∈ cs.map (Call.event T f) → due k t = false := by
  constructor
  · intro h due hmem
    obtain ⟨c, hc, hevent⟩ := List.mem_map.mp hmem
    obtain ⟨now, rfl, rfl⟩ := Call.event_eq_sweep.mp hevent
    exact Timeouts.due_eq_false.mpr (h now hc)
  · intro h now hmem
    exact Timeouts.due_eq_false.mp (h _ (List.mem_map.mpr ⟨_, hmem, rfl⟩))

/-- A key is in the table because of a packet that a rule admitted when the key was not there. -/
theorem leases_eq_some_iff {cs : List Call} {k : ConnKey} {t : Time} :
    leases T f cs k = some t ↔
      ∃ pre p post, cs = pre ++ .packet p :: post ∧ p.key = k ∧ p.now = t ∧ f.permits p = true ∧
        leases T f pre k = none ∧ Outlives T k.proto t post := by
  unfold leases
  rw [Leases.run_eq_some_iff rfl]
  constructor
  · intro h
    obtain ⟨pre', post', hcs, hfree, hdue⟩ := h
    obtain ⟨pre, rest, rfl, rfl, hrest⟩ := List.map_eq_append_iff.mp hcs
    obtain ⟨c, post, rfl, hevent, rfl⟩ := List.map_eq_cons_iff.mp hrest
    obtain ⟨p, rfl, hrule, hkey, hnow⟩ := Call.event_eq_enter.mp hevent
    exact ⟨pre, p, post, rfl, hkey, hnow, hrule, hfree, outlives_iff.mpr hdue⟩
  · intro h
    obtain ⟨pre, p, post, rfl, hkey, hnow, hrule, hfree, hout⟩ := h
    refine ⟨pre.map (Call.event T f), post.map (Call.event T f), ?_, hfree, outlives_iff.mp hout⟩
    rw [List.map_append, List.map_cons, Call.event_eq_enter.mpr ⟨p, rfl, hrule, hkey, hnow⟩]

theorem permits_iff {p : Packet} :
    f.permits p = true ↔ ∃ r ∈ f.rules p.dir, ruleMatches r p.ip p.groups p.port p.proto = true :=
  List.any_eq_true

theorem permits_of_no_rules (ct : Conntrack) (p : Packet) :
    (⟨[], [], ct⟩ : Firewall).permits p = false := by
  unfold permits
  cases p.dir with
  | inbound => rfl
  | outbound => rfl

/-- **Every verdict is owed to a rule.**  After any calls a packet is admitted if and only if a rule
of its own direction matches it, or a packet of its connection was admitted by a rule when the
table did not know the connection and no sweep since then came late enough to drop it.  Looking the
key up reversed adds nothing, and without rules nothing is admitted. -/
theorem verdict_run_iff (T : Timeouts) (inRules outRules : List Rule) (cs : List Call)
    (p : Packet) :
    (((new inRules outRules).run T cs).verdict p = true ↔
      (∃ r ∈ (new inRules outRules).rules p.dir,
        ruleMatches r p.ip p.groups p.port p.proto = true) ∨
      ∃ pre p0 post, cs = pre ++ .packet p0 :: post ∧ p0.SameConnection p ∧
        (∃ r ∈ (new inRules outRules).rules p0.dir,
          ruleMatches r p0.ip p0.groups p0.port p0.proto = true) ∧
        ((new inRules outRules).run T pre).ct.isEstablished p0.key = false ∧
        ∀ now, .expire now ∈ post → now < p0.now + T.ttl p.proto) ∧
    ((new inRules outRules).run T cs).ct.isEstablished p.key
      = (((new inRules outRules).run T cs).ct.seen p.key).isSome ∧
    ((new [] []).run T cs).verdict p = false := by
  have hfollows := fun cs => follows_run (T := T) inRules outRules cs
  refine ⟨?_, (hfollows cs).keys.isEstablished p, ?_⟩
  · rw [(hfollows cs).verdict, Bool.or_eq_true, permits_iff, or_comm, Option.isSome_iff_exists]
    refine or_congr_right ?_
    -- both sides name the packet that entered the key
    have hkey : ∀ pre (p0 : Packet), p0.key = p.key →
        (leases T (new inRules outRules) pre p.key = none ↔
          ((new inRules outRules).run T pre).ct.isEstablished p0.key = false) := by
      intro pre p0 hsame
      rw [(hfollows pre).keys.isEstablished, (hfollows pre).seen, hsame, Option.isSome_eq_false_iff,
        Option.isNone_iff_eq_none]
    constructor
    · intro h
      obtain ⟨t, h⟩ := h
      obtain ⟨pre, p0, post, hcs, hsame, rfl, hrule, hfree, hout⟩ := leases_eq_some_iff.mp h
      exact ⟨pre, p0, post, hcs, Packet.sameConnection_iff.mpr hsame, permits_iff.mp hrule,
        (hkey pre p0 hsame).mp hfree, hout⟩
    · intro h
      obtain ⟨pre, p0, post, hcs, hsame, hrule, hfree, hout⟩ := h
      have hsame := Packet.sameConnection_iff.mp hsame
      exact ⟨p0.now, leases_eq_some_iff.mpr ⟨pre, p0, post, hcs, hsame, rfl,
        permits_iff.mpr hrule, (hkey pre p0 hsame).mpr hfree, hout⟩⟩
  · have hnorule : ∀ q, (new [] []).permits q = false := permits_of_no_rules .new
    rw [(follows_run [] [] cs).verdict, hnorule, Bool.or_false, Option.isSome_eq_false_iff,
      Option.isNone_iff_eq_none, Option.eq_none_iff_forall_ne_some]
    intro t h
    obtain ⟨-, q, -, -, -, -, hrule, -⟩ := leases_eq_some_iff.mp h
    rw [hnorule] at hrule
    cases hrule

/-! ### The firewall of a node

The firewall of a node sees packets and sweeps in the order in which the node handles them.  What
holds of any sequence of calls therefore holds of it. -/

theorem exists_calls {l : List Effect} {f' : Firewall} (h : Trace.Executes FirewallStep f l f') :
    ∃ cs, f' = f.run .default cs := by
  induction h with
  | nil f => exact ⟨[], rfl⟩
  | @cons f f1 f2 l1 l2 hstep _ ih =>
      obtain ⟨cs, hcs⟩ := ih
      have hfirst : ∃ c, f1 = f.run .default c := by
        cases hstep with
        | idle _ => exact ⟨[], rfl⟩
        | outbound now groups _ => exact ⟨[.packet ⟨.outbound, now, _, groups, _, _⟩], rfl⟩
        | inbound now groups _ => exact ⟨[.packet ⟨.inbound, now, _, groups, _, _⟩], rfl⟩
        | expire now => exact ⟨[.expire now], rfl⟩
      obtain ⟨c, hc⟩ := hfirst
      exact ⟨c ++ cs, by rw [run_append, ← hc, hcs]⟩

/-- Whatever happens to a node, its firewall goes through calls, so that the results on runs of
calls are results on the node. -/
theorem exists_calls_of_node {P : Platform} (I : Interface P)
    (es : List (Env P × Interface.Event)) :
    ∃ cs, (I.run es).1.fw = I.fw.run .default cs :=
  exists_calls (Interface.run_moves I es).firewall

/-! ### Connections in use

Whether a connection is kept is asked of packets that come later, under whatever rules, so that only
the table can let them in. -/

/-- The calls come at times that never go back. -/
def InOrder (cs : List Call) : Prop := (cs.map Call.now).Pairwise (· ≤ ·)

instance (cs : List Call) : Decidable (InOrder cs) :=
  inferInstanceAs (Decidable ((cs.map Call.now).Pairwise (· ≤ ·)))

/-- The same table under other rules. -/
def withRules (f : Firewall) (inRules outRules : List Rule) : Firewall := ⟨inRules, outRules, f.ct⟩

/-- As the calls go on from `f`, packets of the connection of `p` are admitted, whatever the rules,
in either direction, at every time until the timeout has passed since `p`. -/
def Kept (T : Timeouts) (f : Firewall) (p : Packet) (cs : List Call) : Prop :=
  ∀ cs' q, cs' <+: cs → q.SameConnection p → (∀ c ∈ cs', c.now ≤ q.now) →
    q.now < p.now + T.ttl p.proto → ∀ inRules outRules,
      ((f.run T cs').withRules inRules outRules).verdict q = true

/-- Whatever the rules: the table knows the connection. -/
theorem withRules_verdict_iff (h : Follows f0 f tab) (q : Packet) :
    (∀ inRules outRules, (f.withRules inRules outRules).verdict q = true)
      ↔ (tab q.key).isSome := by
  have hverdict : ∀ inRules outRules, (f.withRules inRules outRules).verdict q
      = ((tab q.key).isSome || (f.withRules inRules outRules).permits q) := by
    intro inRules outRules
    rw [verdict_eq, ← h.seen, ← h.keys.isEstablished]
    rfl
  constructor
  · intro hall
    have hnorule : (f.withRules [] []).permits q = false := permits_of_no_rules f.ct q
    have hnone := hall [] []
    rwa [hverdict, hnorule, Bool.or_false] at hnone
  · intro htracked inRules outRules
    rw [hverdict, htracked, Bool.true_or]

/-- An admitted packet's key is in the table afterwards. -/
theorem Follows.exists_time (h : Follows f0 f tab) {p : Packet} (hp : f.verdict p = true) :
    ∃ t, Leases.step tab (Call.event T f0 (.packet p)) p.key = some t := by
  rw [h.verdict, Bool.or_eq_true] at hp
  cases hk : tab p.key with
  | some t =>
      refine ⟨t, Leases.step_of_some hk ?_⟩
      intro due hdue
      obtain ⟨now, hnow, -⟩ := Call.event_eq_sweep.mp hdue
      cases hnow
  | none =>
      rw [hk] at hp
      rcases hp with hp | hrule
      · cases hp
      · refine ⟨p.now, ?_⟩
        rw [Call.event, if_pos hrule]
        simp [Leases.step, hk]

theorem InOrder.last {cs : List Call} {c : Call} (h : InOrder (cs ++ [c])) :
    ∀ d ∈ cs ++ [c], d.now ≤ c.now := by
  rw [InOrder, List.map_append, List.pairwise_append] at h
  intro d hd
  rcases List.mem_append.mp hd with hd | hd
  · exact h.2.2 _ (List.mem_map_of_mem hd) c.now (by simp)
  · rw [List.mem_singleton.mp hd]

theorem InOrder.of_prefix {cs cs' : List Call} (h : InOrder cs) (hpre : cs' <+: cs) :
    InOrder cs' := h.sublist (hpre.sublist.map Call.now)

/-- A packet of the connection at the time of the last call finds the key. -/
theorem Kept.isSome {p : Packet} {cs cs' : List Call} {c : Call} (hkept : Kept T f p cs)
    (h : Follows f0 f tab) (hpre : cs' ++ [c] <+: cs) (horder : InOrder cs)
    (hearly : c.now < p.now + T.ttl p.proto) :
    (Leases.run tab ((cs' ++ [c]).map (Call.event T f0)) p.key).isSome := by
  have hrun := Follows.run (T := T) (cs' ++ [c]) h
  exact (withRules_verdict_iff hrun { p with now := c.now }).mp
    (hkept _ _ hpre ⟨rfl, rfl, rfl⟩ (horder.of_prefix hpre).last hearly)

/-- If the connection is kept, no sweep of an initial part of the calls that ends before the
timeout is up is late enough to drop it. -/
theorem Kept.outlives {p : Packet} {cs : List Call} {t : Time} (hkept : Kept T f p cs)
    (h : Follows f0 f tab) (ht : tab p.key = some t) (horder : InOrder cs) (cs' : List Call) :
    cs' <+: cs → (∀ c ∈ cs', c.now < p.now + T.ttl p.proto) → Outlives T p.proto t cs' := by
  induction cs' using List.reverseRecOn with
  | nil =>
      intro _ _ now hmem
      cases hmem
  | append_singleton cs' c ih =>
      intro hpre hearly now hmem
      have hout : Outlives T p.proto t cs' :=
        ih ((List.prefix_append cs' [c]).trans hpre)
          (fun d hd => hearly d (List.mem_append_left _ hd))
      rcases List.mem_append.mp hmem with hmem | hmem
      · exact hout now hmem
      · have hc := (List.mem_singleton.mp hmem).symm
        have hfound := hkept.isSome h hpre horder (hearly c (by simp))
        rw [List.map_append, Leases.run_append, Option.isSome_iff_exists] at hfound
        obtain ⟨t', hfound⟩ := hfound
        have hbefore : Leases.run tab (cs'.map (Call.event T f0)) p.key = some t :=
          Leases.run_of_some _ ht (outlives_iff.mp hout)
        rcases Leases.of_step_eq_some hfound with ⟨hstood, hdue⟩ | ⟨hfree, -⟩
        · obtain rfl := Option.some.inj (hbefore.symm.trans hstood)
          exact Timeouts.due_eq_false.mp (hdue _ (Call.event_eq_sweep.mpr ⟨now, hc, rfl⟩))
        · rw [hbefore] at hfree
          cases hfree

/-- **A connection in use is kept as long as the packet that entered it.**  Whenever a packet is
admitted, its key stands in the table with the time of the packet that entered it, and the
connection is kept for the timeout after the packet exactly when no sweep falls
between the end of the entering packet's timeout and the end of this packet's. -/
theorem kept_iff (T : Timeouts) (inRules outRules : List Rule) (pre post : List Call) (p : Packet)
    (horder : InOrder (pre ++ .packet p :: post))
    (hadmitted : ((new inRules outRules).run T pre).verdict p = true) :
    ∃ t0, ((new inRules outRules).run T (pre ++ [.packet p])).ct.seen p.key = some t0 ∧
      (Kept T ((new inRules outRules).run T (pre ++ [.packet p])) p post ↔
        ∀ now, .expire now ∈ post → now < p.now + T.ttl p.proto → now < t0 + T.ttl p.proto) := by
  have hfollows := follows_run (T := T) inRules outRules pre
  obtain ⟨t0, ht0⟩ := hfollows.exists_time (T := T) hadmitted
  have hafter : Follows (.new inRules outRules)
      ((new inRules outRules).run T (pre ++ [.packet p]))
      (Leases.step (leases T (.new inRules outRules) pre)
        (Call.event T (.new inRules outRules) (.packet p))) := by
    rw [run_append]
    exact hfollows.call (.packet p)
  refine ⟨t0, by rw [hafter.seen, ht0], ?_⟩
  have horder : InOrder post := by
    rw [InOrder, List.map_append, List.map_cons, List.pairwise_append, List.pairwise_cons] at horder
    exact horder.2.1.2
  constructor
  · intro hkept now hmem hearly
    obtain ⟨cs, rest, rfl⟩ := List.append_of_mem hmem
    have hpre : cs ++ [.expire now] <+: cs ++ .expire now :: rest := ⟨rest, by simp⟩
    refine hkept.outlives hafter ht0 horder (cs ++ [.expire now]) hpre ?_ now (by simp)
    intro c hc
    exact Nat.lt_of_le_of_lt ((horder.of_prefix hpre).last c hc) hearly
  · intro hsweeps cs q hpre hsame hlast hearly
    rw [withRules_verdict_iff (Follows.run (T := T) cs hafter),
      Packet.sameConnection_iff.mp hsame]
    rw [Leases.run_of_some (cs.map _) ht0]
    · rfl
    · refine outlives_iff.mp ?_
      intro now hmem
      exact hsweeps now (hpre.subset hmem) (Nat.lt_of_le_of_lt (hlast _ hmem) hearly)

section Concrete

open Symbolic

/-- Seconds, in the unit of `Time`. -/
def seconds (n : Nat) : Time := n * 1000000000

/-- A packet between this node and the name server of node 1. -/
def dnsPacket (dir : Direction) (now : Time) (groups : List GoString) : Packet :=
  ⟨dir, now, nodeIP 1, groups, 53, protoUDP⟩

/-- A connection with packets at 0, 5 and 24 seconds outlives two sweeps, the second one 29 seconds
after it was entered. -/
theorem kept_29_seconds :
    ((new [Interface.anyRule] []).run .default [.packet (dnsPacket .inbound 0 [])]).verdict
        (dnsPacket .inbound (seconds 5) []) = true ∧
      Kept .default ((new [Interface.anyRule] []).run .default
          [.packet (dnsPacket .inbound 0 []), .packet (dnsPacket .inbound (seconds 5) [])])
        (dnsPacket .inbound (seconds 5) [])
        [.expire (seconds 20), .packet (dnsPacket .outbound (seconds 24) []),
          .expire (seconds 29)] := by
  refine ⟨by decide, ?_⟩
  obtain ⟨t0, ht0, hiff⟩ := kept_iff .default [Interface.anyRule] []
    [.packet (dnsPacket .inbound 0 [])]
    [.expire (seconds 20), .packet (dnsPacket .outbound (seconds 24) []), .expire (seconds 29)]
    (dnsPacket .inbound (seconds 5) []) (by decide) (by decide)
  -- the second packet has not moved the time of the first
  have hentered : ((new [Interface.anyRule] []).run .default
      ([.packet (dnsPacket .inbound 0 [])] ++
        [.packet (dnsPacket .inbound (seconds 5) [])])).ct.seen
      (dnsPacket .inbound (seconds 5) []).key = some 0 := by
    decide
  obtain rfl := Option.some.inj (ht0.symm.trans hentered)
  refine hiff.mpr fun now hmem _ => ?_
  obtain rfl | rfl : now = seconds 20 ∨ now = seconds 29 := by
    simpa using hmem
  · decide
  · decide

/-- **A connection in use is dropped.**  A rule admits inbound packets and none outbound ones.  A
packet comes in, a second one twenty seconds later, and a sweep runs thirty seconds after the
first: the answer, eleven seconds after the second packet, is refused. -/
theorem connection_in_use_dropped :
    InOrder ([.packet (dnsPacket .inbound 0 [])] ++
        .packet (dnsPacket .inbound (seconds 20) []) :: [.expire (seconds 30)]) ∧
      ((new [Interface.anyRule] []).run .default [.packet (dnsPacket .inbound 0 [])]).verdict
        (dnsPacket .inbound (seconds 20) []) = true ∧
      (dnsPacket .outbound (seconds 31) []).SameConnection (dnsPacket .inbound (seconds 20) []) ∧
      seconds 31 < seconds 20 + Timeouts.default.ttl protoUDP ∧
      ((new [Interface.anyRule] []).run .default [.packet (dnsPacket .inbound 0 []),
        .packet (dnsPacket .inbound (seconds 20) []), .expire (seconds 30)]).verdict
        (dnsPacket .outbound (seconds 31) []) = false := by
  refine ⟨by decide, by decide, ⟨rfl, rfl, rfl⟩, by decide, by decide⟩

end Concrete

/-! ### More rules

With more rules a connection may be entered earlier, and an earlier entry is swept earlier.  That is
the only way in which a rule can cost a packet. -/

section MoreRules

variable {f f' : Firewall} (hrules : ∀ dir, f.rules dir ⊆ f'.rules dir)

include hrules

theorem permits_of_subset {p : Packet} (h : f.permits p = true) : f'.permits p = true := by
  obtain ⟨r, hr, hmatch⟩ := permits_iff.mp h
  exact permits_iff.mpr ⟨r, hrules p.dir hr, hmatch⟩

/-- With more rules the same calls enter at least the same keys. -/
theorem Call.covers_event (c : Call) : Leases.Covers (c.event T f) (c.event T f') := by
  cases c with
  | packet p =>
      show Leases.Covers (if f.permits p then .enter p.key p.now else .idle)
        (if f'.permits p then .enter p.key p.now else .idle)
      by_cases hrule : f.permits p = true
      · rw [if_pos hrule, if_pos (permits_of_subset hrules hrule)]
        exact .same _
      · rw [if_neg hrule]
        by_cases hrule' : f'.permits p = true
        · rw [if_pos hrule']
          exact .more _ _
        · rw [if_neg hrule']
          exact .same _
  | expire now => exact .same _

/-- How the firewall with more rules can have lost a connection that the other has. -/
theorem leases_lag_iff (cs : List Call) (p : Packet) :
    ((leases T f cs p.key).isSome ∧ leases T f' cs p.key = none) ↔
      ∃ pre now mid t t', cs = pre ++ .expire now :: mid ∧
        leases T f pre p.key = some t ∧ now < t + T.ttl p.proto ∧
        leases T f' pre p.key = some t' ∧ t' + T.ttl p.proto ≤ now ∧
        (∀ q, .packet q ∈ mid → q.SameConnection p → f'.permits q = false) ∧
        Outlives T p.proto t mid := by
  unfold leases
  rw [Leases.lag_iff (Call.covers_event hrules) rfl]
  constructor
  · intro h
    obtain ⟨pre, c, mid, due, t, t', hcs, hc, hpre, hkept, hpre', hdropped, hquiet, hsweeps⟩ := h
    obtain ⟨now, rfl, rfl⟩ := Call.event_eq_sweep.mp hc
    refine ⟨pre, now, mid, t, t', hcs, hpre, Timeouts.due_eq_false.mp hkept, hpre',
      of_decide_eq_true hdropped, ?_, ?_⟩
    · intro q hq hsame
      by_contra hrule
      rw [Bool.not_eq_false] at hrule
      exact hquiet _ hq q.now (Call.event_eq_enter.mpr
        ⟨q, rfl, hrule, Packet.sameConnection_iff.mp hsame, rfl⟩)
    · intro later hlater
      exact Timeouts.due_eq_false.mp (hsweeps _ hlater _ rfl)
  · intro h
    obtain ⟨pre, now, mid, t, t', hcs, hpre, hkept, hpre', hdropped, hquiet, hlate⟩ := h
    refine ⟨pre, .expire now, mid, T.due now, t, t', hcs, rfl, hpre,
      Timeouts.due_eq_false.mpr hkept, hpre', decide_eq_true hdropped, ?_, ?_⟩
    · intro c hc u henter
      obtain ⟨q, rfl, hrule, hsame, -⟩ := Call.event_eq_enter.mp henter
      rw [hquiet q hc (Packet.sameConnection_iff.mpr hsame)] at hrule
      cases hrule
    · intro c hc due hdue
      obtain ⟨later, rfl, rfl⟩ := Call.event_eq_sweep.mp hdue
      exact Timeouts.due_eq_false.mpr (hlate later hc)

end MoreRules

/-- **When an additional rule costs a packet.**  A firewall with more rules admits whatever the one
with fewer admits, except in one situation: a sweep drops a connection from the table of the
former, where it is older, and not from that of the latter, no packet that a rule of the former
matches has entered it again, no sweep has dropped it from the latter either, and no rule matches
the packet at hand. -/
theorem more_rules_admit_iff (T : Timeouts) (inRules outRules inRules' outRules' : List Rule)
    (hin : inRules ⊆ inRules') (hout : outRules ⊆ outRules') (cs : List Call) :
    (∀ pre p post, cs = pre ++ .packet p :: post →
      ((new inRules outRules).run T pre).verdict p = true →
      ((new inRules' outRules').run T pre).verdict p = true) ↔
    ∀ pre now mid p post t t', cs = pre ++ .expire now :: (mid ++ .packet p :: post) →
      ((new inRules outRules).run T pre).ct.seen p.key = some t → now < t + T.ttl p.proto →
      ((new inRules' outRules').run T pre).ct.seen p.key = some t' → t' + T.ttl p.proto ≤ now →
      (∀ q, .packet q ∈ mid → q.SameConnection p → (new inRules' outRules').permits q = false) →
      (∀ later, .expire later ∈ mid → later < t + T.ttl p.proto) →
      (new inRules' outRules').permits p = true := by
  have hrules : ∀ dir, (new inRules outRules).rules dir ⊆ (new inRules' outRules').rules dir := by
    intro dir
    cases dir with
    | inbound => exact hin
    | outbound => exact hout
  have hfollows := fun pre => follows_run (T := T) inRules outRules pre
  have hfollows' := fun pre => follows_run (T := T) inRules' outRules' pre
  constructor
  · intro hall pre now mid p post t t' hcs hpre hkept hpre' hdropped hquiet hlate
    rw [(hfollows pre).seen] at hpre
    rw [(hfollows' pre).seen] at hpre'
    obtain ⟨htracked, hgone⟩ := (leases_lag_iff hrules (pre ++ .expire now :: mid) p).mpr
      ⟨pre, now, mid, t, t', rfl, hpre, hkept, hpre', hdropped, hquiet, hlate⟩
    have hadmitted := hall (pre ++ .expire now :: mid) p post (by rw [hcs]; simp)
    rw [(hfollows _).verdict, (hfollows' _).verdict, htracked, hgone] at hadmitted
    exact hadmitted rfl
  · intro hall pre p post hcs hadmitted
    rw [(hfollows pre).verdict, Bool.or_eq_true] at hadmitted
    rw [(hfollows' pre).verdict, Bool.or_eq_true]
    rcases hadmitted with htracked | hrule
    · cases hgone : leases T (new inRules' outRules') pre p.key with
      | some t' => exact .inl rfl
      | none =>
          obtain ⟨before, now, mid, t, t', hpre, hbefore, hkept, hbefore', hdropped, hquiet,
            hlate⟩ := (leases_lag_iff hrules pre p).mp ⟨htracked, hgone⟩
          refine .inr (hall before now mid p post t t' (by rw [hcs, hpre]; simp) ?_ hkept ?_
            hdropped hquiet hlate)
          · rw [(hfollows before).seen, hbefore]
          · rw [(hfollows' before).seen, hbefore']
    · exact .inr (permits_of_subset hrules hrule)

section Concrete

/-- A rule for the peers of a group. -/
def groupRule (group : GoString) : Rule :=
  { Interface.anyRule with group := group, groupAny := false }

/-- With and without a rule more, the answer to a packet that a common rule matches is admitted
after a sweep. -/
theorem more_rules_admit_swept :
    ((new [groupRule [1], groupRule [2]] []).run .default
        [.packet (dnsPacket .inbound 0 [[1]]), .expire (seconds 20)]).verdict
      (dnsPacket .outbound (seconds 21) []) = true := by
  refine (more_rules_admit_iff .default [groupRule [1]] [] [groupRule [1], groupRule [2]] []
    (by simp) (by simp) [.packet (dnsPacket .inbound 0 [[1]]), .expire (seconds 20),
      .packet (dnsPacket .outbound (seconds 21) [])]).mpr ?_ [_, _] _ [] rfl (by decide)
  intro pre now mid p post t t' hcs _ _ hseen hdropped
  -- the one sweep comes before the connection is thirty seconds old
  obtain ⟨rfl, rfl, rfl⟩ : pre = [.packet (dnsPacket .inbound 0 [[1]])] ∧ now = seconds 20 ∧
      p = dnsPacket .outbound (seconds 21) [] := by
    rcases pre with - | ⟨c, - | ⟨c', - | ⟨c'', pre⟩⟩⟩
    · simp at hcs
    · rcases mid with - | ⟨d, mid⟩
      · have hall : c = .packet (dnsPacket .inbound 0 [[1]]) ∧ now = seconds 20 ∧
            p = dnsPacket .outbound (seconds 21) [] ∧ post = [] := by
          simpa [eq_comm] using hcs
        exact ⟨by rw [hall.1], hall.2.1, hall.2.2.1⟩
      · simp at hcs
    · simp at hcs
    · simp at hcs
  have hentered : ((new [groupRule [1], groupRule [2]] []).run .default
      [.packet (dnsPacket .inbound 0 [[1]])]).ct.seen
      (dnsPacket .outbound (seconds 21) []).key = some 0 := by
    decide
  obtain rfl := Option.some.inj (hentered.symm.trans hseen)
  exact absurd hdropped (by decide)

/-- **A rule more makes the firewall refuse a packet.**  Inbound packets of group 1 are admitted;
the second firewall also admits those of group 2.  A packet of group 2 comes in, five seconds later
one of group 1 of the same connection, and a sweep runs thirty seconds after the first.  The first
firewall then lets the answer out and the second refuses it. -/
theorem more_rules_refuse :
    InOrder [.packet (dnsPacket .inbound 0 [[2]]), .packet (dnsPacket .inbound (seconds 5) [[1]]),
        .expire (seconds 30), .packet (dnsPacket .outbound (seconds 31) [])] ∧
      [groupRule [1]] ⊆ [groupRule [1], groupRule [2]] ∧
      ((new [groupRule [1]] []).run .default [.packet (dnsPacket .inbound 0 [[2]]),
        .packet (dnsPacket .inbound (seconds 5) [[1]]), .expire (seconds 30)]).verdict
        (dnsPacket .outbound (seconds 31) []) = true ∧
      ((new [groupRule [1], groupRule [2]] []).run .default [.packet (dnsPacket .inbound 0 [[2]]),
        .packet (dnsPacket .inbound (seconds 5) [[1]]), .expire (seconds 30)]).verdict
        (dnsPacket .outbound (seconds 31) []) = false := by
  refine ⟨by decide, by simp, by decide, by decide⟩

end Concrete

end Firewall

end Neth
