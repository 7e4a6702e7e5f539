/-
The session table over any sequence of `Add` and `Remove`.

As long as no index is given out twice, every session that is found under its VPN IP is
found under its index, whatever was added, replaced and removed before.  The converse
fails: `Add` enters a session for a peer that has one already without taking the old one
out of the index map, and since `Remove` goes through the VPN IP it never reaches the
old one again.

The table is an instance of that in `Lib/TwoKeys.lean`, where both facts are proved of
objects with any two keys.
-/
import Neth.Lib.TwoKeys
import Neth.Proofs.Node

namespace Neth

namespace HostMap

open TwoKeys

/-- A call that changes the table. -/
inductive Call where
  | add (h : HostInfo)
  | remove (ip : Addr)

/-- The VPN IP a call is about. -/
def Call.ip : Call → Addr
  | .add h => h.vpnIP
  | .remove ip => ip

/-- The index a call enters. -/
def Call.index : Call → Option UInt32
  | .add h => some h.index
  | .remove _ => none

/-- The table after a call. -/
def call (m : HostMap) : Call → HostMap
  | .add h => m.add h
  | .remove ip => m.remove ip

/-- A call as a step of a run. -/
def step (m : HostMap) (c : Call) : HostMap × Unit := (m.call c, ())

/-- The table after a sequence of calls. -/
def run (m : HostMap) (cs : List Call) : HostMap := (Trace.run step m cs).1

/-- The index of an added session is not in use. -/
def Fresh (m : HostMap) : Call → Prop
  | .add h => m.byIndex h.index = none
  | .remove _ => True

/-! ### The table as one of objects with two keys

Sessions are objects, VPN IP and local index their two keys.  `Add` inserts and `Remove` drops by
the first key. -/

/-- The host map as a table with two keys. -/
def table (m : HostMap) : Table HostInfo Addr UInt32 := ⟨m.hosts, m.byVpnIP, m.byIndex⟩

/-- The host map is sound as a table with two keys. -/
def Sound (m : HostMap) : Prop := m.table.Sound HostInfo.vpnIP HostInfo.index

variable {m : HostMap} {c : Call} {ip : Addr} {idx : UInt32} {r : Ref} {h host : HostInfo}

theorem sound_new : new.Sound := Table.sound_empty

theorem Sound.add (hm : m.Sound) (hfree : m.byIndex h.index = none) : (m.add h).Sound :=
  Table.Sound.insert hm hfree

/-- `Remove` takes the session out under both of its keys, or there is none. -/
theorem remove_cases (hm : m.Sound) (ip : Addr) :
    (m.byVpnIP ip = none ∧ m.remove ip = m) ∨
      ∃ r h, m.byVpnIP ip = some r ∧ m.hosts[r]? = some h ∧
        (m.remove ip).table = m.table.drop ip h.index := by
  cases hip : m.byVpnIP ip with
  | none =>
      refine .inl ⟨rfl, ?_⟩
      have hupdate : Function.update m.byVpnIP ip none = m.byVpnIP := by
        rw [← hip, Function.update_eq_self]
      unfold remove getByVpnIP
      rw [hip, hupdate]
      rfl
  | some r =>
      obtain ⟨h, hr, -⟩ := hm.first ip r hip
      refine .inr ⟨r, h, rfl, hr, ?_⟩
      have hget : m.getByVpnIP ip = some (r, h) := getByVpnIP_eq_some.mpr ⟨hip, hr⟩
      unfold remove
      rw [hget]
      rfl

theorem Sound.remove (hm : m.Sound) (ip : Addr) : (m.remove ip).Sound := by
  rcases remove_cases hm ip with ⟨-, heq⟩ | ⟨r, h, hip, hr, htable⟩
  · rw [heq]
    exact hm
  · unfold Sound
    rw [htable]
    exact Table.Sound.drop hm hip hr

theorem Sound.call (hm : m.Sound) (hc : m.Fresh c) : (m.call c).Sound := by
  cases c with
  | add h => exact hm.add hc
  | remove ip => exact hm.remove ip

theorem sound_run (cs : List Call) (hfresh : Trace.Meets step Fresh new cs) :
    (run new cs).Sound :=
  Trace.run_invariant_of_meets Sound (fun _ _ hm hc => hm.call hc) cs new sound_new hfresh

/-! ### Every session used for sending can receive -/

theorem Sound.getByIndex_of_getByVpnIP (hm : m.Sound) (h : m.getByVpnIP ip = some (r, host)) :
    host.vpnIP = ip ∧ m.getByIndex host.index = some (r, host) := by
  obtain ⟨hip, hr⟩ := getByVpnIP_eq_some.mp h
  obtain ⟨hkey, hidx⟩ := Table.Sound.of_first hm hip hr
  exact ⟨hkey, getByIndex_eq_some.mpr ⟨hidx, hr⟩⟩

theorem Sound.index_eq (hm : m.Sound) (h : m.getByIndex idx = some (r, host)) :
    host.index = idx := by
  obtain ⟨hidx, hr⟩ := getByIndex_eq_some.mp h
  exact Table.Sound.idx_eq hm hidx hr

/-- A call about one peer leaves the sessions of the others where they are. -/
theorem getByVpnIP_call (hip : ip ≠ c.ip) (h : m.getByVpnIP ip = some (r, host)) :
    (m.call c).getByVpnIP ip = some (r, host) := by
  obtain ⟨hentry, hr⟩ := getByVpnIP_eq_some.mp h
  refine getByVpnIP_eq_some.mpr ?_
  cases c with
  | add h' =>
      refine ⟨(Function.update_of_ne hip _ _).trans hentry, ?_⟩
      have hold : (m.table.insert HostInfo.vpnIP HostInfo.index h').objects[r]? = some host :=
        Table.getElem?_insert hr h'
      exact hold
  | remove ip' => exact ⟨(Function.update_of_ne hip _ _).trans hentry, hr⟩

/-- **Every session used for sending can receive.**  What is found under a VPN IP is a session with
that VPN IP, and it is found under its index too; what is found under an index has that index; and
no call about one peer changes this for another. -/
theorem current_sessions_reachable (cs : List Call) (hfresh : Trace.Meets step Fresh new cs) :
    (∀ ip r h, (run new cs).getByVpnIP ip = some (r, h) →
        h.vpnIP = ip ∧ (run new cs).getByIndex h.index = some (r, h)) ∧
      (∀ idx r h, (run new cs).getByIndex idx = some (r, h) → h.index = idx) ∧
      ∀ c, (run new cs).Fresh c → ∀ ip r h, ip ≠ c.ip →
        (run new cs).getByVpnIP ip = some (r, h) →
          ((run new cs).call c).getByVpnIP ip = some (r, h) ∧
            ((run new cs).call c).getByIndex h.index = some (r, h) := by
  have hm := sound_run cs hfresh
  refine ⟨fun ip r h => hm.getByIndex_of_getByVpnIP, fun idx r h => hm.index_eq, ?_⟩
  intro c hc ip r h hip hget
  have hafter := getByVpnIP_call hip hget
  exact ⟨hafter, ((hm.call hc).getByIndex_of_getByVpnIP hafter).2⟩

/-- A session with nothing in it but its keys. -/
def session (ip : Addr) (idx : UInt32) : HostInfo where
  toReplayWindow := .fresh
  vpnIP := ip
  remote := ⟨[], 0⟩
  index := idx
  remoteIndex := 0
  sendCipher := ⟨Vector.replicate 32 0⟩
  recvCipher := ⟨Vector.replicate 32 0⟩
  counter := 0
  cert := none

/-- Two peers, one of which gets a second session. -/
def rehandshake : List Call :=
  [.add (session (.from4 10 0 0 1) 1), .add (session (.from4 10 0 0 2) 2),
    .add (session (.from4 10 0 0 1) 3)]

theorem current_sessions_reachable_rehandshake :
    Trace.Meets step Fresh new rehandshake ∧
      ∀ ip r h, (run new rehandshake).getByVpnIP ip = some (r, h) →
        h.vpnIP = ip ∧ (run new rehandshake).getByIndex h.index = some (r, h) := by
  have hfresh : Trace.Meets step Fresh new rehandshake := ⟨rfl, rfl, rfl, trivial⟩
  exact ⟨hfresh, (current_sessions_reachable rehandshake hfresh).1⟩

/-! ### Teardown

`Remove` goes by the VPN IP.  A session that had been replaced under it is left behind under its
index. -/

/-- Nothing of the peer is found any more. -/
def Forgotten (m : HostMap) (ip : Addr) : Prop :=
  m.getByVpnIP ip = none ∧ ∀ idx r h, m.getByIndex idx = some (r, h) → h.vpnIP ≠ ip

/-- The call adds a session for a peer that has one. -/
def Replaces (ip : Addr) (m : HostMap) : Call → Prop
  | .add h => h.vpnIP = ip ∧ m.getByVpnIP ip ≠ none
  | .remove _ => False

/-- A session of the peer that is found under its index only. -/
def Stray (m : HostMap) (ip : Addr) : Prop := m.table.Stray HostInfo.vpnIP ip

theorem Sound.byVpnIP_eq_none (hm : m.Sound) : m.byVpnIP ip = none ↔ m.getByVpnIP ip = none := by
  constructor
  · intro hnone
    rw [getByVpnIP, hnone]
    rfl
  · intro hnone
    cases hip : m.byVpnIP ip with
    | none => rfl
    | some r =>
        obtain ⟨h, hr, -⟩ := hm.first ip r hip
        rw [getByVpnIP_eq_some.mpr ⟨hip, hr⟩] at hnone
        cases hnone

/-- Replacing a session is the one thing that makes a stray, and nothing removes one. -/
theorem stray_call (hm : m.Sound) (hc : m.Fresh c) :
    (m.call c).Stray ip ↔ m.Stray ip ∨ m.Replaces ip c := by
  cases c with
  | add h =>
      show _ ↔ m.Stray ip ∨ (h.vpnIP = ip ∧ m.getByVpnIP ip ≠ none)
      rw [Ne, ← hm.byVpnIP_eq_none]
      exact Table.stray_insert hm hc
  | remove ip' =>
      simp only [Replaces, or_false, call]
      rcases remove_cases hm ip' with ⟨-, heq⟩ | ⟨r, h, hip, hr, htable⟩
      · rw [heq]
      · unfold Stray
        rw [htable]
        exact Table.stray_drop hm hip hr

theorem stray_run : ∀ (cs : List Call) (m : HostMap), m.Sound → Trace.Meets step Fresh m cs →
    ((run m cs).Stray ip ↔
      m.Stray ip ∨ ¬ Trace.Meets step (fun m c => ¬ m.Replaces ip c) m cs) := by
  intro cs
  induction cs with
  | nil =>
      intro m _ _
      simp [run, Trace.Meets]
  | cons c cs ih =>
      intro m hm hfresh
      have hrest := ih (m.call c) (hm.call hfresh.1) hfresh.2
      show (run (m.call c) cs).Stray ip ↔ m.Stray ip ∨ ¬ (¬ m.Replaces ip c ∧
        Trace.Meets step (fun m c => ¬ m.Replaces ip c) (m.call c) cs)
      rw [hrest, stray_call hm hfresh.1, not_and_or, not_not, or_assoc]

/-- `Remove` forgets a peer exactly if it has no strays. -/
theorem forgotten_remove_iff (hm : m.Sound) (ip : Addr) :
    (m.remove ip).Forgotten ip ↔ ¬ m.Stray ip := by
  have hstray : (m.remove ip).Stray ip ↔ m.Stray ip := by
    have h : (m.call (.remove ip)).Stray ip ↔ _ := stray_call hm trivial
    simpa [Replaces, call] using h
  have hnone : (m.remove ip).byVpnIP ip = none := Function.update_self ..
  rw [← hstray]
  constructor
  · rintro ⟨-, hforgotten⟩ ⟨idx, r, h, hidx, hr, hip, -⟩
    exact hforgotten idx r h (getByIndex_eq_some.mpr ⟨hidx, hr⟩) hip
  · intro hnot
    refine ⟨(hm.remove ip).byVpnIP_eq_none.mp hnone, ?_⟩
    intro idx r h hget hip
    obtain ⟨hidx, hr⟩ := getByIndex_eq_some.mp hget
    refine hnot ⟨idx, r, h, hidx, hr, hip, ?_⟩
    show (m.remove ip).byVpnIP ip ≠ some r
    rw [hnone]
    simp

theorem byIndex_remove (ip : Addr) (h : m.byIndex idx = none) :
    (m.remove ip).byIndex idx = none := by
  unfold remove
  cases m.getByVpnIP ip with
  | none => exact h
  | some p =>
      simp only [Function.update_apply]
      split
      · rfl
      · exact h

/-- Indexes that are all different are not in use when they are added. -/
theorem meets_fresh_of_nodup : ∀ (cs : List Call) (m : HostMap),
    (∀ idx ∈ cs.filterMap Call.index, m.byIndex idx = none) →
    (cs.filterMap Call.index).Nodup → Trace.Meets step Fresh m cs := by
  intro cs
  induction cs with
  | nil => intro m _ _; trivial
  | cons c cs ih =>
      intro m hfree hnodup
      cases c with
      | add h =>
          have hcons : ((Call.add h :: cs).filterMap Call.index)
              = h.index :: cs.filterMap Call.index := rfl
          rw [hcons] at hfree hnodup
          obtain ⟨hnotin, hnodup⟩ := List.nodup_cons.mp hnodup
          refine ⟨hfree h.index List.mem_cons_self, ih (m.add h) ?_ hnodup⟩
          intro idx hidx
          have hne : idx ≠ h.index := fun heq => hnotin (heq ▸ hidx)
          exact (Function.update_of_ne hne _ _).trans (hfree idx (List.mem_cons_of_mem _ hidx))
      | remove ip =>
          refine ⟨trivial, ih (m.remove ip) ?_ hnodup⟩
          intro idx hidx
          exact byIndex_remove ip (hfree idx hidx)

/-- **When teardown is complete.**  After `Remove` no session of the peer is found, under its VPN IP
or under any index, exactly if none of the calls before added a session for it while it had one. -/
theorem remove_forgets_iff (cs : List Call) (hdistinct : (cs.filterMap Call.index).Nodup)
    (ip : Addr) : ((run new cs).remove ip).Forgotten ip ↔
      Trace.Meets step (fun m c => ¬ m.Replaces ip c) new cs := by
  have hfresh := meets_fresh_of_nodup cs new (fun _ _ => rfl) hdistinct
  have hnew : ¬ new.Stray ip := by
    rintro ⟨idx, r, h, hidx, -⟩
    cases hidx
  rw [forgotten_remove_iff (sound_run cs hfresh) ip, stray_run cs new sound_new hfresh, not_or,
    not_not]
  exact ⟨fun h => h.2, fun h => ⟨hnew, h⟩⟩

theorem remove_forgets_rehandshake :
    (rehandshake.filterMap Call.index).Nodup ∧
      ((run new rehandshake).remove (.from4 10 0 0 2)).Forgotten (.from4 10 0 0 2) := by
  have hdistinct : (rehandshake.filterMap Call.index).Nodup := by decide
  refine ⟨hdistinct, (remove_forgets_iff rehandshake hdistinct _).mpr ⟨?_, ?_, ?_, trivial⟩⟩
  · rintro ⟨hip, -⟩
    exact absurd hip (by decide)
  · rintro ⟨-, hsome⟩
    exact hsome rfl
  · rintro ⟨hip, -⟩
    exact absurd hip (by decide)

/-- **A replaced session survives teardown.**  The first session of peer 1 is still found under its
index after the peer is removed. -/
theorem remove_keeps_replaced :
    (rehandshake.filterMap Call.index).Nodup ∧
      ¬ ((run new rehandshake).remove (.from4 10 0 0 1)).Forgotten (.from4 10 0 0 1) := by
  refine ⟨by decide, ?_⟩
  rintro ⟨-, hforgotten⟩
  exact hforgotten 1 0 (session (.from4 10 0 0 1) 1) rfl rfl

end HostMap

end Neth
