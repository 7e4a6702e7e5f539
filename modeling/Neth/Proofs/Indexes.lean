/-
Local indexes over the run of a node.

A node draws an index for every handshake it starts and for every session it makes as
the responder, and a session that completes a handshake takes over the index of that
handshake.  If no draw hits an index in use, of a session or of a pending handshake,
then both tables of the node stay sound and share no index, in every run.

A datagram that closes a tunnel names a session by its index, but what the node removes
is the session its VPN IP has at that time, which need not be the one that was named.
-/
import Neth.Network
import Neth.Proofs.HostMap
import Neth.Proofs.Pending
import Neth.Proofs.RoundTrip

namespace Neth

variable {P : Platform}

namespace HandshakeManager

/-- Retransmission enters nothing. -/
theorem RetryStep.indexMap_eq {env : Env P} {m m' : HandshakeManager P} {effs : List Effect}
    (h : Trace.Executes (RetryStep env) m effs m') :
    ∀ idx r, m'.indexMap idx = some r → m.indexMap idx = some r := by
  refine RetryStep.rule (fun m' => ∀ idx r, m'.indexMap idx = some r → m.indexMap idx = some r)
    ?_ h (fun _ _ h => h)
  intro m1 v r ph hm _ _ idx r' hidx
  by_cases heq : idx = ph.localIndex
  · simp [heq] at hidx
  · exact hm idx r' ((Function.update_of_ne heq _ _).symm.trans hidx)

end HandshakeManager

/-! ### One invariant for both tables

The invariant is kept by every reaction, provided that a drawn index is free.  That is asked of each
draw and of nothing else. -/

namespace Control

/-- Both tables are sound, and no session has the index of a pending handshake. -/
structure Indexed (c : Control P) : Prop where
  sessions : c.hostmap.Sound
  handshakes : c.handshakeMgr.Paired
  apart : ∀ idx r, c.handshakeMgr.indexMap idx = some r → c.hostmap.byIndex idx = none

/-- The index is in use neither for a session nor for a pending handshake. -/
def Free (c : Control P) (idx : UInt32) : Prop :=
  c.hostmap.byIndex idx = none ∧ c.handshakeMgr.indexMap idx = none

variable {c c' : Control P} {e : Env P × Interface.Event} {effs : List Effect}

theorem Indexed.install (h : c.Indexed) {host : HostInfo} (hfree : c.Free host.index) :
    (c.install host).Indexed := by
  refine ⟨h.sessions.add hfree.1, h.handshakes, ?_⟩
  intro idx r hidx
  have hne : idx ≠ host.index := by
    rintro rfl
    exact absurd (hfree.2.symm.trans hidx) (by simp)
  exact (Function.update_of_ne hne _ _).trans (h.apart idx r hidx)

theorem Indexed.take (h : c.Indexed) {pkt : Bytes} {idx : UInt32} {ph : PendingHandshake P}
    (hnames : c.handshakeMgr.Names pkt idx ph) :
    ({ c with handshakeMgr := c.handshakeMgr.take idx ph } : Control P).Indexed := by
  refine ⟨h.sessions, h.handshakes.take hnames, ?_⟩
  intro idx' r hidx'
  simp only [HandshakeManager.take, Function.update_apply] at hidx'
  split at hidx'
  · cases hidx'
  · exact h.apart idx' r hidx'

/-- Once a handshake is taken out, its index is free. -/
theorem Indexed.free_take (h : c.Indexed) {pkt : Bytes} {idx : UInt32} {ph : PendingHandshake P}
    (hnames : c.handshakeMgr.Names pkt idx ph) :
    ({ c with handshakeMgr := c.handshakeMgr.take idx ph } : Control P).Free ph.localIndex := by
  obtain ⟨r, hpending, hr, rfl⟩ := h.handshakes.of_names hnames
  obtain ⟨-, hidx⟩ := h.handshakes.of_first hpending hr
  exact ⟨h.apart _ r hidx, Function.update_self ..⟩

theorem Indexed.react (h : c.Indexed) (hreact : Reaction e c effs c')
    (hfresh : ∀ idx, e.1.index = .ok idx → c.Free idx) : c'.Indexed := by
  cases hreact with
  | idle _ => exact h
  | close ip _ _ _ =>
      exact ⟨h.sessions.remove ip, h.handshakes,
        fun idx r hidx => HostMap.byIndex_remove ip (h.apart idx r hidx)⟩
  | @start _ _ _ _ ph _ _ _ _ _ hidle hnew _ =>
      obtain ⟨idx, hs, w, wire, hidx, -, -, -, rfl⟩ := HandshakeManager.newPending_ok.mp hnew
      obtain ⟨hsession, hpending⟩ := hfresh idx hidx
      refine ⟨h.sessions, h.handshakes.insert hpending hidle, ?_⟩
      intro idx' r hidx'
      simp only [HandshakeManager.insert, Function.update_apply] at hidx'
      split at hidx'
      · next heq =>
          rw [heq]
          exact hsession
      · exact h.apart idx' r hidx'
  | retry _ hretry =>
      refine ⟨h.sessions, h.handshakes.retry hretry, ?_⟩
      intro idx r hidx
      exact h.apart idx r (HandshakeManager.RetryStep.indexMap_eq hretry idx r hidx)
  | refuse _ _ _ => exact h
  | @answer pkt src sent host _ _ hread =>
      obtain ⟨s, idx, wire, cs, ciphers, -, hbuild, -, -, rfl⟩ :=
        HandshakeManager.handleStage0_ok.mp (congrArg Prod.snd hread)
      obtain ⟨w, hidx, -⟩ := HandshakeManager.buildStage1_ok.mp hbuild
      exact h.install (hfresh idx hidx)
  | abandon _ _ hnames _ => exact h.take hnames
  | complete _ _ hnames _ _ => exact (h.take hnames).install (h.free_take hnames)

end Control

namespace Interface

/-- An index that is drawn is not in use. -/
def DrawsFresh (I : Interface P) (env : Env P) : Prop :=
  ∀ idx, env.index = .ok idx →
    I.hostmap.byIndex idx = none ∧ I.handshakeMgr.indexMap idx = none

instance (I : Interface P) (env : Env P) : Decidable (I.DrawsFresh env) :=
  match hidx : env.index with
  | .error _ => .isTrue fun _ h => nomatch hidx.symm.trans h
  | .ok idx => decidable_of_iff
      (I.hostmap.byIndex idx = none ∧ I.handshakeMgr.indexMap idx = none)
      ⟨fun h _ heq => Except.ok.inj (hidx.symm.trans heq) ▸ h, fun h => h idx hidx⟩

/-- The event draws no index in use. -/
def Fresh (I : Interface P) (e : Env P × Event) : Prop := I.DrawsFresh e.1

instance (I : Interface P) (e : Env P × Event) : Decidable (I.Fresh e) :=
  inferInstanceAs (Decidable (I.DrawsFresh e.1))

theorem indexed_node (x : Network.Setup) (peers : List Certificate) :
    (x.node P peers).control.Indexed := by
  unfold control Network.Setup.node
  rw [new_hostmap, new_handshakeMgr]
  exact ⟨HostMap.sound_new, HandshakeManager.paired_new _ _ _, fun _ _ h => nomatch h⟩

theorem indexed_run {I : Interface P} (hI : I.control.Indexed) (es : List (Env P × Event))
    (hfresh : Trace.Meets step Fresh I es) : (I.run es).1.control.Indexed :=
  Trace.run_invariant_of_meets (fun I => I.control.Indexed)
    (fun I e h he => h.react (I.step_reacts e) he) es I hI hfresh

end Interface

/-! ### Closing a tunnel

What is named is an index, what is removed is a VPN IP.  The two agree as long as the session named
is the current one of its peer. -/

namespace HostMap

variable {m : HostMap} {idx : UInt32} {r : Ref} {h : HostInfo}

theorem Sound.of_core (hm : m.core.Sound) : m.Sound :=
  TwoKeys.Table.Sound.of_map HostInfo.core (fun _ => rfl) (fun _ => rfl) hm

/-- From `m` to `m'` the session behind `r`, which `m` finds under `idx`, has gone, and every other
session is found where it was. -/
structure Closes (m m' : HostMap) (idx : UInt32) (r : Ref) : Prop where
  byIndex : m'.getByIndex idx = none
  byVpnIP : ∀ ip h, m'.getByVpnIP ip ≠ some (r, h)
  othersByVpnIP : ∀ ip r' h', r' ≠ r → m.getByVpnIP ip = some (r', h') →
    m'.getByVpnIP ip = some (r', h')
  othersByIndex : ∀ idx' r' h', r' ≠ r → m.getByIndex idx' = some (r', h') →
    m'.getByIndex idx' = some (r', h')

theorem closes_remove_iff (hm : m.Sound) (hget : m.getByIndex idx = some (r, h)) :
    m.Closes (m.remove h.vpnIP) idx r ↔ m.getByVpnIP h.vpnIP = some (r, h) := by
  obtain ⟨hidx, hr⟩ := getByIndex_eq_some.mp hget
  have hindex := hm.index_eq hget
  constructor
  · intro hcloses
    refine getByVpnIP_eq_some.mpr ⟨?_, hr⟩
    -- whatever else is removed is entered under another index
    by_contra hother
    refine absurd hcloses.byIndex ?_
    rcases remove_cases hm h.vpnIP with ⟨-, heq⟩ | ⟨r', h', hip', hr', htable⟩
    · rw [heq, hget]
      simp
    · obtain ⟨-, hidx'⟩ := hm.of_first hip' hr'
      have hne : idx ≠ h'.index := by
        intro heq
        rw [← heq] at hidx'
        exact hother (by rw [hip', ← hidx', ← hidx]; rfl)
      have hkept : (m.remove h.vpnIP).byIndex idx = some r := by
        rw [show (m.remove h.vpnIP).byIndex = (m.remove h.vpnIP).table.second from rfl, htable]
        exact (Function.update_of_ne hne _ _).trans hidx
      rw [getByIndex_eq_some.mpr ⟨hkept, hr⟩]
      simp
  · intro hcurrent
    have hip := (getByVpnIP_eq_some.mp hcurrent).1
    have hremove : m.remove h.vpnIP = { m with
        byVpnIP := Function.update m.byVpnIP h.vpnIP none
        byIndex := Function.update m.byIndex h.index none } := by
      unfold remove
      rw [hcurrent]
    rw [hremove]
    refine ⟨?_, ?_, ?_, ?_⟩
    · simp [getByIndex, hindex]
    · intro ip h' hget'
      obtain ⟨hip', hr'⟩ := getByVpnIP_eq_some.mp hget'
      simp only [Function.update_apply] at hip'
      split at hip'
      · cases hip'
      · next hne => exact hne (hm.of_first hip' hr).1.symm
    · intro ip r' h' hne hget'
      obtain ⟨hip', hr'⟩ := getByVpnIP_eq_some.mp hget'
      refine getByVpnIP_eq_some.mpr ⟨?_, hr'⟩
      have hip'' : ip ≠ h.vpnIP := by
        rintro rfl
        exact hne (Option.some.inj (hip'.symm.trans hip))
      exact (Function.update_of_ne hip'' _ _).trans hip'
    · intro idx' r' h' hne hget'
      obtain ⟨hidx', hr'⟩ := getByIndex_eq_some.mp hget'
      refine getByIndex_eq_some.mpr ⟨?_, hr'⟩
      have hidx'' : idx' ≠ h.index := by
        rintro rfl
        rw [hindex] at hidx'
        exact hne (Option.some.inj (hidx'.symm.trans hidx))
      exact (Function.update_of_ne hidx'' _ _).trans hidx'

end HostMap

namespace Interface

/-- **When a tunnel is closed, and no other.**  In every state a node reaches, a datagram that
closes the tunnel with index `hdr.remoteIndex` ends exactly that session if and only if it is the
session its VPN IP has at that time. -/
theorem handleCloseTunnel_closes_iff (x : Network.Setup) (peers : List Certificate)
    (es : List (Env P × Event)) (hfresh : Trace.Meets step Fresh (x.node P peers) es)
    (hdr : Header) (r : Ref) (h : HostInfo) :
    let I := ((x.node P peers).run es).1
    I.hostmap.getByIndex hdr.remoteIndex = some (r, h) →
      (I.hostmap.Closes (I.handleCloseTunnel hdr).hostmap hdr.remoteIndex r ↔
        I.hostmap.getByVpnIP h.vpnIP = some (r, h)) := by
  intro I hget
  have hindexed : I.control.Indexed := indexed_run (indexed_node x peers) es hfresh
  have hclose : (I.handleCloseTunnel hdr).hostmap = I.hostmap.remove h.vpnIP := by
    unfold handleCloseTunnel
    rw [hget]
  rw [hclose]
  exact HostMap.closes_remove_iff hindexed.sessions.of_core hget

section Concrete

open Symbolic HandshakeManager

/-- A node that answers whoever calls. -/
def answering : Network.Setup where
  cert := nodeCert 2 [[2]]
  key := nodeKey 2
  caPool := [caCert]
  fw := .new [anyRule] [anyRule]
  lighthouse := .new false [] []
  punchy := none

/-- Node 1 makes two handshakes with node 2, so that session 8 is superseded by session 9. -/
def supersede : List (Env platform × Event) :=
  [(calmEnv 8 [5], .outside (initiation 1 1) (nodeAddr 1)),
    (calmEnv 9 [6], .outside (initiation 1 1) (nodeAddr 1))]

theorem fresh_supersede : Trace.Meets step Fresh (answering.node platform []) supersede := by
  decide +kernel

/-- The header of a datagram that closes a tunnel. -/
def closeHeader (idx : UInt32) : Header := ⟨headerVersion, typeCloseTunnel, 0, idx, 0⟩

theorem handleCloseTunnel_closes_current :
    Trace.Meets step Fresh (answering.node platform []) supersede ∧
      let I := ((answering.node platform []).run supersede).1
      ∃ r h, I.hostmap.getByIndex 9 = some (r, h) ∧
        I.hostmap.Closes (I.handleCloseTunnel (closeHeader 9)).hostmap 9 r := by
  refine ⟨fresh_supersede, ?_⟩
  intro I
  have hcurrent : (I.hostmap.getByIndex 9).isSome ∧
      (I.hostmap.getByIndex 9).bind (fun p => I.hostmap.getByVpnIP p.2.vpnIP)
        = I.hostmap.getByIndex 9 := by
    decide +kernel
  obtain ⟨⟨r, h⟩, hget⟩ := Option.isSome_iff_exists.mp hcurrent.1
  have hsame := hcurrent.2
  rw [hget, Option.bind_some] at hsame
  exact ⟨r, h, hget, (handleCloseTunnel_closes_iff answering [] supersede fresh_supersede
    (closeHeader 9) r h hget).mpr hsame⟩

/-- **A late close ends the wrong session.**  The datagram names the superseded session 8, which
stays, and session 9 is gone. -/
theorem handleCloseTunnel_ends_successor :
    Trace.Meets step Fresh (answering.node platform []) supersede ∧
      let I := ((answering.node platform []).run supersede).1
      let I' := I.handleCloseTunnel (closeHeader 8)
      ∃ r h, I.hostmap.getByIndex 8 = some (r, h) ∧ ¬ I.hostmap.Closes I'.hostmap 8 r ∧
        I'.hostmap.getByIndex 8 = some (r, h) ∧ (I.hostmap.getByIndex 9).isSome ∧
        I'.hostmap.getByIndex 9 = none ∧ I'.hostmap.getByVpnIP (nodeIP 1) = none := by
  refine ⟨fresh_supersede, ?_⟩
  intro I I'
  have hafter : (I.hostmap.getByIndex 8).isSome ∧
      I'.hostmap.getByIndex 8 = I.hostmap.getByIndex 8 ∧ (I.hostmap.getByIndex 9).isSome ∧
      I'.hostmap.getByIndex 9 = none ∧ I'.hostmap.getByVpnIP (nodeIP 1) = none := by
    decide +kernel
  obtain ⟨hsome, hstays, hnine, hgone, hip⟩ := hafter
  obtain ⟨⟨r, h⟩, hget⟩ := Option.isSome_iff_exists.mp hsome
  rw [hget] at hstays
  refine ⟨r, h, hget, ?_, hstays, hnine, hgone, hip⟩
  intro hcloses
  have hnone := hcloses.byIndex
  rw [hstays] at hnone
  cases hnone

end Concrete

end Interface

end Neth
