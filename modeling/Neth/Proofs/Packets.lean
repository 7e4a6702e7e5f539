/-
What becomes of the packets from the TUN device, in any order of the goroutines' steps.

Once the firewall has admitted a packet, it is in the hands of the call that read it, in
the queue of a pending handshake, in the hands of the call that completes the handshake,
or sealed.  Every step moves packets from one of these places to the next or drops them,
and none makes a copy.  A queue is handed over when `HandleStage1` takes the handshake out
of the maps: nothing gets into it any more, and no other call finds it.  So no packet is
sealed more often than it was read, and all along the way it stays with the address it is
for, so that it is sealed for no other peer.
-/
import Mathlib.Algebra.BigOperators.Group.Finset.Piecewise
import Mathlib.Algebra.Order.BigOperators.Group.Finset
import Neth.Proofs.Authorised
import Neth.Proofs.Delivery
import Neth.Proofs.Queue
import Neth.Proofs.Retry

namespace Neth

open Interleave

variable {P : Platform}

/-- The packet is addressed to `v`. -/
def For (v : Addr) (pkt : Bytes) : Prop := dstIPFromIPv4 pkt = some v

/-! ### Queues

Only the queue of a handshake that is still open counts.  One that has been taken out is in the
hands of the call that took it. -/

namespace HandshakeManager

variable {m m' : HandshakeManager P} {v : Addr} {r : Ref} {ph : PendingHandshake P} {pkt : Bytes}

/-- The queue behind a pointer. -/
def queueOf (m : HandshakeManager P) (r : Ref) : List Bytes :=
  (m.handshakes[r]?).elim [] (·.pendingPackets)

/-- Packets can still get into the queue. -/
def Open (m : HandshakeManager P) (r : Ref) : Prop := ∃ v, m.pending v = some r

/-- The packets in the queues are for the peers of the handshakes. -/
def QueuesFor (m : HandshakeManager P) : Prop :=
  ∀ (r : Ref) (ph : PendingHandshake P), m.handshakes[r]? = some ph →
    ∀ pkt ∈ ph.pendingPackets, For ph.remoteVpnIP pkt

/-- The handshake was taken out of the pending map. -/
def Closed (m : HandshakeManager P) (r : Ref) : Prop := r < m.handshakes.length ∧ ¬ m.Open r

open Classical in
/-- What the queue holds as long as it is open. -/
noncomputable def queueAt (m : HandshakeManager P) (r : Ref) : Multiset Bytes :=
  if m.Open r then (m.queueOf r : Multiset Bytes) else 0

/-- All packets in open queues. -/
noncomputable def backlog (m : HandshakeManager P) : Multiset Bytes :=
  ∑ r ∈ Finset.range m.handshakes.length, m.queueAt r

theorem queueOf_eq (hr : m.handshakes[r]? = some ph) : m.queueOf r = ph.pendingPackets := by
  rw [queueOf, hr, Option.elim_some]

theorem queueAt_congr (hopen : m'.Open r ↔ m.Open r) (hqueue : m'.queueOf r = m.queueOf r) :
    m'.queueAt r = m.queueAt r := by
  by_cases h : m.Open r
  · rw [queueAt, queueAt, if_pos (hopen.mpr h), if_pos h, hqueue]
  · rw [queueAt, queueAt, if_neg (mt hopen.mp h), if_neg h]

theorem queueAt_le (hopen : m'.Open r → m.Open r) (hqueue : m'.queueOf r = m.queueOf r) :
    m'.queueAt r ≤ m.queueAt r := by
  unfold queueAt
  split_ifs with h h'
  · rw [hqueue]
  · exact absurd (hopen h) h'
  · exact Multiset.zero_le _
  · exact le_refl _

/-! #### A new handshake -/

theorem open_insert (hidle : m.pending ph.remoteVpnIP = none) (hr : r < m.handshakes.length) :
    (m.insert ph).Open r ↔ m.Open r := by
  constructor
  · rintro ⟨v, hv⟩
    by_cases heq : v = ph.remoteVpnIP
    · rw [heq] at hv
      simp only [insert, Function.update_self, Option.some.injEq] at hv
      exact absurd hv (Nat.ne_of_gt hr)
    · exact ⟨v, (Function.update_of_ne heq _ _).symm.trans hv⟩
  · rintro ⟨v, hv⟩
    refine ⟨v, (Function.update_of_ne ?_ _ _).trans hv⟩
    rintro rfl
    rw [hidle] at hv
    cases hv

theorem queueOf_insert (hr : r < m.handshakes.length) :
    (m.insert ph).queueOf r = m.queueOf r := by
  unfold queueOf insert
  rw [List.getElem?_append_left hr]

theorem backlog_insert (hidle : m.pending ph.remoteVpnIP = none)
    (hempty : ph.pendingPackets = []) : (m.insert ph).backlog = m.backlog := by
  have hlength : (m.insert ph).handshakes.length = m.handshakes.length + 1 := by simp [insert]
  have hnew : (m.insert ph).queueAt m.handshakes.length = 0 := by
    have hqueue : (m.insert ph).queueOf m.handshakes.length = [] := by
      simp [queueOf, insert, hempty]
    unfold queueAt
    rw [hqueue]
    exact ite_self _
  unfold backlog
  rw [hlength, Finset.sum_range_succ, hnew, add_zero]
  refine Finset.sum_congr rfl fun r hr => ?_
  have hlt := Finset.mem_range.mp hr
  exact queueAt_congr (open_insert hidle hlt) (queueOf_insert hlt)

/-! #### A packet for the queue -/

theorem pending_queuePacket (m : HandshakeManager P) (v : Addr) (pkt : Bytes) :
    (m.queuePacket v pkt).pending = m.pending := by
  unfold queuePacket
  split <;> rfl

theorem length_queuePacket (m : HandshakeManager P) (v : Addr) (pkt : Bytes) :
    (m.queuePacket v pkt).handshakes.length = m.handshakes.length := by
  unfold queuePacket
  split <;> simp

/-- Behind every pointer there is the same handshake as before, with the packet at the end of its
queue if it is the one pending for `v`. -/
theorem handshakes_queuePacket (h : (m.queuePacket v pkt).handshakes[r]? = some ph) :
    m.handshakes[r]? = some ph ∨ (m.pending v = some r ∧ ∃ ph', m.handshakes[r]? = some ph' ∧
      ph.remoteVpnIP = ph'.remoteVpnIP ∧
      ∃ kept, kept <:+ ph'.pendingPackets ∧ ph.pendingPackets = kept ++ [pkt]) := by
  unfold queuePacket at h
  split at h
  · exact .inl h
  · rename_i r' hv
    simp only [List.getElem?_modify] at h
    by_cases heq : r' = r
    · subst heq
      obtain ⟨ph', hr, rfl⟩ := Option.map_eq_some_iff.mp h
      rw [if_pos rfl]
      refine .inr ⟨hv, ph', hr, rfl, _, ?_, rfl⟩
      split_ifs
      · exact List.drop_suffix 1 _
      · exact List.suffix_refl _
    · simp only [heq, if_false] at h
      refine .inl ?_
      simpa using h

theorem queueOf_queuePacket_of_ne (h : m.pending v ≠ some r) :
    (m.queuePacket v pkt).queueOf r = m.queueOf r := by
  unfold queueOf queuePacket
  split
  · rfl
  · rename_i r' hv
    have hne : r' ≠ r := fun heq => h (heq ▸ hv)
    simp [hne]

theorem queueOf_queuePacket_le (m : HandshakeManager P) (v : Addr) (pkt : Bytes) (r : Ref) :
    ((m.queuePacket v pkt).queueOf r : Multiset Bytes)
      ≤ (m.queueOf r : Multiset Bytes) + {pkt} := by
  cases hr : (m.queuePacket v pkt).handshakes[r]? with
  | none =>
      have hnil : (m.queuePacket v pkt).queueOf r = [] := by
        rw [queueOf, hr]
        rfl
      rw [hnil]
      exact Multiset.zero_le _
  | some ph =>
      rw [queueOf_eq hr]
      rcases handshakes_queuePacket hr with hsame | ⟨-, ph', hr', -, kept, hsuffix, hqueue⟩
      · rw [queueOf_eq hsame]
        exact Multiset.le_add_right _ _
      · rw [queueOf_eq hr', hqueue, ← Multiset.coe_add]
        exact add_le_add (Multiset.coe_le.mpr hsuffix.sublist.subperm) (le_refl _)

theorem backlog_queuePacket (m : HandshakeManager P) (v : Addr) (pkt : Bytes) :
    (m.queuePacket v pkt).backlog ≤ m.backlog + {pkt} := by
  have hopen : ∀ r, (m.queuePacket v pkt).Open r ↔ m.Open r := by
    intro r
    unfold Open
    rw [pending_queuePacket]
  -- the packet is in one queue at most
  have hle : ∀ r, (m.queuePacket v pkt).queueAt r
      ≤ m.queueAt r + if m.pending v = some r then {pkt} else 0 := by
    intro r
    by_cases hv : m.pending v = some r
    · unfold queueAt
      rw [if_pos hv, if_pos ((hopen r).mpr ⟨v, hv⟩), if_pos ⟨v, hv⟩]
      exact queueOf_queuePacket_le m v pkt r
    · rw [if_neg hv, add_zero, queueAt_congr (hopen r) (queueOf_queuePacket_of_ne hv)]
  unfold backlog
  rw [length_queuePacket]
  refine (Finset.sum_le_sum fun r _ => hle r).trans ?_
  rw [Finset.sum_add_distrib]
  refine add_le_add (le_refl _) ?_
  cases m.pending v with
  | none => simp
  | some r' =>
      simp only [Option.some.injEq, Finset.sum_ite_eq]
      split_ifs
      · exact le_refl _
      · exact Multiset.zero_le _

/-! #### A handshake that is taken out -/

theorem backlog_le (hlength : m'.handshakes.length = m.handshakes.length)
    (hqueue : ∀ r, m'.queueOf r = m.queueOf r) (hopen : ∀ r, m'.Open r → m.Open r) :
    m'.backlog ≤ m.backlog := by
  unfold backlog
  rw [hlength]
  exact Finset.sum_le_sum fun r _ => queueAt_le (hopen r) (hqueue r)

theorem open_of_update (h : ∃ v', Function.update m.pending v none v' = some r) : m.Open r := by
  obtain ⟨v', hv'⟩ := h
  by_cases heq : v' = v
  · rw [heq, Function.update_self] at hv'
    cases hv'
  · exact ⟨v', (Function.update_of_ne heq _ _).symm.trans hv'⟩

/-- `HandleStage1` hands over the queue. -/
theorem backlog_take (hm : m.Anchored) {idx : UInt32} (hidx : m.indexMap idx = some r)
    (hr : m.handshakes[r]? = some ph) :
    (m.take idx ph).backlog + (m.queueOf r : Multiset Bytes) = m.backlog ∧
      (m.take idx ph).Closed r := by
  obtain ⟨ph', hr', -, hpending⟩ := hm.second idx r hidx
  obtain rfl : ph = ph' := Option.some.inj (hr.symm.trans hr')
  have hpending : m.pending ph.remoteVpnIP = some r := hpending
  have hlt : r < m.handshakes.length := (List.getElem?_eq_some_iff.mp hr).1
  have hclosed : ¬ (m.take idx ph).Open r := by
    rintro ⟨v, hv⟩
    by_cases heq : v = ph.remoteVpnIP
    · simp [take, heq] at hv
    · have hother : m.pending v = some r := (Function.update_of_ne heq _ _).symm.trans hv
      exact heq (hm.pending_inj hother hpending)
  have hrest : ∀ r' ≠ r, (m.take idx ph).queueAt r' = m.queueAt r' := by
    intro r' hne
    refine queueAt_congr ⟨open_of_update, ?_⟩ rfl
    rintro ⟨v, hv⟩
    refine ⟨v, (Function.update_of_ne ?_ _ _).trans hv⟩
    rintro rfl
    exact hne (Option.some.inj (hv.symm.trans hpending))
  have hself : (m.take idx ph).queueAt r = 0 := if_neg hclosed
  have hqueue : m.queueAt r = m.queueOf r := if_pos ⟨_, hpending⟩
  refine ⟨?_, hlt, hclosed⟩
  have hmem := Finset.mem_range.mpr hlt
  have hlength : (m.take idx ph).handshakes.length = m.handshakes.length := rfl
  unfold backlog
  rw [hlength, ← Finset.add_sum_erase _ _ hmem, ← Finset.add_sum_erase _ m.queueAt hmem, hself,
    hqueue, zero_add, add_comm]
  congr 1
  exact Finset.sum_congr rfl fun r' hr' => hrest r' (Finset.ne_of_mem_erase hr')

/-- Retransmission leaves the queues as they are and opens none. -/
structure Settles (m m' : HandshakeManager P) : Prop where
  length : m'.handshakes.length = m.handshakes.length
  pending : ∀ v r, m'.pending v = some r → m.pending v = some r
  handshakes : ∀ (r : Ref) (ph : PendingHandshake P), m'.handshakes[r]? = some ph →
    ∃ ph' : PendingHandshake P, m.handshakes[r]? = some ph' ∧
    ph.remoteVpnIP = ph'.remoteVpnIP ∧ ph.pendingPackets = ph'.pendingPackets

theorem Settles.refl (m : HandshakeManager P) : m.Settles m :=
  ⟨rfl, fun _ _ h => h, fun _ ph h => ⟨ph, h, rfl, rfl⟩⟩

theorem Settles.trans {m₁ m₂ m₃ : HandshakeManager P} (h : m₁.Settles m₂) (h' : m₂.Settles m₃) :
    m₁.Settles m₃ := by
  refine ⟨h'.length.trans h.length, fun v r hr => h.pending v r (h'.pending v r hr), ?_⟩
  intro r ph hr
  obtain ⟨ph₂, hr₂, hip, hqueue⟩ := h'.handshakes r ph hr
  obtain ⟨ph₁, hr₁, hip', hqueue'⟩ := h.handshakes r ph₂ hr₂
  exact ⟨ph₁, hr₁, hip.trans hip', hqueue.trans hqueue'⟩

theorem settles_retryOne (env : Env P) (m : HandshakeManager P) (v : Addr) :
    m.Settles (m.retryOne env v).1 := by
  unfold retryOne
  cases hpending : m.pending v with
  | none => exact .refl m
  | some r =>
      cases hr : m.handshakes[r]? with
      | none =>
          simp only [hr]
          exact .refl m
      | some ph =>
          simp only [hr]
          split_ifs
          · exact .refl m
          · refine ⟨rfl, fun v' r' h => ?_, fun _ ph h => ⟨ph, h, rfl, rfl⟩⟩
            by_cases heq : v' = v
            · simp [heq] at h
            · exact (Function.update_of_ne heq _ _).symm.trans h
          · refine ⟨by simp, fun _ _ h => h, fun r' ph' h => ?_⟩
            by_cases heq : r = r'
            · subst heq
              have hlt : r < m.handshakes.length := (List.getElem?_eq_some_iff.mp hr).1
              rw [List.getElem?_set_self hlt] at h
              obtain rfl := Option.some.inj h
              exact ⟨ph, hr, rfl, rfl⟩
            · rw [List.getElem?_set_ne heq] at h
              exact ⟨ph', h, rfl, rfl⟩

theorem settles_retryPending (m : HandshakeManager P) (env : Env P) :
    m.Settles (m.retryPending env).1 :=
  retryPending_rule (fun m' _ => m.Settles m') m env (.refl m)
    fun m' _ v h => h.trans (settles_retryOne env m' v)

theorem Settles.queueOf (h : m.Settles m') (r : Ref) : m'.queueOf r = m.queueOf r := by
  cases hr : m'.handshakes[r]? with
  | none =>
      have hnone : m.handshakes[r]? = none := by
        rw [List.getElem?_eq_none_iff] at hr ⊢
        rw [← h.length]
        exact hr
      unfold HandshakeManager.queueOf
      rw [hr, hnone]
  | some ph =>
      obtain ⟨ph', hr', -, hqueue⟩ := h.handshakes r ph hr
      rw [queueOf_eq hr, queueOf_eq hr', hqueue]

theorem Settles.backlog_le (h : m.Settles m') : m'.backlog ≤ m.backlog :=
  HandshakeManager.backlog_le h.length h.queueOf fun _ ⟨v, hv⟩ => ⟨v, h.pending v _ hv⟩

end HandshakeManager

/-! ### Sessions

A session object is asked and counted up, but it stays one with the same peer and the same key, and
its window forgets nothing. -/

/-- A session goes on: it is one with the same peer, it opens with the same key, and it takes no
counter that it would not have taken before. -/
structure HostInfo.Continues (host host' : HostInfo) : Prop where
  vpnIP : host'.vpnIP = host.vpnIP
  recvCipher : host'.recvCipher = host.recvCipher
  stale : ∀ c, host.Stale c → host'.Stale c

theorem HostInfo.Continues.refl (host : HostInfo) : host.Continues host := ⟨rfl, rfl, fun _ h => h⟩

theorem HostInfo.continues_counter (host : HostInfo) (counter : UInt64) :
    host.Continues { host with counter } := ⟨rfl, rfl, fun _ h => h⟩

theorem HostInfo.continues_receive (host : HostInfo) (hdr : Header) (pkt : Bytes) :
    host.Continues (host.receive P hdr pkt).1 := by
  refine ⟨?_, ?_, fun c hc => stale_receive host hdr pkt (.inr hc)⟩
  · rw [HostInfo.receive_eq]
  · rw [HostInfo.receive_eq]

/-- The session whose replay window the next step asks. -/
def Task.asks : Task P → Option Ref
  | .checkReplay _ _ _ r => some r
  | _ => none

/-- What the next step of a call can do to the sessions. -/
inductive HostStep (m : HostMap) : Task P → HostMap → Prop where
  | idle {t : Task P} (h : ∀ r ∈ t.asks, m.hosts[r]? = none) : HostStep m t m
  | send (env : Env P) {r : Ref} (pkts : List Bytes) {host : HostInfo}
      (hr : m.hosts[r]? = some host) :
      HostStep m (.send env r pkts) (m.assign r { host with counter := host.counter + 1 })
  | judge (env : Env P) (pkt : Bytes) (hdr : Header) {r : Ref} {host : HostInfo}
      (hr : m.hosts[r]? = some host) :
      HostStep m (.checkReplay env pkt hdr r) (m.assign r (host.receive P hdr pkt).1)
  | add (env : Env P) (o : Origin) (h : HostInfo) (pending : List Bytes) :
      HostStep m (.add env o h pending) (m.add h)
  | remove (ip : Addr) : HostStep m (.remove ip) (m.remove ip)

namespace HostMap

variable {m m' : HostMap} {r : Ref} {v : Addr} {t : Task P}

/-- Session `r` is one with `v`. -/
def Peer (m : HostMap) (r : Ref) (v : Addr) : Prop := ∃ h, m.hosts[r]? = some h ∧ h.vpnIP = v

/-- Every session is found under the address of its peer. -/
def Named (m : HostMap) : Prop := ∀ v r, m.byVpnIP v = some r → m.Peer r v

theorem continues_assign {r' : Ref} {host host' : HostInfo} (hr' : m.hosts[r']? = some host)
    (hgoes : host.Continues host') {g : HostInfo} (hg : m.hosts[r]? = some g) :
    ∃ g', (m.assign r' host').hosts[r]? = some g' ∧ g.Continues g' := by
  by_cases heq : r = r'
  · subst heq
    obtain rfl := Option.some.inj (hr'.symm.trans hg)
    exact ⟨host', by rw [hosts_assign hr', if_pos rfl], hgoes⟩
  · exact ⟨g, by rw [hosts_assign hr', if_neg heq, hg], .refl g⟩

end HostMap

/-- No step ends a session. -/
theorem HostStep.continues {m m' : HostMap} {t : Task P} (h : HostStep m t m') {r : Ref}
    {g : HostInfo} (hg : m.hosts[r]? = some g) :
    ∃ g', m'.hosts[r]? = some g' ∧ g.Continues g' := by
  cases h with
  | idle => exact ⟨g, hg, .refl g⟩
  | send env pkts hr => exact HostMap.continues_assign hr (HostInfo.continues_counter _ _) hg
  | judge env pkt hdr hr => exact HostMap.continues_assign hr (HostInfo.continues_receive _ _ _) hg
  | add env o h pending =>
      have hlt : r < m.hosts.length := (List.getElem?_eq_some_iff.mp hg).1
      exact ⟨g, (List.getElem?_append_left hlt).trans hg, .refl g⟩
  | remove ip => exact ⟨g, hg, .refl g⟩

namespace HostMap

variable {m m' : HostMap} {r : Ref} {v : Addr} {t : Task P}

theorem Peer.step (hpeer : m.Peer r v) (h : HostStep m t m') : m'.Peer r v := by
  obtain ⟨g, hg, rfl⟩ := hpeer
  obtain ⟨g', hg', hgoes⟩ := h.continues hg
  exact ⟨g', hg', hgoes.vpnIP⟩

theorem peer_add (m : HostMap) (h : HostInfo) : (m.add h).Peer m.hosts.length h.vpnIP :=
  ⟨h, by simp [add], rfl⟩

theorem Named.step (hm : m.Named) (h : HostStep m t m') : m'.Named := by
  have hkeep := fun v r (hv : m.byVpnIP v = some r) => (hm v r hv).step h
  cases h with
  | idle => exact hm
  | send | judge => exact hkeep
  | add env o h pending =>
      intro v r hv
      by_cases heq : v = h.vpnIP
      · rw [heq] at hv ⊢
        simp only [add, Function.update_self, Option.some.injEq] at hv
        rw [← hv]
        exact peer_add m h
      · exact hkeep v r ((Function.update_of_ne heq _ _).symm.trans hv)
  | remove ip =>
      intro v r hv
      by_cases heq : v = ip
      · simp [remove, heq] at hv
      · exact hkeep v r ((Function.update_of_ne heq _ _).symm.trans hv)

end HostMap

namespace Task

variable {s : Shared P} {t : Task P}

theorem hostStep_idle (hasks : t.asks = none)
    (h : (Task.step s t).1.node.hostmap = s.node.hostmap) :
    HostStep s.node.hostmap t (Task.step s t).1.node.hostmap := by
  rw [h]
  exact .idle (by simp [hasks])

theorem hostStep (s : Shared P) (t : Task P) :
    HostStep s.node.hostmap t (Task.step s t).1.node.hostmap := by
  cases t with
  | send env r pkts =>
      cases pkts with
      | nil => exact hostStep_idle rfl rfl
      | cons pkt pkts =>
          cases hr : s.node.hostmap.hosts[r]? with
          | none => exact hostStep_idle rfl (by rw [step_send_none hr])
          | some host =>
              rw [step_send hr]
              exact .send env (pkt :: pkts) hr
  | checkReplay env pkt hdr r =>
      cases hr : s.node.hostmap.hosts[r]? with
      | none =>
          rw [step_checkReplay_none hr]
          exact .idle fun r' hr' => Option.some.inj hr' ▸ hr
      | some host =>
          have hjudge : HostStep s.node.hostmap (.checkReplay env pkt hdr r)
              (s.node.hostmap.assign r (host.receive P hdr pkt).1) := .judge env pkt hdr hr
          rcases hreceive : host.receive P hdr pkt with ⟨host', err | plaintext⟩
          · rw [hreceive] at hjudge
            rw [step_checkReplay_error hr hreceive]
            exact hjudge
          · rw [hreceive] at hjudge
            rw [step_checkReplay hr hreceive]
            exact hjudge
  | add env o h pending => exact .add env o h pending
  | remove ip => exact .remove ip
  -- the other tasks do not write to the table
  | inside | getPeerCert | getAddrs | encrypt | startHandshake | handleStage0 =>
      refine hostStep_idle rfl ?_
      simp only [Task.step]
      split <;> rfl
  | readStage1 =>
      refine hostStep_idle rfl ?_
      simp only [Task.step]
      split
      · rfl
      · split <;> rfl
  | handleStage1 env pkt =>
      rcases step_handleStage1_cases s env pkt with ⟨hdr, r, ph, -, -, -, hstep⟩ | ⟨-, hstep⟩
      · exact hostStep_idle rfl (by rw [hstep]; rfl)
      · exact hostStep_idle rfl (by rw [hstep])
  | outside env pkt src =>
      refine hostStep_idle rfl ?_
      simp only [Task.step, dispatch]
      split
      · rfl
      · split
        · rfl
        · rename_i hdr _
          obtain ⟨lighthouse, hnode⟩ := s.node.handleLightHouse_fst env pkt hdr src
          split_ifs
          · split <;> rfl
          · rfl
          · rfl
          · rfl
          · rw [hnode]
          · rfl
          · split <;> rfl
          · rfl
  | deliver =>
      refine hostStep_idle rfl ?_
      simp only [Task.step, Interface.deliver]
      split <;> rfl
  | allowOutbound | queuePacket | storeCert | retryPending | runExpiry | advertise | done =>
      exact hostStep_idle rfl rfl

end Task

/-! ### What a step leaves behind

Of the packets that the notes of a step are about, some have come further: admitted by the firewall
on their way out, sealed, opened, or written to the TUN device. -/

/-- A packet that the firewall admitted on its way out. -/
def Note.admitted : Note → Multiset Bytes
  | .effect (.outbound pkt _ _ true) => {pkt}
  | _ => 0

/-- A packet that was sealed. -/
def Note.sealedPacket : Note → Multiset Bytes
  | .encrypted call => {call.plaintext}
  | _ => 0

/-- A packet that passed decryption. -/
def Note.opened : Note → Multiset Bytes
  | .effect (.decrypted _ _ plaintext) => {plaintext}
  | _ => 0

/-- A packet that was written to the TUN device. -/
def Note.written : Note → Multiset Bytes
  | .effect (.tunWrite data) => {data}
  | _ => 0

/-- The note is about no packet. -/
structure Note.Blank (note : Note) : Prop where
  admitted : note.admitted = 0
  sealed : note.sealedPacket = 0
  opened : note.opened = 0
  written : note.written = 0

namespace Task

/-- The packet that waits for the firewall on its way out. -/
def reads : Task P → Multiset Bytes
  | .inside _ pkt => {pkt}
  | .allowOutbound _ _ pkt _ _ => {pkt}
  | _ => 0

/-- The packet that waits for the firewall on its way in. -/
def delivers : Task P → Multiset Bytes
  | .deliver _ _ plaintext => {plaintext}
  | _ => 0

/-- The task is about to seal a packet. -/
def Seals : Task P → Prop
  | .encrypt .. => True
  | _ => False

/-- The task is about to open one. -/
def Opens : Task P → Prop
  | .checkReplay .. => True
  | _ => False

/-- A step admits what its call has read, writes what its call has opened, and leaves sealing and
opening to those whose business it is. -/
structure Judges (s : Shared P) (t : Task P) : Prop where
  outbound : Program.tally Note.admitted (Task.step s t).2.1 + (Task.step s t).2.2.reads ≤ t.reads
  inbound : Program.tally Note.written (Task.step s t).2.1 + (Task.step s t).2.2.delivers
    ≤ t.delivers + Program.tally Note.opened (Task.step s t).2.1
  seals : ¬ t.Seals → ∀ note ∈ (Task.step s t).2.1, note.sealedPacket = 0
  opens : ¬ t.Opens → ∀ note ∈ (Task.step s t).2.1, note.opened = 0

variable {s : Shared P} {t : Task P}

/-- A step of a call that has no such packet. -/
theorem judges_of {s' : Shared P} {t' : Task P} {notes : List Note}
    (hstep : Task.step s t = (s', notes, t')) (hnotes : ∀ note ∈ notes, note.Blank)
    (hreads : t'.reads ≤ t.reads) (hdelivers : t'.delivers = 0) : Judges s t := by
  refine ⟨?_, ?_, ?_, ?_⟩
  · rw [hstep]
    simp only
    rw [Program.tally_eq_zero fun note hnote => (hnotes note hnote).admitted, zero_add]
    exact hreads
  · rw [hstep]
    simp only
    rw [Program.tally_eq_zero fun note hnote => (hnotes note hnote).written, hdelivers]
    exact Multiset.zero_le _
  · rw [hstep]
    exact fun _ note hnote => (hnotes note hnote).sealed
  · rw [hstep]
    exact fun _ note hnote => (hnotes note hnote).opened

theorem blank_map_effect {effs : List Effect} (hwrites : ∀ e ∈ effs, e.IsWrite)
    (htun : NoTun effs) : ∀ note ∈ effs.map Note.effect, note.Blank := by
  intro note hnote
  obtain ⟨e, he, rfl⟩ := List.mem_map.mp hnote
  cases e with
  | writeTo data addr ok => exact ⟨rfl, rfl, rfl, rfl⟩
  | tunWrite data => exact absurd he (htun data)
  | _ => exact (hwrites _ he).elim

theorem blank_map_quiet {effs : List Effect} (h : ∀ e ∈ effs, e.IsQuietWrite) :
    ∀ note ∈ effs.map Note.effect, note.Blank :=
  blank_map_effect (fun e he => (h e he).isWrite) (noTun_of_isQuietWrite h)

theorem blank_append {notes : List Note} {last : Note} (h : ∀ note ∈ notes, note.Blank)
    (hlast : last.Blank) : ∀ note ∈ notes ++ [last], note.Blank := by
  intro note hmem
  rcases List.mem_append.mp hmem with hmem | hmem
  · exact h note hmem
  · rw [List.mem_singleton.mp hmem]
    exact hlast

theorem judges_allowOutbound (s : Shared P) (env : Env P) (v : Addr) (pkt : Bytes)
    (host : Option Ref) (groups : List GoString) :
    Judges s (.allowOutbound env v pkt host groups) := by
  rcases hverdict : s.node.fw.allowOutbound env.now v groups (dstPortFromIPv4 pkt)
    (protoFromIPv4 pkt) with ⟨fw, allowed⟩
  have hstep := step_allowOutbound s host hverdict
  have hnext : ∀ t' : Task P, t' = (if allowed then
      host.elim (.getPeerCert env v pkt) fun r => .send env r [pkt] else .done) →
      t'.reads = 0 ∧ t'.delivers = 0 := by
    rintro t' rfl
    cases allowed with
    | false => exact ⟨rfl, rfl⟩
    | true => cases host with
      | none => exact ⟨rfl, rfl⟩
      | some r => exact ⟨rfl, rfl⟩
  obtain ⟨hreads, hdelivers⟩ := hnext _ rfl
  refine ⟨?_, ?_, ?_, ?_⟩
  · rw [hstep]
    simp only
    rw [hreads, add_zero]
    cases allowed with
    | false => simp [Note.admitted]
    | true => simp [Note.admitted, reads]
  · rw [hstep]
    simp only
    rw [hdelivers]
    simp [Note.written]
  · rw [hstep]
    simp [Note.sealedPacket]
  · rw [hstep]
    simp [Note.opened]

theorem judges_deliver (s : Shared P) (env : Env P) (host : HostInfo) (plaintext : Bytes) :
    Judges s (.deliver env host plaintext) := by
  have hstep : Task.step s (.deliver env host plaintext)
      = (⟨(s.node.deliver env host plaintext).1, s.responders⟩,
        (s.node.deliver env host plaintext).2.map .effect, .done) := rfl
  have heffs : (s.node.deliver env host plaintext).2 = [] ∨ ∃ groups tracked allowed,
      (s.node.deliver env host plaintext).2 = .inbound plaintext groups tracked allowed ::
        if allowed then [.tunWrite plaintext] else [] := by
    unfold Interface.deliver
    split
    · exact .inl rfl
    · exact .inr ⟨_, _, _, rfl⟩
  rcases heffs with heffs | ⟨groups, tracked, allowed, heffs⟩
  · rw [heffs] at hstep
    exact judges_of hstep (by simp) (le_refl _) rfl
  · refine ⟨?_, ?_, ?_, ?_⟩
    · rw [hstep]
      cases allowed <;> simp [heffs, Note.admitted, reads]
    · rw [hstep]
      cases allowed <;> simp [heffs, Note.written, Note.opened, delivers]
    · rw [hstep]
      cases allowed <;> simp [heffs, Note.sealedPacket]
    · rw [hstep]
      cases allowed <;> simp [heffs, Note.opened]

theorem judges_checkReplay (s : Shared P) (env : Env P) (pkt : Bytes) (hdr : Header) (r : Ref) :
    Judges s (.checkReplay env pkt hdr r) := by
  cases hr : s.node.hostmap.hosts[r]? with
  | none => exact judges_of (step_checkReplay_none hr) (by simp) (le_refl _) rfl
  | some host =>
      rcases hreceive : host.receive P hdr pkt with ⟨host', err | plaintext⟩
      · exact judges_of (step_checkReplay_error hr hreceive) (by simp) (le_refl _) rfl
      · have hstep : Task.step s (.checkReplay env pkt hdr r) = _ := step_checkReplay hr hreceive
        refine ⟨?_, ?_, ?_, fun hopens => (hopens trivial).elim⟩
        · rw [hstep]
          simp [Note.admitted, reads]
        · rw [hstep]
          simp [Note.written, Note.opened, delivers]
        · rw [hstep]
          simp [Note.sealedPacket]

theorem judges_outside (s : Shared P) (env : Env P) (pkt : Bytes) (src : UDPAddr) :
    Judges s (.outside env pkt src) := by
  have hstep : Task.step s (.outside env pkt src) = dispatch s env pkt src := rfl
  unfold dispatch at hstep
  split at hstep
  · exact judges_of hstep (by simp) (le_refl _) rfl
  · split at hstep
    · exact judges_of hstep (by simp) (le_refl _) rfl
    · rename_i hdr _
      split_ifs at hstep
      · split at hstep
        · refine judges_of hstep (blank_map_quiet ?_) (le_refl _) rfl
          split
          · exact Punchy.quiet_respondToPunch _ env src
          · simp
        · exact judges_of hstep (by simp) (le_refl _) rfl
      · exact judges_of hstep (by simp) (le_refl _) rfl
      · exact judges_of hstep (by simp) (le_refl _) rfl
      · exact judges_of hstep (by simp) (le_refl _) rfl
      · exact judges_of hstep (blank_map_quiet (s.node.quiet_handleLightHouse env pkt hdr src))
          (le_refl _) rfl
      · exact judges_of hstep (blank_map_effect (by simp [Interface.handleTest])
          (noTun_send env _ src)) (le_refl _) rfl
      · split at hstep
        · exact judges_of hstep (by simp) (le_refl _) rfl
        · exact judges_of hstep (by simp) (le_refl _) rfl
      · exact judges_of hstep (by simp) (le_refl _) rfl

theorem judges (s : Shared P) (t : Task P) : Judges s t := by
  cases t with
  | inside env pkt =>
      cases hdst : dstIPFromIPv4 pkt with
      | none => exact judges_of (step_inside_none hdst) (by simp) (Multiset.zero_le _) rfl
      | some v => exact judges_of (step_inside hdst) (by simp) (le_refl _) rfl
  | allowOutbound env v pkt host groups => exact judges_allowOutbound s env v pkt host groups
  | getPeerCert env v pkt =>
      cases hcert : s.node.peerCerts v with
      | none => exact judges_of (step_getPeerCert_none hcert) (by simp) (le_refl _) rfl
      | some cert => exact judges_of (step_getPeerCert hcert) (by simp) (le_refl _) rfl
  | getAddrs env v pkt cert =>
      cases haddrs : s.node.lighthouse.getAddrs v with
      | nil =>
          exact judges_of (step_getAddrs_nil env pkt cert haddrs)
            (blank_map_quiet (s.node.lighthouse.quiet_flatMap_send env _ _)) (le_refl _) rfl
      | cons addr addrs => exact judges_of (step_getAddrs_cons haddrs) (by simp) (le_refl _) rfl
  | startHandshake env v pkt addr cert =>
      have hnotes := blank_map_effect (s.node.handshakeMgr.startHandshake_writes env v addr cert)
        (s.node.handshakeMgr.noTun_startHandshake env v addr cert)
      rcases hstart : s.node.handshakeMgr.startHandshake env v addr cert with ⟨m, effs, err | ⟨⟨⟩⟩⟩
      · rw [hstart] at hnotes
        refine judges_of (step_startHandshake_error pkt hstart)
          (blank_append ?_ ⟨rfl, rfl, rfl, rfl⟩) (le_refl _) rfl
        exact hnotes
      · rw [hstart] at hnotes
        refine judges_of (step_startHandshake pkt hstart) (blank_append ?_ ⟨rfl, rfl, rfl, rfl⟩)
          (le_refl _) rfl
        exact hnotes
  | send env r pkts =>
      cases pkts with
      | nil => exact judges_of rfl (by simp) (le_refl _) rfl
      | cons pkt pkts =>
          cases hr : s.node.hostmap.hosts[r]? with
          | none => exact judges_of (step_send_none hr) (by simp) (le_refl _) rfl
          | some host =>
              exact judges_of (step_send hr)
                (List.forall_mem_singleton.mpr ⟨rfl, rfl, rfl, rfl⟩) (le_refl _) rfl
  | encrypt env r c pkt pkts =>
      cases hr : s.node.hostmap.hosts[r]? with
      | none => exact judges_of (step_encrypt_none hr) (by simp) (le_refl _) rfl
      | some host =>
          have hstep : Task.step s (.encrypt env r c pkt pkts) = _ := step_encrypt hr
          refine ⟨?_, ?_, fun hseals => (hseals trivial).elim, ?_⟩
          · rw [hstep]
            simp [Note.admitted, Env.send, reads]
          · rw [hstep]
            simp [Note.written, Env.send, delivers]
          · rw [hstep]
            simp [Note.opened, Env.send]
  | outside env pkt src => exact judges_outside s env pkt src
  | checkReplay env pkt hdr r => exact judges_checkReplay s env pkt hdr r
  | deliver env host plaintext => exact judges_deliver s env host plaintext
  | handleStage0 env pkt src =>
      have hnotes := blank_map_effect (s.node.handshakeMgr.handleStage0_writes env pkt src)
        (s.node.handshakeMgr.noTun_handleStage0 env pkt src)
      rcases hres : s.node.handshakeMgr.handleStage0 env pkt src with ⟨sent, err | host⟩
      · rw [hres] at hnotes
        exact judges_of (step_handleStage0_error hres) hnotes (le_refl _) rfl
      · rw [hres] at hnotes
        refine judges_of (step_handleStage0 hres) (blank_append ?_ ⟨rfl, rfl, rfl, rfl⟩)
          (le_refl _) rfl
        exact hnotes
  | handleStage1 env pkt =>
      rcases step_handleStage1_cases s env pkt with ⟨hdr, r, ph, -, -, -, hstep⟩ | ⟨-, hstep⟩
      · exact judges_of hstep (List.forall_mem_singleton.mpr ⟨rfl, rfl, rfl, rfl⟩) (le_refl _) rfl
      · exact judges_of hstep (by simp) (le_refl _) rfl
  | readStage1 env pkt r =>
      cases hr : s.node.handshakeMgr.handshakes[r]? with
      | none => exact judges_of (step_readStage1_none hr) (by simp) (le_refl _) rfl
      | some ph =>
          cases hread : s.node.handshakeMgr.readStage1 env.now ph pkt with
          | error err => exact judges_of (step_readStage1_error hr hread) (by simp) (le_refl _) rfl
          | ok st => exact judges_of (step_readStage1 hr hread) (by simp) (le_refl _) rfl
  | add env o h pending =>
      exact judges_of rfl (List.forall_mem_singleton.mpr ⟨rfl, rfl, rfl, rfl⟩) (le_refl _) rfl
  | retryPending env =>
      exact judges_of rfl (blank_map_effect (s.node.handshakeMgr.retryPending_writes env)
        (s.node.handshakeMgr.noTun_retryPending env)) (le_refl _) rfl
  | runExpiry env =>
      exact judges_of rfl (List.forall_mem_singleton.mpr ⟨rfl, rfl, rfl, rfl⟩) (le_refl _) rfl
  | advertise env =>
      exact judges_of rfl (blank_map_quiet (s.node.lighthouse.quiet_flatMap_send env _ _))
        (le_refl _) rfl
  | queuePacket | storeCert | remove | done => exact judges_of rfl (by simp) (le_refl _) rfl

end Task

/-! ### Where a packet is

Once it is admitted, a packet is in the hands of a call, in a queue, or sealed.  What a call has, it
has for one address. -/

/-- The admitted packets in the hands of a call.  `HandleStage1` has the queue of the handshake it
took out, even before it looks at it. -/
def Task.carries (s : Shared P) : Task P → Multiset Bytes
  | .getPeerCert _ _ pkt => {pkt}
  | .getAddrs _ _ pkt _ => {pkt}
  | .startHandshake _ _ pkt _ _ => {pkt}
  | .queuePacket _ pkt => {pkt}
  | .readStage1 _ _ r => s.node.handshakeMgr.queueOf r
  | .add _ _ _ pending => pending
  | .storeCert _ _ _ pending => pending
  | .send _ _ pkts => pkts
  | .encrypt _ _ _ pkt pkts => pkt ::ₘ (pkts : Multiset Bytes)
  | _ => 0

/-- The packets a call has are for the address it has them for, and the header it has is that of its
packet. -/
def Task.Directed (s : Shared P) : Task P → Prop
  | .allowOutbound _ v pkt host _ => For v pkt ∧ ∀ r ∈ host, s.node.hostmap.Peer r v
  | .getPeerCert _ v pkt => For v pkt
  | .getAddrs _ v pkt _ => For v pkt
  | .startHandshake _ v pkt _ _ => For v pkt
  | .queuePacket v pkt => For v pkt
  | .readStage1 _ _ r => s.node.handshakeMgr.Closed r
  | .add _ _ h pending => ∀ pkt ∈ pending, For h.vpnIP pkt
  | .storeCert _ r h pending => s.node.hostmap.Peer r h.vpnIP ∧ ∀ pkt ∈ pending, For h.vpnIP pkt
  | .send _ r pkts => ∃ v, s.node.hostmap.Peer r v ∧ ∀ pkt ∈ pkts, For v pkt
  | .encrypt _ r _ pkt pkts => ∃ v, s.node.hostmap.Peer r v ∧ For v pkt ∧ ∀ p ∈ pkts, For v p
  | .checkReplay _ pkt hdr _ => Header.parse pkt = .ok hdr
  | _ => True

/-- So are those in the queues, and those that were sealed. -/
structure Routed (s : Shared P) (log : List Note) : Prop where
  named : s.node.hostmap.Named
  anchored : s.node.handshakeMgr.core.Anchored
  queues : s.node.handshakeMgr.QueuesFor
  sealed : ∀ call, .encrypted call ∈ log →
    ∃ v, s.node.hostmap.Peer call.session v ∧ For v call.plaintext

namespace Task

variable {s : Shared P} {t u : Task P} {log : List Note}

/-! #### The manager -/

open HandshakeManager in
/-- The queues stay with the addresses they are for. -/
theorem step_queues (hqueues : s.node.handshakeMgr.QueuesFor)
    (hanchored : s.node.handshakeMgr.core.Anchored) (ht : t.Directed s) :
    (Task.step s t).1.node.handshakeMgr.QueuesFor ∧
      (Task.step s t).1.node.handshakeMgr.core.Anchored := by
  generalize hm : (Task.step s t).1.node.handshakeMgr = m
  have hstep : ManagerStep s.node.handshakeMgr t m := hm ▸ managerStep s t
  cases hstep with
  | idle => exact ⟨hqueues, hanchored⟩
  | startHandshake env v pkt addr cert =>
      refine ⟨?_, Anchored.executes hanchored
        (call_executes s.node.handshakeMgr (.startHandshake env v addr cert))⟩
      rcases s.node.handshakeMgr.startHandshake_cases env v addr cert with
        ⟨res, hres⟩ | ⟨ph, res, -, hnew, hres⟩
      · rw [hres]
        exact hqueues
      · rw [hres]
        intro r ph' hr pkt' hpkt'
        obtain ⟨idx, hs, w, wire, -, -, -, -, rfl⟩ := newPending_ok.mp hnew
        rcases getElem?_append_singleton hr with hr | ⟨-, rfl⟩
        · exact hqueues r ph' hr pkt' hpkt'
        · cases hpkt'
  | queuePacket v pkt =>
      refine ⟨?_, Anchored.executes hanchored
        (call_executes s.node.handshakeMgr (.queuePacket v pkt))⟩
      intro r ph hr pkt' hpkt'
      rcases handshakes_queuePacket hr with hr | ⟨hv, ph', hr', hip, kept, hkept, hqueue⟩
      · exact hqueues r ph hr pkt' hpkt'
      · rw [hip]
        rw [hqueue, List.mem_append, List.mem_singleton] at hpkt'
        rcases hpkt' with hold | rfl
        · exact hqueues r ph' hr' pkt' (hkept.subset hold)
        · rw [hanchored.of_core.key_eq hv hr']
          exact ht
  | @take env data idx ph hnames =>
      refine ⟨hqueues, ?_⟩
      obtain ⟨-, -, -, hget⟩ := hnames
      obtain ⟨r, hidx, hr⟩ := Option.bind_eq_some_iff.mp hget
      exact Anchored.step hanchored (.take hidx hr)
  | retryPending env =>
      refine ⟨?_, Anchored.executes hanchored
        (call_executes s.node.handshakeMgr (.retryPending env))⟩
      intro r ph hr pkt hpkt
      obtain ⟨ph', hr', hip, hqueue⟩ := (settles_retryPending _ env).handshakes r ph hr
      rw [hip]
      rw [hqueue] at hpkt
      exact hqueues r ph' hr' pkt hpkt

open HandshakeManager in
/-- Nothing gets into a closed queue, and it stays closed. -/
theorem step_closed {r : Ref} (h : s.node.handshakeMgr.Closed r) (t : Task P) :
    (Task.step s t).1.node.handshakeMgr.Closed r ∧
      (Task.step s t).1.node.handshakeMgr.queueOf r = s.node.handshakeMgr.queueOf r := by
  generalize hm : (Task.step s t).1.node.handshakeMgr = m
  have hstep : ManagerStep s.node.handshakeMgr t m := hm ▸ managerStep s t
  cases hstep with
  | idle => exact ⟨h, rfl⟩
  | startHandshake env v pkt addr cert =>
      rcases s.node.handshakeMgr.startHandshake_cases env v addr cert with
        ⟨res, hres⟩ | ⟨ph, res, hidle, hnew, hres⟩
      · rw [hres]
        exact ⟨h, rfl⟩
      · rw [hres]
        obtain ⟨idx, hs, w, wire, -, -, -, -, rfl⟩ := newPending_ok.mp hnew
        refine ⟨⟨?_, mt (open_insert hidle h.1).mp h.2⟩, queueOf_insert h.1⟩
        exact Nat.lt_of_lt_of_le h.1 (by simp [HandshakeManager.insert])
  | queuePacket v pkt =>
      refine ⟨⟨?_, ?_⟩, queueOf_queuePacket_of_ne fun hv => h.2 ⟨v, hv⟩⟩
      · rw [length_queuePacket]
        exact h.1
      · unfold Open
        rw [pending_queuePacket]
        exact h.2
  | take env _ => exact ⟨⟨h.1, mt open_of_update h.2⟩, rfl⟩
  | retryPending env =>
      have hsettles := s.node.handshakeMgr.settles_retryPending env
      refine ⟨⟨?_, ?_⟩, hsettles.queueOf r⟩
      · rw [hsettles.length]
        exact h.1
      · rintro ⟨v, hv⟩
        exact h.2 ⟨v, hsettles.pending v r hv⟩

/-! #### One step

For every step, what it takes from one place it has put into another, or dropped. -/

/-- A step of another call leaves a call what it has. -/
theorem Directed.other (hu : u.Directed s) (t : Task P) :
    u.Directed (Task.step s t).1 ∧ u.carries (Task.step s t).1 = u.carries s := by
  have hpeer := fun (r : Ref) (v : Addr) (h : s.node.hostmap.Peer r v) => h.step (hostStep s t)
  cases u with
  | allowOutbound env v pkt host groups => exact ⟨⟨hu.1, fun r hr => hpeer r v (hu.2 r hr)⟩, rfl⟩
  | readStage1 env pkt r =>
      obtain ⟨hclosed, hqueue⟩ := step_closed hu t
      exact ⟨hclosed, by rw [carries, carries, hqueue]⟩
  | storeCert env r h pending => exact ⟨⟨hpeer r _ hu.1, hu.2⟩, rfl⟩
  | send env r pkts =>
      obtain ⟨v, hv, hpkts⟩ := hu
      exact ⟨⟨v, hpeer r v hv, hpkts⟩, rfl⟩
  | encrypt env r c pkt pkts =>
      obtain ⟨v, hv, hpkts⟩ := hu
      exact ⟨⟨v, hpeer r v hv, hpkts⟩, rfl⟩
  | _ => exact ⟨hu, rfl⟩

/-- What a step does with packets. -/
structure Moves (s : Shared P) (t : Task P) : Prop where
  directed : (Task.step s t).2.2.Directed (Task.step s t).1
  sealed : ∀ call, .encrypted call ∈ (Task.step s t).2.1 →
    ∃ v, s.node.hostmap.Peer call.session v ∧ For v call.plaintext
  balance : Program.tally Note.sealedPacket (Task.step s t).2.1
      + (Task.step s t).2.2.carries (Task.step s t).1 + (Task.step s t).1.node.handshakeMgr.backlog
    ≤ t.carries s + s.node.handshakeMgr.backlog
      + Program.tally Note.admitted (Task.step s t).2.1

/-- A step that seals nothing. -/
theorem moves_of {s' : Shared P} {t' : Task P} {notes : List Note}
    (hstep : Task.step s t = (s', notes, t')) (hseals : ¬ t.Seals) (hdirected : t'.Directed s')
    (hbalance : t'.carries s' + s'.node.handshakeMgr.backlog
      ≤ t.carries s + s.node.handshakeMgr.backlog + Program.tally Note.admitted notes) :
    Moves s t := by
  have hnotes := (judges s t).seals hseals
  refine ⟨?_, ?_, ?_⟩
  · rw [hstep]
    exact hdirected
  · intro call hcall
    exact absurd (hnotes _ hcall) (Multiset.singleton_ne_zero call.plaintext)
  · rw [Program.tally_eq_zero hnotes, zero_add, hstep]
    exact hbalance

/-- A step that passes packets on within its call. -/
theorem moves_within {s' : Shared P} {t' : Task P} {notes : List Note}
    (hstep : Task.step s t = (s', notes, t')) (hseals : ¬ t.Seals) (hdirected : t'.Directed s')
    (hcarries : t'.carries s' ≤ t.carries s)
    (hmanager : s'.node.handshakeMgr = s.node.handshakeMgr) : Moves s t := by
  refine moves_of hstep hseals hdirected ?_
  rw [hmanager]
  exact (add_le_add hcarries (le_refl _)).trans (Multiset.le_add_right _ _)

/-- A step that ends its call, or has nothing to do with packets. -/
theorem moves_empty {s' : Shared P} {t' : Task P} {notes : List Note}
    (hstep : Task.step s t = (s', notes, t')) (hseals : ¬ t.Seals) (hdirected : t'.Directed s')
    (hcarries : t'.carries s' = 0)
    (hmanager : s'.node.handshakeMgr = s.node.handshakeMgr) : Moves s t :=
  moves_within hstep hseals hdirected (by rw [hcarries]; exact Multiset.zero_le _) hmanager

theorem moves_inside (hs : Routed s log) (env : Env P) (pkt : Bytes) :
    Moves s (.inside env pkt) := by
  cases hdst : dstIPFromIPv4 pkt with
  | none => exact moves_empty (step_inside_none hdst) id trivial rfl rfl
  | some v =>
      refine moves_empty (step_inside hdst) id ⟨hdst, fun r hr => ?_⟩ rfl rfl
      obtain ⟨⟨r', h⟩, hget, rfl⟩ := Option.map_eq_some_iff.mp (Option.mem_def.mp hr)
      exact hs.named v r' (HostMap.getByVpnIP_eq_some.mp hget).1

theorem moves_allowOutbound (env : Env P) (v : Addr) (pkt : Bytes) (host : Option Ref)
    (groups : List GoString) (ht : (Task.allowOutbound env v pkt host groups).Directed s) :
    Moves s (.allowOutbound env v pkt host groups) := by
  rcases hverdict : s.node.fw.allowOutbound env.now v groups (dstPortFromIPv4 pkt)
    (protoFromIPv4 pkt) with ⟨fw, allowed⟩
  have hstep := step_allowOutbound s host hverdict
  cases allowed with
  | false => exact moves_empty hstep id trivial rfl rfl
  | true =>
      have hadmitted : ∀ e, Program.tally Note.admitted [Note.effect (.outbound pkt groups e true)]
          = {pkt} := by
        intro e
        simp [Note.admitted]
      cases host with
      | none =>
          refine moves_of hstep id ht.1 ?_
          rw [hadmitted]
          exact le_of_eq (by simp [carries, add_comm])
      | some r =>
          refine moves_of hstep id
            ⟨v, ht.2 r rfl, fun p hp => by rw [List.mem_singleton.mp hp]; exact ht.1⟩ ?_
          rw [hadmitted]
          exact le_of_eq (by simp [carries, add_comm])

theorem moves_startHandshake (env : Env P) (v : Addr) (pkt : Bytes) (addr : UDPAddr)
    (cert : Certificate) (ht : For v pkt) : Moves s (.startHandshake env v pkt addr cert) := by
  have hbacklog : (s.node.handshakeMgr.startHandshake env v addr cert).1.backlog
      = s.node.handshakeMgr.backlog := by
    rcases s.node.handshakeMgr.startHandshake_cases env v addr cert with
      ⟨res, hres⟩ | ⟨ph, res, hidle, hnew, hres⟩
    · rw [hres]
    · obtain ⟨idx, hs, w, wire, -, -, -, -, rfl⟩ := HandshakeManager.newPending_ok.mp hnew
      rw [hres]
      exact HandshakeManager.backlog_insert hidle rfl
  rcases hstart : s.node.handshakeMgr.startHandshake env v addr cert with ⟨m, effs, err | ⟨⟨⟩⟩⟩
  · rw [hstart] at hbacklog
    refine moves_of (step_startHandshake_error pkt hstart) id trivial ?_
    refine le_trans ?_ (Multiset.le_add_right _ _)
    exact add_le_add (Multiset.zero_le _) (le_of_eq hbacklog)
  · rw [hstart] at hbacklog
    refine moves_of (step_startHandshake pkt hstart) id ht ?_
    refine le_trans ?_ (Multiset.le_add_right _ _)
    exact add_le_add (le_refl _) (le_of_eq hbacklog)

theorem moves_queuePacket (s : Shared P) (v : Addr) (pkt : Bytes) :
    Moves s (.queuePacket v pkt) := by
  have hstep : Task.step s (.queuePacket v pkt)
      = (s.setManager (s.node.handshakeMgr.queuePacket v pkt), [], .done) := rfl
  refine moves_of hstep id trivial ?_
  simp only [carries, zero_add, Program.tally_nil, add_zero]
  rw [add_comm]
  exact s.node.handshakeMgr.backlog_queuePacket v pkt

theorem moves_send (env : Env P) (r : Ref) (pkts : List Bytes)
    (ht : (Task.send env r pkts).Directed s) : Moves s (.send env r pkts) := by
  cases pkts with
  | nil =>
      have hstep : Task.step s (.send env r []) = (s, [], .done) := rfl
      exact moves_empty hstep id trivial rfl rfl
  | cons pkt pkts =>
      cases hr : s.node.hostmap.hosts[r]? with
      | none => exact moves_empty (step_send_none hr) id trivial rfl rfl
      | some host =>
          obtain ⟨v, hpeer, hpkts⟩ := ht
          exact moves_within (step_send hr) id
            ⟨v, hpeer.step (.send env (pkt :: pkts) hr), hpkts pkt (List.mem_cons_self ..),
              fun p hp => hpkts p (List.mem_cons_of_mem pkt hp)⟩ (le_refl _) rfl

theorem moves_encrypt (env : Env P) (r : Ref) (c : UInt64) (pkt : Bytes) (pkts : List Bytes)
    (ht : (Task.encrypt env r c pkt pkts).Directed s) : Moves s (.encrypt env r c pkt pkts) := by
  obtain ⟨v, hpeer, hpkt, hpkts⟩ := ht
  cases hr : s.node.hostmap.hosts[r]? with
  | none =>
      have hstep : Task.step s (.encrypt env r c pkt pkts) = _ := step_encrypt_none hr
      refine ⟨?_, ?_, ?_⟩
      · rw [hstep]
        trivial
      · rw [hstep]
        simp
      · rw [hstep]
        simp [carries]
  | some host =>
      have hstep : Task.step s (.encrypt env r c pkt pkts) = _ := step_encrypt hr
      refine ⟨?_, ?_, ?_⟩
      · rw [hstep]
        exact ⟨v, hpeer, hpkts⟩
      · rw [hstep]
        intro call hcall
        simp only [List.mem_cons, List.not_mem_nil, or_false, reduceCtorEq, Note.encrypted.injEq]
          at hcall
        rw [hcall]
        exact ⟨v, hpeer, hpkt⟩
      · rw [hstep]
        simp [Note.sealedPacket, Note.admitted, Env.send, carries]

theorem moves_outside (s : Shared P) (env : Env P) (pkt : Bytes) (src : UDPAddr) :
    Moves s (.outside env pkt src) := by
  have hstep : Task.step s (.outside env pkt src) = dispatch s env pkt src := rfl
  unfold dispatch at hstep
  split at hstep
  · exact moves_empty hstep id trivial rfl rfl
  · split at hstep
    · exact moves_empty hstep id trivial rfl rfl
    · rename_i hdr hparse
      split_ifs at hstep
      · split at hstep
        · exact moves_empty hstep id trivial rfl rfl
        · exact moves_empty hstep id hparse rfl rfl
      · exact moves_empty hstep id trivial rfl rfl
      · exact moves_empty hstep id trivial rfl rfl
      · exact moves_empty hstep id trivial rfl rfl
      · obtain ⟨lighthouse, hnode⟩ := s.node.handleLightHouse_fst env pkt hdr src
        simp only [hnode] at hstep
        exact moves_empty hstep id trivial rfl rfl
      · exact moves_empty hstep id trivial rfl rfl
      · split at hstep
        · exact moves_empty hstep id trivial rfl rfl
        · exact moves_empty hstep id trivial rfl rfl
      · exact moves_empty hstep id trivial rfl rfl

theorem moves_checkReplay (s : Shared P) (env : Env P) (pkt : Bytes) (hdr : Header) (r : Ref) :
    Moves s (.checkReplay env pkt hdr r) := by
  cases hr : s.node.hostmap.hosts[r]? with
  | none => exact moves_empty (step_checkReplay_none hr) id trivial rfl rfl
  | some host =>
      rcases hreceive : host.receive P hdr pkt with ⟨host', err | plaintext⟩
      · exact moves_empty (step_checkReplay_error hr hreceive) id trivial rfl rfl
      · exact moves_empty (step_checkReplay hr hreceive) id trivial rfl rfl

theorem moves_handleStage0 (s : Shared P) (env : Env P) (pkt : Bytes) (src : UDPAddr) :
    Moves s (.handleStage0 env pkt src) := by
  rcases hres : s.node.handshakeMgr.handleStage0 env pkt src with ⟨sent, err | host⟩
  · exact moves_empty (step_handleStage0_error hres) id trivial rfl rfl
  · exact moves_empty (step_handleStage0 hres) id (fun _ h => (nomatch h)) rfl rfl

/-- The queue passes from the map into the hands of the call. -/
theorem moves_handleStage1 (hs : Routed s log) (env : Env P) (pkt : Bytes) :
    Moves s (.handleStage1 env pkt) := by
  rcases step_handleStage1_cases s env pkt with ⟨hdr, r, ph, -, hidx, hr, hstep⟩ | ⟨-, hstep⟩
  · obtain ⟨hbacklog, hclosed⟩ :=
      HandshakeManager.backlog_take hs.anchored.of_core hidx hr
    refine moves_of hstep id hclosed ?_
    refine le_trans (le_of_eq ?_) (Multiset.le_add_right _ _)
    rw [← hbacklog]
    exact (add_comm _ _).trans (zero_add _).symm
  · exact moves_empty hstep id trivial rfl rfl

theorem moves_readStage1 (hs : Routed s log) (env : Env P) (pkt : Bytes) (r : Ref) :
    Moves s (.readStage1 env pkt r) := by
  cases hr : s.node.handshakeMgr.handshakes[r]? with
  | none => exact moves_empty (step_readStage1_none hr) id trivial rfl rfl
  | some ph =>
      cases hread : s.node.handshakeMgr.readStage1 env.now ph pkt with
      | error err => exact moves_empty (step_readStage1_error hr hread) id trivial rfl rfl
      | ok st =>
          refine moves_within (step_readStage1 hr hread) id (hs.queues r ph hr) ?_ rfl
          exact le_of_eq (by rw [carries, carries, HandshakeManager.queueOf_eq hr])

/-- **What one step of a call does with packets.** -/
theorem moves (hs : Routed s log) (ht : t.Directed s) : Moves s t := by
  cases t with
  | inside env pkt => exact moves_inside hs env pkt
  | allowOutbound env v pkt host groups => exact moves_allowOutbound env v pkt host groups ht
  | getPeerCert env v pkt =>
      cases hcert : s.node.peerCerts v with
      | none => exact moves_within (step_getPeerCert_none hcert) id ht (le_refl _) rfl
      | some cert => exact moves_within (step_getPeerCert hcert) id ht (le_refl _) rfl
  | getAddrs env v pkt cert =>
      cases haddrs : s.node.lighthouse.getAddrs v with
      | nil =>
          exact moves_within (step_getAddrs_nil env pkt cert haddrs) id ht
            (le_refl _) rfl
      | cons addr addrs =>
          exact moves_within (step_getAddrs_cons haddrs) id ht (le_refl _) rfl
  | startHandshake env v pkt addr cert => exact moves_startHandshake env v pkt addr cert ht
  | queuePacket v pkt => exact moves_queuePacket s v pkt
  | send env r pkts => exact moves_send env r pkts ht
  | encrypt env r c pkt pkts => exact moves_encrypt env r c pkt pkts ht
  | outside env pkt src => exact moves_outside s env pkt src
  | checkReplay env pkt hdr r => exact moves_checkReplay s env pkt hdr r
  | deliver env host plaintext =>
      obtain ⟨fw, hnode⟩ := s.node.deliver_fst env host plaintext
      have hstep : Task.step s (.deliver env host plaintext) = (⟨{ s.node with fw }, s.responders⟩,
          (s.node.deliver env host plaintext).2.map .effect, .done) := by
        simp only [Task.step, hnode]
      exact moves_empty hstep id trivial rfl rfl
  | handleStage0 env pkt src => exact moves_handleStage0 s env pkt src
  | handleStage1 env pkt => exact moves_handleStage1 hs env pkt
  | readStage1 env pkt r => exact moves_readStage1 hs env pkt r
  | add env o h pending =>
      have hstep : Task.step s (.add env o h pending) = (s.setHostmap (s.node.hostmap.add h),
          [.added o s.node.hostmap.hosts.length h pending],
          .storeCert env s.node.hostmap.hosts.length h pending) := rfl
      exact moves_within hstep id
        ⟨s.node.hostmap.peer_add h, ht⟩ (le_refl _) rfl
  | storeCert env r h pending => exact moves_within rfl id ⟨_, ht⟩ (le_refl _) rfl
  | remove ip => exact moves_empty rfl id trivial rfl rfl
  | retryPending env =>
      have hstep : Task.step s (.retryPending env)
          = (s.setManager (s.node.handshakeMgr.retryPending env).1,
            (s.node.handshakeMgr.retryPending env).2.map .effect, .done) := rfl
      refine moves_of hstep id trivial ?_
      refine le_trans ?_ (Multiset.le_add_right _ _)
      exact add_le_add (le_refl _) (s.node.handshakeMgr.settles_retryPending env).backlog_le
  | runExpiry env => exact moves_empty rfl id trivial rfl rfl
  | advertise env => exact moves_empty rfl id trivial rfl rfl
  | done => exact moves_empty rfl id trivial rfl rfl

end Task

/-! ### Any order of steps

Conservation over one step gives conservation over any interleaving, by the rule of the library. -/

namespace Daemon

open Program

theorem guards : (program P).Guards (fun _ => True) Routed Task.Directed where
  entry s i _ := by
    obtain ⟨env, e⟩ := i
    cases e <;> trivial
  step s log t hs ht := by
    have hmoves := Task.moves hs ht
    obtain ⟨hqueues, hanchored⟩ := Task.step_queues hs.queues hs.anchored ht
    refine ⟨⟨hs.named.step (Task.hostStep s t), hanchored, hqueues, ?_⟩, hmoves.directed⟩
    intro call hcall
    have hpast : ∃ v, s.node.hostmap.Peer call.session v ∧ For v call.plaintext := by
      rcases List.mem_append.mp hcall with hcall | hcall
      · exact hs.sealed call hcall
      · exact hmoves.sealed call hcall
    obtain ⟨v, hpeer, hfor⟩ := hpast
    exact ⟨v, hpeer.step (Task.hostStep s t), hfor⟩
  other s log t u _ _ hu := (hu.other t).1

theorem conserves : (program P).Conserves Routed Task.Directed (fun _ => 0) Note.admitted
    Note.sealedPacket Task.carries (fun s => s.node.handshakeMgr.backlog) where
  entry s i := by
    obtain ⟨env, e⟩ := i
    cases e <;> exact le_refl _
  step s log t hs ht := (Task.moves hs ht).balance
  other s log t u _ _ hu := le_of_eq (hu.other t).2

/-- The packet a call was made for, if it came from the TUN device. -/
def packetRead : Env P × Interface.Event → Multiset Bytes
  | (_, .inside pkt) => {pkt}
  | _ => 0

theorem conserves_outbound : (program P).Conserves (fun _ _ => True) (fun _ _ => True) packetRead
    (fun _ => 0) Note.admitted (fun _ => Task.reads) (fun _ => 0) where
  entry s i := by
    obtain ⟨env, e⟩ := i
    cases e <;> exact le_refl _
  step s log t _ _ := by
    simp only [add_zero]
    exact (Task.judges s t).outbound.trans (Multiset.le_add_right _ _)
  other s log t u _ _ _ := le_refl _

theorem conserves_inbound : (program P).Conserves (fun _ _ => True) (fun _ _ => True) (fun _ => 0)
    Note.opened Note.written (fun _ => Task.delivers) (fun _ => 0) where
  entry s i := by
    obtain ⟨env, e⟩ := i
    cases e <;> exact le_refl _
  step s log t _ _ := by
    simp only [add_zero]
    exact (Task.judges s t).inbound
  other s log t u _ _ _ := le_refl _

theorem guards_trivial : (program P).Guards (fun _ => True) (fun _ _ => True) fun _ _ => True :=
  ⟨fun _ _ _ => trivial, fun _ _ _ _ _ => ⟨trivial, trivial⟩, fun _ _ _ _ _ _ _ => trivial⟩

variable (P) in
theorem routed_start (x : Network.Setup) (peers : List Certificate) :
    Routed (start (x.node P peers)).shared [] := by
  have hhosts : (x.node P peers).hostmap = .new := Interface.new_hostmap ..
  have hmanager : (x.node P peers).handshakeMgr = x.manager P := Interface.new_handshakeMgr ..
  refine ⟨?_, ?_, ?_, by simp⟩
  · show (x.node P peers).hostmap.Named
    rw [hhosts]
    exact fun v r h => (nomatch h)
  · show (x.node P peers).handshakeMgr.core.Anchored
    rw [hmanager]
    exact TwoKeys.Table.anchored_empty
  · show (x.node P peers).handshakeMgr.QueuesFor
    rw [hmanager]
    exact fun r ph h => (nomatch h)

variable (P) in
theorem backlog_start (x : Network.Setup) (peers : List Certificate) :
    (x.node P peers).handshakeMgr.backlog = 0 := by
  have hmanager : (x.node P peers).handshakeMgr = x.manager P := Interface.new_handshakeMgr ..
  rw [hmanager]
  rfl

section Start

variable (x : Network.Setup) (peers : List Certificate)
  (ts : List (Turn (Env P × Interface.Event)))

theorem sealed_le_admitted : tally Note.sealedPacket ((start (x.node P peers)).run ts).log
    ≤ tally Note.admitted ((start (x.node P peers)).run ts).log := by
  have hused := conserves.used_le guards (routed_start P x peers) (backlog_start P x peers)
    (Turn.within_true ts)
  rwa [tally_brings_zero, zero_add] at hused

theorem admitted_le_read : tally Note.admitted ((start (x.node P peers)).run ts).log
    ≤ tally (brings packetRead) ts := by
  have hused : tally Note.admitted ((start (x.node P peers)).run ts).log
      ≤ tally (brings packetRead) ts
        + tally (fun _ => 0) ((start (x.node P peers)).run ts).log :=
    conserves_outbound.used_le guards_trivial trivial rfl (Turn.within_true ts)
  rwa [tally_zero, add_zero] at hused

theorem written_le_opened : tally Note.written ((start (x.node P peers)).run ts).log
    ≤ tally Note.opened ((start (x.node P peers)).run ts).log := by
  have hused : tally Note.written ((start (x.node P peers)).run ts).log
      ≤ tally (brings fun _ => 0) ts + tally Note.opened ((start (x.node P peers)).run ts).log :=
    conserves_inbound.used_le guards_trivial trivial rfl (Turn.within_true ts)
  rwa [tally_brings_zero, zero_add] at hused

end Start

/-- The sessions of a node after a run from its start. -/
def sessionsOf (x : Network.Setup) (peers : List Certificate)
    (ts : List (Turn (Env P × Interface.Event))) : HostMap :=
  ((start (x.node P peers)).run ts).shared.node.hostmap

/-- **No packet is sent twice, unasked or astray.**  Take a node that was just set up, and any calls
in any order of their steps.  Each packet was sealed at most as often as the firewall admitted it,
and admitted at most as often as it was read from the TUN device.  A packet sealed for a session is
addressed to the peer of that session. -/
theorem packets_sealed_once (x : Network.Setup) (peers : List Certificate)
    (ts : List (Turn (Env P × Interface.Event))) :
    let D := (start (x.node P peers)).run ts
    tally Note.sealedPacket D.log ≤ tally Note.admitted D.log ∧
      tally Note.admitted D.log ≤ tally (brings packetRead) ts ∧
      ∀ call, .encrypted call ∈ D.log → ∃ h, D.shared.node.hostmap.hosts[call.session]? = some h ∧
        dstIPFromIPv4 call.plaintext = some h.vpnIP := by
  intro D
  refine ⟨sealed_le_admitted x peers ts, admitted_le_read x peers ts, fun call hcall => ?_⟩
  obtain ⟨v, ⟨h, hh, rfl⟩, hfor⟩ :=
    (guards.run ⟨routed_start P x peers, by simp [start]⟩ (Turn.within_true ts)).shared.sealed call
      hcall
  exact ⟨h, hh, hfor⟩

open Symbolic Network in
/-- Two packets that are alike are read while a handshake is under way, and both of them are sealed
when it is complete. -/
theorem packets_sealed_once_flush :
    let D := (start (setup1.node platform [setup2.cert])).run flushing
    tally Note.sealedPacket D.log = {tcpPacket 1 2 40000 22, tcpPacket 1 2 40000 22} ∧
      tally (brings packetRead) flushing = {tcpPacket 1 2 40000 22, tcpPacket 1 2 40000 22} ∧
      ∀ call, .encrypted call ∈ D.log → ∃ h, D.shared.node.hostmap.hosts[call.session]? = some h ∧
        dstIPFromIPv4 call.plaintext = some h.vpnIP :=
  ⟨by decide +kernel, by decide +kernel, (packets_sealed_once setup1 [setup2.cert] flushing).2.2⟩

end Daemon

end Neth
