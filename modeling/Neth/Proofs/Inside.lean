/-
What becomes of a packet from the TUN device when there is no session.

`consumeInsidePacket` asks the firewall first, with the groups of the session's
certificate, and without a session with none.  Of a packet that is admitted it then
tries to start a handshake, and queues the packet with the handshake that is pending.
It queues with a pending handshake only: where none is, because there was nothing to
start it with or because it could not be sent, the packet is gone.
-/
import Neth.Proofs.Conntrack
import Neth.Proofs.Queue

namespace Neth

variable {P : Platform}

namespace HandshakeManager

/-- The packet waits last in line for the handshake with `v`. -/
def Holds (m : HandshakeManager P) (v : Addr) (pkt : Bytes) : Prop :=
  ∃ ph, m.getPending v = some ph ∧ ph.pendingPackets.getLast? = some pkt

variable {m : HandshakeManager P}

/-- `QueuePacket` holds the packet exactly when a handshake is pending. -/
theorem holds_queuePacket_iff (hvalid : m.PendingValid) (v : Addr) (pkt : Bytes) :
    (m.queuePacket v pkt).Holds v pkt ↔ ∃ r, m.pending v = some r := by
  unfold Holds getPending
  rw [(m.queuePacket_maps v pkt).1]
  cases hpending : m.pending v with
  | none => simp
  | some r =>
      have hlt := hvalid v r hpending
      refine iff_of_true ?_ ⟨r, rfl⟩
      unfold queuePacket
      rw [hpending]
      simp [hlt]

/-- `StartHandshake` succeeds if a handshake is under way, or one is made and its first datagram
gets out. -/
theorem startHandshake_ok_iff (env : Env P) (v : Addr) (addr : UDPAddr) (cert : Certificate) :
    (m.startHandshake env v addr cert).2.2 = .ok () ↔
      (∃ r, m.pending v = some r) ∨
      ∃ ph, m.newPending env v addr cert = .ok ph ∧ env.writeTo ph.stage0msg addr = .ok () := by
  unfold startHandshake
  cases hpending : m.pending v with
  | some r => exact iff_of_true rfl (.inl ⟨r, rfl⟩)
  | none =>
      cases hnew : m.newPending env v addr cert with
      | error e =>
          refine iff_of_false (fun h => by cases h) ?_
          intro h
          rcases h with ⟨r, hr⟩ | ⟨ph, hph, -⟩
          · cases hr
          · cases hph
      | ok ph =>
          refine ⟨fun h => .inr ⟨ph, rfl, h⟩, ?_⟩
          intro h
          rcases h with ⟨r, hr⟩ | ⟨ph', hph, hsent⟩
          · cases hr
          · obtain rfl := Except.ok.inj hph
            exact hsent

/-- Where `StartHandshake` fails, no packet waits: there is no handshake, or one with an empty
queue. -/
theorem not_holds_of_startHandshake {env : Env P} {v : Addr} {addr : UDPAddr} {cert : Certificate}
    {m' : HandshakeManager P} {effs : List Effect} {e : String}
    (h : m.startHandshake env v addr cert = (m', effs, .error e)) (pkt : Bytes) :
    ¬ m'.Holds v pkt := by
  intro hholds
  obtain ⟨ph', hget, hlast⟩ := hholds
  unfold startHandshake at h
  cases hpending : m.pending v with
  | some r =>
      simp only [hpending] at h
      cases (Prod.mk.inj (Prod.mk.inj h).2).2
  | none =>
      cases hnew : m.newPending env v addr cert with
      | error e' =>
          simp only [hpending, hnew] at h
          obtain ⟨rfl, -⟩ := Prod.mk.inj h
          simp [getPending, hpending] at hget
      | ok ph =>
          simp only [hpending, hnew] at h
          obtain ⟨rfl, -⟩ := Prod.mk.inj h
          obtain ⟨idx, hs, w, wire, -, -, -, -, rfl⟩ := newPending_ok.mp hnew
          simp only [getPending, insert, Function.update_self, Option.bind_some,
            List.getElem?_concat_length, Option.some.injEq] at hget
          rw [← hget] at hlast
          cases hlast

end HandshakeManager

namespace Interface

/-- `consumeInsidePacket` gets the packet past the firewall. -/
def Admits (I : Interface P) (env : Env P) (pkt : Bytes) : Prop :=
  ∃ groups tracked, .outbound pkt groups tracked true ∈ (I.consumeInsidePacket env pkt).2

theorem admits_iff (I : Interface P) (env : Env P) {pkt : Bytes} {dst : Addr}
    (hdst : dstIPFromIPv4 pkt = some dst) :
    I.Admits env pkt ↔
      (I.fw.allowOutbound env.now dst (hostGroups (I.hostmap.getByVpnIP dst))
        (dstPortFromIPv4 pkt) (protoFromIPv4 pkt)).2 = true := by
  unfold Admits consumeInsidePacket
  rw [hdst]
  simp only
  refine ⟨?_, ?_⟩
  · intro h
    obtain ⟨groups, tracked, hmem⟩ := h
    by_contra hdenied
    rw [if_neg hdenied, List.mem_singleton] at hmem
    exact hdenied (Effect.outbound.inj hmem).2.2.2.symm
  · intro h
    rw [if_pos h, h]
    exact ⟨_, _, List.mem_cons_self⟩

/-- An admitted packet is forwarded by the node with the table brought up to date. -/
theorem consumeInsidePacket_of_admits (I : Interface P) (env : Env P) {pkt : Bytes} {dst : Addr}
    (hdst : dstIPFromIPv4 pkt = some dst) (h : I.Admits env pkt) :
    ∃ fw, (I.consumeInsidePacket env pkt).1 = (forwardInside { I with fw } env dst pkt).1 := by
  have hallowed := (I.admits_iff env hdst).mp h
  unfold consumeInsidePacket
  rw [hdst]
  simp only
  rw [if_pos hallowed]
  exact ⟨_, rfl⟩

/-! ### Held packets

A packet is held if it waits in the queue of a pending handshake afterwards.  That needs more than a
firewall that lets it out. -/

theorem pendingValid_run (x : Network.Setup) (peers : List Certificate)
    (es : List (Env P × Event)) : ((x.node P peers).run es).1.handshakeMgr.PendingValid := by
  obtain ⟨ts, hnode, -⟩ := Daemon.exists_turns_of_run es (Daemon.start (x.node P peers))
  have hvalid := Daemon.pendingValid_run (P := P) x peers ts
  rw [hnode] at hvalid
  exact hvalid

/-- There is all a handshake with `dst` needs, and its first datagram gets out. -/
def CanStart (I : Interface P) (env : Env P) (dst : Addr) : Prop :=
  ∃ cert addr rest ph, I.peerCerts dst = some cert ∧ I.lighthouse.getAddrs dst = addr :: rest ∧
    I.handshakeMgr.newPending env dst addr cert = .ok ph ∧
    env.writeTo ph.stage0msg addr = .ok ()

theorem holds_forwardInside_iff {I : Interface P} (hvalid : I.handshakeMgr.PendingValid)
    (env : Env P) {dst : Addr} (hsession : I.hostmap.getByVpnIP dst = none) (pkt : Bytes) :
    (I.forwardInside env dst pkt).1.handshakeMgr.Holds dst pkt ↔
      (∃ r, I.handshakeMgr.pending dst = some r) ∨ I.CanStart env dst := by
  have hqueued := HandshakeManager.holds_queuePacket_iff hvalid dst pkt
  unfold forwardInside
  rw [hsession]
  cases hcert : I.peerCerts dst with
  | none =>
      simp only
      rw [hqueued]
      refine (or_iff_left ?_).symm
      intro h
      obtain ⟨cert, addr, rest, ph, hcert', -⟩ := h
      rw [hcert] at hcert'
      cases hcert'
  | some cert =>
      cases haddrs : I.lighthouse.getAddrs dst with
      | nil =>
          simp only
          rw [hqueued]
          refine (or_iff_left ?_).symm
          intro h
          obtain ⟨cert', addr, rest, ph, -, haddrs', -⟩ := h
          rw [haddrs] at haddrs'
          cases haddrs'
      | cons addr rest =>
          have hcan : I.CanStart env dst ↔ ∃ ph,
              I.handshakeMgr.newPending env dst addr cert = .ok ph ∧
                env.writeTo ph.stage0msg addr = .ok () := by
            unfold CanStart
            rw [hcert, haddrs]
            simp
          rw [hcan, ← HandshakeManager.startHandshake_ok_iff]
          have hstarted := hvalid.startHandshake env dst addr cert
          cases hres : I.handshakeMgr.startHandshake env dst addr cert with
          | mk m out =>
              obtain ⟨effs, res⟩ := out
              rw [hres] at hstarted
              cases res with
              | error e =>
                  simp only [hres]
                  exact iff_of_false (HandshakeManager.not_holds_of_startHandshake hres pkt)
                    (fun h => by cases h)
              | ok u =>
                  simp only [hres]
                  refine iff_of_true ?_ trivial
                  exact (HandshakeManager.holds_queuePacket_iff hstarted dst pkt).mpr
                    (HandshakeManager.pending_of_startHandshake hres)

/-- **When a packet is held for its session.**  In every state a node can be in, an admitted packet
for a destination without a session ends up last in the queue of a pending handshake if and only if
a handshake was pending before, or the certificate and an address of the peer are known and the
first datagram of a new handshake is made and gets out. -/
theorem packet_held_iff (x : Network.Setup) (peers : List Certificate) (es : List (Env P × Event))
    (env : Env P) (pkt : Bytes) (dst : Addr) (hdst : dstIPFromIPv4 pkt = some dst)
    (hsession : ((x.node P peers).run es).1.hostmap.getByVpnIP dst = none)
    (hadmitted : ((x.node P peers).run es).1.Admits env pkt) :
    (((x.node P peers).run es).1.consumeInsidePacket env pkt).1.handshakeMgr.Holds dst pkt ↔
      (∃ r, ((x.node P peers).run es).1.handshakeMgr.pending dst = some r) ∨
      ((x.node P peers).run es).1.CanStart env dst := by
  obtain ⟨fw, hforward⟩ := consumeInsidePacket_of_admits _ env hdst hadmitted
  rw [hforward]
  exact holds_forwardInside_iff (I := { ((x.node P peers).run es).1 with fw })
    (pendingValid_run x peers es) env hsession pkt

section Concrete

open Symbolic Network

/-- A packet of node 1 for node 2, and the way back. -/
def request : Bytes := tcpPacket 1 2 40000 22

/-- The answer of the other machine. -/
def response : Bytes := tcpPacket 2 1 22 40000

theorem dst_request : dstIPFromIPv4 request = some (nodeIP 2) := by decide
theorem dst_response : dstIPFromIPv4 response = some (nodeIP 1) := by decide

/-- Node 1 as it starts, when it knows node 2. -/
def caller : Interface platform := ((setup1.node platform [setup2.cert]).run []).1

/-- A packet for node 2 is held by node 1, which knows node 2. -/
theorem packet_held_known :
    (caller.consumeInsidePacket (calmEnv 7 [9]) request).1.handshakeMgr.Holds (nodeIP 2) request ∧
      ((∃ r, caller.handshakeMgr.pending (nodeIP 2) = some r) ∨
        caller.CanStart (calmEnv 7 [9]) (nodeIP 2)) := by
  have hadmitted : caller.Admits (calmEnv 7 [9]) request :=
    (caller.admits_iff (calmEnv 7 [9]) dst_request).mpr (by decide +kernel)
  have hlast : ((caller.consumeInsidePacket (calmEnv 7 [9]) request).1.handshakeMgr.getPending
      (nodeIP 2)).map (·.pendingPackets.getLast?) = some (some request) := by
    decide +kernel
  have hholds : (caller.consumeInsidePacket (calmEnv 7 [9]) request).1.handshakeMgr.Holds (nodeIP 2)
      request := Option.map_eq_some_iff.mp hlast
  have hsession : caller.hostmap.getByVpnIP (nodeIP 2) = none := rfl
  exact ⟨hholds, (packet_held_iff setup1 [setup2.cert] [] (calmEnv 7 [9]) request (nodeIP 2)
    dst_request hsession hadmitted).mp hholds⟩

/-- The node has just started, the firewall admits the packet, there is no session, and the packet
is not held. -/
def Loses (x : Setup) (peers : List Certificate) (env : Env platform) (pkt : Bytes) (dst : Addr) :
    Prop :=
  (x.node platform peers).hostmap.getByVpnIP dst = none ∧ (x.node platform peers).Admits env pkt ∧
    ¬ ((x.node platform peers).consumeInsidePacket env pkt).1.handshakeMgr.Holds dst pkt

/-- **Packets nobody holds.**  The certificate of the peer is not known, or its address is not, or
the first datagram does not get out: the packet is dropped in each case. -/
theorem packet_not_held :
    Loses setup1 [] (calmEnv 7 [9]) request (nodeIP 2) ∧
      Loses setup2 [setup1.cert] (calmEnv 7 [9]) response (nodeIP 1) ∧
      Loses setup1 [setup2.cert] { calmEnv 7 [9] with writeTo := fun _ _ => .error "EPERM" }
        request (nodeIP 2) := by
  have hlost : ∀ {m : HandshakeManager platform} {v : Addr} {pkt : Bytes},
      (m.getPending v).bind (·.pendingPackets.getLast?) = none → ¬ m.Holds v pkt := by
    intro m v pkt hnone h
    obtain ⟨ph, hget, hlast⟩ := h
    rw [hget, Option.bind_some, hlast] at hnone
    cases hnone
  refine ⟨⟨rfl, ?_, hlost (by decide +kernel)⟩, ⟨rfl, ?_, hlost (by decide +kernel)⟩,
    ⟨rfl, ?_, hlost (by decide +kernel)⟩⟩
  · exact (admits_iff _ _ dst_request).mpr (by decide +kernel)
  · exact (admits_iff _ _ dst_response).mpr (by decide +kernel)
  · exact (admits_iff _ _ dst_request).mpr (by decide +kernel)

end Concrete

/-! ### Groups and sessions -/

/-- A rule that matches a peer without groups matches it with any. -/
theorem ruleMatches_of_nil {r : Rule} {ip : Addr} {groups : List GoString} {port : UInt16}
    {proto : Proto} (h : ruleMatches r ip [] port proto = true) :
    ruleMatches r ip groups port proto = true := by
  unfold ruleMatches at h ⊢
  cases hany : r.groupAny with
  | true =>
      rw [hany] at h
      simpa using h
  | false =>
      rw [hany] at h
      simp at h

/-- **When the verdict does not wait for the session.**  A peer's certificate is held in `peerCerts`
and there is no session with it.  The packet is admitted as it would be with a session that has this
certificate if and only if its connection is established, or a rule that asks for no group matches
it, or none matches it with the groups of the certificate either. -/
theorem admits_without_session_iff (I : Interface P) (env : Env P) (pkt : Bytes) (dst : Addr)
    (c : Certificate) (hostmap : HostMap) (r : Ref) (h : HostInfo)
    (hdst : dstIPFromIPv4 pkt = some dst) (hnone : I.hostmap.getByVpnIP dst = none)
    (hheld : I.peerCerts dst = some c) (hsession : hostmap.getByVpnIP dst = some (r, h))
    (hcert : h.cert = I.peerCerts dst) :
    (I.Admits env pkt ↔ Admits { I with hostmap } env pkt) ↔
      I.fw.ct.isEstablished (Firewall.key dst (dstPortFromIPv4 pkt) (protoFromIPv4 pkt)) = true ∨
      (∃ rule ∈ I.fw.outbound,
        ruleMatches rule dst [] (dstPortFromIPv4 pkt) (protoFromIPv4 pkt) = true) ∨
      ¬ ∃ rule ∈ I.fw.outbound,
        ruleMatches rule dst c.groups (dstPortFromIPv4 pkt) (protoFromIPv4 pkt) = true := by
  have hgroups : hostGroups (hostmap.getByVpnIP dst) = c.groups := by
    rw [hsession, hostGroups, hcert, hheld]
    rfl
  rw [admits_iff I env hdst, admits_iff { I with hostmap } env hdst, hnone]
  show ((I.fw.allowOutbound env.now dst [] _ _).2 = true
    ↔ (I.fw.allowOutbound env.now dst (hostGroups (hostmap.getByVpnIP dst)) _ _).2 = true) ↔ _
  rw [hgroups]
  unfold Firewall.allowOutbound
  rw [Firewall.allow_snd, Firewall.allow_snd]
  simp only [Bool.or_eq_true, List.any_eq_true]
  constructor
  · intro h
    by_cases hgroup : ∃ rule ∈ I.fw.outbound,
        ruleMatches rule dst c.groups (dstPortFromIPv4 pkt) (protoFromIPv4 pkt) = true
    · rcases h.mpr (.inr hgroup) with htracked | hrule
      · exact .inl htracked
      · exact .inr (.inl hrule)
    · exact .inr (.inr hgroup)
  · intro h
    -- a rule without groups matches in both cases
    have hmono : (∃ rule ∈ I.fw.outbound,
        ruleMatches rule dst [] (dstPortFromIPv4 pkt) (protoFromIPv4 pkt) = true) →
        ∃ rule ∈ I.fw.outbound,
          ruleMatches rule dst c.groups (dstPortFromIPv4 pkt) (protoFromIPv4 pkt) = true := by
      intro hrule
      obtain ⟨rule, hmem, hmatch⟩ := hrule
      exact ⟨rule, hmem, ruleMatches_of_nil hmatch⟩
    refine ⟨Or.imp_right hmono, ?_⟩
    intro hwith
    rcases h with htracked | hrule | hnorule
    · exact .inl htracked
    · exact .inr hrule
    · exact .inl (hwith.resolve_right hnorule)

section Concrete

open Symbolic Network

/-- The session of node 1 with node 2. -/
def withNode2 : HostMap :=
  HostMap.new.add { session2 with vpnIP := nodeIP 2, cert := some setup2.cert }

/-- An open firewall admits the packet before there is a session. -/
theorem admits_without_session_any :
    caller.Admits (calmEnv 7 [9]) request ↔
      Admits { caller with hostmap := withNode2 } (calmEnv 7 [9]) request := by
  refine (admits_without_session_iff caller (calmEnv 7 [9]) request (nodeIP 2) setup2.cert withNode2
    0 { session2 with vpnIP := nodeIP 2, cert := some setup2.cert } dst_request rfl rfl rfl rfl).mpr
    (.inr (.inl ⟨anyRule, by decide +kernel, by decide⟩))

/-- Node 1 when it may contact the peers of group 2 only, among them node 2. -/
def groupCaller : Interface platform :=
  { caller with fw := .new [] [Firewall.groupRule [2]] }

/-- **A peer permitted by its group cannot be contacted.**  Without a session the packet is refused
and no handshake is started; with one it would be admitted. -/
theorem group_rule_needs_session :
    groupCaller.hostmap.getByVpnIP (nodeIP 2) = none ∧
      groupCaller.peerCerts (nodeIP 2) = some setup2.cert ∧
      (withNode2.getByVpnIP (nodeIP 2)).map (·.2.cert) = some (some setup2.cert) ∧
      ¬ groupCaller.Admits (calmEnv 7 [9]) request ∧
      (groupCaller.consumeInsidePacket (calmEnv 7 [9]) request).2
        = [.outbound request [] false false] ∧
      Admits { groupCaller with hostmap := withNode2 } (calmEnv 7 [9]) request := by
  refine ⟨rfl, rfl, rfl, ?_, by decide +kernel, ?_⟩
  · rw [admits_iff _ _ dst_request]
    decide +kernel
  · exact (admits_iff _ _ dst_request).mpr (by decide +kernel)

end Concrete

end Interface

end Neth
