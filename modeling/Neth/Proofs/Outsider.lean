/-
What someone without a certificate and without a session key can do to a node.

A datagram is authentic if it opens on a session, or is an initiation or a response that
passes every check.  All others together, in any number and any order, leave the node with
the sessions, keys and counters, the certificates and the firewall that it had, and get
nothing to its TUN device.  What they can do is listed by `Untouched`: they can take
entries out of the maps that lead to sessions and pending handshakes, and they can use up
counters in replay windows.  The registry of the lighthouse is not part of the frame,
since its messages are not authenticated at all.

Nor is the node of use as an amplifier: apart from lighthouse messages, it answers such a
datagram with at most one, to where it came from, that is no longer.
-/
import Neth.Proofs.Authorised

namespace Neth

variable {P : Platform}

/-! ### Maps that lose entries -/

/-- The second map has lost entries of the first, and has no others. -/
def Shrinks {K V : Type} (f g : GoMap K V) : Prop := ∀ k, g k = f k ∨ g k = none

theorem Shrinks.refl {K V : Type} (f : GoMap K V) : Shrinks f f := fun _ => .inl rfl

theorem Shrinks.trans {K V : Type} {f g h : GoMap K V} (hfg : Shrinks f g) (hgh : Shrinks g h) :
    Shrinks f h := by
  intro k
  rcases hgh k with hk | hk
  · rw [hk]
    exact hfg k
  · exact .inr hk

theorem shrinks_update {K V : Type} [DecidableEq K] (f : GoMap K V) (k : K) :
    Shrinks f (Function.update f k none) := by
  intro k'
  by_cases heq : k' = k
  · exact .inr (by rw [heq, Function.update_self])
  · exact .inl (Function.update_of_ne heq _ _)

/-! ### The frame

What an outsider must not be able to change, written down once, as a relation between the node
before and after. -/

/-- A session but for its replay window. -/
def HostInfo.keyed (h : HostInfo) : HostInfo := { h with toReplayWindow := .fresh }

namespace Interface

/-- What a datagram that is not authentic leaves alone. -/
structure Untouched (I J : Interface P) : Prop where
  peerCerts : J.peerCerts = I.peerCerts
  fw : J.fw = I.fw
  punchy : J.punchy = I.punchy
  /-- The sessions there are, with keys, counters, addresses and certificates. -/
  sessions : J.hostmap.hosts.map HostInfo.keyed = I.hostmap.hosts.map HostInfo.keyed
  byVpnIP : Shrinks I.hostmap.byVpnIP J.hostmap.byVpnIP
  byIndex : Shrinks I.hostmap.byIndex J.hostmap.byIndex
  /-- The handshakes under way, with their Noise states, queues and timers. -/
  handshakes : J.handshakeMgr = { I.handshakeMgr with
    pending := J.handshakeMgr.pending
    indexMap := J.handshakeMgr.indexMap }
  pending : Shrinks I.handshakeMgr.pending J.handshakeMgr.pending
  indexMap : Shrinks I.handshakeMgr.indexMap J.handshakeMgr.indexMap

variable {I J K : Interface P}

theorem Untouched.refl (I : Interface P) : I.Untouched I where
  peerCerts := rfl
  fw := rfl
  punchy := rfl
  sessions := rfl
  byVpnIP := .refl _
  byIndex := .refl _
  handshakes := rfl
  pending := .refl _
  indexMap := .refl _

theorem Untouched.trans (h : I.Untouched J) (h' : J.Untouched K) : I.Untouched K where
  peerCerts := h'.peerCerts.trans h.peerCerts
  fw := h'.fw.trans h.fw
  punchy := h'.punchy.trans h.punchy
  sessions := h'.sessions.trans h.sessions
  byVpnIP := h.byVpnIP.trans h'.byVpnIP
  byIndex := h.byIndex.trans h'.byIndex
  handshakes := by rw [h'.handshakes, h.handshakes]
  pending := h.pending.trans h'.pending
  indexMap := h.indexMap.trans h'.indexMap

/-- A datagram that whoever sent it could not have made without a key of a session or, for a
handshake, a certificate. -/
inductive Authentic (I : Interface P) (env : Env P) (pkt : Bytes) : Prop
  | opens {hdr : Header} {host : HostInfo} {plaintext : Bytes} (hparse : Header.parse pkt = .ok hdr)
      (htype : hdr.type = typeMessage) (h : I.Opens pkt hdr host plaintext)
  | initiation {hdr : Header} {s : HandshakeManager.Stage0 P} (hparse : Header.parse pkt = .ok hdr)
      (htype : hdr.type = typeHandshake) (hsub : hdr.subType = handshakeInitiation)
      (h : I.handshakeMgr.readStage0 env.now pkt = .ok s)
  | response {hdr : Header} {ph : PendingHandshake P} {s : HandshakeManager.Stage1}
      (hparse : Header.parse pkt = .ok hdr) (htype : hdr.type = typeHandshake)
      (hsub : hdr.subType = handshakeResponse)
      (hph : I.handshakeMgr.getIndex hdr.remoteIndex = some ph)
      (h : I.handshakeMgr.readStage1 env.now ph pkt = .ok s)

/-- A lighthouse message, by its header. -/
def IsLightHouse (pkt : Bytes) : Prop :=
  ∃ hdr, Header.parse pkt = .ok hdr ∧ hdr.type = typeLightHouse

/-- Nothing, or one datagram back to the sender that is no longer than the one it answers. -/
def Meek (pkt : Bytes) (src : UDPAddr) (effs : List Effect) : Prop :=
  effs = [] ∨ ∃ data ok, effs = [.writeTo data src ok] ∧ data.length ≤ pkt.length

/-- Datagrams only: nothing sealed or opened, nothing judged by the firewall, nothing for the TUN
device. -/
def DatagramsOnly (effs : List Effect) : Prop :=
  ∀ e ∈ effs, ∃ data addr ok, e = .writeTo data addr ok

theorem datagram_of_isQuietWrite {e : Effect} (h : e.IsQuietWrite) :
    ∃ data addr ok, e = .writeTo data addr ok := by
  cases e with
  | writeTo data addr ok => exact ⟨data, addr, ok, rfl⟩
  | _ => exact h.elim

theorem Meek.datagramsOnly {pkt : Bytes} {src : UDPAddr} {effs : List Effect}
    (h : Meek pkt src effs) : DatagramsOnly effs := by
  intro e he
  rcases h with rfl | ⟨data, ok, rfl, -⟩
  · cases he
  · exact ⟨data, src, ok, List.mem_singleton.mp he⟩

/-! ### One datagram

Each handler, for a datagram that is not authentic.  What it can still do is mark a counter in a
replay window, end a pending handshake or a session by naming its index, and have the node answer.
-/

variable {env : Env P} {pkt : Bytes} {hdr : Header} (src : UDPAddr)

theorem untouched_assign {r : Ref} {h h' : HostInfo} (hr : I.hostmap.hosts[r]? = some h)
    (hkeyed : h'.keyed = h.keyed) :
    I.Untouched { I with hostmap := I.hostmap.assign r h' } := by
  refine { Untouched.refl I with sessions := ?_ }
  refine List.ext_getElem? fun r' => ?_
  simp only [List.getElem?_map, HostMap.hosts_assign hr]
  by_cases heq : r' = r
  · rw [if_pos heq, heq, hr]
    exact congrArg some hkeyed
  · rw [if_neg heq]

variable (env) in
theorem handleMessage_unauthentic
    (hopens : ∀ host p, ¬ I.Opens pkt hdr host p) :
    I.Untouched (I.handleMessage env pkt hdr src).1 ∧
      Meek pkt src (I.handleMessage env pkt hdr src).2 := by
  unfold handleMessage
  cases hget : I.hostmap.getByIndex hdr.remoteIndex with
  | none =>
      refine ⟨.refl I, ?_⟩
      simp only
      split
      · unfold Punchy.respondToPunch
        split
        · exact .inr ⟨[], _, rfl, Nat.zero_le _⟩
        · exact .inl rfl
      · exact .inl rfl
  | some p =>
      obtain ⟨r, host⟩ := p
      have hr := (HostMap.getByIndex_eq_some.mp hget).2
      simp only
      cases hres : (host.receive P hdr pkt).2 with
      | error e =>
          refine ⟨untouched_assign hr ?_, .inl rfl⟩
          rw [HostInfo.receive_eq]
          rfl
      | ok plaintext =>
          -- a datagram that opens is authentic
          obtain ⟨hfresh, hdec⟩ := HostInfo.receive_ok.mp hres
          exact absurd ⟨⟨r, hget⟩, hfresh, hdec⟩ (hopens host plaintext)

variable (env) in
theorem handleHandshake_unauthentic (hparse : Header.parse pkt = .ok hdr)
    (hinit : hdr.subType = handshakeInitiation → ∀ s, I.handshakeMgr.readStage0 env.now pkt ≠ .ok s)
    (hresp : hdr.subType = handshakeResponse → ∀ ph s,
      I.handshakeMgr.getIndex hdr.remoteIndex = some ph →
      I.handshakeMgr.readStage1 env.now ph pkt ≠ .ok s) :
    I.Untouched (I.handleHandshake env pkt hdr src).1 ∧
      (I.handleHandshake env pkt hdr src).2 = [] := by
  unfold handleHandshake
  by_cases hsub : hdr.subType = handshakeInitiation
  · rw [if_pos hsub]
    unfold HandshakeManager.handleStage0
    cases hread : I.handshakeMgr.readStage0 env.now pkt with
    | error e => exact ⟨.refl I, rfl⟩
    | ok s => exact absurd hread (hinit hsub s)
  · rw [if_neg hsub]
    by_cases hsub' : hdr.subType = handshakeResponse
    · rw [if_pos hsub']
      cases hph : I.handshakeMgr.getIndex hdr.remoteIndex with
      | none =>
          unfold HandshakeManager.handleStage1
          rw [if_neg (Header.length_of_parse hparse)]
          simp only [hparse, hph]
          exact ⟨.refl I, rfl⟩
      | some ph =>
          rw [HandshakeManager.handleStage1_of_names env.now ⟨hdr, hparse, rfl, hph⟩]
          cases hread : I.handshakeMgr.readStage1 env.now ph pkt with
          | error e =>
              refine ⟨?_, rfl⟩
              exact { Untouched.refl I with
                handshakes := rfl
                pending := shrinks_update _ _
                indexMap := shrinks_update _ _ }
          | ok s => exact absurd hread (hresp hsub' ph s hph)
    · rw [if_neg hsub']
      exact ⟨.refl I, rfl⟩

theorem untouched_handleLightHouse :
    I.Untouched (I.handleLightHouse env pkt hdr src).1 := by
  have hframe : ∀ lh : LightHouse, I.Untouched { I with lighthouse := lh } :=
    fun _ => { Untouched.refl I with }
  unfold handleLightHouse
  simp only
  split
  · exact .refl I
  · split
    · exact .refl I
    · exact hframe _

theorem untouched_handleCloseTunnel : I.Untouched (I.handleCloseTunnel hdr) := by
  unfold handleCloseTunnel
  split
  · next host _ =>
      refine { Untouched.refl I with byVpnIP := shrinks_update _ _, byIndex := ?_ }
      show Shrinks I.hostmap.byIndex (I.hostmap.remove host.vpnIP).byIndex
      unfold HostMap.remove
      cases I.hostmap.getByVpnIP host.vpnIP with
      | none => exact .refl _
      | some p => exact shrinks_update _ _
  · exact .refl I

theorem consumeOutsidePacket_unauthentic (h : ¬ I.Authentic env pkt) :
    I.Untouched (I.consumeOutsidePacket env pkt src).1 ∧
      DatagramsOnly (I.consumeOutsidePacket env pkt src).2 ∧
      (¬ IsLightHouse pkt → Meek pkt src (I.consumeOutsidePacket env pkt src).2) := by
  have hidle : I.Untouched I ∧ DatagramsOnly [] ∧ (¬ IsLightHouse pkt → Meek pkt src []) :=
    ⟨.refl I, (fun e he => nomatch he), fun _ => .inl rfl⟩
  unfold consumeOutsidePacket
  by_cases hlen : pkt.length < headerLen
  · rw [if_pos hlen]
    exact hidle
  · rw [if_neg hlen]
    cases hparse : Header.parse pkt with
    | error e => exact hidle
    | ok hdr =>
        simp only
        by_cases htype : hdr.type = typeMessage
        · rw [if_pos htype]
          obtain ⟨hframe, hmeek⟩ := handleMessage_unauthentic env src
            fun host p hopens => h (.opens hparse htype hopens)
          exact ⟨hframe, hmeek.datagramsOnly, fun _ => hmeek⟩
        rw [if_neg htype]
        by_cases htype : hdr.type = typeHandshake
        · rw [if_pos htype]
          obtain ⟨hframe, hnone⟩ := handleHandshake_unauthentic env src hparse
            (fun hsub s hread => h (.initiation hparse htype hsub hread))
            fun hsub ph s hph hread => h (.response hparse htype hsub hph hread)
          rw [hnone]
          exact ⟨hframe, hidle.2⟩
        rw [if_neg htype]
        by_cases htype : hdr.type = typeLightHouse
        · rw [if_pos htype]
          refine ⟨untouched_handleLightHouse src, ?_,
            fun hother => absurd ⟨hdr, hparse, htype⟩ hother⟩
          intro e he
          exact datagram_of_isQuietWrite (I.quiet_handleLightHouse env pkt hdr src e he)
        rw [if_neg htype]
        by_cases htype : hdr.type = typeTest
        · rw [if_pos htype]
          -- the reply is a bare header, and what it answers has one
          have hmeek : Meek pkt src (handleTest env src) := by
            refine .inr ⟨_, _, rfl, ?_⟩
            rw [Header.length_bytes]
            exact Nat.le_of_not_lt hlen
          exact ⟨.refl I, hmeek.datagramsOnly, fun _ => hmeek⟩
        rw [if_neg htype]
        by_cases htype : hdr.type = typeCloseTunnel
        · rw [if_pos htype]
          exact ⟨untouched_handleCloseTunnel, hidle.2⟩
        · rw [if_neg htype]
          exact hidle

/-! ### Any number of them

The frame is transitive, so a run of such datagrams stays within it. -/

/-- The event is a datagram that is not authentic. -/
def Forged (I : Interface P) (e : Env P × Event) : Prop :=
  ∃ pkt src, e.2 = .outside pkt src ∧ ¬ I.Authentic e.1 pkt

/-- **An outsider changes nothing that matters.**  Whatever the state of the node, datagrams that
are not authentic leave its sessions with their keys and counters, its handshakes, certificates and
firewall as they were, but for entries taken out of maps and counters used up in replay windows;
and the node does nothing but write datagrams: nothing is sealed, opened or judged, and nothing
reaches the TUN device. -/
theorem outsider_leaves_untouched (I : Interface P) (es : List (Env P × Event))
    (h : Trace.Meets step Forged I es) :
    I.Untouched (I.run es).1 ∧ ∀ effs ∈ (I.run es).2, DatagramsOnly effs := by
  constructor
  · refine Trace.run_invariant_of_meets (Q := Forged) (fun J => I.Untouched J) ?_ es I (.refl I) h
    intro J e hJ hforged
    obtain ⟨env, e⟩ := e
    obtain ⟨pkt, src, rfl, hunauth⟩ := hforged
    exact hJ.trans (consumeOutsidePacket_unauthentic src hunauth).1
  · have hsteps : List.Forall₂ (fun _ effs => DatagramsOnly effs) es (I.run es).2 := by
      refine Trace.run_forall₂_of_meets (Q := Forged) ?_ es I h
      intro J e hforged
      obtain ⟨env, e⟩ := e
      obtain ⟨pkt, src, rfl, hunauth⟩ := hforged
      exact (consumeOutsidePacket_unauthentic src hunauth).2.1
    intro effs hmem
    obtain ⟨n, hn, rfl⟩ := List.getElem_of_mem hmem
    exact (List.forall₂_iff_get.mp hsteps).2 n (hsteps.length_eq ▸ hn) hn

/-- Only data packets and handshakes can be authentic. -/
theorem not_authentic_of_type (hparse : Header.parse pkt = .ok hdr) (hdata : hdr.type ≠ typeMessage)
    (hhandshake : hdr.type ≠ typeHandshake) : ¬ I.Authentic env pkt := by
  intro h
  cases h with
  | opens hparse' htype _ =>
      rw [← Except.ok.inj (hparse.symm.trans hparse')] at htype
      exact hdata htype
  | initiation hparse' htype _ _ =>
      rw [← Except.ok.inj (hparse.symm.trans hparse')] at htype
      exact hhandshake htype
  | response hparse' htype _ _ _ =>
      rw [← Except.ok.inj (hparse.symm.trans hparse')] at htype
      exact hhandshake htype

open Symbolic

/-- A bare header of some type for session 8, and an event in which it comes from node 3. -/
def bareHeader (type : MessageType) : Header := ⟨headerVersion, type, 0, 8, 0⟩

/-- A bare header from nobody in particular. -/
def stray (type : MessageType) : Env platform × Event :=
  (calmEnv 0 [], .outside (bareHeader type).bytes (nodeAddr 3))

/-- Node 2 has a session with node 1, and node 3 closes it. -/
theorem outsider_leaves_untouched_close :
    (((Symbolic.node 2).run greeting).1.run [stray typeCloseTunnel]).1.hostmap.byIndex 8
        ≠ ((Symbolic.node 2).run greeting).1.hostmap.byIndex 8 ∧
      ((Symbolic.node 2).run greeting).1.Untouched
        (((Symbolic.node 2).run greeting).1.run [stray typeCloseTunnel]).1 := by
  have hparse : Header.parse (bareHeader typeCloseTunnel).bytes
      = .ok (bareHeader typeCloseTunnel) := by decide +kernel
  have hforged : ((Symbolic.node 2).run greeting).1.Forged (stray typeCloseTunnel) :=
    ⟨_, _, rfl, not_authentic_of_type hparse (by decide) (by decide)⟩
  refine ⟨by decide +kernel, ?_⟩
  exact (outsider_leaves_untouched _ [stray typeCloseTunnel] ⟨hforged, trivial⟩).1

/-- How much arrives, and how much leaves. -/
def bytesIn : Event → Nat
  | .outside pkt _ => pkt.length
  | _ => 0

/-- How many bytes a reaction hands to the socket. -/
def bytesOut (effs : List Effect) : Nat :=
  (effs.map fun
    | .writeTo data _ _ => data.length
    | _ => 0).sum

/-- **An outsider gets no amplification.**  Whatever the state of the node, it answers each of a
number of datagrams that are neither authentic nor lighthouse messages with nothing or with one
datagram, to where it came from; and all together it sends no more bytes than it got. -/
theorem outsider_not_amplified (I : Interface P) (es : List (Env P × Event))
    (h : Trace.Meets step
      (fun I e => ∃ pkt src, e.2 = .outside pkt src ∧ ¬ I.Authentic e.1 pkt ∧ ¬ IsLightHouse pkt)
      I es) :
    List.Forall₂ (fun e effs => ∃ pkt src, e.2 = .outside pkt src ∧ Meek pkt src effs) es
        (I.run es).2 ∧
      ((I.run es).2.map bytesOut).sum ≤ (es.map fun e => bytesIn e.2).sum := by
  have hsteps : List.Forall₂ (fun e effs => ∃ pkt src, e.2 = .outside pkt src ∧ Meek pkt src effs)
      es (I.run es).2 := by
    refine Trace.run_forall₂_of_meets ?_ es I h
    intro J e hforged
    obtain ⟨env, e⟩ := e
    obtain ⟨pkt, src, rfl, hunauth, hother⟩ := hforged
    exact ⟨pkt, src, rfl, (consumeOutsidePacket_unauthentic src hunauth).2.2 hother⟩
  refine ⟨hsteps, ?_⟩
  generalize (I.run es).2 = outs at hsteps
  clear h
  induction hsteps with
  | nil => exact Nat.le_refl 0
  | @cons e effs es outs hmeek _ ih =>
      rw [List.map_cons, List.map_cons, List.sum_cons, List.sum_cons]
      refine Nat.add_le_add ?_ ih
      obtain ⟨pkt, src, hevent, hmeek⟩ := hmeek
      rw [hevent]
      rcases hmeek with rfl | ⟨data, ok, rfl, hle⟩
      · exact Nat.zero_le _
      · simpa [bytesOut, bytesIn] using hle

/-- Node 3 tests the connection and closes a session of node 1: the test is answered. -/
theorem outsider_not_amplified_test :
    ((((Symbolic.node 2).run greeting).1.run [stray typeTest, stray typeCloseTunnel]).2.map
        bytesOut) = [16, 0] ∧
      ((((Symbolic.node 2).run greeting).1.run [stray typeTest, stray typeCloseTunnel]).2.map
        bytesOut).sum ≤ 32 := by
  have hstray : ∀ {I : Interface platform} {type : MessageType}, type < 16 → type ≠ typeMessage →
      type ≠ typeHandshake → type ≠ typeLightHouse →
      ∃ pkt src, (stray type).2 = .outside pkt src ∧ ¬ I.Authentic (stray type).1 pkt ∧
        ¬ IsLightHouse pkt := by
    intro I type hsmall hdata hhandshake hlight
    have hparse : Header.parse (bareHeader type).bytes = .ok (bareHeader type) := by
      have h := Header.parse_bytes_append (bareHeader type) rfl hsmall []
      rwa [List.append_nil] at h
    refine ⟨_, _, rfl, not_authentic_of_type hparse hdata hhandshake, ?_⟩
    intro hlh
    obtain ⟨hdr, hparse', htype⟩ := hlh
    rw [← Except.ok.inj (hparse.symm.trans hparse')] at htype
    exact hlight htype
  refine ⟨by decide +kernel, ?_⟩
  have hmeets := outsider_not_amplified ((Symbolic.node 2).run greeting).1
    [stray typeTest, stray typeCloseTunnel]
    ⟨hstray (by decide) (by decide) (by decide) (by decide),
      hstray (by decide) (by decide) (by decide) (by decide), trivial⟩
  exact hmeets.2

end Interface

end Neth
