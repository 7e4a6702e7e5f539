/-
Who a received packet claims to be from.

A session belongs to the VPN IP of the peer's certificate.  `handleMessage` asks the
firewall about another address, the one in the decrypted packet, which the peer chose,
and nowhere compares the two.  So a packet under a false address stops at the firewall
or not at all: it reaches the TUN device, and the connection table, exactly when the
table or an inbound rule lets that address in.

The groups that the rules are matched with are those of the session's certificate all the
same, so what a false address changes is which networks, and which tracked connections, the
packet is compared with.
-/
import Neth.Network
import Neth.Proofs.Firewall
import Neth.Proofs.Responder

namespace Neth

variable {P : Platform}

/-- The groups the firewall is told: those of the certificate of the session. -/
def HostInfo.groups (h : HostInfo) : List GoString := (h.cert.map (·.groups)).getD []

/-- The firewall lets the packet in as one that comes from `s`: the connection is in the table, or
an inbound rule matches. -/
def Firewall.LetsIn (f : Firewall) (groups : List GoString) (pkt : Bytes) (s : Addr) : Prop :=
  f.ct.isEstablished (key s (dstPortFromIPv4 pkt) (protoFromIPv4 pkt)) = true ∨
    ∃ rule ∈ f.inbound,
      ruleMatches rule s groups (dstPortFromIPv4 pkt) (protoFromIPv4 pkt) = true

theorem Firewall.allowInbound_iff (f : Firewall) (now : Time) (groups : List GoString)
    (pkt : Bytes) (s : Addr) :
    (f.allowInbound now s groups (dstPortFromIPv4 pkt) (protoFromIPv4 pkt)).2 = true
      ↔ f.LetsIn groups pkt s := by
  rw [allowInbound, allow_snd, Bool.or_eq_true, List.any_eq_true]
  rfl

namespace Interface

/-- The datagram opens to `p` on `h`, the session its header names. -/
structure Opens (I : Interface P) (pkt : Bytes) (hdr : Header) (h : HostInfo) (p : Bytes) :
    Prop where
  named : ∃ r, I.hostmap.getByIndex hdr.remoteIndex = some (r, h)
  fresh : ¬ h.Stale hdr.messageCounter
  decrypts : decrypt P h.recvCipher hdr.messageCounter (pkt.take headerLen) (pkt.drop headerLen)
    = .ok p

/-- The header names one session, and the datagram has one plaintext on it. -/
theorem Opens.unique {I : Interface P} {pkt : Bytes} {hdr : Header} {h h' : HostInfo}
    {p p' : Bytes} (hopen : I.Opens pkt hdr h p) (hopen' : I.Opens pkt hdr h' p') :
    h = h' ∧ p = p' := by
  obtain ⟨⟨r, hnamed⟩, -, hdec⟩ := hopen
  obtain ⟨⟨r', hnamed'⟩, -, hdec'⟩ := hopen'
  obtain ⟨-, rfl⟩ := Prod.mk.inj (Option.some.inj (hnamed.symm.trans hnamed'))
  exact ⟨rfl, Except.ok.inj (hdec.symm.trans hdec')⟩

variable (I : Interface P) (env : Env P) (pkt : Bytes) (hdr : Header) (src : UDPAddr)

/-- **What becomes of a datagram for a session**: it opens and is judged by the address inside, or
it has no part in the firewall and nothing is written to the TUN device. -/
theorem handleMessage_cases :
    (∃ h p s, I.Opens pkt hdr h p ∧ srcIPFromIPv4 p = some s ∧
      (I.handleMessage env pkt hdr src).1.fw
        = (I.fw.allowInbound env.now s h.groups (dstPortFromIPv4 p) (protoFromIPv4 p)).1 ∧
      ∀ q, .tunWrite q ∈ (I.handleMessage env pkt hdr src).2
        ↔ I.fw.LetsIn h.groups p s ∧ q = p) ∨
    ((¬ ∃ h p s, I.Opens pkt hdr h p ∧ srcIPFromIPv4 p = some s) ∧
      (I.handleMessage env pkt hdr src).1.fw = I.fw ∧
      ∀ q, .tunWrite q ∉ (I.handleMessage env pkt hdr src).2) := by
  unfold handleMessage
  cases hget : I.hostmap.getByIndex hdr.remoteIndex with
  | none =>
      right
      refine ⟨?_, rfl, ?_⟩
      · rintro ⟨h, p, s, ⟨⟨r, hnamed⟩, -, -⟩, -⟩
        rw [hget] at hnamed
        cases hnamed
      · intro q
        simp only
        split
        · exact fun hmem => Punchy.quiet_respondToPunch _ env src _ hmem
        · simp
  | some entry =>
      obtain ⟨r, host⟩ := entry
      -- the session is the one looked up, and it answers only one plaintext
      have hopens : ∀ {h p},
          I.Opens pkt hdr h p ↔ h = host ∧ (host.receive P hdr pkt).2 = .ok p := by
        intro h p
        rw [HostInfo.receive_ok]
        constructor
        · rintro ⟨⟨r', hnamed⟩, hfresh, hdec⟩
          obtain ⟨-, rfl⟩ := Prod.mk.inj (Option.some.inj (hget.symm.trans hnamed))
          exact ⟨rfl, hfresh, hdec⟩
        · rintro ⟨rfl, hfresh, hdec⟩
          exact ⟨⟨r, hget⟩, hfresh, hdec⟩
      have hgroups : (host.receive P hdr pkt).1.groups = host.groups := by
        rw [HostInfo.receive_eq]
        rfl
      simp only
      cases hres : (host.receive P hdr pkt).2 with
      | error e =>
          right
          refine ⟨?_, rfl, by simp⟩
          rintro ⟨h, p, s, hopen, -⟩
          have hok := (hopens.mp hopen).2
          rw [hres] at hok
          cases hok
      | ok p =>
          simp only [deliver]
          cases hsrc : srcIPFromIPv4 p with
          | none =>
              right
              refine ⟨?_, rfl, by simp⟩
              rintro ⟨h, p', s, hopen, hs⟩
              have hok := (hopens.mp hopen).2
              rw [hres] at hok
              rw [← Except.ok.inj hok, hsrc] at hs
              cases hs
          | some s =>
              left
              refine ⟨host, p, s, hopens.mpr ⟨rfl, hres⟩, hsrc, ?_, ?_⟩
              · rw [← hgroups]
                rfl
              · intro q
                rw [← hgroups, ← I.fw.allowInbound_iff env.now]
                simp only [List.mem_cons, reduceCtorEq, false_or]
                show Effect.tunWrite q ∈ (if (I.fw.allowInbound _ _ _ _ _).2 = true then
                  [Effect.tunWrite p] else []) ↔ _
                split
                · next hallowed => simp [HostInfo.groups, hallowed]
                · next hallowed => simp [HostInfo.groups, hallowed]

/-- The source inside a packet is bound to its session: what is written to the TUN device comes
from the VPN IP of the session, and so does every connection the table gains. -/
def SourceBound : Prop :=
  ∀ r h, I.hostmap.getByIndex hdr.remoteIndex = some (r, h) →
    (∀ p, .tunWrite p ∈ (I.handleMessage env pkt hdr src).2 → srcIPFromIPv4 p = some h.vpnIP) ∧
    ∀ k, (I.handleMessage env pkt hdr src).1.fw.ct.seen k ≠ I.fw.ct.seen k → k.dstIP = h.vpnIP

/-- **The source is bound exactly as far as the firewall refuses other addresses.** -/
theorem source_bound_iff :
    I.SourceBound env pkt hdr src ↔
      ∀ h p s, I.Opens pkt hdr h p → srcIPFromIPv4 p = some s → s ≠ h.vpnIP →
        ¬ I.fw.LetsIn h.groups p s := by
  constructor
  · intro hbound h p s hopen hs hne hlets
    rcases I.handleMessage_cases env pkt hdr src with
      ⟨h', p', s', hopen', hs', -, hwrites⟩ | ⟨hnone, -⟩
    · obtain ⟨rfl, rfl⟩ := hopen.unique hopen'
      obtain rfl : s = s' := Option.some.inj (hs.symm.trans hs')
      obtain ⟨r, hnamed⟩ := hopen.named
      have hvpn := (hbound r h hnamed).1 p ((hwrites p).mpr ⟨hlets, rfl⟩)
      exact hne (Option.some.inj (hs.symm.trans hvpn))
    · exact hnone ⟨h, p, s, hopen, hs⟩
  · intro hrefused r h hget
    rcases I.handleMessage_cases env pkt hdr src with
      ⟨h', p, s, hopen, hs, hfw, hwrites⟩ | ⟨-, hfw, hwrites⟩
    · obtain ⟨r', hnamed⟩ := hopen.named
      obtain ⟨-, rfl⟩ := Prod.mk.inj (Option.some.inj (hget.symm.trans hnamed))
      -- whatever is let in is let in under the right address
      have hvpn : I.fw.LetsIn h.groups p s → s = h.vpnIP := by
        intro hlets
        by_contra hne
        exact hrefused h p s hopen hs hne hlets
      constructor
      · intro q hq
        obtain ⟨hlets, rfl⟩ := (hwrites q).mp hq
        rw [hs, hvpn hlets]
      · intro k hk
        rw [hfw] at hk
        rcases I.fw.allow_fst I.fw.inbound env.now s h.groups (dstPortFromIPv4 p)
          (protoFromIPv4 p) with hsame | ⟨htrack, -, hallowed⟩
        · rw [Firewall.allowInbound, hsame] at hk
          exact absurd rfl hk
        · have hkey : k = Firewall.key s (dstPortFromIPv4 p) (protoFromIPv4 p) := by
            by_contra hne
            rw [Firewall.allowInbound, htrack] at hk
            exact hk (Function.update_of_ne hne _ _)
          rw [hkey]
          exact hvpn ((I.fw.allowInbound_iff env.now h.groups p s).mp hallowed)
    · refine ⟨fun p hp => absurd hp (hwrites p), ?_⟩
      intro k hk
      rw [hfw] at hk
      exact absurd rfl hk

section Concrete

open Symbolic HandshakeManager

/-- Node 2, which takes packets from 10.0.0.3 and from no other address. -/
def choosy : Network.Setup where
  cert := nodeCert 2 [[2]]
  key := nodeKey 2
  caPool := [caCert]
  fw := .new [{ anyRule with cidAny := false, cidr := .ofAddr (nodeIP 3) 32 }] []
  lighthouse := .new false [] []
  punchy := none

/-- Node 2 has answered an initiation of node 1 and has the session 8. -/
def choosyNode : Interface platform :=
  ((choosy.node platform []).run
    [(calmEnv 8 [5], .outside (initiation 1 1) (nodeAddr 1))]).1

/-- The header of a data packet for the session with index 8. -/
def spoofHeader : Header := ⟨headerVersion, typeMessage, 0, 8, 1⟩

/-- What node 1 sends on the session when its own TUN device hands it a packet of node 3. -/
def spoofed : Bytes :=
  spoofHeader.bytes ++
    encrypt platform ⟨(split [9] [5]).1.unsafeKey⟩ 1 spoofHeader.bytes (tcpPacket 3 2 5555 22)

/-- **A peer can take another's address.**  The session is with 10.0.0.1, whose own packets the
firewall would refuse, and the packet that is written to the TUN device comes from 10.0.0.3. -/
theorem handleMessage_accepts_spoofed :
    Header.parse spoofed = .ok spoofHeader ∧
      (choosyNode.hostmap.getByIndex 8).map (·.2.vpnIP) = some (nodeIP 1) ∧
      .tunWrite (tcpPacket 3 2 5555 22)
        ∈ (choosyNode.handleMessage (calmEnv 0 []) spoofed spoofHeader (nodeAddr 1)).2 ∧
      srcIPFromIPv4 (tcpPacket 3 2 5555 22) = some (nodeIP 3) ∧
      ¬ choosyNode.SourceBound (calmEnv 0 []) spoofed spoofHeader (nodeAddr 1) := by
  have hvpn : (choosyNode.hostmap.getByIndex 8).map (·.2.vpnIP) = some (nodeIP 1) := by
    decide +kernel
  have hwritten : .tunWrite (tcpPacket 3 2 5555 22)
      ∈ (choosyNode.handleMessage (calmEnv 0 []) spoofed spoofHeader (nodeAddr 1)).2 := by
    decide +kernel
  have hsrc : srcIPFromIPv4 (tcpPacket 3 2 5555 22) = some (nodeIP 3) := by decide +kernel
  refine ⟨by decide +kernel, hvpn, hwritten, hsrc, ?_⟩
  intro hbound
  obtain ⟨⟨r, h⟩, hget, hip⟩ := Option.map_eq_some_iff.mp hvpn
  have hown := (hbound r h hget).1 _ hwritten
  rw [hsrc, hip] at hown
  exact absurd hown (by decide +kernel)

end Concrete

end Interface

end Neth
