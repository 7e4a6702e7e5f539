/-
Who changes the address registry.

A lighthouse message is acted on once its sender resolves to a VPN IP, and that is
decided in two ways: by the session the header names, or by a registered address equal
to the source of the datagram.  `written` is what the message then puts into the
registry, whoever sent it.  Comparing it with `Authorised`, what a sender ought to be
for that, leaves two kinds of datagram: a query reply from a node that is no lighthouse,
and an update whose header names a session that the datagram does not come from.
-/
import Neth.Interface
import Neth.Network
import Neth.Symbolic

namespace Neth

variable {P : Platform}

/-! ### Endpoints -/

/-- The 16-byte form of an address. -/
def to16 (ip : Bytes) : Bytes := if ip.length = 4 then v4InV6 ++ ip else ip

/-- `net.IP.Equal` compares the 16-byte forms. -/
theorem ipEqual_iff {a b : Bytes} : ipEqual a b = true ↔ to16 a = to16 b := by
  have hlen : v4InV6.length = 12 := rfl
  have hlong : ∀ c d : Bytes, c.length = 4 → d.length = 16 →
      (v4InV6 ++ c = d ↔ d.take 12 = v4InV6 ∧ c = d.drop 12) := by
    intro c d hc hd
    constructor
    · intro heq
      rw [← heq]
      simp [hlen]
    · intro h
      rw [← h.1, h.2, List.take_append_drop]
  unfold ipEqual to16
  by_cases hsame : a.length = b.length
  · rw [if_pos hsame]
    by_cases ha : a.length = 4
    · rw [if_pos ha, if_pos (by omega)]
      simp
    · rw [if_neg ha, if_neg (by omega)]
      simp
  · rw [if_neg hsame]
    by_cases h4 : a.length = 4 ∧ b.length = 16
    · rw [if_pos h4, if_pos h4.1, if_neg (by omega), hlong a b h4.1 h4.2]
      simp
    · rw [if_neg h4]
      by_cases h16 : a.length = 16 ∧ b.length = 4
      · rw [if_pos h16, if_neg (by omega), if_pos h16.2, Bool.and_eq_true, beq_iff_eq,
          beq_iff_eq, eq_comm (a := a), hlong b a h16.2 h16.1, eq_comm (a := b)]
      · -- the 16-byte forms have different lengths
        rw [if_neg h16]
        refine iff_of_false (by simp) ?_
        intro heq
        have hlens := congrArg List.length heq
        split at hlens
        · split at hlens
          · omega
          · simp [hlen] at hlens
            omega
        · split at hlens
          · simp [hlen] at hlens
            omega
          · omega

/-- Two spellings of one endpoint, as `VpnIPByAddr` compares them. -/
def UDPAddr.Same (a b : UDPAddr) : Prop := (ipEqual a.ip b.ip && a.port == b.port) = true

instance (a b : UDPAddr) : Decidable (a.Same b) := inferInstanceAs (Decidable (_ = true))

namespace UDPAddr

variable {a b c : UDPAddr}

theorem same_iff : a.Same b ↔ to16 a.ip = to16 b.ip ∧ a.port = b.port := by
  rw [Same, Bool.and_eq_true, ipEqual_iff, beq_iff_eq]

theorem Same.refl (a : UDPAddr) : a.Same a := same_iff.mpr ⟨rfl, rfl⟩

theorem Same.symm (h : a.Same b) : b.Same a :=
  same_iff.mpr ⟨(same_iff.mp h).1.symm, (same_iff.mp h).2.symm⟩

theorem Same.trans (h : a.Same b) (h' : b.Same c) : a.Same c :=
  same_iff.mpr ⟨(same_iff.mp h).1.trans (same_iff.mp h').1,
    (same_iff.mp h).2.trans (same_iff.mp h').2⟩

end UDPAddr

namespace LightHouse

/-- The entry a message writes: a query reply the one it names, an update that of its sender. -/
def written (P : Platform) (lh : LightHouse) (sender : Addr) :
    LightHouseBody → Option (Addr × List UDPAddr)
  | .queryReply vpnIp addrs => (P.parseAddr vpnIp).map (·, ipPortsToUDPAddrs P addrs)
  | .update addrs => if lh.amLighthouse then some (sender, ipPortsToUDPAddrs P addrs) else none
  | _ => none

/-- The registry with one entry written, or as it was. -/
def overwrite (store : GoMap Addr (List UDPAddr)) :
    Option (Addr × List UDPAddr) → GoMap Addr (List UDPAddr)
  | none => store
  | some (v, addrs) => Function.update store v (some addrs)

/-- An entry changes exactly when something else is written over it. -/
theorem overwrite_ne_iff {store : GoMap Addr (List UDPAddr)} {w : Option (Addr × List UDPAddr)}
    {v : Addr} :
    overwrite store w v ≠ store v ↔ ∃ addrs, w = some (v, addrs) ∧ store v ≠ some addrs := by
  rcases w with _ | ⟨v', addrs⟩
  · simp [overwrite]
  · by_cases hv : v = v'
    · subst hv
      simp [overwrite, eq_comm]
    · have hv' : v' ≠ v := fun h => hv h.symm
      simp [overwrite, hv, hv']

variable (P) in
/-- The address a message adds to those its receiver advertises. -/
def reported : LightHouseBody → Option UDPAddr
  | .whoAmIReply (some p) => (ipPortToUDPAddr P p).toOption
  | _ => none

/-- What a message does to a lighthouse: it overwrites an entry, or adds to the addresses the node
advertises, or neither. -/
theorem handleMessage_fst (lh : LightHouse) (env : Env P) (msg : LightHouseMessage)
    (sender : Addr) :
    (lh.handleMessage env msg sender).1 = { lh with
      addrStore := overwrite lh.addrStore (msg.body.bind (lh.written P sender))
      myAddrs := (msg.body.bind (reported P)).toList ++ lh.myAddrs } := by
  rcases msg with ⟨_ | body⟩
  · rfl
  · cases body with
    | query vpnIp | whoAmI | punch vpnIp addrs => rfl
    | queryReply vpnIp addrs =>
        simp only [handleMessage, handleQueryReply, Option.bind_some, written]
        cases P.parseAddr vpnIp with
        | none => rfl
        | some v => rfl
    | update addrs =>
        simp only [handleMessage, handleUpdate, Option.bind_some, written]
        split
        · rfl
        · rfl
    | whoAmIReply addr =>
        cases addr with
        | none => rfl
        | some p =>
            simp only [handleMessage, handleWhoAmIReply, Option.bind_some, reported]
            cases ipPortToUDPAddr P p with
            | error e => rfl
            | ok a => rfl

/-- **What a message does to the registry**, for all six kinds. -/
theorem addrStore_handleMessage (lh : LightHouse) (env : Env P) (msg : LightHouseMessage)
    (sender : Addr) :
    (lh.handleMessage env msg sender).1.addrStore
      = overwrite lh.addrStore (msg.body.bind (lh.written P sender)) := by
  rw [handleMessage_fst]

/-- The registry lists `addr` for `v`. -/
def Lists (lh : LightHouse) (v : Addr) (addr : UDPAddr) : Prop := ∃ a ∈ lh.stored v, a.Same addr

theorem lists_of_vpnIPByAddr {lh : LightHouse} {env : Env P} {addr : UDPAddr} {v : Addr}
    (h : lh.vpnIPByAddr env addr = some v) : lh.Lists v addr := by
  have hany := List.find?_some h
  simp only [List.any_eq_true] at hany
  exact hany

end LightHouse

namespace Interface

/-- The VPN IP `handleLightHouse` takes the sender to have. -/
def senderVPN (I : Interface P) (env : Env P) (hdr : Header) (src : UDPAddr) : Option Addr :=
  match I.hostmap.getByIndex hdr.remoteIndex with
  | some (_, host) => some host.vpnIP
  | none => I.lighthouse.vpnIPByAddr env src

variable (P) in
/-- The body of the lighthouse message in a datagram. -/
def lightHouseBody (pkt : Bytes) : Option LightHouseBody :=
  (P.unmarshalLightHouse (pkt.drop headerLen)).toOption.bind (·.body)

/-- The entry a datagram writes. -/
def written (I : Interface P) (env : Env P) (pkt : Bytes) (hdr : Header) (src : UDPAddr) :
    Option (Addr × List UDPAddr) :=
  (I.senderVPN env hdr src).bind fun sender =>
    (lightHouseBody P pkt).bind (I.lighthouse.written P sender)

theorem addrStore_handleLightHouse (I : Interface P) (env : Env P) (pkt : Bytes) (hdr : Header)
    (src : UDPAddr) :
    (I.handleLightHouse env pkt hdr src).1.lighthouse.addrStore
      = LightHouse.overwrite I.lighthouse.addrStore (I.written env pkt hdr src) := by
  unfold handleLightHouse written lightHouseBody
  simp only
  split
  · rename_i hnone
    have hsender : I.senderVPN env hdr src = none := hnone
    rw [hsender]
    rfl
  · rename_i sender hsome
    have hsender : I.senderVPN env hdr src = some sender := hsome
    rw [hsender]
    cases P.unmarshalLightHouse (pkt.drop headerLen) with
    | error e => rfl
    | ok msg => exact I.lighthouse.addrStore_handleMessage env msg sender

/-! ### Authority

Who ought to have a say about an entry: the peer it is about, or a lighthouse.  The code only asks
that the sender resolves to some peer. -/

/-- `addr` is a known physical address of `v`: registered, or the remote of the current session. -/
def Knows (I : Interface P) (v : Addr) (addr : UDPAddr) : Prop :=
  I.lighthouse.Lists v addr ∨ ∃ r h, I.hostmap.getByVpnIP v = some (r, h) ∧ h.remote.Same addr

/-- `src` has a say about the entry of `v`: a lighthouse takes updates from the node itself, and
any node takes query replies from its lighthouses. -/
def Authorised (I : Interface P) (pkt : Bytes) (src : UDPAddr) (v : Addr) : Prop :=
  (I.lighthouse.amLighthouse = true ∧ (∃ addrs, lightHouseBody P pkt = some (.update addrs)) ∧
    I.Knows v src) ∨
  ((∃ vpnIp addrs, lightHouseBody P pkt = some (.queryReply vpnIp addrs)) ∧
    ∃ lhIP ∈ I.lighthouse.lighthouses, I.Knows lhIP src)

/-- The datagram comes from where its message should: a query reply that would change an entry
from a lighthouse, an update that would change the entry of the session its header names from the
node that session is with. -/
def Vouched (I : Interface P) (env : Env P) (pkt : Bytes) (hdr : Header) (src : UDPAddr) : Prop :=
  ∀ sender, I.senderVPN env hdr src = some sender →
    (∀ vpnIp addrs v, lightHouseBody P pkt = some (.queryReply vpnIp addrs) →
      P.parseAddr vpnIp = some v →
      I.lighthouse.addrStore v ≠ some (ipPortsToUDPAddrs P addrs) →
      ∃ lhIP ∈ I.lighthouse.lighthouses, I.Knows lhIP src) ∧
    (∀ addrs r h, lightHouseBody P pkt = some (.update addrs) →
      I.lighthouse.amLighthouse = true → I.hostmap.getByIndex hdr.remoteIndex = some (r, h) →
      I.lighthouse.addrStore h.vpnIP ≠ some (ipPortsToUDPAddrs P addrs) →
      I.Knows h.vpnIP src)

/-- A sender found through the registry is at a known address. -/
theorem knows_or_named {I : Interface P} {env : Env P} {hdr : Header} {src : UDPAddr}
    {sender : Addr} (h : I.senderVPN env hdr src = some sender) :
    I.Knows sender src ∨ ∃ r host, I.hostmap.getByIndex hdr.remoteIndex = some (r, host) ∧
      host.vpnIP = sender := by
  unfold senderVPN at h
  split at h
  · next r host hget => exact .inr ⟨r, host, hget, Option.some.inj h⟩
  · exact .inl (.inl (LightHouse.lists_of_vpnIPByAddr h))

theorem written_eq_some {I : Interface P} {env : Env P} {pkt : Bytes} {hdr : Header}
    {src : UDPAddr} {v : Addr} {addrs : List UDPAddr} :
    I.written env pkt hdr src = some (v, addrs) ↔ ∃ sender body,
      I.senderVPN env hdr src = some sender ∧ lightHouseBody P pkt = some body ∧
        I.lighthouse.written P sender body = some (v, addrs) := by
  simp only [written, Option.bind_eq_some_iff]
  constructor
  · rintro ⟨sender, hsender, body, hbody, hw⟩
    exact ⟨sender, body, hsender, hbody, hw⟩
  · rintro ⟨sender, body, hsender, hbody, hw⟩
    exact ⟨sender, hsender, body, hbody, hw⟩

/-- **The registry is safe from exactly the datagrams that come from where they should.**  Every
entry a datagram changes is changed by an authorised sender, if and only if a query reply comes
from a lighthouse and an update under the index of a session from the peer of that session. -/
theorem handleLightHouse_authorised_iff (I : Interface P) (env : Env P) (pkt : Bytes)
    (hdr : Header) (src : UDPAddr) :
    (∀ v, (I.handleLightHouse env pkt hdr src).1.lighthouse.addrStore v
        ≠ I.lighthouse.addrStore v → I.Authorised pkt src v)
      ↔ I.Vouched env pkt hdr src := by
  simp only [addrStore_handleLightHouse, LightHouse.overwrite_ne_iff, written_eq_some]
  constructor
  · intro hauth sender hsender
    constructor
    · intro vpnIp addrs v hbody hparse hne
      have hv := hauth v ⟨_, ⟨sender, _, hsender, hbody, by
        rw [LightHouse.written, hparse, Option.map_some]⟩, hne⟩
      rcases hv with ⟨-, ⟨addrs', hupdate⟩, -⟩ | ⟨-, hlh⟩
      · rw [hbody] at hupdate
        cases hupdate
      · exact hlh
    · intro addrs r h hbody ham hget hne
      have hname : I.senderVPN env hdr src = some h.vpnIP := by
        simp only [senderVPN, hget]
      have hv := hauth h.vpnIP ⟨_, ⟨h.vpnIP, _, hname, hbody, by
        rw [LightHouse.written, if_pos ham]⟩, hne⟩
      rcases hv with ⟨-, -, hknows⟩ | ⟨⟨vpnIp, addrs', hreply⟩, -⟩
      · exact hknows
      · rw [hbody] at hreply
        cases hreply
  · rintro hvouched v ⟨addrs, ⟨sender, body, hsender, hbody, hw⟩, hne⟩
    obtain ⟨hreply, hupdate⟩ := hvouched sender hsender
    cases body with
    | queryReply vpnIp ports =>
        obtain ⟨v', hparse, heq⟩ := Option.map_eq_some_iff.mp hw
        obtain ⟨rfl, rfl⟩ := Prod.mk.inj heq
        exact .inr ⟨⟨vpnIp, ports, hbody⟩, hreply vpnIp ports v' hbody hparse hne⟩
    | update ports =>
        rw [LightHouse.written] at hw
        split at hw
        · next ham =>
            obtain ⟨rfl, rfl⟩ := Prod.mk.inj (Option.some.inj hw)
            refine .inl ⟨ham, ⟨ports, hbody⟩, ?_⟩
            rcases knows_or_named hsender with hknows | ⟨r, host, hget, rfl⟩
            · exact hknows
            · exact hupdate ports r host hbody ham hget hne
        · cases hw
    | query _ | whoAmI | whoAmIReply _ | punch _ _ => cases hw

section Concrete

open Symbolic

/-- Node 2, which knows node 1 and its lighthouse, node 9, by their static addresses. -/
def listed : Network.Setup where
  cert := nodeCert 2 []
  key := nodeKey 2
  caPool := [caCert]
  fw := .new [] []
  lighthouse := ((LightHouse.new false [nodeIP 9] []).addStaticEntry (nodeIP 1)
    (nodeAddr 1)).addStaticEntry (nodeIP 9) (nodeAddr 9)
  punchy := none

/-- The header of a lighthouse datagram. -/
def lightHouseHeader : Header := ⟨headerVersion, typeLightHouse, 0, 0, 0⟩

/-- A query reply that places node 3 at the address of node 1. -/
def forgedReply : Bytes :=
  lightHouseHeader.bytes ++ marshalLightHouse ⟨some (.queryReply "10.0.0.3" [⟨"192.0.2.1", 4242⟩])⟩

/-- Surroundings in which Go walks the peers in the order 1, 9. -/
def listedEnv : Env discovery := ⟨0, .error "", [], fun _ _ => .ok (), [nodeIP 1, nodeIP 9]⟩

/-- **Any registered peer can redirect another.**  Node 1 is no lighthouse, and its query reply is
taken: node 3 is now reached through node 1. -/
theorem handleLightHouse_trusts_peer :
    let I := listed.node discovery []
    let I' := (I.handleLightHouse listedEnv forgedReply lightHouseHeader (nodeAddr 1)).1
    Header.parse forgedReply = .ok lightHouseHeader ∧
      I.lighthouse.addrStore (nodeIP 3) = none ∧
      I'.lighthouse.addrStore (nodeIP 3) = some [nodeAddr 1] ∧
      ¬ I.Authorised forgedReply (nodeAddr 1) (nodeIP 3) := by
  intro I I'
  refine ⟨by decide +kernel, by decide +kernel, by decide +kernel, ?_⟩
  have hunlisted : ∀ lhIP ∈ I.lighthouse.lighthouses,
      ¬ (∃ a ∈ I.lighthouse.stored lhIP, a.Same (nodeAddr 1)) ∧
        I.hostmap.getByVpnIP lhIP = none := by
    decide +kernel
  rintro (⟨ham, -, -⟩ | ⟨-, lhIP, hmem, hlists | ⟨r, h, hget, -⟩⟩)
  · exact absurd ham (by decide +kernel)
  · exact (hunlisted lhIP hmem).1 hlists
  · rw [(hunlisted lhIP hmem).2] at hget
    cases hget

end Concrete

end Interface

end Neth
