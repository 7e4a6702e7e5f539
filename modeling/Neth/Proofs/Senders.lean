/-
Whom the registry takes the sender of a datagram for.

A lighthouse datagram that names no session is attributed by `VpnIPByAddr`, which
ranges over the registry for an entry that lists the source address.  The registry is
written by what peers say of themselves, and by nothing else.  So the attribution is a
matter of the iteration order as soon as two nodes have an address in common, and a
node that advertises other addresses than the one it sends from is not known there
any more.
-/
import Neth.Lib.Iteration
import Neth.Proofs.Registry

namespace Neth

open Iteration

variable {P : Platform}

namespace LightHouse

variable {lh lh' : LightHouse} {v v' : Addr} {p : UDPAddr}

/-- What `VpnIPByAddr` tests of an entry. -/
theorem lists_iff : lh.Lists v p ↔
    ((lh.stored v).any fun a => ipEqual a.ip p.ip && a.port == p.port) = true := by
  rw [List.any_eq_true]
  rfl

theorem isSome_of_lists (h : lh.Lists v p) : (lh.addrStore v).isSome := by
  obtain ⟨a, ha, -⟩ := h
  unfold stored at ha
  cases hv : lh.addrStore v with
  | none =>
      rw [hv] at ha
      cases ha
  | some addrs => rfl

/-- An endpoint is listed in whatever spelling. -/
theorem Lists.of_same {a : UDPAddr} (h : lh.Lists v p) (hsame : p.Same a) : lh.Lists v a := by
  obtain ⟨b, hb, hbp⟩ := h
  exact ⟨b, hb, hbp.trans hsame⟩

section Order

variable (env : Env P) {order : List Addr} (horder : OrderOf lh.addrStore order)

include horder

/-- `VpnIPByAddr` answers `v` in every iteration order exactly when `v` alone lists the address. -/
theorem forall_vpnIPByAddr_iff :
    (∀ order, OrderOf lh.addrStore order → lh.vpnIPByAddr { env with order } p = some v) ↔
      lh.Lists v p ∧ ∀ v', lh.Lists v' p → v' = v := by
  simp only [lists_iff]
  exact forall_find?_eq_some_iff horder fun k hk => isSome_of_lists (lists_iff.mpr hk)

/-- The answer of `VpnIPByAddr` is the same in every iteration order exactly when no two nodes list
the address. -/
theorem vpnIPByAddr_eq_iff :
    (∀ o o', OrderOf lh.addrStore o → OrderOf lh.addrStore o' →
      lh.vpnIPByAddr { env with order := o } p = lh.vpnIPByAddr { env with order := o' } p) ↔
      ∀ v v', lh.Lists v p → lh.Lists v' p → v = v' := by
  simp only [lists_iff]
  exact forall_find?_eq_iff horder fun k hk => isSome_of_lists (lists_iff.mpr hk)

end Order

/-! ### Writing the registry -/

/-- The three ways an entry is written. -/
inductive Write where
  | addStaticEntry (vpnIP : Addr) (addr : UDPAddr)
  | update (addrs : List IpPort) (src : Addr)
  | queryReply (vpnIp : String) (addrs : List IpPort)

/-- The lighthouse after a write. -/
def write (P : Platform) (lh : LightHouse) : Write → LightHouse
  | .addStaticEntry vpnIP addr => lh.addStaticEntry vpnIP addr
  | .update addrs src => lh.handleUpdate P addrs src
  | .queryReply vpnIp addrs => lh.handleQueryReply P vpnIp addrs

/-- The entry that is written. -/
def entry (P : Platform) (lh : LightHouse) : Write → Option (Addr × List UDPAddr)
  | .addStaticEntry vpnIP addr => some (vpnIP, lh.stored vpnIP ++ [addr])
  | .update addrs src => if lh.amLighthouse then some (src, ipPortsToUDPAddrs P addrs) else none
  | .queryReply vpnIp addrs => (P.parseAddr vpnIp).map (·, ipPortsToUDPAddrs P addrs)

theorem addrStore_write (lh : LightHouse) (w : Write) :
    (lh.write P w).addrStore = overwrite lh.addrStore (lh.entry P w) := by
  cases w with
  | addStaticEntry vpnIP addr => rfl
  | update addrs src =>
      simp only [write, entry, handleUpdate]
      by_cases ham : lh.amLighthouse = true
      · rw [if_pos ham, if_pos ham]
        rfl
      · rw [if_neg ham, if_neg ham]
        rfl
  | queryReply vpnIp addrs =>
      simp only [write, entry, handleQueryReply]
      cases P.parseAddr vpnIp with
      | none => rfl
      | some v => rfl

theorem exists_order_overwrite {order : List Addr} (h : OrderOf lh.addrStore order)
    {w : Option (Addr × List UDPAddr)} (hstore : lh'.addrStore = overwrite lh.addrStore w) :
    ∃ order, OrderOf lh'.addrStore order := by
  rw [hstore]
  cases w with
  | none => exact ⟨order, h⟩
  | some e => exact h.update e.1 e.2

/-- What is listed after an entry was written. -/
theorem lists_overwrite {addrs : List UDPAddr}
    (hstore : lh'.addrStore = overwrite lh.addrStore (some (v, addrs))) {u : Addr} :
    lh'.Lists u p ↔ if u = v then ∃ a ∈ addrs, a.Same p else lh.Lists u p := by
  unfold Lists stored
  rw [hstore, overwrite]
  by_cases hu : u = v
  · simp [hu]
  · simp [hu]

/-! ### One address, one node

`VpnIPByAddr` walks a map, so its answer is settled only if no two nodes are listed with one
endpoint. -/

/-- No two nodes list one address. -/
def Unshared (lh : LightHouse) : Prop := ∀ p v v', lh.Lists v p → lh.Lists v' p → v = v'

/-- What is written lists no address that another node has. -/
def Apart (P : Platform) (lh : LightHouse) (w : Write) : Prop :=
  ∀ v addrs, lh.entry P w = some (v, addrs) → ∀ a ∈ addrs, ∀ v', v' ≠ v → ¬ lh.Lists v' a

theorem unshared_write_iff (h : lh.Unshared) (w : Write) :
    (lh.write P w).Unshared ↔ Apart P lh w := by
  have hstore := lh.addrStore_write (P := P) w
  cases hentry : lh.entry P w with
  | none =>
      rw [hentry] at hstore
      have hlists : ∀ u p, (lh.write P w).Lists u p ↔ lh.Lists u p := by
        intro u p
        unfold Lists stored
        rw [hstore, overwrite]
      refine iff_of_true ?_ ?_
      · intro p u u' hu hu'
        exact h p u u' ((hlists u p).mp hu) ((hlists u' p).mp hu')
      · intro v addrs hsome
        rw [hentry] at hsome
        cases hsome
  | some e =>
      obtain ⟨v, addrs⟩ := e
      rw [hentry] at hstore
      have hlists := fun u p => lists_overwrite hstore (u := u) (p := p)
      constructor
      · intro hafter v0 addrs0 hsome a ha v' hne hother
        rw [hentry] at hsome
        obtain ⟨rfl, rfl⟩ := Prod.mk.inj (Option.some.inj hsome)
        refine hne (hafter a v' v ?_ ?_)
        · rw [hlists, if_neg hne]
          exact hother
        · rw [hlists, if_pos rfl]
          exact ⟨a, ha, .refl a⟩
      · intro hapart p u u' hu hu'
        -- an address of the new entry against one of another entry
        have hclash : ∀ u, u ≠ v → (∃ a ∈ addrs, a.Same p) → ¬ lh.Lists u p := by
          intro u hne hnew hold
          obtain ⟨a, ha, hap⟩ := hnew
          exact hapart v addrs hentry a ha u hne (hold.of_same hap.symm)
        rw [hlists] at hu hu'
        by_cases huv : u = v
        · by_cases huv' : u' = v
          · rw [huv, huv']
          · rw [if_pos huv] at hu
            rw [if_neg huv'] at hu'
            exact absurd hu' (hclash u' huv' hu)
        · rw [if_neg huv] at hu
          by_cases huv' : u' = v
          · rw [if_pos huv'] at hu'
            exact absurd hu (hclash u huv hu')
          · rw [if_neg huv'] at hu'
            exact h p u u' hu hu'

/-! ### Runs of writes -/

/-- A write as a step of a run. -/
def writeStep (P : Platform) (lh : LightHouse) (w : Write) : LightHouse × Unit := (lh.write P w, ())

/-- The registry after the writes. -/
def writes (P : Platform) (lh : LightHouse) (ws : List Write) : LightHouse :=
  (Trace.run (writeStep P) lh ws).1

theorem exists_order_writes (ws : List Write) : ∀ lh : LightHouse,
    (∃ order, OrderOf lh.addrStore order) → ∃ order, OrderOf (lh.writes P ws).addrStore order := by
  induction ws with
  | nil => intro lh h; exact h
  | cons w ws ih =>
      intro lh h
      obtain ⟨order, horder⟩ := h
      exact ih _ (exists_order_overwrite horder (lh.addrStore_write w))

theorem unshared_new (am : Bool) (lhs : List Addr) (myAddrs : List UDPAddr) :
    (new am lhs myAddrs).Unshared := by
  intro p v v' hv _
  obtain ⟨a, ha, -⟩ := hv
  cases ha

/-- The answer of `VpnIPByAddr` does not depend on the iteration order. -/
def OrderFree (env : Env P) (lh : LightHouse) (p : UDPAddr) : Prop :=
  ∀ o o', OrderOf lh.addrStore o → OrderOf lh.addrStore o' →
    lh.vpnIPByAddr { env with order := o } p = lh.vpnIPByAddr { env with order := o' } p

/-- **When a sender can be told from its address.**  After any writes, the answer for an address is
the same in every iteration order if and only if no two nodes list it.  And it is so for all
addresses in every state on the way if and only if no write lists an address that another node has
at the time. -/
theorem orderFree_iff (env : Env P) (am : Bool) (lhs : List Addr) (myAddrs : List UDPAddr)
    (ws : List Write) :
    (∀ p, OrderFree env ((new am lhs myAddrs).writes P ws) p ↔
      ∀ v v', ((new am lhs myAddrs).writes P ws).Lists v p →
        ((new am lhs myAddrs).writes P ws).Lists v' p → v = v') ∧
    ((∀ pre, pre <+: ws → ∀ p, OrderFree env ((new am lhs myAddrs).writes P pre) p) ↔
      Trace.Meets (writeStep P) (Apart P) (new am lhs myAddrs) ws) := by
  have hfree : ∀ ws p, OrderFree env ((new am lhs myAddrs).writes P ws) p ↔
      ∀ v v', ((new am lhs myAddrs).writes P ws).Lists v p →
        ((new am lhs myAddrs).writes P ws).Lists v' p → v = v' := by
    intro ws p
    obtain ⟨order, horder⟩ := exists_order_writes (P := P) ws (new am lhs myAddrs)
      ⟨[], OrderOf.empty⟩
    exact vpnIPByAddr_eq_iff env horder
  refine ⟨hfree ws, ?_⟩
  have hstep : ∀ lh w, lh.Unshared → ((writeStep P lh w).1.Unshared ↔ Apart P lh w) :=
    fun lh w h => unshared_write_iff h w
  rw [← Trace.forall_prefix_iff_meets hstep (unshared_new am lhs myAddrs) ws]
  refine forall₂_congr ?_
  intro pre _
  exact forall_congr' (hfree pre)

section Concrete

open Symbolic

/-- A lighthouse that knows nodes 1 and 2, to which node 2 advertises the address of node 1. -/
def shared : List Write :=
  [.addStaticEntry (nodeIP 1) (nodeAddr 1), .addStaticEntry (nodeIP 2) (nodeAddr 2),
    .update [⟨"192.0.2.1", 4242⟩] (nodeIP 2)]

/-- **One address, two nodes.**  A datagram from the address of node 1 is attributed to node 1 or to
node 2, as the iteration goes. -/
theorem vpnIPByAddr_ambiguous :
    OrderOf ((new true [] []).writes discovery shared).addrStore [nodeIP 2, nodeIP 1] ∧
      OrderOf ((new true [] []).writes discovery shared).addrStore [nodeIP 1, nodeIP 2] ∧
      ((new true [] []).writes discovery shared).vpnIPByAddr
        { Interface.listedEnv with order := [nodeIP 2, nodeIP 1] } (nodeAddr 1)
          = some (nodeIP 2) ∧
      ((new true [] []).writes discovery shared).vpnIPByAddr
        { Interface.listedEnv with order := [nodeIP 1, nodeIP 2] } (nodeAddr 1)
          = some (nodeIP 1) := by
  have horder : OrderOf ((new true [] []).writes discovery shared).addrStore
      [nodeIP 2, nodeIP 1] :=
    ((OrderOf.empty.cons (by decide) _).cons (by decide) _).update_of_mem (by decide) _
  refine ⟨horder, ?_, by decide +kernel, by decide +kernel⟩
  exact horder.front (k := nodeIP 1) (by decide +kernel)

end Concrete

end LightHouse

/-! ### A sender and its own update

An update is attributed by the endpoint it comes from, unless its header names a session, and it may
list other endpoints than that. -/

namespace Interface

/-- Datagrams from `p` are attributed to `v`, in every iteration order, and what the node sends to
`v` goes to `p` too. -/
def Attributed (env : Env P) (lh : LightHouse) (p : UDPAddr) (v : Addr) : Prop :=
  (∀ order, OrderOf lh.addrStore order → lh.vpnIPByAddr { env with order } p = some v) ∧
  ∀ (env' : Env P) msg wire, marshalLightHousePacket P msg = .ok wire →
    ∃ a, a.Same p ∧ env'.send wire a ∈ lh.send env' msg v

theorem attributed_iff {lh : LightHouse} {order : List Addr} (horder : OrderOf lh.addrStore order)
    (env : Env P) (p : UDPAddr) (v : Addr) :
    Attributed env lh p v ↔ lh.Lists v p ∧ ∀ v', lh.Lists v' p → v' = v := by
  rw [Attributed, LightHouse.forall_vpnIPByAddr_iff env horder]
  refine and_iff_left_of_imp ?_
  intro h env' msg wire hwire
  obtain ⟨a, ha, hsame⟩ := h.1
  refine ⟨a, hsame, ?_⟩
  rw [LightHouse.send, hwire]
  exact List.mem_map_of_mem ha

/-- **Which updates keep their sender known.**  An update comes from `p`, which the lighthouse has
for `v` and for no other node.  Afterwards `p` still stands for `v` if and only if the update lists
`p` when it is taken for an update of `v`, and does not list it when the header names the session of
another node. -/
theorem attributed_handleLightHouse_iff (I : Interface P) (env : Env P) (pkt : Bytes)
    (hdr : Header) (p : UDPAddr) (v : Addr) (ports : List IpPort)
    (horder : OrderOf I.lighthouse.addrStore env.order) (ham : I.lighthouse.amLighthouse = true)
    (hattributed : Attributed env I.lighthouse p v)
    (hbody : lightHouseBody P pkt = some (.update ports)) :
    Attributed env (I.handleLightHouse env pkt hdr p).1.lighthouse p v ↔
      (I.senderVPN env hdr p = some v ↔ ∃ a ∈ ipPortsToUDPAddrs P ports, a.Same p) := by
  obtain ⟨hlists, honly⟩ := (attributed_iff horder env p v).mp hattributed
  -- the sender is found: through a session, or as `v` through the registry
  obtain ⟨sender, hsender⟩ : ∃ sender, I.senderVPN env hdr p = some sender := by
    unfold senderVPN
    cases I.hostmap.getByIndex hdr.remoteIndex with
    | some host => exact ⟨_, rfl⟩
    | none => exact ⟨v, hattributed.1 env.order horder⟩
  have hstore : (I.handleLightHouse env pkt hdr p).1.lighthouse.addrStore
      = LightHouse.overwrite I.lighthouse.addrStore (some (sender, ipPortsToUDPAddrs P ports)) := by
    rw [addrStore_handleLightHouse, Interface.written, hsender, hbody]
    simp only [Option.bind_some, LightHouse.written, ham, if_true]
  obtain ⟨order, horder'⟩ := LightHouse.exists_order_overwrite horder hstore
  rw [attributed_iff horder', hsender, Option.some.injEq]
  have hafter := fun u => LightHouse.lists_overwrite hstore (u := u) (p := p)
  by_cases hown : sender = v
  · -- the entry of `v` is written over, the others do not list `p`
    rw [hown] at hafter
    rw [hafter v, if_pos rfl, iff_true_left hown]
    refine and_iff_left ?_
    intro u hu
    by_contra hne
    rw [hafter u, if_neg hne] at hu
    exact hne (honly u hu)
  · rw [hafter v, if_neg (Ne.symm hown), iff_false_left hown]
    refine ⟨?_, ?_⟩
    · intro h hnew
      refine hown (h.2 sender ?_)
      rw [hafter sender, if_pos rfl]
      exact hnew
    · intro hnew
      refine ⟨hlists, ?_⟩
      intro u hu
      rw [hafter u] at hu
      by_cases hus : u = sender
      · rw [if_pos hus] at hu
        exact absurd hu hnew
      · rw [if_neg hus] at hu
        exact honly u hu

section Concrete

open Symbolic

/-- Node 9, a lighthouse that knows node 1 by its static address. -/
def beacon : Network.Setup where
  cert := nodeCert 9 []
  key := nodeKey 9
  caPool := [caCert]
  fw := .new [] []
  lighthouse := (LightHouse.new true [] []).addStaticEntry (nodeIP 1) (nodeAddr 1)
  punchy := none

/-- Surroundings in which Go finds node 1 first. -/
def beaconEnv : Env discovery := { listedEnv with order := [nodeIP 1] }

/-- An update that lists one address. -/
def updateOf (ip : String) : Bytes :=
  lightHouseHeader.bytes ++ marshalLightHouse ⟨some (.update [⟨ip, 4242⟩])⟩

theorem beacon_order :
    OrderOf (beacon.node discovery []).lighthouse.addrStore beaconEnv.order :=
  OrderOf.empty.cons (by decide) _

theorem beacon_attributed :
    Attributed beaconEnv (beacon.node discovery []).lighthouse (nodeAddr 1) (nodeIP 1) := by
  rw [attributed_iff beacon_order]
  refine ⟨⟨nodeAddr 1, by decide +kernel, .refl _⟩, ?_⟩
  intro u hu
  have hmem := (beacon_order.mem_iff u).mpr (LightHouse.isSome_of_lists hu)
  exact List.mem_singleton.mp hmem

/-- Node 1 advertises the address it sends from, and stays known. -/
theorem beacon_keeps_sender :
    Attributed beaconEnv ((beacon.node discovery []).handleLightHouse beaconEnv
      (updateOf "192.0.2.1") lightHouseHeader (nodeAddr 1)).1.lighthouse (nodeAddr 1)
      (nodeIP 1) := by
  refine (attributed_handleLightHouse_iff (beacon.node discovery []) beaconEnv
    (updateOf "192.0.2.1") lightHouseHeader (nodeAddr 1) (nodeIP 1) [⟨"192.0.2.1", 4242⟩]
    beacon_order rfl beacon_attributed (by decide +kernel)).mpr ?_
  refine iff_of_true (by decide +kernel) ?_
  exact ⟨nodeAddr 1, by decide +kernel, .refl _⟩

/-- **A node behind a NAT locks itself out.**  It advertises the address it has inside.  The
lighthouse then knows it by that address only: the next datagram from outside is nobody's, and
nothing is sent there. -/
theorem beacon_forgets_sender :
    let I := beacon.node discovery []
    let lh := (I.handleLightHouse beaconEnv (updateOf "10.1.1.1") lightHouseHeader
      (nodeAddr 1)).1.lighthouse
    I.lighthouse.amLighthouse = true ∧ I.hostmap.getByVpnIP (nodeIP 1) = none ∧
      OrderOf I.lighthouse.addrStore beaconEnv.order ∧
      Attributed beaconEnv I.lighthouse (nodeAddr 1) (nodeIP 1) ∧
      lightHouseBody discovery (updateOf "10.1.1.1") = some (.update [⟨"10.1.1.1", 4242⟩]) ∧
      OrderOf lh.addrStore beaconEnv.order ∧ lh.vpnIPByAddr beaconEnv (nodeAddr 1) = none ∧
      lh.stored (nodeIP 1) = [⟨[10, 1, 1, 1], 4242⟩] := by
  intro I lh
  have hwritten : I.written beaconEnv (updateOf "10.1.1.1") lightHouseHeader (nodeAddr 1)
      = some (nodeIP 1, [⟨[10, 1, 1, 1], 4242⟩]) := by decide +kernel
  have hstore := addrStore_handleLightHouse I beaconEnv (updateOf "10.1.1.1") lightHouseHeader
    (nodeAddr 1)
  rw [hwritten] at hstore
  refine ⟨rfl, rfl, beacon_order, beacon_attributed, by decide +kernel, ?_, by decide +kernel,
    by decide +kernel⟩
  show OrderOf lh.addrStore [nodeIP 1]
  rw [hstore]
  exact beacon_order.update_of_mem List.mem_cons_self _

end Concrete

end Interface

end Neth
