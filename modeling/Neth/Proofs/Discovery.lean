/-
What a node learns from a lighthouse.

Nodes advertise their addresses to the lighthouse and query it for those of others.
An address goes through text twice on its way, once in the update and once in the
reply, and comes out as the same endpoint.  So a lighthouse is a register with one
last writer for each node: a reply lists what the queried node advertised last, or
its static entries, and the node that asked then has that list.

It has that list and nothing else.  A reply overwrites what was known, so of several
replies the last one counts, also when it is empty.
-/
import Mathlib.Data.List.Forall2
import Mathlib.Data.List.Induction
import Neth.Assumptions
import Neth.Proofs.Header
import Neth.Proofs.Registry
import Neth.Proofs.Symbolic

namespace Neth

variable {P : Platform}

/-! ### Addresses through text

An address may come back from its text in the other of its two forms, so what survives is the
endpoint and not the bytes. -/

/-- An endpoint that can be advertised: an IP of either length, and a port that fits its field. -/
def UDPAddr.Valid (a : UDPAddr) : Prop := (a.ip.length = 4 ∨ a.ip.length = 16) ∧ a.port < 2 ^ 32

theorem length_to16 {ip : Bytes} : (to16 ip).length = 16 ↔ ip.length = 4 ∨ ip.length = 16 := by
  unfold to16
  by_cases h : ip.length = 4
  · simp [h, v4InV6]
  · simp [h]

theorem UDPAddr.Valid.of_same {a b : UDPAddr} (h : a.Valid) (hsame : b.Same a) : b.Valid := by
  obtain ⟨hip, hport⟩ := UDPAddr.same_iff.mp hsame
  refine ⟨length_to16.mp ?_, ?_⟩
  · rw [hip]
    exact length_to16.mpr h.1
  · rw [hport]
    exact h.2

/-- Two lists of the same endpoints in the same order. -/
def SameAddrs : List UDPAddr → List UDPAddr → Prop := List.Forall₂ UDPAddr.Same

theorem SameAddrs.refl (l : List UDPAddr) : SameAddrs l l :=
  List.forall₂_same.mpr fun a _ => .refl a

theorem SameAddrs.valid {l l' : List UDPAddr} (h : SameAddrs l l') (hvalid : ∀ a ∈ l', a.Valid) :
    ∀ a ∈ l, a.Valid := by
  induction h with
  | nil => exact hvalid
  | cons hab _ ih =>
      intro a ha
      rcases List.mem_cons.mp ha with rfl | ha
      · exact (hvalid _ List.mem_cons_self).of_same hab
      · exact ih (fun b hb => hvalid b (List.mem_cons_of_mem _ hb)) a ha

variable (P) in
/-- The wire form reads as the endpoint. -/
def Spells (p : IpPort) (a : UDPAddr) : Prop := ∃ b, ipPortToUDPAddr P p = .ok b ∧ b.Same a

section Text

variable (htext : P.TextualAddrs)

include htext

theorem spells_udpAddrToIpPort {a : UDPAddr} (h : a.Valid) : Spells P (udpAddrToIpPort P a) a := by
  obtain ⟨ip, hip, hequal⟩ := htext.ip a.ip h.1
  refine ⟨⟨ip, a.port⟩, ?_, ?_⟩
  · simp only [ipPortToUDPAddr, udpAddrToIpPort, hip]
    rw [UInt32.toNat_ofNat_of_lt' h.2]
    rfl
  · exact UDPAddr.same_iff.mpr ⟨ipEqual_iff.mp hequal, rfl⟩

theorem spells_udpAddrsToIpPorts {addrs : List UDPAddr} (h : ∀ a ∈ addrs, a.Valid) :
    List.Forall₂ (Spells P) (udpAddrsToIpPorts P addrs) addrs := by
  unfold udpAddrsToIpPorts
  rw [List.forall₂_map_left_iff, List.forall₂_same]
  intro a ha
  exact spells_udpAddrToIpPort htext (h a ha)

end Text

/-- Nothing of a list that spells endpoints is left out when it is read. -/
theorem sameAddrs_of_spells {ports : List IpPort} {addrs : List UDPAddr}
    (h : List.Forall₂ (Spells P) ports addrs) : SameAddrs (ipPortsToUDPAddrs P ports) addrs := by
  induction h with
  | nil => exact .nil
  | cons hspells _ ih =>
      obtain ⟨b, hb, hsame⟩ := hspells
      rw [ipPortsToUDPAddrs, List.filterMap_cons_some (by rw [hb]; rfl)]
      exact .cons hsame ih

theorem spells_of_sameAddrs {ports : List IpPort} {addrs addrs' : List UDPAddr}
    (h : List.Forall₂ (Spells P) ports addrs) (hsame : SameAddrs addrs addrs') :
    List.Forall₂ (Spells P) ports addrs' := by
  induction h generalizing addrs' with
  | nil =>
      cases hsame
      exact .nil
  | cons hspells _ ih =>
      obtain ⟨b, hb, hba⟩ := hspells
      cases hsame with
      | cons haa hrest => exact .cons ⟨b, hb, hba.trans haa⟩ (ih hrest)

namespace LightHouse

/-! ### What the nodes ask of a lighthouse -/

/-- What a node asks of a lighthouse. -/
inductive Request where
  | update (addrs : List UDPAddr)
  | query (vpnIP : Addr)

namespace Request

variable (P) in
/-- The request on the wire. -/
def message : Request → LightHouseMessage
  | update addrs => ⟨some (.update (udpAddrsToIpPorts P addrs))⟩
  | query vpnIP => ⟨some (.query (P.addrString vpnIP))⟩

/-- The request survives being written as text. -/
def Valid : Request → Prop
  | update addrs => ∀ a ∈ addrs, a.Valid
  | query vpnIP => vpnIP ≠ .zero

end Request

/-- These are the messages of `Advertise` and `QueryPeer`. -/
theorem requests_of_node (lh : LightHouse) (env : Env P) (vpnIP : Addr) :
    lh.advertise env
        = lh.lighthouses.flatMap (lh.send env ((Request.update lh.myAddrs).message P)) ∧
      lh.queryPeer env vpnIP
        = lh.lighthouses.flatMap (lh.send env ((Request.query vpnIP).message P)) :=
  ⟨rfl, rfl⟩

/-- A request that has reached the lighthouse. -/
structure Input (P : Platform) where
  env : Env P
  sender : Addr
  request : Request

/-- A lighthouse handles one request. -/
def serve (lh : LightHouse) (i : Input P) : LightHouse × List Effect :=
  lh.handleMessage i.env (i.request.message P) i.sender

/-- The lighthouse after the requests. -/
def served (lh : LightHouse) (is : List (Input P)) : LightHouse := (Trace.run serve lh is).1

theorem served_concat (lh : LightHouse) (is : List (Input P)) (i : Input P) :
    lh.served (is ++ [i]) = ((lh.served is).serve i).1 := by
  rw [served, Trace.run_append]
  rfl

/-! ### The register

A lighthouse knows of a node what it was told last, and before that what it was configured with. -/

/-- The addresses the input says `v` has. -/
def Input.updateOf (v : Addr) (i : Input P) : Option (List UDPAddr) :=
  match i.request with
  | .update addrs => if i.sender = v then some addrs else none
  | .query _ => none

/-- The last update of `v`. -/
def lastUpdate (v : Addr) (is : List (Input P)) : Option (List UDPAddr) :=
  is.reverse.findSome? (Input.updateOf v)

/-- What there is to know about `v`: its last update, or what the lighthouse started with. -/
def known (lh : LightHouse) (is : List (Input P)) (v : Addr) : List UDPAddr :=
  (lastUpdate v is).getD (lh.stored v)

theorem known_concat (lh : LightHouse) (is : List (Input P)) (i : Input P) (v : Addr) :
    lh.known (is ++ [i]) v = (i.updateOf v).getD (lh.known is v) := by
  simp only [known, lastUpdate, List.reverse_append, List.reverse_singleton, List.singleton_append,
    List.findSome?_cons]
  cases i.updateOf v with
  | none => rfl
  | some addrs => rfl

theorem Input.valid_of_updateOf {i : Input P} {v : Addr} {addrs : List UDPAddr}
    (hvalid : i.request.Valid) (h : i.updateOf v = some addrs) : ∀ a ∈ addrs, a.Valid := by
  unfold Input.updateOf at h
  cases hreq : i.request with
  | query u => simp [hreq] at h
  | update addrs' =>
      by_cases hv : i.sender = v
      · simp only [hreq, if_pos hv, Option.some.injEq] at h
        rw [hreq, h] at hvalid
        exact hvalid
      · simp [hreq, hv] at h

theorem known_valid {lh : LightHouse} (hstatic : ∀ v, ∀ a ∈ lh.stored v, a.Valid)
    {is : List (Input P)} (hvalid : ∀ i ∈ is, i.request.Valid) (v : Addr) :
    ∀ a ∈ lh.known is v, a.Valid := by
  induction is using List.reverseRecOn with
  | nil => exact hstatic v
  | append_singleton is i ih =>
      rw [known_concat]
      cases hupdate : i.updateOf v with
      | none => exact ih fun j hj => hvalid j (List.mem_append_left _ hj)
      | some addrs => exact Input.valid_of_updateOf (hvalid i (by simp)) hupdate

/-- One request: the role stays, and the entry of `v` is written by an update of `v` alone. -/
theorem serve_fst (lh : LightHouse) (ham : lh.amLighthouse = true) (i : Input P) (v : Addr) :
    (lh.serve i).1.amLighthouse = true ∧
      (lh.serve i).1.stored v = ((i.updateOf v).map fun addrs =>
        ipPortsToUDPAddrs P (udpAddrsToIpPorts P addrs)).getD (lh.stored v) := by
  unfold serve Input.updateOf
  cases i.request with
  | query u => exact ⟨ham, rfl⟩
  | update addrs =>
      simp only [Request.message, handleMessage, handleUpdate, if_pos ham]
      refine ⟨ham, ?_⟩
      unfold stored store
      by_cases hv : i.sender = v
      · simp [hv]
      · simp [hv, Function.update_of_ne (Ne.symm hv)]

/-- **A lighthouse is a register.**  After any requests it has for every node, up to the form of the
addresses, what the node advertised last. -/
theorem stored_served (htext : P.TextualAddrs) (lh : LightHouse) (ham : lh.amLighthouse = true)
    (is : List (Input P)) (hvalid : ∀ i ∈ is, i.request.Valid) :
    (lh.served is).amLighthouse = true ∧
      ∀ v, SameAddrs ((lh.served is).stored v) (lh.known is v) := by
  induction is using List.reverseRecOn with
  | nil => exact ⟨ham, fun v => .refl _⟩
  | append_singleton is i ih =>
      obtain ⟨ham', hold⟩ := ih fun j hj => hvalid j (List.mem_append_left _ hj)
      have hserve := (lh.served is).serve_fst ham' i
      rw [served_concat]
      refine ⟨(hserve .zero).1, ?_⟩
      intro v
      rw [(hserve v).2, known_concat]
      cases hupdate : i.updateOf v with
      | none => exact hold v
      | some addrs =>
          exact sameAddrs_of_spells (spells_udpAddrsToIpPorts htext
            (Input.valid_of_updateOf (hvalid i (by simp)) hupdate))

/-! ### Replies -/

variable (P) in
/-- The reply to a query. -/
def replyMessage (v : Addr) (ports : List IpPort) : LightHouseMessage :=
  ⟨some (.queryReply (P.addrString v) ports)⟩

/-- `effs` is the reply to a query of `q` for `v`: it lists `addrs`, it is sent to the addresses the
lighthouse has for `q`, and a node that handles it has `addrs` for `v`. -/
structure Answers (lh : LightHouse) (env : Env P) (q v : Addr) (addrs : List UDPAddr)
    (ports : List IpPort) (effs : List Effect) : Prop where
  lists : List.Forall₂ (Spells P) ports addrs
  reply : effs = lh.send env (replyMessage P v ports) q
  sentTo : ∀ data dest ok, .writeTo data dest ok ∈ effs →
    effs = (lh.stored q).map (env.send data)
  decoded : ∀ data dest ok, .writeTo data dest ok ∈ effs →
    P.unmarshalLightHouse (data.drop headerLen) = .ok (replyMessage P v ports)
  learned : ∀ (querier : LightHouse) (env' : Env P) (src : Addr),
    SameAddrs ((querier.handleMessage env' (replyMessage P v ports) src).1.getAddrs v) addrs

/-- Every datagram of `send` is the packet of the message, and goes to an address of the peer. -/
theorem of_mem_send {lh : LightHouse} {env : Env P} {msg : LightHouseMessage} {q : Addr}
    {data : Bytes} {dest : UDPAddr} {ok : Bool} (h : .writeTo data dest ok ∈ lh.send env msg q) :
    marshalLightHousePacket P msg = .ok data ∧
      lh.send env msg q = (lh.stored q).map (env.send data) := by
  unfold send at h ⊢
  cases hwire : marshalLightHousePacket P msg with
  | error e =>
      rw [hwire] at h
      cases h
  | ok wire =>
      rw [hwire] at h
      obtain ⟨a, -, heq⟩ := List.mem_map.mp h
      rw [← (Effect.writeTo.inj heq).1]
      exact ⟨rfl, rfl⟩

theorem unmarshal_of_marshal (hcodec : P.LightHouseCodec) {msg : LightHouseMessage} {data : Bytes}
    (h : marshalLightHousePacket P msg = .ok data) :
    P.unmarshalLightHouse (data.drop headerLen) = .ok msg := by
  unfold marshalLightHousePacket at h
  cases hbody : P.marshalLightHouse msg with
  | error e =>
      rw [hbody] at h
      cases h
  | ok body =>
      rw [hbody] at h
      obtain rfl := Except.ok.inj h
      rw [Header.drop_bytes]
      exact hcodec msg body hbody

theorem getAddrs_of_replyMessage (htext : P.TextualAddrs) {v : Addr} (hv : v ≠ .zero)
    (ports : List IpPort) (querier : LightHouse) (env : Env P) (src : Addr) :
    (querier.handleMessage env (replyMessage P v ports) src).1.getAddrs v
      = ipPortsToUDPAddrs P ports := by
  simp only [handleMessage, replyMessage, handleQueryReply, htext.addr v hv]
  simp [getAddrs, stored, store]

/-- **Discovery returns the latest advertisement.**  Requests reach a lighthouse in any order, any
number of times or not at all.  The next one is answered only if it is a query; then the reply
lists, in order, what the queried node advertised last, or its static entries, is sent to the
addresses the lighthouse has for the node that asked, and leaves that node with this list. -/
theorem served_queries (hcodec : P.LightHouseCodec) (htext : P.TextualAddrs) (lh : LightHouse)
    (ham : lh.amLighthouse = true) (hstatic : ∀ v, ∀ a ∈ lh.stored v, a.Valid)
    (is : List (Input P)) (i : Input P) (hvalid : ∀ j ∈ is ++ [i], j.request.Valid) :
    (∀ addrs, i.request = .update addrs → ((lh.served is).serve i).2 = []) ∧
    ∀ v, i.request = .query v →
      ∃ ports, Answers (lh.served is) i.env i.sender v (lh.known is v) ports
        ((lh.served is).serve i).2 := by
  refine ⟨?_, ?_⟩
  · intro addrs hreq
    rw [serve, hreq]
    rfl
  · intro v hreq
    have hv : v ≠ .zero := by
      have hi := hvalid i (by simp)
      rwa [hreq] at hi
    have hpast : ∀ j ∈ is, j.request.Valid := fun j hj => hvalid j (List.mem_append_left _ hj)
    have hsame := (stored_served htext lh ham is hpast).2 v
    -- what is stored can be spelled again
    have hspells : List.Forall₂ (Spells P)
        (udpAddrsToIpPorts P ((lh.served is).stored v)) (lh.known is v) :=
      spells_of_sameAddrs (spells_udpAddrsToIpPorts htext
        (hsame.valid (known_valid hstatic hpast v))) hsame
    have hreply : ((lh.served is).serve i).2 = (lh.served is).send i.env
        (replyMessage P v (udpAddrsToIpPorts P ((lh.served is).stored v))) i.sender := by
      simp only [serve, hreq, Request.message, handleMessage, handleQuery, htext.addr v hv]
      rfl
    refine ⟨_, hspells, hreply, ?_, ?_, ?_⟩
    · intro data dest ok hmem
      rw [hreply] at hmem ⊢
      exact (of_mem_send hmem).2
    · intro data dest ok hmem
      rw [hreply] at hmem
      exact unmarshal_of_marshal hcodec (of_mem_send hmem).1
    · intro querier env' src
      rw [getAddrs_of_replyMessage htext hv]
      exact sameAddrs_of_spells hspells

section Concrete

open Symbolic

/-- A lighthouse that knows node 2. -/
def directory : LightHouse := (new true [] []).addStaticEntry (nodeIP 2) (nodeAddr 2)

/-- Surroundings in which every write succeeds. -/
def discoveryEnv : Env discovery := ⟨0, .error "", [], fun _ _ => .ok (), []⟩

/-- Node 1 advertises twice. -/
def advertised : List (Input discovery) :=
  [⟨discoveryEnv, nodeIP 1, .update [nodeAddr 3]⟩, ⟨discoveryEnv, nodeIP 1, .update [nodeAddr 1]⟩]

/-- Node 2 asks for node 1. -/
def asked : Input discovery := ⟨discoveryEnv, nodeIP 2, .query (nodeIP 1)⟩

/-- Node 2 is told what node 1 advertised last. -/
theorem served_queries_node1 :
    directory.known advertised (nodeIP 1) = [nodeAddr 1] ∧
      ((directory.served advertised).serve asked).2 ≠ [] ∧
      ∃ ports, Answers (directory.served advertised) discoveryEnv (nodeIP 2) (nodeIP 1)
        (directory.known advertised (nodeIP 1)) ports
        ((directory.served advertised).serve asked).2 := by
  have hvalid : ∀ n, (nodeAddr n).Valid := fun n => ⟨.inl rfl, show 4242 < 2 ^ 32 by decide⟩
  refine ⟨by decide, by decide +kernel, ?_⟩
  refine (served_queries (P := discovery) lightHouseCodec textualAddrs directory rfl ?_ advertised
    asked ?_).2 (nodeIP 1) rfl
  · intro v a ha
    have hmem : a ∈ [nodeAddr 2] := by
      unfold directory addStaticEntry stored store at ha
      by_cases hv : v = nodeIP 2
      · simpa [hv, stored, new] using ha
      · simp [hv, new] at ha
    rw [List.mem_singleton.mp hmem]
    exact hvalid 2
  · intro j hj
    simp only [advertised, List.cons_append, List.nil_append, List.mem_cons, List.not_mem_nil,
      or_false] at hj
    rcases hj with rfl | rfl | rfl
    · simpa [Request.Valid] using hvalid 3
    · simpa [Request.Valid] using hvalid 1
    · simp [asked, Request.Valid, nodeIP, Addr.from4]

end Concrete

/-! ### Several replies

A reply replaces what was known of the peer, even if it is empty. -/

/-- The replies are handled one after the other. -/
def handleReplies (P : Platform) (lh : LightHouse) (rs : List (String × List IpPort)) :
    LightHouse :=
  rs.foldl (fun lh r => lh.handleQueryReply P r.1 r.2) lh

/-- The last reply counts. -/
theorem getAddrs_handleReplies (lh : LightHouse) {v : Addr} {rs : List (String × List IpPort)}
    (hrs : ∀ r ∈ rs, P.parseAddr r.1 = some v) :
    (handleReplies P lh rs).getAddrs v
      = (rs.getLast?.map fun r => ipPortsToUDPAddrs P r.2).getD (lh.getAddrs v) := by
  induction rs using List.reverseRecOn with
  | nil => rfl
  | append_singleton rs r _ =>
      rw [handleReplies, List.foldl_append, List.getLast?_concat]
      simp only [List.foldl_cons, List.foldl_nil, handleQueryReply, hrs r (by simp)]
      simp [getAddrs, stored, store]

/-- **When replies do not erase each other.**  Replies for `v` come in any order.  What they or the
registry had for `v` survives every order if and only if each of them has an address, or there is
nothing to lose. -/
theorem replies_keep_iff (lh : LightHouse) (v : Addr) (rs : List (String × List IpPort))
    (hrs : ∀ r ∈ rs, P.parseAddr r.1 = some v) :
    (∀ rs', rs'.Perm rs → ((∃ r ∈ rs, ipPortsToUDPAddrs P r.2 ≠ []) ∨ lh.getAddrs v ≠ []) →
        (handleReplies P lh rs').getAddrs v ≠ []) ↔
      (∀ r ∈ rs, ipPortsToUDPAddrs P r.2 ≠ []) ∨
      (lh.getAddrs v = [] ∧ ∀ r ∈ rs, ipPortsToUDPAddrs P r.2 = []) := by
  constructor
  · intro hkeep
    by_contra hnot
    rw [not_or] at hnot
    obtain ⟨hempty, hsomething⟩ := hnot
    push Not at hempty
    obtain ⟨r, hr, hnone⟩ := hempty
    -- let the empty reply come last
    have hperm : (rs.erase r ++ [r]).Perm rs :=
      (List.perm_append_singleton r _).trans (List.perm_cons_erase hr).symm
    refine hkeep _ hperm ?_ ?_
    · by_contra hlost
      push Not at hlost
      exact hsomething ⟨hlost.2, hlost.1⟩
    · rw [getAddrs_handleReplies lh fun r' hr' => hrs r' (hperm.mem_iff.mp hr'),
        List.getLast?_concat]
      exact hnone
  · intro h rs' hperm hsome
    rw [getAddrs_handleReplies lh fun r' hr' => hrs r' (hperm.mem_iff.mp hr')]
    rcases h with hall | ⟨hnothing, hnone⟩
    · cases hlast : rs'.getLast? with
      | none =>
          -- no reply at all
          have hnil : rs' = [] := List.getLast?_eq_none_iff.mp hlast
          rw [hnil, List.nil_perm] at hperm
          rcases hsome with ⟨r, hr, -⟩ | hsome
          · rw [hperm] at hr
            cases hr
          · exact hsome
      | some r => exact hall r (hperm.mem_iff.mp (List.mem_of_getLast? hlast))
    · rcases hsome with ⟨r, hr, hsome⟩ | hsome
      · exact absurd (hnone r hr) hsome
      · exact absurd hnothing hsome

section Concrete

open Symbolic

/-- What three lighthouses answer about node 1. -/
def threeReplies : List (String × List IpPort) :=
  [("10.0.0.1", [⟨"192.0.2.1", 4242⟩]), ("10.0.0.1", [⟨"192.0.2.1", 4242⟩, ⟨"192.0.2.7", 4242⟩]),
    ("10.0.0.1", [⟨"192.0.2.8", 4242⟩])]

/-- Each of them has an address, and they come the other way round. -/
theorem replies_keep_three :
    (handleReplies discovery ((new false [] []).addStaticEntry (nodeIP 1) (nodeAddr 1))
      threeReplies.reverse).getAddrs (nodeIP 1) ≠ [] :=
  (replies_keep_iff (P := discovery) ((new false [] []).addStaticEntry (nodeIP 1) (nodeAddr 1))
    (nodeIP 1) threeReplies (by decide +kernel)).mpr (.inl (by decide +kernel)) _
    threeReplies.reverse_perm (.inl (by decide +kernel))

/-- **An empty reply erases a static entry**, and the address another lighthouse gave. -/
theorem empty_reply_erases :
    discovery.parseAddr "10.0.0.1" = some (nodeIP 1) ∧
      ((new false [] []).addStaticEntry (nodeIP 1) (nodeAddr 1)).getAddrs (nodeIP 1) ≠ [] ∧
      (handleReplies discovery ((new false [] []).addStaticEntry (nodeIP 1) (nodeAddr 1))
        [("10.0.0.1", [⟨"192.0.2.1", 4242⟩]), ("10.0.0.1", [])]).getAddrs (nodeIP 1) = [] := by
  refine ⟨by decide +kernel, by decide +kernel, by decide +kernel⟩

end Concrete

end LightHouse

end Neth
