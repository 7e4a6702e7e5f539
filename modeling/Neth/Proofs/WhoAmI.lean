/-
What a node is told about itself.

A node behind a NAT asks a lighthouse under which address it is seen, and puts the
answer at the front of the list it advertises.  Two things are said about that.

The list only ever grows.  All other messages are idempotent: a query reply and an
update overwrite one entry of the registry with a list that does not depend on what
was there.  A reply to `WhoAmI` is put in front of what is there, whether or not it
says anything new, so a datagram that is delivered twice is listed twice.

The answer need not be the address the question came from.  The dispatcher knows
that address, but `handleWhoAmI` is given the VPN IP it was resolved to, and answers
with the first address registered for it.
-/
import Neth.Proofs.Discovery
import Neth.Proofs.Senders

namespace Neth

variable {P : Platform}

/-! ### The list a node advertises -/

namespace LightHouse

theorem reported_eq_none_iff (body : Option LightHouseBody) :
    body.bind (reported P) = none
      ↔ ∀ p, body = some (.whoAmIReply (some p)) → P.parseIP p.ip = none := by
  rcases body with _ | body
  · simp
  · cases body with
    | whoAmIReply addr =>
        cases addr with
        | none => simp [reported]
        | some p =>
            cases hp : P.parseIP p.ip with
            | none =>
                have herror : (ipPortToUDPAddr P p).toOption = none := by
                  rw [ipPortToUDPAddr, hp]
                  rfl
                simp [reported, herror, hp]
            | some ip =>
                have hok : (ipPortToUDPAddr P p).toOption = some ⟨ip, p.port.toNat⟩ := by
                  rw [ipPortToUDPAddr, hp]
                  rfl
                simp [reported, hok, hp]
    | query _ | queryReply _ _ | update _ | whoAmI | punch _ _ => simp [reported]

/-- **What a message does to the advertised addresses**, for all six kinds. -/
theorem myAddrs_handleMessage (lh : LightHouse) (env : Env P) (msg : LightHouseMessage)
    (sender : Addr) :
    (lh.handleMessage env msg sender).1.myAddrs
      = (msg.body.bind (reported P)).toList ++ lh.myAddrs := by
  rw [handleMessage_fst]

theorem amLighthouse_handleMessage (lh : LightHouse) (env : Env P) (msg : LightHouseMessage)
    (sender : Addr) : (lh.handleMessage env msg sender).1.amLighthouse = lh.amLighthouse := by
  rw [handleMessage_fst]

/-- What a message writes depends on the lighthouse only through its role. -/
theorem written_congr {lh lh' : LightHouse} (h : lh.amLighthouse = lh'.amLighthouse)
    (sender : Addr) (body : LightHouseBody) :
    lh.written P sender body = lh'.written P sender body := by
  cases body with
  | update addrs => rw [written, written, h]
  | query _ | queryReply _ _ | whoAmI | whoAmIReply _ | punch _ _ => rfl

/-- Writing an entry twice is writing it once. -/
theorem overwrite_overwrite (store : GoMap Addr (List UDPAddr)) (w : Option (Addr × List UDPAddr)) :
    overwrite (overwrite store w) w = overwrite store w := by
  rcases w with _ | ⟨v, addrs⟩
  · rfl
  · exact Function.update_idem _ _ _

/-- **Which messages may be duplicated.**  Handling a message twice leaves the registry and the
advertised addresses as handling it once does, except for a reply to `WhoAmI` whose address
parses. -/
theorem handleMessage_twice_iff (lh : LightHouse) (env env' : Env P) (msg : LightHouseMessage)
    (sender : Addr) :
    (((lh.handleMessage env msg sender).1.handleMessage env' msg sender).1.addrStore
        = (lh.handleMessage env msg sender).1.addrStore ∧
      ((lh.handleMessage env msg sender).1.handleMessage env' msg sender).1.myAddrs
        = (lh.handleMessage env msg sender).1.myAddrs)
      ↔ ∀ p, msg.body = some (.whoAmIReply (some p)) → P.parseIP p.ip = none := by
  have hwritten : (lh.handleMessage env msg sender).1.written P sender = lh.written P sender :=
    funext (written_congr (amLighthouse_handleMessage lh env msg sender) sender)
  rw [addrStore_handleMessage, addrStore_handleMessage, hwritten, overwrite_overwrite,
    myAddrs_handleMessage, myAddrs_handleMessage, ← reported_eq_none_iff]
  cases msg.body.bind (reported P) with
  | none => simp
  | some a =>
      -- one more entry than after the first delivery
      simp

section Concrete

open Symbolic

/-- A reply to `WhoAmI` that reports the address of node 1. -/
def observedReply : LightHouseMessage := ⟨some (.whoAmIReply (some ⟨"192.0.2.1", 4242⟩))⟩

/-- **A duplicated reply is advertised twice.**  The lighthouse, node 9, tells node 1 where it is
seen, and the network delivers the datagram twice. -/
theorem handleMessage_duplicate_reply :
    let lh := (new false [nodeIP 9] []).addStaticEntry (nodeIP 9) (nodeAddr 9)
    let once := (lh.handleMessage Interface.listedEnv observedReply (nodeIP 9)).1
    let twice := (once.handleMessage Interface.listedEnv observedReply (nodeIP 9)).1
    once.myAddrs = [nodeAddr 1] ∧ twice.myAddrs = [nodeAddr 1, nodeAddr 1] := by
  decide +kernel

end Concrete

end LightHouse

/-! ### The address a node is told

The question comes with the address to answer with, but the handler is given the VPN IP that address
resolves to.  So the answer is the first address registered for that. -/

namespace Interface

/-- The reply that tells a node it is seen at `p`. -/
def reflection (P : Platform) (p : UDPAddr) : LightHouseMessage :=
  ⟨some (.whoAmIReply (some (udpAddrToIpPort P p)))⟩

/-- Among the datagrams sent, every reply to `WhoAmI` reports `p`, and one of them goes to `p`. -/
def Reflects (P : Platform) (p : UDPAddr) (effs : List Effect) : Prop :=
  (∀ data dest ok addr, .writeTo data dest ok ∈ effs →
    lightHouseBody P data = some (.whoAmIReply addr) → addr = some (udpAddrToIpPort P p)) ∧
  ∃ data dest ok addr, .writeTo data dest ok ∈ effs ∧
    lightHouseBody P data = some (.whoAmIReply addr) ∧ dest.Same p

/-- The registry lists `p` for `v`, and the first address it has for `v` reads the same. -/
def ListsFirst (P : Platform) (lh : LightHouse) (v : Addr) (p : UDPAddr) : Prop :=
  (lh.stored v).head?.map (udpAddrToIpPort P) = some (udpAddrToIpPort P p) ∧ lh.Lists v p

/-- What a question is answered with. -/
theorem snd_consumeOutsidePacket_whoAmI {I : Interface P} {env : Env P} {pkt : Bytes} {hdr : Header}
    {p : UDPAddr} {v : Addr} (hparse : Header.parse pkt = .ok hdr)
    (htype : hdr.type = typeLightHouse) (hsender : I.senderVPN env hdr p = some v)
    (hbody : lightHouseBody P pkt = some .whoAmI) :
    (I.consumeOutsidePacket env pkt p).2 = I.lighthouse.handleWhoAmI env v := by
  obtain ⟨msg, hmsg, hask⟩ : ∃ msg, P.unmarshalLightHouse (pkt.drop headerLen) = .ok msg ∧
      msg.body = some .whoAmI := by
    unfold lightHouseBody at hbody
    cases hdec : P.unmarshalLightHouse (pkt.drop headerLen) with
    | error e =>
        rw [hdec] at hbody
        cases hbody
    | ok msg =>
        rw [hdec] at hbody
        exact ⟨msg, rfl, hbody⟩
  have hhandle : I.consumeOutsidePacket env pkt p = I.handleLightHouse env pkt hdr p := by
    simp [consumeOutsidePacket, Header.length_of_parse hparse, hparse, htype, typeLightHouse,
      typeMessage, typeHandshake]
  rw [hhandle, handleLightHouse]
  simp only
  split
  · rename_i hnone
    have hsender' : I.senderVPN env hdr p = none := hnone
    rw [hsender'] at hsender
    cases hsender
  · rename_i sender hsome
    have hsender' : I.senderVPN env hdr p = some sender := hsome
    obtain rfl := Option.some.inj (hsender'.symm.trans hsender)
    simp only [hmsg, LightHouse.handleMessage, hask]

theorem reflects_send_iff (hcodec : P.LightHouseCodec) (lh : LightHouse) (env : Env P) (v : Addr)
    (p : UDPAddr) (hmarshal : ∃ b, P.marshalLightHouse (reflection P p) = .ok b) :
    Reflects P p (lh.handleWhoAmI env v) ↔ ListsFirst P lh v p := by
  have hdecoded : ∀ {data dest ok}, .writeTo data dest ok ∈ lh.handleWhoAmI env v →
      lightHouseBody P data
        = some (.whoAmIReply ((lh.stored v).head?.map (udpAddrToIpPort P))) := by
    intro data dest ok hmem
    obtain ⟨hwire, -⟩ := LightHouse.of_mem_send hmem
    rw [lightHouseBody, LightHouse.unmarshal_of_marshal hcodec hwire]
    rfl
  constructor
  · rintro ⟨hall, data, dest, ok, addr, hmem, hreply, hsame⟩
    have haddr := hall data dest ok addr hmem hreply
    rw [hdecoded hmem] at hreply
    obtain rfl := LightHouseBody.whoAmIReply.inj (Option.some.inj hreply)
    refine ⟨haddr, dest, ?_, hsame⟩
    rw [LightHouse.handleWhoAmI, (LightHouse.of_mem_send hmem).2] at hmem
    obtain ⟨a, ha, heq⟩ := List.mem_map.mp hmem
    rwa [← (Effect.writeTo.inj heq).2.1]
  · rintro ⟨hfirst, a, ha, hsame⟩
    constructor
    · intro data dest ok addr hmem hreply
      rw [hdecoded hmem, hfirst] at hreply
      exact (LightHouseBody.whoAmIReply.inj (Option.some.inj hreply)).symm
    · obtain ⟨b, hb⟩ := hmarshal
      have hwire : marshalLightHousePacket P (reflection P p)
          = .ok (Header.bytes ⟨headerVersion, typeLightHouse, 0, 0, 0⟩ ++ b) := by
        simp only [marshalLightHousePacket, hb]
        rfl
      have hsent : env.send (Header.bytes ⟨headerVersion, typeLightHouse, 0, 0, 0⟩ ++ b) a
          ∈ lh.handleWhoAmI env v := by
        simp only [LightHouse.handleWhoAmI, hfirst, LightHouse.send]
        rw [show marshalLightHousePacket P
          ⟨some (.whoAmIReply (some (udpAddrToIpPort P p)))⟩ = _ from hwire]
        exact List.mem_map_of_mem ha
      exact ⟨_, a, _, _, hsent, hdecoded hsent, hsame⟩

/-- **When a node is told where it is seen.**  A `WhoAmI` that arrives from `p` is answered with
`p`, at `p`, exactly when the registry lists `p` for the node it takes the sender for and lists it
first. -/
theorem whoAmI_reflects_iff (hcodec : P.LightHouseCodec) (I : Interface P) (env : Env P)
    (pkt : Bytes) (hdr : Header) (p : UDPAddr) (v : Addr)
    (hmarshal : ∃ b, P.marshalLightHouse (reflection P p) = .ok b)
    (hparse : Header.parse pkt = .ok hdr) (htype : hdr.type = typeLightHouse)
    (hbody : lightHouseBody P pkt = some .whoAmI) (hsender : I.senderVPN env hdr p = some v) :
    Reflects P p (I.consumeOutsidePacket env pkt p).2 ↔ ListsFirst P I.lighthouse v p := by
  rw [snd_consumeOutsidePacket_whoAmI hparse htype hsender hbody]
  exact reflects_send_iff hcodec I.lighthouse env v p hmarshal

section Concrete

open Symbolic

/-- The question. -/
def whoAmI : Bytes := lightHouseHeader.bytes ++ marshalLightHouse ⟨some .whoAmI⟩

/-- Node 1, known by its static address only, is told that address. -/
theorem whoAmI_reflects_static :
    ListsFirst discovery (beacon.node discovery []).lighthouse (nodeIP 1) (nodeAddr 1) ∧
      Reflects discovery (nodeAddr 1)
        ((beacon.node discovery []).consumeOutsidePacket beaconEnv whoAmI (nodeAddr 1)).2 := by
  have hfirst : ListsFirst discovery (beacon.node discovery []).lighthouse (nodeIP 1)
      (nodeAddr 1) := by
    refine ⟨by decide +kernel, nodeAddr 1, by decide +kernel, .refl _⟩
  refine ⟨hfirst, (whoAmI_reflects_iff lightHouseCodec _ beaconEnv whoAmI lightHouseHeader
    (nodeAddr 1) (nodeIP 1) ⟨_, rfl⟩ (by decide +kernel) rfl (by decide +kernel)
    (by decide +kernel)).mpr hfirst⟩

/-- An update in which node 1 lists the address it has inside its own network before the one it is
seen at. -/
def updateBoth : Bytes :=
  lightHouseHeader.bytes
    ++ marshalLightHouse ⟨some (.update [⟨"10.1.1.1", 4242⟩, ⟨"192.0.2.1", 4242⟩])⟩

/-- The lighthouse after that update. -/
def updated : Interface discovery :=
  ((beacon.node discovery []).run [(beaconEnv, .outside updateBoth (nodeAddr 1))]).1

/-- **A node is told what it advertised itself.**  The question arrives from the address the node
is seen at, and the answer, sent there too, is the address inside its network. -/
theorem whoAmI_answers_first_entry :
    let effs := (updated.consumeOutsidePacket beaconEnv whoAmI (nodeAddr 1)).2
    Header.parse whoAmI = .ok lightHouseHeader ∧
      lightHouseBody discovery whoAmI = some .whoAmI ∧
      updated.senderVPN beaconEnv lightHouseHeader (nodeAddr 1) = some (nodeIP 1) ∧
      (∃ data, .writeTo data (nodeAddr 1) true ∈ effs ∧
        lightHouseBody discovery data = some (.whoAmIReply (some ⟨"10.1.1.1", 4242⟩))) ∧
      ¬ Reflects discovery (nodeAddr 1) effs := by
  intro effs
  have hsent : Effect.writeTo (lightHouseHeader.bytes
        ++ marshalLightHouse ⟨some (.whoAmIReply (some ⟨"10.1.1.1", 4242⟩))⟩) (nodeAddr 1) true
      ∈ effs := by
    decide +kernel
  have hbody : lightHouseBody discovery (lightHouseHeader.bytes
        ++ marshalLightHouse ⟨some (.whoAmIReply (some ⟨"10.1.1.1", 4242⟩))⟩)
      = some (.whoAmIReply (some ⟨"10.1.1.1", 4242⟩)) := by
    decide +kernel
  refine ⟨by decide +kernel, by decide +kernel, by decide +kernel, ⟨_, hsent, hbody⟩, ?_⟩
  intro hreflects
  have hsays := hreflects.1 _ _ _ _ hsent hbody
  exact absurd hsays (by decide +kernel)

end Concrete

end Interface

end Neth
