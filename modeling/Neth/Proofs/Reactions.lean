/-
Datagrams in answer to datagrams.

What a node sends in reaction to a datagram is of one kind, and which kind depends on
nothing but the kind of the datagram: a response to an initiation, queued data packets
to a response, a punch to data of an unknown session, a reply to a question of peer
discovery, and nothing to any of these replies.  So a chain of reactions is at most
four datagrams deep, whatever the two nodes have in their tables.

The exception is a test, which is answered by another test.
-/
import Neth.Lib.Reactions
import Neth.Proofs.Registry
import Neth.Proofs.RoundTrip
import Neth.Proofs.Control
import Neth.Proofs.Symbolic

namespace Neth

open Lossy

variable {P : Platform}

/-! ### Kinds of datagrams -/

/-- Datagrams by what they make a node send. -/
inductive Kind where
  | initiation
  | response
  | data
  /-- A lighthouse message that asks for datagrams: a query, `WhoAmI` or a punch notification. -/
  | request
  | test
  /-- Anything no node ever answers. -/
  | silent
  deriving DecidableEq

/-- The kind of a lighthouse message. -/
def LightHouseBody.kind : LightHouseBody → Kind
  | .query _ | .whoAmI | .punch _ _ => .request
  | .queryReply _ _ | .update _ | .whoAmIReply _ => .silent

/-- The kind of a datagram with a given header and, if it is from a lighthouse, body. -/
def Header.kind (hdr : Header) (body : Option LightHouseBody) : Kind :=
  if hdr.type = typeMessage then .data
  else if hdr.type = typeHandshake then
    if hdr.subType = handshakeInitiation then .initiation
    else if hdr.subType = handshakeResponse then .response
    else .silent
  else if hdr.type = typeLightHouse then (body.map LightHouseBody.kind).getD .silent
  else if hdr.type = typeTest then .test
  else .silent

variable (P) in
/-- The kind of a datagram; one without a header is ignored like any other that is not understood.
-/
def kind (pkt : Bytes) : Kind :=
  match Header.parse pkt with
  | .error _ => .silent
  | .ok hdr => hdr.kind (Interface.lightHouseBody P pkt)

/-- What a datagram is answered with. -/
def Kind.answer : Kind → Option Kind
  | .initiation => some .response
  | .response => some .data
  | .data => some .silent
  | .request => some .silent
  | .test => some .test
  | .silent => none

theorem kind_of_parse {pkt : Bytes} {hdr : Header} (h : Header.parse pkt = .ok hdr) :
    kind P pkt = hdr.kind (Interface.lightHouseBody P pkt) := by
  unfold kind
  rw [h]

theorem kind_nil : kind P [] = .silent := rfl

theorem kind_of_isHandshake {subtype : HandshakeSubType} {pkt : Bytes}
    (h : IsHandshake subtype pkt) : kind P pkt =
      if subtype = handshakeInitiation then .initiation
      else if subtype = handshakeResponse then .response
      else .silent := by
  obtain ⟨hdr, hparse, htype, rfl⟩ := h
  rw [kind_of_parse hparse, Header.kind, if_neg (by rw [htype]; decide), if_pos htype]

theorem kind_datagram (h : HostInfo) (plaintext : Bytes) :
    kind P (h.datagram P plaintext) = .data := by
  rw [HostInfo.datagram, kind_of_parse (Header.parse_bytes_append _ rfl
    (show typeMessage < 16 by decide) _)]
  rfl

/-! ### What each handler sends -/

theorem Punchy.wrote_respondToPunch {p : Punchy} {env : Env P} {src : UDPAddr} {data : Bytes}
    (h : Wrote (p.respondToPunch env src) data) : data = [] := by
  unfold respondToPunch at h
  split at h
  · exact wrote_of_send h
  · exact absurd h not_wrote_nil

theorem wrote_map_send {env : Env P} {data data' : Bytes} {addrs : List UDPAddr}
    (h : Wrote (addrs.map (env.send data)) data') : data' = data := by
  obtain ⟨addr, hmem⟩ := h
  obtain ⟨addr', -, heq⟩ := List.mem_map.mp hmem
  exact (Effect.writeTo.inj heq).1.symm

namespace LightHouse

variable {lh : LightHouse} {env : Env P} {data : Bytes}

/-- A reply is of the kind of its message. -/
theorem kind_of_send (hcodec : P.LightHouseCodec) {body : LightHouseBody} {peer : Addr}
    (h : Wrote (lh.send env ⟨some body⟩ peer) data) : kind P data = body.kind := by
  unfold send at h
  cases hwire : marshalLightHousePacket P ⟨some body⟩ with
  | error e =>
      simp only [hwire] at h
      exact absurd h not_wrote_nil
  | ok wire =>
      simp only [hwire] at h
      obtain rfl := wrote_map_send h
      simp only [marshalLightHousePacket, Fallible.bind_ok, Fallible.mapError_ok,
        Fallible.pure_ok] at hwire
      obtain ⟨b, hb, rfl⟩ := hwire
      rw [kind_of_parse (Header.parse_bytes_append _ rfl (show typeLightHouse < 16 by decide) b),
        Interface.lightHouseBody, Header.drop_bytes, hcodec _ b hb]
      rfl

theorem wrote_handleMessage (hcodec : P.LightHouseCodec) {msg : LightHouseMessage} {src : Addr}
    (h : Wrote (lh.handleMessage env msg src).2 data) :
    msg.body.map LightHouseBody.kind = some .request ∧ kind P data = .silent := by
  rcases msg with ⟨_ | body⟩
  · exact absurd h not_wrote_nil
  · cases body with
    | query vpnIp =>
        refine ⟨rfl, ?_⟩
        change Wrote (lh.handleQuery env vpnIp src) data at h
        unfold handleQuery at h
        split at h
        · exact absurd h not_wrote_nil
        · exact kind_of_send hcodec h
    | whoAmI => exact ⟨rfl, kind_of_send hcodec h⟩
    | punch vpnIp addrs =>
        refine ⟨rfl, ?_⟩
        change Wrote (lh.handlePunch env addrs) data at h
        unfold handlePunch at h
        split at h
        · exact absurd h not_wrote_nil
        · unfold Punchy.punchAll at h
          split at h
          · rw [wrote_map_send h, kind_nil]
          · exact absurd h not_wrote_nil
    | queryReply _ _ | update _ | whoAmIReply _ => exact absurd h not_wrote_nil

end LightHouse

namespace Interface

variable {I : Interface P} {env : Env P} {pkt data : Bytes} {hdr : Header} {src : UDPAddr}

theorem kind_of_sendToRemote {r : Ref} {p : Bytes} (h : Wrote (I.sendToRemote env r p).2 data) :
    kind P data = .data := by
  cases hr : I.hostmap.hosts[r]? with
  | none =>
      rw [sendToRemote_of_none hr] at h
      exact absurd h not_wrote_nil
  | some host =>
      rw [sendToRemote_eq hr] at h
      obtain ⟨addr, hmem⟩ := h
      simp only [HostInfo.sealed, Env.send, List.mem_cons, reduceCtorEq, Effect.writeTo.injEq,
        false_or, List.not_mem_nil, or_false] at hmem
      rw [hmem.1, kind_datagram]

theorem kind_of_sendAll {r : Ref} {pkts : List Bytes} : ∀ {I : Interface P},
    Wrote (I.sendAll env r pkts).2 data → kind P data = .data := by
  induction pkts with
  | nil => exact fun h => absurd h not_wrote_nil
  | cons p pkts ih =>
      intro I h
      have hboth : Wrote ((I.sendToRemote env r p).2
        ++ ((I.sendToRemote env r p).1.sendAll env r pkts).2) data := h
      rcases wrote_append.mp hboth with hfirst | hrest
      · exact kind_of_sendToRemote hfirst
      · exact ih hrest

theorem wrote_handleMessage (h : Wrote (I.handleMessage env pkt hdr src).2 data) : data = [] := by
  unfold handleMessage at h
  cases hget : I.hostmap.getByIndex hdr.remoteIndex with
  | none =>
      simp only [hget] at h
      split at h
      · exact Punchy.wrote_respondToPunch h
      · exact absurd h not_wrote_nil
  | some entry =>
      -- a session only writes to the TUN device
      simp only [hget] at h
      split at h
      · exact absurd h not_wrote_nil
      · obtain ⟨addr, hmem⟩ := h
        simp only [List.mem_cons, reduceCtorEq, false_or, deliver] at hmem
        split at hmem
        · cases hmem
        · simp only [List.mem_cons, reduceCtorEq, false_or] at hmem
          split at hmem
          · simp at hmem
          · cases hmem

theorem wrote_handleStage0 {m : HandshakeManager P}
    (h : Wrote (m.handleStage0 env pkt src).1 data) : kind P data = .response := by
  obtain ⟨s, idx, w, -, -, -, hwire, -⟩ := HandshakeManager.handleStage0_wrote h
  have hresp : IsHandshake handshakeResponse data := ⟨_, hwire.parse, rfl, rfl⟩
  rw [kind_of_isHandshake hresp, if_neg (by decide), if_pos rfl]

theorem wrote_handleHandshake (h : Wrote (I.handleHandshake env pkt hdr src).2 data) :
    (hdr.subType = handshakeInitiation ∧ kind P data = .response) ∨
      (hdr.subType = handshakeResponse ∧ kind P data = .data) := by
  unfold handleHandshake at h
  by_cases hinit : hdr.subType = handshakeInitiation
  · rw [if_pos hinit] at h
    have hsent : Wrote (I.handshakeMgr.handleStage0 env pkt src).1 data := by
      cases hres : I.handshakeMgr.handleStage0 env pkt src with
      | mk sent res =>
          cases res with
          | error e =>
              simp only [hres] at h
              exact h
          | ok host =>
              simp only [hres] at h
              rcases wrote_append.mp h with h | h
              · exact h
              · exact absurd h not_wrote_nil
    exact .inl ⟨hinit, wrote_handleStage0 hsent⟩
  · rw [if_neg hinit] at h
    split at h
    · next hresp =>
        refine .inr ⟨hresp, ?_⟩
        split at h
        · exact absurd h not_wrote_nil
        · exact kind_of_sendAll h
    · exact absurd h not_wrote_nil

theorem wrote_handleLightHouse (hcodec : P.LightHouseCodec)
    (h : Wrote (I.handleLightHouse env pkt hdr src).2 data) :
    (lightHouseBody P pkt).map LightHouseBody.kind = some .request ∧ kind P data = .silent := by
  unfold handleLightHouse at h
  simp only at h
  split at h
  · exact absurd h not_wrote_nil
  · cases hmsg : P.unmarshalLightHouse (pkt.drop headerLen) with
    | error e =>
        simp only [hmsg] at h
        exact absurd h not_wrote_nil
    | ok msg =>
        simp only [hmsg] at h
        have hbody : lightHouseBody P pkt = msg.body := by
          rw [lightHouseBody, hmsg]
          rfl
        rw [hbody]
        exact LightHouse.wrote_handleMessage hcodec h

/-- **One kind of datagram answers each kind**, in every state of the node. -/
theorem answer_of_wrote (hcodec : P.LightHouseCodec)
    (h : Wrote (I.consumeOutsidePacket env pkt src).2 data) :
    (kind P pkt).answer = some (kind P data) := by
  unfold consumeOutsidePacket at h
  split at h
  · exact absurd h not_wrote_nil
  · cases hparse : Header.parse pkt with
    | error e =>
        simp only [hparse] at h
        exact absurd h not_wrote_nil
    | ok hdr =>
        simp only [hparse] at h
        rw [kind_of_parse hparse, Header.kind]
        split_ifs at h ⊢ with hmessage hhandshake hinit hresp hlighthouse htest hclose
        · rw [wrote_handleMessage h, kind_nil]
          rfl
        · rcases wrote_handleHandshake h with ⟨-, hkind⟩ | ⟨hresp, -⟩
          · rw [hkind]
            rfl
          · rw [hinit] at hresp
            exact absurd hresp (by decide)
        · rcases wrote_handleHandshake h with ⟨hinit', -⟩ | ⟨-, hkind⟩
          · exact absurd hinit' hinit
          · rw [hkind]
            rfl
        · rcases wrote_handleHandshake h with ⟨hinit', -⟩ | ⟨hresp', -⟩
          · exact absurd hinit' hinit
          · exact absurd hresp' hresp
        · obtain ⟨hrequest, hkind⟩ := wrote_handleLightHouse hcodec h
          rw [hrequest, hkind]
          rfl
        · rw [wrote_of_send h, ← List.append_nil (Header.bytes _),
            kind_of_parse (Header.parse_bytes_append _ rfl (show typeTest < 16 by decide) [])]
          rfl
        · exact absurd h not_wrote_nil
        · exact absurd h not_wrote_nil

end Interface

/-! ### Chains of reactions

Every kind but the test has a rank above that of the answer to it. -/

/-- A datagram that reaches `handleTest`. -/
def IsTest (pkt : Bytes) : Prop := ∃ hdr, Header.parse pkt = .ok hdr ∧ hdr.type = typeTest

theorem kind_eq_test_iff {pkt : Bytes} : kind P pkt = .test ↔ IsTest pkt := by
  have hbody : ∀ body : Option LightHouseBody,
      (body.map LightHouseBody.kind).getD .silent ≠ .test := by
    rintro (_ | body)
    · exact fun h => by cases h
    · cases body <;> exact fun h => by cases h
  constructor
  · intro h
    cases hparse : Header.parse pkt with
    | error e =>
        rw [kind, hparse] at h
        cases h
    | ok hdr =>
        rw [kind_of_parse hparse, Header.kind] at h
        split_ifs at h with _ _ _ _ _ htest
        · exact absurd h (hbody _)
        · exact ⟨hdr, hparse, htest⟩
  · rintro ⟨hdr, hparse, htest⟩
    rw [kind_of_parse hparse, Header.kind, htest]
    rfl

/-- How many answers deep a chain of reactions can get. -/
def Kind.rank : Kind → ℕ
  | .initiation => 3
  | .response => 2
  | .data | .request => 1
  | .test | .silent => 0

theorem Kind.rank_answer {k k' : Kind} (h : k.answer = some k') (hk : k ≠ .test) :
    k' ≠ .test ∧ k'.rank < k.rank := by
  cases k with
  | test => exact absurd rfl hk
  | silent => cases h
  | initiation | response | data | request =>
      obtain rfl := Option.some.inj h
      exact ⟨fun h => (by cases h), by decide⟩

namespace Network

/-- `N'` is `N` after one node has got a datagram of the other. -/
abbrev Reacts (addr : Side → UDPAddr) (N' N : Network P) : Prop := Net.Reacts (party P addr) N' N

/-- Two nodes, and a single datagram on its way to the first. -/
def handed (X Y : Interface P) (pkt : Bytes) : Network P where
  node
    | .left => X
    | .right => Y
  inbox
    | .left => [pkt]
    | .right => []

theorem descends (hcodec : P.LightHouseCodec) (addr : Side → UDPAddr) :
    Net.Descends (party P addr) (fun pkt => kind P pkt ≠ .test) fun pkt => (kind P pkt).rank := by
  intro s I env pkt hpkt data hdata
  exact Kind.rank_answer (Interface.answer_of_wrote hcodec (wrote_of_mem_sentTo hdata)) hpkt

/-- A test is answered by a test if the socket lets it out. -/
theorem test_echoes (entropy : P.Entropy) (addr : Side → UDPAddr) (s : Side) (I : Interface P)
    (pkt : Bytes) (hpkt : IsTest pkt) :
    ∃ env, ∃ data ∈ ((party P addr s).receive I env pkt).2, IsTest data := by
  obtain ⟨hdr, hparse, htype⟩ := hpkt
  let env : Env P := ⟨0, .ok 0, entropy, fun _ _ => .ok (), []⟩
  have hreact : (I.step (env, .outside pkt (addr s.other))).2
      = Interface.handleTest env (addr s.other) := by
    show (I.consumeOutsidePacket env pkt (addr s.other)).2 = _
    unfold Interface.consumeOutsidePacket
    rw [if_neg (Header.length_of_parse hparse)]
    simp only [hparse, htype]
    rfl
  refine ⟨env, Header.bytes ⟨headerVersion, typeTest, 0, 0, 0⟩, ?_, ?_⟩
  · show _ ∈ sentTo (addr s.other) (I.step (env, .outside pkt (addr s.other))).2
    rw [hreact]
    simp [sentTo, Interface.handleTest, Env.send, env, Except.isOk, Except.toBool]
  · refine ⟨⟨headerVersion, typeTest, 0, 0, 0⟩, ?_, rfl⟩
    rw [← List.append_nil (Header.bytes _)]
    exact Header.parse_bytes_append _ rfl (show typeTest < 16 by decide) []

/-- **Reactions die out for every datagram but a test.**  Whatever states the two nodes are in, and
whatever becomes of each write, the chain of reactions that a single datagram sets off is finite if
and only if the datagram is no test. -/
theorem reactions_finite_iff (hcodec : P.LightHouseCodec) (entropy : P.Entropy)
    (addr : Side → UDPAddr) (X Y : Interface P) (pkt : Bytes) :
    Acc (Reacts addr) (handed X Y pkt) ↔ ¬ IsTest pkt := by
  constructor
  · intro hacc htest
    exact Net.not_acc_of_echo (test_echoes entropy addr) (N := handed X Y pkt) (s := .left)
      (List.mem_singleton_self pkt) htest hacc
  · intro htest
    refine (descends hcodec addr).acc ?_
    intro s m hm
    cases s with
    | left =>
        rw [List.mem_singleton.mp hm]
        exact fun h => htest (kind_eq_test_iff.mp h)
    | right => cases hm

section Concrete

open Symbolic

/-- Nodes 1 and 2, each of which knows where the other is. -/
def acquainted (n k : UInt8) : Setup where
  cert := nodeCert n [[n]]
  key := nodeKey n
  caPool := [caCert]
  fw := .new [] []
  lighthouse := (LightHouse.new true [] []).addStaticEntry (nodeIP k) (nodeAddr k)
  punchy := some ⟨true, true⟩

/-- Where the two nodes are reached. -/
def acquaintedAddr : Side → UDPAddr
  | .left => nodeAddr 1
  | .right => nodeAddr 2

/-- A query of node 2 for its own address. -/
def selfQuery : Bytes :=
  Header.bytes ⟨headerVersion, typeLightHouse, 0, 0, 0⟩ ++
    marshalLightHouse ⟨some (.query "10.0.0.2")⟩

theorem reactions_finite_query :
    ¬ IsTest selfQuery ∧ Acc (Reacts acquaintedAddr) (handed ((acquainted 1 2).node discovery [])
      ((acquainted 2 1).node discovery []) selfQuery) := by
  have hquery : ¬ IsTest selfQuery := by
    rintro ⟨hdr, hparse, htype⟩
    have hlighthouse : (Header.parse selfQuery).toOption.map (·.type) = some typeLightHouse := by
      decide +kernel
    rw [hparse] at hlighthouse
    rw [show hdr.type = typeLightHouse from Option.some.inj hlighthouse] at htype
    exact absurd htype (by decide)
  exact ⟨hquery, (reactions_finite_iff lightHouseCodec [] acquaintedAddr _ _ selfQuery).mpr hquery⟩

/-- Sixteen bytes that anyone can send under the address of node 2. -/
def testDatagram : Bytes := Header.bytes ⟨headerVersion, typeTest, 0, 0, 0⟩

/-- **Two nodes test each other for ever.**  A single test datagram that seems to come from node 2
keeps both nodes busy without end: after each has answered once, the same datagram is in flight to
node 1 again. -/
theorem test_never_dies :
    let N := handed ((acquainted 1 2).node platform []) ((acquainted 2 1).node platform [])
      testDatagram
    let N' := (run acquaintedAddr N
      [.deliver .left (calmEnv 0 []) 0, .deliver .right (calmEnv 0 []) 0]).1
    N'.inbox .left = [testDatagram] ∧ ¬ Acc (Reacts acquaintedAddr) N := by
  intro N N'
  refine ⟨by decide +kernel, ?_⟩
  have htest : IsTest testDatagram :=
    ⟨⟨headerVersion, typeTest, 0, 0, 0⟩, by decide +kernel, rfl⟩
  exact Net.not_acc_of_echo (test_echoes [] acquaintedAddr) (s := .left)
    (List.mem_singleton_self testDatagram) htest

end Concrete

end Network

end Neth
