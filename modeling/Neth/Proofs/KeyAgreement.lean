/-
Two honest nodes, one of which initiates, over a lossy network.

`B` makes a new session of every copy of an initiation that reaches it, and the newest
is the one it sends through; `A` keeps the first answer it gets to a handshake and
forgets the handshake then.  The two agree on keys if the answer `A` keeps is for `B`'s
newest session and no copy of an initiation reaches `B` after that.  Otherwise they need
not: a copy that arrives late leaves `B` sending under keys that `A` never learns of.

The invariant is about the control planes of the two nodes together with every datagram
in flight.
-/
import Neth.Network
import Neth.Proofs.Control
import Neth.Proofs.RoundTrip

namespace Neth

open Lossy HandshakeManager

variable {P : Platform}

/-! ### Datagrams -/

theorem HandshakeManager.Wire.isHandshake {cert : Certificate} {noise wire : Bytes}
    {details : HandshakeDetails} {remoteIndex : UInt32} {subtype : HandshakeSubType}
    (h : Wire P cert noise details remoteIndex subtype wire) : IsHandshake subtype wire :=
  ⟨_, h.parse, rfl, rfl⟩

variable (P) in
/-- The responder's index in the details of a response. -/
def namedIndex (data : Bytes) : Option UInt32 :=
  match P.unmarshalMessage (data.drop headerLen) with
  | .error _ => none
  | .ok msg => (P.unmarshalDetails msg.details).toOption.map (·.responderIndex)

theorem HandshakeManager.Wire.namedIndex_eq {cert : Certificate} {noise wire : Bytes}
    {details : HandshakeDetails} {remoteIndex : UInt32} {subtype : HandshakeSubType}
    (hcodecs : P.Codecs) (h : Wire P cert noise details remoteIndex subtype wire) :
    namedIndex P wire = some details.responderIndex := by
  obtain ⟨d, hmessage, hdetails⟩ := h.decode hcodecs
  unfold namedIndex
  rw [hmessage]
  simp only [hdetails]
  rfl

/-! ### Nothing is forgotten -/

/-- The pending handshakes ever started and the sessions ever made only get more. -/
theorem Reaction.grows {e : Env P × Interface.Event} {c c' : Control P} {effs : List Effect}
    (h : Reaction e c effs c') :
    (∀ ph ∈ c.handshakeMgr.handshakes, ph ∈ c'.handshakeMgr.handshakes) ∧
      ∀ host ∈ c.hostmap.hosts, host ∈ c'.hostmap.hosts := by
  cases h with
  | idle _ => exact ⟨fun _ h => h, fun _ h => h⟩
  | close _ _ _ _ => exact ⟨fun _ h => h, fun _ h => h⟩
  | start _ _ _ _ _ _ _ => exact ⟨fun _ h => List.mem_append_left _ h, fun _ h => h⟩
  | retry _ hretry =>
      refine ⟨fun ph hph => ?_, fun _ h => h⟩
      show ph ∈ HandshakeManager.handshakes _
      rwa [(RetryStep.handshakes_eq hretry).1]
  | refuse _ _ _ => exact ⟨fun _ h => h, fun _ h => h⟩
  | answer _ _ _ => exact ⟨fun _ h => h, fun _ h => List.mem_append_left _ h⟩
  | abandon _ _ _ _ => exact ⟨fun _ h => h, fun _ h => h⟩
  | complete _ _ _ _ _ => exact ⟨fun _ h => h, fun _ h => List.mem_append_left _ h⟩

/-- One more element with a value of its own. -/
theorem nodup_map_append {α β : Type*} {f : α → β} {l : List α} {x : α} (h : (l.map f).Nodup)
    (hx : ∀ y ∈ l, f y ≠ f x) : ((l ++ [x]).map f).Nodup := by
  rw [List.map_append, List.nodup_append]
  refine ⟨h, List.nodup_singleton _, ?_⟩
  intro y hy z hz
  obtain ⟨y', hy', rfl⟩ := List.mem_map.mp hy
  rw [List.map_singleton, List.mem_singleton] at hz
  rw [hz]
  exact hx y' hy'

/-! ### The two nodes -/

section Nodes

variable (certA certB : Certificate) (keyA keyB : DHKey)

/-- What holds of `A`: it knows `B` and nobody else, all its handshakes are initiations to `B` under
different indexes, and at most one of them is pending. -/
structure Initiator (c : Control P) : Prop where
  localCert : c.handshakeMgr.localCert = certA
  localKey : c.handshakeMgr.localKey = keyA
  peers : ∀ v cert, c.peerCerts v = some cert → v = certB.vpnIP.addr ∧ cert = certB
  initiations : ∀ ph ∈ c.handshakeMgr.handshakes, ph.remoteVpnIP = certB.vpnIP.addr ∧
    Initiation P certA certB keyA keyB ph.state ph.localIndex ph.stage0msg
  distinct : (c.handshakeMgr.handshakes.map (·.localIndex)).Nodup
  pending : ∀ v r, c.handshakeMgr.pending v = some r → v = certB.vpnIP.addr
  index : ∀ idx r, c.handshakeMgr.indexMap idx = some r →
    c.handshakeMgr.pending certB.vpnIP.addr = some r ∧
      ∃ ph, c.handshakeMgr.handshakes[r]? = some ph ∧ ph.localIndex = idx

/-- What holds of `B`: it has started no handshake, and its sessions have different indexes. -/
structure Responder (m : HandshakeManager P) (c : Control P) : Prop where
  handshakeMgr : c.handshakeMgr = m
  pending : ∀ v, m.pending v = none
  indexMap : ∀ idx, m.indexMap idx = none
  localCert : m.localCert = certB
  localKey : m.localKey = keyB
  distinct : (c.hostmap.hosts.map (·.index)).Nodup

/-- What is in flight between them, besides other traffic: to `B` the initiations of `A`'s
handshakes, to `A` answers to them that belong to sessions of `B`. -/
def InFlight (a b : Control P) : Side → Bytes → Prop
  | .right, data => Quiet data ∨ ∃ ph ∈ a.handshakeMgr.handshakes, data = ph.stage0msg
  | .left, data => Quiet data ∨ ∃ ph ∈ a.handshakeMgr.handshakes, ∃ host ∈ b.hostmap.hosts,
      Response P certB ph.state ph.localIndex host data ∧ host.remoteIndex = ph.localIndex

/-- If `A` has a session with `B`, then what `B` sends to `A` decrypts there. -/
def Agree (vA vB : Addr) (a b : HostMap) : Prop :=
  a.getByVpnIP vB ≠ none → ∃ r' h' r h, b.getByVpnIP vA = some (r', h') ∧
    a.getByIndex h'.remoteIndex = some (r, h) ∧ h'.sendCipher = h.recvCipher

end Nodes

section Steps

variable {certA certB : Certificate} {keyA keyB : DHKey} {a b : Control P}
  {e : Env P × Interface.Event}

/-! #### What `A` does -/

namespace Initiator

/-- At most one handshake is pending: without its entry, the index map is empty. -/
theorem indexMap_update (h : Initiator certA certB keyA keyB a) {r : Ref} {ph : PendingHandshake P}
    (hpending : a.handshakeMgr.pending certB.vpnIP.addr = some r)
    (hr : a.handshakeMgr.handshakes[r]? = some ph) (idx : UInt32) :
    Function.update a.handshakeMgr.indexMap ph.localIndex none idx = none := by
  by_cases heq : idx = ph.localIndex
  · rw [heq, Function.update_self]
  · rw [Function.update_of_ne heq]
    cases hr' : a.handshakeMgr.indexMap idx with
    | none => rfl
    | some r' =>
        obtain ⟨hpending', ph', hph', rfl⟩ := h.index idx r' hr'
        obtain rfl : r = r' := Option.some.inj (hpending.symm.trans hpending')
        obtain rfl : ph = ph' := Option.some.inj (hr.symm.trans hph')
        exact absurd rfl heq

/-- Forgetting the pending handshake. -/
theorem forget (h : Initiator certA certB keyA keyB a) {v : Addr} {idx : UInt32}
    (hindex : ∀ idx', Function.update a.handshakeMgr.indexMap idx none idx' = none) :
    Initiator certA certB keyA keyB { a with handshakeMgr := { a.handshakeMgr with
      pending := Function.update a.handshakeMgr.pending v none
      indexMap := Function.update a.handshakeMgr.indexMap idx none } } := by
  refine ⟨h.localCert, h.localKey, h.peers, h.initiations, h.distinct, ?_, ?_⟩
  · intro v' r hr
    refine h.pending v' r ?_
    by_cases heq : v' = v
    · simp [heq] at hr
    · simpa [Function.update_of_ne heq] using hr
  · intro idx' r hr
    exact absurd ((hindex idx').symm.trans hr) (by simp)

theorem start (h : Initiator certA certB keyA keyB a) {v : Addr} {addr : UDPAddr}
    {cert : Certificate} {ph : PendingHandshake P} {env : Env P}
    (hkey : certB.x25519PublicKey = keyB.publicKey)
    (hfresh : ∀ ph ∈ a.handshakeMgr.handshakes, env.index.toOption ≠ some ph.localIndex)
    (hcert : a.peerCerts v = some cert)
    (hidle : a.handshakeMgr.pending v = none)
    (hnew : a.handshakeMgr.newPending env v addr cert = .ok ph) :
    Initiator certA certB keyA keyB
      { a with handshakeMgr := a.handshakeMgr.insert ph.core } := by
  obtain ⟨rfl, rfl⟩ := h.peers v cert hcert
  obtain ⟨hinit, hip, -, hidx, -⟩ := initiation_of_newPending hkey hnew
  rw [h.localCert, h.localKey] at hinit
  have hfresh : ∀ ph' ∈ a.handshakeMgr.handshakes, ph'.localIndex ≠ ph.core.localIndex := by
    intro ph' hmem heq
    refine hfresh ph' hmem ?_
    rw [hidx, heq]
    rfl
  have hnone : ∀ idx, a.handshakeMgr.indexMap idx = none := by
    intro idx
    cases hr : a.handshakeMgr.indexMap idx with
    | none => rfl
    | some r => exact absurd ((h.index idx r hr).1.symm.trans hidle) (by simp)
  refine ⟨h.localCert, h.localKey, h.peers, ?_, ?_, ?_, ?_⟩
  · intro ph' hmem
    rcases List.mem_append.mp hmem with hold | hadded
    · exact h.initiations ph' hold
    · rw [List.mem_singleton.mp hadded]
      exact ⟨hip, hinit⟩
  · exact nodup_map_append h.distinct hfresh
  · intro v r hr
    simp only [HandshakeManager.insert, Function.update_apply] at hr
    split at hr
    · next heq => exact heq.trans hip
    · exact h.pending v r hr
  · -- there was no entry before
    intro idx r hr
    simp only [HandshakeManager.insert, Function.update_apply, hnone] at hr
    split at hr
    · next heq =>
        obtain rfl := Option.some.inj hr
        refine ⟨?_, ph.core, ?_, heq.symm⟩
        · rw [← hip]
          exact Function.update_self _ _ _
        · simp [HandshakeManager.insert]
    · cases hr

/-- Retransmission may forget the pending handshake. -/
theorem retry {env : Env P} {m m' : HandshakeManager P} {effs : List Effect}
    (hretry : Trace.Executes (RetryStep env) m effs m') :
    Initiator certA certB keyA keyB { a with handshakeMgr := m } →
      Initiator certA certB keyA keyB { a with handshakeMgr := m' } := by
  refine RetryStep.rule (fun m => Initiator certA certB keyA keyB { a with handshakeMgr := m })
    ?_ hretry
  intro m v r ph h hpending hr
  obtain rfl := h.pending v r hpending
  exact h.forget (h.indexMap_update hpending hr)

/-- A response can only name the handshake that is pending. -/
theorem exists_of_names (h : Initiator certA certB keyA keyB a) {pkt : Bytes} {idx : UInt32}
    {ph : PendingHandshake P} (hnames : a.handshakeMgr.Names pkt idx ph) :
    ∃ r, a.handshakeMgr.pending certB.vpnIP.addr = some r ∧
      a.handshakeMgr.handshakes[r]? = some ph ∧ ph.localIndex = idx := by
  obtain ⟨-, -, -, hph⟩ := hnames
  obtain ⟨r, hidx, hr⟩ := Option.bind_eq_some_iff.mp hph
  obtain ⟨hpending, ph', hr', hlocal⟩ := h.index idx r hidx
  obtain rfl : ph = ph' := Option.some.inj (hr.symm.trans hr')
  exact ⟨r, hpending, hr, hlocal⟩

theorem take (h : Initiator certA certB keyA keyB a) {pkt : Bytes} {idx : UInt32}
    {ph : PendingHandshake P} (hnames : a.handshakeMgr.Names pkt idx ph) :
    Initiator certA certB keyA keyB { a with handshakeMgr := a.handshakeMgr.take idx ph } := by
  obtain ⟨r, hpending, hr, rfl⟩ := h.exists_of_names hnames
  exact h.forget (h.indexMap_update hpending hr)

theorem install (h : Initiator certA certB keyA keyB a) {host : HostInfo}
    (hip : host.vpnIP = certB.vpnIP.addr) (hcert : host.cert = some certB) :
    Initiator certA certB keyA keyB (a.install host) := by
  refine ⟨h.localCert, h.localKey, ?_, h.initiations, h.distinct, h.pending, h.index⟩
  intro v cert hv
  simp only [Control.install, hcert, Function.update_apply] at hv
  split at hv
  · next heq => exact ⟨heq.trans hip, (Option.some.inj hv).symm⟩
  · exact h.peers v cert hv

end Initiator

/-! #### What reaches a node -/

theorem InFlight.left_cases {pkt : Bytes} (h : InFlight certB a b .left pkt) :
    Quiet pkt ∨ IsHandshake handshakeResponse pkt := by
  rcases h with hquiet | ⟨ph, -, host, -, ⟨noise, read, cs1, cs2, now, hwire, -⟩, -⟩
  · exact .inl hquiet
  · exact .inr hwire.isHandshake

theorem InFlight.right_cases {pkt : Bytes} (ha : Initiator certA certB keyA keyB a)
    (h : InFlight certB a b .right pkt) : Quiet pkt ∨ IsHandshake handshakeInitiation pkt := by
  rcases h with hquiet | ⟨ph, hph, rfl⟩
  · exact .inl hquiet
  · obtain ⟨-, w, now, -, -, hwire⟩ := ha.initiations ph hph
    exact .inr hwire.isHandshake

theorem not_close_of_cases {pkt : Bytes} {subtype : HandshakeSubType} {hdr : Header}
    (h : Quiet pkt ∨ IsHandshake subtype pkt) (hparse : Header.parse pkt = .ok hdr) :
    hdr.type ≠ typeCloseTunnel := by
  rcases h with hquiet | hhandshake
  · exact (hquiet hdr hparse).2
  · exact hhandshake.not_close hparse

theorem eq_of_cases {pkt : Bytes} {subtype subtype' : HandshakeSubType}
    (h : Quiet pkt ∨ IsHandshake subtype pkt) (h' : IsHandshake subtype' pkt) :
    subtype = subtype' := by
  rcases h with hquiet | hhandshake
  · exact absurd hquiet h'.not_quiet
  · exact hhandshake.unique h'

/-- What is known of a datagram in flight stays true. -/
theorem InFlight.mono {a' b' : Control P}
    (ha : ∀ ph ∈ a.handshakeMgr.handshakes, ph ∈ a'.handshakeMgr.handshakes)
    (hb : ∀ host ∈ b.hostmap.hosts, host ∈ b'.hostmap.hosts) {s : Side} {data : Bytes}
    (h : InFlight certB a b s data) : InFlight certB a' b' s data := by
  cases s with
  | left =>
      rcases h with hquiet | ⟨ph, hph, host, hhost, hresp⟩
      · exact .inl hquiet
      · exact .inr ⟨ph, ha ph hph, host, hb host hhost, hresp⟩
  | right =>
      rcases h with hquiet | ⟨ph, hph, hdata⟩
      · exact .inl hquiet
      · exact .inr ⟨ph, ha ph hph, hdata⟩

end Steps

/-! ### The two nodes together

What links the nodes is a statement about both tables and about the datagrams in flight.  Each of
the two can move, and the other half is then carried along. -/

section Joint

variable (certA certB : Certificate) (keyA keyB : DHKey)

/-- What holds of the two nodes together. -/
structure Joint (m : HandshakeManager P) (a b : Control P) : Prop where
  initiator : Initiator certA certB keyA keyB a
  responder : Responder certB keyB m b
  agree : Agree certA.vpnIP.addr certB.vpnIP.addr a.hostmap b.hostmap

variable {certA certB keyA keyB} {m : HandshakeManager P} {a a' b b' : Control P}
  {e : Env P × Interface.Event} {effs : List Effect}

/-- A response that names a pending handshake completes it with the keys of the session of `B` that
the response was made for. -/
theorem Joint.complete (hcodecs : P.Codecs) (hparse : Certificate.parseDER P certB.raw = .ok certB)
    (h : Joint certA certB keyA keyB m a b) {pkt : Bytes} {idx : UInt32} {now : Time}
    {ph : PendingHandshake P} {s : Stage1} (hresp : IsHandshake handshakeResponse pkt)
    (hflight : InFlight certB a b .left pkt) (hnames : a.handshakeMgr.Names pkt idx ph)
    (hread : a.handshakeMgr.readStage1 now ph pkt = .ok s)
    (horder : namedIndex P pkt
      = (b.hostmap.getByVpnIP certA.vpnIP.addr).map (·.2.index)) :
    Joint certA certB keyA keyB m
      (Control.install { a with handshakeMgr := a.handshakeMgr.take idx ph } (stage1Host ph s))
      b := by
  obtain ⟨r, -, hr, hlocal⟩ := h.initiator.exists_of_names hnames
  rcases hflight with hquiet | ⟨ph', hph', host, hhost, hresponse, hremote⟩
  · exact absurd hquiet hresp.not_quiet
  -- the header names the handshake the response was made for
  have hsame : ph = ph' := by
    obtain ⟨noise, read, cs1, cs2, now', hwire, -⟩ := hresponse
    obtain ⟨hdr, hhdr, hidx, -⟩ := hnames
    have heq := Except.ok.inj (hhdr.symm.trans hwire.parse)
    refine List.inj_on_of_nodup_map h.initiator.distinct (List.mem_of_getElem? hr) hph' ?_
    rw [hlocal, ← hidx, heq]
  subst hsame
  obtain ⟨now', -, hinv⟩ := readStage1_response a.handshakeMgr ph hcodecs hparse hresponse
  have hs := hinv now s hread
  -- the session it was made for is the one `B` sends through
  have hnamed : namedIndex P pkt = some host.index := by
    obtain ⟨noise, read, cs1, cs2, now', hwire, -⟩ := hresponse
    exact hwire.namedIndex_eq hcodecs
  rw [hnamed] at horder
  obtain ⟨⟨r', host'⟩, hcurrent, hindex⟩ := Option.map_eq_some_iff.mp horder.symm
  obtain ⟨-, hr'⟩ := HostMap.getByVpnIP_eq_some.mp hcurrent
  obtain rfl : host' = host := List.inj_on_of_nodup_map h.responder.distinct
    (List.mem_of_getElem? hr') hhost hindex
  have hcert : (stage1Host ph s).cert = some certB := by rw [hs]; rfl
  have hrecv : host'.sendCipher = (stage1Host ph s).recvCipher := by rw [hs]; rfl
  refine ⟨(h.initiator.take hnames).install (h.initiator.initiations ph hph').1 hcert,
    h.responder, ?_⟩
  intro _
  refine ⟨r', host', a.hostmap.hosts.length, stage1Host ph s, hcurrent, ?_, hrecv⟩
  rw [hremote]
  refine HostMap.getByIndex_eq_some.mpr ⟨?_, ?_⟩
  · exact Function.update_self _ _ _
  · simp [Control.install, HostMap.add]

/-- What `A` does keeps the invariant, and what it sends to `B` is other traffic or an
initiation. -/
theorem Joint.left (hcodecs : P.Codecs) (hparse : Certificate.parseDER P certB.raw = .ok certB)
    (hkey : certB.x25519PublicKey = keyB.publicKey) (h : Joint certA certB keyA keyB m a b)
    (hreact : Reaction e a effs a')
    (hfresh : ∀ pkt, e.2 = .inside pkt →
      ∀ ph ∈ a.handshakeMgr.handshakes, e.1.index.toOption ≠ some ph.localIndex)
    (hflight : ∀ pkt src, e.2 = .outside pkt src → InFlight certB a b .left pkt)
    (horder : ∀ pkt src idx ph, e.2 = .outside pkt src → a.handshakeMgr.Names pkt idx ph →
      namedIndex P pkt = (b.hostmap.getByVpnIP certA.vpnIP.addr).map (·.2.index)) :
    Joint certA certB keyA keyB m a' b ∧
      ∀ data, Wrote effs data → InFlight certB a' b .right data := by
  have hnothing : ∀ data, Wrote [] data → InFlight certB a' b .right data :=
    fun data hw => absurd hw (by simp [Wrote])
  cases hreact with
  | idle hquiet => exact ⟨h, fun data hw => .inl (hquiet data hw)⟩
  | close ip hevent hhdr htype =>
      exact absurd htype (not_close_of_cases (hflight _ _ hevent).left_cases hhdr)
  | @start pkt v addr cert ph _ hevent hdst hsession hcert hidle hnew hwrote =>
      have hstarted := h.initiator.start hkey (hfresh pkt hevent) hcert hidle hnew
      refine ⟨⟨hstarted, h.responder, h.agree⟩, ?_⟩
      intro data hw
      refine .inr ⟨ph.core, List.mem_append_right _ (List.mem_singleton_self _), ?_⟩
      exact hwrote data hw
  | retry hevent hretry =>
      refine ⟨⟨h.initiator.retry hretry, h.responder, h.agree⟩, ?_⟩
      intro data hw
      obtain ⟨v, r, ph, -, hr, hdata⟩ := RetryStep.wrote hretry data hw
      refine .inr ⟨ph, ?_, hdata⟩
      show ph ∈ HandshakeManager.handshakes _
      rw [(RetryStep.handshakes_eq hretry).1]
      exact List.mem_of_getElem? hr
  | refuse hevent hinit hread =>
      exact absurd (eq_of_cases (hflight _ _ hevent).left_cases hinit) (by decide)
  | answer hevent hinit hread =>
      exact absurd (eq_of_cases (hflight _ _ hevent).left_cases hinit) (by decide)
  | abandon hevent hresp hnames hread =>
      exact ⟨⟨h.initiator.take hnames, h.responder, h.agree⟩, hnothing⟩
  | complete hevent hresp hnames hread hquiet =>
      refine ⟨?_, fun data hw => .inl (hquiet data hw)⟩
      exact h.complete hcodecs hparse hresp (hflight _ _ hevent) hnames hread
        (horder _ _ _ _ hevent hnames)

/-- `B` has no pending handshake to repeat. -/
theorem Responder.retry (h : Responder certB keyB m b) {env : Env P} {m1 m2 : HandshakeManager P}
    (hretry : Trace.Executes (RetryStep env) m1 effs m2) (hm : m1 = m) :
    m2 = m ∧ ∀ data, ¬ Wrote effs data := by
  induction hretry with
  | nil _ => exact ⟨hm, fun data hw => absurd hw (by simp [Wrote])⟩
  | cons hstep _ ih =>
      subst hm
      cases hstep with
      | idle => exact ih rfl
      | resend hpending _ => exact absurd ((h.pending _).symm.trans hpending) (by simp)
      | giveUp hpending _ => exact absurd ((h.pending _).symm.trans hpending) (by simp)

theorem Responder.not_names (h : Responder certB keyB m b) {pkt : Bytes} {idx : UInt32}
    {ph : PendingHandshake P} : ¬ b.handshakeMgr.Names pkt idx ph := by
  rintro ⟨-, -, -, hph⟩
  rw [h.handshakeMgr, HandshakeManager.getIndex, h.indexMap] at hph
  cases hph

/-- What `B` does with an initiation of `A`. -/
theorem Joint.handleStage0 (hnoise : P.IKpsk0) (hcodecs : P.Codecs) (hkeyA : P.ValidKey keyA)
    (hkeyB : P.ValidKey keyB) (hparseA : Certificate.parseDER P certA.raw = .ok certA)
    (h : Joint certA certB keyA keyB m a b) {pkt : Bytes}
    (hinit : IsHandshake handshakeInitiation pkt) (hflight : InFlight certB a b .right pkt)
    (env : Env P) (src : UDPAddr) :
    ∃ ph ∈ a.handshakeMgr.handshakes,
      (∃ sent err, b.handshakeMgr.handleStage0 env pkt src = (sent, .error err) ∧
        ∀ data, ¬ Wrote sent data) ∨
      ∃ host answer, b.handshakeMgr.handleStage0 env pkt src
          = ([.writeTo answer src true], .ok host) ∧ env.index = .ok host.index ∧
        Answered P certA certB ph.state ph.localIndex src host answer := by
  rcases hflight with hquiet | ⟨ph, hph, rfl⟩
  · exact absurd hquiet hinit.not_quiet
  refine ⟨ph, hph, ?_⟩
  have hmessage := (h.initiator.initiations ph hph).2
  have hb := h.responder
  rw [← hb.localCert, ← hb.localKey, ← hb.handshakeMgr] at hmessage
  have hvalid : P.ValidKey b.handshakeMgr.localKey := by rwa [hb.handshakeMgr, hb.localKey]
  rcases handleStage0_initiation hnoise hcodecs hkeyA hparseA hvalid hmessage env src with
    ⟨sent, err, hres, hnone⟩ | ⟨host, answer, hres, hidx, hanswered⟩
  · refine .inl ⟨sent, err, hres, ?_⟩
    rintro data ⟨addr, hmem⟩
    exact hnone data addr hmem
  · rw [hb.handshakeMgr, hb.localCert] at hanswered
    exact .inr ⟨host, answer, hres, hidx, hanswered⟩

/-- What `B` does keeps the invariant, if `A` has no session yet when an initiation arrives, and
what it sends to `A` is other traffic or an answer for one of its sessions. -/
theorem Joint.right (hnoise : P.IKpsk0) (hcodecs : P.Codecs) (hkeyA : P.ValidKey keyA)
    (hkeyB : P.ValidKey keyB) (hparseA : Certificate.parseDER P certA.raw = .ok certA)
    (h : Joint certA certB keyA keyB m a b) (hreact : Reaction e b effs b')
    (hsilent : ∀ pkt v, e.2 = .inside pkt → dstIPFromIPv4 pkt = some v →
      b.peerCerts v = none ∨ b.hostmap.getByVpnIP v ≠ none)
    (hfresh : ∀ pkt src, e.2 = .outside pkt src →
      ∀ host ∈ b.hostmap.hosts, e.1.index.toOption ≠ some host.index)
    (hflight : ∀ pkt src, e.2 = .outside pkt src → InFlight certB a b .right pkt)
    (horder : ∀ pkt src, e.2 = .outside pkt src → IsHandshake handshakeInitiation pkt →
      a.hostmap.getByVpnIP certB.vpnIP.addr = none) :
    Joint certA certB keyA keyB m a b' ∧
      ∀ data, Wrote effs data → InFlight certB a b' .left data := by
  cases hreact with
  | idle hquiet => exact ⟨h, fun data hw => .inl (hquiet data hw)⟩
  | close ip hevent hhdr htype =>
      exact absurd htype
        (not_close_of_cases ((hflight _ _ hevent).right_cases h.initiator) hhdr)
  | @start pkt v _ _ _ _ hevent hdst hsession hcert _ _ _ =>
      rcases hsilent pkt v hevent hdst with hnone | hsome
      · rw [hnone] at hcert
        cases hcert
      · exact absurd hsession hsome
  | @retry _ m' hevent hretry =>
      obtain ⟨hm, hsilent⟩ := h.responder.retry hretry h.responder.handshakeMgr
      refine ⟨⟨h.initiator, ?_, h.agree⟩, fun data hw => absurd hw (hsilent data)⟩
      exact { h.responder with handshakeMgr := hm }
  | @refuse pkt src _ err hevent hinit hread =>
      obtain ⟨ph, -, ⟨sent, err', hres, hnone⟩ | ⟨host, answer, hres, -⟩⟩ :=
        h.handleStage0 hnoise hcodecs hkeyA hkeyB hparseA hinit (hflight pkt src hevent) e.1 src
      · obtain ⟨rfl, -⟩ := Prod.mk.inj (hread.symm.trans hres)
        exact ⟨h, fun data hw => absurd hw (hnone data)⟩
      · cases (Prod.mk.inj (hread.symm.trans hres)).2
  | @answer pkt src _ host hevent hinit hread =>
      obtain ⟨ph, hph, ⟨sent, err', hres, -⟩ | ⟨host', answer, hres, hidx, hanswered⟩⟩ :=
        h.handleStage0 hnoise hcodecs hkeyA hkeyB hparseA hinit (hflight pkt src hevent) e.1 src
      · cases (Prod.mk.inj (hread.symm.trans hres)).2
      · obtain ⟨rfl, hok⟩ := Prod.mk.inj (hread.symm.trans hres)
        obtain rfl := Except.ok.inj hok
        have hdistinct : ((b.hostmap.hosts ++ [host.core]).map (·.index)).Nodup := by
          refine nodup_map_append h.responder.distinct ?_
          intro host' hmem heq
          refine hfresh pkt src hevent host' hmem ?_
          rw [hidx, heq]
          rfl
        refine ⟨⟨h.initiator, { h.responder with distinct := hdistinct }, ?_⟩, ?_⟩
        · exact fun hsome => absurd (horder pkt src hevent hinit) hsome
        · rintro data ⟨addr, hmem⟩
          obtain ⟨rfl, -⟩ := Effect.writeTo.inj (List.mem_singleton.mp hmem)
          exact .inr ⟨ph, hph, host.core, List.mem_append_right _ (List.mem_singleton_self _),
            hanswered.response, hanswered.remoteIndex⟩
  | abandon _ _ hnames _ => exact absurd hnames h.responder.not_names
  | complete _ _ hnames _ _ => exact absurd hnames h.responder.not_names

end Joint

/-! ### The network

One action is a whole reaction of a node.  Where the order of the steps inside a reaction matters,
the nodes of `Daemons` are needed. -/

namespace Network

/-- The VPN IP of a node. -/
def ip (N : Network P) (s : Side) : Addr := (N.node s).handshakeMgr.localCert.vpnIP.addr

/-- Only `A`, on the left, initiates, and no index is drawn twice: `A` does not start a handshake
under the index of an earlier one, and `B` does not make a session under the index of another. -/
def Assumed (N : Network P) : NetworkAction P → Prop
  | .act .left i => ∀ ph ∈ (N.node .left).handshakeMgr.handshakes,
      i.1.index.toOption ≠ some ph.localIndex
  | .act .right i => match i.2 with
      | .inside pkt => ∀ v ∈ dstIPFromIPv4 pkt,
          (N.node .right).peerCerts v = none ∨ (N.node .right).hostmap.getByVpnIP v ≠ none
      | _ => True
  | .deliver .right env _ => ∀ host ∈ (N.node .right).hostmap.hosts,
      env.index.toOption ≠ some host.index
  | _ => True

instance (N : Network P) : DecidablePred N.Assumed
  | .act .left i => inferInstanceAs (Decidable (∀ ph ∈ (N.node .left).handshakeMgr.handshakes,
      i.1.index.toOption ≠ some ph.localIndex))
  | .act .right (_, .inside pkt) => inferInstanceAs (Decidable (∀ v ∈ dstIPFromIPv4 pkt,
      (N.node .right).peerCerts v = none ∨ (N.node .right).hostmap.getByVpnIP v ≠ none))
  | .act .right (_, .retry) => .isTrue trivial
  | .act .right (_, .expire) => .isTrue trivial
  | .act .right (_, .advertise) => .isTrue trivial
  | .deliver .right env _ => inferInstanceAs (Decidable
      (∀ host ∈ (N.node .right).hostmap.hosts, env.index.toOption ≠ some host.index))
  | .deliver .left _ _ => .isTrue trivial
  | .lose _ _ => .isTrue trivial
  | .duplicate _ _ => .isTrue trivial

/-- An initiation reaches `B` only while `A` has no session with it, and a response that names a
pending handshake of `A` is for the session `B` sends through. -/
def InOrder (N : Network P) : NetworkAction P → Prop
  | .deliver .right _ n => ∀ data, (N.inbox .right)[n]? = some data →
      IsHandshake handshakeInitiation data → (N.node .left).hostmap.getByVpnIP (N.ip .right) = none
  | .deliver .left _ n => ∀ data idx ph, (N.inbox .left)[n]? = some data →
      (N.node .left).handshakeMgr.Names data idx ph →
      namedIndex P data = ((N.node .right).hostmap.getByVpnIP (N.ip .left)).map (·.2.index)
  | _ => True

/-- The nodes agree on the keys from `B` to `A`. -/
def Agrees (N : Network P) : Prop :=
  Agree (N.ip .left) (N.ip .right) (N.node .left).hostmap (N.node .right).hostmap

section Invariant

variable {certA certB : Certificate} {keyA keyB : DHKey} {m : HandshakeManager P}
  {addr : Side → UDPAddr} {N : Network P}

variable (certA certB keyA keyB m) in
/-- The same of a network. -/
def Invariant (node : Side → Interface P) : Prop :=
  Joint certA certB keyA keyB m (node .left).control (node .right).control

variable (certB) in
/-- What holds of a datagram in flight. -/
def Carried (node : Side → Interface P) : Side → Bytes → Prop :=
  InFlight certB (node .left).control (node .right).control

/-- The certificates of the nodes do not change. -/
theorem Invariant.ip_eq (h : Invariant certA certB keyA keyB m N.node) :
    N.ip .left = certA.vpnIP.addr ∧ N.ip .right = certB.vpnIP.addr := by
  have hA : (N.node .left).handshakeMgr.localCert = certA := h.initiator.localCert
  have hB : (N.node .right).handshakeMgr.localCert = certB :=
    (congrArg HandshakeManager.localCert h.responder.handshakeMgr).trans h.responder.localCert
  unfold ip
  rw [hA, hB]
  exact ⟨rfl, rfl⟩

theorem keeps_left {r : Interface P × List Effect} {node : Side → Interface P} {dest : UDPAddr}
    {e : Env P × Interface.Event} (hreact : Reaction e (node .left).control r.2 r.1.control)
    (h : Joint certA certB keyA keyB m r.1.control (node .right).control ∧
      ∀ data, Wrote r.2 data → InFlight certB r.1.control (node .right).control .right data) :
    Net.Keeps (Invariant certA certB keyA keyB m) (Carried certB) node .left (seenAt dest r) where
  nodes := h.1
  inFlight _ _ hdata := hdata.mono hreact.grows.1 fun _ hmem => hmem
  sent data hmem := h.2 data (wrote_of_mem_sentTo hmem)

theorem keeps_right {r : Interface P × List Effect} {node : Side → Interface P} {dest : UDPAddr}
    {e : Env P × Interface.Event} (hreact : Reaction e (node .right).control r.2 r.1.control)
    (h : Joint certA certB keyA keyB m (node .left).control r.1.control ∧
      ∀ data, Wrote r.2 data → InFlight certB (node .left).control r.1.control .left data) :
    Net.Keeps (Invariant certA certB keyA keyB m) (Carried certB) node .right (seenAt dest r) where
  nodes := h.1
  inFlight _ _ hdata := hdata.mono (fun _ hmem => hmem) hreact.grows.2
  sent data hmem := h.2 data (wrote_of_mem_sentTo hmem)

theorem event_ne_outside (t : Tick) (pkt : Bytes) (src : UDPAddr) :
    t.event ≠ .outside pkt src := by
  cases t <;> simp [Tick.event]

theorem getByVpnIP_control (I : Interface P) (v : Addr) :
    I.control.hostmap.getByVpnIP v = none ↔ I.hostmap.getByVpnIP v = none := by
  show I.hostmap.core.getByVpnIP v = none ↔ _
  rw [HostMap.getByVpnIP_core, Option.map_eq_none_iff]

theorem getByVpnIP_control_index (I : Interface P) (v : Addr) :
    (I.control.hostmap.getByVpnIP v).map (·.2.index)
      = (I.hostmap.getByVpnIP v).map (·.2.index) := by
  show (I.hostmap.core.getByVpnIP v).map _ = _
  rw [HostMap.getByVpnIP_core, Option.map_map]
  rfl

variable {mA mB : HandshakeManager P} {a : NetworkAction P}

/-- What the node does of its own accord keeps the invariant. -/
theorem act_keeps (hnoise : P.IKpsk0) (hcodecs : P.Codecs) (hA : Honest mA) (hB : Honest mB)
    (h : Invariant mA.localCert mB.localCert mA.localKey mB.localKey mB N.node) (s : Side)
    (i : Env P × Tick) (hassumed : N.Assumed (.act s i)) :
    Net.Keeps (Invariant mA.localCert mB.localCert mA.localKey mB.localKey mB)
      (Carried mB.localCert) N.node s ((party P addr s).act (N.node s) i) := by
  cases s with
  | left =>
      have hreact := (N.node .left).step_reacts (i.1, i.2.event)
      refine keeps_left hreact (h.left hcodecs hB.parses hB.certKey hreact ?_ ?_ ?_)
      · intro pkt _ ph hph
        obtain ⟨ph', hph', rfl⟩ := List.mem_map.mp hph
        exact hassumed ph' hph'
      · intro pkt src hevent
        exact absurd hevent (event_ne_outside i.2 pkt src)
      · intro pkt src _ _ hevent
        exact absurd hevent (event_ne_outside i.2 pkt src)
  | right =>
      have hreact := (N.node .right).step_reacts (i.1, i.2.event)
      refine keeps_right hreact (h.right hnoise hcodecs hA.key hB.key hA.parses hreact ?_ ?_ ?_ ?_)
      · intro pkt v hevent hdst
        obtain ⟨env, t⟩ := i
        cases t with
        | inside pkt' =>
            obtain rfl := Interface.Event.inside.inj hevent
            rcases hassumed v hdst with hnone | hsome
            · exact .inl hnone
            · exact .inr fun heq => hsome ((getByVpnIP_control _ v).mp heq)
        | retry => cases hevent
        | expire => cases hevent
        | advertise => cases hevent
      · intro pkt src hevent
        exact absurd hevent (event_ne_outside i.2 pkt src)
      · intro pkt src hevent
        exact absurd hevent (event_ne_outside i.2 pkt src)
      · intro pkt src hevent
        exact absurd hevent (event_ne_outside i.2 pkt src)

/-- What a node does with a datagram keeps the invariant. -/
theorem deliver_keeps (hnoise : P.IKpsk0) (hcodecs : P.Codecs) (hA : Honest mA) (hB : Honest mB)
    (h : Invariant mA.localCert mB.localCert mA.localKey mB.localKey mB N.node) (s : Side)
    (env : Env P) (n : Nat) (data : Bytes) (hdata : (N.inbox s)[n]? = some data)
    (hflight : Carried mB.localCert N.node s data) (hassumed : N.Assumed (.deliver s env n))
    (horder : N.InOrder (.deliver s env n)) :
    Net.Keeps (Invariant mA.localCert mB.localCert mA.localKey mB.localKey mB)
      (Carried mB.localCert) N.node s ((party P addr s).receive (N.node s) env data) := by
  obtain ⟨hipA, hipB⟩ := h.ip_eq
  cases s with
  | left =>
      have hreact := (N.node .left).step_reacts (env, .outside data (addr Side.left.other))
      refine keeps_left hreact (h.left hcodecs hB.parses hB.certKey hreact ?_ ?_ ?_)
      · intro pkt hevent
        cases hevent
      · intro pkt src hevent
        obtain ⟨rfl, -⟩ := Interface.Event.outside.inj hevent
        exact hflight
      · intro pkt src idx ph hevent hnames
        obtain ⟨rfl, -⟩ := Interface.Event.outside.inj hevent
        obtain ⟨ph', hnames', -⟩ := exists_names_of_core hnames
        rw [getByVpnIP_control_index, ← hipA]
        exact horder _ idx ph' hdata hnames'
  | right =>
      have hreact := (N.node .right).step_reacts (env, .outside data (addr Side.right.other))
      refine keeps_right hreact (h.right hnoise hcodecs hA.key hB.key hA.parses hreact ?_ ?_ ?_ ?_)
      · intro pkt v hevent
        cases hevent
      · intro pkt src _ host hhost
        obtain ⟨host', hhost', rfl⟩ := List.mem_map.mp hhost
        exact hassumed host' hhost'
      · intro pkt src hevent
        obtain ⟨rfl, -⟩ := Interface.Event.outside.inj hevent
        exact hflight
      · intro pkt src hevent hinit
        obtain ⟨rfl, -⟩ := Interface.Event.outside.inj hevent
        rw [getByVpnIP_control, ← hipB]
        exact horder _ hdata hinit

theorem step_holds (hnoise : P.IKpsk0) (hcodecs : P.Codecs) (hA : Honest mA) (hB : Honest mB)
    (h : Net.Holds (Invariant mA.localCert mB.localCert mA.localKey mB.localKey mB)
      (Carried mB.localCert) N)
    (hassumed : N.Assumed a) (horder : N.InOrder a) :
    Net.Holds (Invariant mA.localCert mB.localCert mA.localKey mB.localKey mB)
      (Carried mB.localCert) (step addr N a).1 := by
  refine h.step ?_ ?_
  · rintro s i rfl
    exact act_keeps hnoise hcodecs hA hB h.nodes s i hassumed
  · rintro s env n data rfl hdata hflight
    exact deliver_keeps hnoise hcodecs hA hB h.nodes s env n data hdata hflight hassumed horder

end Invariant

/-- Agreement does not depend on counters and replay windows. -/
theorem agree_of_core {vA vB : Addr} {a b : HostMap} (h : Agree vA vB a.core b.core) :
    Agree vA vB a b := by
  intro hsome
  have hcore : a.core.getByVpnIP vB ≠ none := by
    rwa [HostMap.getByVpnIP_core, Ne, Option.map_eq_none_iff]
  obtain ⟨r', h', r, host, hb, ha, hcipher⟩ := h hcore
  rw [HostMap.getByVpnIP_core] at hb
  rw [HostMap.getByIndex_core] at ha
  obtain ⟨⟨r1', h1'⟩, hb1, heq'⟩ := Option.map_eq_some_iff.mp hb
  obtain ⟨⟨r1, host1⟩, ha1, heq⟩ := Option.map_eq_some_iff.mp ha
  obtain ⟨-, rfl⟩ := Prod.mk.inj heq'
  obtain ⟨-, rfl⟩ := Prod.mk.inj heq
  exact ⟨r1', h1', r1, host1, hb1, ha1, hcipher⟩

theorem start_holds (x y : Setup) (peers : List Certificate) :
    Net.Holds (Invariant x.cert y.cert x.key y.key (y.manager P)) (Carried y.cert)
      (start (x.node P [y.cert]) (y.node P peers)) := by
  refine ⟨⟨?_, ?_, ?_⟩, fun s data hmem => absurd hmem (by simp [start])⟩
  · refine ⟨rfl, rfl, ?_, fun ph hph => absurd hph (List.not_mem_nil), List.nodup_nil,
      (fun _ _ h => nomatch h), fun _ _ h => nomatch h⟩
    intro v cert hv
    have hpeers : Function.update (fun _ => none) y.cert.vpnIP.addr (some y.cert) v
        = some cert := hv
    rw [Function.update_apply] at hpeers
    split at hpeers
    · next heq => exact ⟨heq, (Option.some.inj hpeers).symm⟩
    · cases hpeers
  · have hmgr : (y.node P peers).control.handshakeMgr = y.manager P :=
      congrArg HandshakeManager.core (Interface.new_handshakeMgr ..)
    have hhosts : (y.node P peers).control.hostmap = .new :=
      congrArg HostMap.core (Interface.new_hostmap ..)
    refine ⟨hmgr, fun _ => rfl, fun _ => rfl, rfl, rfl, ?_⟩
    show ((y.node P peers).control.hostmap.hosts.map (·.index)).Nodup
    rw [hhosts]
    exact List.nodup_nil
  · exact fun h => absurd rfl h

section Concrete

open Symbolic

/-- Node 1, which knows where node 2 is. -/
def setup1 : Setup where
  cert := nodeCert 1 [[1]]
  key := nodeKey 1
  caPool := [caCert]
  fw := .new [Interface.anyRule] [Interface.anyRule]
  lighthouse := (LightHouse.new false [] []).addStaticEntry (nodeIP 2) (nodeAddr 2)
  punchy := none

/-- Node 2, which waits to be called. -/
def setup2 : Setup where
  cert := nodeCert 2 [[2]]
  key := nodeKey 2
  caPool := [caCert]
  fw := .new [Interface.anyRule] [Interface.anyRule]
  lighthouse := .new false [] []
  punchy := none

/-- Where the two nodes are reached. -/
def addr12 : Side → UDPAddr
  | .left => nodeAddr 1
  | .right => nodeAddr 2

/-- Nodes 1 and 2 as they start. -/
def nodes12 : Network platform :=
  start (setup1.node platform [setup2.cert]) (setup2.node platform [])

/-- Node 1 has a packet for node 2 and starts a handshake under index 7. -/
def calls : NetworkAction platform :=
  .act .left (calmEnv 7 [9], .inside (tcpPacket 1 2 40000 22))

/-- The handshake without any trouble. -/
def undisturbed : List (NetworkAction platform) :=
  [calls, .deliver .right (calmEnv 8 [5]) 0, .deliver .left (calmEnv 0 []) 0]

/-- The initiation is duplicated and both copies reach node 2, the first answer reaches node 1
before the second, and what node 1 had queued reaches node 2. -/
def lateCopy : List (NetworkAction platform) :=
  [calls, .duplicate .right 0, .deliver .right (calmEnv 8 [5]) 0, .deliver .right (calmEnv 9 [6]) 0,
    .deliver .left (calmEnv 0 []) 0, .deliver .left (calmEnv 0 []) 0,
    .deliver .right (calmEnv 10 []) 0]

end Concrete

end Network

end Neth
