/-
Which certificate a completed handshake ends up with.

The initiator starts a handshake with the certificate it holds for an address, and
Noise authenticates the key of that certificate.  The response brings a certificate of
its own, outside of what Noise protects and under a MAC that anyone can compute, and
it is this one the session is given, whatever address and key it names.  The results
below say when the two agree, for one response and for whole runs, and what holds of
sessions and of the certificates kept for later handshakes in the runs in which they
always agree.
-/
import Neth.Proofs.Control
import Neth.Proofs.RoundTrip

namespace Neth

variable {P : Platform}

namespace HandshakeManager

variable {m : HandshakeManager P} {now : Time} {pkt : Bytes} {idx : UInt32}
  {ph : PendingHandshake P}

/-! ### One response

`HandleStage1` compares the certificate of a response neither with the address that was called nor
with the key Noise has authenticated.  `Binds` asks for both. -/

/-- If the response passes the checks, its certificate is for the address the handshake was started
with and has the key of `remoteCert`. -/
def Binds (m : HandshakeManager P) (now : Time) (ph : PendingHandshake P) (pkt : Bytes)
    (remoteCert : Certificate) : Prop :=
  ∀ msg details cert read cs, Envelope m now pkt msg details cert →
    (P.readMessage ph.state msg.noisePayload).1 = .ok read → read.ciphers = some cs →
    cert.vpnIP.addr = ph.remoteVpnIP ∧ cert.x25519PublicKey = remoteCert.x25519PublicKey

/-- The session has a certificate for the address with the key of `remoteCert`. -/
def BoundTo (v : Addr) (remoteCert : Certificate) (host : HostInfo) : Prop :=
  host.vpnIP = v ∧ ∃ cert, host.cert = some cert ∧ cert.vpnIP.addr = v ∧
    cert.x25519PublicKey = remoteCert.x25519PublicKey

theorem handleStage1_boundTo_iff (hnames : m.Names pkt idx ph) (now : Time)
    (remoteCert : Certificate) :
    (∀ m' host queue, m.handleStage1 now pkt = (m', .ok (host, queue)) →
        BoundTo ph.remoteVpnIP remoteCert host) ↔ m.Binds now ph pkt remoteCert := by
  rw [handleStage1_of_names now hnames]
  refine ⟨?_, ?_⟩
  · intro h msg details cert read cs henv hread hcs
    have hok : m.readStage1 now ph pkt
        = .ok ⟨details, cert, ⟨cs.1.unsafeKey⟩, ⟨cs.2.unsafeKey⟩⟩ :=
      readStage1_ok.mpr ⟨msg, henv, read, cs.1, cs.2, hread, hcs, rfl⟩
    rw [hok] at h
    obtain ⟨-, cert', hcert, hip, hkey⟩ := h _ _ _ rfl
    obtain rfl := Option.some.inj hcert
    exact ⟨hip, hkey⟩
  · intro h m' host queue hres
    cases hread : m.readStage1 now ph pkt with
    | error e =>
        rw [hread] at hres
        cases (Prod.mk.inj hres).2
    | ok s =>
        rw [hread] at hres
        obtain ⟨rfl, -⟩ := Prod.mk.inj (Except.ok.inj (Prod.mk.inj hres).2)
        obtain ⟨msg, henv, read, cs1, cs2, hnoise, hcs, -⟩ := readStage1_ok.mp hread
        obtain ⟨hip, hkey⟩ := h msg _ _ read _ henv hnoise hcs
        exact ⟨rfl, s.responderCert, rfl, hip, hkey⟩

/-! ### Where sessions come from -/

/-- `st` is what writing the first message to the key of `remoteCert` left of the Noise state, at a
node with the certificate and key pair of `m`. -/
def StartedWith (m : HandshakeManager P) (remoteCert : Certificate) (st : P.HandshakeState) :
    Prop :=
  ∃ w, P.FirstMessage m.localKey remoteCert.x25519PublicKey
    (derivePreSharedKey P m.localCert remoteCert) w ∧ w.state = st

/-- The session answers an initiation. -/
def Answers (m : HandshakeManager P) (host : HostInfo) : Prop :=
  ∃ env pkt src, (m.handleStage0 env pkt src).2 = .ok host.core

/-- The session was completed from a Noise state that was started with a certificate for its
address, and `cert` has the key of every such certificate: the key Noise authenticated. -/
def Completes (m : HandshakeManager P) (host : HostInfo) (cert : Certificate) : Prop :=
  ∃ st, (∃ rc : Certificate, rc.vpnIP.addr = host.vpnIP ∧ m.StartedWith rc st) ∧
    (∀ rc : Certificate, rc.vpnIP.addr = host.vpnIP → m.StartedWith rc st →
      cert.x25519PublicKey = rc.x25519PublicKey) ∧
    ∃ noise read cs1 cs2, (P.readMessage st noise).1 = .ok read ∧
      read.ciphers = some (cs1, cs2) ∧ host.sendCipher = ⟨cs1.unsafeKey⟩ ∧
      host.recvCipher = ⟨cs2.unsafeKey⟩

/-- The session has a certificate issued for its address, and got it in one of the two ways. -/
def Identified (m : HandshakeManager P) (host : HostInfo) (cert : Certificate) : Prop :=
  host.cert = some cert ∧ cert.vpnIP.addr = host.vpnIP ∧
    (m.Answers host ∨ m.Completes host cert)

/-- Every response the event delivers to a pending handshake carries a certificate that agrees with
the one the handshake was started with, if it passes the checks. -/
def Honours (m : HandshakeManager P) (e : Env P × Interface.Event) : Prop :=
  ∀ pkt src idx ph (rc : Certificate), e.2 = .outside pkt src →
    IsHandshake handshakeResponse pkt → m.Names pkt idx ph → rc.vpnIP.addr = ph.remoteVpnIP →
    m.StartedWith rc ph.state → m.Binds e.1.now ph pkt rc

theorem handleStage0_congr {m' : HandshakeManager P} (hcert : m.localCert = m'.localCert)
    (hkey : m.localKey = m'.localKey) (hpool : m.caPool = m'.caPool) (env : Env P) (pkt : Bytes)
    (src : UDPAddr) : m.handleStage0 env pkt src = m'.handleStage0 env pkt src := by
  obtain ⟨cert, key, pool, _, _, _⟩ := m
  obtain ⟨cert', key', pool', _, _, _⟩ := m'
  obtain rfl : cert = cert' := hcert
  obtain rfl : key = key' := hkey
  obtain rfl : pool = pool' := hpool
  rfl

theorem Names.mem (h : m.Names pkt idx ph) : ph ∈ m.handshakes := by
  obtain ⟨-, -, -, hph⟩ := h
  obtain ⟨r, -, hr⟩ := Option.bind_eq_some_iff.mp hph
  exact List.mem_of_getElem? hr

theorem honours_core {e : Env P × Interface.Event} (h : m.Honours e) : m.core.Honours e := by
  intro pkt src idx ph rc hevent hresp hnames hip hstarted
  obtain ⟨ph', hnames', rfl⟩ := exists_names_of_core hnames
  intro msg details cert read cs henv
  exact h pkt src idx ph' rc hevent hresp hnames' hip hstarted msg details cert read cs
    ⟨henv.message, henv.detailsOk, henv.certOk, henv.verified, henv.mac⟩

end HandshakeManager

/-! ### Whole runs

The peers that handshakes were started with are part of the history, so the invariant speaks of
both. -/

/-- Certificates are kept under the address they are issued for. -/
theorem update_issued {certs : GoMap Addr Certificate} {ip : Addr} {c : Certificate}
    (h : ∀ v cert, certs v = some cert → cert.vpnIP.addr = v) (hip : c.vpnIP.addr = ip) :
    ∀ (v : Addr) (cert : Certificate), Function.update certs ip (some c) v = some cert →
      cert.vpnIP.addr = v := by
  intro v cert hv
  by_cases heq : v = ip
  · rw [heq, Function.update_self] at hv
    obtain rfl := Option.some.inj hv
    rw [heq, hip]
  · rw [Function.update_of_ne heq] at hv
    exact h v cert hv

open HandshakeManager in
/-- What holds of the control plane of a node that was set up as `m`. -/
structure Control.Bound (m : HandshakeManager P) (c : Control P) : Prop where
  localCert : c.handshakeMgr.localCert = m.localCert
  localKey : c.handshakeMgr.localKey = m.localKey
  caPool : c.handshakeMgr.caPool = m.caPool
  peerCerts : ∀ v cert, c.peerCerts v = some cert → cert.vpnIP.addr = v
  handshakes : ∀ ph ∈ c.handshakeMgr.handshakes, ∃ rc : Certificate,
    rc.vpnIP.addr = ph.remoteVpnIP ∧ m.StartedWith rc ph.state
  sessions : ∀ host ∈ c.hostmap.hosts, ∃ cert, m.Identified host cert

namespace Control

variable {m : HandshakeManager P} {c c' : Control P} {e : Env P × Interface.Event}
  {effs : List Effect}

theorem Bound.install (h : c.Bound m) {host : HostInfo} {cert : Certificate}
    (hhost : m.Identified host cert) : (c.install host).Bound m := by
  refine ⟨h.localCert, h.localKey, h.caPool, ?_, h.handshakes, ?_⟩
  · unfold Control.install
    simp only [hhost.1]
    exact update_issued h.peerCerts hhost.2.1
  · intro host' hmem
    rcases List.mem_append.mp hmem with hold | hnew
    · exact h.sessions host' hold
    · rw [List.mem_singleton.mp hnew]
      exact ⟨cert, hhost⟩

theorem Bound.startedWith_iff (h : c.Bound m) (rc : Certificate) (st : P.HandshakeState) :
    c.handshakeMgr.StartedWith rc st ↔ m.StartedWith rc st := by
  unfold HandshakeManager.StartedWith
  rw [h.localCert, h.localKey]

/-- A session that answers an initiation has the certificate it came with. -/
theorem Bound.identified_answer (h : c.Bound m) {env : Env P} {pkt : Bytes} {src : UDPAddr}
    {host : HostInfo} (hread : (c.handshakeMgr.handleStage0 env pkt src).2 = .ok host) :
    ∃ cert, m.Identified host.core cert := by
  obtain ⟨s, idx, wire, cs, ciphers, -, -, -, -, rfl⟩ := HandshakeManager.handleStage0_ok.mp hread
  refine ⟨s.senderCert, rfl, rfl, .inl ⟨env, pkt, src, ?_⟩⟩
  refine Eq.trans ?_ hread
  exact congrArg Prod.snd
    (HandshakeManager.handleStage0_congr h.localCert.symm h.localKey.symm h.caPool.symm env pkt src)

/-- A session completed by a response has the certificate the handshake was started for. -/
theorem Bound.identified_complete (h : c.Bound m) {pkt : Bytes} {src : UDPAddr} {idx : UInt32}
    {ph : PendingHandshake P} {s : HandshakeManager.Stage1} (hhonours : c.handshakeMgr.Honours e)
    (hevent : e.2 = .outside pkt src) (hresp : IsHandshake handshakeResponse pkt)
    (hnames : c.handshakeMgr.Names pkt idx ph)
    (hread : c.handshakeMgr.readStage1 e.1.now ph pkt = .ok s) :
    m.Identified (HandshakeManager.stage1Host ph s) s.responderCert := by
  obtain ⟨msg, henv, read, cs1, cs2, hnoise, hcs, hciphers⟩ :=
    HandshakeManager.readStage1_ok.mp hread
  have hbinds : ∀ rc : Certificate, rc.vpnIP.addr = ph.remoteVpnIP → m.StartedWith rc ph.state →
      s.responderCert.vpnIP.addr = ph.remoteVpnIP ∧
        s.responderCert.x25519PublicKey = rc.x25519PublicKey := by
    intro rc hip hstarted
    exact hhonours pkt src idx ph rc hevent hresp hnames hip ((h.startedWith_iff rc _).mpr hstarted)
      msg _ _ read _ henv hnoise hcs
  obtain ⟨rc, hip, hstarted⟩ := h.handshakes ph hnames.mem
  refine ⟨rfl, (hbinds rc hip hstarted).1, .inr ⟨ph.state, ⟨rc, hip, hstarted⟩, ?_, ?_⟩⟩
  · intro rc' hip' hstarted'
    exact (hbinds rc' hip' hstarted').2
  · refine ⟨msg.noisePayload, read, cs1, cs2, hnoise, hcs, ?_, ?_⟩
    · exact congrArg Prod.fst hciphers
    · exact congrArg Prod.snd hciphers

theorem Bound.react (h : c.Bound m) (hreact : Reaction e c effs c')
    (hhonours : c.handshakeMgr.Honours e) : c'.Bound m := by
  cases hreact with
  | idle _ => exact h
  | close _ _ _ _ =>
      exact ⟨h.localCert, h.localKey, h.caPool, h.peerCerts, h.handshakes, h.sessions⟩
  | @start _ v addr cert ph _ _ _ _ hcert _ hnew _ =>
      refine ⟨h.localCert, h.localKey, h.caPool, h.peerCerts, ?_, h.sessions⟩
      intro ph' hmem
      rcases List.mem_append.mp hmem with hold | hadded
      · exact h.handshakes ph' hold
      · obtain ⟨idx, hs, w, wire, -, hstate, hwrite, -, rfl⟩ :=
          HandshakeManager.newPending_ok.mp hnew
        rw [List.mem_singleton.mp hadded]
        refine ⟨cert, h.peerCerts v cert hcert, (h.startedWith_iff cert _).mp ?_⟩
        exact ⟨w, ⟨hs, e.1.entropy, [], hstate, hwrite⟩, rfl⟩
  | retry _ hretry =>
      obtain ⟨hhandshakes, hcert, hkey, hpool⟩ := HandshakeManager.RetryStep.handshakes_eq hretry
      refine ⟨hcert.trans h.localCert, hkey.trans h.localKey, hpool.trans h.caPool, h.peerCerts, ?_,
        h.sessions⟩
      rw [hhandshakes]
      exact h.handshakes
  | refuse _ _ _ => exact h
  | answer _ _ hread =>
      obtain ⟨cert, hhost⟩ := h.identified_answer (by rw [hread])
      exact h.install hhost
  | abandon _ _ _ _ =>
      exact ⟨h.localCert, h.localKey, h.caPool, h.peerCerts, h.handshakes, h.sessions⟩
  | @complete _ _ idx ph _ _ hevent hresp hnames hread _ =>
      have htaken : Control.Bound m { c with handshakeMgr := c.handshakeMgr.take idx ph } :=
        ⟨h.localCert, h.localKey, h.caPool, h.peerCerts, h.handshakes, h.sessions⟩
      exact htaken.install (h.identified_complete hhonours hevent hresp hnames hread)

end Control

namespace Interface

variable {m : HandshakeManager P} {I : Interface P}

/-! #### The node -/

theorem foldl_update_issued (peers : List Certificate) : ∀ certs : GoMap Addr Certificate,
    (∀ v cert, certs v = some cert → cert.vpnIP.addr = v) → ∀ (v : Addr) (cert : Certificate),
    peers.foldl (fun (certs : GoMap Addr Certificate) c =>
      Function.update certs c.vpnIP.addr (some c)) certs v = some cert → cert.vpnIP.addr = v := by
  induction peers with
  | nil => intro certs h; exact h
  | cons c peers ih => intro certs h; exact ih _ (update_issued h rfl)

theorem control_new_bound (localCert : Certificate) (localKey : DHKey) (caPool : List Certificate)
    (fw : Firewall) (lighthouse : LightHouse) (punchy : Option Punchy)
    (peers : List Certificate) :
    (new (P := P) localCert localKey caPool fw lighthouse punchy peers).control.Bound
      (.new localCert localKey caPool) := by
  unfold new
  rw [foldl_addPeerCert]
  refine ⟨rfl, rfl, rfl, ?_, ?_, ?_⟩
  · refine foldl_update_issued peers _ ?_
    intro v cert hv
    cases hv
  · intro ph hph
    cases hph
  · intro host hhost
    cases hhost

theorem cert_receive (h : HostInfo) (hdr : Header) (pkt : Bytes) :
    (h.receive P hdr pkt).1.cert = h.cert := by
  have hcert := congrArg HostInfo.cert (core_receive (P := P) h hdr pkt)
  exact hcert

/-- The groups an inbound packet is judged with are those of its session's certificate. -/
theorem groups_of_inbound {env : Env P} {pkt : Bytes} {hdr : Header} {src : UDPAddr}
    {plaintext : Bytes} {groups : List GoString} {tracked allowed : Bool}
    (h : .inbound plaintext groups tracked allowed ∈ (I.handleMessage env pkt hdr src).2) :
    ∃ r host, I.hostmap.getByIndex hdr.remoteIndex = some (r, host) ∧
      groups = (host.cert.map (·.groups)).getD [] := by
  unfold handleMessage at h
  cases hget : I.hostmap.getByIndex hdr.remoteIndex with
  | none =>
      rw [hget] at h
      simp only [Punchy.respondToPunch] at h
      split at h
      · split at h
        · simp [Env.send] at h
        · cases h
      · cases h
  | some p =>
      obtain ⟨r, host⟩ := p
      refine ⟨r, host, rfl, ?_⟩
      rw [hget] at h
      simp only at h
      cases hres : (host.receive P hdr pkt).2 with
      | error e =>
          rw [hres] at h
          cases h
      | ok plaintext' =>
          simp only [hres, deliver] at h
          cases hsrc : srcIPFromIPv4 plaintext' with
          | none => simp [hsrc] at h
          | some srcIP =>
              simp only [hsrc, List.mem_cons, reduceCtorEq, false_or, Effect.inbound.injEq] at h
              rcases h with ⟨-, hgroups, -, -⟩ | h
              · rw [hgroups, cert_receive]
              · split at h
                · simp at h
                · cases h

/-- What holds of a node that was set up as `m`: the certificates it keeps are for the addresses
they are kept under, every session is identified, and the firewall judges what a session delivers
with the groups of the certificate that identifies it. -/
structure Bound (m : HandshakeManager P) (I : Interface P) : Prop where
  peerCerts : ∀ v cert, I.peerCerts v = some cert → cert.vpnIP.addr = v
  sessions : ∀ host ∈ I.hostmap.hosts, ∃ cert, m.Identified host cert
  groups : ∀ env pkt hdr src plaintext groups tracked allowed,
    .inbound plaintext groups tracked allowed ∈ (I.handleMessage env pkt hdr src).2 →
    ∃ r host cert, I.hostmap.getByIndex hdr.remoteIndex = some (r, host) ∧
      m.Identified host cert ∧ groups = cert.groups

theorem bound_of_control (h : I.control.Bound m) : I.Bound m := by
  have hsessions : ∀ host ∈ I.hostmap.hosts, ∃ cert, m.Identified host cert := by
    intro host hmem
    obtain ⟨cert, hcert⟩ := h.sessions host.core (List.mem_map.mpr ⟨host, hmem, rfl⟩)
    exact ⟨cert, hcert⟩
  refine ⟨h.peerCerts, hsessions, ?_⟩
  intro env pkt hdr src plaintext groups tracked allowed hmem
  obtain ⟨r, host, hget, hgroups⟩ := groups_of_inbound hmem
  obtain ⟨cert, hhost⟩ := hsessions host
    (List.mem_of_getElem? (HostMap.getByIndex_eq_some.mp hget).2)
  refine ⟨r, host, cert, hget, hhost, ?_⟩
  rw [hgroups, hhost.1]
  rfl

/-- **When a handshake ends with the identity it was started with.**  For one response: whenever
`HandleStage1` installs a session for the pending handshake the response names, the session has a
certificate for the handshake's address with the key of `remoteCert`, if and only if the
certificate in the response is one, should it pass the checks.  For whole runs: if every response
agrees with the certificate its handshake was started with, then the kept certificates, the
sessions and the groups of the firewall all belong to the peer they are used for. -/
theorem identity_bound_iff :
    (∀ (m : HandshakeManager P) (now : Time) (pkt : Bytes) (idx : UInt32)
        (ph : PendingHandshake P) (remoteCert : Certificate), m.Names pkt idx ph →
      ((∀ m' host queue, m.handleStage1 now pkt = (m', .ok (host, queue)) →
          HandshakeManager.BoundTo ph.remoteVpnIP remoteCert host) ↔
        m.Binds now ph pkt remoteCert)) ∧
    ∀ (localCert : Certificate) (localKey : DHKey) (caPool : List Certificate) (fw : Firewall)
        (lighthouse : LightHouse) (punchy : Option Punchy) (peers : List Certificate)
        (es : List (Env P × Event)),
      Trace.Meets step (fun I e => I.handshakeMgr.Honours e)
        (new localCert localKey caPool fw lighthouse punchy peers) es →
      ((new localCert localKey caPool fw lighthouse punchy peers).run es).1.Bound
        (.new localCert localKey caPool) := by
  refine ⟨?_, ?_⟩
  · intro m now pkt idx ph remoteCert hnames
    exact HandshakeManager.handleStage1_boundTo_iff hnames now remoteCert
  · intro localCert localKey caPool fw lighthouse punchy peers es hmeets
    refine bound_of_control ?_
    refine Trace.run_invariant_of_meets (fun I : Interface P => I.control.Bound _) ?_ es _ ?_ hmeets
    · intro I e hbound hhonours
      exact hbound.react (step_reacts I e) (HandshakeManager.honours_core hhonours)
    · exact control_new_bound localCert localKey caPool fw lighthouse punchy peers

section Concrete

open Symbolic

/-- Node 1 sends a packet to node 2, which starts a handshake under index 7. -/
def calls : Env platform × Event := (calmEnv 7 [9], .inside (tcpPacket 1 2 40000 22))

/-- What node 2 answers to the handshake. -/
def genuineResponse : Bytes :=
  firstWritten ((node 2).step
    (calmEnv 8 [5], .outside (firstWritten (caller.step calls).2) (nodeAddr 1))).2

/-- A response with the certificate in its details replaced and the MAC computed anew. -/
def withCert (cert : Certificate) (wire : Bytes) : Except String Bytes := do
  let msg ← platform.unmarshalMessage (wire.drop headerLen)
  let details ← platform.unmarshalDetails msg.details
  let d ← platform.marshalDetails { details with cert := cert.pem platform }
  let body ← platform.marshalMessage
    ⟨d, msg.noisePayload, messageMAC platform cert d msg.noisePayload⟩
  pure (wire.take headerLen ++ body)

/-- A response arrives at node 1. -/
def responds (wire : Bytes) : Env platform × Event := (calmEnv 0 [], .outside wire (nodeAddr 2))

/-- With the genuine response the identities are bound, and the session is there. -/
theorem identity_bound_genuine :
    Trace.Meets step (fun I e => I.handshakeMgr.Honours e) caller
        [calls, responds genuineResponse] ∧
      ((caller.run [calls, responds genuineResponse]).1.hostmap.getByVpnIP (nodeIP 2)).isSome ∧
      (caller.run [calls, responds genuineResponse]).1.Bound
        (.new (nodeCert 1 [[1]]) (nodeKey 1) [caCert]) := by
  -- the pending handshake, the certificate in the response, and the session at the end
  have hcomputed : (caller.step calls).1.handshakeMgr.handshakes.map
        (fun ph => (ph.remoteVpnIP, ph.state.cfg.peerStatic))
        = [(nodeIP 2, (nodeKey 2).publicKey)] ∧
      ((platform.unmarshalMessage (genuineResponse.drop headerLen)).toOption.bind
        fun msg => (platform.unmarshalDetails msg.details).toOption.bind fun d =>
          (Certificate.parse platform d.cert).toOption.map fun c =>
            (c.vpnIP.addr, c.x25519PublicKey)) = some (nodeIP 2, (nodeKey 2).publicKey) ∧
      ((caller.run [calls, responds genuineResponse]).1.hostmap.getByVpnIP
        (nodeIP 2)).isSome := by
    decide +kernel
  obtain ⟨hpending, hcert, hsession⟩ := hcomputed
  have hmeets : Trace.Meets step (fun I e => I.handshakeMgr.Honours e) caller
      [calls, responds genuineResponse] := by
    refine ⟨?_, ?_, trivial⟩
    · intro pkt src idx ph rc hevent
      cases hevent
    · intro pkt src idx ph rc hevent hresp hnames hip hstarted msg details cert read cs henv _ _
      obtain ⟨rfl, -⟩ := Event.outside.inj hevent
      have hph := List.mem_map_of_mem (f := fun ph => (ph.remoteVpnIP, ph.state.cfg.peerStatic))
        hnames.mem
      rw [hpending, List.mem_singleton] at hph
      obtain ⟨hremote, hpeer⟩ := Prod.mk.inj hph
      -- the symbolic state names the key it was started with
      obtain ⟨w, hfirst, hstate⟩ := hstarted
      obtain ⟨-, e, payload, rfl⟩ := firstMessage_eq hfirst
      rw [← hstate] at hpeer
      rw [henv.message, Except.toOption, Option.bind_some, henv.detailsOk, Except.toOption,
        Option.bind_some, henv.certOk] at hcert
      obtain ⟨hissued, hkey⟩ := Prod.mk.inj (Option.some.inj hcert)
      exact ⟨hissued.trans hremote.symm, hkey.trans hpeer.symm⟩
  refine ⟨hmeets, hsession, ?_⟩
  exact identity_bound_iff.2 (nodeCert 1 [[1]]) (nodeKey 1) [caCert] _ _ none [nodeCert 2 [[2]]]
    [calls, responds genuineResponse] hmeets

/-- The genuine answer of node 2 with the certificate of node 3 in it. -/
def substitutedResponse : Bytes := ((withCert (nodeCert 3 [[3]]) genuineResponse).toOption).getD []

/-- **A response can bring any certificate.**  Node 1 starts the handshake with node 2's
certificate, Noise authenticates node 2, and the session for node 2's address, the certificate kept
for it and the groups of the firewall are node 3's. -/
theorem response_substitutes_certificate :
    let I := (caller.run [calls, responds substitutedResponse]).1
    caller.peerCerts (nodeIP 2) = some (nodeCert 2 [[2]]) ∧
      (I.hostmap.getByVpnIP (nodeIP 2)).map (fun p => (p.2.vpnIP, p.2.cert))
        = some (nodeIP 2, some (nodeCert 3 [[3]])) ∧
      I.peerCerts (nodeIP 2) = some (nodeCert 3 [[3]]) ∧
      hostGroups (I.hostmap.getByVpnIP (nodeIP 2)) = [[3]] ∧
      (nodeCert 3 [[3]]).vpnIP.addr ≠ nodeIP 2 ∧
      (nodeCert 3 [[3]]).x25519PublicKey ≠ (nodeCert 2 [[2]]).x25519PublicKey := by
  intro I
  have hend : ((I.hostmap.getByVpnIP (nodeIP 2)).map (fun p => (p.2.vpnIP, p.2.cert)),
      I.peerCerts (nodeIP 2), hostGroups (I.hostmap.getByVpnIP (nodeIP 2)))
      = (some (nodeIP 2, some (nodeCert 3 [[3]])), some (nodeCert 3 [[3]]), [[3]]) := by
    decide +kernel
  obtain ⟨hsession, hrest⟩ := Prod.mk.inj hend
  obtain ⟨hcert, hgroups⟩ := Prod.mk.inj hrest
  exact ⟨by decide +kernel, hsession, hcert, hgroups, by decide +kernel, by decide +kernel⟩

end Concrete

end Interface

end Neth
