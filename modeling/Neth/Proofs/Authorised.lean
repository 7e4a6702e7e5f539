/-
Why a packet reaches the TUN device.

Whatever a node has been through since it was started, a packet it writes to the TUN
device was sealed for a session, the session has a certificate that came in an earlier
handshake datagram and passed the check against the CA pool there, and the firewall let
the packet in under the groups of that certificate.  Nothing else the node is sent, or
does by itself, gets anything to the device.

The certificates a node keeps to start handshakes with have the same origin, or were
handed to it when it was set up.
-/
import Neth.Proofs.Exchange
import Neth.Proofs.Identity
import Neth.Proofs.Source

namespace Neth

variable {P : Platform}

/-! ### Who writes to the device

Only `deliver` does, so every other function is a matter of looking at what it sends. -/

/-- Nothing for the TUN device. -/
def NoTun (effs : List Effect) : Prop := ∀ data, .tunWrite data ∉ effs

theorem noTun_nil : NoTun [] := fun _ h => nomatch h

theorem NoTun.append {effs effs' : List Effect} (h : NoTun effs) (h' : NoTun effs') :
    NoTun (effs ++ effs') := by
  intro data hmem
  rcases List.mem_append.mp hmem with hmem | hmem
  · exact h data hmem
  · exact h' data hmem

theorem noTun_send (env : Env P) (data : Bytes) (addr : UDPAddr) : NoTun [env.send data addr] := by
  intro data' hmem
  cases List.mem_singleton.mp hmem

theorem noTun_of_isQuietWrite {effs : List Effect} (h : ∀ e ∈ effs, e.IsQuietWrite) :
    NoTun effs := fun data hmem => h (.tunWrite data) hmem

namespace HandshakeManager

theorem noTun_startHandshake (m : HandshakeManager P) (env : Env P) (v : Addr) (addr : UDPAddr)
    (cert : Certificate) : NoTun (m.startHandshake env v addr cert).2.1 := by
  unfold startHandshake
  split
  · exact noTun_nil
  · split
    · exact noTun_nil
    · exact noTun_send env _ addr

theorem noTun_handleStage0 (m : HandshakeManager P) (env : Env P) (pkt : Bytes) (src : UDPAddr) :
    NoTun (m.handleStage0 env pkt src).1 := by
  unfold handleStage0
  split
  · exact noTun_nil
  · split
    · exact noTun_nil
    · split
      · exact noTun_send env _ src
      · split
        · exact noTun_send env _ src
        · exact noTun_send env _ src

theorem noTun_retryPending (m : HandshakeManager P) (env : Env P) :
    NoTun (m.retryPending env).2 := by
  refine retryPending_rule (fun _ effs => NoTun effs) m env noTun_nil ?_
  intro m' effs v h
  refine h.append ?_
  unfold retryOne
  split
  · exact noTun_nil
  · split
    · exact noTun_nil
    · split
      · exact noTun_nil
      · split
        · exact noTun_nil
        · exact noTun_send env _ _

end HandshakeManager

namespace Interface

variable (I : Interface P) (env : Env P)

theorem noTun_sendToRemote (r : Ref) (pkt : Bytes) : NoTun (I.sendToRemote env r pkt).2 := by
  cases hr : I.hostmap.hosts[r]? with
  | none =>
      rw [sendToRemote_of_none hr]
      exact noTun_nil
  | some host =>
      rw [sendToRemote_eq hr]
      intro data hmem
      rcases List.mem_cons.mp hmem with hmem | hmem
      · cases hmem
      · exact noTun_send env _ _ data hmem

theorem noTun_sendAll (r : Ref) (pkts : List Bytes) :
    ∀ I : Interface P, NoTun (I.sendAll env r pkts).2 := by
  induction pkts with
  | nil => intro I; exact noTun_nil
  | cons pkt pkts ih => intro I; exact (I.noTun_sendToRemote env r pkt).append (ih _)

theorem noTun_consumeInsidePacket (pkt : Bytes) : NoTun (I.consumeInsidePacket env pkt).2 := by
  have hforward : ∀ (J : Interface P) (dstIP : Addr), NoTun (J.forwardInside env dstIP pkt).2 := by
    intro J dstIP
    unfold forwardInside
    split
    · exact J.noTun_sendToRemote env _ pkt
    · split
      · exact noTun_nil
      · next cert _ =>
          split
          · exact noTun_of_isQuietWrite (LightHouse.quiet_flatMap_send _ _ _ _)
          · next addr _ _ =>
              have hstart := J.handshakeMgr.noTun_startHandshake env dstIP addr cert
              split
              · next heq => rw [heq] at hstart; exact hstart
              · next heq => rw [heq] at hstart; exact hstart
  unfold consumeInsidePacket
  split
  · exact noTun_nil
  · simp only
    split
    · intro data hmem
      rcases List.mem_cons.mp hmem with hmem | hmem
      · cases hmem
      · exact hforward _ _ data hmem
    · intro data hmem
      cases List.mem_singleton.mp hmem

theorem noTun_handleHandshake (pkt : Bytes) (hdr : Header) (src : UDPAddr) :
    NoTun (I.handleHandshake env pkt hdr src).2 := by
  unfold handleHandshake
  split
  · have hsent := I.handshakeMgr.noTun_handleStage0 env pkt src
    split
    · next heq => rw [heq] at hsent; exact hsent
    · next heq =>
        rw [heq] at hsent
        exact hsent.append (noTun_sendAll env I.hostmap.hosts.length [] _)
  · split
    · split
      · exact noTun_nil
      · exact noTun_sendAll env _ _ _
    · exact noTun_nil

theorem quiet_handleLightHouse (pkt : Bytes) (hdr : Header) (src : UDPAddr) :
    ∀ e ∈ (I.handleLightHouse env pkt hdr src).2, e.IsQuietWrite := by
  unfold handleLightHouse
  simp only
  split
  · exact fun e he => nomatch he
  · split
    · exact fun e he => nomatch he
    · exact LightHouse.quiet_handleMessage _ _ _ _

/-- Only a data packet that opens on a session, and that the firewall lets in, gets to the
device. -/
theorem opens_of_tunWrite {e : Event} {data : Bytes} (h : .tunWrite data ∈ (I.step (env, e)).2) :
    ∃ pkt src hdr host s, e = .outside pkt src ∧ Header.parse pkt = .ok hdr ∧
      hdr.type = typeMessage ∧ I.Opens pkt hdr host data ∧ srcIPFromIPv4 data = some s ∧
      I.fw.LetsIn host.groups data s := by
  cases e with
  | inside pkt => exact absurd h (I.noTun_consumeInsidePacket env pkt data)
  | retry => exact absurd h (I.handshakeMgr.noTun_retryPending env data)
  | expire => simp [step] at h
  | advertise =>
      exact absurd h (noTun_of_isQuietWrite (LightHouse.quiet_flatMap_send _ _ _ _) data)
  | outside pkt src =>
      simp only [step, consumeOutsidePacket] at h
      split at h
      · cases h
      · cases hparse : Header.parse pkt with
        | error err => simp [hparse] at h
        | ok hdr =>
            simp only [hparse] at h
            split at h
            · next htype =>
                rcases I.handleMessage_cases env pkt hdr src with
                  ⟨host, p, s, hopens, hsrc, -, hwrites⟩ | ⟨-, -, hnone⟩
                · obtain ⟨hlets, rfl⟩ := (hwrites data).mp h
                  exact ⟨pkt, src, hdr, host, s, rfl, hparse, htype, hopens, hsrc, hlets⟩
                · exact absurd h (hnone data)
            split at h
            · exact absurd h (I.noTun_handleHandshake env pkt hdr src data)
            split at h
            · exact absurd h (noTun_of_isQuietWrite (I.quiet_handleLightHouse env pkt hdr src) data)
            split at h
            · exact absurd h (noTun_send env _ src data)
            split at h
            · cases h
            · cases h

end Interface

/-! ### Where certificates come from

A certificate that a handshake is started with was either given to the node at its start or came in
with an earlier handshake, where it was checked. -/

open HandshakeManager in
/-- The certificate came in one of the datagrams, under its MAC, and passed the check against the
pool of `m` when it came. -/
def Introduced (m : HandshakeManager P) (past : List (Env P × Interface.Event))
    (cert : Certificate) : Prop :=
  ∃ env pkt src msg details, (env, .outside pkt src) ∈ past ∧
    Envelope m env.now pkt msg details cert

theorem Introduced.mono {m : HandshakeManager P} {past past' : List (Env P × Interface.Event)}
    {cert : Certificate} (h : Introduced m past cert) (hsub : past ⊆ past') :
    Introduced m past' cert := by
  obtain ⟨env, pkt, src, msg, details, hmem, henv⟩ := h
  exact ⟨env, pkt, src, msg, details, hsub hmem, henv⟩

/-- What a node set up as `m` with the certificates `peers` knows of its peers after some events. -/
structure Control.Vouched (m : HandshakeManager P) (peers : List Certificate)
    (past : List (Env P × Interface.Event)) (c : Control P) : Prop where
  /-- The node has the certificate, the key and the pool it was set up with. -/
  localCert : c.handshakeMgr.localCert = m.localCert
  localKey : c.handshakeMgr.localKey = m.localKey
  caPool : c.handshakeMgr.caPool = m.caPool
  /-- A kept certificate was there from the start, under its own address, or introduced itself. -/
  peerCerts : ∀ v cert, c.peerCerts v = some cert →
    (cert ∈ peers ∧ cert.vpnIP.addr = v) ∨ Introduced m past cert
  /-- A handshake was started with such a certificate. -/
  handshakes : ∀ ph ∈ c.handshakeMgr.handshakes, ∃ cert, m.StartedWith cert ph.state ∧
    ((cert ∈ peers ∧ cert.vpnIP.addr = ph.remoteVpnIP) ∨ Introduced m past cert)
  /-- A session has a certificate that introduced itself. -/
  sessions : ∀ host ∈ c.hostmap.hosts, ∃ cert, host.cert = some cert ∧ Introduced m past cert

namespace Control

variable {m : HandshakeManager P} {peers : List Certificate} {c c' : Control P}
  {past past' : List (Env P × Interface.Event)} {e : Env P × Interface.Event} {effs : List Effect}

theorem Vouched.mono (h : c.Vouched m peers past) (hsub : past ⊆ past') :
    c.Vouched m peers past' := by
  refine ⟨h.localCert, h.localKey, h.caPool, ?_, ?_, ?_⟩
  · intro v cert hv
    rcases h.peerCerts v cert hv with hpeer | hintro
    · exact .inl hpeer
    · exact .inr (hintro.mono hsub)
  · intro ph hmem
    obtain ⟨cert, hstarted, horigin⟩ := h.handshakes ph hmem
    rcases horigin with hpeer | hintro
    · exact ⟨cert, hstarted, .inl hpeer⟩
    · exact ⟨cert, hstarted, .inr (hintro.mono hsub)⟩
  · intro host hmem
    obtain ⟨cert, hcert, hintro⟩ := h.sessions host hmem
    exact ⟨cert, hcert, hintro.mono hsub⟩

theorem Vouched.install (h : c.Vouched m peers past) {host : HostInfo} {cert : Certificate}
    (hcert : host.cert = some cert) (hintro : Introduced m past cert) :
    (c.install host).Vouched m peers past := by
  refine ⟨h.localCert, h.localKey, h.caPool, ?_, h.handshakes, ?_⟩
  · intro v cert' hv
    simp only [Control.install, hcert, Function.update_apply] at hv
    split at hv
    · obtain rfl := Option.some.inj hv
      exact .inr hintro
    · exact h.peerCerts v cert' hv
  · intro host' hmem
    rcases List.mem_append.mp hmem with hold | hnew
    · exact h.sessions host' hold
    · rw [List.mem_singleton.mp hnew]
      exact ⟨cert, hcert, hintro⟩

/-- Taking a handshake out of the maps, or a session out of its maps, does not matter. -/
theorem Vouched.forget (h : c.Vouched m peers past) (idx : UInt32) (ph : PendingHandshake P) :
    Control.Vouched m peers past { c with handshakeMgr := c.handshakeMgr.take idx ph } :=
  ⟨h.localCert, h.localKey, h.caPool, h.peerCerts, h.handshakes, h.sessions⟩

/-- What the checks of a handshake datagram say is an introduction. -/
theorem Vouched.introduced (h : c.Vouched m peers past) {env : Env P} {pkt : Bytes} {src : UDPAddr}
    {msg : HandshakeMessage} {details : HandshakeDetails} {cert : Certificate}
    (hmem : (env, .outside pkt src) ∈ past')
    (henv : HandshakeManager.Envelope c.handshakeMgr env.now pkt msg details cert) :
    Introduced m past' cert := by
  refine ⟨env, pkt, src, msg, details, hmem, henv.message, henv.detailsOk, henv.certOk, ?_,
    henv.mac⟩
  rw [← h.caPool]
  exact henv.verified

theorem Vouched.react (h : c.Vouched m peers past) (hreact : Reaction e c effs c') :
    c'.Vouched m peers (past ++ [e]) := by
  have hlater : c.Vouched m peers (past ++ [e]) := h.mono (List.subset_append_left _ _)
  have hnow : ∀ {pkt : Bytes} {src : UDPAddr}, e.2 = .outside pkt src →
      (e.1, Interface.Event.outside pkt src) ∈ past ++ [e] := by
    intro pkt src hevent
    rw [← hevent]
    simp
  cases hreact with
  | idle _ => exact hlater
  | close _ _ _ _ =>
      exact ⟨h.localCert, h.localKey, h.caPool, hlater.peerCerts, hlater.handshakes,
        hlater.sessions⟩
  | @start _ v addr cert ph _ _ _ _ hcert _ hnew _ =>
      refine ⟨h.localCert, h.localKey, h.caPool, hlater.peerCerts, ?_, hlater.sessions⟩
      intro ph' hmem
      rcases List.mem_append.mp hmem with hold | hadded
      · exact hlater.handshakes ph' hold
      · obtain ⟨idx, hs, w, wire, -, hstate, hwrite, -, rfl⟩ :=
          HandshakeManager.newPending_ok.mp hnew
        rw [h.localKey, h.localCert] at hstate
        rw [List.mem_singleton.mp hadded]
        exact ⟨cert, ⟨w, ⟨hs, e.1.entropy, [], hstate, hwrite⟩, rfl⟩, hlater.peerCerts v cert hcert⟩
  | retry _ hretry =>
      obtain ⟨hsame, hcert, hkey, hpool⟩ := HandshakeManager.RetryStep.handshakes_eq hretry
      refine ⟨hcert.trans h.localCert, hkey.trans h.localKey, hpool.trans h.caPool,
        hlater.peerCerts, ?_, hlater.sessions⟩
      rw [hsame]
      exact hlater.handshakes
  | refuse _ _ _ => exact hlater
  | @answer pkt src sent host hevent _ hread =>
      obtain ⟨s, idx, wire, cs, ciphers, hstage, -, -, -, rfl⟩ :=
        HandshakeManager.handleStage0_ok.mp (congrArg Prod.snd hread)
      obtain ⟨-, msg, henv, -⟩ := HandshakeManager.readStage0_ok.mp hstage
      exact hlater.install rfl (h.introduced (hnow hevent) henv)
  | abandon _ _ _ _ => exact hlater.forget _ _
  | @complete pkt src idx ph s _ hevent _ _ hread _ =>
      obtain ⟨msg, henv, -⟩ := HandshakeManager.readStage1_ok.mp hread
      exact (hlater.forget idx ph).install rfl (h.introduced (hnow hevent) henv)

end Control

namespace Interface

theorem foldl_update_mem (peers : List Certificate) : ∀ (all : List Certificate)
    (certs : GoMap Addr Certificate), peers ⊆ all →
    (∀ v cert, certs v = some cert → cert ∈ all ∧ cert.vpnIP.addr = v) →
    ∀ v cert, peers.foldl (fun (certs : GoMap Addr Certificate) c =>
      Function.update certs c.vpnIP.addr (some c)) certs v = some cert →
      cert ∈ all ∧ cert.vpnIP.addr = v := by
  induction peers with
  | nil => intro all certs _ h; exact h
  | cons c peers ih =>
      intro all certs hsub h
      refine ih all _ (List.subset_of_cons_subset hsub) ?_
      intro v cert hv
      simp only [Function.update_apply] at hv
      split at hv
      · next heq =>
          obtain rfl := Option.some.inj hv
          exact ⟨hsub (List.mem_cons_self ..), heq.symm⟩
      · exact h v cert hv

section Started

variable (localCert : Certificate) (localKey : DHKey) (caPool : List Certificate) (fw : Firewall)
  (lighthouse : LightHouse) (punchy : Option Punchy) (peers : List Certificate)

theorem control_new_vouched :
    (new (P := P) localCert localKey caPool fw lighthouse punchy peers).control.Vouched
      (.new localCert localKey caPool) peers [] := by
  unfold new
  rw [foldl_addPeerCert]
  refine ⟨rfl, rfl, rfl, ?_, ?_, ?_⟩
  · intro v cert hv
    refine .inl (foldl_update_mem peers peers _ (List.Subset.refl _) ?_ v cert hv)
    intro v cert hv
    cases hv
  · intro ph hmem
    cases hmem
  · intro host hmem
    cases hmem

theorem control_run_vouched (es : List (Env P × Event)) :
    ((new localCert localKey caPool fw lighthouse punchy peers).run es).1.control.Vouched
      (.new localCert localKey caPool) peers es := by
  have hstep : ∀ (past : List (Env P × Event)) (I : Interface P) (e : Env P × Event),
      I.control.Vouched (.new localCert localKey caPool) peers past →
      (I.step e).1.control.Vouched (.new localCert localKey caPool) peers (past ++ [e]) :=
    fun past I e h => h.react (step_reacts I e)
  exact Trace.run_history hstep es [] _
    (control_new_vouched localCert localKey caPool fw lighthouse punchy peers)

/-- **What reaches the TUN device is authorised.**  In every run of a node that was just set up,
if a step writes a packet to the device, then the step handles a data packet; that packet names a
session, is fresh there and opens to what is written; the session's certificate came in an earlier
handshake datagram and passed the check against the CA pool at the time; and the firewall lets the
packet in, from the source address in it, under the groups of that certificate. -/
theorem tun_write_authorised {past : List (Env P × Event)} {env : Env P} {e : Event}
    {data : Bytes} (h : .tunWrite data ∈ (((new localCert localKey caPool fw lighthouse punchy
      peers).run past).1.step (env, e)).2) :
    ∃ pkt src hdr host cert s, e = .outside pkt src ∧ Header.parse pkt = .ok hdr ∧
      hdr.type = typeMessage ∧
      ((new localCert localKey caPool fw lighthouse punchy peers).run past).1.Opens pkt hdr host
        data ∧
      host.cert = some cert ∧ Introduced (.new localCert localKey caPool) past cert ∧
      srcIPFromIPv4 data = some s ∧
      ((new localCert localKey caPool fw lighthouse punchy peers).run past).1.fw.LetsIn
        cert.groups data s := by
  obtain ⟨pkt, src, hdr, host, s, he, hparse, htype, hopens, hsrc, hlets⟩ := opens_of_tunWrite _ _ h
  have hvouched := control_run_vouched localCert localKey caPool fw lighthouse punchy peers past
  obtain ⟨r, hnamed⟩ := hopens.named
  have hmem := List.mem_of_getElem? (HostMap.getByIndex_eq_some.mp hnamed).2
  obtain ⟨cert, hcert, hintro⟩ := hvouched.sessions host.core (List.mem_map.mpr ⟨host, hmem, rfl⟩)
  have hcert : host.cert = some cert := hcert
  have hgroups : host.groups = cert.groups := by
    unfold HostInfo.groups
    rw [hcert]
    rfl
  rw [hgroups] at hlets
  exact ⟨pkt, src, hdr, host, cert, s, he, hparse, htype, hopens, hcert, hintro, hsrc, hlets⟩

open Symbolic HandshakeManager

/-- Node 1 introduces itself to node 2. -/
def greeting : List (Env platform × Event) :=
  [(calmEnv 8 [5], .outside (initiation 1 1) (nodeAddr 1))]

/-- The header of a data packet for the session with index 8. -/
def helloHeader : Header := ⟨headerVersion, typeMessage, 0, 8, 1⟩

/-- Its first packet on the session. -/
def hello : Bytes :=
  helloHeader.bytes ++
    encrypt platform ⟨(split [9] [5]).1.unsafeKey⟩ 1 helloHeader.bytes (tcpPacket 1 2 5555 22)

theorem tun_write_authorised_hello :
    ∃ cert, Introduced (.new (nodeCert 2 [[2]]) (nodeKey 2) [caCert]) greeting cert ∧
      ((Symbolic.node 2).run greeting).1.fw.LetsIn cert.groups (tcpPacket 1 2 5555 22)
        (nodeIP 1) := by
  have hwritten : .tunWrite (tcpPacket 1 2 5555 22) ∈ (((Symbolic.node 2).run greeting).1.step
      (calmEnv 0 [], .outside hello (nodeAddr 1))).2 := by
    decide +kernel
  obtain ⟨-, -, -, -, cert, s, -, -, -, -, -, hintro, hsrc, hlets⟩ :=
    tun_write_authorised (nodeCert 2 [[2]]) (nodeKey 2) [caCert] (.new [anyRule] [anyRule])
      (.new false [] []) none [] hwritten
  obtain rfl : nodeIP 1 = s := by
    have hfrom : srcIPFromIPv4 (tcpPacket 1 2 5555 22) = some (nodeIP 1) := by decide +kernel
    exact Option.some.inj (hfrom.symm.trans hsrc)
  refine ⟨cert, hintro, ?_⟩
  unfold Symbolic.node
  exact hlets

/-- **Handshakes are started with vouched-for certificates.**  In every run of a node that was
just set up, the Noise state of every handshake it ever started comes from writing a first message
to the key of a certificate, under the pre-shared key of that certificate and its own.  The node
was set up with that certificate, for the address the handshake is for, or the certificate came in
an earlier handshake datagram and passed the check against the CA pool. -/
theorem started_handshake_vouched (es : List (Env P × Event)) :
    ∀ ph ∈ ((new localCert localKey caPool fw lighthouse punchy peers).run
        es).1.handshakeMgr.handshakes,
      ∃ cert, HandshakeManager.StartedWith (.new localCert localKey caPool) cert ph.state ∧
        ((cert ∈ peers ∧ cert.vpnIP.addr = ph.remoteVpnIP) ∨
          Introduced (.new localCert localKey caPool) es cert) := by
  intro ph hmem
  exact (control_run_vouched localCert localKey caPool fw lighthouse punchy peers es).handshakes
    ph.core (List.mem_map.mpr ⟨ph, hmem, rfl⟩)

/-- Node 1 has started one handshake, with the certificate of node 2 that it was set up with. -/
theorem started_handshake_vouched_caller :
    ∃ ph ∈ (Symbolic.caller.run [(calmEnv 7 [9],
        .inside (tcpPacket 1 2 40000 22))]).1.handshakeMgr.handshakes,
      ∃ cert, HandshakeManager.StartedWith (P := platform)
        (.new (nodeCert 1 [[1]]) (nodeKey 1) [caCert]) cert ph.state := by
  have hone : (Symbolic.caller.run [(calmEnv 7 [9],
      .inside (tcpPacket 1 2 40000 22))]).1.handshakeMgr.handshakes ≠ [] := by
    intro hnil
    have hlen := congrArg List.length hnil
    revert hlen
    decide +kernel
  obtain ⟨ph, hmem⟩ := List.exists_mem_of_ne_nil _ hone
  obtain ⟨cert, hstarted, -⟩ := started_handshake_vouched _ _ _ _ _ _ _ _ ph hmem
  exact ⟨ph, hmem, cert, hstarted⟩

end Started

end Interface

end Neth
