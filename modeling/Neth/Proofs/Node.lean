/-
What a node can do to its sessions and to its firewall.

The session table changes in five ways only: a session seals a packet under its next
counter, a session judges a datagram, a session is added, an address is removed, and
otherwise nothing happens to it.  The firewall changes in four: it judges an outbound
or an inbound packet, a sweep expires connections, and otherwise nothing.
`SessionStep` and `FirewallStep` list them with the trace each leaves.  Every reaction
of the node is a chain of such steps, so that a result about sessions or about the
firewall over whole runs is proved from these cases.
-/
import Mathlib.Data.Set.Defs
import Neth.Interface
import Neth.Lib.Fallible
import Neth.Proofs.Header
import Neth.Proofs.ReplayWindow

namespace Neth

/-- The trace entries that say something about a session. -/
def Effect.ofSession : Effect → Prop
  | .encrypted .. => True
  | .decrypted .. => True
  | _ => False

variable {P : Platform}

variable (P) in
/-- What a session leaves in the trace when it judges a datagram. -/
def HostInfo.judged (h : HostInfo) (r : Ref) (hdr : Header) (pkt : Bytes) : List Effect :=
  match (h.receive P hdr pkt).2 with
  | .error _ => []
  | .ok plaintext => [.decrypted r (pkt.take headerLen) plaintext]

variable (P) in
/-- What a session leaves in the trace when it seals a packet. -/
def HostInfo.sealed (h : HostInfo) (r : Ref) (plaintext : Bytes) : Effect :=
  let hdrBytes := (h.dataHeader (h.counter + 1)).bytes
  .encrypted r hdrBytes plaintext (encrypt P h.sendCipher (h.counter + 1) hdrBytes plaintext)

variable (P) in
/-- The datagram `sendToRemote` writes. -/
def HostInfo.datagram (h : HostInfo) (plaintext : Bytes) : Bytes :=
  let hdrBytes := (h.dataHeader (h.counter + 1)).bytes
  hdrBytes ++ encrypt P h.sendCipher (h.counter + 1) hdrBytes plaintext

variable (P) in
/-- What can happen to the session table in one step of a node that is handed the datagrams
`arrived`, with what is left in the trace. -/
inductive SessionStep (arrived : Set Bytes) : HostMap → List Effect → HostMap → Prop where
  | idle (m : HostMap) {effs : List Effect} (h : ∀ e ∈ effs, ¬ e.ofSession) :
      SessionStep arrived m effs m
  | send {m : HostMap} {r : Ref} {host : HostInfo} (plaintext : Bytes)
      (h : m.hosts[r]? = some host) :
      SessionStep arrived m [host.sealed P r plaintext]
        (m.assign r { host with counter := host.counter + 1 })
  | judge {m : HostMap} {r : Ref} {host : HostInfo} {hdr : Header} {pkt : Bytes}
      (harrived : pkt ∈ arrived) (hparse : Header.parse pkt = .ok hdr)
      (h : m.getByIndex hdr.remoteIndex = some (r, host)) :
      SessionStep arrived m (host.judged P r hdr pkt) (m.assign r (host.receive P hdr pkt).1)
  | add (m : HostMap) (host : HostInfo) : SessionStep arrived m [] (m.add host)
  | remove (m : HostMap) (ip : Addr) : SessionStep arrived m [] (m.remove ip)

/-- The trace entries that say something about the firewall. -/
def Effect.ofFirewall : Effect → Prop
  | .outbound .. => True
  | .inbound .. => True
  | .expired .. => True
  | _ => False

/-- Something handed to the socket or to the TUN device. -/
def Effect.IsWrite : Effect → Prop
  | .writeTo .. => True
  | .tunWrite .. => True
  | _ => False

theorem Effect.IsWrite.not_ofSession {e : Effect} (h : e.IsWrite) : ¬ e.ofSession := by
  cases e <;> simp_all [IsWrite, ofSession]

theorem Effect.IsWrite.not_ofFirewall {e : Effect} (h : e.IsWrite) : ¬ e.ofFirewall := by
  cases e <;> simp_all [IsWrite, ofFirewall]

/-- Neither a handshake datagram nor one that closes a tunnel. -/
def Quiet (data : Bytes) : Prop :=
  ∀ hdr, Header.parse data = .ok hdr → hdr.type ≠ typeHandshake ∧ hdr.type ≠ typeCloseTunnel

theorem quiet_nil : Quiet [] := by
  intro hdr hparse
  exact absurd (Header.length_of_parse hparse) (by decide)

theorem quiet_bytes_append {hdr : Header} (hversion : hdr.version = headerVersion)
    (htype : hdr.type = typeMessage ∨ hdr.type = typeLightHouse ∨ hdr.type = typeTest)
    (body : Bytes) : Quiet (hdr.bytes ++ body) := by
  have hsmall : hdr.type < 16 ∧ hdr.type ≠ typeHandshake ∧ hdr.type ≠ typeCloseTunnel := by
    rcases htype with h | h | h
    · rw [h]; decide
    · rw [h]; decide
    · rw [h]; decide
  intro hdr' hparse
  rw [Header.parse_bytes_append hdr hversion hsmall.1] at hparse
  rw [← Except.ok.inj hparse]
  exact hsmall.2

/-- A quiet datagram handed to the socket. -/
def Effect.IsQuietWrite : Effect → Prop
  | .writeTo data _ _ => Quiet data
  | _ => False

theorem Effect.IsQuietWrite.isWrite {e : Effect} (h : e.IsQuietWrite) : e.IsWrite := by
  cases e <;> simp_all [IsWrite, IsQuietWrite]

theorem isQuietWrite_map_send (env : Env P) {data : Bytes} (h : Quiet data)
    (addrs : List UDPAddr) : ∀ e ∈ addrs.map (env.send data), e.IsQuietWrite := by
  intro e he
  obtain ⟨addr, -, rfl⟩ := List.mem_map.mp he
  exact h

@[simp] theorem Env.isWrite_send (env : Env P) (data : Bytes) (addr : UDPAddr) :
    (env.send data addr).IsWrite := trivial

/-- Everything a reaction of the node can do to the firewall, with the effects that say so. -/
inductive FirewallStep : Firewall → List Effect → Firewall → Prop where
  | idle (f : Firewall) {effs : List Effect} (h : ∀ e ∈ effs, ¬ e.ofFirewall) :
      FirewallStep f effs f
  | outbound (f : Firewall) (now : Time) (groups : List GoString) {pkt : Bytes} {dstIP : Addr}
      (h : dstIPFromIPv4 pkt = some dstIP) :
      FirewallStep f
        [.outbound pkt groups
          (f.ct.isEstablished (Firewall.key dstIP (dstPortFromIPv4 pkt) (protoFromIPv4 pkt)))
          (f.allowOutbound now dstIP groups (dstPortFromIPv4 pkt) (protoFromIPv4 pkt)).2]
        (f.allowOutbound now dstIP groups (dstPortFromIPv4 pkt) (protoFromIPv4 pkt)).1
  | inbound (f : Firewall) (now : Time) (groups : List GoString) {pkt : Bytes} {srcIP : Addr}
      (h : srcIPFromIPv4 pkt = some srcIP) :
      FirewallStep f
        [.inbound pkt groups
          (f.ct.isEstablished (Firewall.key srcIP (dstPortFromIPv4 pkt) (protoFromIPv4 pkt)))
          (f.allowInbound now srcIP groups (dstPortFromIPv4 pkt) (protoFromIPv4 pkt)).2]
        (f.allowInbound now srcIP groups (dstPortFromIPv4 pkt) (protoFromIPv4 pkt)).1
  | expire (f : Firewall) (now : Time) : FirewallStep f [.expired now] (f.runExpiry now)

theorem HostInfo.judged_not_ofFirewall (h : HostInfo) (r : Ref) (hdr : Header) (pkt : Bytes) :
    ∀ e ∈ h.judged P r hdr pkt, ¬ e.ofFirewall := by
  unfold HostInfo.judged
  split
  · simp
  · simp [Effect.ofFirewall]

/-! ### The table -/

namespace HostMap

theorem deref_eq_some {m : HostMap} {r r' : Ref} {h : HostInfo} :
    m.deref r = some (r', h) ↔ r' = r ∧ m.hosts[r]? = some h := by
  unfold deref
  constructor
  · intro heq
    obtain ⟨h', hh, hpair⟩ := Option.map_eq_some_iff.mp heq
    obtain ⟨rfl, rfl⟩ := Prod.mk.inj hpair
    exact ⟨rfl, hh⟩
  · rintro ⟨rfl, hh⟩
    rw [hh]
    rfl

/-- Both maps are read the same way. -/
theorem bind_deref_eq_some {m : HostMap} {entry : Option Ref} {r : Ref} {h : HostInfo} :
    entry.bind m.deref = some (r, h) ↔ entry = some r ∧ m.hosts[r]? = some h := by
  cases entry with
  | none => simp
  | some r' =>
      simp only [Option.bind_some, deref_eq_some, Option.some.injEq]
      constructor
      · rintro ⟨rfl, hh⟩
        exact ⟨rfl, hh⟩
      · rintro ⟨rfl, hh⟩
        exact ⟨rfl, hh⟩

theorem getByIndex_eq_some {m : HostMap} {idx : UInt32} {r : Ref} {h : HostInfo} :
    m.getByIndex idx = some (r, h) ↔ m.byIndex idx = some r ∧ m.hosts[r]? = some h :=
  bind_deref_eq_some

theorem getByVpnIP_eq_some {m : HostMap} {ip : Addr} {r : Ref} {h : HostInfo} :
    m.getByVpnIP ip = some (r, h) ↔ m.byVpnIP ip = some r ∧ m.hosts[r]? = some h :=
  bind_deref_eq_some

theorem hosts_assign {m : HostMap} {r : Ref} {h : HostInfo} (hr : m.hosts[r]? = some h)
    (h' : HostInfo) (r' : Ref) :
    (m.assign r h').hosts[r']? = if r' = r then some h' else m.hosts[r']? := by
  have hlt : r < m.hosts.length := (List.getElem?_eq_some_iff.mp hr).1
  simp only [assign, List.getElem?_set]
  by_cases heq : r = r'
  · simp [← heq, hlt]
  · simp [heq, Ne.symm heq]

theorem getByIndex_assign {m : HostMap} {idx : UInt32} {r : Ref} {h : HostInfo}
    (hget : m.getByIndex idx = some (r, h)) (h' : HostInfo) :
    (m.assign r h').getByIndex idx = some (r, h') := by
  obtain ⟨hidx, hr⟩ := getByIndex_eq_some.mp hget
  exact getByIndex_eq_some.mpr ⟨hidx, by rw [hosts_assign hr, if_pos rfl]⟩

end HostMap

/-! ### Handlers that only write -/

theorem HandshakeManager.startHandshake_writes (m : HandshakeManager P) (env : Env P)
    (v : Addr) (addr : UDPAddr) (c : Certificate) :
    ∀ e ∈ (m.startHandshake env v addr c).2.1, e.IsWrite := by
  unfold HandshakeManager.startHandshake
  split
  · simp
  · split
    · simp
    · simp

theorem HandshakeManager.handleStage0_writes (m : HandshakeManager P) (env : Env P) (pkt : Bytes)
    (src : UDPAddr) : ∀ e ∈ (m.handleStage0 env pkt src).1, e.IsWrite := by
  unfold HandshakeManager.handleStage0
  split
  · simp
  · split
    · simp
    · split
      · simp
      · split
        · simp
        · simp

theorem HandshakeManager.retryOne_writes (env : Env P) (m : HandshakeManager P) (v : Addr) :
    ∀ e ∈ (m.retryOne env v).2, e.IsWrite := by
  unfold HandshakeManager.retryOne
  split
  · simp
  · split
    · simp
    · split_ifs
      · simp
      · simp
      · simp

/-- The rule for the loop of `retryPending`: what every turn keeps, of the manager and of what was
sent so far, the loop keeps. -/
theorem HandshakeManager.retryPending_rule (Inv : HandshakeManager P → List Effect → Prop)
    (m : HandshakeManager P) (env : Env P) (hinit : Inv m [])
    (hturn : ∀ m effs v, Inv m effs → Inv (m.retryOne env v).1 (effs ++ (m.retryOne env v).2)) :
    Inv (m.retryPending env).1 (m.retryPending env).2 := by
  have hloop : ∀ (order : List Addr) (acc : HandshakeManager P × List Effect), Inv acc.1 acc.2 →
      Inv (order.foldl (fun acc v => ((acc.1.retryOne env v).1,
          acc.2 ++ (acc.1.retryOne env v).2)) acc).1
        (order.foldl (fun acc v => ((acc.1.retryOne env v).1,
          acc.2 ++ (acc.1.retryOne env v).2)) acc).2 := by
    intro order
    induction order with
    | nil => intro acc h; exact h
    | cons v order ih => intro acc h; exact ih _ (hturn acc.1 acc.2 v h)
  exact hloop env.order (m, []) hinit

theorem HandshakeManager.retryPending_writes (m : HandshakeManager P) (env : Env P) :
    ∀ e ∈ (m.retryPending env).2, e.IsWrite := by
  refine retryPending_rule (fun _ effs => ∀ e ∈ effs, e.IsWrite) m env (by simp) ?_
  intro m effs v h e he
  rcases List.mem_append.mp he with he | he
  · exact h e he
  · exact retryOne_writes env m v e he

namespace Punchy

theorem quiet_punchAll (p : Punchy) (env : Env P) (remotes : List UDPAddr) :
    ∀ e ∈ p.punchAll env remotes, e.IsQuietWrite := by
  unfold punchAll
  split
  · exact isQuietWrite_map_send env quiet_nil remotes
  · simp

theorem quiet_respondToPunch (p : Punchy) (env : Env P) (src : UDPAddr) :
    ∀ e ∈ p.respondToPunch env src, e.IsQuietWrite := by
  unfold respondToPunch
  split
  · exact isQuietWrite_map_send env quiet_nil [src]
  · simp

end Punchy

namespace LightHouse

variable (lh : LightHouse) (env : Env P)

theorem quiet_send (msg : LightHouseMessage) (peer : Addr) :
    ∀ e ∈ lh.send env msg peer, e.IsQuietWrite := by
  unfold send
  cases hwire : marshalLightHousePacket P msg with
  | error e => simp
  | ok wire =>
      simp only [marshalLightHousePacket, Fallible.bind_ok, Fallible.pure_ok] at hwire
      obtain ⟨body, -, rfl⟩ := hwire
      exact isQuietWrite_map_send env (quiet_bytes_append rfl (.inr (.inl rfl)) body) _

theorem quiet_flatMap_send (msg : LightHouseMessage) (peers : List Addr) :
    ∀ e ∈ peers.flatMap (lh.send env msg), e.IsQuietWrite := by
  intro e he
  obtain ⟨peer, -, he⟩ := List.mem_flatMap.mp he
  exact lh.quiet_send env msg peer e he

theorem quiet_handleMessage (msg : LightHouseMessage) (src : Addr) :
    ∀ e ∈ (lh.handleMessage env msg src).2, e.IsQuietWrite := by
  unfold handleMessage
  split
  · show ∀ e ∈ lh.handleQuery env _ src, e.IsQuietWrite
    unfold handleQuery
    split
    · simp
    · exact lh.quiet_send env _ src
  · simp
  · simp
  · exact lh.quiet_send env _ src
  · simp
  · show ∀ e ∈ lh.handlePunch env _, e.IsQuietWrite
    unfold handlePunch
    split
    · simp
    · exact Punchy.quiet_punchAll _ env _
  · simp

end LightHouse

/-! ### A node moves by these steps

A reaction is a sequence of small steps of the sessions and of the firewall, with the effects in
order.  Invariants of either are proved from these steps. -/

namespace Interface

/-- Both components moved from `I` to `I'` by their own steps, on the datagrams `arrived`, leaving
the trace `effs`. -/
structure Moves (arrived : Set Bytes) (I : Interface P) (effs : List Effect) (I' : Interface P) :
    Prop where
  sessions : Trace.Executes (SessionStep P arrived) I.hostmap effs I'.hostmap
  firewall : Trace.Executes FirewallStep I.fw effs I'.fw

variable {arrived : Set Bytes} {I I' I'' : Interface P} {effs effs' : List Effect}

theorem Moves.append (h : Moves arrived I effs I') (h' : Moves arrived I' effs' I'') :
    Moves arrived I (effs ++ effs') I'' :=
  ⟨h.sessions.append h'.sessions, h.firewall.append h'.firewall⟩

/-- Neither component is touched, and all there is to see is writes. -/
theorem moves_idle (hhosts : I'.hostmap = I.hostmap) (hfw : I'.fw = I.fw)
    (h : ∀ e ∈ effs, e.IsWrite) : Moves arrived I effs I' := by
  refine ⟨?_, ?_⟩
  · rw [hhosts]
    exact .single (.idle _ fun e he => (h e he).not_ofSession)
  · rw [hfw]
    exact .single (.idle _ fun e he => (h e he).not_ofFirewall)

/-- A session step that leaves the firewall alone. -/
theorem moves_of_session (hstep : SessionStep P arrived I.hostmap effs I'.hostmap)
    (hfw : I'.fw = I.fw) (h : ∀ e ∈ effs, ¬ e.ofFirewall) : Moves arrived I effs I' := by
  refine ⟨.single hstep, ?_⟩
  rw [hfw]
  exact .single (.idle _ h)

/-- A firewall step that leaves the sessions alone. -/
theorem moves_of_firewall (hstep : FirewallStep I.fw effs I'.fw) (hhosts : I'.hostmap = I.hostmap)
    (h : ∀ e ∈ effs, ¬ e.ofSession) : Moves arrived I effs I' := by
  refine ⟨?_, .single hstep⟩
  rw [hhosts]
  exact .single (.idle _ h)

/-! #### Sending -/

/-- The node once session `r` has taken its next counter. -/
def counted (I : Interface P) (r : Ref) (host : HostInfo) : Interface P :=
  { I with hostmap := I.hostmap.assign r { host with counter := host.counter + 1 } }

theorem sendToRemote_eq {r : Ref} {host : HostInfo} (h : I.hostmap.hosts[r]? = some host)
    (env : Env P) (pkt : Bytes) :
    I.sendToRemote env r pkt = (I.counted r host,
      [host.sealed P r pkt, env.send (host.datagram P pkt) host.remote]) := by
  unfold sendToRemote
  rw [HostMap.deref_eq_some.mpr ⟨rfl, h⟩]
  rfl

theorem sendToRemote_of_none {r : Ref} (h : I.hostmap.hosts[r]? = none) (env : Env P)
    (pkt : Bytes) : I.sendToRemote env r pkt = (I, []) := by
  simp [sendToRemote, HostMap.deref, h]

theorem sendToRemote_moves (I : Interface P) (env : Env P) (r : Ref) (pkt : Bytes) :
    Moves arrived I (I.sendToRemote env r pkt).2 (I.sendToRemote env r pkt).1 := by
  cases hr : I.hostmap.hosts[r]? with
  | none =>
      rw [sendToRemote_of_none hr]
      exact moves_idle rfl rfl (by simp)
  | some host =>
      rw [sendToRemote_eq hr]
      have hseal : Moves arrived I [host.sealed P r pkt] (I.counted r host) :=
        moves_of_session (.send pkt hr) rfl (by simp [HostInfo.sealed, Effect.ofFirewall])
      exact hseal.append (moves_idle rfl rfl (by simp))

theorem sendAll_moves (env : Env P) (r : Ref) (pkts : List Bytes) :
    ∀ I : Interface P, Moves arrived I (I.sendAll env r pkts).2 (I.sendAll env r pkts).1 := by
  induction pkts with
  | nil => intro I; exact moves_idle rfl rfl (by simp [sendAll])
  | cons pkt pkts ih => intro I; exact (sendToRemote_moves I env r pkt).append (ih _)

/-! #### Handshakes -/

/-- The node once `onHandshakeComplete` has entered the session. -/
def installed (I : Interface P) (h : HostInfo) : Interface P :=
  { I with
    hostmap := I.hostmap.add h
    peerCerts := match h.cert with
      | some c => Function.update I.peerCerts h.vpnIP (some c)
      | none => I.peerCerts }

theorem onHandshakeComplete_moves (I : Interface P) (env : Env P) (h : HostInfo)
    (pending : List Bytes) :
    Moves arrived I (I.onHandshakeComplete env h pending).2
      (I.onHandshakeComplete env h pending).1 := by
  have hadd : Moves arrived I [] (I.installed h) := moves_of_session (.add _ h) rfl (by simp)
  exact hadd.append (sendAll_moves env _ pending _)

theorem handleHandshake_moves (I : Interface P) (env : Env P) (pkt : Bytes) (hdr : Header)
    (src : UDPAddr) :
    Moves arrived I (I.handleHandshake env pkt hdr src).2
      (I.handleHandshake env pkt hdr src).1 := by
  unfold handleHandshake
  split_ifs
  · have hwrites := I.handshakeMgr.handleStage0_writes env pkt src
    cases hres : I.handshakeMgr.handleStage0 env pkt src with
    | mk sent res =>
        rw [hres] at hwrites
        cases res with
        | error e => exact moves_idle rfl rfl hwrites
        | ok host =>
            exact (moves_idle rfl rfl hwrites).append (onHandshakeComplete_moves I env host [])
  · cases hres : I.handshakeMgr.handleStage1 env.now pkt with
    | mk m res =>
        cases res with
        | error e => exact moves_idle rfl rfl (by simp)
        | ok done =>
            obtain ⟨host, pending⟩ := done
            have hmgr : Moves arrived I [] { I with handshakeMgr := m } :=
              moves_idle rfl rfl (by simp)
            exact hmgr.append (onHandshakeComplete_moves _ env host pending)
  · exact moves_idle rfl rfl (by simp)

/-! #### The two packet paths

All branches of the two paths come to a sequence of such steps, most of them to none. -/

theorem forwardInside_moves (I : Interface P) (env : Env P) (dstIP : Addr) (pkt : Bytes) :
    Moves arrived I (I.forwardInside env dstIP pkt).2 (I.forwardInside env dstIP pkt).1 := by
  unfold forwardInside
  cases I.hostmap.getByVpnIP dstIP with
  | some p => exact sendToRemote_moves I env p.1 pkt
  | none =>
      cases I.peerCerts dstIP with
      | none => exact moves_idle rfl rfl (by simp)
      | some remoteCert =>
          cases I.lighthouse.getAddrs dstIP with
          | nil =>
              exact moves_idle rfl rfl fun e he =>
                (I.lighthouse.quiet_flatMap_send env _ _ e he).isWrite
          | cons addr _ =>
              have hwrites := I.handshakeMgr.startHandshake_writes env dstIP addr remoteCert
              cases hres : I.handshakeMgr.startHandshake env dstIP addr remoteCert with
              | mk m out =>
                  obtain ⟨effs, res⟩ := out
                  rw [hres] at hwrites
                  cases res with
                  | error e =>
                      simp only [hres]
                      exact moves_idle rfl rfl hwrites
                  | ok u =>
                      simp only [hres]
                      exact moves_idle rfl rfl hwrites

theorem consumeInsidePacket_moves (I : Interface P) (env : Env P) (pkt : Bytes) :
    Moves arrived I (I.consumeInsidePacket env pkt).2 (I.consumeInsidePacket env pkt).1 := by
  unfold consumeInsidePacket
  cases hdst : dstIPFromIPv4 pkt with
  | none => exact moves_idle rfl rfl (by simp)
  | some dstIP =>
      have hverdict : Moves arrived I _ { I with fw := _ } :=
        moves_of_firewall
          (.outbound I.fw env.now (hostGroups (I.hostmap.getByVpnIP dstIP)) hdst) rfl
          (by simp [Effect.ofSession])
      simp only
      split
      · exact hverdict.append (forwardInside_moves _ env dstIP pkt)
      · exact hverdict

theorem deliver_moves (I : Interface P) (env : Env P) (host : HostInfo) (plaintext : Bytes) :
    Moves arrived I (I.deliver env host plaintext).2 (I.deliver env host plaintext).1 := by
  unfold deliver
  cases hsrc : srcIPFromIPv4 plaintext with
  | none => exact moves_idle rfl rfl (by simp)
  | some srcIP =>
      have hverdict : Moves arrived I _ { I with fw := _ } :=
        moves_of_firewall (.inbound I.fw env.now ((host.cert.map (·.groups)).getD []) hsrc) rfl
          (by simp [Effect.ofSession])
      simp only
      split
      · exact hverdict.append (moves_idle rfl rfl (by simp [Effect.IsWrite]))
      · exact hverdict

theorem handleMessage_moves (I : Interface P) (env : Env P) {pkt : Bytes} {hdr : Header}
    (harrived : pkt ∈ arrived) (hparse : Header.parse pkt = .ok hdr) (src : UDPAddr) :
    Moves arrived I (I.handleMessage env pkt hdr src).2 (I.handleMessage env pkt hdr src).1 := by
  unfold handleMessage
  cases hget : I.hostmap.getByIndex hdr.remoteIndex with
  | none =>
      refine moves_idle rfl rfl ?_
      simp only
      split
      · exact fun e he => (Punchy.quiet_respondToPunch _ env src e he).isWrite
      · simp
  | some p =>
      obtain ⟨r, host⟩ := p
      have hjudge : Moves arrived I (host.judged P r hdr pkt)
          { I with hostmap := I.hostmap.assign r (host.receive P hdr pkt).1 } :=
        moves_of_session (.judge harrived hparse hget) rfl (host.judged_not_ofFirewall r hdr pkt)
      unfold HostInfo.judged at hjudge
      simp only
      cases hres : (host.receive P hdr pkt).2 with
      | error e => simpa only [hres] using hjudge
      | ok plaintext =>
          simp only [hres] at hjudge ⊢
          exact hjudge.append (deliver_moves _ env _ plaintext)

theorem handleLightHouse_moves (I : Interface P) (env : Env P) (pkt : Bytes) (hdr : Header)
    (src : UDPAddr) :
    Moves arrived I (I.handleLightHouse env pkt hdr src).2
      (I.handleLightHouse env pkt hdr src).1 := by
  unfold handleLightHouse
  simp only
  split
  · exact moves_idle rfl rfl (by simp)
  · split
    · exact moves_idle rfl rfl (by simp)
    · exact moves_idle rfl rfl fun e he =>
        (I.lighthouse.quiet_handleMessage env _ _ e he).isWrite

theorem handleCloseTunnel_moves (I : Interface P) (hdr : Header) :
    Moves arrived I [] (I.handleCloseTunnel hdr) := by
  unfold handleCloseTunnel
  split
  · exact moves_of_session (.remove _ _) rfl (by simp)
  · exact moves_idle rfl rfl (by simp)

theorem consumeOutsidePacket_moves (I : Interface P) (env : Env P) {pkt : Bytes}
    (harrived : pkt ∈ arrived) (src : UDPAddr) :
    Moves arrived I (I.consumeOutsidePacket env pkt src).2
      (I.consumeOutsidePacket env pkt src).1 := by
  unfold consumeOutsidePacket
  split
  · exact moves_idle rfl rfl (by simp)
  · cases hparse : Header.parse pkt with
    | error e => exact moves_idle rfl rfl (by simp)
    | ok hdr =>
        simp only
        split_ifs
        · exact handleMessage_moves I env harrived hparse src
        · exact handleHandshake_moves I env pkt hdr src
        · exact handleLightHouse_moves I env pkt hdr src
        · exact moves_idle rfl rfl (by simp [handleTest])
        · exact handleCloseTunnel_moves I hdr
        · exact moves_idle rfl rfl (by simp)

/-! #### The node as it starts -/

section New

variable (localCert : Certificate) (localKey : DHKey) (caPool : List Certificate) (fw : Firewall)
  (lighthouse : LightHouse) (punchy : Option Punchy) (peers : List Certificate)

/-- Entering the peers' certificates touches nothing else. -/
theorem foldl_addPeerCert (peers : List Certificate) : ∀ I : Interface P,
    peers.foldl (fun I c => I.addPeerCert c.vpnIP.addr c) I
      = { I with
          peerCerts := peers.foldl
            (fun certs c => Function.update certs c.vpnIP.addr (some c)) I.peerCerts } := by
  induction peers with
  | nil => intro I; rfl
  | cons c peers ih => intro I; exact ih _

@[simp] theorem new_hostmap :
    (new (P := P) localCert localKey caPool fw lighthouse punchy peers).hostmap = .new := by
  unfold new
  rw [foldl_addPeerCert]

@[simp] theorem new_handshakeMgr :
    (new (P := P) localCert localKey caPool fw lighthouse punchy peers).handshakeMgr
      = .new localCert localKey caPool := by
  unfold new
  rw [foldl_addPeerCert]

end New

/-- **One reaction is a chain of session steps and of firewall steps.** -/
theorem step_moves (I : Interface P) (e : Env P × Event)
    (harrived : ∀ pkt src, e.2 = .outside pkt src → pkt ∈ arrived) :
    Moves arrived I (I.step e).2 (I.step e).1 := by
  obtain ⟨env, ev⟩ := e
  cases ev with
  | inside pkt => exact consumeInsidePacket_moves I env pkt
  | outside pkt src => exact consumeOutsidePacket_moves I env (harrived pkt src rfl) src
  | retry => exact moves_idle rfl rfl (I.handshakeMgr.retryPending_writes env)
  | expire => exact moves_of_firewall (.expire _ env.now) rfl (by simp [step, Effect.ofSession])
  | advertise =>
      exact moves_idle rfl rfl fun e he =>
        (I.lighthouse.quiet_flatMap_send env _ _ e he).isWrite

/-- The datagrams that arrive in a run. -/
def arrivals (es : List (Env P × Event)) : Set Bytes :=
  fun pkt => ∃ env src, (env, .outside pkt src) ∈ es

/-- **So is a whole run.** -/
theorem run_moves (I : Interface P) (es : List (Env P × Event)) :
    Moves (arrivals es) I (I.run es).2.flatten (I.run es).1 := by
  have hstep : ∀ I : Interface P, ∀ e ∈ es, Moves (arrivals es) I (I.step e).2 (I.step e).1 := by
    rintro I ⟨env, ev⟩ he
    refine step_moves I (env, ev) fun pkt src hev => ?_
    obtain rfl : ev = .outside pkt src := hev
    exact ⟨env, src, he⟩
  exact ⟨Trace.executes_run es (fun I e he => (hstep I e he).sessions) I,
    Trace.executes_run es (fun I e he => (hstep I e he).firewall) I⟩

end Interface

end Neth
