/-
What the network can learn about the packets a node sends.

Two runs of one node get the same datagrams, clocks and random numbers, but different
packets from the TUN device.  The packets may differ in anything but their length and
what the node itself looks at: destination, protocol and destination port.  Then the two
runs hand the same datagrams to the socket, except for what is behind the header of a
data packet, and that has the same length.  So whatever else a packet contains shows, if
at all, in the bytes of a ciphertext; what a ciphertext gives away is up to the cipher.

Packets are kept in one place, the queues of pending handshakes.  `blanked` overwrites
them there, and every function of the node is followed through it.
-/
import Neth.Assumptions
import Neth.Proofs.Exchange

namespace Neth

variable {P : Platform}

/-- What a node looks at in a packet from the TUN device. -/
structure Outline where
  dstIP : Option Addr
  proto : Proto
  dstPort : UInt16
  size : Nat
  deriving DecidableEq

/-- The outline of a packet. -/
def outline (pkt : Bytes) : Outline :=
  ⟨dstIPFromIPv4 pkt, protoFromIPv4 pkt, dstPortFromIPv4 pkt, pkt.length⟩

/-- The same event, up to the contents of a packet from the TUN device. -/
inductive Interface.Event.Alike : Interface.Event → Interface.Event → Prop
  | inside {pkt pkt' : Bytes} (h : outline pkt = outline pkt') : Alike (.inside pkt) (.inside pkt')
  | same (e : Interface.Event) : Alike e e

/-- What is to be seen of a datagram: of a data packet the header, of any other all of it, and in
both cases how long it is and where it goes. -/
structure Seen where
  visible : Bytes
  size : Nat
  addr : UDPAddr
  deriving DecidableEq

/-- The part of a datagram that is compared. -/
def visible (data : Bytes) : Bytes :=
  match Header.parse data with
  | .ok hdr => if hdr.type = typeMessage then data.take headerLen else data
  | .error _ => data

/-- What is to be seen of an effect, if it is a datagram. -/
def Effect.seen? : Effect → Option Seen
  | .writeTo data addr _ => some ⟨visible data, data.length, addr⟩
  | _ => none

/-- What is to be seen on the network of one reaction. -/
def seen (effs : List Effect) : List Seen := effs.filterMap Effect.seen?

@[simp] theorem seen_append (effs effs' : List Effect) :
    seen (effs ++ effs') = seen effs ++ seen effs' := List.filterMap_append

@[simp] theorem seen_outbound (pkt : Bytes) (groups : List GoString) (tracked allowed : Bool)
    (effs : List Effect) : seen (.outbound pkt groups tracked allowed :: effs) = seen effs := rfl

/-! ### Queues without their contents

`blank` keeps of a packet what the node looks at.  Two managers are alike if they are the same once
their queues are blanked. -/

/-- A packet of the same length. -/
def blank (pkt : Bytes) : Bytes := List.replicate pkt.length 0

theorem blank_eq_iff {pkt pkt' : Bytes} : blank pkt = blank pkt' ↔ pkt.length = pkt'.length := by
  unfold blank
  constructor
  · intro h
    simpa using congrArg List.length h
  · intro h
    rw [h]

/-- The handshake with its queue overwritten. -/
def PendingHandshake.blanked (ph : PendingHandshake P) : PendingHandshake P :=
  { ph with pendingPackets := ph.pendingPackets.map blank }

namespace HandshakeManager

/-- The manager with all queues overwritten. -/
def blanked (m : HandshakeManager P) : HandshakeManager P :=
  { m with handshakes := m.handshakes.map PendingHandshake.blanked }

variable (m : HandshakeManager P)

theorem getElem?_blanked (r : Ref) :
    m.blanked.handshakes[r]? = m.handshakes[r]?.map PendingHandshake.blanked := List.getElem?_map ..

theorem getIndex_blanked (idx : UInt32) :
    m.blanked.getIndex idx = (m.getIndex idx).map PendingHandshake.blanked := by
  unfold getIndex
  cases hr : m.indexMap idx with
  | none => simp [blanked, hr]
  | some r => simp [blanked, hr]

/-- The step of `QueuePacket` on one entry, with and without the contents. -/
theorem queuePacket_blanked (v : Addr) (pkt : Bytes) :
    (m.queuePacket v pkt).blanked = m.blanked.queuePacket v (blank pkt) := by
  have hpending : m.blanked.pending = m.pending := rfl
  unfold queuePacket
  rw [hpending]
  cases m.pending v with
  | none => rfl
  | some r =>
      unfold blanked
      congr 1
      refine List.ext_getElem? fun r' => ?_
      simp only [List.getElem?_map, List.getElem?_modify]
      cases m.handshakes[r']? with
      | none => rfl
      | some ph =>
          by_cases heq : r = r'
          · by_cases hfull : ph.pendingPackets.length ≥ maxPendingPackets
            · simp [heq, hfull, PendingHandshake.blanked]
            · simp [heq, hfull, PendingHandshake.blanked]
          · simp [heq]

theorem insert_blanked (ph : PendingHandshake P) :
    (m.insert ph).blanked = m.blanked.insert ph.blanked := by
  simp [blanked, insert, PendingHandshake.blanked]

/-- A handshake starts with an empty queue. -/
theorem blanked_of_newPending {m : HandshakeManager P} {env : Env P} {v : Addr} {addr : UDPAddr}
    {cert : Certificate} {ph : PendingHandshake P}
    (h : m.newPending env v addr cert = .ok ph) : ph.blanked = ph := by
  have hqueue : ph.pendingPackets = [] := by
    simp only [newPending, Fallible.bind_ok, Fallible.pure_ok] at h
    obtain ⟨_, _, _, _, _, _, _, _, hph⟩ := h
    rw [← hph]
  unfold PendingHandshake.blanked
  rw [hqueue]
  obtain ⟨_, _, _, _, queue, _, _, _⟩ := ph
  obtain rfl : queue = [] := hqueue
  rfl

theorem startHandshake_blanked (env : Env P) (v : Addr) (addr : UDPAddr) (cert : Certificate) :
    m.blanked.startHandshake env v addr cert
      = ((m.startHandshake env v addr cert).1.blanked, (m.startHandshake env v addr cert).2) := by
  have hpending : m.blanked.pending = m.pending := rfl
  have hnew : m.blanked.newPending env v addr cert = m.newPending env v addr cert := rfl
  unfold startHandshake
  rw [hpending, hnew]
  cases m.pending v with
  | some r => rfl
  | none =>
      cases hph : m.newPending env v addr cert with
      | error e => rfl
      | ok ph =>
          simp only
          rw [insert_blanked, blanked_of_newPending hph]

theorem handleStage0_blanked (env : Env P) (pkt : Bytes) (src : UDPAddr) :
    m.blanked.handleStage0 env pkt src = m.handleStage0 env pkt src := rfl

/-- A completed handshake hands over its session and its queue. -/
def blankQueue (r : HostInfo × List Bytes) : HostInfo × List Bytes := (r.1, r.2.map blank)

theorem handleStage1_blanked (now : Time) (pkt : Bytes) :
    m.blanked.handleStage1 now pkt
      = ((m.handleStage1 now pkt).1.blanked, blankQueue <$> (m.handleStage1 now pkt).2) := by
  unfold handleStage1
  split
  · rfl
  · cases Header.parse pkt with
    | error e => rfl
    | ok hdr =>
        simp only [getIndex_blanked]
        cases m.getIndex hdr.remoteIndex with
        | none => rfl
        | some ph =>
            have hread : m.blanked.readStage1 now ph.blanked pkt = m.readStage1 now ph pkt := rfl
            simp only [Option.map_some, hread]
            cases m.readStage1 now ph pkt with
            | error e => rfl
            | ok s => rfl

theorem retryOne_blanked (env : Env P) (v : Addr) :
    retryOne env m.blanked v = ((retryOne env m v).1.blanked, (retryOne env m v).2) := by
  have hpending : m.blanked.pending = m.pending := rfl
  unfold retryOne
  rw [hpending]
  cases m.pending v with
  | none => rfl
  | some r =>
      simp only [getElem?_blanked]
      cases m.handshakes[r]? with
      | none => rfl
      | some ph =>
          have hwhen : ph.blanked.nextRetry = ph.nextRetry := rfl
          have hoften : ph.blanked.attempts = ph.attempts := rfl
          simp only [Option.map_some, hwhen, hoften]
          by_cases hearly : env.now < ph.nextRetry
          · simp [hearly]
          · by_cases hover : ph.attempts ≥ maxHandshakeAttempts
            · simp only [hearly, hover, if_true, if_false]
              rfl
            · simp only [hearly, hover, if_false]
              unfold blanked
              simp only [List.map_set]
              rfl

theorem retryPending_blanked (env : Env P) :
    m.blanked.retryPending env = ((m.retryPending env).1.blanked, (m.retryPending env).2) := by
  have hfold : ∀ (order : List Addr) (m : HandshakeManager P) (effs : List Effect),
      order.foldl (fun acc v => ((retryOne env acc.1 v).1, acc.2 ++ (retryOne env acc.1 v).2))
          (m.blanked, effs)
        = ((order.foldl (fun acc v => ((retryOne env acc.1 v).1, acc.2 ++ (retryOne env acc.1 v).2))
            (m, effs)).1.blanked,
          (order.foldl (fun acc v => ((retryOne env acc.1 v).1, acc.2 ++ (retryOne env acc.1 v).2))
            (m, effs)).2) := by
    intro order
    induction order with
    | nil => intro m effs; rfl
    | cons v order ih =>
        intro m effs
        simp only [List.foldl_cons]
        rw [retryOne_blanked]
        exact ih _ _
  exact hfold env.order m []

end HandshakeManager

namespace Interface

/-- The node with another handshake manager. -/
def withManager (I : Interface P) (m : HandshakeManager P) : Interface P :=
  { I with handshakeMgr := m }

/-- The same node, up to the contents of the packets in its queues. -/
def Alike (I J : Interface P) : Prop :=
  ∃ m, J = I.withManager m ∧ I.handshakeMgr.blanked = m.blanked

theorem Alike.refl (I : Interface P) : I.Alike I := ⟨I.handshakeMgr, rfl, rfl⟩

/-- The same reaction, as far as it is to be seen. -/
def AlikeResult (x y : Interface P × List Effect) : Prop := x.1.Alike y.1 ∧ seen x.2 = seen y.2

theorem alikeResult_of_manager {I : Interface P} {m m' : HandshakeManager P}
    (h : m.blanked = m'.blanked) (effs : List Effect) :
    AlikeResult (I.withManager m, effs) (I.withManager m', effs) := ⟨⟨m', rfl, h⟩, rfl⟩

/-! ### Sending -/

variable {I : Interface P} {m : HandshakeManager P}

/-- Of a data packet the header is to be seen. -/
theorem visible_datagram (h : HostInfo) (plaintext : Bytes) :
    visible (h.datagram P plaintext) = (h.dataHeader (h.counter + 1)).bytes := by
  unfold visible HostInfo.datagram
  rw [Header.parse_bytes_append _ rfl (show typeMessage < 16 by decide)]
  exact Header.take_bytes _ _

theorem length_datagram (hseal : P.SealLength) (h : HostInfo) {pkt pkt' : Bytes}
    (hpkt : blank pkt = blank pkt') :
    (h.datagram P pkt).length = (h.datagram P pkt').length := by
  unfold HostInfo.datagram
  rw [List.length_append, List.length_append]
  unfold encrypt
  rw [hseal _ _ _ _ _ (blank_eq_iff.mp hpkt)]

theorem sendToRemote_alike (hseal : P.SealLength) (h : I.handshakeMgr.blanked = m.blanked)
    (env : Env P) (r : Ref) {pkt pkt' : Bytes} (hpkt : blank pkt = blank pkt') :
    AlikeResult (I.sendToRemote env r pkt) ((I.withManager m).sendToRemote env r pkt') := by
  cases hr : I.hostmap.hosts[r]? with
  | none =>
      have hr' : (I.withManager m).hostmap.hosts[r]? = none := hr
      rw [sendToRemote_of_none hr, sendToRemote_of_none hr']
      exact ⟨⟨m, rfl, h⟩, rfl⟩
  | some host =>
      have hr' : (I.withManager m).hostmap.hosts[r]? = some host := hr
      rw [sendToRemote_eq hr, sendToRemote_eq hr']
      refine ⟨⟨m, rfl, h⟩, ?_⟩
      have hsame : Seen.mk (visible (host.datagram P pkt)) (host.datagram P pkt).length host.remote
          = ⟨visible (host.datagram P pkt'), (host.datagram P pkt').length, host.remote⟩ := by
        rw [visible_datagram, visible_datagram, length_datagram hseal host hpkt]
      exact congrArg (fun x => [x]) hsame

theorem sendAll_cons (I : Interface P) (env : Env P) (r : Ref) (pkt : Bytes) (pkts : List Bytes) :
    I.sendAll env r (pkt :: pkts)
      = (((I.sendToRemote env r pkt).1.sendAll env r pkts).1,
        (I.sendToRemote env r pkt).2 ++ ((I.sendToRemote env r pkt).1.sendAll env r pkts).2) := rfl

theorem sendAll_alike (hseal : P.SealLength) (env : Env P) (r : Ref) (pkts : List Bytes) :
    ∀ {I : Interface P} {m : HandshakeManager P} {pkts' : List Bytes},
      I.handshakeMgr.blanked = m.blanked → pkts.map blank = pkts'.map blank →
      AlikeResult (I.sendAll env r pkts) ((I.withManager m).sendAll env r pkts') := by
  induction pkts with
  | nil =>
      intro I m pkts' h hpkts
      obtain rfl : pkts' = [] := by simpa using hpkts.symm
      exact ⟨⟨m, rfl, h⟩, rfl⟩
  | cons pkt pkts ih =>
      intro I m pkts' h hpkts
      cases pkts' with
      | nil => cases hpkts
      | cons pkt' pkts' =>
          obtain ⟨hpkt, hpkts⟩ := List.cons.inj hpkts
          obtain ⟨⟨m', hnode, hmanager⟩, hseen⟩ := sendToRemote_alike hseal h env r hpkt
          obtain ⟨hnodes, hseens⟩ := ih hmanager hpkts
          rw [sendAll_cons, sendAll_cons, hnode]
          refine ⟨hnodes, ?_⟩
          simp only [seen_append, hseen, hseens]

theorem onHandshakeComplete_alike (hseal : P.SealLength) (h : I.handshakeMgr.blanked = m.blanked)
    (env : Env P) (host : HostInfo) {pkts pkts' : List Bytes}
    (hpkts : pkts.map blank = pkts'.map blank) :
    AlikeResult (I.onHandshakeComplete env host pkts)
      ((I.withManager m).onHandshakeComplete env host pkts') :=
  sendAll_alike hseal env I.hostmap.hosts.length pkts (I := I.installed host) h hpkts

/-! ### Packets from the TUN device -/

theorem forwardInside_alike (hseal : P.SealLength) (h : I.handshakeMgr.blanked = m.blanked)
    (env : Env P) (dstIP : Addr) {pkt pkt' : Bytes} (hpkt : blank pkt = blank pkt') :
    AlikeResult (I.forwardInside env dstIP pkt)
      ((I.withManager m).forwardInside env dstIP pkt') := by
  have hqueued : ∀ {n n' : HandshakeManager P} (effs : List Effect), n.blanked = n'.blanked →
      AlikeResult (I.withManager (n.queuePacket dstIP pkt), effs)
        (I.withManager (n'.queuePacket dstIP pkt'), effs) := by
    intro n n' effs hn
    refine alikeResult_of_manager ?_ effs
    rw [HandshakeManager.queuePacket_blanked, HandshakeManager.queuePacket_blanked, hn, hpkt]
  have hmap : (I.withManager m).hostmap = I.hostmap := rfl
  have hcerts : (I.withManager m).peerCerts = I.peerCerts := rfl
  have hlh : (I.withManager m).lighthouse = I.lighthouse := rfl
  have hmgr : (I.withManager m).handshakeMgr = m := rfl
  unfold forwardInside
  rw [hmap, hcerts, hlh, hmgr]
  cases I.hostmap.getByVpnIP dstIP with
  | some p => exact sendToRemote_alike hseal h env p.1 hpkt
  | none =>
      cases I.peerCerts dstIP with
      | none => exact hqueued [] h
      | some cert =>
          cases I.lighthouse.getAddrs dstIP with
          | nil => exact hqueued _ h
          | cons addr addrs =>
              have hblank := HandshakeManager.startHandshake_blanked m env dstIP addr cert
              rw [← h, HandshakeManager.startHandshake_blanked] at hblank
              obtain ⟨hm, hrest⟩ := Prod.mk.inj hblank
              rcases hx : I.handshakeMgr.startHandshake env dstIP addr cert with ⟨n, effs, res⟩
              rcases hy : m.startHandshake env dstIP addr cert with ⟨n', effs', res'⟩
              rw [hx, hy] at hm hrest
              obtain ⟨rfl, rfl⟩ := Prod.mk.inj hrest
              simp only [hx, hy]
              cases res with
              | error e => exact alikeResult_of_manager hm effs
              | ok _ => exact hqueued effs hm

theorem consumeInsidePacket_alike (hseal : P.SealLength) (h : I.handshakeMgr.blanked = m.blanked)
    (env : Env P) {pkt pkt' : Bytes} (hpkt : outline pkt = outline pkt') :
    AlikeResult (I.consumeInsidePacket env pkt)
      ((I.withManager m).consumeInsidePacket env pkt') := by
  obtain ⟨hdst, hproto, hport, hsize⟩ := Outline.mk.inj hpkt
  have hmap : (I.withManager m).hostmap = I.hostmap := rfl
  have hfw : (I.withManager m).fw = I.fw := rfl
  unfold consumeInsidePacket
  rw [← hdst, ← hproto, ← hport, hmap, hfw]
  cases dstIPFromIPv4 pkt with
  | none => exact ⟨⟨m, rfl, h⟩, rfl⟩
  | some dstIP =>
      simp only
      split
      · obtain ⟨hnode, hseen⟩ := forwardInside_alike hseal
          (I := { I with fw := (I.fw.allowOutbound env.now dstIP
            (hostGroups (I.hostmap.getByVpnIP dstIP)) (dstPortFromIPv4 pkt)
            (protoFromIPv4 pkt)).1 }) h env dstIP (blank_eq_iff.mpr hsize)
        refine ⟨hnode, ?_⟩
        rw [seen_outbound, seen_outbound]
        exact hseen
      · exact ⟨⟨m, rfl, h⟩, rfl⟩

/-! ### Datagrams from the network

The two nodes get the same one, so a handler that does not look at the pending handshakes does the
same at both. -/

/-- The same reaction of a node with another manager. -/
theorem alikeResult_of_frame {I' : Interface P} {effs : List Effect}
    (h : I.handshakeMgr.blanked = m.blanked) (hframe : I'.handshakeMgr = I.handshakeMgr) :
    AlikeResult (I', effs) (I'.withManager m, effs) := ⟨⟨m, rfl, hframe ▸ h⟩, rfl⟩

theorem handleMessage_alike (h : I.handshakeMgr.blanked = m.blanked) (env : Env P) (pkt : Bytes)
    (hdr : Header) (src : UDPAddr) :
    AlikeResult (I.handleMessage env pkt hdr src)
      ((I.withManager m).handleMessage env pkt hdr src) := by
  have hmap : (I.withManager m).hostmap = I.hostmap := rfl
  have hpunchy : (I.withManager m).punchy = I.punchy := rfl
  unfold handleMessage
  rw [hmap, hpunchy]
  cases I.hostmap.getByIndex hdr.remoteIndex with
  | none => exact alikeResult_of_frame h rfl
  | some p =>
      rcases hrec : p.2.receive P hdr pkt with ⟨host, result⟩
      simp only [hrec]
      cases result with
      | error e => exact alikeResult_of_frame h rfl
      | ok plaintext =>
          simp only [deliver]
          cases srcIPFromIPv4 plaintext with
          | none => exact alikeResult_of_frame h rfl
          | some srcIP => exact alikeResult_of_frame h rfl

theorem handleLightHouse_alike (h : I.handshakeMgr.blanked = m.blanked) (env : Env P)
    (pkt : Bytes) (hdr : Header) (src : UDPAddr) :
    AlikeResult (I.handleLightHouse env pkt hdr src)
      ((I.withManager m).handleLightHouse env pkt hdr src) := by
  have hmap : (I.withManager m).hostmap = I.hostmap := rfl
  have hlh : (I.withManager m).lighthouse = I.lighthouse := rfl
  unfold handleLightHouse
  rw [hmap, hlh]
  simp only
  split
  · exact alikeResult_of_frame h rfl
  · cases P.unmarshalLightHouse (pkt.drop headerLen) with
    | error e => exact alikeResult_of_frame h rfl
    | ok msg => exact alikeResult_of_frame h rfl

theorem handleCloseTunnel_alike (h : I.handshakeMgr.blanked = m.blanked) (hdr : Header) :
    AlikeResult (I.handleCloseTunnel hdr, []) ((I.withManager m).handleCloseTunnel hdr, []) := by
  have hmap : (I.withManager m).hostmap = I.hostmap := rfl
  unfold handleCloseTunnel
  rw [hmap]
  cases I.hostmap.getByIndex hdr.remoteIndex with
  | none => exact alikeResult_of_frame h rfl
  | some p => exact alikeResult_of_frame h rfl

theorem handleHandshake_alike (hseal : P.SealLength) (h : I.handshakeMgr.blanked = m.blanked)
    (env : Env P) (pkt : Bytes) (hdr : Header) (src : UDPAddr) :
    AlikeResult (I.handleHandshake env pkt hdr src)
      ((I.withManager m).handleHandshake env pkt hdr src) := by
  have hmgr : (I.withManager m).handshakeMgr = m := rfl
  have hstage0 : m.handleStage0 env pkt src = I.handshakeMgr.handleStage0 env pkt src := by
    rw [← HandshakeManager.handleStage0_blanked, ← h, HandshakeManager.handleStage0_blanked]
  have hstage1 := HandshakeManager.handleStage1_blanked m env.now pkt
  rw [← h, HandshakeManager.handleStage1_blanked] at hstage1
  obtain ⟨hm, hresult⟩ := Prod.mk.inj hstage1
  unfold handleHandshake
  rw [hmgr, hstage0]
  by_cases hinit : hdr.subType = handshakeInitiation
  · simp only [if_pos hinit]
    rcases I.handshakeMgr.handleStage0 env pkt src with ⟨sent, result⟩
    cases result with
    | error e => exact ⟨⟨m, rfl, h⟩, rfl⟩
    | ok host =>
        obtain ⟨hnode, hseen⟩ := onHandshakeComplete_alike hseal h env host
          (rfl : ([] : List Bytes).map blank = ([] : List Bytes).map blank)
        refine ⟨hnode, ?_⟩
        simp only [seen_append, hseen]
  · simp only [if_neg hinit]
    by_cases hresp : hdr.subType = handshakeResponse
    · simp only [if_pos hresp]
      generalize I.handshakeMgr.handleStage1 env.now pkt = x at hm hresult ⊢
      generalize m.handleStage1 env.now pkt = y at hm hresult ⊢
      obtain ⟨n, result⟩ := x
      obtain ⟨n', result'⟩ := y
      cases result with
      | error e =>
          cases result' with
          | error e' => exact alikeResult_of_manager hm []
          | ok r' => cases hresult
      | ok r =>
          cases result' with
          | error e' => cases hresult
          | ok r' =>
              obtain ⟨host, queue⟩ := r
              obtain ⟨host', queue'⟩ := r'
              obtain ⟨hhost, hqueue⟩ := Prod.mk.inj (Except.ok.inj hresult)
              obtain rfl : host = host' := hhost
              exact onHandshakeComplete_alike hseal (I := I.withManager n) hm env host hqueue
    · simp only [if_neg hresp]
      exact ⟨⟨m, rfl, h⟩, rfl⟩

theorem consumeOutsidePacket_alike (hseal : P.SealLength) (h : I.handshakeMgr.blanked = m.blanked)
    (env : Env P) (pkt : Bytes) (src : UDPAddr) :
    AlikeResult (I.consumeOutsidePacket env pkt src)
      ((I.withManager m).consumeOutsidePacket env pkt src) := by
  have hidle : AlikeResult (I, []) (I.withManager m, []) := alikeResult_of_frame h rfl
  unfold consumeOutsidePacket
  split
  · exact hidle
  · cases Header.parse pkt with
    | error e => exact hidle
    | ok hdr =>
        simp only
        split
        · exact handleMessage_alike h env pkt hdr src
        split
        · exact handleHandshake_alike hseal h env pkt hdr src
        split
        · exact handleLightHouse_alike h env pkt hdr src
        split
        · exact alikeResult_of_frame h rfl
        split
        · exact handleCloseTunnel_alike h hdr
        · exact hidle

/-! ### Whole runs

The two nodes stay alike step by step, so what they hand to the socket does. -/

/-- One step of the two nodes. -/
theorem step_alike (hseal : P.SealLength) {I J : Interface P} (h : I.Alike J) (env : Env P)
    {e e' : Event} (he : e.Alike e') : AlikeResult (I.step (env, e)) (J.step (env, e')) := by
  obtain ⟨m, rfl, hm⟩ := h
  cases he with
  | inside hpkt => exact consumeInsidePacket_alike hseal hm env hpkt
  | same e =>
      cases e with
      | inside pkt => exact consumeInsidePacket_alike hseal hm env rfl
      | outside pkt src => exact consumeOutsidePacket_alike hseal hm env pkt src
      | retry =>
          have hretry := HandshakeManager.retryPending_blanked m env
          rw [← hm, HandshakeManager.retryPending_blanked] at hretry
          obtain ⟨hmanager, heffs⟩ := Prod.mk.inj hretry
          exact ⟨⟨_, rfl, hmanager⟩, congrArg seen heffs⟩
      | expire => exact alikeResult_of_frame hm rfl
      | advertise => exact alikeResult_of_frame hm rfl

/-- **Nothing but the bodies of data packets depends on what is in a packet.**  Whatever the state
of the node, take two runs of it with the same surroundings and the same datagrams whose packets
from the TUN device agree in destination, protocol, destination port and length.  Step by step they
hand the same datagrams to the socket, up to the bodies of data packets, and these agree in length.
That a body does not betray its plaintext is up to the cipher, and not stated here. -/
theorem network_sees_outlines (hseal : P.SealLength) (I : Interface P)
    {es es' : List (Env P × Event)}
    (h : List.Forall₂ (fun x y => x.1 = y.1 ∧ x.2.Alike y.2) es es') :
    (I.run es).2.map seen = (I.run es').2.map seen := by
  refine Trace.run_alike (R := Alike) ?_ h I I (Alike.refl I)
  intro I J x y hIJ hxy
  obtain ⟨env, e⟩ := x
  obtain ⟨env', e'⟩ := y
  obtain ⟨rfl, he⟩ := hxy
  exact step_alike hseal hIJ env he

open Symbolic

/-- Node 1 gets a packet for node 2, and then the response that lets it out. -/
def secretRun (payload : Bytes) : List (Env platform × Event) :=
  [(calmEnv 7 [9], .inside (tcpPacket 1 2 40000 22 ++ payload)),
    (calmEnv 0 [], .outside Exchange.exchange12.response (nodeAddr 2))]

/-- Two packets that differ in one bit; the node sends one datagram in each step. -/
theorem network_sees_outlines_pair :
    (Symbolic.caller.run (secretRun [0])).2 ≠ (Symbolic.caller.run (secretRun [1])).2 ∧
      ((Symbolic.caller.run (secretRun [0])).2.map seen).map List.length = [1, 1] ∧
      (Symbolic.caller.run (secretRun [0])).2.map seen
        = (Symbolic.caller.run (secretRun [1])).2.map seen := by
  refine ⟨by decide +kernel, by decide +kernel, network_sees_outlines sealLength _ ?_⟩
  exact .cons ⟨rfl, .inside (by decide)⟩ (.cons ⟨rfl, .same _⟩ .nil)

end Interface

end Neth
