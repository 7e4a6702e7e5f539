/-
A whole exchange between two honest nodes.

`A` starts a handshake with `B`, packets for `B` queue up meanwhile, `B` gets the
initiation and answers, `A` gets the answer and flushes its queue, and what was flushed
reaches `B` in some order.  Every datagram below is the one the previous call wrote.

`Undisturbed` lists what is asked of the two nodes and of their surroundings, and the
conclusion is all of it at once: the sessions on both sides, their keys, and the packets
that come out.  The codecs and the ciphers have been dealt with in
`Proofs/RoundTrip.lean`; here the calls are put one after the other.
-/
import Neth.Proofs.RoundTrip

namespace Neth

variable {P : Platform}

/-- The nodes, the worlds of the three calls, the addresses the datagrams are sent to and seem to
come from, and the packets that `A` queues while it waits. -/
structure Exchange (P : Platform) where
  A : Interface P
  B : Interface P
  start : Env P
  respond : Env P
  finish : Env P
  addr : UDPAddr
  srcA : UDPAddr
  srcB : UDPAddr
  packets : List Bytes

namespace Exchange

variable (x : Exchange P)

/-- The VPN IP of the initiator. -/
def vA : Addr := x.A.handshakeMgr.localCert.vpnIP.addr

/-- The VPN IP of the responder. -/
def vB : Addr := x.B.handshakeMgr.localCert.vpnIP.addr

/-- `A` starts the handshake, with `B`'s own certificate. -/
def started : HandshakeManager P × List Effect × Except String Unit :=
  x.A.handshakeMgr.startHandshake x.start x.vB x.addr x.B.handshakeMgr.localCert

/-- The datagram of stage 0. -/
def initiation : Bytes := firstWritten x.started.2.1

/-- `A` with its packets queued. -/
def waiting : Interface P :=
  { x.A with handshakeMgr := x.started.1.queueAll x.vB x.packets }

/-- `B` gets the initiation. -/
def answered : Interface P × List Effect :=
  x.B.step (x.respond, .outside x.initiation x.srcA)

/-- The datagram of stage 1. -/
def response : Bytes := firstWritten x.answered.2

/-- `A` gets the response. -/
def finished : Interface P × List Effect :=
  x.waiting.step (x.finish, .outside x.response x.srcB)

/-- Both nodes are honest and certified, `A` is not yet talking to `B`, and nothing fails around
them: the random indexes are drawn and the datagrams go out. -/
structure Undisturbed : Prop where
  honestA : Honest x.A.handshakeMgr
  honestB : Honest x.B.handshakeMgr
  verifyA : x.A.handshakeMgr.localCert.verify P x.B.handshakeMgr.caPool x.respond.now = .ok ()
  verifyB : x.B.handshakeMgr.localCert.verify P x.A.handshakeMgr.caPool x.finish.now = .ok ()
  idle : x.A.handshakeMgr.pending x.vB = none
  indexA : ∃ idx, x.start.index = .ok idx
  indexB : ∃ idx, x.respond.index = .ok idx
  writesA : ∀ data addr, x.start.writeTo data addr = .ok ()
  writesB : ∀ data addr, x.respond.writeTo data addr = .ok ()

/-- The two sessions fit together. -/
structure Fit (hA hB : HostInfo) : Prop where
  vpnIPA : hA.vpnIP = x.vB
  vpnIPB : hB.vpnIP = x.vA
  indexA : hA.remoteIndex = hB.index
  indexB : hB.remoteIndex = hA.index
  sendA : hA.sendCipher = hB.recvCipher
  recvA : hA.recvCipher = hB.sendCipher

/-- What was flushed is the queue, it was written to `B`, and whatever part of it reaches `B`, in
whatever order, decrypts to the original packets. -/
structure Delivered : Prop where
  queue : (sealedIn x.A.hostmap.hosts.length x.finished.2).map (·.2.1)
    = HandshakeManager.kept x.packets
  written : ∀ y ∈ sealedIn x.A.hostmap.hosts.length x.finished.2,
    x.finish.send (y.1 ++ y.2.2) x.addr ∈ x.finished.2
  arrives : ∀ (order : List (Bytes × Bytes × Bytes)) (env : Env P) (src : UDPAddr), order.Nodup →
    (∀ y ∈ order, y ∈ sealedIn x.A.hostmap.hosts.length x.finished.2) →
    openedIn x.B.hostmap.hosts.length
      (x.answered.1.run (order.map (Interface.arrival env src))).2.flatten
        = order.map fun y => (y.1, y.2.1)

variable {x : Exchange P}

/-! ### The three calls

`StartHandshake`, `HandleStage0` and `HandleStage1`, each fed with what the one before has written.
-/

/-- `A`'s part of the first message. -/
theorem exists_started (hnoise : P.IKpsk0) (hcodecs : P.Codecs) (h : x.Undisturbed) :
    ∃ ph : PendingHandshake P, x.started
        = (x.A.handshakeMgr.insert ph, [.writeTo ph.stage0msg x.addr true], .ok ()) ∧
      HandshakeManager.Initiation P x.A.handshakeMgr.localCert x.B.handshakeMgr.localCert
        x.A.handshakeMgr.localKey x.B.handshakeMgr.localKey ph.state ph.localIndex ph.stage0msg ∧
      ph.remoteVpnIP = x.vB ∧ ph.remoteAddr = x.addr ∧ ph.pendingPackets = [] := by
  obtain ⟨idx, hidx⟩ := h.indexA
  obtain ⟨ph, hph⟩ := HandshakeManager.exists_newPending (m := x.A.handshakeMgr) hnoise hcodecs
    h.honestA.key h.honestB.key h.honestB.certKey hidx x.vB x.addr
  obtain ⟨hinit, hip, haddr, -, hqueue⟩ :=
    HandshakeManager.initiation_of_newPending h.honestB.certKey hph
  refine ⟨ph, ?_, hinit, hip, haddr, hqueue⟩
  unfold started HandshakeManager.startHandshake
  rw [h.idle]
  simp only [hph, Env.send, h.writesA]
  rfl

/-- `B`'s part. -/
theorem exists_answered (hnoise : P.IKpsk0) (hcodecs : P.Codecs) (h : x.Undisturbed)
    {st : P.HandshakeState} {idx : UInt32}
    (hinit : HandshakeManager.Initiation P x.A.handshakeMgr.localCert x.B.handshakeMgr.localCert
      x.A.handshakeMgr.localKey x.B.handshakeMgr.localKey st idx x.initiation) :
    ∃ host, x.B.handshakeMgr.handleStage0 x.respond x.initiation x.srcA
        = ([.writeTo x.response x.srcA true], .ok host) ∧
      x.answered.1 = x.B.installed host ∧
      HandshakeManager.Answered P x.A.handshakeMgr.localCert x.B.handshakeMgr.localCert st idx
        x.srcA host x.response := by
  obtain ⟨iB, hiB⟩ := h.indexB
  obtain ⟨host, answer, hres, -, hanswered⟩ :=
    HandshakeManager.exists_handleStage0_initiation hnoise hcodecs h.honestA.key h.honestA.parses
      h.honestB.key hinit hiB h.writesB h.verifyA x.srcA
  obtain ⟨w, now0, -, -, hwire⟩ := hinit
  have hstep : x.answered = (x.B.installed host, [.writeTo answer x.srcA true]) := by
    unfold answered
    rw [Interface.step_initiation hwire.parse, hres]
  have hresponse : x.response = answer := by
    unfold response
    rw [hstep]
    rfl
  rw [hresponse]
  exact ⟨host, hres, by rw [hstep], hanswered⟩

/-- `A`'s part of the second message. -/
theorem exists_finished (hcodecs : P.Codecs) (h : x.Undisturbed) {ph : PendingHandshake P}
    {hB : HostInfo} (hip : ph.remoteVpnIP = x.vB) (hqueue : ph.pendingPackets = [])
    (hstarted : x.started.1 = x.A.handshakeMgr.insert ph)
    (hresp : HandshakeManager.Response P x.B.handshakeMgr.localCert ph.state ph.localIndex hB
      x.response) :
    ∃ hA m, x.waiting.handshakeMgr.handleStage1 x.finish.now x.response
        = (m, .ok (hA, HandshakeManager.kept x.packets)) ∧
      hA.vpnIP = x.vB ∧ hA.remote = ph.remoteAddr ∧ hA.index = ph.localIndex ∧
      hA.remoteIndex = hB.index ∧ hA.counter = 0 ∧ hA.sendCipher = hB.recvCipher ∧
      hA.recvCipher = hB.sendCipher := by
  have hwaits : x.waiting.handshakeMgr.Waits x.vB ph.localIndex
      { ph with pendingPackets := HandshakeManager.kept x.packets } := by
    have hinsert := HandshakeManager.waits_insert x.A.handshakeMgr ph
    rw [hip, ← hstarted] at hinsert
    refine HandshakeManager.waits_queueAll x.vB ph.localIndex ph x.packets x.started.1 [] ?_
    rwa [show HandshakeManager.kept [] = [] from rfl, ← hqueue]
  obtain ⟨n, -, hindex, hph⟩ := hwaits
  obtain ⟨now0, hread, -⟩ := HandshakeManager.readStage1_response x.waiting.handshakeMgr
    { ph with pendingPackets := HandshakeManager.kept x.packets } hcodecs h.honestB.parses hresp
  have hpool : x.waiting.handshakeMgr.caPool = x.A.handshakeMgr.caPool := by
    show (x.started.1.queueAll x.vB x.packets).caPool = _
    rw [HandshakeManager.queueAll_caPool, hstarted]
    rfl
  obtain ⟨noise, read, cs1, cs2, now1, hwire, -⟩ := hresp
  have hnames : x.waiting.handshakeMgr.Names x.response ph.localIndex
      { ph with pendingPackets := HandshakeManager.kept x.packets } :=
    ⟨_, hwire.parse, rfl, by simp [HandshakeManager.getIndex, hindex, hph]⟩
  have hok := (hread x.finish.now).mpr (by rw [hpool]; exact h.verifyB)
  have hcall := HandshakeManager.handleStage1_of_names x.finish.now hnames
  rw [hok] at hcall
  exact ⟨_, _, hcall, hip, rfl, rfl, rfl, rfl, rfl, rfl⟩

/-- **An honest handshake completes with matching sessions, and the queue gets through.**  The
initiation goes out, `B` installs a session and answers, `A` installs a session that fits it and
flushes what it queued, and every flushed packet that reaches `B` decrypts to the original. -/
theorem honest_exchange_completes (hnoise : P.IKpsk0) (hcodecs : P.Codecs) (hopen : P.OpenSeal)
    (x : Exchange P) (h : x.Undisturbed) :
    x.started.2 = ([.writeTo x.initiation x.addr true], .ok ()) ∧
      (∃ hA hB m, x.B.handshakeMgr.handleStage0 x.respond x.initiation x.srcA
          = ([.writeTo x.response x.srcA true], .ok hB) ∧
        x.waiting.handshakeMgr.handleStage1 x.finish.now x.response
          = (m, .ok (hA, HandshakeManager.kept x.packets)) ∧
        x.Fit hA hB ∧ x.answered.1.hostmap = x.B.hostmap.add hB ∧
        ∃ c, x.finished.1.hostmap.getByVpnIP x.vB
          = some (x.A.hostmap.hosts.length, { hA with counter := c })) ∧
      x.Delivered := by
  obtain ⟨ph, hstarted, hinit, hip, haddr, hqueue⟩ := exists_started hnoise hcodecs h
  have hinitiation : x.initiation = ph.stage0msg := by
    unfold initiation
    rw [hstarted]
    rfl
  rw [← hinitiation] at hinit
  obtain ⟨hB, hres0, hinstalled, hanswered⟩ := exists_answered hnoise hcodecs h hinit
  obtain ⟨hA, m, hres1, hipA, hremote, hindexA, hremoteA, hcounter, hsend, hrecv⟩ :=
    exists_finished hcodecs h hip hqueue (congrArg Prod.fst hstarted) hanswered.response
  have hfinished : x.finished = (({ x.waiting with handshakeMgr := m }).installed hA).sendAll
      x.finish x.A.hostmap.hosts.length (HandshakeManager.kept x.packets) := by
    obtain ⟨noise, read, cs1, cs2, now1, hwire, -⟩ := hanswered.response
    unfold finished
    rw [Interface.step_response hwire.parse, hres1]
    rfl
  have hflush := Interface.sendAll_flushes x.finish x.A.hostmap.hosts.length
    (HandshakeManager.kept x.packets) _ hA
    (Interface.hosts_installed { x.waiting with handshakeMgr := m } hA)
  obtain ⟨hsealed, hwritten, ⟨c, hsession⟩, hbyIP⟩ := hflush
  rw [← hfinished] at hsealed hwritten hsession hbyIP
  refine ⟨?_, ⟨hA, hB, m, hres0, hres1, ?_, ?_, c, ?_⟩, ?_⟩
  · rw [hstarted, hinitiation]
  · exact ⟨hipA, hanswered.vpnIP, hremoteA, hanswered.remoteIndex.trans hindexA.symm, hsend, hrecv⟩
  · rw [hinstalled]
    rfl
  · refine HostMap.getByVpnIP_eq_some.mpr ⟨?_, hsession⟩
    rw [hbyIP, ← hipA]
    exact Function.update_self _ _ _
  · refine ⟨?_, ?_, ?_⟩
    · rw [hsealed, HostInfo.flushed_plaintexts]
    · intro y hy
      rw [hsealed] at hy
      rw [← haddr, ← hremote]
      exact hwritten y hy
    · intro order env src hnodup hmem
      rw [hsealed] at hmem
      have hget : x.answered.1.hostmap.getByIndex hA.remoteIndex
          = some (x.B.hostmap.hosts.length, hB) := by
        rw [hinstalled, hremoteA]
        refine HostMap.getByIndex_eq_some.mpr ⟨?_, Interface.hosts_installed x.B hB⟩
        exact Function.update_self _ _ _
      exact Interface.run_flushed hopen hget hsend hcounter hanswered.window
        (HandshakeManager.length_kept x.packets) hnodup hmem env src

open Symbolic

/-- Nodes 1 and 2, with two packets queued. -/
def exchange12 : Exchange platform where
  A := node 1
  B := node 2
  start := calmEnv 7 [9]
  respond := calmEnv 8 [5]
  finish := calmEnv 0 []
  addr := nodeAddr 2
  srcA := nodeAddr 1
  srcB := nodeAddr 2
  packets := [[1, 2, 3], [4]]

theorem honest_exchange_completes_12 : exchange12.Undisturbed ∧ exchange12.Delivered := by
  have h : exchange12.Undisturbed :=
    { honestA := honest_node 1
      honestB := honest_node 2
      verifyA := by decide +kernel
      verifyB := by decide +kernel
      idle := rfl
      indexA := ⟨7, rfl⟩
      indexB := ⟨8, rfl⟩
      writesA := fun _ _ => rfl
      writesB := fun _ _ => rfl }
  exact ⟨h, (honest_exchange_completes ikpsk0 codecs openSeal exchange12 h).2.2⟩

end Exchange

end Neth
