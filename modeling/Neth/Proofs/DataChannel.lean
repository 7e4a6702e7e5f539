/-
The data channel of a session.

`handleMessage` asks the replay window first and decrypts afterwards, and the window
marks a counter as seen when it is asked.  For packets that decrypt this gives what a
replay window is for: each is delivered at most once.  A packet that does not decrypt
leaves its counter marked all the same, and from then on the genuine packet with that
counter is refused.

The main result says when that happens: for any sequence of datagrams to a session,
forged packets do no harm exactly when the window refuses their counters anyway.
`Proofs/Delivery.lean` adds the other end, and `Proofs/EndToEnd.lean` all sessions of
two nodes.
-/
import Neth.Lib.Fallible
import Neth.Proofs.Header
import Neth.Proofs.Node
import Neth.Proofs.Symbolic

namespace Neth

variable {P : Platform}

/-! ### One datagram

Whether a datagram is opened depends on the window and then on the key.  The window is asked in any
case, and keeps what it was asked. -/

namespace HostInfo

variable {h : HostInfo} {hdr : Header} {pkt : Bytes}

/-- Whatever comes of the datagram, the window is asked and nothing else changes. -/
theorem receive_eq (h : HostInfo) (hdr : Header) (pkt : Bytes) :
    h.receive P hdr pkt
      = ({ h with toReplayWindow := (h.toReplayWindow.checkReplay hdr.messageCounter).1 },
        if (h.toReplayWindow.checkReplay hdr.messageCounter).2 then .error .replay
        else (decrypt P h.recvCipher hdr.messageCounter (pkt.take headerLen)
          (pkt.drop headerLen)).mapError .decryptFailed) := by
  unfold receive checkReplay
  simp only
  split
  · rfl
  · cases decrypt P h.recvCipher hdr.messageCounter (pkt.take headerLen) (pkt.drop headerLen) with
    | error e => rfl
    | ok plaintext => rfl

theorem receive_ok {plaintext : Bytes} :
    (h.receive P hdr pkt).2 = .ok plaintext ↔ ¬ h.Stale hdr.messageCounter ∧
      decrypt P h.recvCipher hdr.messageCounter (pkt.take headerLen) (pkt.drop headerLen)
        = .ok plaintext := by
  rw [receive_eq]
  by_cases hs : h.Stale hdr.messageCounter
  · simp [ReplayWindow.checkReplay_of_stale hs, hs]
  · simp [ReplayWindow.checkReplay_of_not_stale hs, hs, Fallible.mapError_ok]

theorem receive_isOk (h : HostInfo) (hdr : Header) (pkt : Bytes) :
    (h.receive P hdr pkt).2.isOk = (!(h.toReplayWindow.checkReplay hdr.messageCounter).2 &&
      (decrypt P h.recvCipher hdr.messageCounter (pkt.take headerLen) (pkt.drop headerLen)).isOk)
      := by
  rw [receive_eq]
  cases (h.toReplayWindow.checkReplay hdr.messageCounter).2 with
  | true => rfl
  | false =>
      cases decrypt P h.recvCipher hdr.messageCounter (pkt.take headerLen)
        (pkt.drop headerLen) with
      | error e => rfl
      | ok plaintext => rfl

end HostInfo

/-! ### Forged datagrams

The replay window with packets that do or do not decrypt: `guard` is what `receive` does to the
window, and its answer tells whether the packet passed. -/

namespace ReplayWindow

/-- Ask the window about a counter; the packet passes if it is also genuine. -/
def guard (w : ReplayWindow) (p : UInt64 × Bool) : ReplayWindow × Bool :=
  ((w.checkReplay p.1).1, !(w.checkReplay p.1).2 && p.2)

theorem guard_of_stale {w : ReplayWindow} {c : UInt64} (hs : w.Stale c) (genuine : Bool) :
    w.guard (c, genuine) = (w, false) := by
  simp [guard, checkReplay_of_stale hs]

/-- Leaving out the forged packets changes neither which genuine ones pass nor the window. -/
def Undisturbed (w : ReplayWindow) (ps : List (UInt64 × Bool)) : Prop :=
  ((ps.zip (Trace.run guard w ps).2).filter (·.1.2)).map (·.2)
      = (Trace.run guard w (ps.filter (·.2))).2 ∧
    (Trace.run guard w ps).1 = (Trace.run guard w (ps.filter (·.2))).1

/-- If every forged packet is stale on arrival, the others are undisturbed. -/
theorem undisturbed_of_stale (ps : List (UInt64 × Bool)) :
    ∀ w : ReplayWindow, Trace.Meets guard (fun w p => p.2 = false → w.Stale p.1) w ps →
      Undisturbed w ps := by
  induction ps with
  | nil => intro w _; exact ⟨rfl, rfl⟩
  | cons p ps ih =>
      intro w hmeets
      obtain ⟨c, genuine⟩ := p
      obtain ⟨hstale, hrest⟩ := hmeets
      cases genuine with
      | true =>
          obtain ⟨hout, hend⟩ := ih _ hrest
          exact ⟨by simp [hout], by simp [hend]⟩
      | false =>
          rw [guard_of_stale (hstale rfl)] at hrest
          obtain ⟨hout, hend⟩ := ih _ hrest
          exact ⟨by simp [guard_of_stale (hstale rfl), hout],
            by simp [guard_of_stale (hstale rfl), hend]⟩

/-- Conversely, a forged packet that was not stale has left a mark. -/
theorem stale_of_undisturbed {w : ReplayWindow} {ps : List (UInt64 × Bool)} {c : UInt64}
    (hbefore : Undisturbed w ps) (hafter : Undisturbed w (ps ++ [(c, false)])) :
    (Trace.run guard w ps).1.Stale c := by
  by_contra hs
  refine checkReplay_ne_of_not_stale hs ?_
  have hend := hafter.2
  rw [List.filter_append, Trace.run_append] at hend
  simpa [guard, ← hbefore.2] using hend

end ReplayWindow

variable (P) in
/-- A data packet for the session with local index `idx`, and the world it arrives in. -/
structure Datagram (idx : UInt32) where
  env : Env P
  src : UDPAddr
  pkt : Bytes
  hdr : Header
  parsed : Header.parse pkt = .ok hdr
  message : hdr.type = typeMessage
  addressed : hdr.remoteIndex = idx

namespace Datagram

variable {idx : UInt32}

/-- Its arrival. -/
def event (d : Datagram P idx) : Env P × Interface.Event := (d.env, .outside d.pkt d.src)

/-- It decrypts, under its own counter and header. -/
def opens (aead : AEAD) (d : Datagram P idx) : Bool :=
  (decrypt P aead d.hdr.messageCounter (d.pkt.take headerLen) (d.pkt.drop headerLen)).isOk

/-- What the replay window gets to see of it. -/
def seen (aead : AEAD) (d : Datagram P idx) : UInt64 × Bool := (d.hdr.messageCounter, d.opens aead)

end Datagram

namespace Interface

variable {I : Interface P} {idx : UInt32} {r : Ref} {h : HostInfo}

/-- A packet has passed the replay check and the decryption of session `r`. -/
def accepts (r : Ref) (effs : List Effect) : Bool :=
  effs.any fun
    | .decrypted r' _ _ => r' == r
    | _ => false

@[simp] theorem deliver_hostmap (I : Interface P) (env : Env P) (host : HostInfo)
    (plaintext : Bytes) : (I.deliver env host plaintext).1.hostmap = I.hostmap := by
  unfold deliver
  split
  · rfl
  · rfl

theorem step_event (I : Interface P) (d : Datagram P idx) :
    I.step d.event = I.handleMessage d.env d.pkt d.hdr d.src := by
  show I.consumeOutsidePacket d.env d.pkt d.src = _
  unfold consumeOutsidePacket
  rw [if_neg (Header.length_of_parse d.parsed), d.parsed]
  simp only
  rw [if_pos d.message]

/-- A data packet is judged by the session it is addressed to, which stays where it is. -/
theorem step_datagram (hget : I.hostmap.getByIndex idx = some (r, h)) (d : Datagram P idx) :
    accepts r (I.step d.event).2 = (h.toReplayWindow.guard (d.seen h.recvCipher)).2 ∧
      (I.step d.event).1.hostmap.getByIndex idx = some (r, { h with
        toReplayWindow := (h.toReplayWindow.guard (d.seen h.recvCipher)).1 }) := by
  have hafter := HostMap.getByIndex_assign hget (h.receive P d.hdr d.pkt).1
  rw [HostInfo.receive_eq] at hafter
  have hanswer : (h.toReplayWindow.guard (d.seen h.recvCipher)).2
      = (h.receive P d.hdr d.pkt).2.isOk := (h.receive_isOk d.hdr d.pkt).symm
  rw [step_event, hanswer]
  unfold handleMessage
  rw [d.addressed, hget]
  simp only [show (h.receive P d.hdr d.pkt).1 = _ from congrArg Prod.fst (h.receive_eq d.hdr d.pkt)]
  cases hres : (h.receive P d.hdr d.pkt).2 with
  | error e => exact ⟨rfl, hafter⟩
  | ok plaintext =>
      simp only [deliver_hostmap]
      exact ⟨by simp [accepts, Except.isOk, Except.toBool], hafter⟩

/-! #### Runs of data packets -/

/-- For each data packet in turn, whether the session accepts it. -/
def verdicts (I : Interface P) (r : Ref) (ds : List (Datagram P idx)) : List Bool :=
  (I.run (ds.map (·.event))).2.map (accepts r)

/-- The replay state of the session after the data packets. -/
def replayState (I : Interface P) (r : Ref) (ds : List (Datagram P idx)) : Option ReplayWindow :=
  ((I.run (ds.map (·.event))).1.hostmap.hosts[r]?).map (·.toReplayWindow)

/-- A run of data packets is a run of the window. -/
theorem run_datagrams (hget : I.hostmap.getByIndex idx = some (r, h))
    (ds : List (Datagram P idx)) :
    verdicts I r ds
        = (Trace.run ReplayWindow.guard h.toReplayWindow (ds.map (·.seen h.recvCipher))).2 ∧
      replayState I r ds = some
        (Trace.run ReplayWindow.guard h.toReplayWindow (ds.map (·.seen h.recvCipher))).1 := by
  have hsim := Trace.run_simulation
    (fun (I : Interface P) (d : Datagram P idx) =>
      ((I.step d.event).1, accepts r (I.step d.event).2))
    (fun w d => ReplayWindow.guard w (d.seen h.recvCipher))
    (fun I w => I.hostmap.getByIndex idx = some (r, { h with toReplayWindow := w }))
    (fun I w d hI => step_datagram hI d) ds I h.toReplayWindow hget
  rw [Trace.run_map_output (fun (I : Interface P) (d : Datagram P idx) => I.step d.event),
    ← Trace.run_map step Datagram.event,
    ← Trace.run_map ReplayWindow.guard (Datagram.seen h.recvCipher)] at hsim
  obtain ⟨hout, hend⟩ := hsim
  refine ⟨hout, ?_⟩
  obtain ⟨-, hr⟩ := HostMap.getByIndex_eq_some.mp hend
  show ((Trace.run step I (ds.map (·.event))).1.hostmap.hosts[r]?).map (·.toReplayWindow) = _
  rw [hr]
  rfl

/-- Leaving out the packets that do not decrypt changes neither which of the others are accepted
nor the replay state at the end. -/
structure Undisturbed (I : Interface P) (r : Ref) (aead : AEAD) (ds : List (Datagram P idx)) :
    Prop where
  accepted : ((ds.zip (verdicts I r ds)).filter (·.1.opens aead)).map (·.2)
    = verdicts I r (ds.filter (·.opens aead))
  replay : replayState I r ds = replayState I r (ds.filter (·.opens aead))

theorem undisturbed_iff_window (hget : I.hostmap.getByIndex idx = some (r, h))
    (ds : List (Datagram P idx)) :
    Undisturbed I r h.recvCipher ds
      ↔ h.toReplayWindow.Undisturbed (ds.map (·.seen h.recvCipher)) := by
  have hfilter : (ds.map (·.seen h.recvCipher)).filter (·.2)
      = (ds.filter (·.opens h.recvCipher)).map (·.seen h.recvCipher) := by
    rw [List.filter_map]
    rfl
  have hzip : ∀ bs : List Bool, (((ds.map (·.seen h.recvCipher)).zip bs).filter (·.1.2)).map (·.2)
      = ((ds.zip bs).filter (·.1.opens h.recvCipher)).map (·.2) := by
    intro bs
    rw [List.zip_map_left, List.filter_map, List.map_map]
    rfl
  obtain ⟨hout, hend⟩ := run_datagrams hget ds
  obtain ⟨hout', hend'⟩ := run_datagrams hget (ds.filter (·.opens h.recvCipher))
  unfold ReplayWindow.Undisturbed
  rw [hfilter, hzip, ← hout, ← hout']
  constructor
  · intro hu
    exact ⟨hu.accepted, Option.some.inj (hend.symm.trans (hu.replay.trans hend'))⟩
  · rintro ⟨haccepted, hreplay⟩
    exact ⟨haccepted, by rw [hend, hend', hreplay]⟩

/-- **Forged packets do no harm exactly when they are stale on arrival.**  Over every sequence of
data packets for a session and each of its initial segments: the genuine ones fare as if the forged
ones had not been there, if and only if each forged packet carries a counter that the window, as it
stands when the packet arrives, refuses anyway. -/
theorem undisturbed_iff_forged_stale (I : Interface P) (idx : UInt32) (r : Ref) (h : HostInfo)
    (hget : I.hostmap.getByIndex idx = some (r, h)) (ds : List (Datagram P idx)) :
    (∀ pre, pre <+: ds → Undisturbed I r h.recvCipher pre) ↔
      ∀ pre d post, ds = pre ++ d :: post → d.opens h.recvCipher = false →
        ∃ w, replayState I r pre = some w ∧ w.Stale d.hdr.messageCounter := by
  constructor
  · rintro hall pre d post rfl hforged
    have hbefore := (undisturbed_iff_window hget pre).mp (hall pre ⟨d :: post, rfl⟩)
    have hafter := (undisturbed_iff_window hget (pre ++ [d])).mp
      (hall (pre ++ [d]) ⟨post, by simp⟩)
    have hseen : d.seen h.recvCipher = (d.hdr.messageCounter, false) := by
      rw [Datagram.seen, hforged]
    rw [List.map_append, List.map_singleton, hseen] at hafter
    exact ⟨_, (run_datagrams hget pre).2, ReplayWindow.stale_of_undisturbed hbefore hafter⟩
  · rintro hstale pre ⟨post, rfl⟩
    refine (undisturbed_iff_window hget pre).mpr (ReplayWindow.undisturbed_of_stale _ _ ?_)
    rw [Trace.meets_iff]
    intro ps p ps' hps hforged
    -- the packet behind `p`, and the state in which it arrives
    obtain ⟨pre1, rest, rfl, rfl, hrest⟩ := List.map_eq_append_iff.mp hps
    obtain ⟨d, pre2, rfl, rfl, rfl⟩ := List.map_eq_cons_iff.mp hrest
    obtain ⟨w, hw, hws⟩ := hstale pre1 d (pre2 ++ post) (by simp) hforged
    rw [(run_datagrams hget pre1).2] at hw
    obtain rfl := Option.some.inj hw
    exact hws

section Concrete

open Symbolic

/-- A session of node 2 with node 1, under local index 7. -/
def session2 : HostInfo :=
  { toReplayWindow := .fresh, vpnIP := nodeIP 1, remote := nodeAddr 1, index := 7, remoteIndex := 8
    sendCipher := ⟨pad32 [1]⟩, recvCipher := ⟨pad32 [2]⟩, counter := 0
    cert := some (nodeCert 1 [[1]]) }

/-- A rule that every packet matches. -/
def anyRule : Rule :=
  { port := 0, portAny := true, proto := protoAny, group := [], groupAny := true
    cidr := .zero, cidAny := true }

/-- Node `n` of platform `P`, with one session and an open firewall. -/
def nodeWith (P : Platform) (n : UInt8) (h : HostInfo) : Interface P :=
  { Interface.new (nodeCert n [[n]]) (nodeKey n) [caCert] (.new [anyRule] [anyRule])
      (.new false [] []) none [] with
    hostmap := HostMap.new.add h }

/-- A data packet for index 7. -/
def dataPacket (counter : UInt64) (body : Bytes) : Datagram platform 7 where
  env := calmEnv 0 []
  src := nodeAddr 1
  pkt := Header.bytes ⟨headerVersion, typeMessage, 0, 7, counter⟩ ++ body
  hdr := ⟨headerVersion, typeMessage, 0, 7, counter⟩
  parsed := Header.parse_bytes_append _ rfl (show typeMessage < 16 by decide) body
  message := rfl
  addressed := rfl

/-- What node 1 seals under a counter. -/
def genuinePacket (counter : UInt64) (plaintext : Bytes) : Datagram platform 7 :=
  dataPacket counter (encrypt platform session2.recvCipher counter
    (Header.bytes ⟨headerVersion, typeMessage, 0, 7, counter⟩) plaintext)

/-- Sixteen bytes of header that anyone can write. -/
def forgedPacket (counter : UInt64) : Datagram platform 7 := dataPacket counter []

/-- A forged copy that comes after the genuine packet does no harm. -/
theorem undisturbed_by_late_forgery :
    (nodeWith platform 2 session2).hostmap.getByIndex 7 = some (0, session2) ∧
      ∀ pre, pre <+: [genuinePacket 1 [1], forgedPacket 1] →
        Undisturbed (nodeWith platform 2 session2) 0 session2.recvCipher pre := by
  have hget : (nodeWith platform 2 session2).hostmap.getByIndex 7 = some (0, session2) := rfl
  refine ⟨hget, (undisturbed_iff_forged_stale _ 7 0 session2 hget _).mpr ?_⟩
  have hgenuine : (genuinePacket 1 [1]).opens session2.recvCipher = true := by decide +kernel
  have hstale : (replayState (nodeWith platform 2 session2) 0 [genuinePacket 1 [1]]).any
      (fun w => decide (w.Stale 1)) = true := by decide +kernel
  intro pre d post hds hforged
  rcases pre with _ | ⟨g, _ | ⟨g', pre⟩⟩
  · obtain ⟨rfl, -⟩ := List.cons.inj hds
    rw [hgenuine] at hforged
    cases hforged
  · obtain ⟨hg, hds⟩ := List.cons.inj hds
    obtain ⟨hd, -⟩ := List.cons.inj hds
    rw [← hg, ← hd]
    obtain ⟨w, hw, hws⟩ := (Option.any_eq_true _ _).mp hstale
    exact ⟨w, hw, of_decide_eq_true hws⟩
  · simp at hds

/-- **One forged header kills the genuine packet with its counter.** -/
theorem forgery_kills_genuine :
    (nodeWith platform 2 session2).hostmap.getByIndex 7 = some (0, session2) ∧
      (forgedPacket 5).opens session2.recvCipher = false ∧
      (genuinePacket 5 [1]).opens session2.recvCipher = true ∧
      verdicts (nodeWith platform 2 session2) 0 [forgedPacket 5, genuinePacket 5 [1]]
        = [false, false] ∧
      verdicts (nodeWith platform 2 session2) 0 [genuinePacket 5 [1]] = [true] ∧
      ¬ Undisturbed (nodeWith platform 2 session2) 0 session2.recvCipher
        [forgedPacket 5, genuinePacket 5 [1]] := by
  have hforged : (forgedPacket 5).opens session2.recvCipher = false := by decide +kernel
  have hgenuine : (genuinePacket 5 [1]).opens session2.recvCipher = true := by decide +kernel
  have hboth : verdicts (nodeWith platform 2 session2) 0 [forgedPacket 5, genuinePacket 5 [1]]
      = [false, false] := by decide +kernel
  have halone : verdicts (nodeWith platform 2 session2) 0 [genuinePacket 5 [1]] = [true] := by
    decide +kernel
  refine ⟨rfl, hforged, hgenuine, hboth, halone, fun hu => ?_⟩
  have haccepted := hu.accepted
  rw [hboth] at haccepted
  simp [hforged, hgenuine, halone] at haccepted

end Concrete

end Interface

end Neth
