/-
Packets are delivered unaltered and at most once.

A packet that decrypts was sealed by the one sender that holds the key, so it carries
a header and a plaintext of that sender.  The counter in the header is the nonce it
was sealed under and the number the replay window knows it by, and the window lets a
number through once.  Together: the packets that pass decryption in a session can be
matched with calls of `sendToRemote` in the other, no two with the same call.
-/
import Mathlib.Data.List.Nodup
import Neth.Assumptions
import Neth.Proofs.DataChannel

namespace Neth

variable {P : Platform}

/-! ### What a trace says about one session

Effects are recorded for all sessions of a node together.  These functions pick out what belongs to
one. -/

/-- The packets session `r` sealed: header, plaintext and ciphertext. -/
def sealedIn (r : Ref) (effs : List Effect) : List (Bytes × Bytes × Bytes) :=
  effs.filterMap fun
    | .encrypted r' hdr plaintext ct => if r' = r then some (hdr, plaintext, ct) else none
    | _ => none

/-- The packets that passed decryption in session `r`: header and plaintext. -/
def openedIn (r : Ref) (effs : List Effect) : List (Bytes × Bytes) :=
  effs.filterMap fun
    | .decrypted r' hdr plaintext => if r' = r then some (hdr, plaintext) else none
    | _ => none

/-- The counter in the bytes of a header. -/
def counterAt (hdr : Bytes) : UInt64 := UInt64.ofNat (Bytes.beGet (Bytes.slice hdr 8 8))

/-- The calls of `Seal` behind the packets a session sealed. -/
def sealCalls (r : Ref) (effs : List Effect) : List Platform.SealCall :=
  (sealedIn r effs).map fun (hdr, plaintext, ct) =>
    ⟨counterNonce (counterAt hdr), hdr, plaintext, ct⟩

theorem openedIn_append (r : Ref) (effs effs' : List Effect) :
    openedIn r (effs ++ effs') = openedIn r effs ++ openedIn r effs' :=
  List.filterMap_append

theorem openedIn_of_not_ofSession {r : Ref} {effs : List Effect}
    (h : ∀ e ∈ effs, ¬ e.ofSession) : openedIn r effs = [] := by
  unfold openedIn
  rw [List.filterMap_eq_nil_iff]
  intro e he
  cases e with
  | decrypted r' hdr plaintext => exact absurd trivial (h _ he)
  | _ => rfl

theorem counterAt_take {pkt : Bytes} {hdr : Header} (hparse : Header.parse pkt = .ok hdr) :
    counterAt (pkt.take headerLen) = hdr.messageCounter := by
  have hslice : Bytes.slice (pkt.take headerLen) 8 8 = Bytes.slice pkt 8 8 := by
    simp [Bytes.slice, headerLen, List.drop_take, List.take_take]
  unfold Header.parse at hparse
  rw [if_neg (Header.length_of_parse (by unfold Header.parse; exact hparse))] at hparse
  simp only at hparse
  split at hparse
  · cases hparse
  · cases hparse
    unfold counterAt
    rw [hslice]

/-! ### The receiving session

The window is asked before the key, so a session knows the counter of everything it has opened, and
what it has opened came in a datagram that was handed to the node. -/

/-- The datagrams as a receiver reads them: the header, which is the additional data, and the
ciphertext behind it. -/
def Platform.inParts (arrived : Set Bytes) : Set (Bytes × Bytes) :=
  fun x => ∃ pkt ∈ arrived, x = (pkt.take headerLen, pkt.drop headerLen)

/-- What has passed decryption so far: each packet was opened under the key from a datagram that
arrived, the window knows its counter, and no counter came twice. -/
structure Received (P : Platform) (arrived : Set Bytes) (r : Ref) (aead : AEAD) (m : HostMap)
    (past : List Effect) : Prop where
  session : ∃ h, m.hosts[r]? = some h ∧ h.recvCipher = aead ∧
    ∀ p ∈ openedIn r past, h.Stale (counterAt p.1)
  opened : ∀ p ∈ openedIn r past, ∃ ct, (p.1, ct) ∈ Platform.inParts arrived ∧
    decrypt P aead (counterAt p.1) p.1 ct = .ok p.2
  once : ((openedIn r past).map fun p => counterAt p.1).Nodup

variable {arrived : Set Bytes} {r : Ref} {aead : AEAD} {m m' : HostMap} {past effs : List Effect}

/-- A step of another kind, or of another session, opens nothing in this one. -/
theorem Received.of_openedIn_nil (hrec : Received P arrived r aead m past)
    (hnil : openedIn r effs = [])
    (hsession : ∀ h, m.hosts[r]? = some h → ∃ h', m'.hosts[r]? = some h' ∧
      h'.recvCipher = h.recvCipher ∧ ∀ c, h.Stale c → h'.Stale c) :
    Received P arrived r aead m' (past ++ effs) := by
  have happend : openedIn r (past ++ effs) = openedIn r past := by
    rw [openedIn_append, hnil, List.append_nil]
  obtain ⟨h, hh, hcipher, hstale⟩ := hrec.session
  obtain ⟨h', hh', hcipher', hmono⟩ := hsession h hh
  refine ⟨⟨h', hh', hcipher'.trans hcipher, ?_⟩, ?_, ?_⟩
  · rw [happend]
    exact fun p hp => hmono _ (hstale p hp)
  · rw [happend]
    exact hrec.opened
  · rw [happend]
    exact hrec.once

/-- Assigning to a session leaves the others alone. -/
theorem exists_host_assign {r' : Ref} {host : HostInfo} (hr' : m.hosts[r']? = some host)
    (host' : HostInfo) (hcipher : host'.recvCipher = host.recvCipher)
    (hstale : ∀ c, host.Stale c → host'.Stale c) (h : HostInfo) (hr : m.hosts[r]? = some h) :
    ∃ h', (m.assign r' host').hosts[r]? = some h' ∧ h'.recvCipher = h.recvCipher ∧
      ∀ c, h.Stale c → h'.Stale c := by
  rw [HostMap.hosts_assign hr']
  by_cases heq : r = r'
  · subst heq
    obtain rfl : host = h := Option.some.inj (hr'.symm.trans hr)
    exact ⟨host', if_pos rfl, hcipher, hstale⟩
  · exact ⟨h, by rw [if_neg heq, hr], rfl, fun _ hc => hc⟩

theorem stale_receive (host : HostInfo) (hdr : Header) (pkt : Bytes) {c : UInt64}
    (hc : c = hdr.messageCounter ∨ host.Stale c) : (host.receive P hdr pkt).1.Stale c := by
  rw [HostInfo.receive_eq]
  rcases hc with rfl | hc
  · exact host.toReplayWindow.stale_self _
  · exact ReplayWindow.stale_checkReplay_of_stale _ hc

/-- A packet passes decryption in this session. -/
theorem Received.open {host : HostInfo} {hdr : Header} {pkt plaintext : Bytes}
    (hrec : Received P arrived r aead m past) (harrived : pkt ∈ arrived)
    (hparse : Header.parse pkt = .ok hdr)
    (hr : m.hosts[r]? = some host) (hok : (host.receive P hdr pkt).2 = .ok plaintext)
    (hopened : openedIn r effs = [(pkt.take headerLen, plaintext)]) :
    Received P arrived r aead (m.assign r (host.receive P hdr pkt).1) (past ++ effs) := by
  obtain ⟨h, hh, rfl, hstale⟩ := hrec.session
  obtain rfl : host = h := Option.some.inj (hr.symm.trans hh)
  obtain ⟨hfresh, hdecrypt⟩ := HostInfo.receive_ok.mp hok
  have hcounter := counterAt_take hparse
  have happend : openedIn r (past ++ effs)
      = openedIn r past ++ [(pkt.take headerLen, plaintext)] := by
    rw [openedIn_append, hopened]
  refine ⟨⟨(host.receive P hdr pkt).1, ?_, ?_, ?_⟩, ?_, ?_⟩
  · rw [HostMap.hosts_assign hr, if_pos rfl]
  · rw [HostInfo.receive_eq]
  · intro p hp
    rw [happend, List.mem_append, List.mem_singleton] at hp
    rcases hp with hp | rfl
    · exact stale_receive host hdr pkt (.inr (hstale p hp))
    · exact stale_receive host hdr pkt (.inl hcounter)
  · intro p hp
    rw [happend, List.mem_append, List.mem_singleton] at hp
    rcases hp with hp | rfl
    · exact hrec.opened p hp
    · exact ⟨pkt.drop headerLen, ⟨pkt, harrived, rfl⟩, by rw [hcounter, hdecrypt]⟩
  · -- the window would have refused a counter that is already there
    rw [happend, List.map_append, List.map_singleton, List.nodup_append]
    refine ⟨hrec.once, List.nodup_singleton _, ?_⟩
    intro c hc c' hc' heq
    obtain ⟨p, hp, rfl⟩ := List.mem_map.mp hc
    rw [List.mem_singleton.mp hc'] at heq
    refine hfresh ?_
    rw [← hcounter, ← heq]
    exact hstale p hp

theorem Received.judge {r' : Ref} {host : HostInfo} {hdr : Header} {pkt : Bytes}
    (hrec : Received P arrived r aead m past) (harrived : pkt ∈ arrived)
    (hparse : Header.parse pkt = .ok hdr)
    (hr' : m.hosts[r']? = some host) :
    Received P arrived r aead (m.assign r' (host.receive P hdr pkt).1)
      (past ++ host.judged P r' hdr pkt) := by
  have hafter : ∀ h, m.hosts[r]? = some h → _ := exists_host_assign (r := r) hr'
    (host.receive P hdr pkt).1 (by rw [HostInfo.receive_eq])
    (fun c hc => stale_receive host hdr pkt (.inr hc))
  cases hres : (host.receive P hdr pkt).2 with
  | error e =>
      have hnil : host.judged P r' hdr pkt = [] := by simp [HostInfo.judged, hres]
      exact hrec.of_openedIn_nil (by rw [hnil]; rfl) hafter
  | ok plaintext =>
      have hjudged : host.judged P r' hdr pkt = [.decrypted r' (pkt.take headerLen) plaintext] := by
        simp [HostInfo.judged, hres]
      by_cases heq : r' = r
      · subst heq
        exact hrec.open harrived hparse hr' hres (by rw [hjudged]; simp [openedIn])
      · exact hrec.of_openedIn_nil (by rw [hjudged]; simp [openedIn, heq]) hafter

theorem Received.step (hrec : Received P arrived r aead m past)
    (hstep : SessionStep P arrived m effs m') :
    Received P arrived r aead m' (past ++ effs) := by
  cases hstep with
  | idle hquiet =>
      exact hrec.of_openedIn_nil (openedIn_of_not_ofSession hquiet)
        fun h hh => ⟨h, hh, rfl, fun _ hc => hc⟩
  | send plaintext hr' =>
      exact hrec.of_openedIn_nil (by simp [openedIn, HostInfo.sealed])
        (exists_host_assign hr' _ rfl fun _ hc => hc)
  | judge harrived hparse hget =>
      exact hrec.judge harrived hparse (HostMap.getByIndex_eq_some.mp hget).2
  | add host =>
      refine hrec.of_openedIn_nil rfl fun h hh => ⟨h, ?_, rfl, fun _ hc => hc⟩
      exact (List.getElem?_append_left (List.getElem?_eq_some_iff.mp hh).1).trans hh
  | remove ip =>
      exact hrec.of_openedIn_nil rfl fun h hh => ⟨h, hh, rfl, fun _ hc => hc⟩

/-- From any state of the session, over any run of its node. -/
theorem received_run {I : Interface P} {h : HostInfo} (hr : I.hostmap.hosts[r]? = some h)
    (es : List (Env P × Interface.Event)) :
    Received P (Interface.arrivals es) r h.recvCipher (I.run es).1.hostmap
      (I.run es).2.flatten := by
  have hstart : Received P (Interface.arrivals es) r h.recvCipher I.hostmap [] :=
    ⟨⟨h, hr, rfl, by simp [openedIn]⟩, by simp [openedIn], by simp [openedIn]⟩
  exact (Interface.run_moves I es).sessions.invariant
    (fun _ _ _ _ hrec hstep => hrec.step hstep) [] hstart

/-! ### Two matched sessions

Two sessions with the same keys crossed, and a cipher that opens nothing but what was sealed.  Then
the packets opened at one end are among those sealed at the other, each of them once. -/

/-- Session `rA` of one node sends under the key with which session `rB` of the other receives,
to the index it has there. -/
structure Matched (A : Interface P) (rA : Ref) (B : Interface P) (rB : Ref) (hA hB : HostInfo) :
    Prop where
  sender : A.hostmap.hosts[rA]? = some hA
  receiver : B.hostmap.hosts[rB]? = some hB
  cipher : hA.sendCipher = hB.recvCipher
  index : hA.remoteIndex = hB.index

/-- **Integrity and at-most-once delivery.**  Whatever the two nodes do and whatever datagrams are
handed to `B`, if `Open` under the shared key succeeds, of what is handed to `B`, only on what
session `rA` sealed, then the packets that passed decryption in session `rB` can be mapped,
injectively, to packets session `rA` sealed, with the same header bytes and the same plaintext. -/
theorem opened_injects_into_sealed (A B : Interface P) (rA rB : Ref) (hA hB : HostInfo)
    (hmatched : Matched A rA B rB hA hB) (esA esB : List (Env P × Interface.Event))
    (hideal : P.OpensOnly hA.sendCipher.key (fun c => c ∈ sealCalls rA (A.run esA).2.flatten)
      (Platform.inParts (Interface.arrivals esB))) :
    ∃ f : Fin (openedIn rB (B.run esB).2.flatten).length →
        Fin (sealedIn rA (A.run esA).2.flatten).length,
      Function.Injective f ∧ ∀ i,
        ((sealedIn rA (A.run esA).2.flatten).get (f i)).1
            = ((openedIn rB (B.run esB).2.flatten).get i).1 ∧
          ((sealedIn rA (A.run esA).2.flatten).get (f i)).2.1
            = ((openedIn rB (B.run esB).2.flatten).get i).2 := by
  have hrec := received_run hmatched.receiver esB
  generalize (B.run esB).2.flatten = effsB at hrec ⊢
  generalize (A.run esA).2.flatten = effsA at hideal ⊢
  have hsealed : ∀ i : Fin (openedIn rB effsB).length, ∃ j : Fin (sealedIn rA effsA).length,
      ((sealedIn rA effsA).get j).1 = ((openedIn rB effsB).get i).1 ∧
        ((sealedIn rA effsA).get j).2.1 = ((openedIn rB effsB).get i).2 := by
    intro i
    obtain ⟨ct, harrived, hopen⟩ := hrec.opened _ (List.get_mem (openedIn rB effsB) i)
    rw [← hmatched.cipher] at hopen
    have hcall : _ ∈ sealCalls rA effsA :=
      hideal _ ct harrived _ _ (Fallible.mapError_ok.mp hopen)
    obtain ⟨p, hp, heq⟩ := List.mem_map.mp hcall
    obtain ⟨j, rfl⟩ := List.get_of_mem hp
    obtain ⟨-, hhdr, hplain, -⟩ := Platform.SealCall.mk.inj heq
    exact ⟨j, hhdr, hplain⟩
  choose f hf using hsealed
  refine ⟨f, fun i j hij => ?_, hf⟩
  -- the same call means the same header, hence the same counter, which came only once
  have hhdr : ((openedIn rB effsB).get i).1 = ((openedIn rB effsB).get j).1 := by
    rw [← (hf i).1, ← (hf j).1, hij]
  have hsame := List.inj_on_of_nodup_map hrec.once (List.get_mem _ i) (List.get_mem _ j)
    (congrArg counterAt hhdr)
  exact List.nodup_iff_injective_get.mp (List.Nodup.of_map _ hrec.once) hsame

section Concrete

open Symbolic Interface

/-- On the symbolic platform a ciphertext that opens names what was sealed. -/
theorem unframes_of_gcmOpen {key : Vector UInt8 32} {nonce ciphertext ad plaintext : Bytes}
    (h : platform.gcmOpen key nonce ciphertext ad = .ok plaintext) :
    Framing.unframes ciphertext = some [key.toList, nonce, ad, plaintext] := by
  change gcmOpen key nonce ciphertext ad = _ at h
  unfold gcmOpen at h
  split at h
  · rename_i key' nonce' ad' plaintext' hframes
    split at h
    · rename_i heq
      obtain ⟨rfl, rfl, rfl⟩ := heq
      rw [hframes, Fallible.pure_ok.mp h]
    · cases h
  · cases h

/-- The session of node 1 that `session2` is matched with. -/
def session1 : HostInfo :=
  { session2 with
    vpnIP := nodeIP 2, remote := nodeAddr 2, index := 8, remoteIndex := 7
    sendCipher := session2.recvCipher, recvCipher := session2.sendCipher
    cert := some (nodeCert 2 [[2]]) }

/-- An IPv4 packet from node 1 to node 2. -/
def packet12 : Bytes := [0x45, 0, 0, 20, 0, 0, 0, 0, 64, 17, 0, 0, 10, 0, 0, 1, 10, 0, 0, 2]

/-- The one call of `Seal` in the run below. -/
def sealCall12 : Platform.SealCall :=
  let hdr := (session1.dataHeader 1).bytes
  ⟨counterNonce 1, hdr, packet12, encrypt platform session1.sendCipher 1 hdr packet12⟩

/-- Node 1 sends a packet. -/
def sending12 : List (Env platform × Event) := [(calmEnv 0 [], .inside packet12)]

/-- Node 2 gets two copies of the datagram, and a corrupted one. -/
def arriving12 : List (Env platform × Event) :=
  let datagram := sealCall12.additionalData ++ sealCall12.ciphertext
  [(calmEnv 0 [], .outside datagram (nodeAddr 1)), (calmEnv 0 [], .outside datagram (nodeAddr 1)),
    (calmEnv 0 [], .outside (datagram ++ [0]) (nodeAddr 1))]

/-- Of what arrives, only the packet that was sealed opens. -/
theorem opensOnly12 : platform.OpensOnly session1.sendCipher.key (fun c => c ∈ [sealCall12])
    (Platform.inParts (arrivals arriving12)) := by
  let datagram := sealCall12.additionalData ++ sealCall12.ciphertext
  have hparts : datagram.take headerLen = sealCall12.additionalData ∧
      datagram.drop headerLen = sealCall12.ciphertext ∧
      Framing.unframes sealCall12.ciphertext = some [session1.sendCipher.key.toList,
        sealCall12.nonce, sealCall12.additionalData, sealCall12.plaintext] := by
    decide +kernel
  have hcorrupt : ((Framing.unframes ((datagram ++ [0]).drop headerLen)).map List.length)
      = some 5 := by
    decide +kernel
  rintro ad ct ⟨pkt, ⟨env, src, hmem⟩, hpkt⟩ nonce plaintext hopen
  obtain ⟨rfl, rfl⟩ := Prod.mk.inj hpkt
  have hframes := unframes_of_gcmOpen hopen
  have hcases : pkt = datagram ∨ pkt = datagram ++ [0] := by
    simp only [arriving12, List.mem_cons, Prod.mk.injEq, Event.outside.injEq, List.not_mem_nil,
      or_false] at hmem
    rcases hmem with ⟨-, h, -⟩ | ⟨-, h, -⟩ | ⟨-, h, -⟩
    · exact .inl h
    · exact .inl h
    · exact .inr h
  rcases hcases with rfl | rfl
  · obtain ⟨htake, hdrop, hsealed⟩ := hparts
    rw [hdrop, hsealed] at hframes
    simp only [Option.some.injEq, List.cons.injEq, true_and, and_true] at hframes
    obtain ⟨hnonce, -, hplain⟩ := hframes
    refine List.mem_singleton.mpr ?_
    rw [htake, hdrop, ← hnonce, ← hplain]
  · rw [hframes] at hcorrupt
    cases hcorrupt

/-- Node 1 sends a packet, and node 2 gets two copies and a corrupted one: one is delivered. -/
theorem opened_injects_into_sealed_twice :
    let effsA := ((nodeWith platform 1 session1).run sending12).2.flatten
    let effsB := ((nodeWith platform 2 session2).run arriving12).2.flatten
    openedIn 0 effsB = [(sealCall12.additionalData, packet12)] ∧
      ∃ f : Fin (openedIn 0 effsB).length → Fin (sealedIn 0 effsA).length,
        Function.Injective f ∧ ∀ i,
          ((sealedIn 0 effsA).get (f i)).1 = ((openedIn 0 effsB).get i).1 ∧
            ((sealedIn 0 effsA).get (f i)).2.1 = ((openedIn 0 effsB).get i).2 := by
  intro effsA effsB
  have hcalls : sealCalls 0 effsA = [sealCall12] := by decide +kernel
  refine ⟨by decide +kernel, ?_⟩
  refine opened_injects_into_sealed (nodeWith platform 1 session1) (nodeWith platform 2 session2)
    0 0 session1 session2 ⟨rfl, rfl, rfl, rfl⟩ sending12 arriving12 ?_
  show platform.OpensOnly _ (fun c => c ∈ sealCalls 0 effsA) _
  rw [hcalls]
  exact opensOnly12

end Concrete

end Neth
