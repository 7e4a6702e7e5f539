/-
What a node writes to its TUN device, a node has read from its own.

A packet goes through the TUN device of one node, its firewall, perhaps a queue, a session,
the network, the session at the other end and the firewall there.  At the first node it is
sealed no more often than it was read.  What passes decryption at the other was sealed
somewhere under the key of the session, and the replay window lets it through once.  So over
the whole network each packet comes out at most as often as it went in, whatever the
goroutines of all the nodes do and whatever happens to the datagrams between them.
-/
import Neth.Proofs.Packets

namespace Neth

open Interleave

variable {P : Platform}

/-! ### Every session of a node

All sessions at once, which the theorems about one session cannot say: a packet must be found in
some session, and in one only. -/

theorem Received.of_openedIn_eq_nil {arrived : Set Bytes} {r : Ref} {m : HostMap} {h : HostInfo}
    {past : List Effect} (hr : m.hosts[r]? = some h) (hnil : openedIn r past = []) :
    Received P arrived r h.recvCipher m past := by
  refine ⟨⟨h, hr, rfl, ?_⟩, ?_, ?_⟩
  · simp [hnil]
  · simp [hnil]
  · simp [hnil]

/-- The datagram of the task is one of those that arrived. -/
def Task.Brought (arrived : Set Bytes) (t : Task P) : Prop :=
  ∀ pkt, t.datagram = some pkt → pkt ∈ arrived

/-- What has passed decryption so far, session by session, of the datagrams that arrived. -/
structure Inbox (arrived : Set Bytes) (s : Shared P) (log : List Note) : Prop where
  sessions : ∀ r h, s.node.hostmap.hosts[r]? = some h →
    Received P arrived r h.recvCipher s.node.hostmap (effects log)
  unused : ∀ r, s.node.hostmap.hosts[r]? = none → openedIn r (effects log) = []

namespace Inbox

variable {arrived : Set Bytes} {s s' : Shared P} {t : Task P} {log notes : List Note}

/-- The sessions there were take what the step has opened, and a new one starts empty. -/
theorem of_step (hs : Inbox arrived s log) (hstep : HostStep s.node.hostmap t s'.node.hostmap)
    (hrec : ∀ r h, s.node.hostmap.hosts[r]? = some h →
      Received P arrived r h.recvCipher s'.node.hostmap (effects log ++ effects notes))
    (hunused : ∀ r, s.node.hostmap.hosts[r]? = none → openedIn r (effects notes) = []) :
    Inbox arrived s' (log ++ notes) := by
  have hnone : ∀ r, s.node.hostmap.hosts[r]? = none →
      openedIn r (effects (log ++ notes)) = [] := by
    intro r hr
    rw [effects_append, openedIn_append, hs.unused r hr, hunused r hr]
    rfl
  refine ⟨fun r h hr' => ?_, fun r hr' => hnone r ?_⟩
  · cases hr : s.node.hostmap.hosts[r]? with
    | none => exact .of_openedIn_eq_nil hr' (hnone r hr)
    | some g =>
        obtain ⟨g', hg', hgoes⟩ := hstep.continues hr
        obtain rfl := Option.some.inj (hg'.symm.trans hr')
        rw [hgoes.recvCipher, effects_append]
        exact hrec r g hr
  · cases hr : s.node.hostmap.hosts[r]? with
    | none => rfl
    | some g =>
        obtain ⟨g', hg', -⟩ := hstep.continues hr
        rw [hr'] at hg'
        cases hg'

/-- A step that opens nothing. -/
theorem of_opened_eq_zero (hs : Inbox arrived s log)
    (hstep : HostStep s.node.hostmap t s'.node.hostmap)
    (hnotes : ∀ note ∈ notes, note.opened = 0) : Inbox arrived s' (log ++ notes) := by
  have hnil : ∀ r, openedIn r (effects notes) = [] := by
    intro r
    refine List.filterMap_eq_nil_iff.mpr fun e he => ?_
    obtain ⟨note, hnote, heffect⟩ := List.mem_filterMap.mp he
    cases note with
    | effect e' =>
        obtain rfl := Option.some.inj heffect
        cases e' with
        | decrypted r' hdr plaintext =>
            exact absurd (hnotes _ hnote) (Multiset.singleton_ne_zero plaintext)
        | _ => rfl
    | _ => cases heffect
  refine hs.of_step hstep (fun r h hr => ?_) fun r _ => hnil r
  refine (hs.sessions r h hr).of_openedIn_nil (hnil r) fun g hg => ?_
  obtain ⟨g', hg', hgoes⟩ := hstep.continues hg
  exact ⟨g', hg', hgoes.recvCipher, hgoes.stale⟩

theorem checkReplay (hs : Inbox arrived s log) (env : Env P) {pkt : Bytes} {hdr : Header} (r : Ref)
    (harrived : pkt ∈ arrived) (hparse : Header.parse pkt = .ok hdr) :
    Inbox arrived (Task.step s (.checkReplay env pkt hdr r)).1
      (log ++ (Task.step s (.checkReplay env pkt hdr r)).2.1) := by
  have hstep := Task.hostStep s (.checkReplay env pkt hdr r)
  cases hr : s.node.hostmap.hosts[r]? with
  | none =>
      rw [Task.step_checkReplay_none hr] at hstep ⊢
      exact hs.of_opened_eq_zero hstep (by simp)
  | some host =>
      have hjudge : ∀ s' : Shared P,
          s'.node.hostmap = s.node.hostmap.assign r (host.receive P hdr pkt).1 →
          ∀ notes, effects notes = host.judged P r hdr pkt →
          HostStep s.node.hostmap (.checkReplay env pkt hdr r) s'.node.hostmap →
          Inbox arrived s' (log ++ notes) := by
        intro s' hs' notes hnotes hstep'
        refine hs.of_step hstep' (fun r' h hr' => ?_) fun r' hr' => ?_
        · rw [hs', hnotes]
          exact (hs.sessions r' h hr').judge harrived hparse hr
        · have hne : r ≠ r' := by
            rintro rfl
            rw [hr] at hr'
            cases hr'
          rw [hnotes]
          unfold HostInfo.judged
          split
          · rfl
          · simp [openedIn, hne]
      rcases hreceive : host.receive P hdr pkt with ⟨host', err | plaintext⟩
      · rw [Task.step_checkReplay_error hr hreceive] at hstep ⊢
        exact hjudge _ (by rw [hreceive]; rfl) _ (by simp [HostInfo.judged, hreceive]; rfl) hstep
      · rw [Task.step_checkReplay hr hreceive] at hstep ⊢
        refine hjudge _ (by rw [hreceive]; rfl) _ ?_ hstep
        rw [effects_map_effect]
        simp [HostInfo.judged, hreceive]

theorem step (hs : Inbox arrived s log) (ht : t.Directed s) (hcarries : t.Brought arrived) :
    Inbox arrived (Task.step s t).1 (log ++ (Task.step s t).2.1) := by
  by_cases hopens : t.Opens
  · cases t with
    | checkReplay env pkt hdr r => exact hs.checkReplay env r (hcarries pkt rfl) ht
    | _ => exact hopens.elim
  · exact hs.of_opened_eq_zero (Task.hostStep s t) ((Task.judges s t).opens hopens)

end Inbox

/-! ### What was opened, and where it was sealed

If keys are not shared between sessions, the key tells which session a packet was sealed in, and
each sealing is used up by one opening at most. -/

/-- What the calls in the logs have sealed under the key. -/
def sealedUnder {ι : Type*} (key : Vector UInt8 32) (logs : ι → List Note) :
    Set Platform.SealCall :=
  fun c => ∃ i call, .encrypted call ∈ logs i ∧ call.aead.key = key ∧ call.nonce = c.nonce ∧
    call.header = c.additionalData ∧ call.plaintext = c.plaintext

/-- Among the sessions, no two open with one key. -/
def HostMap.RecvKeysApart (m : HostMap) (S : Ref → Prop) : Prop :=
  ∀ r r' h h', S r → S r' → m.hosts[r]? = some h → m.hosts[r']? = some h' →
    h.recvCipher.key = h'.recvCipher.key → r = r'

/-- A packet that passed decryption in one of the sessions. -/
def Note.openedOf (S : Ref → Prop) [DecidablePred S] : Note → Multiset Bytes
  | .effect (.decrypted r _ plaintext) => if S r then {plaintext} else 0
  | _ => 0

/-- The same with its session and header. -/
def Note.arrival? (S : Ref → Prop) [DecidablePred S] : Note → Option (Ref × Bytes × Bytes)
  | .effect (.decrypted r hdr plaintext) => if S r then some (r, hdr, plaintext) else none
  | _ => none

/-- A packet that was sealed, with its key and header. -/
def Note.sealing? : Note → Option (Option (Vector UInt8 32) × Bytes × Bytes)
  | .encrypted call => some (some call.aead.key, call.header, call.plaintext)
  | _ => none

/-- Everything a node has sealed, as often as it did. -/
def sealings (log : List Note) : Multiset (Option (Vector UInt8 32) × Bytes × Bytes) :=
  log.filterMap Note.sealing?

section Arrivals

variable (S : Ref → Prop) [DecidablePred S] (log : List Note)

theorem tally_openedOf : Program.tally (Note.openedOf S) log
    = ((log.filterMap (Note.arrival? S)).map fun a => a.2.2 : List Bytes) := by
  refine Program.tally_eq_map (fun note => ?_) log
  cases note with
  | effect e =>
      cases e with
      | decrypted r hdr plaintext =>
          by_cases hr : S r
          · simp [Note.openedOf, Note.arrival?, hr]
          · simp [Note.openedOf, Note.arrival?, hr]
      | _ => rfl
  | _ => rfl

theorem tally_opened : Program.tally Note.opened log
    = Program.tally (Note.openedOf S) log + Program.tally (Note.openedOf fun r => ¬ S r) log := by
  refine Program.tally_add (fun note => ?_) log
  cases note with
  | effect e =>
      cases e with
      | decrypted r hdr plaintext =>
          by_cases hr : S r
          · simp [Note.opened, Note.openedOf, hr]
          · simp [Note.opened, Note.openedOf, hr]
      | _ => rfl
  | _ => rfl

theorem tally_sealedPacket :
    Program.tally Note.sealedPacket log = (sealings log).map fun a => a.2.2 := by
  refine Program.tally_eq_map (fun note => ?_) log
  cases note <;> rfl

variable {S log}

theorem mem_arrivals {a : Ref × Bytes × Bytes} (ha : a ∈ log.filterMap (Note.arrival? S)) :
    S a.1 ∧ a.2 ∈ openedIn a.1 (effects log) := by
  obtain ⟨note, hnote, harrival⟩ := List.mem_filterMap.mp ha
  cases note with
  | effect e =>
      cases e with
      | decrypted r hdr plaintext =>
          obtain ⟨hr, rfl⟩ : S r ∧ (r, hdr, plaintext) = a := by
            simpa [Note.arrival?, Option.ite_none_right_eq_some] using harrival
          refine ⟨hr, List.mem_filterMap.mpr ⟨.decrypted r hdr plaintext, ?_, if_pos rfl⟩⟩
          exact List.mem_filterMap.mpr ⟨_, hnote, rfl⟩
      | _ => cases harrival
  | _ => cases harrival

/-- What arrived in one session, among all that arrived. -/
theorem filter_arrivals_sublist (r : Ref) :
    (((log.filterMap (Note.arrival? S)).filter fun a => a.1 = r).map Prod.snd).Sublist
      (openedIn r (effects log)) := by
  induction log with
  | nil => exact List.Sublist.slnil
  | cons note log ih =>
      cases note with
      | effect e =>
          cases e with
          | decrypted r' hdr plaintext =>
              have hopened : openedIn r (effects (.effect (.decrypted r' hdr plaintext) :: log))
                  = openedIn r [.decrypted r' hdr plaintext] ++ openedIn r (effects log) :=
                openedIn_append r [_] _
              rw [hopened]
              by_cases hr' : S r'
              · have hkeep : (Note.effect (.decrypted r' hdr plaintext)).arrival? S
                    = some (r', hdr, plaintext) := if_pos hr'
                rw [List.filterMap_cons_some hkeep]
                by_cases heq : r' = r
                · simpa [openedIn, heq] using ih
                · simpa [openedIn, heq] using ih
              · have hskip : (Note.effect (.decrypted r' hdr plaintext)).arrival? S = none :=
                  if_neg hr'
                rw [List.filterMap_cons_none hskip]
                exact ih.trans (List.sublist_append_right _ _)
          | _ => exact ih
      | _ => exact ih

end Arrivals

/-- In all sessions together, no packet has passed decryption twice under one key. -/
theorem Inbox.nodup_arrivals {arrived : Set Bytes} {s : Shared P} {log : List Note}
    (hs : Inbox arrived s log) (S : Ref → Prop) [DecidablePred S] :
    (log.filterMap (Note.arrival? S)).Nodup := by
  rw [List.nodup_iff_count_le_one]
  intro a
  have hsession : ((log.filterMap (Note.arrival? S)).filter fun a' => a'.1 = a.1).Nodup := by
    refine List.Nodup.of_map Prod.snd ((filter_arrivals_sublist a.1).nodup ?_)
    cases hr : s.node.hostmap.hosts[a.1]? with
    | none =>
        rw [hs.unused a.1 hr]
        exact List.nodup_nil
    | some h => exact List.Nodup.of_map _ (hs.sessions a.1 h hr).once
  have hcount := List.count_filter (l := log.filterMap (Note.arrival? S))
    (p := fun a' => decide (a'.1 = a.1)) (a := a) (by simp)
  rw [← hcount]
  exact List.nodup_iff_count_le_one.mp hsession a

/-- **What passes decryption was sealed, and passes once.** -/
theorem Inbox.opened_le_sealed {ι : Type*} [Fintype ι] {arrived : Set Bytes} {s : Shared P}
    {log : List Note} (hs : Inbox arrived s log) (logs : ι → List Note) (S : Ref → Prop)
    [DecidablePred S]
    (hkeys : s.node.hostmap.RecvKeysApart S)
    (hideal : ∀ r h, S r → s.node.hostmap.hosts[r]? = some h →
      P.OpensOnly h.recvCipher.key (sealedUnder h.recvCipher.key logs)
        (Platform.inParts arrived)) :
    Program.tally (Note.openedOf S) log ≤ ∑ i, Program.tally Note.sealedPacket (logs i) := by
  let key (r : Ref) : Option (Vector UInt8 32) :=
    s.node.hostmap.hosts[r]?.map fun h => h.recvCipher.key
  let tag (a : Ref × Bytes × Bytes) := (key a.1, a.2)
  have hsome : ∀ a ∈ log.filterMap (Note.arrival? S),
      S a.1 ∧ ∃ h, s.node.hostmap.hosts[a.1]? = some h ∧ a.2 ∈ openedIn a.1 (effects log) := by
    intro a ha
    obtain ⟨hS, hopened⟩ := mem_arrivals ha
    refine ⟨hS, ?_⟩
    cases hr : s.node.hostmap.hosts[a.1]? with
    | none =>
        rw [hs.unused a.1 hr] at hopened
        cases hopened
    | some h => exact ⟨h, rfl, hopened⟩
  have hnodup : ((log.filterMap (Note.arrival? S)).map tag).Nodup := by
    refine List.Nodup.map_on (fun a ha b hb hab => ?_) (hs.nodup_arrivals S)
    obtain ⟨hSa, h, hh, -⟩ := hsome a ha
    obtain ⟨hSb, g, hg, -⟩ := hsome b hb
    obtain ⟨hkey, hrest⟩ := Prod.mk.inj hab
    refine Prod.ext (hkeys a.1 b.1 h g hSa hSb hh hg ?_) hrest
    simpa [key, hh, hg] using hkey
  have hsealed : ∀ a ∈ log.filterMap (Note.arrival? S),
      ∃ i, tag a ∈ sealings (logs i) := by
    intro a ha
    obtain ⟨hS, h, hh, hopened⟩ := hsome a ha
    obtain ⟨ct, hparts, hdecrypt⟩ := (hs.sessions a.1 h hh).opened a.2 hopened
    obtain ⟨i, call, hcall, hkey, -, hheader, hplain⟩ :=
      hideal a.1 h hS hh _ ct hparts _ _ (Fallible.mapError_ok.mp hdecrypt)
    refine ⟨i, Multiset.mem_coe.mpr (List.mem_filterMap.mpr ⟨.encrypted call, hcall, ?_⟩)⟩
    simp [Note.sealing?, tag, key, hh, hkey, hheader, hplain]
  have hle : ((log.filterMap (Note.arrival? S)).map tag : Multiset _)
      ≤ ∑ i, sealings (logs i) := by
    refine (Multiset.le_iff_subset (Multiset.coe_nodup.mpr hnodup)).mpr fun x hx => ?_
    obtain ⟨a, ha, rfl⟩ := List.mem_map.mp (Multiset.mem_coe.mp hx)
    obtain ⟨i, hi⟩ := hsealed a ha
    exact Multiset.mem_sum.mpr ⟨i, Finset.mem_univ i, hi⟩
  have hmap := Multiset.map_le_map (f := fun x => x.2.2) hle
  have hsum := map_sum (Multiset.mapAddMonoidHom fun x => x.2.2) (fun i => sealings (logs i))
    Finset.univ
  rw [tally_openedOf]
  simp only [tally_sealedPacket]
  refine le_trans (le_of_eq ?_) (hmap.trans (le_of_eq hsum))
  rw [Multiset.map_coe, List.map_map]
  rfl

/-! ### The network

The two nodes are linked by what arrives only: nothing is said about how the datagrams got from one
to the other. -/

namespace Daemon

open Program Network

/-- The call handles a datagram that arrived, or none. -/
def Handles (arrived : Set Bytes) (i : Env P × Interface.Event) : Prop :=
  ∀ pkt src, i.2 = .outside pkt src → pkt ∈ arrived

/-- The datagrams that come in with the calls of a run. -/
def arrivals (ts : List (Turn (Env P × Interface.Event))) : Set Bytes :=
  fun pkt => ∃ env src, .call (env, .outside pkt src) ∈ ts

theorem handles_arrivals (ts : List (Turn (Env P × Interface.Event))) :
    ∀ e ∈ ts, e.Within (Handles (arrivals ts)) := by
  intro e he
  cases e with
  | advance n => trivial
  | call i =>
      obtain ⟨env, ev⟩ := i
      intro pkt src hev
      obtain rfl : ev = .outside pkt src := hev
      exact ⟨env, src, he⟩

theorem guards_inbox (arrived : Set Bytes) :
    (program P).Guards (Handles arrived) (fun s log => Routed s log ∧ Inbox arrived s log)
      (fun s t => t.Directed s ∧ t.Brought arrived) where
  entry s i hi := by
    refine ⟨guards.entry s i trivial, ?_⟩
    obtain ⟨env, e⟩ := i
    cases e with
    | outside pkt src =>
        intro pkt' hpkt
        rw [← Option.some.inj hpkt]
        exact hi pkt src rfl
    | _ => exact fun _ h => nomatch h
  step s log t hs ht :=
    have hrouted := guards.step s log t hs.1 ht.1
    ⟨⟨hrouted.1, hs.2.step ht.1 ht.2⟩, hrouted.2,
      fun pkt hpkt => ht.2 pkt (Task.datagram_of_step hpkt)⟩
  other s log t u hs ht hu := ⟨guards.other s log t u hs.1 ht.1 hu.1, hu.2⟩

theorem inbox_run (x : Setup) (peers : List Certificate)
    (ts : List (Turn (Env P × Interface.Event))) :
    Inbox (arrivals ts) ((start (x.node P peers)).run ts).shared (logOf x peers ts) := by
  have hhosts : (x.node P peers).hostmap = .new := Interface.new_hostmap ..
  have hstart : Inbox (arrivals ts) (start (x.node P peers)).shared [] := by
    refine ⟨fun r h hr => ?_, fun r hr => rfl⟩
    have hnew : HostMap.new.hosts[r]? = some h := hhosts ▸ hr
    cases hnew
  exact ((guards_inbox (arrivals ts)).run ⟨⟨routed_start P x peers, hstart⟩, by simp [start]⟩
    (handles_arrivals ts)).shared.2

/-- **Nothing comes out that did not go in.**  Any number of nodes, each with any calls in any order
of their steps, and any datagrams between them.  Take a node, and sessions of it that open with
different keys and under whose keys, of what arrives there, only what the nodes themselves have
sealed can be opened.  What it writes to the TUN device comes out of its other sessions, or the
nodes have read it from their TUN devices, each packet at least as often as it was written. -/
theorem written_was_read {ι : Type*} [Fintype ι] (x : ι → Setup) (peers : ι → List Certificate)
    (ts : ι → List (Turn (Env P × Interface.Event))) (b : ι) (S : Ref → Prop) [DecidablePred S]
    (hkeys : (sessionsOf (x b) (peers b) (ts b)).RecvKeysApart S)
    (hideal : ∀ r h, S r → (sessionsOf (x b) (peers b) (ts b)).hosts[r]? = some h →
      P.OpensOnly h.recvCipher.key
        (sealedUnder h.recvCipher.key fun i => logOf (x i) (peers i) (ts i))
        (Platform.inParts (arrivals (ts b)))) :
    tally Note.written (logOf (x b) (peers b) (ts b))
      ≤ ∑ i, tally (brings packetRead) (ts i)
        + tally (Note.openedOf fun r => ¬ S r) (logOf (x b) (peers b) (ts b)) := by
  have hsealed := (inbox_run (x b) (peers b) (ts b)).opened_le_sealed
    (fun i => logOf (x i) (peers i) (ts i)) S hkeys hideal
  have hread : ∀ i, tally Note.sealedPacket (logOf (x i) (peers i) (ts i))
      ≤ tally (brings packetRead) (ts i) := fun i =>
    (sealed_le_admitted (x i) (peers i) (ts i)).trans (admitted_le_read (x i) (peers i) (ts i))
  calc tally Note.written (logOf (x b) (peers b) (ts b))
      ≤ tally Note.opened (logOf (x b) (peers b) (ts b)) :=
        written_le_opened (x b) (peers b) (ts b)
    _ = tally (Note.openedOf S) (logOf (x b) (peers b) (ts b))
        + tally (Note.openedOf fun r => ¬ S r) (logOf (x b) (peers b) (ts b)) :=
        tally_opened S _
    _ ≤ ∑ i, tally Note.sealedPacket (logOf (x i) (peers i) (ts i))
        + tally (Note.openedOf fun r => ¬ S r) (logOf (x b) (peers b) (ts b)) := by gcongr
    _ ≤ ∑ i, tally (brings packetRead) (ts i)
        + tally (Note.openedOf fun r => ¬ S r) (logOf (x b) (peers b) (ts b)) := by
        gcongr with i
        exact hread i

section Concrete

open Symbolic

/-- The calls of `Encrypt` in a log. -/
def callsOf (log : List Note) : List EncryptCall :=
  log.filterMap fun
    | .encrypted call => some call
    | _ => none

theorem mem_callsOf {log : List Note} {call : EncryptCall} (h : call ∈ callsOf log) :
    .encrypted call ∈ log := by
  obtain ⟨note, hnote, hcall⟩ := List.mem_filterMap.mp h
  cases note with
  | encrypted call' =>
      obtain rfl := Option.some.inj hcall
      exact hnote
  | _ => cases hcall

/-- Node 1 sends its packet as soon as it has the answer. -/
def reaching : List (Turn (Env platform × Interface.Event)) :=
  .call (calmEnv 7 [9], .inside (tcpPacket 1 2 40000 22)) :: List.replicate 6 (.advance 0)
    ++ .call (calmEnv 0 [], .outside answer (nodeAddr 2)) :: List.replicate 8 (.advance 1)

/-- The datagram with the packet. -/
def carrier : Bytes := (written (logOf setup1 [setup2.cert] reaching)).getD 1 []

/-- Node 2 answers, and gets the packet twice. -/
def receiving : List (Turn (Env platform × Interface.Event)) :=
  .call (calmEnv 8 [5], .outside hello (nodeAddr 1)) :: List.replicate 5 (.advance 0)
    ++ .call (calmEnv 0 [], .outside carrier (nodeAddr 1)) ::
      .call (calmEnv 0 [], .outside carrier (nodeAddr 1)) :: List.replicate 4 (.advance 1)
    ++ List.replicate 4 (.advance 2)

/-- The turns of the two nodes. -/
def carrierTurns (i : Bool) : List (Turn (Env platform × Interface.Event)) :=
  if i then receiving else reaching

/-- Of what arrives at node 2, only what node 1 has sealed opens. -/
theorem opensOnly_carrier (r : Ref) (h : HostInfo)
    (hr : (sessionsOf (pair true) (pairPeers true) (carrierTurns true)).hosts[r]? = some h) :
    platform.OpensOnly h.recvCipher.key
      (sealedUnder h.recvCipher.key fun i => logOf (pair i) (pairPeers i) (carrierTurns i))
      (Platform.inParts (arrivals (carrierTurns true))) := by
  have hcarrier : ∀ g ∈ (sessionsOf (pair true) (pairPeers true) (carrierTurns true)).hosts,
      ∃ call ∈ callsOf (logOf (pair false) (pairPeers false) (carrierTurns false)),
        call.aead.key = g.recvCipher.key ∧ Framing.unframes (carrier.drop headerLen)
          = some [g.recvCipher.key.toList, call.nonce, call.header, call.plaintext] := by
    decide +kernel
  have hhello : (Framing.unframes (hello.drop headerLen)).map List.length ≠ some 4 := by
    decide +kernel
  rintro ad ct ⟨pkt, ⟨env, src, hmem⟩, hpkt⟩ nonce plaintext hopen
  obtain ⟨rfl, rfl⟩ := Prod.mk.inj hpkt
  have hframes := unframes_of_gcmOpen hopen
  have hcases : pkt = hello ∨ pkt = carrier := by
    simp only [carrierTurns, if_pos, receiving, List.mem_append, List.mem_cons,
      List.mem_replicate, Turn.call.injEq, Prod.mk.injEq, Interface.Event.outside.injEq,
      reduceCtorEq, and_false, or_false] at hmem
    rcases hmem with ⟨-, hpkt, -⟩ | ⟨-, hpkt, -⟩ | ⟨-, hpkt, -⟩
    · exact .inl hpkt
    · exact .inr hpkt
    · exact .inr hpkt
  rcases hcases with hpkt | hpkt
  · rw [← hpkt, hframes] at hhello
    exact absurd rfl hhello
  · obtain ⟨call, hcall, hkey, hsealed⟩ := hcarrier h (List.mem_of_getElem? hr)
    rw [← hpkt, hframes] at hsealed
    simp only [Option.some.injEq, List.cons.injEq, true_and, and_true] at hsealed
    obtain ⟨hnonce, hheader, hplain⟩ := hsealed
    exact ⟨false, call, mem_callsOf hcall, hkey, hnonce.symm, hheader.symm, hplain.symm⟩

/-- Node 2 gets the packet of node 1 twice and writes it once. -/
theorem written_was_read_twice :
    tally Note.written (logOf (pair true) (pairPeers true) (carrierTurns true))
        = {tcpPacket 1 2 40000 22} ∧
      tally Note.written (logOf (pair true) (pairPeers true) (carrierTurns true))
        ≤ ∑ i, tally (brings packetRead) (carrierTurns i)
          + tally (Note.openedOf fun _ => ¬ True)
            (logOf (pair true) (pairPeers true) (carrierTurns true)) := by
  have hone : (sessionsOf (pair true) (pairPeers true) (carrierTurns true)).hosts.length = 1 := by
    decide +kernel
  have hkeys : (sessionsOf (pair true) (pairPeers true) (carrierTurns true)).RecvKeysApart
      fun _ => True := by
    intro r r' h h' _ _ hr hr' _
    have hlt := (List.getElem?_eq_some_iff.mp hr).1
    have hlt' := (List.getElem?_eq_some_iff.mp hr').1
    rw [hone] at hlt hlt'
    rw [Nat.lt_one_iff.mp hlt, Nat.lt_one_iff.mp hlt']
  have hideal := opensOnly_carrier
  refine ⟨by decide +kernel, ?_⟩
  -- so that unification does not evaluate the runs
  generalize carrierTurns = ts at hkeys hideal ⊢
  exact written_was_read pair pairPeers ts true (fun _ => True) hkeys fun r h _ => hideal r h

end Concrete

end Daemon

end Neth
