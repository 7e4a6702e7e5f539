/-
No key seals two packets under one nonce, whatever the interleaving.

Tokens are accounted for: no counter of a session and no handshake state is drawn twice,
so none is used twice.  The first gives distinct nonces within a session, the second
that distinct session objects come from distinct handshake states, and so have distinct
keys.

That distinct handshake states lead to distinct keys is a matter of Noise and of the
randomness in it, and is a hypothesis.  Everything else is about the code, in the model
of `Concurrent.lean`, where calls overlap and a session may be used by several of them
at once.
-/
import Neth.Proofs.KeyAgreement
import Neth.Proofs.Tokens

namespace Neth

open Interleave

variable {P : Platform}

/-! ### Accounting -/

theorem filterMap_plain {α : Type*} {f : Note → Option α} {notes : List Note}
    (hf : ∀ note, note.Plain → f note = none) (h : ∀ note ∈ notes, note.Plain) :
    notes.filterMap f = [] :=
  List.filterMap_eq_nil_iff.mpr fun note hnote => hf note (h note hnote)

/-- What stands in a list with one more entry stood there before, or is the new entry. -/
theorem getElem?_append_singleton {α : Type*} {xs : List α} {x y : α} {r : Nat}
    (h : (xs ++ [x])[r]? = some y) : xs[r]? = some y ∨ (r = xs.length ∧ x = y) := by
  rcases Nat.lt_trichotomy r xs.length with hlt | heq | hgt
  · rw [List.getElem?_append_left hlt] at h
    exact .inl h
  · rw [heq, List.getElem?_concat_length] at h
    exact .inr ⟨heq, Option.some.inj h⟩
  · have hlen := (List.getElem?_eq_some_iff.mp h).1
    rw [List.length_append, List.length_singleton] at hlen
    exact absurd hgt (Nat.not_lt.mpr (Nat.le_of_lt_succ hlen))

section Tokens

variable {l l' : Ledger} {t t' : Task P} {notes : List Note}

/-- A step uses what its task held or has drawn itself, and gives it up. -/
theorem Acts.balanced (h : Acts l t notes l' t') :
    (notes.filterMap Note.used : Multiset Token) + (t'.held.toList : Multiset Token)
      ≤ (t.held.toList : Multiset Token) + (notes.filterMap Note.drawn : Multiset Token) := by
  cases h with
  | quiet hnotes hheld =>
      rw [filterMap_plain (fun _ h => h.2) hnotes, hheld]
      exact Multiset.zero_le _
  | forget hnotes hheld _ =>
      rw [filterMap_plain (fun _ h => h.2) hnotes, hheld]
      exact Multiset.zero_le _
  | insert _ hnotes hheld =>
      rw [filterMap_plain (fun _ h => h.2) hnotes, hheld]
      exact Multiset.zero_le _
  -- drawn by the step and held by its task
  | claim env pkt _ => exact add_le_add (Multiset.zero_le _) le_rfl
  | respond env pending hnotes _ =>
      rw [List.filterMap_append, List.filterMap_append, filterMap_plain (fun _ h => h.1) hnotes,
        filterMap_plain (fun _ h => h.2) hnotes]
      exact add_le_add (Multiset.zero_le _) le_rfl
  | take env pkt pkts _ => exact add_le_add (Multiset.zero_le _) le_rfl
  -- held before and after
  | read env pkt pending _ => exact (add_comm _ _).le
  -- held before and used
  | add env o h pending hheld =>
      rw [hheld]
      exact le_rfl
  | encrypt env pkts _ _ hheld =>
      rw [hheld]
      exact le_rfl

end Tokens

/-! #### Counters

A counter is drawn from one session object and goes up.  It is used once because a call has it to
itself. -/

/-- The counter a note says was drawn from session `r`. -/
def Note.counterOf (r : Ref) : Note → Option UInt64
  | .took r' c => if r' = r then some c else none
  | _ => none

/-- The counters drawn from session `r`, one for each call of `sendToRemote`. -/
def countersOf (r : Ref) (log : List Note) : List UInt64 := log.filterMap (Note.counterOf r)

theorem countersOf_append (r : Ref) (log notes : List Note) :
    countersOf r (log ++ notes) = countersOf r log ++ countersOf r notes :=
  List.filterMap_append ..

theorem Note.Plain.counterOf {note : Note} (h : note.Plain) (r : Ref) :
    note.counterOf r = none := by
  cases note with
  | took r' c => cases h.1
  | _ => rfl

/-- Every session has handed out 1, 2, 3 and so on. -/
structure Counters (sessions : List (UInt64 × AEAD)) (log : List Note) : Prop where
  drawn : ∀ r, countersOf r log
    = (List.range (countersOf r log).length).map fun n => UInt64.ofNat (n + 1)
  next : ∀ r c aead, sessions[r]? = some (c, aead) → c = UInt64.ofNat (countersOf r log).length
  unused : ∀ r, sessions.length ≤ r → countersOf r log = []

variable {sessions : List (UInt64 × AEAD)} {log notes : List Note}

theorem counters_nil : Counters [] [] :=
  ⟨fun _ => rfl, by simp, fun _ _ => rfl⟩

theorem Counters.keep (h : Counters sessions log) (hnotes : ∀ r, countersOf r notes = []) :
    Counters sessions (log ++ notes) := by
  have hsame : ∀ r, countersOf r (log ++ notes) = countersOf r log := by
    intro r
    rw [countersOf_append, hnotes, List.append_nil]
  refine ⟨fun r => ?_, fun r c aead hr => ?_, fun r hr => ?_⟩
  · rw [hsame]
    exact h.drawn r
  · rw [hsame]
    exact h.next r c aead hr
  · rw [hsame]
    exact h.unused r hr

theorem Counters.add (h : Counters sessions log) (aead : AEAD) :
    Counters (sessions ++ [(0, aead)]) log := by
  refine ⟨h.drawn, fun r c aead' hr => ?_, fun r hr => h.unused r ?_⟩
  · rcases getElem?_append_singleton hr with hold | ⟨rfl, hnew⟩
    · exact h.next r c aead' hold
    · rw [h.unused _ (Nat.le_refl _), ← (Prod.mk.inj hnew).1]
      rfl
  · rw [List.length_append] at hr
    exact Nat.le_of_add_right_le hr

theorem Counters.take (h : Counters sessions log) {r : Ref} {c : UInt64} {aead : AEAD}
    (hr : sessions[r]? = some (c, aead)) :
    Counters (sessions.set r (c + 1, aead)) (log ++ [.took r (c + 1)]) := by
  have hlt : r < sessions.length := (List.getElem?_eq_some_iff.mp hr).1
  have hnext : c + 1 = UInt64.ofNat ((countersOf r log).length + 1) := by
    rw [h.next r c aead hr, UInt64.ofNat_add]
    rfl
  have hself : countersOf r (log ++ [.took r (c + 1)]) = countersOf r log ++ [c + 1] := by
    rw [countersOf_append]
    simp [countersOf, Note.counterOf]
  have hother : ∀ r', r ≠ r' → countersOf r' (log ++ [.took r (c + 1)]) = countersOf r' log := by
    intro r' hne
    rw [countersOf_append]
    simp [countersOf, Note.counterOf, hne]
  refine ⟨fun r' => ?_, fun r' c' aead' hr' => ?_, fun r' hr' => ?_⟩
  · by_cases heq : r = r'
    · subst heq
      rw [hself, List.length_append, List.length_singleton, List.range_succ, List.map_append,
        ← h.drawn r, hnext]
      rfl
    · rw [hother r' heq]
      exact h.drawn r'
  · by_cases heq : r = r'
    · subst heq
      rw [List.getElem?_set_self hlt] at hr'
      rw [hself, List.length_append, List.length_singleton, ← hnext]
      exact (congrArg Prod.fst (Option.some.inj hr')).symm
    · rw [List.getElem?_set_ne heq] at hr'
      rw [hother r' heq]
      exact h.next r' c' aead' hr'
  · rw [List.length_set] at hr'
    have hne : r ≠ r' := fun heq => absurd (heq ▸ hlt) (Nat.not_lt.mpr hr')
    rw [hother r' hne]
    exact h.unused r' hr'

/-- The counters drawn so far are distinct. -/
theorem Counters.nodup (h : Counters sessions log) {r : Ref}
    (hfew : (countersOf r log).length < 2 ^ 64) : (countersOf r log).Nodup := by
  rw [h.drawn r]
  refine List.Nodup.map_on ?_ List.nodup_range
  intro m hm n hn heq
  have hm := List.mem_range.mp hm
  have hn := List.mem_range.mp hn
  have hnat := congrArg UInt64.toNat heq
  rw [UInt64.toNat_ofNat', UInt64.toNat_ofNat', Nat.mod_eq_of_lt (by omega),
    Nat.mod_eq_of_lt (by omega)] at hnat
  omega

/-! #### Handshake states -/

/-- The handshake state a note claims, if it claims one. -/
def Note.claim? : Note → Option Origin
  | .claimed o => some o
  | _ => none

theorem Note.Plain.claim? {note : Note} (h : note.Plain) : note.claim? = none := by
  cases note with
  | claimed o => cases h.1
  | _ => rfl

/-- No handshake state was claimed twice: a claimed one of the initiator is not in the index map any
more, and the responder's are numbered. -/
structure Claims (indexMap : GoMap UInt32 Ref) (handshakes responders : Nat)
    (log : List Note) : Prop where
  nodup : (log.filterMap Note.claim?).Nodup
  initiator : ∀ r, .initiator r ∈ log.filterMap Note.claim? →
    r < handshakes ∧ ∀ idx, indexMap idx ≠ some r
  responder : ∀ k, .responder k ∈ log.filterMap Note.claim? → k < responders
  indexed : ∀ idx r, indexMap idx = some r → r < handshakes
  index_inj : ∀ idx idx' r, indexMap idx = some r → indexMap idx' = some r → idx = idx'

variable {indexMap indexMap' : GoMap UInt32 Ref} {handshakes responders : Nat}

theorem claims_nil : Claims (fun _ => none) 0 0 [] :=
  ⟨List.nodup_nil, by simp, by simp, by simp, by simp⟩

theorem Claims.keep (h : Claims indexMap handshakes responders log)
    (hnotes : notes.filterMap Note.claim? = []) :
    Claims indexMap handshakes responders (log ++ notes) := by
  have hsame : (log ++ notes).filterMap Note.claim? = log.filterMap Note.claim? := by
    rw [List.filterMap_append, hnotes, List.append_nil]
  exact ⟨hsame ▸ h.nodup, hsame ▸ h.initiator, hsame ▸ h.responder, h.indexed, h.index_inj⟩

theorem Claims.forget (h : Claims indexMap handshakes responders log)
    (hsub : ∀ idx r, indexMap' idx = some r → indexMap idx = some r) :
    Claims indexMap' handshakes responders log := by
  refine ⟨h.nodup, fun r hr => ?_, h.responder, fun idx r hr => h.indexed idx r (hsub idx r hr),
    fun idx idx' r hr hr' => h.index_inj idx idx' r (hsub idx r hr) (hsub idx' r hr')⟩
  obtain ⟨hlt, hgone⟩ := h.initiator r hr
  exact ⟨hlt, fun idx hidx => hgone idx (hsub idx r hidx)⟩

theorem Claims.insert (h : Claims indexMap handshakes responders log) (idx : UInt32) :
    Claims (Function.update indexMap idx (some handshakes)) (handshakes + 1) responders log := by
  have hcases : ∀ idx' r, Function.update indexMap idx (some handshakes) idx' = some r →
      (idx' = idx ∧ r = handshakes) ∨ indexMap idx' = some r := by
    intro idx' r hr
    by_cases heq : idx' = idx
    · subst heq
      rw [Function.update_self] at hr
      exact .inl ⟨rfl, (Option.some.inj hr).symm⟩
    · exact .inr (by rwa [Function.update_of_ne heq] at hr)
  refine ⟨h.nodup, fun r hr => ?_, h.responder, fun idx' r hr => ?_,
    fun idx₁ idx₂ r h₁ h₂ => ?_⟩
  · obtain ⟨hlt, hgone⟩ := h.initiator r hr
    refine ⟨Nat.lt_succ_of_lt hlt, fun idx' hidx => ?_⟩
    rcases hcases idx' r hidx with ⟨-, rfl⟩ | hold
    · exact absurd hlt (Nat.lt_irrefl _)
    · exact hgone idx' hold
  · rcases hcases idx' r hr with ⟨-, rfl⟩ | hold
    · exact Nat.lt_succ_self _
    · exact Nat.lt_succ_of_lt (h.indexed idx' r hold)
  · rcases hcases idx₁ r h₁ with ⟨rfl, rfl⟩ | hold₁
    · rcases hcases idx₂ _ h₂ with ⟨rfl, -⟩ | hold₂
      · rfl
      · exact absurd (h.indexed idx₂ _ hold₂) (Nat.lt_irrefl _)
    · rcases hcases idx₂ r h₂ with ⟨-, rfl⟩ | hold₂
      · exact absurd (h.indexed idx₁ _ hold₁) (Nat.lt_irrefl _)
      · exact h.index_inj idx₁ idx₂ r hold₁ hold₂

theorem filterMap_claim (log : List Note) (o : Origin) :
    (log ++ [Note.claimed o]).filterMap Note.claim? = log.filterMap Note.claim? ++ [o] :=
  List.filterMap_append ..

/-- A state that was not claimed before is claimed. -/
theorem nodup_claim {o : Origin} (h : (log.filterMap Note.claim?).Nodup)
    (hnew : o ∉ log.filterMap Note.claim?) :
    ((log ++ [Note.claimed o]).filterMap Note.claim?).Nodup := by
  rw [filterMap_claim]
  exact List.Nodup.append h (List.nodup_singleton o) (List.disjoint_singleton.mpr hnew)

theorem mem_claim {o o' : Origin} :
    o' ∈ (log ++ [Note.claimed o]).filterMap Note.claim? ↔
      o' ∈ log.filterMap Note.claim? ∨ o' = o := by
  rw [filterMap_claim, List.mem_append, List.mem_singleton]

theorem Claims.claim (h : Claims indexMap handshakes responders log) {idx : UInt32} {r : Ref}
    (hidx : indexMap idx = some r) :
    Claims (Function.update indexMap idx none) handshakes responders
      (log ++ [.claimed (.initiator r)]) := by
  have hsub : ∀ idx' r', Function.update indexMap idx none idx' = some r' →
      idx' ≠ idx ∧ indexMap idx' = some r' := by
    intro idx' r' hr
    by_cases heq : idx' = idx
    · rw [heq, Function.update_self] at hr
      cases hr
    · exact ⟨heq, by rwa [Function.update_of_ne heq] at hr⟩
  refine ⟨nodup_claim h.nodup fun hmem => (h.initiator r hmem).2 idx hidx, fun r' hr' => ?_,
    fun k hk => ?_, fun idx' r' hr' => h.indexed idx' r' (hsub idx' r' hr').2,
    fun idx₁ idx₂ r' h₁ h₂ => h.index_inj idx₁ idx₂ r' (hsub idx₁ r' h₁).2 (hsub idx₂ r' h₂).2⟩
  · rcases mem_claim.mp hr' with hold | heq
    · obtain ⟨hlt, hgone⟩ := h.initiator r' hold
      exact ⟨hlt, fun idx' hidx' => hgone idx' (hsub idx' r' hidx').2⟩
    · cases heq
      refine ⟨h.indexed idx r hidx, fun idx' hidx' => ?_⟩
      obtain ⟨hne, hold⟩ := hsub idx' r hidx'
      exact hne (h.index_inj idx' idx r hold hidx)
  · rcases mem_claim.mp hk with hold | heq
    · exact h.responder k hold
    · cases heq

theorem Claims.respond (h : Claims indexMap handshakes responders log) :
    Claims indexMap handshakes (responders + 1) (log ++ [.claimed (.responder responders)]) := by
  refine ⟨nodup_claim h.nodup fun hmem => Nat.lt_irrefl _ (h.responder _ hmem), fun r hr => ?_,
    fun k hk => ?_, h.indexed, h.index_inj⟩
  · rcases mem_claim.mp hr with hold | heq
    · exact h.initiator r hold
    · cases heq
  · rcases mem_claim.mp hk with hold | heq
    · exact Nat.lt_succ_of_lt (h.responder k hold)
    · cases heq
      exact Nat.lt_succ_self _

/-! #### Keys

A ciphertext was made under the key its session had from the start, since nothing assigns to a
session's cipher. -/

/-- The header names the counter that the packet is sealed under, and what was made of it got to the
socket. -/
def EncryptCall.Sent (P : Platform) (call : EncryptCall) (log : List Note) : Prop :=
  (∃ idx, call.header = Header.bytes ⟨headerVersion, typeMessage, 0, idx, call.counter⟩) ∧
    ∃ addr ok, .effect (.writeTo (call.wire P) addr ok) ∈ log

variable (P) in
/-- Every session was added with the key it has, and every packet is sealed with the key of its
session. -/
structure Keyed (sessions : List (UInt64 × AEAD)) (log : List Note) : Prop where
  added : ∀ r c aead, sessions[r]? = some (c, aead) →
    ∃ o h pending, .added o r h pending ∈ log ∧ h.sendCipher = aead
  encrypted : ∀ call, .encrypted call ∈ log →
    (∃ c, sessions[call.session]? = some (c, call.aead)) ∧ call.Sent P log

theorem keyed_nil : Keyed P [] [] := ⟨by simp, by simp⟩

theorem EncryptCall.Sent.append {call : EncryptCall} (h : call.Sent P log) (notes : List Note) :
    call.Sent P (log ++ notes) := by
  obtain ⟨hheader, addr, ok, hmem⟩ := h
  exact ⟨hheader, addr, ok, List.mem_append_left _ hmem⟩

/-- Only a note of a new packet has to be looked at. -/
theorem Keyed.append (h : Keyed P sessions log) (hnew : ∀ call, .encrypted call ∈ notes →
      (∃ c, sessions[call.session]? = some (c, call.aead)) ∧ call.Sent P (log ++ notes)) :
    Keyed P sessions (log ++ notes) := by
  refine ⟨fun r c aead hr => ?_, fun call hcall => ?_⟩
  · obtain ⟨o, host, pending, hmem, hkey⟩ := h.added r c aead hr
    exact ⟨o, host, pending, List.mem_append_left _ hmem, hkey⟩
  · rcases List.mem_append.mp hcall with hold | hnote
    · obtain ⟨hsession, hsent⟩ := h.encrypted call hold
      exact ⟨hsession, hsent.append notes⟩
    · exact hnew call hnote

theorem Keyed.keep (h : Keyed P sessions log) (hnotes : ∀ call, .encrypted call ∉ notes) :
    Keyed P sessions (log ++ notes) :=
  h.append fun call hmem => absurd hmem (hnotes call)

theorem Keyed.add (h : Keyed P sessions log) (o : Origin) (host : HostInfo)
    (pending : List Bytes) : Keyed P (sessions ++ [(host.counter, host.sendCipher)])
      (log ++ [.added o sessions.length host pending]) := by
  have hkept : Keyed P sessions (log ++ [.added o sessions.length host pending]) :=
    h.keep (by simp)
  refine ⟨fun r c aead hr => ?_, fun call hcall => ?_⟩
  · rcases getElem?_append_singleton hr with hold | ⟨rfl, hnew⟩
    · exact hkept.added r c aead hold
    · exact ⟨o, host, pending, by simp, (Prod.mk.inj hnew).2⟩
  · obtain ⟨⟨c, hc⟩, hsent⟩ := hkept.encrypted call hcall
    have hlt := (List.getElem?_eq_some_iff.mp hc).1
    exact ⟨⟨c, (List.getElem?_append_left hlt).trans hc⟩, hsent⟩

theorem Keyed.take (h : Keyed P sessions log) {r : Ref} {c : UInt64} {aead : AEAD}
    (hr : sessions[r]? = some (c, aead)) (c' : UInt64) :
    Keyed P (sessions.set r (c', aead)) (log ++ [.took r c']) := by
  have hkept : Keyed P sessions (log ++ [.took r c']) := h.keep (by simp)
  have hlt : r < sessions.length := (List.getElem?_eq_some_iff.mp hr).1
  refine ⟨fun r' c₁ aead' hr' => ?_, fun call hcall => ?_⟩
  · by_cases heq : r = r'
    · subst heq
      rw [List.getElem?_set_self hlt] at hr'
      obtain ⟨-, rfl⟩ := Prod.mk.inj (Option.some.inj hr')
      exact hkept.added r c aead hr
    · rw [List.getElem?_set_ne heq] at hr'
      exact hkept.added r' c₁ aead' hr'
  · obtain ⟨⟨c₁, hc⟩, hsent⟩ := hkept.encrypted call hcall
    refine ⟨?_, hsent⟩
    by_cases heq : r = call.session
    · rw [← heq, hr] at hc
      obtain ⟨-, hkey⟩ := Prod.mk.inj (Option.some.inj hc)
      rw [← heq, List.getElem?_set_self hlt, hkey]
      exact ⟨c', rfl⟩
    · rw [List.getElem?_set_ne heq]
      exact ⟨c₁, hc⟩

theorem Keyed.encrypt (h : Keyed P sessions log) {call : EncryptCall} {c : UInt64} {e : Effect}
    {addr : UDPAddr} {ok : Bool} (hr : sessions[call.session]? = some (c, call.aead))
    (hheader : ∃ idx, call.header
      = Header.bytes ⟨headerVersion, typeMessage, 0, idx, call.counter⟩) :
    Keyed P sessions
      (log ++ [.encrypted call, .effect e, .effect (.writeTo (call.wire P) addr ok)]) := by
  refine h.append fun call' hmem => ?_
  obtain rfl : call' = call := by simpa using hmem
  exact ⟨⟨c, hr⟩, hheader, addr, ok, by simp⟩

/-! #### All accounts together -/

variable (P) in
/-- What the notes of a node say about its sessions, its handshakes and their keys. -/
structure Accounts (l : Ledger) (log : List Note) : Prop where
  counters : Counters l.sessions log
  claims : Claims l.indexMap l.handshakes l.responders log
  keyed : Keyed P l.sessions log

/-- A session object is added with its counter at zero. -/
def Task.Fresh : Task P → Prop
  | .add _ _ h _ => h.counter = 0
  | _ => True

theorem Task.fresh_of_held {t : Task P} (h : t.held = none) : t.Fresh := by
  cases t with
  | add env o host pending => cases h
  | _ => trivial

variable {l l' : Ledger} {t t' : Task P}

theorem Accounts.keep (h : Accounts P l log) (hnotes : ∀ note ∈ notes, note.Plain) :
    Accounts P l (log ++ notes) := by
  refine ⟨h.counters.keep fun r => ?_, h.claims.keep ?_, h.keyed.keep fun call hmem => ?_⟩
  · exact filterMap_plain (fun note hplain => hplain.counterOf r) hnotes
  · exact filterMap_plain (fun note hplain => hplain.claim?) hnotes
  · cases (hnotes _ hmem).2

/-- **Every step keeps the accounts.** -/
theorem Accounts.step (h : Accounts P l log) (hfresh : t.Fresh) (hact : Acts l t notes l' t') :
    Accounts P l' (log ++ notes) ∧ t'.Fresh := by
  cases hact with
  | quiet hnotes hheld => exact ⟨h.keep hnotes, Task.fresh_of_held hheld⟩
  | forget hnotes hheld hsub =>
      have hkept := h.keep hnotes
      exact ⟨⟨hkept.counters, hkept.claims.forget hsub, hkept.keyed⟩, Task.fresh_of_held hheld⟩
  | insert idx hnotes hheld =>
      have hkept := h.keep hnotes
      exact ⟨⟨hkept.counters, hkept.claims.insert idx, hkept.keyed⟩, Task.fresh_of_held hheld⟩
  | claim env pkt hidx =>
      exact ⟨⟨h.counters.keep fun _ => rfl, h.claims.claim hidx, h.keyed.keep (by simp)⟩, trivial⟩
  | respond env pending hnotes hnew =>
      have hkept := h.keep hnotes
      rw [← List.append_assoc]
      exact ⟨⟨hkept.counters.keep fun _ => rfl, hkept.claims.respond,
        hkept.keyed.keep (by simp)⟩, hnew⟩
  | read env pkt pending hnew =>
      rw [List.append_nil]
      exact ⟨h, hnew⟩
  | add env o host pending hheld =>
      have hcounters := h.counters.add host.sendCipher
      have hzero : host.counter = 0 := hfresh
      refine ⟨⟨?_, h.claims.keep rfl, h.keyed.add o host pending⟩, Task.fresh_of_held hheld⟩
      rw [hzero]
      exact hcounters.keep fun _ => rfl
  | take env pkt pkts hr =>
      exact ⟨⟨h.counters.take hr, h.claims.keep rfl, h.keyed.take hr _⟩, trivial⟩
  | encrypt env pkts hr hheader hheld =>
      exact ⟨⟨h.counters.keep fun _ => rfl, h.claims.keep rfl, h.keyed.encrypt hr hheader⟩,
        Task.fresh_of_held hheld⟩

/-- Nothing is drawn twice, as long as no counter wraps. -/
theorem Accounts.nodup_drawn (h : Accounts P l log)
    (hfew : ∀ r, (countersOf r log).length < 2 ^ 64) : (log.filterMap Note.drawn).Nodup := by
  rw [List.nodup_iff_count_le_one]
  rintro (⟨r, c⟩ | o)
  · have hcount : (log.filterMap Note.drawn).count (.counter r c)
        = (countersOf r log).count c := by
      rw [countersOf, List.count_filterMap, List.count_filterMap]
      refine List.countP_congr fun note _ => ?_
      cases note with
      | took r' c' =>
          by_cases heq : r' = r
          · simp [Note.drawn, Note.counterOf, heq]
          · simp [Note.drawn, Note.counterOf, heq]
      | _ => simp [Note.drawn, Note.counterOf]
    rw [hcount]
    exact List.nodup_iff_count_le_one.mp (h.counters.nodup (hfew r)) c
  · have hcount : (log.filterMap Note.drawn).count (.state o)
        = (log.filterMap Note.claim?).count o := by
      rw [List.count_filterMap, List.count_filterMap]
      refine List.countP_congr fun note _ => ?_
      cases note with
      | _ => simp [Note.drawn, Note.claim?]
    rw [hcount]
    exact List.nodup_iff_count_le_one.mp h.claims.nodup o

/-! ### Whole runs

A nonce under a key leads back to a counter of a session object, and the object to the handshake
state its key came from. -/

namespace Daemon

open Network

theorem accounts_run (x : Setup) (peers : List Certificate)
    (ts : List (Turn (Env P × Interface.Event))) :
    Accounts P ((start (x.node P peers)).run ts).shared.ledger
      ((start (x.node P peers)).run ts).log := by
  have hstart : Accounts P (start (x.node P peers)).shared.ledger [] := by
    have hledger : (start (x.node P peers)).shared.ledger = ⟨[], fun _ => none, 0, 0⟩ := by
      simp [start, Shared.ledger, Setup.node, HostMap.new, HandshakeManager.new]
    rw [hledger]
    exact ⟨counters_nil, claims_nil, keyed_nil⟩
  have hentry : ∀ e, Task.Fresh ((program P).entry e) := by
    rintro ⟨env, ev⟩
    cases ev with
    | _ => trivial
  have hholds : Program.Holds (fun s log => Accounts P s.ledger log) Task.Fresh
      ((start (x.node P peers)).run ts) :=
    Program.run_holds hentry (fun s log t hinv hfresh => hinv.step hfresh (Task.stepActs s t))
      ⟨hstart, by simp [start]⟩ ts
  exact hholds.shared

theorem balanced_run (I : Interface P) (ts : List (Turn (Env P × Interface.Event))) :
    Program.Balanced Note.drawn Note.used Task.held ((start I).run ts) := by
  have hentry : ∀ e, ((program P).entry e).held = none := by
    rintro ⟨env, ev⟩
    cases ev with
    | _ => rfl
  have hstep : ∀ (s : Shared P) (t : Task P),
      ((Task.step s t).2.1.filterMap Note.used : Multiset Token)
          + ((Task.step s t).2.2.held.toList : Multiset Token)
        ≤ (t.held.toList : Multiset Token)
          + ((Task.step s t).2.1.filterMap Note.drawn : Multiset Token) :=
    fun s t => Acts.balanced (Task.stepActs s t)
  have hstart : Program.Balanced Note.drawn Note.used Task.held (start I) := by
    simp [Program.Balanced, start]
  exact Program.run_balanced hentry hstep hstart ts

/-- What is used is used once. -/
theorem nodup_used_run (x : Setup) (peers : List Certificate)
    (ts : List (Turn (Env P × Interface.Event)))
    (hfew : ∀ r, (countersOf r ((start (x.node P peers)).run ts).log).length < 2 ^ 64) :
    (((start (x.node P peers)).run ts).log.filterMap Note.used).Nodup :=
  (balanced_run _ ts).nodup_used ((accounts_run x peers ts).nodup_drawn hfew)

end Daemon

theorem counterNonce_inj {c c' : UInt64} (h : counterNonce c = counterNonce c') : c = c' := by
  unfold counterNonce at h
  have hlow := List.append_inj_left h (by simp)
  have hnat := congrArg Bytes.leGet hlow
  have hsmall : ∀ n : UInt64, n.toNat % 256 ^ 8 = n.toNat := fun n => Nat.mod_eq_of_lt n.toNat_lt
  rw [Bytes.leGet_lePut, Bytes.leGet_lePut, hsmall, hsmall] at hnat
  exact UInt64.toNat_inj.mp hnat

/-- A completed Noise session: its handshake state, and the key this end seals with. -/
def Note.completion? : Note → Option (Origin × AEAD)
  | .added o _ h _ => some (o, h.sendCipher)
  | _ => none

/-- Distinct completed Noise sessions have distinct keys, and so have the two directions of one:
where two ends seal with one key, it is one end of one session. -/
def KeysApart {ι : Type*} (log : ι → List Note) : Prop :=
  ∀ i j, ∀ p ∈ (log i).filterMap Note.completion?, ∀ q ∈ (log j).filterMap Note.completion?,
    p.2 = q.2 → i = j ∧ p.1 = q.1

namespace Daemon

open Network

/-- The notes of a node over a run from its start. -/
def logOf (x : Setup) (peers : List Certificate) (ts : List (Turn (Env P × Interface.Event))) :
    List Note :=
  ((start (x.node P peers)).run ts).log

/-- What `Decrypt` makes of the datagram at the other end: it hands `Open` the nonce of the call. -/
theorem decrypt_wire {call : EncryptCall} {idx : UInt32}
    (hheader : call.header = (Header.mk headerVersion typeMessage 0 idx call.counter).bytes)
    (aead : AEAD) :
    decrypt P aead call.counter ((call.wire P).take headerLen) ((call.wire P).drop headerLen)
      = (P.gcmOpen aead.key call.nonce
          (P.gcmSeal call.aead.key call.nonce call.plaintext call.header)
          call.header).mapError ("noiseutil: decrypt: " ++ ·) := by
  have hlen : call.header.length = headerLen := by
    rw [hheader]
    exact Header.length_bytes _
  rw [EncryptCall.wire_eq, List.take_left' hlen, List.drop_left' hlen]
  rfl

/-- The session that a call seals for was added with the key it seals with. -/
theorem exists_added_of_encrypted {x : Setup} {peers : List Certificate}
    {ts : List (Turn (Env P × Interface.Event))} {a : Nat} {call : EncryptCall}
    (hcall : (logOf x peers ts)[a]? = some (.encrypted call)) :
    ∃ (b : Nat) (o : Origin) (h : HostInfo) (pending : List Bytes),
      (logOf x peers ts)[b]? = some (.added o call.session h pending) ∧
        h.sendCipher = call.aead := by
  have hkeyed := (accounts_run x peers ts).keyed
  obtain ⟨⟨c, hc⟩, -⟩ := hkeyed.encrypted call (List.mem_of_getElem? hcall)
  obtain ⟨o, h, pending, hmem, hkey⟩ := hkeyed.added _ c call.aead hc
  obtain ⟨b, hb⟩ := List.mem_iff_getElem?.mp hmem
  exact ⟨b, o, h, pending, hb, hkey⟩

/-- **No nonce is used twice.**  For any number of nodes, each with any calls in any interleaving:
two calls of `Encrypt` with one key and one nonce are the same call.  And each packet is sealed with
the nonce of its call and sent, and the counter the receiver finds in its header is one from which
`Decrypt` derives the same nonce, with which it opens what was sealed. -/
theorem nonce_unique {ι : Type*} (x : ι → Setup) (peers : ι → List Certificate)
    (ts : ι → List (Turn (Env P × Interface.Event)))
    (hkeys : KeysApart fun i => logOf (x i) (peers i) (ts i))
    (hfew : ∀ i r, (countersOf r (logOf (x i) (peers i) (ts i))).length < 2 ^ 64) :
    (∀ (i j : ι) (a b : Nat) (call call' : EncryptCall),
        (logOf (x i) (peers i) (ts i))[a]? = some (.encrypted call) →
        (logOf (x j) (peers j) (ts j))[b]? = some (.encrypted call') →
        call.aead.key = call'.aead.key → call.nonce = call'.nonce → i = j ∧ a = b) ∧
      ∀ (i : ι) (call : EncryptCall), .encrypted call ∈ logOf (x i) (peers i) (ts i) →
        call.nonce.length = 12 ∧
          call.wire P =
            call.header ++ P.gcmSeal call.aead.key call.nonce call.plaintext call.header ∧
          ∃ addr ok hdr, .effect (.writeTo (call.wire P) addr ok) ∈ logOf (x i) (peers i) (ts i) ∧
            Header.parse (call.wire P) = .ok hdr ∧ counterNonce hdr.messageCounter = call.nonce ∧
            ∀ aead, decrypt P aead hdr.messageCounter ((call.wire P).take headerLen)
                ((call.wire P).drop headerLen)
              = (P.gcmOpen aead.key call.nonce
                  (P.gcmSeal call.aead.key call.nonce call.plaintext call.header)
                  call.header).mapError ("noiseutil: decrypt: " ++ ·) := by
  refine ⟨?_, ?_⟩
  · intro i j a b call call' ha hb hkey hnonce
    obtain ⟨k, o, h, pending, hk, hcipher⟩ := exists_added_of_encrypted ha
    obtain ⟨k', o', h', pending', hk', hcipher'⟩ := exists_added_of_encrypted hb
    have haead : h.sendCipher = h'.sendCipher := by
      rw [hcipher, hcipher']
      exact congrArg AEAD.mk hkey
    obtain ⟨rfl, rfl⟩ : i = j ∧ o = o' :=
      hkeys i j (o, h.sendCipher) (List.mem_filterMap.mpr ⟨_, List.mem_of_getElem? hk, rfl⟩)
        (o', h'.sendCipher) (List.mem_filterMap.mpr ⟨_, List.mem_of_getElem? hk', rfl⟩) haead
    have hused := nodup_used_run (x i) (peers i) (ts i) (hfew i)
    -- one handshake state is one session
    obtain rfl : k = k' := Program.eq_of_nodup_filterMap hused hk hk' rfl rfl
    have hsession : call.session = call'.session := by
      have heq := Option.some.inj (hk.symm.trans hk')
      exact (Note.added.inj heq).2.1
    -- and within it one counter is one packet
    have hcounter : call.counter = call'.counter := counterNonce_inj hnonce
    refine ⟨rfl, Program.eq_of_nodup_filterMap hused ha hb rfl ?_⟩
    simp only [Note.used, hsession, hcounter]
  · intro i call hcall
    obtain ⟨-, ⟨idx, hheader⟩, addr, ok, hsent⟩ :=
      (accounts_run (x i) (peers i) (ts i)).keyed.encrypted call hcall
    refine ⟨by simp [EncryptCall.nonce, counterNonce], call.wire_eq P, addr, ok,
      ⟨headerVersion, typeMessage, 0, idx, call.counter⟩, hsent, ?_, rfl, decrypt_wire hheader⟩
    have htype : typeMessage < 16 := by decide
    rw [EncryptCall.wire, hheader]
    exact Header.parse_bytes_append _ rfl htype _

section Concrete

open Symbolic

/-- The datagrams a node handed to the socket. -/
def written (log : List Note) : List Bytes :=
  (effects log).filterMap fun
    | .writeTo data _ _ => some data
    | _ => none

/-- Node 1 starts a handshake with node 2 and queues a packet on it. -/
def calling : List (Turn (Env platform × Interface.Event)) :=
  .call (calmEnv 7 [9], .inside (tcpPacket 1 2 40000 22)) :: List.replicate 6 (.advance 0)

/-- The initiation that node 1 has written. -/
def hello : Bytes := (written (logOf setup1 [setup2.cert] calling)).headD []

/-- Node 2 answers, and sends a packet over the session. -/
def accepting : List (Turn (Env platform × Interface.Event)) :=
  .call (calmEnv 8 [5], .outside hello (nodeAddr 1)) :: List.replicate 5 (.advance 0)
    ++ .call (calmEnv 0 [], .inside (tcpPacket 2 1 22 40000)) :: List.replicate 5 (.advance 1)

/-- The response that node 2 has written. -/
def answer : Bytes := (written (logOf setup2 [setup1.cert] accepting)).headD []

/-- Node 1 gets the answer and sends the queued packet.  The next packet from the TUN device takes
its counter before that and is sealed after it. -/
def flushing : List (Turn (Env platform × Interface.Event)) :=
  calling ++ .call (calmEnv 0 [], .outside answer (nodeAddr 2)) ::
    .call (calmEnv 0 [], .inside (tcpPacket 1 2 40000 22)) :: List.replicate 5 (.advance 1)
    ++ [.advance 2, .advance 2, .advance 2, .advance 1, .advance 1, .advance 2]

/-- Node 1, and for `true` node 2. -/
def pair (i : Bool) : Setup := if i then setup2 else setup1

/-- Each node knows the certificate of the other. -/
def pairPeers (i : Bool) : List Certificate := if i then [setup1.cert] else [setup2.cert]

/-- The turns of the two nodes. -/
def pairTurns (i : Bool) : List (Turn (Env platform × Interface.Event)) :=
  if i then accepting else flushing

theorem nonce_unique_flush :
    (KeysApart fun i => logOf (pair i) (pairPeers i) (pairTurns i)) ∧
      countersOf 0 (logOf (pair false) (pairPeers false) (pairTurns false)) = [1, 2] ∧
      ∀ (i j : Bool) (a b : Nat) (call call' : EncryptCall),
        (logOf (pair i) (pairPeers i) (pairTurns i))[a]? = some (.encrypted call) →
        (logOf (pair j) (pairPeers j) (pairTurns j))[b]? = some (.encrypted call') →
        call.aead.key = call'.aead.key → call.nonce = call'.nonce → i = j ∧ a = b := by
  have hcomputed : (∀ i j, ∀ p ∈ (logOf (pair i) (pairPeers i) (pairTurns i)).filterMap
      Note.completion?, ∀ q ∈ (logOf (pair j) (pairPeers j) (pairTurns j)).filterMap
      Note.completion?, p.2 = q.2 → i = j ∧ p.1 = q.1) ∧
      (∀ i, (logOf (pair i) (pairPeers i) (pairTurns i)).length < 2 ^ 64) ∧
      countersOf 0 (logOf (pair false) (pairPeers false) (pairTurns false)) = [1, 2] := by
    decide +kernel
  obtain ⟨hkeys, hlog, hcounters⟩ := hcomputed
  have hfew : ∀ i r, (countersOf r (logOf (pair i) (pairPeers i) (pairTurns i))).length
      < 2 ^ 64 := fun i r => lt_of_le_of_lt (List.length_filterMap_le ..) (hlog i)
  exact ⟨hkeys, hcounters, (nonce_unique pair pairPeers pairTurns hkeys hfew).1⟩

end Concrete

end Daemon

end Neth
