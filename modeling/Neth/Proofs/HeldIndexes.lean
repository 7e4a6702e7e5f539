/-
Local indexes while calls are under way.

Between the steps of a call, a handshake can be in no table: the call that took it out of
the pending ones, or that has answered an initiation, has it in its variables until the
session is added.  An index in use is therefore that of a session, of a pending handshake,
or of what such a call has in hand.  If no draw hits an index in use, each of them stays in
one place, whatever the order of the steps.  A session that is added then displaces none,
and none goes but through a call that closes a tunnel.
-/
import Neth.Proofs.Stages

namespace Neth

open HandshakeManager

variable {P : Platform}

/-! ### What a call has in hand

The record of handshakes only grows, so what a call has in hand by its position stays what it was.
-/

/-- Nothing is forgotten of the handshakes ever started. -/
def HandshakeManager.Grows (m m' : HandshakeManager P) : Prop :=
  ∀ (r : Ref) ph, m.handshakes[r]? = some ph → m'.handshakes[r]? = some ph

namespace Task

/-- The index a call has in its variables: of the session it is about to add, or of the pending
handshake it has taken out. -/
def index (m : HandshakeManager P) : Task P → Option UInt32
  | .add _ _ h _ => some h.index
  | .readStage1 _ _ r => (m.handshakes[r]?).map (·.localIndex)
  | _ => none

/-- The index that the next step of a call draws, if it gets to that. -/
def draws : Task P → Option UInt32
  | .startHandshake env _ _ _ _ => env.index.toOption
  | .handleStage0 env _ _ => env.index.toOption
  | _ => none

/-- The pending handshake the call has taken out is one of the manager's. -/
def Known (m : HandshakeManager P) : Task P → Prop
  | .readStage1 _ _ r => ∃ ph, m.handshakes[r]? = some ph
  | _ => True

variable {m m' : HandshakeManager P} {t : Task P}

theorem Passive.index_eq (h : t.Passive) (m : HandshakeManager P) : t.index m = none := by
  cases t with
  | add | readStage1 => exact absurd h id
  | _ => rfl

theorem Passive.known (h : t.Passive) (m : HandshakeManager P) : t.Known m := by
  cases t with
  | readStage1 => exact absurd h id
  | _ => trivial

theorem Known.index_eq (h : t.Known m) (hgrows : m.Grows m') : t.index m' = t.index m := by
  cases t with
  | readStage1 env pkt r =>
      obtain ⟨ph, hr⟩ := h
      simp only [index, hr, hgrows r ph hr]
  | _ => rfl

theorem Known.mono (h : t.Known m) (hgrows : m.Grows m') : t.Known m' := by
  cases t with
  | readStage1 env pkt r =>
      obtain ⟨ph, hr⟩ := h
      exact ⟨ph, hgrows r ph hr⟩
  | _ => trivial

end Task

/-! ### Every index in one place

The tables change in a few ways only.  A step that takes something out, or changes nothing, is
`Apart.drop`; there is one lemma for each way of entering something or of moving it from a table to
a call and back.  All of them come from `Apart.set`. -/

theorem HandshakeManager.grows_insert (m : HandshakeManager P) (ph : PendingHandshake P) :
    m.Grows (m.insert ph) := by
  intro r ph' hr
  exact (List.getElem?_append_left (List.getElem?_eq_some_iff.mp hr).1).trans hr

/-- The record of handshakes only grows, and the certificate stays. -/
theorem Proceeds.grows {c c' : Tables P} {t t' : Task P} {notes : List Note}
    (h : Proceeds c t notes c' t') : c.handshakeMgr.Grows c'.handshakeMgr ∧
      c'.handshakeMgr.localCert = c.handshakeMgr.localCert := by
  cases h with
  | start _ _ _ _ => exact ⟨grows_insert _ _, rfl⟩
  | retry hretry =>
      obtain ⟨hsame, hcert, -, -⟩ := RetryStep.handshakes_eq hretry
      exact ⟨fun r ph hr => by rw [hsame]; exact hr, hcert⟩
  | _ => exact ⟨fun _ _ hr => hr, rfl⟩

namespace Tables

/-- The index is in use neither in the tables nor in a call. -/
def Free (c : Tables P) (tasks : List (Task P)) (idx : UInt32) : Prop :=
  c.hostmap.byIndex idx = none ∧ c.handshakeMgr.indexMap idx = none ∧
    ∀ t ∈ tasks, t.index c.handshakeMgr ≠ some idx

/-- Every index in use is in one place. -/
structure Apart (c : Tables P) (tasks : List (Task P)) : Prop where
  pending : ∀ idx (r : Ref), c.handshakeMgr.indexMap idx = some r →
    c.hostmap.byIndex idx = none ∧
      ∃ ph, c.handshakeMgr.handshakes[r]? = some ph ∧ ph.localIndex = idx
  known : ∀ t ∈ tasks, t.Known c.handshakeMgr
  held : ∀ t ∈ tasks, ∀ idx, t.index c.handshakeMgr = some idx →
    c.hostmap.byIndex idx = none ∧ c.handshakeMgr.indexMap idx = none
  once : ∀ (n n' : Nat) (t t' : Task P) (idx : UInt32), tasks[n]? = some t →
    tasks[n']? = some t' → t.index c.handshakeMgr = some idx →
    t'.index c.handshakeMgr = some idx → n = n'

variable {c c' : Tables P} {tasks : List (Task P)} {n : Nat} {t t' : Task P} {notes : List Note}

/-- A call that is started has nothing in hand. -/
theorem Apart.call (h : c.Apart tasks) (hknown : t.Known c.handshakeMgr)
    (hnone : t.index c.handshakeMgr = none) : c.Apart (tasks ++ [t]) := by
  have hcases : ∀ u ∈ tasks ++ [t], u ∈ tasks ∨ u = t := fun u hu =>
    (List.mem_append.mp hu).imp id List.mem_singleton.mp
  -- what has an index in hand was there before, and where it was
  have hold : ∀ {n : Nat} {u : Task P} {idx : UInt32}, (tasks ++ [t])[n]? = some u →
      u.index c.handshakeMgr = some idx → tasks[n]? = some u := by
    intro n u idx hn hidx
    by_cases hlt : n < tasks.length
    · rwa [List.getElem?_append_left hlt] at hn
    · rw [List.getElem?_append_right (Nat.not_lt.mp hlt)] at hn
      rw [List.mem_singleton.mp (List.mem_of_getElem? hn), hnone] at hidx
      cases hidx
  refine ⟨h.pending, ?_, ?_, ?_⟩
  · intro u hu
    rcases hcases u hu with hu | rfl
    · exact h.known u hu
    · exact hknown
  · intro u hu idx hidx
    rcases hcases u hu with hu | rfl
    · exact h.held u hu idx hidx
    · rw [hnone] at hidx
      cases hidx
  · intro i j u u' idx hi hj hidx hidx'
    exact h.once i j u u' idx (hold hi hidx) (hold hj hidx') hidx hidx'

/-- One call takes a step, to tables in which what the other calls have in hand is still theirs and
what this one has in hand then is its own. -/
theorem Apart.set (h : c.Apart tasks) (ht : tasks[n]? = some t)
    (hgrows : c.handshakeMgr.Grows c'.handshakeMgr)
    (hpending : ∀ idx (r : Ref), c'.handshakeMgr.indexMap idx = some r →
      c'.hostmap.byIndex idx = none ∧
        ∃ ph, c'.handshakeMgr.handshakes[r]? = some ph ∧ ph.localIndex = idx)
    (hknown : t'.Known c'.handshakeMgr)
    (hothers : ∀ idx (m : Nat) (u : Task P), m ≠ n → tasks[m]? = some u →
      u.index c.handshakeMgr = some idx →
      c'.hostmap.byIndex idx = none ∧ c'.handshakeMgr.indexMap idx = none)
    (hown : ∀ idx, t'.index c'.handshakeMgr = some idx →
      c'.hostmap.byIndex idx = none ∧ c'.handshakeMgr.indexMap idx = none ∧
        ∀ (m : Nat) (u : Task P), m ≠ n → tasks[m]? = some u →
          u.index c.handshakeMgr ≠ some idx) :
    c'.Apart (tasks.set n t') := by
  have hlt : n < tasks.length := (List.getElem?_eq_some_iff.mp ht).1
  -- a task of the new list is the one that took the step, or an old one in its place
  have hcases : ∀ (m : Nat) (u : Task P), (tasks.set n t')[m]? = some u →
      (m = n ∧ u = t') ∨ (m ≠ n ∧ tasks[m]? = some u ∧ u ∈ tasks ∧
        u.index c'.handshakeMgr = u.index c.handshakeMgr) := by
    intro m u hm
    by_cases heq : m = n
    · rw [heq, List.getElem?_set_self hlt] at hm
      exact .inl ⟨heq, (Option.some.inj hm).symm⟩
    · rw [List.getElem?_set_ne (Ne.symm heq)] at hm
      have hmem := List.mem_of_getElem? hm
      exact .inr ⟨heq, hm, hmem, (h.known u hmem).index_eq hgrows⟩
  refine ⟨hpending, ?_, ?_, ?_⟩
  · intro u hu
    obtain ⟨m, hm⟩ := List.mem_iff_getElem?.mp hu
    rcases hcases m u hm with ⟨-, rfl⟩ | ⟨-, -, hmem, -⟩
    · exact hknown
    · exact (h.known u hmem).mono hgrows
  · intro u hu idx hidx
    obtain ⟨m, hm⟩ := List.mem_iff_getElem?.mp hu
    rcases hcases m u hm with ⟨-, rfl⟩ | ⟨hne, hold, -, hsame⟩
    · exact ⟨(hown idx hidx).1, (hown idx hidx).2.1⟩
    · exact hothers idx m u hne hold (hsame ▸ hidx)
  · intro i j u u' idx hi hj hidx hidx'
    rcases hcases i u hi with ⟨rfl, rfl⟩ | ⟨hne, hold, -, hsame⟩
    · rcases hcases j u' hj with ⟨rfl, -⟩ | ⟨hne', hold', -, hsame'⟩
      · rfl
      · exact absurd (hsame' ▸ hidx') ((hown idx hidx).2.2 j u' hne' hold')
    · rcases hcases j u' hj with ⟨rfl, rfl⟩ | ⟨-, hold', -, hsame'⟩
      · exact absurd (hsame ▸ hidx) ((hown idx hidx').2.2 i u hne hold)
      · exact h.once i j u u' idx hold hold' (hsame ▸ hidx) (hsame' ▸ hidx')

/-- A step that drops what the call had in hand, if it had anything, and leaves the tables alone or
takes something out of them. -/
theorem Apart.drop (h : c.Apart tasks) (ht : tasks[n]? = some t)
    (hgrows : c.handshakeMgr.Grows c'.handshakeMgr)
    (hindexMap : ∀ idx r, c'.handshakeMgr.indexMap idx = some r →
      c.handshakeMgr.indexMap idx = some r)
    (hbyIndex : ∀ idx, c.hostmap.byIndex idx = none → c'.hostmap.byIndex idx = none)
    (hknown : t'.Known c'.handshakeMgr) (hnone : t'.index c'.handshakeMgr = none) :
    c'.Apart (tasks.set n t') := by
  have hsub : ∀ idx, c.handshakeMgr.indexMap idx = none →
      c'.handshakeMgr.indexMap idx = none := by
    intro idx hidx
    cases hidx' : c'.handshakeMgr.indexMap idx with
    | none => rfl
    | some r => exact absurd (hidx.symm.trans (hindexMap idx r hidx')) (by simp)
  refine h.set ht hgrows ?_ hknown ?_ ?_
  · intro idx r hidx
    obtain ⟨hby, ph, hr, hlocal⟩ := h.pending idx r (hindexMap idx r hidx)
    exact ⟨hbyIndex idx hby, ph, hgrows r ph hr, hlocal⟩
  · intro idx m u _ hu hidx
    obtain ⟨hby, hmap⟩ := h.held u (List.mem_of_getElem? hu) idx hidx
    exact ⟨hbyIndex idx hby, hsub idx hmap⟩
  · intro idx hidx
    rw [hnone] at hidx
    cases hidx

/-- A handshake is entered under an index that was free. -/
theorem Apart.start {ph : PendingHandshake P} (h : c.Apart tasks) (ht : tasks[n]? = some t)
    (hfree : c.Free tasks ph.localIndex)
    (hknown : t'.Known (c.handshakeMgr.insert ph))
    (hnone : t'.index (c.handshakeMgr.insert ph) = none) :
    Apart { c with handshakeMgr := c.handshakeMgr.insert ph } (tasks.set n t') := by
  obtain ⟨hby, -, hheld⟩ := hfree
  have hgrows := c.handshakeMgr.grows_insert ph
  refine h.set ht hgrows ?_ hknown ?_ ?_
  · intro idx r hidx
    simp only [HandshakeManager.insert, Function.update_apply] at hidx
    split at hidx
    · next heq =>
        obtain rfl := Option.some.inj hidx
        exact ⟨by rw [heq]; exact hby, ph, List.getElem?_concat_length, heq.symm⟩
    · obtain ⟨hby', ph', hr, hlocal⟩ := h.pending idx r hidx
      exact ⟨hby', ph', hgrows r ph' hr, hlocal⟩
  · intro idx m u _ hu hidx
    obtain ⟨hby', hmap⟩ := h.held u (List.mem_of_getElem? hu) idx hidx
    have hne : idx ≠ ph.localIndex := by
      rintro rfl
      exact hheld u (List.mem_of_getElem? hu) hidx
    exact ⟨hby', (Function.update_of_ne hne ..).trans hmap⟩
  · intro idx hidx
    rw [hnone] at hidx
    cases hidx

/-- The call comes to have an index in hand that was free. -/
theorem Apart.draw {idx : UInt32} (h : c.Apart tasks) (ht : tasks[n]? = some t)
    (hfree : c.Free tasks idx) (hknown : t'.Known c.handshakeMgr)
    (hidx : t'.index c.handshakeMgr = some idx) : c.Apart (tasks.set n t') := by
  obtain ⟨hby, hmap, hheld⟩ := hfree
  refine h.set ht (fun _ _ hr => hr) h.pending hknown
    (fun idx' m u _ hu hidx' => h.held u (List.mem_of_getElem? hu) idx' hidx') ?_
  intro idx' hidx'
  obtain rfl := Option.some.inj (hidx.symm.trans hidx')
  exact ⟨hby, hmap, fun m u _ hu => hheld u (List.mem_of_getElem? hu)⟩

/-- The call still has the same index in hand. -/
theorem Apart.keep {idx : UInt32} (h : c.Apart tasks) (ht : tasks[n]? = some t)
    (hold : t.index c.handshakeMgr = some idx) (hknown : t'.Known c.handshakeMgr)
    (hidx : t'.index c.handshakeMgr = some idx) : c.Apart (tasks.set n t') := by
  obtain ⟨hby, hmap⟩ := h.held t (List.mem_of_getElem? ht) idx hold
  refine h.set ht (fun _ _ hr => hr) h.pending hknown
    (fun idx' m u _ hu hidx' => h.held u (List.mem_of_getElem? hu) idx' hidx') ?_
  intro idx' hidx'
  obtain rfl := Option.some.inj (hidx.symm.trans hidx')
  exact ⟨hby, hmap, fun m u hne hu hu' => hne (h.once m n u t idx hu ht hu' hold)⟩

/-- A pending handshake goes from the table into the hands of the call. -/
theorem Apart.take {idx : UInt32} {r : Ref} {ph : PendingHandshake P} (h : c.Apart tasks)
    (ht : tasks[n]? = some t) (hidx : c.handshakeMgr.indexMap idx = some r)
    (hknown : t'.Known c.handshakeMgr) (hown : t'.index c.handshakeMgr = some idx) :
    Apart { c with handshakeMgr := c.handshakeMgr.take idx ph } (tasks.set n t') := by
  obtain ⟨hby, -⟩ := h.pending idx r hidx
  refine h.set ht (fun _ _ hr => hr) ?_ (hknown.mono fun _ _ hr => hr) ?_ ?_
  · intro idx' r' hidx'
    simp only [HandshakeManager.take, Function.update_apply] at hidx'
    split at hidx'
    · cases hidx'
    · exact h.pending idx' r' hidx'
  · intro idx' m u _ hu hidx'
    obtain ⟨hby', hmap⟩ := h.held u (List.mem_of_getElem? hu) idx' hidx'
    refine ⟨hby', ?_⟩
    simp only [HandshakeManager.take, Function.update_apply]
    split
    · rfl
    · exact hmap
  · intro idx' hidx'
    obtain rfl := Option.some.inj
      (hown.symm.trans ((hknown.index_eq fun _ _ hr => hr).symm.trans hidx'))
    refine ⟨hby, Function.update_self .., fun m u _ hu hu' => ?_⟩
    exact absurd (hidx.symm.trans (h.held u (List.mem_of_getElem? hu) _ hu').2) (by simp)

/-- A session goes from the hands of the call into the table. -/
theorem Apart.add {host : HostInfo} (h : c.Apart tasks) (ht : tasks[n]? = some t)
    (hidx : t.index c.handshakeMgr = some host.index) (hknown : t'.Known c.handshakeMgr)
    (hnone : t'.index c.handshakeMgr = none) :
    Apart { c with hostmap := c.hostmap.add host.core } (tasks.set n t') := by
  -- nothing else is under the index that the session gets
  have hbyIndex : ∀ idx, idx ≠ host.index → c.hostmap.byIndex idx = none →
      (c.hostmap.add host.core).byIndex idx = none := fun idx hne hby =>
    (Function.update_of_ne hne ..).trans hby
  refine h.set ht (fun _ _ hr => hr) ?_ hknown ?_ ?_
  · intro idx r hidx'
    obtain ⟨hby, hph⟩ := h.pending idx r hidx'
    refine ⟨hbyIndex idx ?_ hby, hph⟩
    rintro rfl
    have hfree := (h.held t (List.mem_of_getElem? ht) _ hidx).2
    exact absurd (hidx'.symm.trans hfree) (by simp)
  · intro idx m u hne hu hidx'
    obtain ⟨hby, hmap⟩ := h.held u (List.mem_of_getElem? hu) idx hidx'
    refine ⟨hbyIndex idx ?_ hby, hmap⟩
    rintro rfl
    exact hne (h.once m n u t _ hu ht hidx' hidx)
  · intro idx hidx'
    rw [hnone] at hidx'
    cases hidx'

/-- **No step brings an index into two places**, if what is drawn is free. -/
theorem Apart.step (h : c.Apart tasks) (ht : tasks[n]? = some t)
    (hfresh : ∀ idx, t.draws = some idx → c.Free tasks idx)
    (hproceeds : Proceeds c t notes c' t') : c'.Apart (tasks.set n t') := by
  have hgrows := hproceeds.grows.1
  cases hproceeds with
  | quiet _ _ hpassive =>
      exact h.drop ht hgrows (fun _ _ hidx => hidx) (fun _ hidx => hidx) (hpassive.known _)
        (hpassive.index_eq _)
  | initiation _ | response _ | close _ _ _ | refuse _ =>
      exact h.drop ht hgrows (fun _ _ hidx => hidx) (fun _ hidx => hidx) trivial rfl
  | remove ip =>
      exact h.drop ht hgrows (fun _ _ hidx => hidx) (fun _ hidx => HostMap.byIndex_remove ip hidx)
        trivial rfl
  | retry hretry =>
      exact h.drop ht hgrows (RetryStep.indexMap_eq hretry) (fun _ hidx => hidx) trivial rfl
  | start hnew _ _ hpassive =>
      obtain ⟨idx, hs, w, wire, hidx, -, -, -, rfl⟩ := newPending_ok.mp hnew
      have hfree := hfresh idx (by simp [Task.draws, hidx, Except.toOption])
      exact h.start ht hfree (hpassive.known _) (hpassive.index_eq _)
  | answer k hread =>
      obtain ⟨s, idx, wire, cs, ciphers, -, hbuild, -, -, rfl⟩ :=
        handleStage0_ok.mp (congrArg Prod.snd hread)
      obtain ⟨w, hidx, -⟩ := buildStage1_ok.mp hbuild
      have hfree := hfresh idx (by simp [Task.draws, hidx, Except.toOption])
      exact h.draw ht hfree trivial rfl
  | claim hparse hidx hr =>
      obtain ⟨-, ph, hr', hlocal⟩ := h.pending _ _ hidx
      refine h.take ht hidx ⟨_, hr⟩ ?_
      rw [Task.index, hr', Option.map_some, hlocal]
  | read pending hr _ =>
      refine h.keep ht ?_ trivial rfl
      rw [Task.index, hr, Option.map_some]
      rfl
  | add env o r host pending => exact h.add ht rfl trivial rfl

/-! ### Sessions that stay

A session is added under an index that is free by then, so it takes no other one's place. -/

/-- The session is found under its index. -/
def Has (c : Tables P) (g : HostInfo) : Prop :=
  ∃ r, c.hostmap.getByIndex g.index = some (r, g.core)

/-- Every session is still found under its index. -/
def Retains (c c' : Tables P) : Prop :=
  ∀ idx r g, c.hostmap.getByIndex idx = some (r, g) → c'.hostmap.getByIndex idx = some (r, g)

theorem Has.mono {g : HostInfo} (h : c.Has g) (hretains : c.Retains c') : c'.Has g := by
  obtain ⟨r, hget⟩ := h
  exact ⟨r, hretains _ r _ hget⟩

theorem has_add (c : Tables P) (host : HostInfo) :
    ({ c with hostmap := c.hostmap.add host.core } : Tables P).Has host :=
  ⟨c.hostmap.hosts.length, HostMap.getByIndex_eq_some.mpr
    ⟨Function.update_self .., by simp [HostMap.add]⟩⟩

/-- A session under a free index is in nobody's way. -/
theorem retains_add {host : HostInfo} (hfree : c.hostmap.byIndex host.index = none) :
    c.Retains { c with hostmap := c.hostmap.add host.core } := by
  intro idx r g hget
  obtain ⟨hidx, hr⟩ := HostMap.getByIndex_eq_some.mp hget
  have hne : idx ≠ host.index := by
    rintro rfl
    rw [hfree] at hidx
    cases hidx
  refine HostMap.getByIndex_eq_some.mpr ⟨(Function.update_of_ne hne ..).trans hidx, ?_⟩
  exact (List.getElem?_append_left (List.getElem?_eq_some_iff.mp hr).1).trans hr

/-- Nothing but a call that closes a tunnel takes a session away. -/
theorem Apart.retains (h : c.Apart tasks) (ht : tasks[n]? = some t)
    (hopen : ∀ ip, t ≠ .remove ip) (hproceeds : Proceeds c t notes c' t') : c.Retains c' := by
  cases hproceeds with
  | add env o r host pending =>
      exact retains_add (h.held _ (List.mem_of_getElem? ht) _ rfl).1
  | remove ip => exact absurd rfl (hopen ip)
  | _ => exact fun _ _ _ hget => hget

end Tables

end Neth
