/-
When the first datagram of a handshake is sent, and when no more.

A handshake is sent when it is started and again by ticks of the retry loop.  Every
object of the manager is followed on its own: `sent` names the handshakes a call hands
to `WriteTo`, and the log of a run has for each of them the times at which it was sent.
One turn of the loop, and every other call, is a chain of the steps of `TimerStep`, and
from these the timetable follows: it has as many entries as `attempts` says, each comes
after the wait that the one before it asks for, and a handshake that is in neither map
gets no more of them.
-/
import Neth.Proofs.Pending

namespace Neth

variable {P : Platform}

/-! ### Timetables -/

/-- The wait after transmission number `k`. -/
def retryWait (k : Nat) : Time := if k = 1 then retryBase else HandshakeManager.retryDelay k

/-- Transmission number `k + 2` comes after transmission number `k + 1` and the wait. -/
def Spaced (ts : List Time) : Prop :=
  ∀ k t t', ts[k]? = some t → ts[k + 1]? = some t' → t + retryWait (k + 1) ≤ t'

theorem spaced_singleton (t : Time) : Spaced [t] := by
  intro k t1 t2 _ h2
  simp at h2

theorem Spaced.concat {ts : List Time} (h : Spaced ts) {t t' : Time} (hlast : ts.getLast? = some t)
    (hwait : t + retryWait ts.length ≤ t') : Spaced (ts ++ [t']) := by
  intro k t1 t2 h1 h2
  have hk : k + 1 < (ts ++ [t']).length := (List.getElem?_eq_some_iff.mp h2).1
  rw [List.length_append, List.length_singleton] at hk
  have hlt : k < ts.length := by omega
  rw [List.getElem?_append_left hlt] at h1
  by_cases hnext : k + 1 < ts.length
  · rw [List.getElem?_append_left hnext] at h2
    exact h k t1 t2 h1 h2
  · -- the new entry, behind the last of the old ones
    have hlen : ts.length = k + 1 := by omega
    rw [List.getLast?_eq_getElem?, hlen, Nat.add_sub_cancel, h1] at hlast
    rw [← hlen, List.getElem?_concat_length] at h2
    rw [← Option.some.inj h2, Option.some.inj hlast, ← hlen]
    exact hwait

/-- The times at which a handshake was sent. -/
def times (r : Ref) (log : List (Ref × Time)) : List Time :=
  log.filterMap fun s => if s.1 = r then some s.2 else none

theorem times_append (r : Ref) (log log' : List (Ref × Time)) :
    times r (log ++ log') = times r log ++ times r log' := List.filterMap_append

theorem times_singleton_self (r : Ref) (t : Time) : times r [(r, t)] = [t] := by
  simp [times]

theorem times_singleton_of_ne {r r' : Ref} (h : r' ≠ r) (t : Time) : times r [(r', t)] = [] := by
  simp [times, h]

/-- The timetable of a handshake agrees with its fields. -/
structure Timed (ph : PendingHandshake P) (ts : List Time) : Prop where
  count : ts.length = ph.attempts
  bound : ph.attempts ≤ maxHandshakeAttempts
  spaced : Spaced ts
  next : ∃ t, ts.getLast? = some t ∧ ph.nextRetry = t + retryWait ph.attempts

/-- What is handed to `WriteTo`, whether or not that succeeds. -/
def Effect.datagram? : Effect → Option (Bytes × UDPAddr)
  | .writeTo data addr _ => some (data, addr)
  | _ => none

namespace HandshakeManager

/-! ### What a call sends -/

/-- The handshake that one turn of the retry loop sends. -/
def resent (env : Env P) (m : HandshakeManager P) (v : Addr) : List (Ref × Time) :=
  match m.pending v with
  | none => []
  | some r =>
      match m.handshakes[r]? with
      | none => []
      | some ph =>
          if env.now < ph.nextRetry then []
          else if ph.attempts ≥ maxHandshakeAttempts then []
          else [(r, env.now)]

/-- One turn of the loop of `retryPending`, with the handshakes sent again in it. -/
def retryStep (env : Env P) (m : HandshakeManager P) (v : Addr) :
    HandshakeManager P × List (Ref × Time) :=
  ((m.retryOne env v).1, m.resent env v)

/-- The handshake that `StartHandshake` sends, the next object of the manager. -/
def startSent (m : HandshakeManager P) (env : Env P) (v : Addr) (addr : UDPAddr)
    (cert : Certificate) : List (Ref × Time) :=
  match m.pending v with
  | some _ => []
  | none =>
      match m.newPending env v addr cert with
      | .error _ => []
      | .ok _ => [(m.handshakes.length, env.now)]

/-- The handshakes whose first datagram a call hands to `WriteTo`, and when. -/
def sent (m : HandshakeManager P) : Call P → List (Ref × Time)
  | .startHandshake env v addr cert => m.startSent env v addr cert
  | .retryPending env => (Trace.run (retryStep env) m env.order).2.flatten
  | _ => []

/-- What `StartHandshake` and the retry loop write. -/
def stage0Writes (m : HandshakeManager P) : Call P → List Effect
  | .startHandshake env v addr cert => (m.startHandshake env v addr cert).2.1
  | .retryPending env => (m.retryPending env).2
  | _ => []

/-- A call, with the handshakes whose initiation it sends. -/
def transmit (m : HandshakeManager P) (c : Call P) : HandshakeManager P × List (Ref × Time) :=
  (m.call c, m.sent c)

/-- The log of a run. -/
def transmissions (m : HandshakeManager P) (cs : List (Call P)) : List (Ref × Time) :=
  (Trace.run transmit m cs).2.flatten

/-- The loop of `retryPending` as a run over the keys. -/
theorem retryPending_eq_run (m : HandshakeManager P) (env : Env P) :
    m.retryPending env = ((Trace.run (retryOne env) m env.order).1,
      (Trace.run (retryOne env) m env.order).2.flatten) := by
  have hloop : ∀ (order : List Addr) (m : HandshakeManager P) (effs : List Effect),
      order.foldl (fun acc v => ((acc.1.retryOne env v).1, acc.2 ++ (acc.1.retryOne env v).2))
        (m, effs)
        = ((Trace.run (retryOne env) m order).1,
          effs ++ (Trace.run (retryOne env) m order).2.flatten) := by
    intro order
    induction order with
    | nil => intro m effs; simp
    | cons v order ih =>
        intro m effs
        rw [List.foldl_cons, ih, Trace.run_cons]
        simp
  exact hloop env.order m []

theorem retryPending_fst (m : HandshakeManager P) (env : Env P) :
    (m.retryPending env).1 = (Trace.run (retryStep env) m env.order).1 := by
  rw [retryPending_eq_run]
  exact Trace.run_fst_congr (retryOne env) (retryStep env) (fun _ _ => rfl) env.order m

/-! ### Steps

What a call does to the timers is a sequence of small steps, each about one handshake. -/

/-- One turn of the retry loop that sends. -/
def resend (m : HandshakeManager P) (r : Ref) (ph : PendingHandshake P) (now : Time) :
    HandshakeManager P :=
  { m with handshakes := m.handshakes.set r { ph with
      attempts := ph.attempts + 1
      nextRetry := now + retryDelay (ph.attempts + 1) } }

/-- One turn of the retry loop that gives up. -/
def giveUp (m : HandshakeManager P) (v : Addr) (ph : PendingHandshake P) : HandshakeManager P :=
  { m with
    pending := Function.update m.pending v none
    indexMap := Function.update m.indexMap ph.localIndex none }

/-- What can happen to the timers, with what is sent. -/
inductive TimerStep : HandshakeManager P → List (Ref × Time) → HandshakeManager P → Prop
  | idle (m : HandshakeManager P) : TimerStep m [] m
  | queue (m : HandshakeManager P) (v : Addr) (pkt : Bytes) : TimerStep m [] (m.queuePacket v pkt)
  | start {m : HandshakeManager P} {env : Env P} {v : Addr} {addr : UDPAddr} {cert : Certificate}
      {ph : PendingHandshake P} (hidle : m.pending v = none)
      (hnew : m.newPending env v addr cert = .ok ph) :
      TimerStep m [(m.handshakes.length, env.now)] (m.insert ph)
  | resend {m : HandshakeManager P} {v : Addr} {r : Ref} {ph : PendingHandshake P} {now : Time}
      (hpending : m.pending v = some r) (hr : m.handshakes[r]? = some ph)
      (hdue : ph.nextRetry ≤ now) (hleft : ph.attempts < maxHandshakeAttempts) :
      TimerStep m [(r, now)] (m.resend r ph now)
  | giveUp {m : HandshakeManager P} {v : Addr} {r : Ref} {ph : PendingHandshake P}
      (hpending : m.pending v = some r) (hr : m.handshakes[r]? = some ph) :
      TimerStep m [] (m.giveUp v ph)
  | take {m : HandshakeManager P} {idx : UInt32} {r : Ref} {ph : PendingHandshake P}
      (hidx : m.indexMap idx = some r) (hr : m.handshakes[r]? = some ph) :
      TimerStep m [] (m.take idx ph)

theorem retryOne_timerStep (env : Env P) (m : HandshakeManager P) (v : Addr) :
    TimerStep m (m.resent env v) (m.retryOne env v).1 := by
  unfold resent retryOne
  cases hpending : m.pending v with
  | none => exact .idle m
  | some r =>
      cases hr : m.handshakes[r]? with
      | none =>
          simp only [hr]
          exact .idle m
      | some ph =>
          simp only [hr]
          by_cases hearly : env.now < ph.nextRetry
          · rw [if_pos hearly, if_pos hearly]
            exact .idle m
          · rw [if_neg hearly, if_neg hearly]
            by_cases hspent : ph.attempts ≥ maxHandshakeAttempts
            · rw [if_pos hspent, if_pos hspent]
              exact .giveUp hpending hr
            · rw [if_neg hspent, if_neg hspent]
              exact .resend hpending hr (Nat.le_of_not_lt hearly) (Nat.lt_of_not_le hspent)

/-- The loop of `retryPending` is a chain of steps. -/
theorem run_retryStep_executes (env : Env P) (order : List Addr) (m : HandshakeManager P) :
    Trace.Executes TimerStep m (Trace.run (retryStep env) m order).2.flatten
      (Trace.run (retryStep env) m order).1 := by
  have hturn : ∀ m v, Trace.Executes TimerStep (id m) (retryStep env m v).2
      (id (retryStep env m v).1) := fun m v => .single (retryOne_timerStep env m v)
  exact Trace.executes_run order (fun m v _ => hturn m v) m

/-- Every call is a chain of steps. -/
theorem call_executes (m : HandshakeManager P) (c : Call P) :
    Trace.Executes TimerStep m (m.sent c) (m.call c) := by
  cases c with
  | startHandshake env v addr cert =>
      show Trace.Executes TimerStep m (m.startSent env v addr cert)
        (m.startHandshake env v addr cert).1
      unfold startSent startHandshake
      cases hpending : m.pending v with
      | some r => exact .single (.idle m)
      | none =>
          cases hnew : m.newPending env v addr cert with
          | error e => exact .single (.idle m)
          | ok ph => exact .single (.start hpending hnew)
  | queuePacket v pkt => exact .single (.queue m v pkt)
  | handleStage0 env pkt src => exact .single (.idle m)
  | handleStage1 now pkt =>
      show Trace.Executes TimerStep m [] (m.handleStage1 now pkt).1
      by_cases hnames : ∃ idx ph, m.Names pkt idx ph
      · obtain ⟨idx, ph, hnames⟩ := hnames
        rw [handleStage1_of_names now hnames]
        obtain ⟨-, -, -, hget⟩ := hnames
        obtain ⟨r, hidx, hr⟩ := Option.bind_eq_some_iff.mp hget
        exact .single (.take hidx hr)
      · obtain ⟨err, hres⟩ := handleStage1_of_not_names now fun idx ph hn => hnames ⟨idx, ph, hn⟩
        rw [hres]
        exact .single (.idle m)
  | retryPending env =>
      show Trace.Executes TimerStep m _ (m.retryPending env).1
      rw [retryPending_fst]
      exact run_retryStep_executes env env.order m

theorem run_eq (m : HandshakeManager P) (cs : List (Call P)) :
    m.run cs = (Trace.run transmit m cs).1 :=
  Trace.run_fst_congr step transmit (fun _ _ => rfl) cs m

theorem run_executes (m : HandshakeManager P) (cs : List (Call P)) :
    Trace.Executes TimerStep m (m.transmissions cs) (m.run cs) := by
  have hcall : ∀ (m : HandshakeManager P) c,
      Trace.Executes TimerStep (id m) (m.transmit c).2 (id (m.transmit c).1) := call_executes
  rw [run_eq]
  exact Trace.executes_run cs (fun m c _ => hcall m c) m

/-! ### The timetables of a run

The times at which a handshake was sent, gathered over the run, are spaced as the delays demand. -/

/-- The log has the timetable of every handshake, and of nothing else. -/
structure Scheduled (m : HandshakeManager P) (log : List (Ref × Time)) : Prop where
  timed : ∀ r ph, m.handshakes[r]? = some ph → Timed ph (times r log)
  unused : ∀ r, m.handshakes.length ≤ r → times r log = []

variable {m m' : HandshakeManager P} {log l : List (Ref × Time)} {r : Ref}
  {ph : PendingHandshake P}

/-- A handshake that has just been started. -/
theorem timed_newPending {env : Env P} {v : Addr} {addr : UDPAddr} {cert : Certificate}
    (hnew : m.newPending env v addr cert = .ok ph) : Timed ph [env.now] := by
  obtain ⟨idx, hs, w, wire, -, -, -, -, rfl⟩ := newPending_ok.mp hnew
  refine ⟨rfl, show 1 ≤ maxHandshakeAttempts by decide, spaced_singleton _, env.now, rfl, ?_⟩
  rw [retryWait, if_pos rfl]

/-- A handshake that is sent again. -/
theorem timed_resend {ts : List Time} (h : Timed ph ts) {now : Time} (hdue : ph.nextRetry ≤ now)
    (hleft : ph.attempts < maxHandshakeAttempts) :
    Timed { ph with attempts := ph.attempts + 1, nextRetry := now + retryDelay (ph.attempts + 1) }
      (ts ++ [now]) := by
  obtain ⟨t, hlast, hnext⟩ := h.next
  have hpositive : ph.attempts ≠ 0 := by
    rw [← h.count]
    intro hzero
    rw [List.eq_nil_of_length_eq_zero hzero] at hlast
    cases hlast
  have hwait : retryWait (ph.attempts + 1) = retryDelay (ph.attempts + 1) := by
    rw [retryWait, if_neg (by omega)]
  refine ⟨by simp [h.count], hleft, h.spaced.concat hlast ?_, now, by simp, by rw [hwait]⟩
  rw [h.count, ← hnext]
  exact hdue

/-- Queueing changes nothing but a queue. -/
theorem of_queuePacket {v : Addr} {pkt : Bytes} {ph' : PendingHandshake P}
    (h : (m.queuePacket v pkt).handshakes[r]? = some ph') :
    ∃ ph queue, m.handshakes[r]? = some ph ∧ ph' = { ph with pendingPackets := queue } := by
  unfold queuePacket at h
  cases hpending : m.pending v with
  | none =>
      rw [hpending] at h
      exact ⟨ph', ph'.pendingPackets, h, rfl⟩
  | some r' =>
      rw [hpending] at h
      simp only [List.getElem?_modify] at h
      obtain ⟨ph, hr, heq⟩ := Option.map_eq_some_iff.mp h
      by_cases hrr : r' = r
      · rw [if_pos hrr] at heq
        exact ⟨ph, _, hr, heq.symm⟩
      · rw [if_neg hrr] at heq
        exact ⟨ph, ph.pendingPackets, hr, heq.symm⟩

/-- After `insert` there is one more object. -/
theorem getElem?_insert (r : Ref) : (m.insert ph).handshakes[r]?
    = if r = m.handshakes.length then some ph else m.handshakes[r]? := by
  show (m.handshakes ++ [ph])[r]? = _
  by_cases h : r = m.handshakes.length
  · rw [if_pos h, h, List.getElem?_concat_length]
  · rw [if_neg h, List.getElem?_append]
    by_cases hlt : r < m.handshakes.length
    · rw [if_pos hlt]
    · have hpast : m.handshakes.length < r := Nat.lt_of_le_of_ne (Nat.le_of_not_lt hlt) (Ne.symm h)
      rw [if_neg hlt, List.getElem?_eq_none (Nat.le_of_lt hpast),
        List.getElem?_eq_none (Nat.sub_pos_of_lt hpast)]

theorem getElem?_resend (hr : m.handshakes[r]? = some ph) (now : Time) (r' : Ref) :
    (m.resend r ph now).handshakes[r']? = if r' = r then some { ph with
        attempts := ph.attempts + 1
        nextRetry := now + retryDelay (ph.attempts + 1) } else m.handshakes[r']? := by
  have hlt : r < m.handshakes.length := (List.getElem?_eq_some_iff.mp hr).1
  unfold resend
  by_cases h : r' = r
  · rw [if_pos h, h, List.getElem?_set_self hlt]
  · rw [if_neg h, List.getElem?_set_ne (Ne.symm h)]

/-- A step that sends nothing and leaves the timers alone. -/
theorem Scheduled.quiet (h : Scheduled m log)
    (htimers : ∀ (r : Ref) (ph' : PendingHandshake P), m'.handshakes[r]? = some ph' →
      ∃ ph queue, m.handshakes[r]? = some ph ∧ ph' = { ph with pendingPackets := queue })
    (hlength : m'.handshakes.length = m.handshakes.length) : Scheduled m' (log ++ []) := by
  rw [List.append_nil]
  refine ⟨?_, ?_⟩
  · intro r ph' hr
    obtain ⟨ph, queue, hph, rfl⟩ := htimers r ph' hr
    have hold := h.timed r ph hph
    exact ⟨hold.count, hold.bound, hold.spaced, hold.next⟩
  · intro r hr
    exact h.unused r (by rw [← hlength]; exact hr)

theorem Scheduled.step (h : Scheduled m log) (hstep : TimerStep m l m') :
    Scheduled m' (log ++ l) := by
  have hsame : ∀ {m' : HandshakeManager P}, m'.handshakes = m.handshakes →
      Scheduled m' (log ++ []) := by
    intro m' heq
    refine h.quiet ?_ (by rw [heq])
    intro r ph hr
    rw [heq] at hr
    exact ⟨ph, ph.pendingPackets, hr, rfl⟩
  cases hstep with
  | idle => exact hsame rfl
  | queue v pkt => exact h.quiet (fun r ph' => of_queuePacket) (m.queuePacket_maps v pkt).2
  | @start env v addr cert ph hidle hnew =>
      refine ⟨?_, ?_⟩
      · intro r ph' hr
        rw [getElem?_insert] at hr
        rw [times_append]
        by_cases hnext : r = m.handshakes.length
        · rw [if_pos hnext] at hr
          rw [hnext, h.unused _ (Nat.le_refl _), times_singleton_self,
            ← Option.some.inj hr]
          exact timed_newPending hnew
        · rw [if_neg hnext] at hr
          rw [times_singleton_of_ne (Ne.symm hnext), List.append_nil]
          exact h.timed r ph' hr
      · intro r hr
        have hlt : m.handshakes.length + 1 ≤ r := by simpa [insert] using hr
        rw [times_append, h.unused r (Nat.le_of_lt hlt), times_singleton_of_ne (Nat.ne_of_lt hlt)]
        rfl
  | @resend v r ph now hpending hr hdue hleft =>
      refine ⟨?_, ?_⟩
      · intro r' ph' hr'
        rw [getElem?_resend hr] at hr'
        rw [times_append]
        by_cases hrr : r' = r
        · rw [if_pos hrr] at hr'
          rw [hrr, times_singleton_self, ← Option.some.inj hr']
          exact timed_resend (h.timed r ph hr) hdue hleft
        · rw [if_neg hrr] at hr'
          rw [times_singleton_of_ne (Ne.symm hrr), List.append_nil]
          exact h.timed r' ph' hr'
      · intro r' hr'
        have hle : m.handshakes.length ≤ r' := by simpa [resend] using hr'
        have hlt : r < m.handshakes.length := (List.getElem?_eq_some_iff.mp hr).1
        have hne : r ≠ r' := Nat.ne_of_lt (Nat.lt_of_lt_of_le hlt hle)
        rw [times_append, h.unused r' hle, times_singleton_of_ne hne]
        rfl
  | giveUp hpending hr => exact hsame rfl
  | take hidx hr => exact hsame rfl

theorem scheduled_run (localCert : Certificate) (localKey : DHKey) (caPool : List Certificate)
    (cs : List (Call P)) :
    Scheduled (run (new localCert localKey caPool) cs)
      (transmissions (new localCert localKey caPool) cs) := by
  have hnew : Scheduled (new localCert localKey caPool : HandshakeManager P) [] :=
    ⟨fun r ph hr => (nomatch hr), fun r _ => rfl⟩
  exact (run_executes _ cs).invariant (fun _ _ _ _ h hstep => h.step hstep) [] hnew

/-! ### The maps of a run -/

open TwoKeys

/-- No index has to be fresh for this: an entry that a new handshake overwrites leaves its owner
pending. -/
theorem Anchored.step (h : m.core.Anchored) (hstep : TimerStep m l m') : m'.core.Anchored := by
  cases hstep with
  | idle => exact h
  | queue v pkt =>
      rw [core_queuePacket]
      exact h
  | @start env v addr cert ph hidle hnew =>
      obtain ⟨idx, hs, w, wire, -, -, -, -, rfl⟩ := newPending_ok.mp hnew
      rw [core_insert]
      exact Table.Anchored.insert h hidle
  | @resend v r ph now hpending hr hdue hleft =>
      unfold HandshakeManager.resend
      rw [core_set hr]
      · exact h
      · rfl
  | @giveUp v r ph hpending hr =>
      have hcore : m.core.handshakes[r]? = some ph.core := by simp [core, hr]
      have hdrop := Table.Anchored.drop h hpending hcore
      exact hdrop
  | @take idx r ph hidx hr =>
      obtain ⟨ph', hr', rfl, hpending⟩ := h.second idx r hidx
      have hcore : m.core.handshakes[r]? = some ph.core := by simp [core, hr]
      obtain rfl : ph.core = ph' := Option.some.inj (hcore.symm.trans hr')
      exact Table.Anchored.drop h hpending hcore

theorem Anchored.executes (h : m.core.Anchored) (hexec : Trace.Executes TimerStep m l m') :
    m'.core.Anchored := by
  have hkeep : ∀ (m m' : HandshakeManager P) l (past : List (Ref × Time)), m.core.Anchored →
      TimerStep m l m' → m'.core.Anchored := fun m m' l past h hstep => Anchored.step h hstep
  exact hexec.invariant hkeep [] h

theorem anchored_run (localCert : Certificate) (localKey : DHKey) (caPool : List Certificate)
    (cs : List (Call P)) :
    (run (new localCert localKey caPool) cs : HandshakeManager P).core.Anchored := by
  have hnew : (new localCert localKey caPool : HandshakeManager P).core.Anchored :=
    Table.anchored_empty
  exact Anchored.executes hnew (run_executes (new localCert localKey caPool) cs)

/-- The handshake is in neither map. -/
def Gone (m : HandshakeManager P) (r : Ref) : Prop := m.table.Gone r

/-- A handshake that was taken out is not entered again, and only pending ones are sent. -/
theorem Gone.step (h : m.Gone r) (hr : r < m.handshakes.length) (hstep : TimerStep m l m') :
    m'.Gone r ∧ r < m'.handshakes.length ∧ times r l = [] := by
  cases hstep with
  | idle => exact ⟨h, hr, rfl⟩
  | queue v pkt =>
      refine ⟨?_, by rw [(m.queuePacket_maps v pkt).2]; exact hr, rfl⟩
      show (m.queuePacket v pkt).core.Gone r
      rw [core_queuePacket]
      exact h
  | @start env v addr cert ph hidle hnew =>
      refine ⟨Table.Gone.insert h hr ph, ?_, times_singleton_of_ne (Nat.ne_of_gt hr) _⟩
      simp only [insert, List.length_append, List.length_singleton]
      exact Nat.lt_succ_of_lt hr
  | @resend v r' ph now hpending hr' hdue hleft =>
      refine ⟨h, by simpa [HandshakeManager.resend] using hr, times_singleton_of_ne ?_ _⟩
      intro heq
      rw [heq] at hpending
      exact h.1 v hpending
  | giveUp hpending hr' => exact ⟨Table.Gone.drop h _ _, hr, rfl⟩
  | take hidx hr' => exact ⟨Table.Gone.drop h _ _, hr, rfl⟩

theorem Gone.executes (h : m.Gone r) (hr : r < m.handshakes.length)
    (hexec : Trace.Executes TimerStep m l m') :
    m'.Gone r ∧ r < m'.handshakes.length ∧ times r l = [] := by
  have hkeep : ∀ (m m' : HandshakeManager P) l past,
      (m.Gone r ∧ r < m.handshakes.length ∧ times r past = []) → TimerStep m l m' →
      m'.Gone r ∧ r < m'.handshakes.length ∧ times r (past ++ l) = [] := by
    intro m m' l past hm hstep
    obtain ⟨h, hr, hpast⟩ := hm
    obtain ⟨h', hr', hnone⟩ := h.step hr hstep
    exact ⟨h', hr', by rw [times_append, hpast, hnone, List.append_nil]⟩
  exact hexec.invariant hkeep [] ⟨h, hr, rfl⟩

/-! ### How a handshake ends

Once it is out of both maps no call sends it again, since nothing enters it a second time. -/

theorem retryOne_of_exhausted {env : Env P} {v : Addr} (hpending : m.pending v = some r)
    (hr : m.handshakes[r]? = some ph) (hexhausted : Exhausted env.now ph) :
    (m.retryOne env v).1 = m.giveUp v ph := by
  obtain ⟨hdue, hspent⟩ := hexhausted
  unfold HandshakeManager.retryOne
  simp only [hpending, hr]
  rw [if_neg (Nat.not_lt_of_le hdue), if_pos hspent]
  rfl

/-- The turns before its own do not touch a handshake. -/
theorem run_retryStep_of_not_mem (env : Env P) {v : Addr} (order : List Addr) :
    ∀ m : HandshakeManager P, v ∉ order → m.core.Anchored → m.pending v = some r →
      m.handshakes[r]? = some ph → (Trace.run (retryStep env) m order).1.core.Anchored ∧
        (Trace.run (retryStep env) m order).1.pending v = some r ∧
        (Trace.run (retryStep env) m order).1.handshakes[r]? = some ph := by
  induction order with
  | nil => exact fun m _ hm hpending hr => ⟨hm, hpending, hr⟩
  | cons v' order ih =>
      intro m hv hm hpending hr
      have hne : v' ≠ v := Ne.symm (List.ne_of_not_mem_cons hv)
      obtain ⟨hpending', hr'⟩ := retryOne_of_ne hm.of_core env hne hpending hr
      have hm' := hm.step (retryOne_timerStep env m v')
      exact ih _ (List.not_mem_of_not_mem_cons hv) hm' hpending' hr'

/-- A tick takes out every handshake that is due and has been sent often enough. -/
theorem gone_retryPending (hm : m.core.Anchored) {env : Env P} {v : Addr} (hv : v ∈ env.order)
    (hpending : m.pending v = some r) (hr : m.handshakes[r]? = some ph)
    (hexhausted : Exhausted env.now ph) : (m.retryPending env).1.Gone r := by
  obtain ⟨before, after, horder, hbefore⟩ := List.eq_append_cons_of_mem hv
  rw [retryPending_fst, horder, Trace.run_append, Trace.run_cons]
  obtain ⟨hm', hpending', hr'⟩ := run_retryStep_of_not_mem env before m hbefore hm hpending hr
  generalize (Trace.run (retryStep env) m before).1 = m' at hm' hpending' hr' ⊢
  have hgone : (m'.giveUp v ph).Gone r := Table.Anchored.gone_drop hm'.of_core hpending' hr'
  have hlt : r < (m'.giveUp v ph).handshakes.length := (List.getElem?_eq_some_iff.mp hr').1
  have hvisit : (retryStep env m' v).1 = m'.giveUp v ph :=
    retryOne_of_exhausted hpending' hr' hexhausted
  rw [hvisit]
  exact (hgone.executes hlt (run_retryStep_executes env after _)).1

/-- A response takes out the handshake it names, whether or not it passes its checks. -/
theorem gone_handleStage1 (hm : m.Anchored) (now : Time) {pkt : Bytes} {idx : UInt32}
    (hnames : m.Names pkt idx ph) (hidx : m.indexMap idx = some r) :
    (m.handleStage1 now pkt).1.Gone r := by
  rw [handleStage1_of_names now hnames]
  obtain ⟨-, -, -, hget⟩ := hnames
  obtain ⟨r', hidx', hr⟩ := Option.bind_eq_some_iff.mp hget
  obtain rfl : r = r' := Option.some.inj (hidx.symm.trans hidx')
  obtain ⟨ph', hr', rfl, hpending⟩ := hm.second idx r hidx
  obtain rfl : ph = ph' := Option.some.inj (hr.symm.trans hr')
  exact Table.Anchored.gone_drop hm hpending hr

/-! ### Datagrams -/

/-- The first datagram of a handshake and where it goes. -/
def datagram (m : HandshakeManager P) (s : Ref × Time) : Option (Bytes × UDPAddr) :=
  (m.handshakes[s.1]?).map fun ph => (ph.stage0msg, ph.remoteAddr)

theorem datagram_retryOne (env : Env P) (m : HandshakeManager P) (v : Addr) :
    (m.retryOne env v).1.datagram = m.datagram := by
  have hcore : ∀ m : HandshakeManager P, m.core.datagram = m.datagram := by
    intro m
    funext s
    simp [datagram, core, PendingHandshake.core, Function.comp_def]
  obtain ⟨hsame, -⟩ := RetryStep.handshakes_eq (.single (retryOne_retryStep env m v))
  rw [← hcore m, ← hcore (m.retryOne env v).1]
  unfold datagram
  rw [hsame]

/-- What a turn of the loop writes is the datagram of the handshake it sends. -/
theorem retryOne_datagrams (env : Env P) (m : HandshakeManager P) (v : Addr) :
    (m.retryOne env v).2.map Effect.datagram? = (m.resent env v).map m.datagram := by
  unfold resent HandshakeManager.retryOne
  cases hpending : m.pending v with
  | none => rfl
  | some r =>
      cases hr : m.handshakes[r]? with
      | none => simp only [hr, List.map_nil]
      | some ph =>
          simp only [hr]
          split_ifs
          · rfl
          · rfl
          · simp [datagram, hr, Effect.datagram?, Env.send]

theorem retryLoop_datagrams (env : Env P) (order : List Addr) : ∀ m : HandshakeManager P,
    (Trace.run (retryOne env) m order).2.flatten.map Effect.datagram?
        = (Trace.run (retryStep env) m order).2.flatten.map m.datagram ∧
      (Trace.run (retryStep env) m order).1.datagram = m.datagram := by
  induction order with
  | nil => exact fun m => ⟨rfl, rfl⟩
  | cons v order ih =>
      intro m
      obtain ⟨hwrites, hsame⟩ := ih (m.retryOne env v).1
      rw [datagram_retryOne] at hwrites hsame
      refine ⟨?_, hsame⟩
      rw [Trace.run_cons, Trace.run_cons, List.flatten_cons, List.flatten_cons, List.map_append,
        List.map_append, retryOne_datagrams]
      exact congrArg _ hwrites

/-- The log names the datagrams that are handed to `WriteTo`. -/
theorem stage0Writes_eq (m : HandshakeManager P) (c : Call P) :
    (m.stage0Writes c).map Effect.datagram? = (m.sent c).map (m.call c).datagram := by
  cases c with
  | startHandshake env v addr cert =>
      show (m.startHandshake env v addr cert).2.1.map _
        = (m.startSent env v addr cert).map (m.startHandshake env v addr cert).1.datagram
      unfold startSent startHandshake
      cases hpending : m.pending v with
      | some r => rfl
      | none =>
          cases hnew : m.newPending env v addr cert with
          | error e => rfl
          | ok ph =>
              obtain ⟨idx, hs, w, wire, -, -, -, -, rfl⟩ := newPending_ok.mp hnew
              simp [datagram, insert, Effect.datagram?, Env.send]
  | queuePacket v pkt => rfl
  | handleStage0 env pkt src => rfl
  | handleStage1 now pkt => rfl
  | retryPending env =>
      show (m.retryPending env).2.map _ = _
      obtain ⟨hwrites, hsame⟩ := retryLoop_datagrams env env.order m
      show _ = (Trace.run (retryStep env) m env.order).2.flatten.map (m.retryPending env).1.datagram
      rw [retryPending_fst, hsame, retryPending_eq_run]
      exact hwrites

/-- **The timetable of every handshake.**  After any calls with any outcome, what was handed to
`WriteTo` for a handshake is listed in the log, and the log has as many entries for it as
`attempts` says, at most ten of them, each due by the time it was made.  A tick leaves a handshake
that has been sent ten times until it is due and then takes it out of both maps, a response takes
out the one it names, and what is in neither map is not sent by any calls that follow.  Times need
not go forward for any of this, and no index has to be fresh. -/
theorem retry_schedule (localCert : Certificate) (localKey : DHKey) (caPool : List Certificate)
    (cs : List (Call P)) :
    let m := run (new localCert localKey caPool) cs
    let log := transmissions (new localCert localKey caPool) cs
    (∀ c, (m.stage0Writes c).map Effect.datagram? = (m.sent c).map (m.call c).datagram) ∧
      (∀ r ph, m.handshakes[r]? = some ph → Timed ph (times r log)) ∧
      (∀ (env : Env P) v r ph, v ∈ env.order → m.pending v = some r →
        m.handshakes[r]? = some ph → ph.attempts = maxHandshakeAttempts →
        if env.now < ph.nextRetry then (m.call (.retryPending env)).pending v = some r
        else (m.call (.retryPending env)).Gone r) ∧
      (∀ now pkt idx r ph, m.Names pkt idx ph → m.indexMap idx = some r →
        (m.call (.handleStage1 now pkt)).Gone r) ∧
      ∀ r, r < m.handshakes.length → m.Gone r → ∀ cs', times r (m.transmissions cs') = [] := by
  intro m log
  have hm : m.core.Anchored := anchored_run localCert localKey caPool cs
  refine ⟨m.stage0Writes_eq, (scheduled_run localCert localKey caPool cs).timed, ?_, ?_, ?_⟩
  · intro env v r ph hv hpending hr hspent
    split_ifs with hearly
    · rcases pending_retryPending hm env hpending hr with hkept | hexhausted
      · exact hkept
      · exact absurd hexhausted.1 (Nat.not_le_of_lt hearly)
    · exact gone_retryPending hm hv hpending hr ⟨Nat.le_of_not_lt hearly, Nat.le_of_eq hspent.symm⟩
  · exact fun now pkt idx r ph hnames hidx => gone_handleStage1 hm.of_core now hnames hidx
  · exact fun r hr hgone cs' => (hgone.executes hr (run_executes m cs')).2.2

open Symbolic in
/-- A tick that finds a handshake with node 2. -/
def tick (now : Time) : Call platform :=
  .retryPending { calmEnv 0 [] with now := now, order := [nodeIP 2] }

/-- When a handshake that nobody answers is sent again. -/
def retryTimes : List Time :=
  [500, 2500, 6500, 14500, 30500, 60500, 90500, 120500, 150500].map (· * 1000000)

open Symbolic in
/-- A handshake that nobody answers. -/
def unanswered : List (Call platform) :=
  .startHandshake (calmEnv 7 [9]) (nodeIP 2) (nodeAddr 2) (nodeCert 2 []) :: retryTimes.map tick

open Symbolic in
theorem retry_schedule_unanswered :
    times 0 (transmissions (new (nodeCert 1 []) (nodeKey 1) [caCert]) unanswered)
        = 0 :: retryTimes ∧
      ((run (new (nodeCert 1 []) (nodeKey 1) [caCert]) unanswered).call
        (tick (180500 * 1000000))).Gone 0 := by
  refine ⟨by decide +kernel, ?_⟩
  have hschedule := retry_schedule (nodeCert 1 []) (nodeKey 1) [caCert] unanswered
  obtain ⟨-, -, hticks, -, -⟩ := hschedule
  have hfields : ((run (new (nodeCert 1 []) (nodeKey 1) [caCert]) unanswered).handshakes[0]?).map
      (fun ph => (ph.attempts, ph.nextRetry)) = some (10, 180500 * 1000000) := by
    decide +kernel
  obtain ⟨ph, hr, heq⟩ := Option.map_eq_some_iff.mp hfields
  obtain ⟨hattempts, hnext⟩ := Prod.mk.inj heq
  have hpending : (run (new (nodeCert 1 []) (nodeKey 1) [caCert]) unanswered).pending (nodeIP 2)
      = some 0 := by
    decide +kernel
  have hgone := hticks { calmEnv 0 [] with now := 180500 * 1000000, order := [nodeIP 2] }
    (nodeIP 2) 0 ph (List.mem_singleton.mpr rfl) hpending hr hattempts
  rw [hnext, if_neg (Nat.lt_irrefl _)] at hgone
  exact hgone

end HandshakeManager

end Neth
