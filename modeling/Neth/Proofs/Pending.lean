/-
The two maps of the handshake manager over any sequence of calls.

A pending handshake is entered under the VPN IP it is for and under the local index its
response will name.  `StartHandshake` enters it under both, `HandleStage1` and the loop
of `retryPending` take it out under both, and every early exit comes before the first
or after the last of these.  So the maps hold the same handshakes after any calls with
any outcome, as long as no index is drawn that a pending handshake has.
-/
import Neth.Lib.TwoKeys
import Neth.Proofs.Control

namespace Neth

variable {P : Platform}

namespace HandshakeManager

open TwoKeys

/-- A call of the manager. -/
inductive Call (P : Platform) where
  | startHandshake (env : Env P) (remoteVpnIP : Addr) (addr : UDPAddr) (remoteCert : Certificate)
  | queuePacket (remoteVpnIP : Addr) (pkt : Bytes)
  | handleStage0 (env : Env P) (pkt : Bytes) (src : UDPAddr)
  | handleStage1 (now : Time) (pkt : Bytes)
  | retryPending (env : Env P)

/-- The manager after a call. -/
def call (m : HandshakeManager P) : Call P → HandshakeManager P
  | .startHandshake env v addr cert => (m.startHandshake env v addr cert).1
  | .queuePacket v pkt => m.queuePacket v pkt
  -- `HandleStage0` reads the manager only
  | .handleStage0 _ _ _ => m
  | .handleStage1 now pkt => (m.handleStage1 now pkt).1
  | .retryPending env => (m.retryPending env).1

/-- A call as a step of a run. -/
def step (m : HandshakeManager P) (c : Call P) : HandshakeManager P × Unit := (m.call c, ())

/-- The manager after a sequence of calls. -/
def run (m : HandshakeManager P) (cs : List (Call P)) : HandshakeManager P :=
  (Trace.run step m cs).1

/-- The index a new handshake draws is not that of a pending one. -/
def Fresh (m : HandshakeManager P) : Call P → Prop
  | .startHandshake env v _ _ =>
      m.pending v = none → ∀ idx, env.index = .ok idx → m.indexMap idx = none
  | _ => True

/-! ### The manager as a table of objects with two keys -/

/-- The pending handshakes as a table with two keys. -/
def table (m : HandshakeManager P) : Table (PendingHandshake P) Addr UInt32 :=
  ⟨m.handshakes, m.pending, m.indexMap⟩

/-- Both maps hold the same handshakes, each under its own keys. -/
def Paired (m : HandshakeManager P) : Prop :=
  m.table.Paired PendingHandshake.remoteVpnIP PendingHandshake.localIndex

/-- Every handshake that a response can name is pending. -/
def Anchored (m : HandshakeManager P) : Prop :=
  m.table.Anchored PendingHandshake.remoteVpnIP PendingHandshake.localIndex

variable {m : HandshakeManager P} {c : Call P} {v : Addr} {idx : UInt32} {r : Ref}
  {ph : PendingHandshake P} {pkt : Bytes}

theorem paired_new (localCert : Certificate) (localKey : DHKey) (caPool : List Certificate) :
    (new localCert localKey caPool : HandshakeManager P).Paired :=
  Table.paired_empty

theorem Paired.insert (hm : m.Paired) (hfree : m.indexMap ph.localIndex = none)
    (hidle : m.pending ph.remoteVpnIP = none) : (m.insert ph).Paired :=
  Table.Paired.insert hm hfree hidle

/-- A response names a handshake by the index it is entered under. -/
theorem Anchored.of_names (hm : m.Anchored) (h : m.Names pkt idx ph) :
    ∃ r, m.pending ph.remoteVpnIP = some r ∧ m.handshakes[r]? = some ph ∧ ph.localIndex = idx := by
  obtain ⟨-, -, -, hph⟩ := h
  obtain ⟨r, hidx, hr⟩ := Option.bind_eq_some_iff.mp hph
  obtain ⟨ph', hr', hlocal, hpending⟩ := hm.second idx r hidx
  obtain rfl : ph = ph' := Option.some.inj (hr.symm.trans hr')
  exact ⟨r, hpending, hr, hlocal⟩

theorem Paired.of_names (hm : m.Paired) (h : m.Names pkt idx ph) :
    ∃ r, m.pending ph.remoteVpnIP = some r ∧ m.handshakes[r]? = some ph ∧ ph.localIndex = idx :=
  Anchored.of_names (Table.Paired.anchored hm) h

theorem Paired.take (hm : m.Paired) (h : m.Names pkt idx ph) : (m.take idx ph).Paired := by
  obtain ⟨r, hpending, hr, rfl⟩ := hm.of_names h
  exact Table.Paired.drop hm hpending hr

theorem Paired.retry {env : Env P} {m m' : HandshakeManager P} {effs : List Effect}
    (hretry : Trace.Executes (RetryStep env) m effs m') : m.Paired → m'.Paired :=
  RetryStep.rule Paired (fun hm hpending hr => Table.Paired.drop hm hpending hr) hretry

theorem Anchored.retry {env : Env P} {m m' : HandshakeManager P} {effs : List Effect}
    (hretry : Trace.Executes (RetryStep env) m effs m') : m.Anchored → m'.Anchored :=
  RetryStep.rule Anchored (fun hm hpending hr => Table.Anchored.drop hm hpending hr) hretry

/-- The queue and the timer of a handshake play no part. -/
theorem Anchored.of_core (h : m.core.Anchored) : m.Anchored :=
  Table.Anchored.of_map PendingHandshake.core (fun _ => rfl) (fun _ => rfl) h

theorem Paired.of_core (h : m.core.Paired) : m.Paired :=
  (Table.Sound.of_map PendingHandshake.core (fun _ => rfl) (fun _ => rfl) h.toSound).paired
    (Anchored.of_core (Table.Paired.anchored h))

theorem Paired.call (hm : m.core.Paired) (hc : m.Fresh c) : (m.call c).core.Paired := by
  cases c with
  | startHandshake env v addr cert =>
      show (m.startHandshake env v addr cert).1.core.Paired
      rcases m.startHandshake_cases env v addr cert with
        ⟨res, hres⟩ | ⟨ph, res, hidle, hnew, hres⟩
      · rw [hres]
        exact hm
      · rw [hres, core_insert]
        obtain ⟨idx, hs, w, wire, hidx, -, -, -, rfl⟩ := newPending_ok.mp hnew
        exact hm.insert (hc hidle idx hidx) hidle
  | queuePacket v pkt =>
      show (m.queuePacket v pkt).core.Paired
      rw [core_queuePacket]
      exact hm
  | handleStage0 _ _ _ => exact hm
  | handleStage1 now pkt =>
      show (m.handleStage1 now pkt).1.core.Paired
      by_cases hnames : ∃ idx ph, m.Names pkt idx ph
      · obtain ⟨idx, ph, hnames⟩ := hnames
        rw [handleStage1_of_names now hnames]
        have htake := hm.take (names_core hnames)
        exact htake
      · obtain ⟨err, hres⟩ := handleStage1_of_not_names now fun idx ph hn => hnames ⟨idx, ph, hn⟩
        rw [hres]
        exact hm
  | retryPending env => exact hm.retry (m.retryPending_executes env)

theorem paired_core_run (localCert : Certificate) (localKey : DHKey) (caPool : List Certificate)
    (cs : List (Call P)) (hfresh : Trace.Meets step Fresh (new localCert localKey caPool) cs) :
    (run (new localCert localKey caPool) cs).core.Paired :=
  Trace.run_invariant_of_meets (fun m => m.core.Paired) (fun _ _ hm hc => Paired.call hm hc) cs _
    (paired_new localCert localKey caPool) hfresh

/-! ### What takes a handshake out

A response that names it, or the end of its attempts.  Nothing else does, whatever it is about. -/

/-- It is due for a retransmission and has none left. -/
def Exhausted (now : Time) (ph : PendingHandshake P) : Prop :=
  ph.nextRetry ≤ now ∧ maxHandshakeAttempts ≤ ph.attempts

/-- The call takes out this very handshake: its header names it, or it expires. -/
def Ends (ph : PendingHandshake P) : Call P → Prop
  | .handleStage1 _ pkt => ∃ hdr, Header.parse pkt = .ok hdr ∧ hdr.remoteIndex = ph.localIndex
  | .retryPending env => Exhausted env.now ph
  | _ => False

theorem retryDelay_pos (attempts : Nat) : 0 < retryDelay attempts := by
  have hpow : 0 < 2 ^ min attempts 6 := Nat.two_pow_pos _
  unfold retryDelay retryBase retryMax
  exact Nat.lt_min.mpr ⟨Nat.mul_pos (by decide) hpow, by decide⟩

/-- How a handshake that was pending under `v` stands in the middle of the loop of `retryPending`:
not visited yet, sent again, so that its next turn lies ahead, or taken out because it was
exhausted. -/
def Standing (now : Time) (v : Addr) (r : Ref) (ph : PendingHandshake P)
    (m : HandshakeManager P) : Prop :=
  (m.pending v = some r ∧ ∃ ph', m.handshakes[r]? = some ph' ∧ (ph' = ph ∨ now < ph'.nextRetry)) ∨
    Exhausted now ph

/-- Distinct VPN IPs have distinct handshakes. -/
theorem Anchored.pending_inj (hm : m.Anchored) {v' : Addr} (h : m.pending v = some r)
    (h' : m.pending v' = some r) : v = v' := by
  obtain ⟨ph, hr, hip⟩ := hm.first v r h
  exact hip.symm.trans (hm.key_eq h' hr)

/-- A turn of the loop for another VPN IP. -/
theorem retryOne_of_ne (hm : m.Anchored) (env : Env P) {v' : Addr} (hne : v' ≠ v)
    (hpending : m.pending v = some r) (hr : m.handshakes[r]? = some ph) :
    (m.retryOne env v').1.pending v = some r ∧
      (m.retryOne env v').1.handshakes[r]? = some ph := by
  unfold HandshakeManager.retryOne
  cases hpending' : m.pending v' with
  | none => exact ⟨hpending, hr⟩
  | some r' =>
      cases hr' : m.handshakes[r']? with
      | none =>
          simp only [hr']
          exact ⟨hpending, hr⟩
      | some ph' =>
          simp only [hr']
          have hother : r' ≠ r := by
            intro heq
            rw [heq] at hpending'
            exact hne (hm.pending_inj hpending' hpending)
          split_ifs
          · exact ⟨hpending, hr⟩
          · exact ⟨(Function.update_of_ne (Ne.symm hne) _ _).trans hpending, hr⟩
          · exact ⟨hpending, (List.getElem?_set_ne hother).trans hr⟩

theorem Standing.retryOne {env : Env P} (hm : m.Anchored) (h : Standing env.now v r ph m)
    (v' : Addr) : Standing env.now v r ph (m.retryOne env v').1 := by
  rcases h with ⟨hpending, ph', hr, hph⟩ | hexhausted
  · by_cases hv : v' = v
    · subst hv
      unfold HandshakeManager.retryOne
      simp only [hpending, hr]
      split_ifs with hearly hlast
      · exact .inl ⟨hpending, ph', hr, hph⟩
      · rcases hph with rfl | hlater
        · exact .inr ⟨Nat.le_of_not_lt hearly, hlast⟩
        · exact absurd hlater hearly
      · have hlt : r < m.handshakes.length := (List.getElem?_eq_some_iff.mp hr).1
        refine .inl ⟨hpending, _, List.getElem?_set_self hlt, .inr ?_⟩
        exact Nat.lt_add_of_pos_right (retryDelay_pos _)
    · obtain ⟨hpending', hr'⟩ := retryOne_of_ne hm env hv hpending hr
      exact .inl ⟨hpending', ph', hr', hph⟩
  · exact .inr hexhausted

theorem pending_retryPending (hm : m.core.Anchored) (env : Env P) (hpending : m.pending v = some r)
    (hr : m.handshakes[r]? = some ph) :
    (m.retryPending env).1.pending v = some r ∨ Exhausted env.now ph := by
  have hloop := retryPending_rule
    (fun m' _ => m'.core.Anchored ∧ Standing env.now v r ph m') m env
    ⟨hm, .inl ⟨hpending, ph, hr, .inl rfl⟩⟩ ?_
  · rcases hloop.2 with ⟨h, -⟩ | hexhausted
    · exact .inl h
    · exact .inr hexhausted
  · rintro m' effs v' ⟨hanchored, hstanding⟩
    exact ⟨hanchored.retry (.single (retryOne_retryStep env m' v')),
      hstanding.retryOne hanchored.of_core v'⟩

/-- A handshake stays pending through every call that does not end it. -/
theorem pending_call (hm : m.core.Anchored) (c : Call P) (hpending : m.pending v = some r)
    (hr : m.handshakes[r]? = some ph) : (m.call c).pending v = some r ∨ Ends ph c := by
  cases c with
  | startHandshake env v' addr cert =>
      refine .inl ?_
      show (m.startHandshake env v' addr cert).1.pending v = some r
      rcases m.startHandshake_cases env v' addr cert with
        ⟨res, hres⟩ | ⟨ph', res, hidle, hnew, hres⟩
      · rw [hres]
        exact hpending
      · obtain ⟨idx, hs, w, wire, -, -, -, -, rfl⟩ := newPending_ok.mp hnew
        have hne : v ≠ v' := by
          rintro rfl
          rw [hidle] at hpending
          cases hpending
        rw [hres]
        exact (Function.update_of_ne hne _ _).trans hpending
  | queuePacket v' pkt =>
      refine .inl ?_
      show (m.queuePacket v' pkt).pending v = some r
      unfold queuePacket
      split
      · exact hpending
      · exact hpending
  | handleStage0 _ _ _ => exact .inl hpending
  | handleStage1 now pkt =>
      show (m.handleStage1 now pkt).1.pending v = some r ∨ _
      by_cases hnames : ∃ idx ph, m.Names pkt idx ph
      · obtain ⟨idx, ph', hnames⟩ := hnames
        obtain ⟨r', hpending', hr', rfl⟩ := hm.of_core.of_names hnames
        rw [handleStage1_of_names now hnames]
        by_cases hv : v = ph'.remoteVpnIP
        · rw [hv] at hpending
          obtain rfl : r = r' := Option.some.inj (hpending.symm.trans hpending')
          obtain rfl : ph = ph' := Option.some.inj (hr.symm.trans hr')
          obtain ⟨hdr, hparse, hidx, -⟩ := hnames
          exact .inr ⟨hdr, hparse, hidx⟩
        · exact .inl ((Function.update_of_ne hv _ _).trans hpending)
      · obtain ⟨err, hres⟩ := handleStage1_of_not_names now fun idx ph hn => hnames ⟨idx, ph, hn⟩
        rw [hres]
        exact .inl hpending
  | retryPending env => exact pending_retryPending hm env hpending hr

/-- **The two maps stay in bijection.**  A handshake is pending under a VPN IP exactly if it is for
that VPN IP and entered under its own index, the maps hold the same handshakes, each is found by the
index its response names, and no call takes out another handshake than the one that its packet names
or that has expired. -/
theorem pending_indexMap_agree (localCert : Certificate) (localKey : DHKey)
    (caPool : List Certificate) (cs : List (Call P))
    (hfresh : Trace.Meets step Fresh (new localCert localKey caPool) cs) :
    let m := run (new localCert localKey caPool) cs
    (∀ v r ph, m.handshakes[r]? = some ph →
        (m.pending v = some r ↔ m.indexMap ph.localIndex = some r ∧ ph.remoteVpnIP = v)) ∧
      (∀ r, (∃ v, m.pending v = some r) ↔ ∃ idx, m.indexMap idx = some r) ∧
      (∀ v r, m.pending v = some r →
        ∃ ph, m.handshakes[r]? = some ph ∧ m.getIndex ph.localIndex = some ph) ∧
      ∀ c v r ph, m.pending v = some r → m.handshakes[r]? = some ph →
        (m.call c).pending v = some r ∨ Ends ph c := by
  intro m
  have hcore : m.core.Paired := paired_core_run localCert localKey caPool cs hfresh
  have hm := hcore.of_core
  refine ⟨?_, ?_, ?_, fun c v r ph => pending_call (Table.Paired.anchored hcore) c⟩
  · intro v r ph hr
    constructor
    · intro hpending
      obtain ⟨hip, hidx⟩ := hm.of_first hpending hr
      exact ⟨hidx, hip⟩
    · rintro ⟨hidx, rfl⟩
      exact hm.back _ r ph hidx hr
  · intro r
    constructor
    · rintro ⟨v, hpending⟩
      obtain ⟨ph, -, -, hidx⟩ := hm.first v r hpending
      exact ⟨ph.localIndex, hidx⟩
    · rintro ⟨idx, hidx⟩
      obtain ⟨ph, hr, -⟩ := hm.second idx r hidx
      exact ⟨ph.remoteVpnIP, hm.back idx r ph hidx hr⟩
  · intro v r hpending
    obtain ⟨ph, hr, -, hidx⟩ := hm.first v r hpending
    have hindex : m.indexMap ph.localIndex = some r := hidx
    have hobject : m.handshakes[r]? = some ph := hr
    exact ⟨ph, hobject, by simp [getIndex, hindex, hobject]⟩

open Symbolic in
/-- Two handshakes are started, and a response that is none comes for the first. -/
def twoHandshakes : List (Call platform) :=
  [.startHandshake (calmEnv 7 [9]) (nodeIP 2) (nodeAddr 2) (nodeCert 2 []),
    .startHandshake (calmEnv 8 [9]) (nodeIP 3) (nodeAddr 3) (nodeCert 3 []),
    .handleStage1 0 (Header.bytes ⟨headerVersion, typeHandshake, handshakeResponse, 7, 0⟩)]

open Symbolic in
/-- The first handshake is gone from both maps.  The second is in both, is found under its index,
and stays whatever comes for the index of the first. -/
theorem pending_indexMap_agree_two :
    let m := run (new (nodeCert 1 []) (nodeKey 1) [caCert]) twoHandshakes
    Trace.Meets step Fresh (new (nodeCert 1 []) (nodeKey 1) [caCert]) twoHandshakes ∧
      m.pending (nodeIP 3) = some 1 ∧ m.indexMap 8 = some 1 ∧
      (¬ ∃ v, m.pending v = some 0) ∧ (¬ ∃ idx, m.indexMap idx = some 0) ∧
      (∃ ph, m.handshakes[1]? = some ph ∧ m.getIndex ph.localIndex = some ph) ∧
      (m.call (.handleStage1 0
        (Header.bytes ⟨headerVersion, typeHandshake, handshakeResponse, 7, 0⟩))).pending (nodeIP 3)
        = some 1 := by
  intro m
  have hfresh :
      Trace.Meets step Fresh (new (nodeCert 1 []) (nodeKey 1) [caCert]) twoHandshakes := by
    refine ⟨fun _ _ _ => rfl, ?_, trivial, trivial⟩
    intro _ idx hidx
    obtain rfl := Except.ok.inj hidx
    decide +kernel
  obtain ⟨heach, hsame, hfound, hstays⟩ := pending_indexMap_agree _ _ _ twoHandshakes hfresh
  have hcomputed : m.handshakes.map (fun ph => (ph.localIndex, ph.remoteVpnIP))
      = [(7, nodeIP 2), (8, nodeIP 3)] := by
    decide +kernel
  have hpending : m.pending (nodeIP 3) = some 1 := by decide +kernel
  have hentry : ∀ (r : Ref) x, [((7 : UInt32), nodeIP 2), (8, nodeIP 3)][r]? = some x →
      ∃ ph, m.handshakes[r]? = some ph ∧ (ph.localIndex, ph.remoteVpnIP) = x := by
    intro r x hx
    rw [← hcomputed, List.getElem?_map] at hx
    exact Option.map_eq_some_iff.mp hx
  obtain ⟨ph, hr, hph⟩ := hentry 1 _ rfl
  obtain ⟨hlocal, -⟩ := Prod.mk.inj hph
  have hgone : ¬ ∃ v, m.pending v = some 0 := by
    rintro ⟨v, hv⟩
    obtain ⟨ph', hr', hph'⟩ := hentry 0 _ rfl
    have hidx := ((heach v 0 ph' hr').mp hv).1
    rw [(Prod.mk.inj hph').1, show m.indexMap 7 = none by decide +kernel] at hidx
    cases hidx
  refine ⟨hfresh, hpending, ?_, hgone, mt (hsame 0).mpr hgone, hfound _ 1 hpending, ?_⟩
  · rw [← hlocal]
    exact ((heach _ 1 ph hr).mp hpending).1
  · refine (hstays _ _ 1 ph hpending hr).resolve_right ?_
    rintro ⟨hdr, hparse, hidx⟩
    have hseven : 7 = hdr.remoteIndex := congrArg Header.remoteIndex (Except.ok.inj hparse)
    rw [← hseven, hlocal] at hidx
    exact absurd hidx (by decide)

end HandshakeManager

end Neth
