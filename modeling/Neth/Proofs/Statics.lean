/-
The static host map, and the order in which it is walked.

`buildLightHouse` ranges over a Go map, so nobody knows in which order the keys come.
Whether it succeeds, and which addresses it stores for whom, does not depend on that.  The
order of the addresses stored for one peer does, and only the first of them is ever dialled;
but two keys have to name the same peer for that, say by two spellings of an IPv6 address.
-/
import Neth.Lib.Iteration
import Neth.Proofs.Start

namespace Neth

open Iteration Fallible

variable {P : Platform}

/-! ### Entries

What a key contributes is a list of entries for one peer.  Adding lists for different peers
commutes. -/

namespace LightHouse

/-- `AddStaticEntry` for each entry of a list. -/
def addAll (lh : LightHouse) (entries : List (Addr × UDPAddr)) : LightHouse :=
  entries.foldl (fun lh e => lh.addStaticEntry e.1 e.2) lh

/-- The entries of a list that are for one peer. -/
def entriesFor (v : Addr) (entries : List (Addr × UDPAddr)) : List UDPAddr :=
  (entries.filter fun e => e.1 = v).map Prod.snd

theorem addAll_addrStore (v : Addr) (entries : List (Addr × UDPAddr)) : ∀ lh : LightHouse,
    (lh.addAll entries).addrStore v =
      if entriesFor v entries = [] then lh.addrStore v
      else some (lh.stored v ++ entriesFor v entries) := by
  induction entries with
  | nil => intro lh; rfl
  | cons e entries ih =>
      intro lh
      have hstep := ih (lh.addStaticEntry e.1 e.2)
      by_cases he : e.1 = v
      · have hfor : entriesFor v (e :: entries) = e.2 :: entriesFor v entries := by
          simp [entriesFor, he]
        have hstored : (lh.addStaticEntry e.1 e.2).addrStore v = some (lh.stored v ++ [e.2]) := by
          rw [he]
          exact Function.update_self ..
        rw [hfor, if_neg (List.cons_ne_nil _ _)]
        refine hstep.trans ?_
        rw [stored, hstored]
        split_ifs with hnil
        · rw [hnil]
        · simp
      · have hfor : entriesFor v (e :: entries) = entriesFor v entries := by
          simp [entriesFor, he]
        have hstored : (lh.addStaticEntry e.1 e.2).addrStore v = lh.addrStore v :=
          Function.update_of_ne (Ne.symm he) _ _
        rw [hfor]
        refine hstep.trans ?_
        rw [stored, stored, hstored]

theorem foldl_addAll {α : Type} (f : α → List (Addr × UDPAddr)) (l : List α) (lh : LightHouse) :
    l.foldl (fun lh a => lh.addAll (f a)) lh = lh.addAll (l.flatMap f) :=
  List.foldl_flatMap.symm

/-- Nothing else changes. -/
theorem addAll_eq (entries : List (Addr × UDPAddr)) : ∀ lh : LightHouse,
    lh.addAll entries = { lh with addrStore := (lh.addAll entries).addrStore } := by
  induction entries with
  | nil => intro lh; rfl
  | cons e entries ih => intro lh; exact ih _

theorem addAll_congr {entries entries' : List (Addr × UDPAddr)}
    (h : ∀ v, entriesFor v entries = entriesFor v entries') (lh : LightHouse) :
    lh.addAll entries = lh.addAll entries' := by
  rw [addAll_eq entries, addAll_eq entries']
  congr 1
  funext v
  rw [addAll_addrStore, addAll_addrStore, h]

theorem stored_addAll_new (amLighthouse : Bool) (lighthouses : List Addr) (myAddrs : List UDPAddr)
    (entries : List (Addr × UDPAddr)) (v : Addr) :
    ((new amLighthouse lighthouses myAddrs).addAll entries).stored v = entriesFor v entries := by
  rw [stored, addAll_addrStore]
  split_ifs with hnil
  · rw [hnil]
    rfl
  · rfl

/-- The same but for the order in which addresses are stored. -/
structure Alike (lh lh' : LightHouse) : Prop where
  lighthouses : lh'.lighthouses = lh.lighthouses
  amLighthouse : lh'.amLighthouse = lh.amLighthouse
  myAddrs : lh'.myAddrs = lh.myAddrs
  punchy : lh'.punchy = lh.punchy
  stored : ∀ v, (lh'.stored v).Perm (lh.stored v)

theorem alike_addAll (amLighthouse : Bool) (lighthouses : List Addr) (myAddrs : List UDPAddr)
    {entries entries' : List (Addr × UDPAddr)}
    (h : ∀ v, (entriesFor v entries').Perm (entriesFor v entries)) :
    ((new amLighthouse lighthouses myAddrs).addAll entries).Alike
      ((new amLighthouse lighthouses myAddrs).addAll entries') where
  lighthouses := by rw [addAll_eq entries, addAll_eq entries']
  amLighthouse := by rw [addAll_eq entries, addAll_eq entries']
  myAddrs := by rw [addAll_eq entries, addAll_eq entries']
  punchy := by rw [addAll_eq entries, addAll_eq entries']
  stored v := by
    rw [stored_addAll_new, stored_addAll_new]
    exact h v

end LightHouse

variable (P) (M : Machine) (cfg : Config)

/-- What a key of the map stands for. -/
def entriesOf (key : String) : List (Addr × UDPAddr) :=
  match P.parseAddr key with
  | none => []
  | some v => ((cfg.staticHostMap key).getD []).flatMap fun addrStr =>
      ((M.resolve addrStr).toOption.map (v, ·)).toList

/-- The key is an address, and every address it maps to can be resolved. -/
def Resolves (key : String) : Prop :=
  (∃ v, P.parseAddr key = some v) ∧
    ∀ addrStr ∈ (cfg.staticHostMap key).getD [], ∃ a, M.resolve addrStr = .ok a

variable {P M cfg}

theorem addStatic_ok {lh lh' : LightHouse} {key : String} :
    addStatic P M.resolve lh key ((cfg.staticHostMap key).getD []) = .ok lh' ↔
      Resolves P M cfg key ∧ lh' = lh.addAll (entriesOf P M cfg key) := by
  unfold addStatic Resolves entriesOf
  cases hparse : P.parseAddr key with
  | none => simp [throw_ok]
  | some v =>
      rw [← LightHouse.foldl_addAll]
      have hturn : ∀ (lh : LightHouse) (addrStr : String) (lh' : LightHouse),
          (do
            let udpAddr ← (M.resolve addrStr).mapError
              (("static_host_map \"" ++ key ++ "\" addr \"" ++ addrStr ++ "\": ") ++ ·)
            pure (lh.addStaticEntry v udpAddr)) = .ok lh' ↔
          (∃ a, M.resolve addrStr = .ok a) ∧
            lh' = lh.addAll ((M.resolve addrStr).toOption.map (v, ·)).toList := by
        intro lh addrStr lh'
        rw [bind_ok]
        simp only [mapError_ok, pure_ok]
        constructor
        · rintro ⟨a, ha, rfl⟩
          rw [ha]
          exact ⟨⟨a, rfl⟩, rfl⟩
        · rintro ⟨⟨a, ha⟩, rfl⟩
          rw [ha]
          exact ⟨a, rfl, rfl⟩
      refine (foldlM_ok hturn _ _ _).trans ?_
      simp

/-! ### The whole map

Two orders are permutations of each other, and so are the lists of addresses that each peer ends up
with. -/

/-- Everything the map says, in the order of the walk. -/
def allEntries (P : Platform) (M : Machine) (cfg : Config) (order : List String) :
    List (Addr × UDPAddr) :=
  order.flatMap (entriesOf P M cfg)

variable {port : Nat}

theorem buildLightHouse_ok {lh : LightHouse} :
    buildLightHouse P M cfg port = .ok lh ↔ ∃ lhIPs, parseHosts P cfg.lighthouse.hosts = .ok lhIPs ∧
      (∀ key ∈ M.order, Resolves P M cfg key) ∧
      lh = (LightHouse.new cfg.lighthouse.amLighthouse lhIPs
        (localUDPAddrs M.interfaces port)).addAll (allEntries P M cfg M.order) := by
  unfold buildLightHouse allEntries
  rw [bind_ok]
  refine exists_congr fun lhIPs => and_congr_right fun _ => ?_
  rw [← LightHouse.foldl_addAll]
  exact foldlM_ok (Q := Resolves P M cfg) (fun _ _ _ => addStatic_ok) _ _ _

section Order

variable {order order' : List String}

theorem entriesFor_perm (h : order.Perm order') (v : Addr) :
    (LightHouse.entriesFor v (allEntries P M cfg order)).Perm
      (LightHouse.entriesFor v (allEntries P M cfg order')) :=
  ((h.flatMap_right _).filter _).map _

theorem entriesFor_allEntries (v : Addr) :
    LightHouse.entriesFor v (allEntries P M cfg order)
      = order.flatMap fun key => LightHouse.entriesFor v (entriesOf P M cfg key) := by
  simp only [LightHouse.entriesFor, allEntries, List.filter_flatMap, List.map_flatMap]

/-- A key stands for the peer it spells. -/
theorem parseAddr_of_entriesFor {v : Addr} {key : String}
    (h : LightHouse.entriesFor v (entriesOf P M cfg key) ≠ []) : P.parseAddr key = some v := by
  obtain ⟨a, ha⟩ := List.exists_mem_of_ne_nil _ h
  obtain ⟨e, he, -⟩ := List.mem_map.mp ha
  obtain ⟨hmem, hv⟩ := List.mem_filter.mp he
  unfold entriesOf at hmem
  split at hmem
  · cases hmem
  · rename_i v' hparse
    obtain ⟨addrStr, -, hentry⟩ := List.mem_flatMap.mp hmem
    obtain ⟨a', -, rfl⟩ := Option.map_eq_some_iff.mp (Option.mem_toList.mp hentry)
    exact hparse.trans (congrArg some (of_decide_eq_true hv))

/-- No peer is spelled in two ways. -/
def SpelledOnce (P : Platform) (cfg : Config) : Prop :=
  ∀ key key' v, (cfg.staticHostMap key).isSome → (cfg.staticHostMap key').isSome →
    P.parseAddr key = some v → P.parseAddr key' = some v → key = key'

theorem entriesFor_eq (hspell : SpelledOnce P cfg) (h : OrderOf cfg.staticHostMap order)
    (h' : OrderOf cfg.staticHostMap order') (v : Addr) :
    LightHouse.entriesFor v (allEntries P M cfg order)
      = LightHouse.entriesFor v (allEntries P M cfg order') := by
  rw [entriesFor_allEntries, entriesFor_allEntries]
  refine flatMap_eq_of_perm (h.perm h') ?_
  refine List.Pairwise.imp_of_mem ?_ h.nodup
  intro key key' hkey hkey' hne
  by_contra hboth
  obtain ⟨hnil, hnil'⟩ := not_or.mp hboth
  exact hne (hspell key key' v ((h.mem_iff key).mp hkey) ((h.mem_iff key').mp hkey')
    (parseAddr_of_entriesFor hnil) (parseAddr_of_entriesFor hnil'))

/-- **The walk over the static host map does not matter.**  In whatever orders two starts walk the
map, they both fail or both build lighthouses that know the same addresses of the same peers.  If no
peer is spelled in two ways, they build the same lighthouse. -/
theorem buildLightHouse_any_order (P : Platform) (M : Machine) (cfg : Config) (port : Nat)
    (order order' : List String) (h : OrderOf cfg.staticHostMap order)
    (h' : OrderOf cfg.staticHostMap order') :
    (∀ lh, buildLightHouse P { M with order } cfg port = .ok lh →
        ∃ lh', buildLightHouse P { M with order := order' } cfg port = .ok lh' ∧ lh.Alike lh') ∧
      (SpelledOnce P cfg → SameResult (buildLightHouse P { M with order } cfg port)
        (buildLightHouse P { M with order := order' } cfg port)) := by
  have hkeys : (∀ key ∈ order, Resolves P M cfg key) ↔ ∀ key ∈ order', Resolves P M cfg key := by
    simp only [h.mem_iff, h'.mem_iff]
  constructor
  · intro lh hlh
    obtain ⟨lhIPs, hhosts, hresolves, rfl⟩ := buildLightHouse_ok.mp hlh
    refine ⟨_, buildLightHouse_ok.mpr ⟨lhIPs, hhosts, hkeys.mp hresolves, rfl⟩, ?_⟩
    exact LightHouse.alike_addAll _ _ _ (entriesFor_perm (h'.perm h))
  · intro hspell
    refine sameResult_iff.mpr fun lh => ?_
    rw [buildLightHouse_ok, buildLightHouse_ok]
    refine exists_congr fun lhIPs => and_congr_right fun _ => and_congr hkeys ?_
    refine iff_of_eq (congrArg (lh = ·) ?_)
    exact LightHouse.addAll_congr (entriesFor_eq hspell h h') _

open Symbolic in
/-- Two peers behind one address, walked both ways. -/
theorem buildLightHouse_any_order_two :
    let cfg : Config := { config with
      staticHostMap := fun key => if key ∈ ["10.0.0.2", "10.0.0.3"] then some ["two"] else none }
    SpelledOnce vault cfg ∧
      SameResult
        (buildLightHouse vault { machine 1 [] with order := ["10.0.0.2", "10.0.0.3"] } cfg 4242)
        (buildLightHouse vault { machine 1 [] with order := ["10.0.0.3", "10.0.0.2"] } cfg 4242) ∧
      (buildLightHouse vault { machine 1 [] with order := ["10.0.0.3", "10.0.0.2"] } cfg
        4242).toOption.map (·.getAddrs (nodeIP 3)) = some [nodeAddr 2] := by
  intro cfg
  have hmem : ∀ key, (cfg.staticHostMap key).isSome ↔ key = "10.0.0.2" ∨ key = "10.0.0.3" := by
    intro key
    simp [cfg, apply_ite Option.isSome]
  have horder : ∀ order : List String, order.Nodup →
      (∀ key, key ∈ order ↔ key = "10.0.0.2" ∨ key = "10.0.0.3") →
      OrderOf cfg.staticHostMap order :=
    fun order hnodup hkeys => ⟨hnodup, fun key => (hkeys key).trans (hmem key).symm⟩
  have hspell : SpelledOnce vault cfg := by
    intro key key' v hkey hkey' hv hv'
    have hne : vault.parseAddr "10.0.0.2" ≠ vault.parseAddr "10.0.0.3" := by decide +kernel
    rcases (hmem key).mp hkey with rfl | rfl
    · rcases (hmem key').mp hkey' with rfl | rfl
      · rfl
      · exact absurd (hv.trans hv'.symm) hne
    · rcases (hmem key').mp hkey' with rfl | rfl
      · exact absurd (hv'.trans hv.symm) hne
      · rfl
  refine ⟨hspell, (buildLightHouse_any_order vault (machine 1 []) cfg 4242 _ _
    (horder _ (by decide) (by simp)) (horder _ (by decide) (by simp [or_comm]))).2 hspell, ?_⟩
  decide +kernel

end Order

end Neth
