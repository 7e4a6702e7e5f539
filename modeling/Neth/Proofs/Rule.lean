/-
White space in rules.

A rule is compared with itself after `TrimSpace` on each of its fields.  Trimming twice is
trimming once, so the two agree on what is a wildcard and on the protocol.  They differ in
the strings that are converted: a number or a network with white space at an end is
refused, and a group keeps it.  So the two agree exactly if the trimmed rule cannot be
read either or nothing but the protocol and wildcards is padded.

The second half says what a padded group comes to.  The groups of a certificate are
trimmed when it is issued, so a rule for such a group is accepted and matches nobody.
-/
import Neth.Assumptions
import Neth.Lib.Fallible
import Neth.Rule

namespace Neth

open Fallible

/-! ### Trimming -/

theorem trimSpace_trimSpace (s : GoString) : trimSpace (trimSpace s) = trimSpace s :=
  Trim.trim_trim (by decide) s

theorem spaces_not_digits : ∀ w ∈ spaces, ∃ c ∈ w, c < 48 ∨ 57 < c := by decide

theorem trimSpace_of_digits {s : GoString} (h : ∀ c ∈ s, ¬ (c < 48 ∨ 57 < c)) :
    trimSpace s = s := by
  by_contra hne
  obtain ⟨w, hw, hsub⟩ := Trim.exists_mem_of_trim_ne (by decide) hne
  obtain ⟨c, hc, hdigit⟩ := spaces_not_digits w hw
  exact h c (hsub c hc) hdigit

namespace Text

variable {T : Text} {s : GoString} {n : Nat}

theorem digits_of_foldlM {cs : GoString} :
    ∀ m, cs.foldlM (T.addDigit s) m = .ok n → ∀ c ∈ cs, ¬ (c < 48 ∨ 57 < c) := by
  induction cs with
  | nil => exact fun _ _ c hc => absurd hc List.not_mem_nil
  | cons c cs ih =>
      intro m h
      rw [List.foldlM_cons, bind_ok] at h
      obtain ⟨m', hm', hrest⟩ := h
      unfold addDigit at hm'
      obtain ⟨hdigit, -⟩ := ite_throw_ok.mp hm'
      exact List.forall_mem_cons.mpr ⟨hdigit, ih m' hrest⟩

theorem trimSpace_of_parseUint (h : T.parseUint s = .ok n) : trimSpace s = s := by
  unfold parseUint at h
  exact trimSpace_of_digits (digits_of_foldlM 0 (ite_throw_ok.mp h).2)

end Text

/-! ### One field -/

namespace Rule

variable {α : Type} {any : Bool} {zero : α} {x : α × Bool}

theorem parseField_ok {convert : Except String α} : parseField any zero convert = .ok x ↔
    (any = true ∧ x = (zero, true)) ∨ (any = false ∧ ∃ a, convert = .ok a ∧ x = (a, false)) := by
  unfold parseField
  cases any with
  | true => simp [pure, Except.pure, eq_comm]
  | false => simp only [Bool.false_eq_true, if_false, map_ok, false_and, false_or, true_and,
      eq_comm (a := x)]

/-- A field that has been read trimmed reads the same as it stands if the conversion sees the
difference. -/
theorem parseField_trimmed {convert : GoString → Except String α} {s : GoString}
    (hconvert : ∀ a, convert s = .ok a → convert (trimSpace s) = .ok a → trimSpace s = s)
    (h : parseField any zero (convert (trimSpace s)) = .ok x) :
    parseField any zero (convert s) = .ok x ↔ any = true ∨ trimSpace s = s := by
  constructor
  · intro hraw
    rcases parseField_ok.mp h with ⟨hany, -⟩ | ⟨hnone, a, ha, rfl⟩
    · exact .inl hany
    · rcases parseField_ok.mp hraw with ⟨hany, -⟩ | ⟨-, a', ha', heq⟩
      · rw [hnone] at hany
        cases hany
      · obtain rfl : a = a' := congrArg Prod.fst heq
        exact .inr (hconvert a ha' ha)
  · rintro (rfl | hplain)
    · exact h
    · rwa [hplain] at h

/-- A field that reads as it stands reads trimmed if the conversion refuses white space. -/
theorem exists_parseField_trimmed {convert : GoString → Except String α} {s : GoString}
    (hconvert : ∀ a, convert s = .ok a → trimSpace s = s)
    (h : parseField any zero (convert s) = .ok x) :
    ∃ x, parseField any zero (convert (trimSpace s)) = .ok x := by
  rcases parseField_ok.mp h with ⟨rfl, -⟩ | ⟨-, a, ha, -⟩
  · exact ⟨_, rfl⟩
  · rw [hconvert a ha]
    exact ⟨x, h⟩

theorem exists_parseField {convert : Except String α} :
    (∃ x, parseField any zero convert = .ok x) ↔ any = true ∨ ∃ a, convert = .ok a := by
  unfold parseField
  cases any with
  | true => simp [pure, Except.pure]
  | false => simp [map_ok]

/-! ### The four fields -/

variable {T : Text} {s : GoString}

/-- The names of protocols. -/
def protoNames : List GoString := [[], ascii "any", ascii "tcp", ascii "udp", ascii "icmp"]

theorem exists_parseProto :
    (∃ p, parseProto T s = .ok p) ↔ T.toLower (trimSpace s) ∈ protoNames := by
  simp only [protoNames, List.mem_cons, List.not_mem_nil, or_false]
  unfold parseProto
  simp only [wildcard, Bool.or_eq_true, beq_iff_eq]
  split_ifs with hany htcp hudp hicmp
  · exact ⟨fun _ => hany.elim .inl fun h => .inr (.inl h), fun _ => ⟨_, rfl⟩⟩
  · exact ⟨fun _ => .inr (.inr (.inl htcp)), fun _ => ⟨_, rfl⟩⟩
  · exact ⟨fun _ => .inr (.inr (.inr (.inl hudp))), fun _ => ⟨_, rfl⟩⟩
  · exact ⟨fun _ => .inr (.inr (.inr (.inr hicmp))), fun _ => ⟨_, rfl⟩⟩
  · constructor
    · rintro ⟨p, hp⟩
      cases hp
    · rintro (h | h | h | h | h)
      · exact absurd (.inl h) hany
      · exact absurd (.inr h) hany
      · exact absurd h htcp
      · exact absurd h hudp
      · exact absurd h hicmp

/-- The protocol is all the same: only the text of the error differs. -/
theorem parseProto_trimSpace (p : Proto) :
    parseProto T (trimSpace s) = .ok p ↔ parseProto T s = .ok p := by
  simp only [parseProto, trimSpace_trimSpace]
  split_ifs
  · rfl
  · rfl
  · rfl
  · rfl
  · rfl

theorem exists_convertPort :
    (∃ n, convertPort T s = .ok n) ↔ ∃ n, T.parseUint s = .ok n := by
  simp only [convertPort, map_ok, mapError_ok]
  exact ⟨fun ⟨_, n, hn, _⟩ => ⟨n, hn⟩, fun ⟨n, hn⟩ => ⟨_, n, hn, rfl⟩⟩

theorem trimSpace_of_convertPort {n : UInt16} (h : convertPort T s = .ok n) : trimSpace s = s := by
  obtain ⟨k, hk⟩ := exists_convertPort.mp ⟨n, h⟩
  exact Text.trimSpace_of_parseUint hk

theorem parsePort_trimSpace (T : Text) (s : GoString) :
    parsePort T (trimSpace s)
      = parseField (wildcard (T.toLower (trimSpace s))) 0 (convertPort T (trimSpace s)) := by
  rw [parsePort, trimSpace_trimSpace]

theorem parseGroup_trimSpace (s : GoString) :
    parseGroup (trimSpace s)
      = parseField (wildcard (trimSpace s)) [] (pure (trimSpace s)) := by
  rw [parseGroup, trimSpace_trimSpace]

theorem exists_convertCIDR :
    (∃ p, convertCIDR T s = .ok p) ↔ ∃ p, T.parsePrefix s = .ok p := by
  simp only [convertCIDR, map_ok, mapError_ok]
  exact ⟨fun ⟨_, p, hp, _⟩ => ⟨p, hp⟩, fun ⟨p, hp⟩ => ⟨_, p, hp, rfl⟩⟩

theorem trimSpace_of_convertCIDR (hT : T.RefusesPadding) {p : IPPrefix}
    (h : convertCIDR T s = .ok p) : trimSpace s = s := by
  obtain ⟨q, hq⟩ := exists_convertCIDR.mp ⟨p, h⟩
  exact hT s q hq

theorem parseCIDR_trimSpace (T : Text) (s : GoString) :
    parseCIDR T (trimSpace s) = parseField (wildcard (T.toLower (trimSpace s))) IPPrefix.zero
      (convertCIDR T (trimSpace s)) := by
  rw [parseCIDR, trimSpace_trimSpace]

end Rule

theorem parseRule_ok {T : Text} {r : FirewallRule} {rule : Rule} :
    parseRule T r = .ok rule ↔ Rule.parseProto T r.proto = .ok rule.proto ∧
      Rule.parsePort T r.port = .ok (rule.port, rule.portAny) ∧
      Rule.parseGroup r.group = .ok (rule.group, rule.groupAny) ∧
      Rule.parseCIDR T r.cidr = .ok (rule.cidr, rule.cidAny) := by
  simp only [parseRule, bind_ok, pure_ok]
  constructor
  · rintro ⟨proto, hproto, ⟨port, portAny⟩, hport, ⟨group, groupAny⟩, hgroup, ⟨cidr, cidAny⟩, hcidr,
      rfl⟩
    exact ⟨hproto, hport, hgroup, hcidr⟩
  · rintro ⟨hproto, hport, hgroup, hcidr⟩
    exact ⟨_, hproto, _, hport, _, hgroup, _, hcidr, rfl⟩

/-! ### Rules with and without white space

The fields are trimmed to see whether they are wildcards and then, but for the protocol, used as
they were written. -/

namespace FirewallRule

/-- The rule with `TrimSpace` of each field. -/
def trimmed (r : FirewallRule) : FirewallRule :=
  ⟨trimSpace r.port, trimSpace r.proto, trimSpace r.group, trimSpace r.cidr⟩

/-- Each field means something once the white space is off: it names a protocol, or is a wildcard,
or can be converted. -/
structure Readable (T : Text) (r : FirewallRule) : Prop where
  proto : T.toLower (trimSpace r.proto) ∈ Rule.protoNames
  port : wildcard (T.toLower (trimSpace r.port)) = true ∨
    ∃ n, T.parseUint (trimSpace r.port) = .ok n
  cidr : wildcard (T.toLower (trimSpace r.cidr)) = true ∨
    ∃ p, T.parsePrefix (trimSpace r.cidr) = .ok p

/-- Only the protocol and wildcards have white space around them. -/
structure Tight (T : Text) (r : FirewallRule) : Prop where
  port : wildcard (T.toLower (trimSpace r.port)) = true ∨ trimSpace r.port = r.port
  group : wildcard (trimSpace r.group) = true ∨ trimSpace r.group = r.group
  cidr : wildcard (T.toLower (trimSpace r.cidr)) = true ∨ trimSpace r.cidr = r.cidr

variable {T : Text} {r : FirewallRule} {rule : Rule}

theorem readable_iff : r.Readable T ↔ ∃ rule, parseRule T r.trimmed = .ok rule := by
  constructor
  · rintro ⟨hproto, hport, hcidr⟩
    obtain ⟨proto, hproto⟩ := Rule.exists_parseProto.mpr hproto
    obtain ⟨port, hport⟩ := Rule.exists_parseField.mpr
      (hport.imp_right Rule.exists_convertPort.mpr)
    obtain ⟨group, hgroup⟩ : ∃ x, Rule.parseGroup (trimSpace r.group) = .ok x :=
      Rule.exists_parseField.mpr (.inr ⟨_, rfl⟩)
    obtain ⟨cidr, hcidr⟩ := Rule.exists_parseField.mpr
      (hcidr.imp_right Rule.exists_convertCIDR.mpr)
    rw [← Rule.parsePort_trimSpace] at hport
    rw [← Rule.parseCIDR_trimSpace] at hcidr
    exact ⟨⟨port.1, port.2, proto, group.1, group.2, cidr.1, cidr.2⟩,
      parseRule_ok.mpr ⟨(Rule.parseProto_trimSpace proto).mpr hproto, hport, hgroup, hcidr⟩⟩
  · rintro ⟨rule, h⟩
    obtain ⟨hproto, hport, -, hcidr⟩ := parseRule_ok.mp h
    rw [trimmed, Rule.parsePort_trimSpace] at hport
    rw [trimmed, Rule.parseCIDR_trimSpace] at hcidr
    refine ⟨Rule.exists_parseProto.mp ⟨_, (Rule.parseProto_trimSpace _).mp hproto⟩, ?_, ?_⟩
    · exact (Rule.exists_parseField.mp ⟨_, hport⟩).imp_right Rule.exists_convertPort.mp
    · exact (Rule.exists_parseField.mp ⟨_, hcidr⟩).imp_right Rule.exists_convertCIDR.mp

/-- A rule that can be read trimmed reads the same as it stands exactly if it is tight. -/
theorem parseRule_eq_iff (hT : T.RefusesPadding) (h : parseRule T r.trimmed = .ok rule) :
    parseRule T r = .ok rule ↔ r.Tight T := by
  obtain ⟨hproto, hport, hgroup, hcidr⟩ := parseRule_ok.mp h
  rw [trimmed, Rule.parsePort_trimSpace] at hport
  rw [trimmed, Rule.parseGroup_trimSpace] at hgroup
  rw [trimmed, Rule.parseCIDR_trimSpace] at hcidr
  have hport' := Rule.parseField_trimmed (fun _ hn _ => Rule.trimSpace_of_convertPort hn) hport
  have hgroup' := Rule.parseField_trimmed
    (fun _ hraw htrimmed => Except.ok.inj (htrimmed.trans hraw.symm)) hgroup
  have hcidr' := Rule.parseField_trimmed (fun _ hp _ => Rule.trimSpace_of_convertCIDR hT hp) hcidr
  rw [parseRule_ok]
  constructor
  · rintro ⟨-, hp, hg, hc⟩
    exact ⟨hport'.mp hp, hgroup'.mp hg, hcidr'.mp hc⟩
  · rintro ⟨hp, hg, hc⟩
    exact ⟨(Rule.parseProto_trimSpace _).mp hproto, hport'.mpr hp, hgroup'.mpr hg, hcidr'.mpr hc⟩

theorem readable_of_parseRule (hT : T.RefusesPadding) (h : parseRule T r = .ok rule) :
    r.Readable T := by
  obtain ⟨hproto, hport, -, hcidr⟩ := parseRule_ok.mp h
  have hport' := Rule.exists_parseField_trimmed
    (fun _ hn => Rule.trimSpace_of_convertPort hn) hport
  have hcidr' := Rule.exists_parseField_trimmed
    (fun _ hp => Rule.trimSpace_of_convertCIDR hT hp) hcidr
  exact ⟨Rule.exists_parseProto.mp ⟨_, hproto⟩,
    (Rule.exists_parseField.mp hport').imp_right Rule.exists_convertPort.mp,
    (Rule.exists_parseField.mp hcidr').imp_right Rule.exists_convertCIDR.mp⟩

/-- What a rule says about a packet, if it can be read. -/
def verdict (parsed : Except String Rule) (remoteIP : Addr) (remoteGroups : List GoString)
    (port : UInt16) (proto : Proto) : Option Bool :=
  parsed.toOption.map fun rule => ruleMatches rule remoteIP remoteGroups port proto

theorem sameResult_iff_tight (hT : T.RefusesPadding) (r : FirewallRule) :
    SameResult (parseRule T r) (parseRule T r.trimmed) ↔ (r.Readable T → r.Tight T) := by
  constructor
  · intro hsame hreadable
    obtain ⟨rule, hrule⟩ := readable_iff.mp hreadable
    exact (parseRule_eq_iff hT hrule).mp ((sameResult_iff.mp hsame rule).mpr hrule)
  · intro htight
    refine sameResult_iff.mpr fun rule => ⟨fun h => ?_, fun h => ?_⟩
    · have hreadable := readable_of_parseRule hT h
      obtain ⟨rule', hrule'⟩ := readable_iff.mp hreadable
      have hsame := (parseRule_eq_iff hT hrule').mpr (htight hreadable)
      rw [hrule', ← hsame, h]
    · exact (parseRule_eq_iff hT h).mpr (htight (readable_iff.mpr ⟨rule, h⟩))

/-- **When white space around the fields of a rule makes no difference.**  A rule and its trimmed
form both fail or both give the same rule, and then the same verdict on every packet, exactly if
the trimmed rule cannot be read or nothing but the protocol and wildcards has white space around
it. -/
theorem parseRule_ignores_space_iff (hT : T.RefusesPadding) (r : FirewallRule) :
    (SameResult (parseRule T r) (parseRule T r.trimmed) ∧
      ∀ remoteIP remoteGroups port proto,
        verdict (parseRule T r) remoteIP remoteGroups port proto
          = verdict (parseRule T r.trimmed) remoteIP remoteGroups port proto) ↔
      (r.Readable T → r.Tight T) := by
  rw [← sameResult_iff_tight hT]
  refine ⟨And.left, fun h => ⟨h, fun remoteIP remoteGroups port proto => ?_⟩⟩
  rcases h with ⟨⟨e, he⟩, e', he'⟩ | ⟨rule, hrule, hrule'⟩
  · rw [he, he']
    rfl
  · rw [hrule, hrule']

/-- A text library good enough for the rules below. -/
def plainText : Text where
  toLower s := s.map fun c => if 65 ≤ c ∧ c ≤ 90 then c + 32 else c
  quote s := "\"" ++ String.ofList (s.map fun c => Char.ofNat c.toNat) ++ "\""
  parsePrefix s :=
    if s = ascii "10.0.0.0/8" then pure ⟨.from4 10 0 0 0, some 8⟩
    else throw ("netip.ParsePrefix(\"" ++ String.ofList (s.map fun c => Char.ofNat c.toNat)
      ++ "\"): no '/'")

theorem plainText_refusesPadding : plainText.RefusesPadding := by
  intro s p h
  by_cases hs : s = ascii "10.0.0.0/8"
  · rw [hs]
    decide
  · cases (if_neg hs).symm.trans h

theorem parseRule_ignores_space_padded_wildcards :
    SameResult (parseRule plainText ⟨ascii " any ", ascii "\tTCP", ascii "servers", ascii "  "⟩)
      (parseRule plainText ⟨ascii "any", ascii "TCP", ascii "servers", []⟩) :=
  ((parseRule_ignores_space_iff plainText_refusesPadding
    ⟨ascii " any ", ascii "\tTCP", ascii "servers", ascii "  "⟩).mpr fun _ =>
      ⟨by decide, by decide, by decide⟩).1

/-- A group with a blank in front of it is another group, and a port or a network with one is
none. -/
theorem parseRule_keeps_space :
    ¬ SameResult (parseRule plainText ⟨ascii "443", ascii "tcp", ascii " servers", []⟩)
        (parseRule plainText ⟨ascii "443", ascii "tcp", ascii "servers", []⟩) ∧
    ¬ SameResult (parseRule plainText ⟨ascii " 443", ascii "tcp", ascii "servers", []⟩)
        (parseRule plainText ⟨ascii "443", ascii "tcp", ascii "servers", []⟩) ∧
    ¬ SameResult (parseRule plainText ⟨ascii "443", ascii "tcp", [], ascii " 10.0.0.0/8"⟩)
        (parseRule plainText ⟨ascii "443", ascii "tcp", [], ascii "10.0.0.0/8"⟩) ∧
    (∃ rule rule', parseRule plainText ⟨ascii "443", ascii "tcp", ascii " servers", []⟩ = .ok rule ∧
      parseRule plainText ⟨ascii "443", ascii "tcp", ascii "servers", []⟩ = .ok rule' ∧
      ruleMatches rule (.from4 10 0 0 2) (groupList (ascii "servers, db")) 443 protoTCP = false ∧
      ruleMatches rule' (.from4 10 0 0 2) (groupList (ascii "servers, db")) 443 protoTCP = true) ∧
    (∃ e, parseRule plainText ⟨ascii " 443", ascii "tcp", ascii "servers", []⟩ = .error e) ∧
    ∃ e, parseRule plainText ⟨ascii "443", ascii "tcp", [], ascii " 10.0.0.0/8"⟩ = .error e := by
  refine ⟨?_, ?_, ?_, ⟨_, _, rfl, rfl, ?_, ?_⟩, ⟨_, rfl⟩, _, rfl⟩
  · exact fun h => absurd ((sameResult_iff.mp h _).mp rfl) (by decide +kernel)
  · exact fun h => absurd ((sameResult_iff.mp h _).mpr rfl) (by decide +kernel)
  · exact fun h => absurd ((sameResult_iff.mp h _).mpr rfl) (by decide +kernel)
  · decide +kernel
  · decide +kernel

end FirewallRule

end Neth
