/-
What is put into a certificate comes out of it again.

`Sign` returns what `parseDER` makes of the bytes that were signed, so two things are to
be shown: that each of the three decoders undoes its encoder, and that the loop over the
extensions assigns each field once.  The decoders rest on the DER readers.  The address
family is chosen by the length of the address, and an address has the length of its
family; the number of groups and the lengths of their names are those of Go slices,
whose encodings stay far below the longest DER length.

A node that holds such a certificate for its own key is an honest one.
-/
import Neth.Proofs.RoundTrip

namespace Neth

variable {P : Platform} {X : Issuer}

/-! ### Addresses -/

theorem Addr.fromSlice_octets {p : IPPrefix} (h : p.Valid) :
    Addr.fromSlice p.addr.octets = some p.addr := by
  have hbits : ∀ {k : Nat} (ip : BitVec (8 * k)),
      BitVec.ofNat (8 * k) (Bytes.beGet (Bytes.bePut k ip.toNat)) = ip := by
    intro k ip
    rw [Bytes.beGet_bePut, show 256 ^ k = 2 ^ (8 * k) from (Nat.pow_mul 2 8 k).symm,
      Nat.mod_eq_of_lt ip.isLt, BitVec.ofNat_toNat, BitVec.setWidth_eq]
  obtain ⟨addr, n, hzero, -, rfl⟩ := h
  cases addr with
  | zero => exact absurd rfl hzero
  | v4 ip =>
      unfold Addr.fromSlice
      simp only [IPPrefix.ofAddr, Addr.withoutZone, Addr.octets, Bytes.length_bePut]
      exact congrArg (fun ip => some (Addr.v4 ip)) (hbits (k := 4) ip)
  | v6 ip zone =>
      unfold Addr.fromSlice
      simp only [IPPrefix.ofAddr, Addr.withoutZone, Addr.octets, Addr.as16, Bytes.length_bePut]
      exact congrArg (fun ip => some (Addr.v6 ip [])) (hbits (k := 16) ip)

/-- The prefix is made of its address and its length, and the length fits an `int`. -/
theorem IPPrefix.Valid.ofAddr_bitCount {p : IPPrefix} (h : p.Valid) :
    IPPrefix.ofAddr p.addr p.bitCount = p ∧ 0 ≤ p.bitCount ∧ p.bitCount ≤ 128 := by
  obtain ⟨addr, n, hzero, hn, rfl⟩ := h
  cases addr with
  | zero => exact absurd rfl hzero
  | v4 ip =>
      have hn' : (n : Int) ≤ 32 := by exact_mod_cast hn
      simp [IPPrefix.ofAddr, IPPrefix.bitCount, Addr.withoutZone, Addr.bitLen, hn']
      omega
  | v6 ip zone =>
      have hn' : (n : Int) ≤ 128 := by exact_mod_cast hn
      simp [IPPrefix.ofAddr, IPPrefix.bitCount, Addr.withoutZone, Addr.bitLen, hn']

theorem Addr.length_octets_le (a : Addr) : a.octets.length ≤ 16 := by
  cases a with
  | zero => decide
  | v4 ip => simp [octets]
  | v6 ip zone => simp [octets, as16]

namespace Certificate

/-! ### The three extensions -/

/-- The elements of the address extension. -/
def vpnIPVals (vpnIP : IPPrefix) : List (UInt8 × Bytes) :=
  [(DER.octetStringTag, vpnIP.addr.octets), (DER.integerTag, DER.integerOctets vpnIP.bitCount)]

/-- The elements of the groups extension. -/
def groupVals (groups : List GoString) : List (UInt8 × Bytes) :=
  groups.map fun g => (tagUTF8String, g)

/-- A slice of slices: what `len` returns is an `int`. -/
def GoSlices (groups : List GoString) : Prop :=
  groups.length < 2 ^ 63 ∧ ∀ g ∈ groups, g.length < 2 ^ 63

variable {vpnIP : IPPrefix} {groups : List GoString} {pub : Bytes}

theorem length_integerOctets_bitCount (h : vpnIP.Valid) :
    (DER.integerOctets vpnIP.bitCount).length ≤ 2 := by
  obtain ⟨-, hlow, hhigh⟩ := h.ofAddr_bitCount
  obtain ⟨n, hn⟩ := Int.eq_ofNat_of_zero_le hlow
  rw [DER.integerOctets, Bytes.length_bePut, DER.integerWidth, hn]
  refine DER.width_le (by decide) ?_
  show 2 * n < 256 ^ 2
  omega

theorem vpnIPVals_small (h : vpnIP.Valid) :
    (∀ x ∈ vpnIPVals vpnIP, DER.Writable x) ∧
      (DER.elements (vpnIPVals vpnIP)).length < DER.limit := by
  have hlen : ∀ x ∈ vpnIPVals vpnIP, x.2.length < 17 := by
    intro x hx
    rcases List.mem_pair.mp hx with rfl | rfl
    · exact Nat.lt_succ_of_le vpnIP.addr.length_octets_le
    · exact Nat.lt_of_le_of_lt (length_integerOctets_bitCount h) (by decide)
  refine ⟨fun x hx => ⟨?_, Nat.lt_of_lt_of_le (hlen x hx) (by decide)⟩, ?_⟩
  · rcases List.mem_pair.mp hx with rfl | rfl
    · exact (by decide : DER.octetStringTag.toNat % 32 ≠ 31)
    · exact (by decide : DER.integerTag.toNat % 32 ≠ 31)
  · exact Nat.lt_of_le_of_lt (DER.length_elements_le (by decide) hlen)
      (show 2 * (17 + 128) < DER.limit by decide)

theorem decodeVpnIP_sequence (hreads : P.ReadsDER) (h : vpnIP.Valid) :
    decodeVpnIP P (DER.sequence (vpnIPVals vpnIP)) = .ok vpnIP := by
  obtain ⟨hwritable, hsmall⟩ := vpnIPVals_small h
  obtain ⟨hof, hlow, hhigh⟩ := h.ofAddr_bitCount
  have hread : DER.readSequence (DER.sequence (vpnIPVals vpnIP)) = some (vpnIPVals vpnIP, []) := by
    simpa using DER.readSequence_append hwritable hsmall []
  have hunmarshal := hreads.vpnIP _ _ _ _ vpnIP.bitCount hread
    (DER.readInteger_integerOctets vpnIP.bitCount) (by omega) (by omega)
  simp [decodeVpnIP, hunmarshal, Except.mapError, bind, Except.bind, pure, Except.pure,
    Addr.fromSlice_octets h, hof]

theorem groupVals_small (h : GoSlices groups) :
    (∀ x ∈ groupVals groups, DER.Writable x) ∧
      (DER.elements (groupVals groups)).length < DER.limit := by
  obtain ⟨hcount, hnames⟩ := h
  have hlen : ∀ x ∈ groupVals groups, x.2.length < 2 ^ 63 := by
    intro x hx
    obtain ⟨g, hg, rfl⟩ := List.mem_map.mp hx
    exact hnames g hg
  refine ⟨fun x hx => ⟨?_, ?_⟩, ?_⟩
  · obtain ⟨g, -, rfl⟩ := List.mem_map.mp hx
    exact (by decide : tagUTF8String.toNat % 32 ≠ 31)
  · exact Nat.lt_of_lt_of_le (hlen x hx) (by decide)
  · have hle := DER.length_elements_le (by decide) hlen
    have hcount' : (groupVals groups).length < 2 ^ 63 := by
      rw [groupVals, List.length_map]
      exact hcount
    calc (DER.elements (groupVals groups)).length
        ≤ (groupVals groups).length * (2 ^ 63 + 128) := hle
      _ ≤ 2 ^ 63 * (2 ^ 63 + 128) := Nat.mul_le_mul_right _ (Nat.le_of_lt hcount')
      _ < DER.limit := by decide

theorem decodeGroups_sequence (hreads : P.ReadsDER) (h : GoSlices groups) :
    decodeGroups P (DER.sequence (groupVals groups)) = .ok groups := by
  obtain ⟨hwritable, hsmall⟩ := groupVals_small h
  have hread : DER.readSequence (DER.sequence (groupVals groups))
      = some (groupVals groups, []) := by
    simpa using DER.readSequence_append hwritable hsmall []
  unfold decodeGroups
  rw [hreads.rawValues _ _ _ hread, groupVals, List.map_map]
  exact congrArg Except.ok (List.map_id groups)

theorem decodeCurve25519Key_element (hreads : P.ReadsDER) (h : pub.length = 32) :
    decodeCurve25519Key P (DER.element DER.octetStringTag pub) = .ok pub := by
  have hread : DER.readElement (DER.element DER.octetStringTag pub)
      = some (DER.octetStringTag, pub, []) := by
    simpa using DER.readElement_append (by decide) (by rw [h]; decide) []
  unfold decodeCurve25519Key
  rw [hreads.octets _ _ _ hread]
  simp [Except.mapError, bind, Except.bind, pure, Except.pure, h]

/-! ### The loop over the extensions

The loop of `parseDER` skips what it does not know, so extensions that `CreateCertificate` adds on
its own account make no difference. -/

theorem readExtension_idCE {c : Certificate} {ext : OID × Bytes}
    (h : idCE.isPrefixOf ext.1 = true) : readExtension P c ext = pure c := by
  have hne : ∀ oid : OID, idCE.isPrefixOf oid = false → ext.1 ≠ oid := by
    rintro oid hoid rfl
    rw [h] at hoid
    cases hoid
  unfold readExtension
  rw [if_neg (hne _ (by decide)), if_neg (hne _ (by decide)), if_neg (hne _ (by decide))]

/-- X.509's own extensions are passed over. -/
theorem foldlM_readExtension_filter (exts : List (OID × Bytes)) :
    ∀ c : Certificate, exts.foldlM (readExtension P) c
      = (exts.filter fun ext => !idCE.isPrefixOf ext.1).foldlM (readExtension P) c := by
  induction exts with
  | nil => exact fun c => rfl
  | cons ext exts ih =>
      intro c
      cases hext : idCE.isPrefixOf ext.1 with
      | true =>
          rw [List.foldlM_cons, readExtension_idCE hext, List.filter_cons_of_neg (by simp [hext]),
            ← ih c]
          rfl
      | false =>
          rw [List.filter_cons_of_pos (by simp [hext]), List.foldlM_cons, List.foldlM_cons]
          exact congrArg (readExtension P c ext >>= ·) (funext ih)

/-- The extensions of an issued certificate. -/
def extensionsOf (vpnIP : IPPrefix) (groups : List GoString) (pub : Bytes) : List (OID × Bytes) :=
  [(oidVpnIP, DER.sequence (vpnIPVals vpnIP)),
    (oidCurve25519Key, DER.element DER.octetStringTag pub)]
    ++ if groups = [] then [] else [(oidGroups, DER.sequence (groupVals groups))]

theorem encodeVpnIP_eq (hwrites : X.WritesDER) (h : vpnIP.Valid) :
    encodeVpnIP X vpnIP = .ok (oidVpnIP, DER.sequence (vpnIPVals vpnIP)) := by
  unfold encodeVpnIP
  rw [hwrites.vpnIP vpnIP.addr.octets vpnIP.bitCount (vpnIPVals_small h).2]
  rfl

theorem encodeGroups_eq (hwrites : X.WritesDER) (h : GoSlices groups) :
    encodeGroups X groups = .ok (oidGroups, DER.sequence (groupVals groups)) := by
  have hmarshal := hwrites.rawValues _ (groupVals_small h).2
  unfold groupVals at hmarshal
  simp only [encodeGroups, hmarshal]
  rfl

theorem encodeCurve25519Key_eq (hwrites : X.WritesDER) (h : pub.length = 32) :
    encodeCurve25519Key X pub = .ok (oidCurve25519Key, DER.element DER.octetStringTag pub) := by
  unfold encodeCurve25519Key
  rw [hwrites.octets pub (by rw [h]; decide), if_neg (not_not.mpr h)]
  rfl

theorem extras_eq (hwrites : X.WritesDER) (hip : vpnIP.Valid) (hgroups : GoSlices groups)
    (hpub : pub.length = 32) : extras X vpnIP groups pub = .ok (extensionsOf vpnIP groups pub) := by
  unfold extras
  rw [encodeVpnIP_eq hwrites hip, encodeCurve25519Key_eq hwrites hpub]
  cases groups with
  | nil => rfl
  | cons g groups =>
      rw [encodeGroups_eq hwrites hgroups]
      rfl

section

variable (c : Certificate)

theorem readExtension_vpnIP (hreads : P.ReadsDER) (h : vpnIP.Valid) :
    readExtension P c (oidVpnIP, DER.sequence (vpnIPVals vpnIP)) = .ok { c with vpnIP } := by
  rw [readExtension, if_pos rfl, decodeVpnIP_sequence hreads h]
  rfl

theorem readExtension_groups (hreads : P.ReadsDER) (h : GoSlices groups) :
    readExtension P c (oidGroups, DER.sequence (groupVals groups)) = .ok { c with groups } := by
  rw [readExtension, if_neg (show oidGroups ≠ oidVpnIP by decide), if_pos rfl,
    decodeGroups_sequence hreads h]
  rfl

theorem readExtension_curve25519Key (hreads : P.ReadsDER) (h : pub.length = 32) :
    readExtension P c (oidCurve25519Key, DER.element DER.octetStringTag pub)
      = .ok { c with x25519PublicKey := pub } := by
  rw [readExtension, if_neg (show oidCurve25519Key ≠ oidVpnIP by decide),
    if_neg (show oidCurve25519Key ≠ oidGroups by decide), if_pos rfl,
    decodeCurve25519Key_element hreads h]
  rfl

end

theorem foldlM_extensionsOf (hreads : P.ReadsDER) (hip : vpnIP.Valid) (hgroups : GoSlices groups)
    (hpub : pub.length = 32) (der : Bytes) (x : X509) :
    (extensionsOf vpnIP groups pub).foldlM (readExtension P) ⟨der, x, IPPrefix.zero, [], []⟩
      = .ok ⟨der, x, vpnIP, groups, pub⟩ := by
  unfold extensionsOf
  rw [List.cons_append, List.foldlM_cons, readExtension_vpnIP _ hreads hip]
  show List.foldlM (readExtension P) _ _ = _
  rw [List.cons_append, List.foldlM_cons, readExtension_curve25519Key _ hreads hpub]
  split
  case isTrue hnil =>
    rw [hnil]
    rfl
  case isFalse =>
    show List.foldlM (readExtension P) _ _ = _
    rw [List.nil_append, List.foldlM_cons, readExtension_groups _ hreads hgroups]
    rfl

/-- What `parseDER` makes of bytes that carry the extensions. -/
theorem parseDER_of_carried (hreads : P.ReadsDER) (hip : vpnIP.Valid) (hgroups : GoSlices groups)
    (hpub : pub.length = 32) {der : Bytes} {x : X509} (hx : P.parseCertificate der = .ok x)
    (hexts : x.extensions.filter (fun ext => !idCE.isPrefixOf ext.1)
      = (extensionsOf vpnIP groups pub).filter fun ext => !idCE.isPrefixOf ext.1) :
    parseDER P der = .ok ⟨der, x, vpnIP, groups, pub⟩ := by
  unfold parseDER
  rw [hx]
  show List.foldlM (readExtension P) _ _ = _
  rw [foldlM_readExtension_filter, hexts, ← foldlM_readExtension_filter,
    foldlM_extensionsOf hreads hip hgroups hpub]

/-- Without groups there is no extension that would set them, so that the field stays nil. -/
theorem ne_oidGroups_of_carried {x : X509}
    (hexts : x.extensions.filter (fun ext => !idCE.isPrefixOf ext.1)
      = (extensionsOf vpnIP [] pub).filter fun ext => !idCE.isPrefixOf ext.1) :
    ∀ ext ∈ x.extensions, ext.1 ≠ oidGroups := by
  intro ext hmem heq
  have hkept : ext ∈ x.extensions.filter fun ext => !idCE.isPrefixOf ext.1 := by
    refine List.mem_filter.mpr ⟨hmem, ?_⟩
    rw [heq]
    decide
  rw [hexts] at hkept
  have hlisted := List.mem_of_mem_filter hkept
  simp only [extensionsOf, if_pos, List.append_nil] at hlisted
  rcases List.mem_pair.mp hlisted with rfl | rfl
  · exact absurd heq (show oidVpnIP ≠ oidGroups by decide)
  · exact absurd heq (show oidCurve25519Key ≠ oidGroups by decide)

/-! ### `Sign` -/

/-- A key of any other length is refused before anything is signed. -/
theorem sign_error (hpub : pub.length ≠ 32) (env : SignEnv) (ca : Certificate) (name : GoString)
    (vpnIP : IPPrefix) (groups : List GoString) (duration : Time) (caKey : X.Signer) :
    ∃ e, sign P X env ca name vpnIP groups pub duration caKey = .error e := by
  unfold sign extras encodeCurve25519Key
  rw [if_pos hpub]
  cases env.nodePub with
  | error e => exact ⟨_, rfl⟩
  | ok nodePub =>
      cases encodeVpnIP X vpnIP with
      | error e => exact ⟨_, rfl⟩
      | ok ext => exact ⟨_, rfl⟩

theorem sign_ok {env : SignEnv} {ca c : Certificate} {name : GoString} {duration : Time}
    {caKey : X.Signer} : sign P X env ca name vpnIP groups pub duration caKey = .ok c ↔
      ∃ nodePub, env.nodePub = .ok nodePub ∧ ∃ exts, extras X vpnIP groups pub = .ok exts ∧
        ∃ der, X.createCertificate (template env name duration exts) ca.x509 nodePub caKey
          = .ok der ∧ parseDER P der = .ok c := by
  simp only [sign, Fallible.bind_ok, Fallible.mapError_ok]

/-- The extensions `Sign` adds are all under the arc of the repository. -/
theorem private_template (env : SignEnv) (name : GoString) (duration : Time)
    {exts : List (OID × Bytes)} (h : extras X vpnIP groups pub = .ok exts) :
    (template env name duration exts).Private := by
  have hoids : ∀ ext ∈ exts, ext.1 ∈ [oidVpnIP, oidCurve25519Key, oidGroups] := by
    unfold extras at h
    obtain ⟨extVpnIP, hvpnIP, h⟩ := Fallible.bind_ok.mp h
    obtain ⟨extCurve, hcurve, h⟩ := Fallible.bind_ok.mp h
    simp only [encodeVpnIP, encodeCurve25519Key, Fallible.mapError_ok, Fallible.throw_bind,
      Fallible.ite_throw_ok, Fallible.bind_ok, Fallible.pure_ok] at hvpnIP hcurve
    obtain ⟨ip, -, rfl⟩ := hvpnIP
    obtain ⟨-, key, -, rfl⟩ := hcurve
    split_ifs at h
    · obtain ⟨extGroups, hgroups, h⟩ := Fallible.bind_ok.mp h
      simp only [encodeGroups, Fallible.mapError_ok, Fallible.bind_ok, Fallible.pure_ok] at hgroups
      obtain ⟨gs, -, rfl⟩ := hgroups
      rw [← Fallible.pure_ok.mp h]
      simp
    · rw [← Fallible.pure_ok.mp h]
      simp
  intro ext hext
  exact (by decide : ∀ oid ∈ [oidVpnIP, oidCurve25519Key, oidGroups],
    idCE.isPrefixOf oid = false) _ (hoids ext hext)

section

variable (hreads : P.ReadsDER) (hcarries : X.CarriesExtensions P) (hip : vpnIP.Valid)
  (hgroups : GoSlices groups)
include hreads hcarries hip hgroups

/-- What `Sign` makes of the bytes it had signed. -/
theorem parseDER_signed (hpub : pub.length = 32) {env : SignEnv} {name : GoString}
    {duration : Time} {parent : X509} {nodePub : Bytes} {caKey : X.Signer} {der : Bytes}
    (hder : X.createCertificate (template env name duration (extensionsOf vpnIP groups pub)) parent
      nodePub caKey = .ok der) :
    ∃ x, parseDER P der = .ok ⟨der, x, vpnIP, groups, pub⟩ ∧
      (groups = [] → ∀ ext ∈ x.extensions, ext.1 ≠ oidGroups) := by
  obtain ⟨x, hx, hexts⟩ := hcarries _ _ _ _ _ hder
  refine ⟨x, parseDER_of_carried hreads hip hgroups hpub hx hexts, ?_⟩
  rintro rfl
  exact ne_oidGroups_of_carried hexts

/-- An issued certificate, field by field. -/
theorem eq_of_sign (hwrites : X.WritesDER) {env : SignEnv} {ca c : Certificate} {name : GoString}
    {duration : Time} {caKey : X.Signer}
    (h : sign P X env ca name vpnIP groups pub duration caKey = .ok c) :
    c = ⟨c.raw, c.x509, vpnIP, groups, pub⟩ ∧
      (groups = [] → ∀ ext ∈ c.x509.extensions, ext.1 ≠ oidGroups) ∧
      parseDER P c.raw = .ok c := by
  have hpub : pub.length = 32 := by
    by_contra hne
    obtain ⟨e, he⟩ := sign_error hne env ca name vpnIP groups duration caKey
    rw [h] at he
    cases he
  obtain ⟨nodePub, -, exts, hexts, der, hder, hparse⟩ := sign_ok.mp h
  rw [extras_eq hwrites hip hgroups hpub] at hexts
  obtain rfl := Except.ok.inj hexts
  obtain ⟨x, hx, hnil⟩ := parseDER_signed hreads hcarries hip hgroups hpub hder
  obtain rfl := Except.ok.inj (hx.symm.trans hparse)
  exact ⟨rfl, hnil, hx⟩

end

/-- **What a certificate is issued for can be read from it.**  `Sign` refuses a key that is not 32
bytes long.  For a valid address, any groups and a key of 32 bytes it returns a certificate as soon
as the key pair and the signature can be had.  The certificate has the address, the groups and the
key it was issued for, and no extension sets the groups if there are none.  What `Parse` reads from
its PEM form is the same certificate. -/
theorem sign_parse (hreads : P.ReadsDER) (hwrites : X.WritesDER) (hcarries : X.CarriesExtensions P)
    (hpem : P.PEMCodec pemTypeCert) (env : SignEnv) (ca : Certificate) (name : GoString)
    (vpnIP : IPPrefix) (groups : List GoString) (pub : Bytes) (duration : Time)
    (caKey : X.Signer) :
    (pub.length ≠ 32 → ∃ e, sign P X env ca name vpnIP groups pub duration caKey = .error e) ∧
      (vpnIP.Valid → GoSlices groups →
        (∀ c, sign P X env ca name vpnIP groups pub duration caKey = .ok c →
          (c.vpnIP = vpnIP ∧ c.groups = groups ∧ c.x25519PublicKey = pub) ∧
            (groups = [] → ∀ ext ∈ c.x509.extensions, ext.1 ≠ oidGroups) ∧
            parse P (c.pem P) = .ok c) ∧
          (pub.length = 32 → ∃ exts, extras X vpnIP groups pub = .ok exts ∧ ∀ nodePub der,
            env.nodePub = .ok nodePub →
            X.createCertificate (template env name duration exts) ca.x509 nodePub caKey = .ok der →
            ∃ c, sign P X env ca name vpnIP groups pub duration caKey = .ok c)) := by
  refine ⟨fun hpub => sign_error hpub env ca name vpnIP groups duration caKey, ?_⟩
  intro hip hgroups
  constructor
  · intro c hc
    obtain ⟨heq, hnil, hparse⟩ := eq_of_sign hreads hcarries hip hgroups hwrites hc
    refine ⟨?_, hnil, HandshakeManager.parse_pem hpem hparse⟩
    rw [heq]
    exact ⟨rfl, rfl, rfl⟩
  · intro hpub
    have hexts := extras_eq hwrites hip hgroups hpub
    refine ⟨_, hexts, fun nodePub der hnode hder => ?_⟩
    obtain ⟨x, hx, -⟩ := parseDER_signed hreads hcarries hip hgroups hpub hder
    exact ⟨_, sign_ok.mpr ⟨nodePub, hnode, _, hexts, der, hder, hx⟩⟩

end Certificate

/-! ### A platform that issues

Certificates in real DER, so that the round trip can be run on an address of either family. -/

namespace Symbolic

open Framing

/-- The value of the address extension, read back. -/
def readVpnIP (bs : Bytes) : Option (Bytes × Int) := do
  match ← DER.readSequence bs with
  | ([(tag, ip), (tag', octets)], _) =>
      if tag = DER.octetStringTag ∧ tag' = DER.integerTag then
        pure (ip, ← DER.readInteger octets)
      else none
  | _ => none

/-- An octet string, read back. -/
def readOctets (bs : Bytes) : Option Bytes := do
  let (tag, content, _) ← DER.readElement bs
  if tag = DER.octetStringTag then pure content else none

/-- `asn1.Unmarshal` by a reader. -/
def unmarshal {α : Type} (x : Option α) : Except String α :=
  x.elim (throw "asn1: structure error") pure

/-- A certificate is the contents of its extensions, behind a key usage that X.509 adds. -/
def parseIssued (raw : Bytes) : Except String X509 :=
  match unframes raw with
  | some vals => pure ⟨raw, false, [],
      (idCE ++ [15], []) :: [oidVpnIP, oidCurve25519Key, oidGroups].zip vals⟩
  | none => throw "x509: malformed certificate"

/-- The symbolic platform with DER. -/
abbrev issuing : Platform :=
  { platform with
    parseCertificate := parseIssued
    unmarshalVpnIP := fun bs => unmarshal (readVpnIP bs)
    unmarshalRawValues := fun bs => unmarshal ((DER.readSequence bs).map fun x => x.1.map Prod.snd)
    unmarshalOctets := fun bs => unmarshal (readOctets bs) }

/-- An issuer that writes DER, and a certificate that is its template. -/
abbrev issuer : Issuer where
  Signer := Unit
  marshalVpnIP ip bits := pure (DER.sequence
    [(DER.octetStringTag, ip), (DER.integerTag, DER.integerOctets bits)])
  marshalRawValues vals := pure (DER.sequence vals)
  marshalOctets b := pure (DER.element DER.octetStringTag b)
  createCertificate t _ _ _ :=
    let oids := t.extraExtensions.map Prod.fst
    if oids = [oidVpnIP, oidCurve25519Key] ∨ oids = [oidVpnIP, oidCurve25519Key, oidGroups] then
      pure (frames (t.extraExtensions.map Prod.snd))
    else throw "x509: not modelled"

theorem readsDER : issuing.ReadsDER where
  vpnIP bs ip octets rest bits hread hbits _ _ := by
    simp [unmarshal, readVpnIP, hread, hbits, pure, Except.pure]
  rawValues bs vals rest hread := by
    simp [unmarshal, hread, pure, Except.pure]
  octets bs content rest hread := by
    simp [unmarshal, readOctets, hread, pure, Except.pure]

theorem writesDER : issuer.WritesDER where
  vpnIP _ _ := fun _ => rfl
  rawValues _ _ := rfl
  octets _ _ := rfl

theorem pemCodec : issuing.PEMCodec pemTypeCert := fun _ => rfl

theorem createCertificate_eq {t : Template}
    (h : t.extraExtensions.map Prod.fst = [oidVpnIP, oidCurve25519Key, oidGroups]) (parent : X509)
    (pub : Bytes) : issuer.createCertificate t parent pub ()
      = .ok (frames (t.extraExtensions.map Prod.snd)) :=
  if_pos (Or.inr h)

theorem parseIssued_frames (vals : List Bytes) :
    parseIssued (frames vals) = .ok ⟨frames vals, false, [],
      (idCE ++ [15], []) :: [oidVpnIP, oidCurve25519Key, oidGroups].zip vals⟩ := by
  unfold parseIssued
  rw [unframes_frames]
  rfl

theorem carriesExtensions : issuer.CarriesExtensions issuing := by
  intro t parent pub key der hder
  by_cases hoids : t.extraExtensions.map Prod.fst = [oidVpnIP, oidCurve25519Key] ∨
      t.extraExtensions.map Prod.fst = [oidVpnIP, oidCurve25519Key, oidGroups]
  · obtain rfl := Except.ok.inj ((if_pos hoids).symm.trans hder)
    refine ⟨_, parseIssued_frames _, ?_⟩
    rcases hoids with hoids | hoids
    · obtain ⟨⟨_, vpnIP⟩, exts, hexts, rfl, hrest⟩ := List.map_eq_cons_iff.mp hoids
      obtain ⟨⟨_, k⟩, exts', rfl, rfl, hnil⟩ := List.map_eq_cons_iff.mp hrest
      obtain rfl := List.map_eq_nil_iff.mp hnil
      rw [hexts]
      rfl
    · obtain ⟨⟨_, vpnIP⟩, exts, hexts, rfl, hrest⟩ := List.map_eq_cons_iff.mp hoids
      obtain ⟨⟨_, k⟩, exts', rfl, rfl, hlast⟩ := List.map_eq_cons_iff.mp hrest
      obtain ⟨⟨_, groups⟩, exts'', rfl, rfl, hnil⟩ := List.map_eq_cons_iff.mp hlast
      obtain rfl := List.map_eq_nil_iff.mp hnil
      rw [hexts]
      rfl
  · cases (if_neg hoids).symm.trans hder

end Symbolic

namespace Certificate

open Symbolic

/-- fd00::1/64, three groups of which one has no name and one a long one, and some key. -/
theorem sign_parse_v6 :
    let vpnIP := IPPrefix.ofAddr (.v6 0xfd000000000000000000000000000001 []) 64
    let groups := [[], List.replicate 200 0x78, ascii "servers"]
    let pub := List.replicate 32 7
    ∃ c, sign issuing issuer ⟨.ok [1], 5, 0⟩ caCert [2] vpnIP groups pub 10 () = .ok c ∧
      (c.vpnIP = vpnIP ∧ c.groups = groups ∧ c.x25519PublicKey = pub) ∧
      parse issuing (c.pem issuing) = .ok c := by
  intro vpnIP groups pub
  have hip : vpnIP.Valid :=
    ⟨.v6 0xfd000000000000000000000000000001 [], 64, by decide, by decide, rfl⟩
  have hgroups : GoSlices groups := by
    refine ⟨by decide, fun g hg => ?_⟩
    simp only [groups, List.mem_cons, List.not_mem_nil, or_false] at hg
    rcases hg with rfl | rfl | rfl
    · decide
    · rw [List.length_replicate]
      decide
    · decide
  obtain ⟨-, hsign⟩ := sign_parse readsDER writesDER carriesExtensions pemCodec ⟨.ok [1], 5, 0⟩
    caCert [2] vpnIP groups pub 10 ()
  obtain ⟨hfields, hreturns⟩ := hsign hip hgroups
  have hpub : pub.length = 32 := List.length_replicate
  obtain ⟨exts, hexts, hreturns⟩ := hreturns hpub
  obtain rfl := Except.ok.inj ((extras_eq writesDER hip hgroups hpub).symm.trans hexts)
  obtain ⟨c, hc⟩ := hreturns [1] _ rfl (createCertificate_eq rfl caCert.x509 [1])
  exact ⟨c, hc, (hfields c hc).1, (hfields c hc).2.2⟩

end Certificate

end Neth
