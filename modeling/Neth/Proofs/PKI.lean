/-
What `LoadPKI` lets through.

It succeeds exactly when the three files are there, parse, and fit together: the CA
certificate verifies against itself, the node certificate against the CA, and the private
key has the public half that the node certificate names.  A node with such an identity is
an honest one in the sense of the results about handshakes, which is what those results
ask of a node, and its own certificate passes the check its peers will make.
-/
import Neth.PKI
import Neth.Proofs.RoundTrip

namespace Neth

open Fallible

variable {P : Platform}

/-! ### Reading a certificate -/

namespace Certificate

/-- The extensions say nothing about where they were read from. -/
theorem source_readExtension {c c' : Certificate} {ext : OID × Bytes}
    (h : readExtension P c ext = .ok c') : c'.raw = c.raw ∧ c'.x509 = c.x509 := by
  unfold readExtension at h
  split_ifs at h
  · obtain ⟨vpnIP, -, hc⟩ := bind_ok.mp h
    rw [← pure_ok.mp hc]
    exact ⟨rfl, rfl⟩
  · obtain ⟨groups, -, hc⟩ := bind_ok.mp h
    rw [← pure_ok.mp hc]
    exact ⟨rfl, rfl⟩
  · obtain ⟨pub, -, hc⟩ := bind_ok.mp h
    rw [← pure_ok.mp hc]
    exact ⟨rfl, rfl⟩
  · rw [pure_ok.mp h]
    exact ⟨rfl, rfl⟩

theorem source_foldlM {exts : List (OID × Bytes)} : ∀ {c c' : Certificate},
    exts.foldlM (readExtension P) c = .ok c' → c'.raw = c.raw ∧ c'.x509 = c.x509 := by
  induction exts with
  | nil =>
      intro c c' h
      rw [pure_ok.mp h]
      exact ⟨rfl, rfl⟩
  | cons ext exts ih =>
      intro c c' h
      rw [List.foldlM_cons] at h
      obtain ⟨c₁, h₁, hrest⟩ := bind_ok.mp h
      obtain ⟨hraw, hx509⟩ := source_readExtension h₁
      obtain ⟨hraw', hx509'⟩ := ih hrest
      exact ⟨hraw'.trans hraw, hx509'.trans hx509⟩

theorem source_parseDER {der : Bytes} {c : Certificate} (h : parseDER P der = .ok c) :
    c.raw = der ∧ P.parseCertificate der = .ok c.x509 := by
  obtain ⟨x, hx, hfold⟩ := bind_ok.mp h
  obtain ⟨hraw, hx509⟩ := source_foldlM hfold
  exact ⟨hraw, by rw [hx509]; exact mapError_ok.mp hx⟩

/-- A certificate that was read can be read again from its own bytes. -/
theorem parses_of_parse {pem : Bytes} {c : Certificate} (h : parse P pem = .ok c) :
    parseDER P c.raw = .ok c := by
  unfold parse at h
  split at h
  · cases h
  · split_ifs at h
    rw [(source_parseDER h).1]
    exact h

theorem verify_ok {c : Certificate} {caPool : List Certificate} {now : Time} :
    c.verify P caPool now = .ok () ↔
      c.isCA = false ∧ P.verifyChain c.x509 (caPool.map (·.x509)) now = .ok () := by
  unfold verify
  rw [ite_throw_ok, mapError_ok, Bool.not_eq_true]

theorem verifyCA_ok {ca : Certificate} {now : Time} :
    ca.verifyCA P now = .ok () ↔
      ca.isCA = true ∧ P.verifyChain ca.x509 [ca.x509] now = .ok () := by
  unfold verifyCA
  rw [ite_throw_ok, mapError_ok, Bool.not_eq_true', Bool.not_eq_false]

end Certificate

theorem parseX25519PrivateKey_ok {pem key : Bytes} :
    parseX25519PrivateKey P pem = .ok key ↔
      P.pemDecode pem = some ⟨pemTypeCurve25519Key, key⟩ ∧ key.length = 32 := by
  unfold parseX25519PrivateKey
  cases hdecode : P.pemDecode pem with
  | none => simp [throw_ok]
  | some block =>
      obtain ⟨type, bytes⟩ := block
      simp only [ite_throw_ok, pure_ok, ne_eq, not_not, Option.some.injEq, PemBlock.mk.injEq]
      constructor
      · rintro ⟨rfl, hlen, rfl⟩
        exact ⟨⟨rfl, rfl⟩, hlen⟩
      · rintro ⟨⟨rfl, rfl⟩, hlen⟩
        exact ⟨rfl, hlen, rfl⟩

theorem x25519_ok {scalar pub : Bytes} :
    x25519 P scalar = .ok pub ↔ scalar.length = 32 ∧ P.x25519Base scalar = pub := by
  unfold x25519
  split_ifs with hlen
  · simp [pure_ok, hlen]
  · simp [hlen]

/-! ### The three files

Each loader is described by its success.  What is known of a loaded identity follows from the three
together. -/

variable {T : Text} {F : Files} {cfg : PKIConfig}

theorem readNamed_ok {what : String} {path : GoString} {data : Bytes} :
    readNamed T F what path = .ok data ↔ F.readFile path = .ok data :=
  mapError_ok

theorem loadAndParseCA_ok {path : GoString} {ca : Certificate} :
    loadAndParseCA P T F path = .ok ca ↔ ∃ data, F.readFile path = .ok data ∧
      Certificate.parse P data = .ok ca ∧ ca.verifyCA P F.nowCA = .ok () := by
  simp only [loadAndParseCA, bind_ok, readNamed_ok, mapError_ok, pure_ok]
  constructor
  · rintro ⟨data, hdata, c, hparse, ⟨⟩, hverify, rfl⟩
    exact ⟨data, hdata, hparse, hverify⟩
  · rintro ⟨data, hdata, hparse, hverify⟩
    exact ⟨data, hdata, ca, hparse, (), hverify, rfl⟩

theorem loadAndParseNodeCert_ok {path : GoString} {ca c : Certificate} :
    loadAndParseNodeCert P T F path ca = .ok c ↔ ∃ data, F.readFile path = .ok data ∧
      Certificate.parse P data = .ok c ∧ c.verify P [ca] F.nowCert = .ok () := by
  simp only [loadAndParseNodeCert, bind_ok, readNamed_ok, mapError_ok, pure_ok]
  constructor
  · rintro ⟨data, hdata, c, hparse, ⟨⟩, hverify, rfl⟩
    exact ⟨data, hdata, hparse, hverify⟩
  · rintro ⟨data, hdata, hparse, hverify⟩
    exact ⟨data, hdata, c, hparse, (), hverify, rfl⟩

theorem loadAndVerifyKey_ok {path : GoString} {c : Certificate} {key : Bytes} :
    loadAndVerifyKey P T F path c = .ok key ↔ ∃ data, F.readFile path = .ok data ∧
      parseX25519PrivateKey P data = .ok key ∧ P.x25519Base key = c.x25519PublicKey := by
  simp only [loadAndVerifyKey, bind_ok, readNamed_ok, mapError_ok, throw_bind, ite_throw_ok,
    pure_ok, x25519_ok, ne_eq, not_not]
  constructor
  · rintro ⟨data, hdata, k, hparse, pub, ⟨-, rfl⟩, hpub, rfl⟩
    exact ⟨data, hdata, hparse, hpub⟩
  · rintro ⟨data, hdata, hparse, hpub⟩
    exact ⟨data, hdata, key, hparse, _, ⟨(parseX25519PrivateKey_ok.mp hparse).2, rfl⟩, hpub, rfl⟩

theorem loadPKI_ok {pki : PKI} :
    loadPKI P T F cfg = .ok pki ↔ ∃ ca, pki.caCerts = [ca] ∧
      loadAndParseCA P T F cfg.ca = .ok ca ∧
      loadAndParseNodeCert P T F cfg.cert ca = .ok pki.nodeCert ∧
      loadAndVerifyKey P T F cfg.key pki.nodeCert = .ok pki.curve25519Key := by
  simp only [loadPKI, bind_ok, pure_ok]
  constructor
  · rintro ⟨ca, hca, c, hc, key, hkey, rfl⟩
    exact ⟨ca, rfl, hca, hc, hkey⟩
  · rintro ⟨ca, heq, hca, hc, hkey⟩
    refine ⟨ca, hca, pki.nodeCert, hc, pki.curve25519Key, hkey, ?_⟩
    rw [← heq]

/-- What the rest of the daemon may rely on. -/
structure PKI.Sound (P : Platform) (pki : PKI) (nowCA nowCert : Time) : Prop where
  ca : ∃ ca, pki.caCerts = [ca] ∧ ca.verifyCA P nowCA = .ok ()
  verified : pki.nodeCert.verify P pki.caCerts nowCert = .ok ()
  parses : Certificate.parseDER P pki.nodeCert.raw = .ok pki.nodeCert
  keyLength : pki.curve25519Key.length = 32
  key : P.x25519Base pki.curve25519Key = pki.nodeCert.x25519PublicKey

theorem loadPKI_sound {pki : PKI} (h : loadPKI P T F cfg = .ok pki) :
    pki.Sound P F.nowCA F.nowCert := by
  obtain ⟨ca, hcas, hca, hcert, hkey⟩ := loadPKI_ok.mp h
  obtain ⟨_, _, _, hverifyCA⟩ := loadAndParseCA_ok.mp hca
  obtain ⟨_, _, hparse, hverify⟩ := loadAndParseNodeCert_ok.mp hcert
  obtain ⟨_, _, hparseKey, hpub⟩ := loadAndVerifyKey_ok.mp hkey
  exact
    { ca := ⟨ca, hcas, hverifyCA⟩
      verified := by rw [hcas]; exact hverify
      parses := Certificate.parses_of_parse hparse
      keyLength := (parseX25519PrivateKey_ok.mp hparseKey).2
      key := hpub }

/-- A handshake manager with a sound identity is an honest one. -/
theorem PKI.Sound.honest {pki : PKI} {nowCA nowCert : Time} (h : pki.Sound P nowCA nowCert)
    {m : HandshakeManager P} (hcert : m.localCert = pki.nodeCert)
    (hkey : m.localKey = ⟨pki.curve25519Key, pki.nodeCert.x25519PublicKey⟩) : Honest m := by
  refine ⟨?_, ?_, ?_⟩
  · rw [hkey]
    exact ⟨h.keyLength, h.key.symm⟩
  · rw [hcert, hkey]
  · rw [hcert]
    exact h.parses

end Neth
