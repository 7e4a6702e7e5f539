/-
From `neth-cert ca` and `neth-cert sign` to a node that starts.

The two commands and `LoadPKI` never meet but in the files they write and read.  What the
commands wrote, `LoadPKI` accepts while both certificates are valid, and the identity it
comes up with is the one that was asked for on the command line.  `sign` itself looks after
the two files it writes and no others, which is not enough where it was told to write over
the CA.
-/
import Neth.CertTool
import Neth.Proofs.Issue
import Neth.Proofs.PKI

namespace Neth

open Fallible KeyTools

variable {P : Platform} {X : Issuer} {K : KeyTools X} {T : Text}
  {join : GoString → GoString → GoString}

/-! ### Files

What a write leaves, path by path.  Two paths may lead to one file, and the rules say which file is
meant. -/

namespace Disk

variable {d d' : Disk} {path path' : GoString} {data data' : Bytes} {mode : Nat}

theorem readFile_ok :
    d.readFile path = .ok data ↔
      d.readError path = none ∧ ∃ f, d.files (d.file path) = some f ∧ f.data = data := by
  unfold readFile
  cases hfile : d.files (d.file path) with
  | none => simp [throw_ok]
  | some f =>
      cases herror : d.readError path with
      | none => simp [pure_ok]
      | some e => simp [throw_ok]

/-- What a write leaves behind. -/
def written (d : Disk) (path : GoString) (data : Bytes) (mode : Nat) : Disk :=
  let mode := ((d.files (d.file path)).map (·.mode)).getD mode
  { d with files := Function.update d.files (d.file path) (some ⟨mode, data⟩) }

@[simp] theorem file_written : (d.written path data mode).file = d.file := rfl

theorem writeFile_ok : d.writeFile path data mode = (d', .ok ()) ↔
    d.writeError path = none ∧ d' = d.written path data mode := by
  unfold writeFile written
  cases d.writeError path with
  | none => simp [pure, Except.pure, eq_comm]
  | some e => simp [throw, throwThe, MonadExceptOf.throw]

theorem files_written_self : (d.written path data mode).files (d.file path)
    = some ⟨((d.files (d.file path)).map (·.mode)).getD mode, data⟩ :=
  Function.update_self ..

/-- What was written is found under every path to the file. -/
theorem eq_of_read_written (hsame : d.file path' = d.file path)
    (h : (d.written path data mode).readFile path' = .ok data') : data' = data := by
  obtain ⟨-, f, hf, rfl⟩ := readFile_ok.mp h
  rw [file_written, hsame, files_written_self] at hf
  rw [← Option.some.inj hf]

theorem read_written (h : d.readError path = none) :
    (d.written path data mode).readFile path = .ok data :=
  readFile_ok.mpr ⟨h, _, files_written_self, rfl⟩

theorem files_written_of_ne {file : GoString} (h : file ≠ d.file path) :
    (d.written path data mode).files file = d.files file :=
  Function.update_of_ne h ..

/-- Writing a file does not change what is read from others. -/
theorem read_written_of_ne (h : d.file path' ≠ d.file path) :
    (d.written path data mode).readFile path' = d.readFile path' := by
  unfold readFile
  rw [file_written, files_written_of_ne h]
  rfl

theorem file_writeFile (d : Disk) (path : GoString) (data : Bytes) (mode : Nat) :
    (d.writeFile path data mode).1.file = d.file := by
  unfold writeFile
  cases d.writeError path with
  | none => rfl
  | some e => rfl

/-- A write changes no other file, whether it succeeds or not. -/
theorem writeFile_files (d : Disk) (data : Bytes) (mode : Nat) {path file : GoString}
    (h : file ≠ d.file path) : (d.writeFile path data mode).1.files file = d.files file := by
  unfold writeFile
  cases d.writeError path with
  | none => exact Function.update_of_ne h ..
  | some e => rfl

end Disk

namespace CertTool

/-- The disk after both files were written. -/
def pairWritten (join : GoString → GoString → GoString) (d : Disk) (outDir name : GoString)
    (crt key : Bytes) : Disk :=
  (d.written (crtPath join outDir name) crt 0o644).written (keyPath join outDir name) key 0o600

/-- The two files of a command that succeeded. -/
theorem writePair_ok {d d' : Disk} {outDir name : GoString} {crt : Bytes}
    {key : Except String Bytes} (h : writePair join d outDir name crt key = (d', .ok ())) :
    ∃ pem, key = .ok pem ∧ d' = pairWritten join d outDir name crt pem := by
  unfold writePair at h
  rcases hcrt : d.writeFile (crtPath join outDir name) crt 0o644 with ⟨d₁, r⟩
  rw [hcrt] at h
  cases r with
  | error e => cases (Prod.mk.inj h).2
  | ok u =>
      obtain ⟨-, rfl⟩ := Disk.writeFile_ok.mp hcrt
      cases key with
      | error e => cases (Prod.mk.inj h).2
      | ok pem => exact ⟨pem, rfl, (Disk.writeFile_ok.mp h).2⟩

section

variable {d : Disk} {outDir name path : GoString} {crt key data : Bytes}

/-- The key was written last. -/
theorem read_pairWritten_key (hkey : d.file path = d.file (keyPath join outDir name))
    (h : (pairWritten join d outDir name crt key).readFile path = .ok data) : data = key :=
  Disk.eq_of_read_written (d := d.written _ crt 0o644) hkey h

theorem read_pairWritten_of_ne_key (hkey : d.file path ≠ d.file (keyPath join outDir name)) :
    (pairWritten join d outDir name crt key).readFile path
      = (d.written (crtPath join outDir name) crt 0o644).readFile path :=
  Disk.read_written_of_ne (d := d.written _ crt 0o644) hkey

theorem read_pairWritten_crt (hkey : d.file path ≠ d.file (keyPath join outDir name))
    (hcrt : d.file path = d.file (crtPath join outDir name))
    (h : (pairWritten join d outDir name crt key).readFile path = .ok data) : data = crt := by
  rw [read_pairWritten_of_ne_key hkey] at h
  exact Disk.eq_of_read_written hcrt h

end

/-! ### What the commands put into the files

Each command is described by its success: what was read, what was made of it, and what the two files
contain afterwards. -/

theorem marshalX25519PrivateKey_ok {key pem : Bytes} :
    marshalX25519PrivateKey P key = .ok pem ↔
      key.length = 32 ∧ pem = P.pemEncode ⟨pemTypeCurve25519Key, key⟩ := by
  unfold marshalX25519PrivateKey
  rw [ite_throw_ok, pure_ok, not_not, eq_comm (b := pem)]

theorem generateX25519KeyPair_ok {random : Random32} {priv pub : Bytes}
    (h : generateX25519KeyPair P random = .ok (priv, pub)) :
    priv.length = 32 ∧ pub = P.x25519Base priv := by
  simp only [generateX25519KeyPair, bind_ok, mapError_ok, pure_ok, x25519_ok, Prod.mk.injEq] at h
  obtain ⟨k, -, pub', ⟨hlen, hpub⟩, rfl, rfl⟩ := h
  exact ⟨hlen, hpub.symm⟩

/-- A CA that was generated. -/
theorem generateCA_ok {env : CAEnv X} {name : GoString} {duration : Time} {ca : Certificate}
    {key : X.Signer}
    (henv : ∀ pub priv, env.keyPair = .ok (pub, priv) → K.publicOf priv = pub)
    (h : Certificate.generateCA P K env name duration = .ok (ca, key)) :
    ∃ der, K.createCA (Certificate.caTemplate env name duration) (K.publicOf key) key = .ok der ∧
      P.parseCertificate der = .ok ca.x509 ∧ Certificate.parseDER P ca.raw = .ok ca := by
  simp only [Certificate.generateCA, bind_ok, mapError_ok, pure_ok, Prod.exists,
    Prod.mk.injEq] at h
  obtain ⟨pub, priv, hpair, der, hder, cert, hparse, rfl, rfl⟩ := h
  rw [← henv _ _ hpair] at hder
  obtain ⟨hraw, hx509⟩ := Certificate.source_parseDER hparse
  exact ⟨der, hder, hx509, by rw [hraw]; exact hparse⟩

/-- No key is mistaken for a certificate. -/
theorem parse_of_type_ne {data bytes : Bytes} {type : String} {c : Certificate}
    (hdecode : P.pemDecode data = some ⟨type, bytes⟩) (hne : type ≠ pemTypeCert) :
    Certificate.parse P data ≠ .ok c := by
  unfold Certificate.parse
  rw [hdecode]
  simp only
  rw [if_pos hne]
  exact nofun

/-- The CA of a command that succeeded, in whatever disk its file is found. -/
theorem loadCA_ok {d : Disk} {path : GoString} {ca : Certificate} :
    loadCA P d path = .ok ca ↔
      ∃ data, d.readFile path = .ok data ∧ Certificate.parse P data = .ok ca ∧ ca.isCA = true := by
  simp only [loadCA, bind_ok, mapError_ok, ite_throw_ok, pure_ok, Bool.not_eq_true',
    Bool.not_eq_false]
  constructor
  · rintro ⟨data, hdata, c, hparse, hca, rfl⟩
    exact ⟨data, hdata, hparse, hca⟩
  · rintro ⟨data, hdata, hparse, hca⟩
    exact ⟨data, hdata, ca, hparse, hca, rfl⟩

theorem parseEd25519PrivateKey_pem (hpem : P.PEMCodec pemTypePrivateKey) (hpkcs : K.PKCS8Codec)
    {key : X.Signer} {pem : Bytes} (h : marshalEd25519PrivateKey P K key = .ok pem) :
    parseEd25519PrivateKey P K pem = .ok key := by
  simp only [marshalEd25519PrivateKey, bind_ok, mapError_ok, pure_ok] at h
  obtain ⟨der, hder, rfl⟩ := h
  unfold parseEd25519PrivateKey
  rw [hpem]
  simp only [hpkcs _ _ hder]
  rfl

/-- What `cmdSign` has issued. -/
theorem issueNode_ok {env : SignToolEnv} {flags : SignFlags} {d : Disk} {node : Certificate}
    {nodePriv : Bytes} (h : issueNode P K T env flags d = .ok (node, nodePriv)) :
    ∃ vpnIP ca caKey, T.parsePrefix flags.ip = .ok vpnIP ∧ loadCA P d flags.caCrt = .ok ca ∧
      loadCAKey P K d flags.caKey = .ok caKey ∧ nodePriv.length = 32 ∧
      Certificate.sign P X env.sign ca flags.name vpnIP (groupList flags.groups)
        (P.x25519Base nodePriv) flags.duration caKey = .ok node := by
  unfold issueNode at h
  rw [ite_throw_ok] at h
  obtain ⟨-, h⟩ := h
  simp only [bind_ok, mapError_ok, pure_ok, Prod.exists, Prod.mk.injEq] at h
  obtain ⟨vpnIP, hip, ca, hca, caKey, hkey, -, -, priv, pub, hpair, node', hsign, rfl, rfl⟩ := h
  obtain ⟨hlen, rfl⟩ := generateX25519KeyPair_ok hpair
  exact ⟨vpnIP, ca, caKey, hip, hca, hkey, hlen, hsign⟩

theorem cmdCA_ok {env : CAEnv X} {flags : CAFlags} {d d' : Disk}
    (h : cmdCA P K join env flags d = (d', .ok ())) :
    ∃ ca key pem, Certificate.generateCA P K env flags.name flags.duration = .ok (ca, key) ∧
      marshalEd25519PrivateKey P K key = .ok pem ∧
      d' = pairWritten join d flags.outDir flags.name (ca.pem P) pem := by
  unfold cmdCA at h
  split_ifs at h
  · cases (Prod.mk.inj h).2
  · cases hgen : Certificate.generateCA P K env flags.name flags.duration with
    | error e =>
        rw [hgen] at h
        cases (Prod.mk.inj h).2
    | ok pair =>
        obtain ⟨ca, key⟩ := pair
        rw [hgen] at h
        obtain ⟨pem, hpem, hd⟩ := writePair_ok h
        exact ⟨ca, key, pem, rfl, hpem, hd⟩

theorem cmdSign_ok {env : SignToolEnv} {flags : SignFlags} {d d' : Disk}
    (h : cmdSign P K T join env flags d = (d', .ok ())) :
    ∃ node priv, issueNode P K T env flags d = .ok (node, priv) ∧
      d' = pairWritten join d flags.outDir flags.name (node.pem P)
        (P.pemEncode ⟨pemTypeCurve25519Key, priv⟩) := by
  unfold cmdSign at h
  cases hissue : issueNode P K T env flags d with
  | error e =>
      rw [hissue] at h
      cases (Prod.mk.inj h).2
  | ok pair =>
      obtain ⟨node, priv⟩ := pair
      rw [hissue] at h
      obtain ⟨pem, hpem, hd⟩ := writePair_ok h
      rw [(marshalX25519PrivateKey_ok.mp hpem).2] at hd
      exact ⟨node, priv, rfl, hd⟩

theorem cmdVerify_ok {now : Time} {caCrt cert : GoString} {d : Disk} :
    cmdVerify P now caCrt cert d = .ok () ↔ (caCrt ≠ [] ∧ cert ≠ []) ∧
      ∃ caPEM, d.readFile caCrt = .ok caPEM ∧ ∃ ca, Certificate.parse P caPEM = .ok ca ∧
        ∃ nodePEM, d.readFile cert = .ok nodePEM ∧ ∃ node, Certificate.parse P nodePEM = .ok node ∧
          node.verify P [ca] now = .ok () := by
  simp only [cmdVerify, ite_throw_ok, not_or, bind_ok, mapError_ok, ne_eq]

/-- What the commands write, they read again: certificates and the two kinds of private keys. -/
def PEMFiles (P : Platform) : Prop :=
  ∀ type ∈ [pemTypeCert, pemTypeCurve25519Key, pemTypePrivateKey], P.PEMCodec type

/-- What is assumed of the packages. -/
structure Packages (P : Platform) (K : KeyTools X) (T : Text) : Prop where
  reads : P.ReadsDER
  writes : X.WritesDER
  carries : X.CarriesExtensions P
  pem : PEMFiles P
  pkcs8 : K.PKCS8Codec
  vouches : K.Vouches P
  text : T.ParsesValid

end CertTool

/-! ### A tool -/

namespace Symbolic

/-- The symbolic platform with DER and all three types of PEM blocks.  The first byte of a
certificate tells a CA's from a node's. -/
abbrev minting : Platform :=
  { issuing with
    parseCertificate := fun
      | 0 :: raw => (parseIssued raw).map fun x => { x with raw := 0 :: raw }
      | 1 :: name => pure ⟨1 :: name, true, name, []⟩
      | _ => throw "x509: malformed certificate"
    pemDecode := fun
      | 45 :: raw => some ⟨pemTypeCert, raw⟩
      | 46 :: raw => some ⟨pemTypeCurve25519Key, raw⟩
      | 47 :: raw => some ⟨pemTypePrivateKey, raw⟩
      | _ => none
    pemEncode := fun block =>
      (if block.type = pemTypeCert then 45
        else if block.type = pemTypeCurve25519Key then 46 else 47) :: block.bytes }

/-- An issuer whose certificates begin with a byte of their own, so that they cannot be mistaken for
keys. -/
abbrev minter : Issuer :=
  { issuer with
    createCertificate := fun t parent pub key =>
      (issuer.createCertificate t parent pub key).map (0 :: ·) }

/-- There is one signing key. -/
abbrev minterKeys : KeyTools minter where
  createCA t _ _ := pure (1 :: t.commonName)
  publicOf _ := [7]
  publicKey _ := some [7]
  marshalPKCS8 _ := pure [8]
  parsePKCS8 _ := pure (.ed25519 ())

/-- One prefix can be written. -/
def cidrText : Text where
  toLower := id
  quote := plain
  parsePrefix s :=
    if s = ascii "10.0.0.2/24" then pure (.ofAddr (.v4 0x0a000002) 24)
    else throw "netip.ParsePrefix: no '/'"

/-- `filepath.Join`, for paths that are clean. -/
def slash (dir name : GoString) : GoString := dir ++ ascii "/" ++ name

theorem minting_pemFiles : CertTool.PEMFiles minting := by
  intro type htype bytes
  simp only [List.mem_cons, List.not_mem_nil, or_false] at htype
  rcases htype with rfl | rfl | rfl <;> rfl

theorem minter_node {t : Template} {parent : X509} {pub : Bytes} {key : Unit} {der : Bytes}
    (h : minter.createCertificate t parent pub key = .ok der) :
    ∃ raw, issuer.createCertificate t parent pub key = .ok raw ∧
      minting.parseCertificate der = (parseIssued raw).map fun x => { x with raw := 0 :: raw } := by
  obtain ⟨raw, hraw, rfl⟩ := Fallible.map_ok.mp h
  exact ⟨raw, hraw, rfl⟩

theorem minter_issuesNoCA : minter.IssuesNoCA minting := by
  intro t parent pub key der x _ hder hx
  obtain ⟨raw, -, hparse⟩ := minter_node hder
  rw [hparse] at hx
  obtain ⟨y, hy, rfl⟩ := Fallible.map_ok.mp hx
  unfold parseIssued at hy
  split at hy
  · rw [← Fallible.pure_ok.mp hy]
  · cases hy

theorem minting_packages : CertTool.Packages minting minterKeys cidrText where
  reads := ⟨readsDER.vpnIP, readsDER.rawValues, readsDER.octets⟩
  writes := ⟨writesDER.vpnIP, writesDER.rawValues, writesDER.octets⟩
  carries t parent pub key der h := by
    obtain ⟨raw, hraw, hparse⟩ := minter_node h
    obtain ⟨x, hx, hexts⟩ := carriesExtensions t parent pub key raw hraw
    exact ⟨_, hparse.trans (Fallible.map_ok.mpr ⟨x, hx, rfl⟩), hexts⟩
  pem := minting_pemFiles
  pkcs8 _ _ _ := rfl
  vouches :=
    { root := fun t key der _ h => by
        obtain rfl := Fallible.pure_ok.mp h
        exact ⟨_, rfl, rfl, fun _ _ => rfl⟩
      node := fun t key der ca _ h hca t' pub der' x hprivate hder' hx => by
        obtain rfl := Fallible.pure_ok.mp h
        obtain rfl := Fallible.pure_ok.mp hca
        exact ⟨minter_issuesNoCA _ _ _ _ _ _ hprivate hder' hx, fun _ _ _ => rfl⟩ }
  text s p h := by
    change (if s = ascii "10.0.0.2/24" then _ else _) = Except.ok p at h
    split_ifs at h
    rw [← Fallible.pure_ok.mp h]
    exact ⟨.v4 0x0a000002, 24, by decide, by decide, rfl⟩

end Symbolic

namespace CertTool

/-! ### One CA and one node

`ca` and then `sign`, possibly much later and on another disk, as long as the two files of the CA
read there as they were written. -/

/-- A run of `ca` on one disk and, with copies of the two files, a run of `sign` on another. -/
structure Provision (X : Issuer) where
  envCA : CAEnv X
  caFlags : CAFlags
  before : Disk
  after : Disk
  envSign : SignToolEnv
  signFlags : SignFlags
  before' : Disk
  after' : Disk

namespace Provision

variable (join) (p : Provision X)

/-- The path of the CA certificate. -/
def caCrt : GoString := crtPath join p.caFlags.outDir p.caFlags.name

/-- The path of the CA key. -/
def caKey : GoString := keyPath join p.caFlags.outDir p.caFlags.name

/-- The path of the node's certificate. -/
def nodeCrt : GoString := crtPath join p.signFlags.outDir p.signFlags.name

/-- The path of the node's key. -/
def nodeKey : GoString := keyPath join p.signFlags.outDir p.signFlags.name

/-- Both commands succeed, the second with what the first wrote, and what the second wrote can be
read. -/
structure Done (P : Platform) (K : KeyTools X) (T : Text) (join : GoString → GoString → GoString)
    (p : Provision X) : Prop where
  ca : cmdCA P K join p.envCA p.caFlags p.before = (p.after, .ok ())
  keyPair : ∀ pub priv, p.envCA.keyPair = .ok (pub, priv) → K.publicOf priv = pub
  crt : p.before'.readFile p.signFlags.caCrt = p.after.readFile (p.caCrt join)
  key : p.before'.readFile p.signFlags.caKey = p.after.readFile (p.caKey join)
  sign : cmdSign P K T join p.envSign p.signFlags p.before' = (p.after', .ok ())
  groups : Certificate.GoSlices (groupList p.signFlags.groups)
  distinct : p.before'.file (p.nodeCrt join) ≠ p.before'.file (p.nodeKey join)
  readable : p.after'.readError (p.nodeCrt join) = none ∧
    p.after'.readError (p.nodeKey join) = none

/-- The CA certificate is valid. -/
def CAValidAt (now : Time) : Prop :=
  ValidAt p.envCA.now (p.envCA.now + p.caFlags.duration) now

/-- Both certificates are. -/
def BothValidAt (now : Time) : Prop :=
  p.CAValidAt now ∧
    ValidAt p.envSign.sign.now (p.envSign.sign.now + p.signFlags.duration) now

instance (now : Time) : Decidable (p.CAValidAt now) := inferInstanceAs (Decidable (ValidAt ..))

instance (now : Time) : Decidable (p.BothValidAt now) := inferInstanceAs (Decidable (_ ∧ _))

/-- A disk without links, where a path may start at the working directory. -/
def emptyDisk : Disk where
  file path := if ascii "./" <+: path then path.drop 2 else path
  files _ := none
  readError _ := none
  writeError _ := none

open Symbolic in
/-- A CA and one node of it, in one directory that was empty. -/
def provision1 : Provision minter :=
  let envCA : CAEnv minter := ⟨.ok ([7], ()), 1, 0⟩
  let caFlags : CAFlags := ⟨ascii "ca", 10 ^ 12, ascii "pki"⟩
  let before := emptyDisk
  let after := (cmdCA minting minterKeys slash envCA caFlags before).1
  let envSign : SignToolEnv := ⟨⟨.ok [9], 2, 10 ^ 10⟩, .ok (Vector.ofFn fun i => i.val.toUInt8)⟩
  let signFlags : SignFlags := ⟨ascii "pki/ca.crt", ascii "pki/ca.key", ascii "node",
    ascii "10.0.0.2/24", ascii "servers, ,x", 10 ^ 11, ascii "pki"⟩
  let after' := (cmdSign minting minterKeys cidrText slash envSign signFlags after).1
  ⟨envCA, caFlags, before, after, envSign, signFlags, after, after'⟩

open Symbolic in
theorem done1 : provision1.Done minting minterKeys cidrText slash where
  ca := Prod.ext rfl (by decide +kernel)
  keyPair _ _ h := congrArg Prod.fst (Except.ok.inj h)
  crt := rfl
  key := rfl
  sign := Prod.ext rfl (by decide +kernel)
  groups := by
    unfold Certificate.GoSlices
    decide +kernel
  distinct := by decide
  readable := ⟨rfl, rfl⟩

variable {join p}

/-- The CA and the node of two commands that succeeded. -/
structure Issued (P : Platform) (K : KeyTools X) (T : Text) (join : GoString → GoString → GoString)
    (p : Provision X) (ca node : Certificate) (priv : Bytes) : Prop where
  caFile : ∃ data, p.after.readFile (p.caCrt join) = .ok data ∧ Certificate.parse P data = .ok ca
  caValid : ∀ now, p.CAValidAt now → ca.verifyCA P now = .ok ()
  crtFile : p.after'.readFile (p.nodeCrt join) = .ok (node.pem P)
  keyFile : p.after'.readFile (p.nodeKey join) = .ok (P.pemEncode ⟨pemTypeCurve25519Key, priv⟩)
  parses : Certificate.parseDER P node.raw = .ok node
  valid : ∀ now, p.BothValidAt now → node.verify P [ca] now = .ok ()
  ip : T.parsePrefix p.signFlags.ip = .ok node.vpnIP
  groups : node.groups = groupList p.signFlags.groups
  key : priv.length = 32 ∧ node.x25519PublicKey = P.x25519Base priv

/-- What parses as a certificate in the file of the CA is the CA: where `ca` had written the key
over it, nothing would. -/
theorem eq_of_parse_crt (hpem : PEMFiles P) {d : Disk} {outDir name : GoString}
    {ca ca' : Certificate} {der data : Bytes} (hca : Certificate.parseDER P ca.raw = .ok ca)
    (hread : (pairWritten join d outDir name (ca.pem P)
      (P.pemEncode ⟨pemTypePrivateKey, der⟩)).readFile (crtPath join outDir name) = .ok data)
    (hparse : Certificate.parse P data = .ok ca') : ca' = ca := by
  by_cases hne : d.file (crtPath join outDir name) = d.file (keyPath join outDir name)
  · rw [read_pairWritten_key hne hread] at hparse
    exact absurd hparse (parse_of_type_ne (hpem pemTypePrivateKey (by simp) _) (by decide))
  · rw [read_pairWritten_crt hne rfl hread,
      HandshakeManager.parse_pem (hpem _ (by simp)) hca] at hparse
    exact (Except.ok.inj hparse).symm

theorem Done.issued (hpkg : Packages P K T) (h : p.Done P K T join) :
    ∃ ca node priv, Issued P K T join p ca node priv := by
  obtain ⟨ca, key, pem, hgen, hpem, hafter⟩ := cmdCA_ok h.ca
  obtain ⟨node, priv, hissue, hafter'⟩ := cmdSign_ok h.sign
  obtain ⟨vpnIP, ca', key', hip, hca', hkey', hlen, hsign⟩ := issueNode_ok hissue
  obtain ⟨der, hder, hx509, hparseCA⟩ := generateCA_ok h.keyPair hgen
  -- `sign` works with the certificate and the key that `ca` wrote
  obtain ⟨data, hread, hparse, -⟩ := loadCA_ok.mp hca'
  rw [h.crt] at hread
  obtain rfl : ca' = ca := by
    simp only [marshalEd25519PrivateKey, bind_ok, mapError_ok, pure_ok] at hpem
    obtain ⟨derKey, -, rfl⟩ := hpem
    rw [hafter] at hread
    exact eq_of_parse_crt hpkg.pem hparseCA hread hparse
  obtain rfl : key' = key := by
    simp only [loadCAKey, bind_ok, mapError_ok] at hkey'
    obtain ⟨dataKey, hreadKey, hparseKey⟩ := hkey'
    rw [h.key, hafter] at hreadKey
    rw [read_pairWritten_key rfl hreadKey,
      parseEd25519PrivateKey_pem (hpkg.pem _ (by simp)) hpkg.pkcs8 hpem] at hparseKey
    exact (Except.ok.inj hparseKey).symm
  have hroot : Root (Certificate.caTemplate p.envCA p.caFlags.name p.caFlags.duration) :=
    ⟨rfl, rfl, rfl⟩
  obtain ⟨x, hx, hisCA, hself⟩ := hpkg.vouches.root _ _ _ hroot hder
  obtain rfl := Except.ok.inj (hx.symm.trans hx509)
  obtain ⟨heq, -, hparseNode⟩ := Certificate.eq_of_sign hpkg.reads hpkg.carries
    (hpkg.text _ _ hip) h.groups hpkg.writes hsign
  obtain ⟨nodePub, -, exts, hexts, derNode, hderNode, hsigned⟩ := Certificate.sign_ok.mp hsign
  obtain ⟨-, hnodeX509⟩ := Certificate.source_parseDER hsigned
  obtain ⟨hnotCA, hchain⟩ := hpkg.vouches.node _ _ _ _ hroot hder hx509 _ _ _ _
    (Certificate.private_template p.envSign.sign _ _ hexts) hderNode hnodeX509
  refine ⟨ca', node, priv, ?_⟩
  exact
    { caFile := ⟨data, hread, hparse⟩
      caValid := fun now hnow => Certificate.verifyCA_ok.mpr ⟨hisCA, hself now hnow⟩
      crtFile := by
        have hreadable := h.readable.1
        rw [hafter'] at hreadable ⊢
        exact (read_pairWritten_of_ne_key h.distinct).trans (Disk.read_written hreadable)
      keyFile := by
        have hreadable := h.readable.2
        rw [hafter'] at hreadable ⊢
        exact Disk.read_written hreadable
      parses := hparseNode
      valid := fun now hnow => Certificate.verify_ok.mpr ⟨hnotCA, hchain now hnow.1 hnow.2⟩
      ip := by rw [heq]; exact hip
      groups := by rw [heq]
      key := ⟨hlen, by rw [heq]⟩ }

/-- **What `neth-cert` issues, the daemon accepts.**  After `ca` and, with its files, `sign`, let a
machine have copies of the CA certificate, the node certificate and the node key.  While the
certificates are valid, `LoadPKI` succeeds there.  The identity it returns has the address of `--ip`
and the groups of `--groups`, and both `neth-cert verify` and the check its peers will make find
nothing wrong with it. -/
theorem issued_node_loads (hpkg : Packages P K T) (h : p.Done P K T join) (d : Disk)
    (cfg : PKIConfig) (hpaths : cfg.ca ≠ [] ∧ cfg.cert ≠ [])
    (hca : d.readFile cfg.ca = p.after.readFile (p.caCrt join))
    (hcert : d.readFile cfg.cert = p.after'.readFile (p.nodeCrt join))
    (hkey : d.readFile cfg.key = p.after'.readFile (p.nodeKey join)) (nowCA nowCert : Time)
    (hnowCA : p.CAValidAt nowCA) (hnowCert : p.BothValidAt nowCert) :
    ∃ pki, loadPKI P T ⟨d.readFile, nowCA, nowCert⟩ cfg = .ok pki ∧
      T.parsePrefix p.signFlags.ip = .ok pki.nodeCert.vpnIP ∧
      pki.nodeCert.groups = groupList p.signFlags.groups ∧
      ∀ now, p.BothValidAt now → cmdVerify P now cfg.ca cfg.cert d = .ok () ∧
        pki.nodeCert.verify P pki.caCerts now = .ok () := by
  obtain ⟨ca, node, priv, hissued⟩ := h.issued hpkg
  obtain ⟨data, hdata, hparseCA⟩ := hissued.caFile
  have hparse := HandshakeManager.parse_pem (hpkg.pem _ (by simp)) hissued.parses
  have hpriv : parseX25519PrivateKey P (P.pemEncode ⟨pemTypeCurve25519Key, priv⟩) = .ok priv :=
    parseX25519PrivateKey_ok.mpr ⟨hpkg.pem _ (by simp) _, hissued.key.1⟩
  rw [hdata] at hca
  rw [hissued.crtFile] at hcert
  rw [hissued.keyFile] at hkey
  refine ⟨⟨[ca], node, priv⟩, loadPKI_ok.mpr ⟨ca, rfl, ?_, ?_, ?_⟩, hissued.ip, hissued.groups,
    fun now hnow => ⟨?_, hissued.valid now hnow⟩⟩
  · exact loadAndParseCA_ok.mpr ⟨data, hca, hparseCA, hissued.caValid nowCA hnowCA⟩
  · exact loadAndParseNodeCert_ok.mpr ⟨_, hcert, hparse, hissued.valid nowCert hnowCert⟩
  · exact loadAndVerifyKey_ok.mpr ⟨_, hkey, hpriv, hissued.key.2.symm⟩
  · exact cmdVerify_ok.mpr ⟨hpaths, data, hca, ca, hparseCA, _, hcert, node, hparse,
      hissued.valid now hnow⟩

open Symbolic in
/-- The directory in which both commands have run is handed to the daemon.  A blank group was
dropped. -/
theorem issued_node_loads_1 :
    ∃ pki, loadPKI minting cidrText ⟨provision1.after'.readFile, 10 ^ 10, 10 ^ 10 + 5⟩
        ⟨ascii "pki/ca.crt", ascii "pki/node.crt", ascii "pki/node.key", []⟩ = .ok pki ∧
      pki.nodeCert.groups = [ascii "servers", ascii "x"] := by
  obtain ⟨pki, hload, -, hgroups, -⟩ := issued_node_loads minting_packages done1 provision1.after'
    ⟨ascii "pki/ca.crt", ascii "pki/node.crt", ascii "pki/node.key", []⟩ (by decide) rfl rfl rfl
    (10 ^ 10) (10 ^ 10 + 5) (by decide) (by decide)
  refine ⟨pki, hload, hgroups.trans ?_⟩
  decide +kernel

end Provision

/-! ### What a command leaves alone

`sign` writes two files.  The CA survives exactly if neither of them is one of its own. -/

/-- Whatever becomes of the two writes, they are the only ones. -/
theorem writePair_files (d : Disk) (outDir name : GoString) (crt : Bytes)
    (key : Except String Bytes) {file : GoString} (hcrt : file ≠ d.file (crtPath join outDir name))
    (hkey : file ≠ d.file (keyPath join outDir name)) :
    (writePair join d outDir name crt key).1.files file = d.files file := by
  unfold writePair
  rcases hwrite : d.writeFile (crtPath join outDir name) crt 0o644 with ⟨d₁, r⟩
  have hd₁ : d₁.files file = d.files file := by
    rw [← Disk.writeFile_files d crt 0o644 hcrt, hwrite]
  have hpaths : d₁.file = d.file := by
    rw [← Disk.file_writeFile d (crtPath join outDir name) crt 0o644, hwrite]
  cases r with
  | error e => exact hd₁
  | ok u =>
      cases key with
      | error e => exact hd₁
      | ok pem =>
          rw [← hpaths] at hkey
          exact (Disk.writeFile_files d₁ pem 0o600 hkey).trans hd₁

theorem isCA_of_sign (hissues : X.IssuesNoCA P) {env : SignEnv} {ca node : Certificate}
    {name : GoString} {vpnIP : IPPrefix} {groups : List GoString} {pub : Bytes} {duration : Time}
    {caKey : X.Signer}
    (h : Certificate.sign P X env ca name vpnIP groups pub duration caKey = .ok node) :
    node.isCA = false ∧ Certificate.parseDER P node.raw = .ok node := by
  obtain ⟨nodePub, -, exts, hexts, der, hder, hsigned⟩ := Certificate.sign_ok.mp h
  obtain ⟨hraw, hx509⟩ := Certificate.source_parseDER hsigned
  have hprivate := Certificate.private_template env name duration hexts
  exact ⟨hissues _ _ _ _ _ _ hprivate hder hx509, by rw [hraw]; exact hsigned⟩

theorem loadCA_congr {d d' : Disk} {path : GoString} (h : d'.readFile path = d.readFile path) :
    loadCA P d' path = loadCA P d path := by
  unfold loadCA
  rw [h]

/-- **`sign` and the CA it signs with.**  `sign` touches no file but the two it writes, whether it
succeeds or not.  After it has succeeded, a further `sign` finds the CA certificate where this one
did exactly if the file it is in is neither of the two: nothing keeps `--name` and `--out-dir` from
leading to the CA's own file, and then the node's certificate, or its key, is in it. -/
theorem cmdSign_keeps_ca_iff (hpem : PEMFiles P) (hissues : X.IssuesNoCA P) (env : SignToolEnv)
    (flags : SignFlags) (d d' : Disk) (r : Except String Unit)
    (h : cmdSign P K T join env flags d = (d', r)) :
    (∀ file, file ≠ d.file (crtPath join flags.outDir flags.name) →
      file ≠ d.file (keyPath join flags.outDir flags.name) → d'.files file = d.files file) ∧
    (r = .ok () → (loadCA P d' flags.caCrt = loadCA P d flags.caCrt ↔
      d.file flags.caCrt ≠ d.file (crtPath join flags.outDir flags.name) ∧
      d.file flags.caCrt ≠ d.file (keyPath join flags.outDir flags.name))) := by
  refine ⟨fun file hcrt hkey => ?_, ?_⟩
  · unfold cmdSign at h
    cases hissue : issueNode P K T env flags d with
    | error e =>
        rw [hissue] at h
        rw [← (Prod.mk.inj h).1]
    | ok pair =>
        rw [hissue] at h
        obtain rfl := congrArg Prod.fst h
        exact writePair_files d _ _ _ _ hcrt hkey
  · rintro rfl
    obtain ⟨node, priv, hissue, rfl⟩ := cmdSign_ok h
    obtain ⟨_, ca, _, -, hca, -, -, hsign⟩ := issueNode_ok hissue
    constructor
    · intro hkeeps
      rw [hca] at hkeeps
      obtain ⟨data, hread, hparse, hisCA⟩ := loadCA_ok.mp hkeeps
      have hkey : d.file flags.caCrt ≠ d.file (keyPath join flags.outDir flags.name) := by
        intro heq
        rw [read_pairWritten_key heq hread] at hparse
        exact parse_of_type_ne (hpem pemTypeCurve25519Key (by simp) _) (by decide) hparse
      refine ⟨fun heq => ?_, hkey⟩
      obtain ⟨hnotCA, hnode⟩ := isCA_of_sign hissues hsign
      rw [read_pairWritten_crt hkey heq hread,
        HandshakeManager.parse_pem (hpem _ (by simp)) hnode] at hparse
      rw [← Except.ok.inj hparse, hnotCA] at hisCA
      cases hisCA
    · rintro ⟨hcrt, hkey⟩
      apply loadCA_congr
      rw [read_pairWritten_of_ne_key hkey, Disk.read_written_of_ne hcrt]

open Symbolic Provision in
/-- In the directory of a CA, `--name node` leaves its certificate alone.  With `--name ca` it is
lost, although `--ca-crt` spells the path in another way. -/
theorem cmdSign_keeps_ca_iff_self :
    let d := provision1.after
    let run := fun flags => cmdSign minting minterKeys cidrText slash provision1.envSign flags d
    let flags := provision1.signFlags
    let clash := { flags with caCrt := ascii "./pki/ca.crt", name := ascii "ca" }
    loadCA minting (run flags).1 flags.caCrt = loadCA minting d flags.caCrt ∧
      clash.caCrt ≠ crtPath slash clash.outDir clash.name ∧
      loadCA minting (run clash).1 clash.caCrt ≠ loadCA minting d clash.caCrt := by
  intro d run flags clash
  have hsign : ∀ f ∈ [flags, clash], run f = ((run f).1, .ok ()) := by
    intro f hf
    refine Prod.ext rfl ?_
    simp only [List.mem_cons, List.not_mem_nil, or_false] at hf
    rcases hf with rfl | rfl
    · decide +kernel
    · decide +kernel
  have hiff : ∀ f ∈ [flags, clash], (loadCA minting (run f).1 f.caCrt = loadCA minting d f.caCrt ↔
      d.file f.caCrt ≠ d.file (crtPath slash f.outDir f.name) ∧
        d.file f.caCrt ≠ d.file (keyPath slash f.outDir f.name)) := fun f hf =>
    (cmdSign_keeps_ca_iff minting_pemFiles minter_issuesNoCA provision1.envSign f d _ _
      (hsign f hf)).2 rfl
  refine ⟨(hiff flags (by simp)).mpr (by decide +kernel), by decide, fun h => ?_⟩
  exact ((hiff clash (by simp)).mp h).1 (by decide +kernel)

end CertTool

end Neth
