/-
Keys and CAs: `cert/keys.go`, `GenerateCA` of `cert/ca.go` and `VerifyCA` of
`cert/verify.go`.

A node's key is 32 raw bytes in a PEM block of a type of its own.  The key of a CA is an
Ed25519 key in PKCS #8.

Random bytes, serial numbers and the clock are handed in.  Of X25519 the code outside
Noise uses the multiplication with the base point only, which fails on nothing but a
scalar of the wrong length.  The two parsers differ: the one for node keys insists on
the type of its block, while the one for CA keys looks at what is inside it.
-/
import Neth.Issue

namespace Neth

/-- `rand.Read` into 32 bytes. -/
abbrev Random32 := Except String (Vector UInt8 32)

section X25519

variable (P : Platform)

/-- `curve25519.X25519` with the base point: only the length of the scalar can be wrong. -/
def x25519 (scalar : Bytes) : Except String Bytes :=
  if scalar.length = 32 then pure (P.x25519Base scalar)
  else throw "crypto/ecdh: invalid private key size"

/-- The scalar clamped per RFC 7748. -/
def clamp (k : Vector UInt8 32) : Bytes :=
  let k := k.toList.set 0 (k.toList.getD 0 0 &&& 248)
  let k := k.set 31 (k.getD 31 0 &&& 127)
  k.set 31 (k.getD 31 0 ||| 64)

/-- `GenerateX25519KeyPair`. -/
def generateX25519KeyPair (random : Random32) : Except String (Bytes × Bytes) := do
  let k ← random.mapError ("generate X25519 key: " ++ ·)
  let priv := clamp k
  let pub ← (x25519 P priv).mapError ("derive X25519 public key: " ++ ·)
  pure (priv, pub)

/-- The type of the PEM block of a Noise key. -/
def pemTypeCurve25519Key : String := "NETH CURVE25519 PRIVATE KEY"

/-- `MarshalX25519PrivateKey`. -/
def marshalX25519PrivateKey (key : Bytes) : Except String Bytes :=
  if key.length ≠ 32 then
    throw ("marshal X25519 private key: expected 32 bytes, got " ++ toString key.length)
  else pure (P.pemEncode ⟨pemTypeCurve25519Key, key⟩)

/-- `ParseX25519PrivateKey`. -/
def parseX25519PrivateKey (pemBytes : Bytes) : Except String Bytes :=
  match P.pemDecode pemBytes with
  | none => throw "parse X25519 private key: no PEM block"
  | some block =>
      if block.type ≠ pemTypeCurve25519Key then
        throw ("parse X25519 private key: expected \"" ++ pemTypeCurve25519Key ++ "\", got \""
          ++ block.type ++ "\"")
      else if block.bytes.length ≠ 32 then
        throw ("parse X25519 private key: expected 32 bytes, got " ++ toString block.bytes.length)
      else pure block.bytes

end X25519

/-! ### CAs

A CA signs with an Ed25519 key, which is kept in PKCS #8 and read by the tool only.  A node needs
the certificate of the CA and not its key. -/

/-- The fields `GenerateCA` sets of the `x509.Certificate` it signs with its own key. -/
structure CATemplate where
  serialNumber : Nat
  commonName : GoString
  notBefore : Time
  notAfter : Time
  isCA : Bool
  keyUsage : Nat
  basicConstraintsValid : Bool

/-- `x509.KeyUsageCertSign | x509.KeyUsageCRLSign`. -/
def keyUsageCA : Nat := 32 ||| 64

/-- What `x509.ParsePKCS8PrivateKey` finds. -/
inductive ParsedKey (Signer : Type) where
  | ed25519 (key : Signer)
  /-- A key of another type, by the name `%T` prints. -/
  | other (type : String)

/-- The packages that handle the keys of CAs, over those that write certificates. -/
structure KeyTools (X : Issuer) where
  /-- `x509.CreateCertificate` with the template as its own parent. -/
  createCA : CATemplate → (pub : Bytes) → X.Signer → Except String Bytes
  /-- `ed25519.PrivateKey.Public`. -/
  publicOf : X.Signer → Bytes
  /-- `x509.Certificate.PublicKey`, if it is an Ed25519 key. -/
  publicKey : X509 → Option Bytes
  marshalPKCS8 : X.Signer → Except String Bytes
  parsePKCS8 : Bytes → Except String (ParsedKey X.Signer)

/-- The type of the PEM block of a CA key, in PKCS #8. -/
def pemTypePrivateKey : String := "PRIVATE KEY"

section Ed25519

variable (P : Platform) {X : Issuer} (K : KeyTools X)

/-- `MarshalEd25519PrivateKey`. -/
def marshalEd25519PrivateKey (key : X.Signer) : Except String Bytes := do
  let der ← (K.marshalPKCS8 key).mapError ("marshal Ed25519 private key: " ++ ·)
  pure (P.pemEncode ⟨pemTypePrivateKey, der⟩)

/-- `ParseEd25519PrivateKey`; the type of the block is not looked at. -/
def parseEd25519PrivateKey (pemBytes : Bytes) : Except String X.Signer :=
  match P.pemDecode pemBytes with
  | none => throw "parse Ed25519 private key: no PEM block"
  | some block => do
      match ← (K.parsePKCS8 block.bytes).mapError ("parse Ed25519 private key: " ++ ·) with
      | .ed25519 key => pure key
      | .other type =>
          throw ("parse Ed25519 private key: PEM contains a " ++ type ++ ", not an Ed25519 key")

/-- What one call of `GenerateCA` is handed by the machine. -/
structure CAEnv (X : Issuer) where
  /-- `ed25519.GenerateKey`. -/
  keyPair : Except String (Bytes × X.Signer)
  serial : Nat
  now : Time

namespace Certificate

/-- The certificate `GenerateCA` signs. -/
def caTemplate (env : CAEnv X) (name : GoString) (duration : Time) : CATemplate where
  serialNumber := env.serial
  commonName := name
  notBefore := env.now
  notAfter := env.now + duration
  isCA := true
  keyUsage := keyUsageCA
  basicConstraintsValid := true

/-- `GenerateCA`. -/
def generateCA (env : CAEnv X) (name : GoString) (duration : Time) :
    Except String (Certificate × X.Signer) := do
  let (pub, priv) ← env.keyPair.mapError ("generate CA key: " ++ ·)
  let der ← (K.createCA (caTemplate env name duration) pub priv).mapError
    ("create CA certificate: " ++ ·)
  let cert ← parseDER P der
  pure (cert, priv)

end Certificate

end Ed25519

/-- `VerifyCA`: a CA certificate that verifies against itself. -/
def Certificate.verifyCA (P : Platform) (ca : Certificate) (now : Time) : Except String Unit :=
  if !ca.isCA then throw "verify CA: certificate is not a CA"
  else (P.verifyChain ca.x509 [ca.x509] now).mapError ("verify CA: " ++ ·)

end Neth
