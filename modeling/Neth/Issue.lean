/-
Issuing certificates: `cert/ca.go`, the encoders of `cert/extensions.go`, and the list
of groups `cmd/neth-cert` takes from its command line.

A node's address, its groups and its key are put into three private extensions.  The
extension for the groups is left out when there are none.  The certificate that is
returned is read back from the bytes that were signed.

So a certificate that could not be read back is an error of `Sign` and never leaves it.
What is not an error is a certificate that says something else than what was asked for;
that there is none, for addresses and groups as the tool makes them, is shown in
`Proofs/Issue.lean`.
-/
import Neth.Cert
import Neth.Text

namespace Neth

/-- The fields `Sign` sets of the `x509.Certificate` it wants signed. -/
structure Template where
  serialNumber : Nat
  commonName : GoString
  notBefore : Time
  notAfter : Time
  keyUsage : Nat
  extraExtensions : List (OID × Bytes)

/-- `x509.KeyUsageDigitalSignature`. -/
def keyUsageDigitalSignature : Nat := 1

/-- `asn1.TagUTF8String`; with class 0 and no compound flag it is the identifier octet too. -/
def tagUTF8String : UInt8 := 12

/-- The packages that write certificates, as `Platform` has those that read them. -/
structure Issuer where
  /-- `crypto.Signer`. -/
  Signer : Type
  /-- `asn1.Marshal` of a `vpnIPValue`. -/
  marshalVpnIP : (ip : Bytes) → (bits : Int) → Except String Bytes
  /-- `asn1.Marshal` of a `[]asn1.RawValue`, each a tag and its contents. -/
  marshalRawValues : List (UInt8 × Bytes) → Except String Bytes
  /-- `asn1.Marshal` of a `[]byte`. -/
  marshalOctets : Bytes → Except String Bytes
  /-- `x509.CreateCertificate`. -/
  createCertificate : Template → (parent : X509) → (pub : Bytes) → Signer → Except String Bytes

/-- What one call of `Sign` is handed by the machine.  Without entropy for the serial number the
program ends. -/
structure SignEnv where
  /-- The public half of `ed25519.GenerateKey`. -/
  nodePub : Except String Bytes
  serial : Nat
  now : Time

/-- The bytes of an address: `As4` if `Is4`, and `As16` otherwise. -/
def Addr.octets : Addr → Bytes
  | .v4 ip => Bytes.bePut 4 ip.toNat
  | addr => addr.as16

/-- `Prefix.Bits`. -/
def IPPrefix.bitCount (p : IPPrefix) : Int := p.bits.elim (-1) fun n => (n : Int)

namespace Certificate

variable (P : Platform) (X : Issuer)

/-- `encodeVpnIP`. -/
def encodeVpnIP (vpnIP : IPPrefix) : Except String (OID × Bytes) := do
  let val ← (X.marshalVpnIP vpnIP.addr.octets vpnIP.bitCount).mapError ("encode vpn_ip: " ++ ·)
  pure (oidVpnIP, val)

/-- `encodeGroups`: each group as a UTF8String, whatever its bytes. -/
def encodeGroups (groups : List GoString) : Except String (OID × Bytes) := do
  let vals := groups.map fun g => (tagUTF8String, g)
  let val ← (X.marshalRawValues vals).mapError ("encode groups: " ++ ·)
  pure (oidGroups, val)

/-- `encodeCurve25519Key`. -/
def encodeCurve25519Key (pub : Bytes) : Except String (OID × Bytes) := do
  if pub.length ≠ 32 then
    throw ("encode curve25519_key: expected 32 bytes, got " ++ toString pub.length)
  let val ← (X.marshalOctets pub).mapError ("encode curve25519_key: " ++ ·)
  pure (oidCurve25519Key, val)

/-- The extensions `Sign` adds. -/
def extras (vpnIP : IPPrefix) (groups : List GoString) (curve25519Pub : Bytes) :
    Except String (List (OID × Bytes)) := do
  let extVpnIP ← (encodeVpnIP X vpnIP).mapError ("sign: encode vpn_ip: " ++ ·)
  let extCurve ← (encodeCurve25519Key X curve25519Pub).mapError
    ("sign: encode curve25519_key: " ++ ·)
  if groups.length > 0 then
    let extGroups ← (encodeGroups X groups).mapError ("sign: encode groups: " ++ ·)
    pure [extVpnIP, extCurve, extGroups]
  else pure [extVpnIP, extCurve]

/-- The certificate `Sign` wants signed. -/
def template (env : SignEnv) (name : GoString) (duration : Time) (extras : List (OID × Bytes)) :
    Template where
  serialNumber := env.serial
  commonName := name
  notBefore := env.now
  notAfter := env.now + duration
  keyUsage := keyUsageDigitalSignature
  extraExtensions := extras

/-- `Sign`. -/
def sign (env : SignEnv) (ca : Certificate) (name : GoString) (vpnIP : IPPrefix)
    (groups : List GoString) (curve25519Pub : Bytes) (duration : Time) (caKey : X.Signer) :
    Except String Certificate := do
  let nodePub ← env.nodePub.mapError ("sign: generate identity key: " ++ ·)
  let extras ← extras X vpnIP groups curve25519Pub
  let der ← (X.createCertificate (template env name duration extras) ca.x509 nodePub caKey).mapError
    ("sign: create certificate: " ++ ·)
  parseDER P der

end Certificate

/-- The groups `neth-cert sign` makes of its `-groups` flag. -/
def groupList (groups : GoString) : List GoString :=
  if groups ≠ [] then ((groups.splitOn 0x2c).map trimSpace).filter (· ≠ []) else []

end Neth
