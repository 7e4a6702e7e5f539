/-
Certificates, `cert/cert.go`, `cert/extensions.go` and `cert/verify.go`.

A certificate is its DER bytes with the fields read from three private extensions.  The
fingerprint is a hash of the DER bytes, so whoever has seen the certificate can compute
it.

`parseDER` reads the extensions in a loop that assigns to the fields.  One that is
missing leaves its field at the zero value, and of two of a kind the last one counts;
neither is an error.  `Verify` leaves the signature and the period of validity to `x509`
and adds that the certificate must not be one of a CA.  How certificates are issued is
in `Issue.lean`.
-/
import Neth.Platform

namespace Neth

/-- The type of the PEM block of a certificate. -/
def pemTypeCert : String := "CERTIFICATE"

/-- The extension with the address and the network of the node. -/
def oidVpnIP : OID := [1, 3, 6, 1, 4, 1, 65535, 1, 1]

/-- The extension with the groups of the node, for firewall rules. -/
def oidGroups : OID := [1, 3, 6, 1, 4, 1, 65535, 1, 2]

/-- The extension with the static Noise key of the node. -/
def oidCurve25519Key : OID := [1, 3, 6, 1, 4, 1, 65535, 1, 3]

/-- `Certificate`: an X.509 certificate with what the three extensions say.  Everything else the
program decides about a peer, it decides on these fields. -/
structure Certificate where
  /-- The original DER bytes. -/
  raw : Bytes
  x509 : X509
  vpnIP : IPPrefix
  groups : List GoString
  x25519PublicKey : Bytes
  deriving DecidableEq

namespace Certificate

variable (P : Platform)

/-- `decodeVpnIP`.  An out-of-range length gives an invalid prefix and no error. -/
def decodeVpnIP (value : Bytes) : Except String IPPrefix := do
  let (ip, bits) ← (P.unmarshalVpnIP value).mapError ("decode vpn_ip: " ++ ·)
  match Addr.fromSlice ip with
  | some addr => pure (IPPrefix.ofAddr addr bits)
  | none => throw ("decode vpn_ip: unexpected IP length " ++ toString ip.length)

/-- `decodeGroups`. -/
def decodeGroups (value : Bytes) : Except String (List GoString) :=
  (P.unmarshalRawValues value).mapError ("decode groups: " ++ ·)

/-- `decodeCurve25519Key`. -/
def decodeCurve25519Key (value : Bytes) : Except String Bytes := do
  let b ← (P.unmarshalOctets value).mapError ("decode curve25519_key: " ++ ·)
  if b.length ≠ 32 then
    throw ("decode curve25519_key: expected 32 bytes, got " ++ toString b.length)
  pure b

/-- One turn of the loop over the extensions. -/
def readExtension (c : Certificate) (ext : OID × Bytes) : Except String Certificate :=
  if ext.1 = oidVpnIP then do
    let vpnIP ← decodeVpnIP P ext.2
    pure { c with vpnIP }
  else if ext.1 = oidGroups then do
    let groups ← decodeGroups P ext.2
    pure { c with groups }
  else if ext.1 = oidCurve25519Key then do
    let x25519PublicKey ← decodeCurve25519Key P ext.2
    pure { c with x25519PublicKey }
  else pure c

/-- `parseDER`: the extensions are read in their order, and one that is missing leaves its field at
the zero value. -/
def parseDER (der : Bytes) : Except String Certificate := do
  let x ← (P.parseCertificate der).mapError ("cert: parse X.509: " ++ ·)
  x.extensions.foldlM (readExtension P) ⟨der, x, IPPrefix.zero, [], []⟩

/-- `Parse`. -/
def parse (pemBytes : Bytes) : Except String Certificate :=
  match P.pemDecode pemBytes with
  | none => throw "cert: no PEM block found"
  | some block =>
      if block.type ≠ pemTypeCert then
        throw ("cert: expected \"" ++ pemTypeCert ++ "\" PEM block, got \"" ++ block.type ++ "\"")
      else parseDER P block.bytes

/-- `PEM`. -/
def pem (c : Certificate) : Bytes := P.pemEncode ⟨pemTypeCert, c.raw⟩

/-- `Fingerprint`. -/
def fingerprint (c : Certificate) : Bytes := (P.sha256 c.raw).toList

/-- `IsCA`. -/
def isCA (c : Certificate) : Bool := c.x509.isCA

/-- `Verify`: signed by a CA of the pool and valid at `now`. -/
def verify (cert : Certificate) (caPool : List Certificate) (now : Time) : Except String Unit :=
  if cert.isCA then
    throw "verify: expected node certificate, got CA certificate"
  else
    (P.verifyChain cert.x509 (caPool.map (·.x509)) now).mapError ("verify: " ++ ·)

end Certificate

end Neth
