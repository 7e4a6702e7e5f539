/-
What the code calls and does not contain.

Noise, AES-GCM, SHA-256, X.509, PEM, ASN.1 and protobuf come from other packages.
The model takes them as one parameter, a `Platform`: functions with the signatures
the code relies on and nothing assumed about them.  What a result needs of them is
stated where it is needed, as a named hypothesis.

A Noise handshake state is a mutable object in Go.  Here `writeMessage` and
`readMessage` return the state they leave behind, `readMessage` also when it fails.
Randomness is an argument.
-/
import Neth.Addr

namespace Neth

/-- `noise.DHKey`. -/
structure DHKey where
  privateKey : Bytes
  publicKey : Bytes
  deriving DecidableEq

/-- `noise.CipherState`, of which only `UnsafeKey` is used. -/
structure CipherState where
  unsafeKey : Vector UInt8 32
  deriving DecidableEq

/-- `noise.Config`; the suite is always 25519/AESGCM/SHA256 and the pattern always IK. -/
structure NoiseConfig where
  initiator : Bool
  staticKeypair : DHKey
  peerStatic : Bytes
  presharedKey : Bytes
  presharedKeyPlacement : Nat

/-- What a successful `WriteMessage` returns; the cipher states are there after the last message
of the pattern. -/
structure NoiseWrite (HandshakeState : Type) where
  message : Bytes
  ciphers : Option (CipherState × CipherState)
  state : HandshakeState

/-- What a successful `ReadMessage` returns. -/
structure NoiseRead where
  payload : Bytes
  ciphers : Option (CipherState × CipherState)

/-- `pem.Block`; its headers are not used. -/
structure PemBlock where
  type : String
  bytes : Bytes
  deriving DecidableEq

/-- An X.509 object identifier. -/
abbrev OID := List Nat

/-- An `x509.Certificate`: its DER bytes, and the fields the code reads.  What else `Verify` looks
at, the signature and the validity above all, is in the bytes. -/
structure X509 where
  raw : Bytes
  isCA : Bool
  commonName : GoString
  extensions : List (OID × Bytes)
  deriving DecidableEq

/-- `nethpb.HandshakeDetails`. -/
structure HandshakeDetails where
  cert : Bytes
  initiatorIndex : UInt32
  responderIndex : UInt32
  time : UInt64
  deriving DecidableEq

/-- `nethpb.HandshakeMessage`. -/
structure HandshakeMessage where
  details : Bytes
  noisePayload : Bytes
  hmac : Bytes
  deriving DecidableEq

/-- `nethpb.IpPort`. -/
structure IpPort where
  ip : String
  port : UInt32
  deriving DecidableEq

/-- The `oneof` of `nethpb.LightHouseMessage`. -/
inductive LightHouseBody where
  | query (vpnIp : String)
  | queryReply (vpnIp : String) (addrs : List IpPort)
  | update (addrs : List IpPort)
  | whoAmI
  | whoAmIReply (addr : Option IpPort)
  | punch (vpnIp : String) (addrs : List IpPort)
  deriving DecidableEq

/-- `nethpb.LightHouseMessage`; the body may be missing. -/
structure LightHouseMessage where
  body : Option LightHouseBody
  deriving DecidableEq

/-- The packages outside the repository. -/
structure Platform where
  /-- `noise.HandshakeState`. -/
  HandshakeState : Type
  /-- What `crypto/rand` hands out for one message. -/
  Entropy : Type
  newHandshakeState : NoiseConfig → Except String HandshakeState
  writeMessage : HandshakeState → Entropy → (payload : Bytes) →
    Except String (NoiseWrite HandshakeState)
  readMessage : HandshakeState → Bytes → Except String NoiseRead × HandshakeState
  /-- `HandshakeState.PeerStatic`. -/
  peerStatic : HandshakeState → Bytes
  /-- `curve25519.X25519(priv, Basepoint)`. -/
  x25519Base : Bytes → Bytes
  sha256 : Bytes → Vector UInt8 32
  hmacSHA256 : (key data : Bytes) → Bytes
  /-- `Seal` of AES-256-GCM. -/
  gcmSeal : (key : Vector UInt8 32) → (nonce plaintext additionalData : Bytes) → Bytes
  /-- `Open` of AES-256-GCM. -/
  gcmOpen : (key : Vector UInt8 32) → (nonce ciphertext additionalData : Bytes) →
    Except String Bytes
  pemDecode : Bytes → Option PemBlock
  pemEncode : PemBlock → Bytes
  /-- `x509.ParseCertificate`. -/
  parseCertificate : Bytes → Except String X509
  /-- `x509.Certificate.Verify` against a pool of roots at a time. -/
  verifyChain : X509 → List X509 → Time → Except String Unit
  /-- `asn1.Unmarshal` into `vpnIPValue`. -/
  unmarshalVpnIP : Bytes → Except String (Bytes × Int)
  /-- `asn1.Unmarshal` into `[]asn1.RawValue`, the content bytes of each. -/
  unmarshalRawValues : Bytes → Except String (List Bytes)
  /-- `asn1.Unmarshal` into `[]byte`. -/
  unmarshalOctets : Bytes → Except String Bytes
  marshalDetails : HandshakeDetails → Except String Bytes
  unmarshalDetails : Bytes → Except String HandshakeDetails
  marshalMessage : HandshakeMessage → Except String Bytes
  unmarshalMessage : Bytes → Except String HandshakeMessage
  marshalLightHouse : LightHouseMessage → Except String Bytes
  unmarshalLightHouse : Bytes → Except String LightHouseMessage
  /-- `netip.ParseAddr` and `Addr.String`. -/
  parseAddr : String → Option Addr
  addrString : Addr → String
  /-- `net.ParseIP` and `IP.String`. -/
  parseIP : String → Option Bytes
  ipString : Bytes → String

end Neth
