/-
What the results assume of the packages outside the repository.

Each assumption is a named proposition about a `Platform`, an `Issuer`, a `KeyTools` or
a `Text`, and a theorem lists those it uses.  None of them mentions the repository's own
code.

Most of them say that a decoder undoes its encoder, or that what one end of Noise writes
the other can read.  Of the cipher it is assumed that it opens what it sealed.  That it
opens only what has been sealed is no property of a function, which has no memory, so
`OpensOnly` is about the datagrams that arrive in the run at hand.

Most are shown to hold of some platform, in `Proofs/Symbolic.lean` and, for those about
certificates, in `Proofs/Issue.lean` and `Proofs/CertTool.lean`.
-/
import Mathlib.Data.Set.Defs
import Neth.Keys
import Neth.Lib.DER

namespace Neth

namespace Platform

variable (P : Platform)

/-- An X25519 key pair: a scalar of 32 bytes, and the public half that belongs to it. -/
structure ValidKey (k : DHKey) : Prop where
  length : k.privateKey.length = 32
  pair : k.publicKey = P.x25519Base k.privateKey

/-- `w` is a first IK message, written by an initiator with the static key pair `s` to the
responder key `rs` under `psk`. -/
def FirstMessage (s : DHKey) (rs psk : Bytes) (w : NoiseWrite P.HandshakeState) : Prop :=
  ∃ hs e payload, P.newHandshakeState ⟨true, s, rs, psk, 0⟩ = .ok hs ∧
    P.writeMessage hs e payload = .ok w

/-- **Noise IKpsk0 works.**  Under a 32-byte pre-shared key an initiator can write its first
message.  A responder with the key it was written to and the same pre-shared key reads it and
learns the initiator's static key, can answer, and the answer leaves both ends with the same two
cipher states. -/
structure IKpsk0 : Prop where
  initiate : ∀ (s r : DHKey) (psk : Bytes) (e : P.Entropy),
    P.ValidKey s → P.ValidKey r → psk.length = 32 →
    ∃ hs w, P.newHandshakeState ⟨true, s, r.publicKey, psk, 0⟩ = .ok hs ∧
      P.writeMessage hs e [] = .ok w
  respond : ∀ (s r : DHKey) (psk : Bytes) (w : NoiseWrite P.HandshakeState),
    P.ValidKey s → P.ValidKey r → P.FirstMessage s r.publicKey psk w →
    ∃ hs read hs', P.newHandshakeState ⟨false, r, [], psk, 0⟩ = .ok hs ∧
      P.readMessage hs w.message = (.ok read, hs') ∧ P.peerStatic hs' = s.publicKey ∧
      ∀ e, ∃ w' cs read', P.writeMessage hs' e [] = .ok w' ∧ w'.ciphers = some cs ∧
        (P.readMessage w.state w'.message).1 = .ok read' ∧ read'.ciphers = some cs

/-- **A responder learns the key the message was written with.**  The first IK message carries the
static public key of its writer, and a responder that can read a message written to its own key
learns what was carried, whether or not the writer's two halves belong together.  Nothing is said
of messages that were not written by `WriteMessage`. -/
def LearnsInitiator : Prop :=
  ∀ (s r : DHKey) (psk : Bytes) (w : NoiseWrite P.HandshakeState) (hs hs' : P.HandshakeState)
    (read : NoiseRead), P.ValidKey r → P.FirstMessage s r.publicKey psk w →
    P.newHandshakeState ⟨false, r, [], psk, 0⟩ = .ok hs →
    P.readMessage hs w.message = (.ok read, hs') → P.peerStatic hs' = s.publicKey

/-- `w` is a second IK message, written by a responder with the static key pair `r` that has read
`m` under `psk`. -/
def SecondMessage (r : DHKey) (psk m : Bytes) (w : NoiseWrite P.HandshakeState) : Prop :=
  ∃ hs read hs' e payload, P.newHandshakeState ⟨false, r, [], psk, 0⟩ = .ok hs ∧
    P.readMessage hs m = (.ok read, hs') ∧ P.writeMessage hs' e payload = .ok w

/-- **The second IK message binds the keys.**  An initiator that can read what a responder has
written ends up with the responder's cipher states, whatever the two had agreed on before. -/
def BindsKeys : Prop :=
  ∀ (s : DHKey) (rs psk : Bytes) (w : NoiseWrite P.HandshakeState) (r : DHKey) (psk' m : Bytes)
    (w' : NoiseWrite P.HandshakeState) (read : NoiseRead),
    P.FirstMessage s rs psk w → P.SecondMessage r psk' m w' →
    (P.readMessage w.state w'.message).1 = .ok read → read.ciphers = w'.ciphers

/-- **PEM decoding undoes encoding** of the blocks of a type. -/
def PEMCodec (type : String) : Prop :=
  ∀ bytes, P.pemDecode (P.pemEncode ⟨type, bytes⟩) = some ⟨type, bytes⟩

/-- **Decoding undoes encoding**, for the two protobuf messages and for certificates in PEM. -/
structure Codecs : Prop where
  details : ∀ d, ∃ b, P.marshalDetails d = .ok b ∧ P.unmarshalDetails b = .ok d
  message : ∀ m, ∃ b, P.marshalMessage m = .ok b ∧ P.unmarshalMessage b = .ok m
  pem : P.PEMCodec pemTypeCert

/-- **`encoding/asn1` reads DER** from the front of a string: a sequence of an octet string and an
integer that fits an `int`, a sequence of anything, and an octet string. -/
structure ReadsDER : Prop where
  vpnIP : ∀ bs ip octets rest bits,
    DER.readSequence bs = some ([(DER.octetStringTag, ip), (DER.integerTag, octets)], rest) →
    DER.readInteger octets = some bits → -2 ^ 63 ≤ bits → bits < 2 ^ 63 →
    P.unmarshalVpnIP bs = .ok (ip, bits)
  rawValues : ∀ bs vals rest, DER.readSequence bs = some (vals, rest) →
    P.unmarshalRawValues bs = .ok (vals.map Prod.snd)
  octets : ∀ bs content rest, DER.readElement bs = some (DER.octetStringTag, content, rest) →
    P.unmarshalOctets bs = .ok content

/-- **Decoding undoes encoding of a lighthouse message**, where it can be encoded. -/
def LightHouseCodec : Prop :=
  ∀ msg b, P.marshalLightHouse msg = .ok b → P.unmarshalLightHouse b = .ok msg

/-- **Parsing undoes printing of an address**, for `netip` on every address but the zero one, and
for `net` on 4 and 16 bytes, where it may come back in the other form. -/
structure TextualAddrs : Prop where
  addr : ∀ a, a ≠ .zero → P.parseAddr (P.addrString a) = some a
  ip : ∀ ip : Bytes, ip.length = 4 ∨ ip.length = 16 →
    ∃ ip', P.parseIP (P.ipString ip) = some ip' ∧ ipEqual ip' ip = true

/-- **HMAC-SHA256 has no collisions**: under each key it is injective. -/
def HMACInjective : Prop := ∀ key, Function.Injective (P.hmacSHA256 key)

/-- **`Open` undoes `Seal`.** -/
def OpenSeal : Prop :=
  ∀ key nonce plaintext ad, P.gcmOpen key nonce (P.gcmSeal key nonce plaintext ad) ad
    = .ok plaintext

/-- **The length of a ciphertext is settled by the length of the plaintext.** -/
def SealLength : Prop :=
  ∀ key nonce ad plaintext plaintext', plaintext.length = plaintext'.length →
    (P.gcmSeal key nonce plaintext ad).length = (P.gcmSeal key nonce plaintext' ad).length

/-- One call of `Seal`, with what it returned. -/
structure SealCall where
  nonce : Bytes
  additionalData : Bytes
  plaintext : Bytes
  ciphertext : Bytes
  deriving DecidableEq

/-- **Nobody else has sealed.**  Of what arrived, each with its additional data, `Open` succeeds
under the key only on what one of the calls returned, with the nonce and additional data it was
given, and yields its plaintext.  That is what AES-GCM promises of a run in which nobody without
the key could make a ciphertext; of ciphertexts that never arrived nothing is said. -/
def OpensOnly (key : Vector UInt8 32) (calls : Set SealCall) (arrived : Set (Bytes × Bytes)) :
    Prop :=
  ∀ ad ciphertext, (ad, ciphertext) ∈ arrived → ∀ nonce plaintext,
    P.gcmOpen key nonce ciphertext ad = .ok plaintext →
    ⟨nonce, ad, plaintext, ciphertext⟩ ∈ calls

end Platform

/-- **`netip.ParsePrefix` takes no white space** at either end. -/
def Text.RefusesPadding (T : Text) : Prop := ∀ s p, T.parsePrefix s = .ok p → trimSpace s = s

/-- **What `netip.ParsePrefix` returns is valid.** -/
def Text.ParsesValid (T : Text) : Prop := ∀ s p, T.parsePrefix s = .ok p → p.Valid

/-- **`netip.ParsePrefix` undoes `Prefix.String`**, where it accepts it. -/
def Text.ReadsPrefixes (T : Text) (prefixString : IPPrefix → GoString) : Prop :=
  ∀ p q, T.parsePrefix (prefixString p) = .ok q → q = p

/-- The arc of the extensions that X.509 defines itself. -/
def idCE : OID := [2, 5, 29]

/-- The template asks for none of X.509's own extensions, which could make a CA of anyone. -/
def Template.Private (t : Template) : Prop :=
  ∀ ext ∈ t.extraExtensions, idCE.isPrefixOf ext.1 = false

namespace Issuer

variable (X : Issuer)

/-- **`encoding/asn1` writes DER**, for contents that have a DER length. -/
structure WritesDER : Prop where
  vpnIP : ∀ ip bits,
    let vals := [(DER.octetStringTag, ip), (DER.integerTag, DER.integerOctets bits)]
    (DER.elements vals).length < DER.limit → X.marshalVpnIP ip bits = .ok (DER.sequence vals)
  rawValues : ∀ vals, (DER.elements vals).length < DER.limit →
    X.marshalRawValues vals = .ok (DER.sequence vals)
  octets : ∀ b, b.length < DER.limit →
    X.marshalOctets b = .ok (DER.element DER.octetStringTag b)

/-- **`crypto/x509` carries extra extensions through unchanged**: apart from X.509's own, a
certificate has the extensions its template asked for. -/
def CarriesExtensions (P : Platform) : Prop :=
  ∀ t parent pub key der, X.createCertificate t parent pub key = .ok der →
    ∃ x, P.parseCertificate der = .ok x ∧
      x.extensions.filter (fun ext => !idCE.isPrefixOf ext.1)
        = t.extraExtensions.filter fun ext => !idCE.isPrefixOf ext.1

/-- **A certificate whose template does not ask for it is no CA certificate.** -/
def IssuesNoCA (P : Platform) : Prop :=
  ∀ (t : Template) parent pub key der x, t.Private →
    X.createCertificate t parent pub key = .ok der → P.parseCertificate der = .ok x →
    x.isCA = false

end Issuer

namespace KeyTools

variable {X : Issuer} (K : KeyTools X)

/-- **PKCS #8 decoding undoes encoding**, where a key can be encoded. -/
def PKCS8Codec : Prop :=
  ∀ key der, K.marshalPKCS8 key = .ok der → K.parsePKCS8 der = .ok (.ed25519 key)

/-- The times between which a certificate is sure to be valid.  It has them in seconds, so the last
one may be cut short. -/
def ValidAt (notBefore notAfter now : Time) : Prop :=
  notBefore ≤ now ∧ now + 1000000000 ≤ notAfter

instance (notBefore notAfter now : Time) : Decidable (ValidAt notBefore notAfter now) :=
  inferInstanceAs (Decidable (_ ∧ _))

/-- What `GenerateCA` asks for in a CA certificate. -/
def Root (t : CATemplate) : Prop :=
  t.isCA = true ∧ t.basicConstraintsValid = true ∧ t.keyUsage = keyUsageCA

/-- **`crypto/x509` verifies what it has signed.**  A CA certificate signed with the key in it is
one and verifies against itself while it is valid.  A certificate with private extensions only that
is signed with the key of that CA is no CA certificate, and verifies against it while both are
valid. -/
structure Vouches (P : Platform) : Prop where
  root : ∀ t key der, Root t → K.createCA t (K.publicOf key) key = .ok der →
    ∃ ca, P.parseCertificate der = .ok ca ∧ ca.isCA = true ∧
      ∀ now, ValidAt t.notBefore t.notAfter now → P.verifyChain ca [ca] now = .ok ()
  node : ∀ t key der ca, Root t → K.createCA t (K.publicOf key) key = .ok der →
    P.parseCertificate der = .ok ca →
    ∀ (t' : Template) pub der' x, t'.Private →
      X.createCertificate t' ca pub key = .ok der' → P.parseCertificate der' = .ok x →
      x.isCA = false ∧ ∀ now, ValidAt t.notBefore t.notAfter now →
        ValidAt t'.notBefore t'.notAfter now → P.verifyChain x [ca] now = .ok ()

end KeyTools

end Neth
