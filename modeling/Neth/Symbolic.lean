/-
A platform in which the assumptions can be checked.

Cryptographic operations are terms written out as bytes: a ciphertext names its key,
nonce, additional data and plaintext, a Noise message names the keys and secrets that
went into it, and the receiving end compares them with its own.  Nothing is secret here,
but every operation succeeds and fails on the inputs on which the real one does, which
makes this the platform on which concrete runs are evaluated.

Addresses are read and printed as the text the real functions use, so that what comes
over the wire in a run is what one would see there.
-/
import Neth.Cert
import Neth.Env
import Neth.Lib.Framing
import Neth.Text

namespace Neth

namespace Symbolic

open Framing

/-- A Noise state: its configuration, the initiator's ephemeral secret, and the peer's key. -/
structure State where
  cfg : NoiseConfig
  ephemeral : Bytes
  peer : Bytes

/-- A 32-byte value made of a byte string, cut or padded. -/
def pad32 (bs : Bytes) : Vector UInt8 32 := Vector.ofFn fun i => bs.getD i 0

/-- The cipher states of a finished exchange with the two ephemeral secrets. -/
def split (e e' : Bytes) : CipherState × CipherState :=
  (⟨pad32 (1 :: frames [e, e'])⟩, ⟨pad32 (2 :: frames [e, e'])⟩)

/-- Only the length of the pre-shared key is checked. -/
def newHandshakeState (cfg : NoiseConfig) : Except String State :=
  if cfg.presharedKey.length = 32 then pure ⟨cfg, [], cfg.peerStatic⟩
  else throw "noise: specification mandates 256-bit preshared keys"

/-- A message names the static keys of both ends, the pre-shared key, the ephemeral secrets so far
and the payload. -/
def writeMessage (s : State) (e payload : Bytes) : Except String (NoiseWrite State) :=
  let own := s.cfg.staticKeypair.publicKey
  let psk := s.cfg.presharedKey
  if s.cfg.initiator then
    pure ⟨frames [own, s.peer, psk, e, payload], none, { s with ephemeral := e }⟩
  else
    pure ⟨frames [own, s.peer, psk, s.ephemeral, e, payload], some (split s.ephemeral e), s⟩

/-- A responder checks that the message is for its key under its pre-shared key. -/
def readFirst (s : State) (m : Bytes) : Except String NoiseRead × State :=
  match unframes m with
  | some [peer, own, psk, e, payload] =>
      if own = s.cfg.staticKeypair.publicKey ∧ psk = s.cfg.presharedKey then
        (pure ⟨payload, none⟩, { s with ephemeral := e, peer := peer })
      else (throw "noise: message authentication failed", s)
  | _ => (throw "noise: message is too short", s)

/-- An initiator checks that the message answers its own. -/
def readSecond (s : State) (m : Bytes) : Except String NoiseRead × State :=
  match unframes m with
  | some [peer, own, psk, e, e', payload] =>
      if peer = s.peer ∧ own = s.cfg.staticKeypair.publicKey ∧ psk = s.cfg.presharedKey ∧
          e = s.ephemeral then
        (pure ⟨payload, some (split e e')⟩, s)
      else (throw "noise: message authentication failed", s)
  | _ => (throw "noise: message is too short", s)

/-- Which message is expected depends on the role. -/
def readMessage (s : State) (m : Bytes) : Except String NoiseRead × State :=
  if s.cfg.initiator then readSecond s m else readFirst s m

/-- A ciphertext names everything that went into it. -/
def gcmSeal (key : Vector UInt8 32) (nonce plaintext ad : Bytes) : Bytes :=
  frames [key.toList, nonce, ad, plaintext]

/-- All but the plaintext has to be the same again. -/
def gcmOpen (key : Vector UInt8 32) (nonce ciphertext ad : Bytes) : Except String Bytes :=
  match unframes ciphertext with
  | some [key', nonce', ad', plaintext] =>
      if key' = key.toList ∧ nonce' = nonce ∧ ad' = ad then pure plaintext
      else throw "cipher: message authentication failed"
  | _ => throw "cipher: message authentication failed"

/-- The details of a handshake, field by field. -/
def marshalDetails (d : HandshakeDetails) : Bytes :=
  frames [d.cert, Bytes.bePut 4 d.initiatorIndex.toNat, Bytes.bePut 4 d.responderIndex.toNat,
    Bytes.bePut 8 d.time.toNat]

/-- The details, read back. -/
def unmarshalDetails (b : Bytes) : Except String HandshakeDetails :=
  match unframes b with
  | some [cert, i, r, t] =>
      pure ⟨cert, UInt32.ofNat (Bytes.beGet i), UInt32.ofNat (Bytes.beGet r),
        UInt64.ofNat (Bytes.beGet t)⟩
  | _ => throw "proto: cannot parse invalid wire-format data"

/-- The outer message, read back. -/
def unmarshalMessage (b : Bytes) : Except String HandshakeMessage :=
  match unframes b with
  | some [details, noisePayload, hmac] => pure ⟨details, noisePayload, hmac⟩
  | _ => throw "proto: cannot parse invalid wire-format data"

/-- The DER bytes of a certificate: CA flag, name, and the contents of the three extensions. -/
def der (isCA : Bool) (name vpnIP groups key : Bytes) : Bytes :=
  frames [if isCA then [1] else [0], name, vpnIP, groups, key]

/-- A certificate, read back from `der`. -/
def parseCertificate (raw : Bytes) : Except String X509 :=
  match unframes raw with
  | some [ca, name, vpnIP, groups, key] =>
      pure ⟨raw, ca == [1], name,
        [(oidVpnIP, vpnIP), (oidGroups, groups), (oidCurve25519Key, key)]⟩
  | _ => throw "x509: malformed certificate"

/-- The value of the address extension: the bytes of the address and the length. -/
def unmarshalVpnIP (b : Bytes) : Except String (Bytes × Int) :=
  match unframes b with
  | some [ip, [bits]] => pure (ip, bits.toNat)
  | _ => throw "asn1: structure error"

/-- The symbolic platform.  Lighthouse messages and textual addresses play no part in it; see
`discovery`. -/
abbrev platform : Platform where
  HandshakeState := State
  Entropy := Bytes
  newHandshakeState := newHandshakeState
  writeMessage := writeMessage
  readMessage := readMessage
  peerStatic := State.peer
  x25519Base := id
  sha256 := pad32
  hmacSHA256 key data := frames [key, data]
  gcmSeal := gcmSeal
  gcmOpen := gcmOpen
  pemDecode
    | 45 :: raw => some ⟨pemTypeCert, raw⟩
    | _ => none
  pemEncode block := 45 :: block.bytes
  parseCertificate := parseCertificate
  verifyChain _ roots _ :=
    if roots.any (·.isCA) then pure () else throw "x509: certificate signed by unknown authority"
  unmarshalVpnIP := unmarshalVpnIP
  unmarshalRawValues b := match unframes b with
    | some vals => pure vals
    | none => throw "asn1: structure error"
  unmarshalOctets b := pure b
  marshalDetails d := pure (marshalDetails d)
  unmarshalDetails := unmarshalDetails
  marshalMessage m := pure (frames [m.details, m.noisePayload, m.hmac])
  unmarshalMessage := unmarshalMessage
  marshalLightHouse _ := throw "proto: not modelled"
  unmarshalLightHouse _ := throw "proto: not modelled"
  parseAddr _ := none
  addrString _ := ""
  parseIP _ := none
  ipString _ := ""

/-! ### Lighthouse messages and textual addresses -/

/-- A string, four bytes to each character. -/
def text (s : String) : Bytes := frames (s.toList.map fun c => Bytes.bePut 4 c.toNat)

/-- A text, read back. -/
def untext (b : Bytes) : Option String :=
  (unframes b).map fun cs => String.ofList (cs.map fun c => Char.ofNat (Bytes.beGet c))

/-- An endpoint. -/
def marshalIpPort (p : IpPort) : Bytes := frames [text p.ip, Bytes.bePut 4 p.port.toNat]

/-- An endpoint, read back. -/
def unmarshalIpPort (b : Bytes) : Option IpPort :=
  match unframes b with
  | some [ip, port] => (untext ip).map (⟨·, UInt32.ofNat (Bytes.beGet port)⟩)
  | _ => none

/-- Endpoints. -/
def marshalIpPorts (ps : List IpPort) : Bytes := frames (ps.map marshalIpPort)

/-- Endpoints, read back. -/
def unmarshalIpPorts (b : Bytes) : Option (List IpPort) :=
  (unframes b).bind fun items => items.mapM unmarshalIpPort

/-- A lighthouse message: a number for the kind of its body, and the fields. -/
def marshalLightHouse (msg : LightHouseMessage) : Bytes :=
  match msg.body with
  | none => []
  | some (.query vpnIp) => frames [[1], text vpnIp]
  | some (.queryReply vpnIp addrs) => frames [[2], text vpnIp, marshalIpPorts addrs]
  | some (.update addrs) => frames [[3], marshalIpPorts addrs]
  | some .whoAmI => frames [[4]]
  | some (.whoAmIReply addr) => frames [[5], marshalIpPorts addr.toList]
  | some (.punch vpnIp addrs) => frames [[6], text vpnIp, marshalIpPorts addrs]

/-- The body a message spells, if any. -/
def lightHouseBody (b : Bytes) : Option (Option LightHouseBody) := do
  match ← unframes b with
  | [] => pure none
  | [[1], vpnIp] => pure (some (.query (← untext vpnIp)))
  | [[2], vpnIp, addrs] => pure (some (.queryReply (← untext vpnIp) (← unmarshalIpPorts addrs)))
  | [[3], addrs] => pure (some (.update (← unmarshalIpPorts addrs)))
  | [[4]] => pure (some .whoAmI)
  | [[5], addr] => pure (some (.whoAmIReply (← unmarshalIpPorts addr).head?))
  | [[6], vpnIp, addrs] => pure (some (.punch (← untext vpnIp) (← unmarshalIpPorts addrs)))
  | _ => none

/-- A lighthouse message, read back. -/
def unmarshalLightHouse (b : Bytes) : Except String LightHouseMessage :=
  match lightHouseBody b with
  | some body => pure ⟨body⟩
  | none => throw "proto: cannot parse invalid wire-format data"

/-! ### Addresses as text

An IPv4 address is written as `net/netip` and `net` write it.  An IPv6 address is written with all
its digits, in the form of `Addr.StringExpanded`, and nothing else is read: which groups of zeros
are left out plays no part in the code. -/

/-- The digits of a number. -/
def digits (n : Nat) : GoString := (Nat.toDigits 10 n).map fun c => UInt8.ofNat c.toNat

/-- The number that digits write. -/
def decimal (s : GoString) : Option Nat :=
  if s = [] then none
  else s.foldlM (fun n c => if 48 ≤ c ∧ c ≤ 57 then some (10 * n + (c.toNat - 48)) else none) 0

/-- Separates the numbers of an IPv4 address. -/
def dotByte : UInt8 := 46

/-- Separates the groups of an IPv6 address. -/
def colonByte : UInt8 := 58

/-- Separates an IPv6 address from its zone. -/
def percentByte : UInt8 := 37

/-- Separates an address from a prefix length. -/
def slashByte : UInt8 := 47

/-- A dotted quad. -/
def quad (bs : Bytes) : GoString := [dotByte].intercalate (bs.map fun b => digits b.toNat)

/-- A dotted quad, read back; every number has to fit a byte. -/
def readQuad (s : GoString) : Option Bytes :=
  match (s.splitOn dotByte).mapM decimal with
  | some [a, b, c, d] =>
      if a < 256 ∧ b < 256 ∧ c < 256 ∧ d < 256 then some ([a, b, c, d].map UInt8.ofNat) else none
  | _ => none

/-- A hexadecimal digit. -/
def hexChar (n : Nat) : UInt8 := UInt8.ofNat (Nat.digitChar n).toNat

/-- The value of a hexadecimal digit. -/
def hexDigit (c : UInt8) : Option Nat :=
  if 48 ≤ c ∧ c ≤ 57 then some (c.toNat - 48)
  else if 97 ≤ c ∧ c ≤ 102 then some (c.toNat - 87)
  else none

/-- The two digits of a byte. -/
def hexByte (b : UInt8) : GoString := [hexChar (b.toNat / 16), hexChar (b.toNat % 16)]

/-- A group of four digits for every two bytes. -/
def hexGroups : Bytes → List GoString
  | a :: b :: bs => (hexByte a ++ hexByte b) :: hexGroups bs
  | _ => []

/-- A group of four digits, read back. -/
def readGroup : GoString → Option Bytes
  | [c₁, c₂, c₃, c₄] => do
      let a := 16 * (← hexDigit c₁) + (← hexDigit c₂)
      let b := 16 * (← hexDigit c₃) + (← hexDigit c₄)
      pure [UInt8.ofNat a, UInt8.ofNat b]
  | _ => none

/-- The groups of 16 bytes. -/
def expanded (bs : Bytes) : GoString := [colonByte].intercalate (hexGroups bs)

/-- Eight groups, read back. -/
def readExpanded (s : GoString) : Option Bytes := do
  let groups ← (s.splitOn colonByte).mapM readGroup
  if groups.length = 8 then pure groups.flatten else none

/-- `Addr.String`, with the groups of an IPv6 address written out as in `StringExpanded`. -/
def addrText : Addr → GoString
  | .zero => ascii "invalid IP"
  | .v4 a => quad (Bytes.bePut 4 a.toNat)
  | .v6 a zone =>
      expanded (Bytes.bePut 16 a.toNat) ++ (if zone = [] then [] else percentByte :: zone)

/-- `netip.ParseAddr`, for what `addrText` writes. -/
def readAddr (s : GoString) : Option Addr :=
  if colonByte ∈ s then
    (readExpanded (s.takeWhile (· ≠ percentByte))).map fun b =>
      .v6 (BitVec.ofNat 128 (Bytes.beGet b)) ((s.dropWhile (· ≠ percentByte)).drop 1)
  else (readQuad s).bind Addr.fromSlice

/-- `IP.String`, likewise; `net` has no zones. -/
def ipText (ip : Bytes) : GoString := if ip.length = 4 then quad ip else expanded ip

/-- `net.ParseIP`, for what `ipText` writes.  An IPv4 address comes back in 4 bytes, where Go has
the 16 that `IP.Equal` takes for the same address. -/
def readIP (s : GoString) : Option Bytes := if colonByte ∈ s then readExpanded s else readQuad s

/-- The symbolic platform with lighthouse messages and addresses in textual form. -/
abbrev discovery : Platform :=
  { platform with
    marshalLightHouse := fun msg => pure (marshalLightHouse msg)
    unmarshalLightHouse
    parseAddr := fun s => readAddr (ascii s)
    addrString := fun a => plain (addrText a)
    parseIP := fun s => readIP (ascii s)
    ipString := fun ip => plain (ipText ip) }

/-! ### Certificates and keys of concrete nodes

Node `n` has the address 10.0.0.`n`, the byte `n` repeated as its key, and a certificate of the one
CA. -/

/-- A certificate as it is issued: the DER bytes and what `parseDER` reads from them. -/
def issue (isCA : Bool) (name : Bytes) (ip : Vector UInt8 4) (bits : UInt8)
    (groups : List GoString) (key : Vector UInt8 32) : Certificate :=
  let vpnIP := frames [ip.toList, [bits]]
  let raw := der isCA name vpnIP (frames groups) key.toList
  { raw
    x509 := ⟨raw, isCA, name, [(oidVpnIP, vpnIP), (oidGroups, frames groups),
      (oidCurve25519Key, key.toList)]⟩
    vpnIP := .ofAddr (.v4 (BitVec.ofNat 32 (Bytes.beGet ip.toList))) bits.toNat
    groups
    x25519PublicKey := key.toList }

/-- The key pair of node `n`. -/
def nodeKey (n : UInt8) : DHKey := ⟨List.replicate 32 n, List.replicate 32 n⟩

/-- The certificate of node `n`, for 10.0.0.`n`. -/
def nodeCert (n : UInt8) (groups : List GoString) : Certificate :=
  issue false [n] #v[10, 0, 0, n] 24 groups (Vector.replicate 32 n)

/-- The certificate of the CA. -/
def caCert : Certificate := issue true [0] #v[0, 0, 0, 0] 0 [] (Vector.replicate 32 0)

/-- A world in which nothing fails. -/
def calmEnv (index : UInt32) (entropy : Bytes) : Env platform :=
  ⟨0, .ok index, entropy, fun _ _ => .ok (), []⟩

/-- The address of node `n`. -/
def nodeIP (n : UInt8) : Addr := .from4 10 0 0 n

/-- Where node `n` is reached on the underlying network. -/
def nodeAddr (n : UInt8) : UDPAddr := ⟨[192, 0, 2, n], 4242⟩

/-- A TCP packet from node `src` to node `dst`. -/
def tcpPacket (src dst : UInt8) (srcPort dstPort : UInt16) : Bytes :=
  [0x45, 0, 0, 40, 0, 0, 0x40, 0, 64, 6, 0, 0, 10, 0, 0, src, 10, 0, 0, dst]
    ++ Bytes.bePut 2 srcPort.toNat ++ Bytes.bePut 2 dstPort.toNat
    ++ [0, 0, 0, 1, 0, 0, 0, 0, 0x50, 2, 0xff, 0xff, 0, 0, 0, 0]

end Symbolic

end Neth
