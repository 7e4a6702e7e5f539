/-
The 16-byte packet header, `header/header.go`.

Byte 0 holds the version in its high half and the message type in its low half, byte 1
the subtype, bytes 2 and 3 are reserved, bytes 4 to 7 the receiver's connection index
and bytes 8 to 15 the message counter, both big-endian.  The reserved bytes are written
as zero and not looked at on the way in.

Version and type are bytes in the source but have half a byte each on the wire, and
`Encode` cuts them off without an error.  So a header comes back from its bytes only
with the version `Parse` accepts and a type below 16, such as the five there are.
-/
import Neth.Lib.Bytes

namespace Neth

/-- The version of the protocol. -/
def headerVersion : UInt8 := 1

/-- The length of a header in bytes. -/
def headerLen : Nat := 16

/-- `MessageType`; a packet may carry any value below 16. -/
abbrev MessageType := UInt8

/-- A message of the Noise handshake. -/
def typeHandshake : MessageType := 0

/-- An encrypted packet. -/
def typeMessage : MessageType := 1

/-- A lighthouse message. -/
def typeLightHouse : MessageType := 2

/-- A keep-alive, which is answered. -/
def typeTest : MessageType := 3

/-- The peer asks to forget the session. -/
def typeCloseTunnel : MessageType := 4

/-- `HandshakeSubType`. -/
abbrev HandshakeSubType := UInt8

/-- Stage 0, from the initiator. -/
def handshakeInitiation : HandshakeSubType := 0

/-- Stage 1, from the responder. -/
def handshakeResponse : HandshakeSubType := 1

/-- `Header`: what stands in front of a datagram, in clear text.  A data packet has it as its
additional data, so that it is authenticated there. -/
structure Header where
  version : UInt8
  type : MessageType
  subType : UInt8
  remoteIndex : UInt32
  messageCounter : UInt64
  deriving DecidableEq

namespace Header

/-- `Encode` on the caller's buffer, assignment by assignment: the buffer as the call leaves it and
the error. -/
def encodeInto (h : Header) (buf : Bytes) : Bytes × Except String Unit :=
  if buf.length < headerLen then
    (buf, .error ("header: buffer too small: need " ++ toString headerLen ++ " bytes, got "
      ++ toString buf.length))
  else
    let buf := buf.set 0 ((h.version <<< 4) ||| (h.type &&& 0x0F))
    let buf := buf.set 1 h.subType
    let buf := buf.set 2 0
    let buf := buf.set 3 0
    let buf := Bytes.put buf 4 (Bytes.bePut 4 h.remoteIndex.toNat)
    let buf := Bytes.put buf 8 (Bytes.bePut 8 h.messageCounter.toNat)
    (buf, .ok ())

/-- `Encode` for a caller that drops the buffer on an error: the first 16 bytes of the buffer are
overwritten. -/
def encode (h : Header) (buf : Bytes) : Except String Bytes :=
  if buf.length < headerLen then
    .error ("header: buffer too small: need " ++ toString headerLen ++ " bytes, got "
      ++ toString buf.length)
  else
    .ok ([(h.version <<< 4) ||| (h.type &&& 0x0F), h.subType, 0, 0]
      ++ Bytes.bePut 4 h.remoteIndex.toNat ++ Bytes.bePut 8 h.messageCounter.toNat
      ++ buf.drop headerLen)

/-- `Parse`. -/
def parse (buf : Bytes) : Except String Header :=
  if buf.length < headerLen then
    .error ("header: too short: need " ++ toString headerLen ++ " bytes, got "
      ++ toString buf.length)
  else
    let v := buf.getD 0 0 >>> 4
    if v ≠ headerVersion then
      .error ("header: unsupported version " ++ toString v ++ " (want "
        ++ toString headerVersion ++ ")")
    else
      .ok { version := v
            type := buf.getD 0 0 &&& 0x0F
            subType := buf.getD 1 0
            remoteIndex := UInt32.ofNat (Bytes.beGet (Bytes.slice buf 4 4))
            messageCounter := UInt64.ofNat (Bytes.beGet (Bytes.slice buf 8 8)) }

/-- `Bytes`: `encode` into a fresh buffer of exactly the header's length. -/
def bytes (h : Header) : Bytes :=
  match h.encode (List.replicate headerLen 0) with
  | .ok buf => buf
  | .error _ => List.replicate headerLen 0

end Header

end Neth
