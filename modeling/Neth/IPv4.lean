/-
The four field extractors at the end of `interface.go`.

They look at fixed offsets of an IPv4 packet, and `dstPortFromIPv4` at the transport
header the length field points to.  None of them looks at the fragment offset.

The two that return an address refuse a packet that is too short or not IPv4.  The other
two have no error: a packet that is cut off before the field gets `protoAny` or port 0.
They do not look at the version, which does no harm where they are used, after an
address has been read from the same packet.  That every index is in bounds is shown in
`Proofs/Accesses.lean`.
-/
import Neth.Firewall

namespace Neth

/-- `len(pkt) < 20 || pkt[0]>>4 != 4`. -/
def notIPv4 (pkt : Bytes) : Bool := pkt.length < 20 || pkt.getD 0 0 >>> 4 != 4

/-- The address in the four bytes from `lo` on. -/
def addrAt (pkt : Bytes) (lo : Nat) : Addr :=
  .from4 (pkt.getD lo 0) (pkt.getD (lo + 1) 0) (pkt.getD (lo + 2) 0) (pkt.getD (lo + 3) 0)

/-- `dstIPFromIPv4`. -/
def dstIPFromIPv4 (pkt : Bytes) : Option Addr :=
  if notIPv4 pkt then none else some (addrAt pkt 16)

/-- `srcIPFromIPv4`. -/
def srcIPFromIPv4 (pkt : Bytes) : Option Addr :=
  if notIPv4 pkt then none else some (addrAt pkt 12)

/-- `protoFromIPv4`, which looks at neither the version nor the whole header. -/
def protoFromIPv4 (pkt : Bytes) : Proto :=
  if pkt.length < 10 then protoAny else pkt.getD 9 0

/-- The 16-bit big-endian value at an offset. -/
def uint16At (pkt : Bytes) (off : Nat) : UInt16 :=
  UInt16.ofNat (Bytes.beGet (Bytes.slice pkt off 2))

/-- The header length in bytes, as the packet claims it. -/
def ihl (pkt : Bytes) : Nat := (pkt.getD 0 0 &&& 0x0f).toNat * 4

/-- `dstPortFromIPv4`: 0 for a packet that has no port, and for one that is cut off before it. -/
def dstPortFromIPv4 (pkt : Bytes) : UInt16 :=
  if pkt.length < 20 then 0
  else
    let p := pkt.getD 9 0
    if (p = protoTCP ∨ p = protoUDP) ∧ pkt.length ≥ ihl pkt + 4 then uint16At pkt (ihl pkt + 2)
    else 0

end Neth
