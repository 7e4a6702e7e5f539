/-
Addresses: the parts of `net/netip` and `net` the code uses.

A `netip.Addr` is either the zero value, which belongs to no family and equals no
address, or an IPv4 or an IPv6 address.  The zero value matters: a connection key leaves
its source address at it.

Endpoints are `net.UDPAddr`, whose addresses are byte strings of either 4 or 16 bytes.
An IPv4 address has both forms, and `ipEqual` identifies them, while `=` does not.  The
code compares endpoints with the former where it looks up a sender.  Prefixes keep their
host bits, and one of a length out of range is no error but an invalid prefix that
contains nothing.
-/
import Neth.Lib.Bytes

namespace Neth

/-- Nanoseconds, for both `time.Time` and `time.Duration`. -/
abbrev Time := Nat

/-- A Go `string`: bytes, not necessarily UTF-8. -/
abbrev GoString := Bytes

/-- A Go map. -/
abbrev GoMap (K V : Type) := K → Option V

/-- `netip.Addr`. -/
inductive Addr where
  | zero
  | v4 (ip : BitVec 32)
  | v6 (ip : BitVec 128) (zone : GoString)
  deriving DecidableEq

namespace Addr

/-- `netip.AddrFrom4`. -/
def from4 (a b c d : UInt8) : Addr :=
  .v4 (BitVec.ofNat 32 (Bytes.beGet [a, b, c, d]))

/-- `netip.AddrFrom4` and `netip.AddrFrom16` of a byte string of that length. -/
def fromSlice (ip : Bytes) : Option Addr :=
  match ip.length with
  | 4 => some (.v4 (BitVec.ofNat 32 (Bytes.beGet ip)))
  | 16 => some (.v6 (BitVec.ofNat 128 (Bytes.beGet ip)) [])
  | _ => none

/-- `Addr.BitLen`. -/
def bitLen : Addr → Nat
  | zero => 0
  | v4 _ => 32
  | v6 _ _ => 128

/-- `Addr.WithZone("")`. -/
def withoutZone : Addr → Addr
  | v6 ip _ => v6 ip []
  | a => a

end Addr

/-- `netip.Prefix`; `bits` is `none` where `Prefix.Bits` is -1. -/
structure IPPrefix where
  addr : Addr
  bits : Option Nat
  deriving DecidableEq

namespace IPPrefix

/-- The zero value. -/
def zero : IPPrefix := ⟨.zero, none⟩

/-- `netip.PrefixFrom`: an out-of-range length gives an invalid prefix, host bits are kept. -/
def ofAddr (addr : Addr) (bits : Int) : IPPrefix :=
  ⟨addr.withoutZone,
    if addr ≠ .zero ∧ 0 ≤ bits ∧ bits ≤ addr.bitLen then some bits.toNat else none⟩

/-- A prefix `PrefixFrom` makes of an address and a length in its range, host bits and all; these
are the ones with `IsValid`. -/
def Valid (p : IPPrefix) : Prop :=
  ∃ (addr : Addr) (n : Nat), addr ≠ .zero ∧ n ≤ addr.bitLen ∧ p = ofAddr addr n

/-- `Prefix.Masked`: the host bits cleared. -/
def masked (p : IPPrefix) : IPPrefix :=
  match p.bits, p.addr with
  | some n, .v4 ip => if n ≤ 32 then ⟨.v4 (ip >>> (32 - n) <<< (32 - n)), some n⟩ else zero
  | some n, .v6 ip _ => if n ≤ 128 then ⟨.v6 (ip >>> (128 - n) <<< (128 - n)) [], some n⟩ else zero
  | _, _ => zero

/-- `Prefix.Contains`: the families agree, `ip` has no zone, and the first `bits` bits agree. -/
def contains (p : IPPrefix) (ip : Addr) : Bool :=
  match p.bits, p.addr, ip with
  | some n, .v4 a, .v4 b => (a ^^^ b) >>> (32 - n) == 0
  | some n, .v6 a _, .v6 b zone => zone == [] && (a ^^^ b) >>> (128 - n) == 0
  | _, _, _ => false

end IPPrefix

/-- `net.UDPAddr`; the address is 4 or 16 bytes. -/
structure UDPAddr where
  ip : Bytes
  port : Nat
  deriving DecidableEq

/-- The `::ffff:0:0/96` bytes in front of an IPv4 address written in 16 bytes. -/
def v4InV6 : Bytes := [0, 0, 0, 0, 0, 0, 0, 0, 0, 0, 0xff, 0xff]

/-- `Addr.As16`. -/
def Addr.as16 : Addr → Bytes
  | zero => List.replicate 16 0
  | v4 ip => v4InV6 ++ Bytes.bePut 4 ip.toNat
  | v6 ip _ => Bytes.bePut 16 ip.toNat

/-- `net.IP.Equal`: an IPv4 address equals its 16-byte form. -/
def ipEqual (a b : Bytes) : Bool :=
  if a.length = b.length then a == b
  else if a.length = 4 ∧ b.length = 16 then b.take 12 == v4InV6 && a == b.drop 12
  else if a.length = 16 ∧ b.length = 4 then a.take 12 == v4InV6 && a.drop 12 == b
  else false

end Neth
