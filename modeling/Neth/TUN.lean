/-
The TUN device, `tun/tun.go`.

The kernel is told everything in `struct ifreq`: 16 bytes for the name of the device and
24 bytes whose meaning depends on the request.  Every request that fails closes what is
open by then.  Numbers are in the byte order of the machine, which is little-endian on
the two the code is built for.

The kernel is a function from requests to answers, and an answer is an `ifreq` again.
Two answers are used: the name that `TUNSETIFF` has chosen, which need not be the one
that was asked for, and the flags the device has.
-/
import Neth.Lib.Handles
import Neth.Text

namespace Neth

open Handles

/-- What the daemon keeps open. -/
inductive Handle where
  | udpConn
  | tunDevice
  /-- The socket through which the device is configured. -/
  | control
  deriving DecidableEq

/-! ### `struct ifreq`

The bytes are written at fixed offsets, as the code does it; what the kernel reads there depends on
the request. -/

/-- `unix.IFNAMSIZ`. -/
def ifNameSize : Nat := 16

/-- `ifreq`. -/
structure Ifreq where
  bytes : Vector UInt8 40
  deriving DecidableEq

namespace Ifreq

/-- The zero value. -/
def zero : Ifreq := ⟨Vector.replicate 40 0⟩

/-- `copy(r[off:], data)`. -/
def overwrite (r : Ifreq) (off : Nat) (data : Bytes) : Ifreq :=
  ⟨Vector.ofFn fun i =>
    if off ≤ i.val ∧ i.val < off + data.length then data.getD (i.val - off) 0 else r.bytes.get i⟩

/-- `setName`. -/
def setName (r : Ifreq) (name : GoString) : Ifreq := r.overwrite 0 (name.take ifNameSize)

/-- `getName`. -/
def getName (r : Ifreq) : GoString := (r.bytes.toList.take ifNameSize).takeWhile (· ≠ 0)

/-- `setFlags`. -/
def setFlags (r : Ifreq) (flags : UInt16) : Ifreq :=
  r.overwrite ifNameSize (Bytes.lePut 2 flags.toNat)

/-- `getFlags`. -/
def getFlags (r : Ifreq) : UInt16 :=
  UInt16.ofNat (Bytes.leGet (Bytes.slice r.bytes.toList ifNameSize 2))

/-- `setMTU`: `uint32(mtu)`. -/
def setMTU (r : Ifreq) (mtu : Int) : Ifreq :=
  r.overwrite ifNameSize (Bytes.lePut 4 (BitVec.ofInt 32 mtu).toNat)

/-- `unix.AF_INET`. -/
def afINET : Nat := 2

/-- `setSockaddrIn`. -/
def setSockaddrIn (r : Ifreq) (ip : BitVec 32) : Ifreq :=
  (r.overwrite ifNameSize (Bytes.lePut 2 afINET)).overwrite (ifNameSize + 4)
    (Bytes.bePut 4 ip.toNat)

end Ifreq

/-- `prefixMask4`. -/
def prefixMask4 (bits : Nat) : BitVec 32 := BitVec.allOnes 32 <<< (32 - bits)

/-! ### `Open`

Each request that fails closes the device, and the control socket is closed in any case. -/

/-- The requests `Open` makes. -/
inductive Request where
  | tunSetIff
  | setAddr
  | setNetmask
  | setMTU
  | getFlags
  | setFlags
  deriving DecidableEq

/-- The names in the error messages. -/
def Request.name : Request → String
  | tunSetIff => "TUNSETIFF"
  | setAddr => "SIOCSIFADDR"
  | setNetmask => "SIOCSIFNETMASK"
  | setMTU => "SIOCSIFMTU"
  | getFlags => "SIOCGIFFLAGS"
  | setFlags => "SIOCSIFFLAGS"

/-- What the kernel answers: whether the device and the socket can be opened, and for each request
what it leaves in the `ifreq`. -/
structure Kernel where
  openClone : Except String Unit
  socket : Except String Unit
  ioctl : Request → Ifreq → Except String Ifreq

/-- `unix.IFF_TUN | unix.IFF_NO_PI`. -/
def iffTun : UInt16 := 0x0001 ||| 0x1000

/-- `unix.IFF_UP`. -/
def iffUp : UInt16 := 1

/-- `Device`; the file is not modelled. -/
structure Device where
  name : GoString
  deriving DecidableEq

namespace TUN

variable (k : Kernel)

/-- `ioctlPtr` with the error of its caller. -/
def request (req : Request) (r : Ifreq) : Except String Ifreq :=
  (k.ioctl req r).mapError (("tun: " ++ req.name ++ ": ") ++ ·)

/-- The four requests on the control socket, and the flags read in between. -/
def configure (devName : GoString) (ip : BitVec 32) (bits : Nat) (mtu : Int) :
    Opening Handle Unit := do
  let ifr := Ifreq.zero.setName devName
  let tell (req : Request) (r : Ifreq) : Opening Handle Ifreq :=
    (Opening.attempt (request k req r)).closing [.tunDevice]
  let _ ← tell .setAddr (ifr.setSockaddrIn ip)
  let _ ← tell .setNetmask (ifr.setSockaddrIn (prefixMask4 bits))
  let _ ← tell .setMTU (ifr.setMTU mtu)
  let flagsIfr ← tell .getFlags ifr
  let _ ← tell .setFlags (flagsIfr.setFlags (flagsIfr.getFlags ||| iffUp))
  pure ()

/-- The address and length `Open` takes from its argument. -/
def parseCIDR (T : Text) (cidr : GoString) : Except String (BitVec 32 × Nat) := do
  let p ← (T.parsePrefix cidr).mapError (("tun: parse CIDR " ++ T.quote cidr ++ ": ") ++ ·)
  match p.addr, p.bits with
  | .v4 ip, some bits => pure (ip, bits)
  | _, _ => throw ("tun: only IPv4 supported, got " ++ plain cidr)

/-- `Open`. -/
def openDevice (T : Text) (name cidr : GoString) (mtu : Int) : Opening Handle Device := do
  let (ip, bits) ← Opening.attempt (parseCIDR T cidr)
  Opening.acquire .tunDevice (k.openClone.mapError ("tun: open /dev/net/tun: " ++ ·))
  let tunIfr ← (Opening.attempt (request k .tunSetIff
    ((Ifreq.zero.setName name).setFlags iffTun))).closing [.tunDevice]
  let devName := tunIfr.getName
  (Opening.acquire .control (k.socket.mapError ("tun: control socket: " ++ ·))).closing [.tunDevice]
  (configure k devName ip bits mtu).deferring .control
  pure ⟨devName⟩

end TUN

end Neth
