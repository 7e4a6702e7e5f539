/-
The stateful firewall, `firewall/firewall.go`, `firewall/conntrack.go` and
`firewall/expiry.go`.

A call is told the remote address, the remote peer's groups, one port and the protocol.
It is allowed if the connection table has the call's key, or the key reversed, or else
if a rule of its direction matches, and then the key is entered.  The keys of both
directions are built alike: the remote address and the packet's destination port, with
no source.

A reversed key has its address where keys have none, so it is the key of no packet.
What is entered in one direction lets packets through in the other only under the same
port.
-/
import Mathlib.Logic.Function.Basic
import Neth.Addr

namespace Neth

/-- `Proto`, an IANA protocol number. -/
abbrev Proto := UInt8

/-- `ProtoAny`: no protocol was found, or every one is meant. -/
def protoAny : Proto := 0

/-- `ProtoICMP`. -/
def protoICMP : Proto := 1

/-- `ProtoTCP`. -/
def protoTCP : Proto := 6

/-- `ProtoUDP`. -/
def protoUDP : Proto := 17

/-- A compiled rule; a value field is ignored when its `Any` flag is set. -/
structure Rule where
  port : UInt16
  portAny : Bool
  proto : Proto
  group : GoString
  groupAny : Bool
  cidr : IPPrefix
  cidAny : Bool
  deriving DecidableEq

/-- `matches`. -/
def ruleMatches (r : Rule) (remoteIP : Addr) (remoteGroups : List GoString) (port : UInt16)
    (proto : Proto) : Bool :=
  if r.proto ≠ protoAny ∧ r.proto ≠ proto then false
  else if !r.portAny ∧ r.port ≠ port then false
  else if !r.groupAny ∧ !remoteGroups.any (· == r.group) then false
  else if !r.cidAny ∧ !r.cidr.contains remoteIP then false
  else true

/-! ### Connection tracking

A key is entered with the time of the packet that entered it, and a later packet of the same
connection does not move that time.  A sweep goes by it alone. -/

/-- `ConnKey`: what identifies a tracked connection.  The code fills in the remote address, the
destination port of the packet and the protocol, and leaves the source at its zero value. -/
structure ConnKey where
  srcIP : Addr
  dstIP : Addr
  srcPort : UInt16
  dstPort : UInt16
  proto : Proto
  deriving DecidableEq

/-- `reversed`. -/
def ConnKey.reversed (k : ConnKey) : ConnKey :=
  ⟨k.dstIP, k.srcIP, k.dstPort, k.srcPort, k.proto⟩

/-- The table: when each connection was last tracked. -/
structure Conntrack where
  seen : GoMap ConnKey Time

namespace Conntrack

/-- `newConntrack`. -/
def new : Conntrack := ⟨fun _ => none⟩

/-- `Track`. -/
def track (ct : Conntrack) (now : Time) (k : ConnKey) : Conntrack :=
  ⟨Function.update ct.seen k (some now)⟩

/-- `IsEstablished`. -/
def isEstablished (ct : Conntrack) (k : ConnKey) : Bool :=
  (ct.seen k).isSome || (ct.seen k.reversed).isSome

/-- The timeout that applies to a protocol. -/
def ttl (tcpTimeout udpTimeout defaultTimeout : Time) (proto : Proto) : Time :=
  if proto = protoTCP then tcpTimeout
  else if proto = protoUDP then udpTimeout
  else defaultTimeout

/-- `Expire`.  `now.Sub(last)` may be negative, so the comparison is over the integers. -/
def expire (ct : Conntrack) (now tcpTimeout udpTimeout defaultTimeout : Time) : Conntrack :=
  ⟨fun k => (ct.seen k).filter fun last =>
    !decide ((now : Int) - last ≥ ttl tcpTimeout udpTimeout defaultTimeout k.proto)⟩

end Conntrack

/-- How long an entry for TCP is kept. -/
def defaultTCPTimeout : Time := 5 * 60 * 1000000000

/-- How long an entry for UDP is kept. -/
def defaultUDPTimeout : Time := 30 * 1000000000

/-- How long an entry for anything else is kept. -/
def defaultICMPTimeout : Time := 10 * 1000000000

/-- `Firewall`: the rules for both directions, and the connections that are tracked. -/
structure Firewall where
  inbound : List Rule
  outbound : List Rule
  ct : Conntrack

namespace Firewall

/-- `New`. -/
def new (inbound outbound : List Rule) : Firewall := ⟨inbound, outbound, .new⟩

/-- The key both directions build. -/
def key (remoteIP : Addr) (dstPort : UInt16) (proto : Proto) : ConnKey :=
  ⟨.zero, remoteIP, 0, dstPort, proto⟩

/-- The body the two directions share: conntrack first, then the rules. -/
def allow (f : Firewall) (rules : List Rule) (now : Time) (remoteIP : Addr)
    (remoteGroups : List GoString) (dstPort : UInt16) (proto : Proto) : Firewall × Bool :=
  let k := key remoteIP dstPort proto
  if f.ct.isEstablished k then
    (f, true)
  else if rules.any fun r => ruleMatches r remoteIP remoteGroups dstPort proto then
    ({ f with ct := f.ct.track now k }, true)
  else
    (f, false)

/-- `AllowInbound`. -/
def allowInbound (f : Firewall) (now : Time) (srcIP : Addr) (srcGroups : List GoString)
    (dstPort : UInt16) (proto : Proto) : Firewall × Bool :=
  f.allow f.inbound now srcIP srcGroups dstPort proto

/-- `AllowOutbound`. -/
def allowOutbound (f : Firewall) (now : Time) (dstIP : Addr) (dstGroups : List GoString)
    (dstPort : UInt16) (proto : Proto) : Firewall × Bool :=
  f.allow f.outbound now dstIP dstGroups dstPort proto

/-- `ExpireWith`. -/
def expireWith (f : Firewall) (now tcpTimeout udpTimeout defaultTimeout : Time) : Firewall :=
  { f with ct := f.ct.expire now tcpTimeout udpTimeout defaultTimeout }

/-- One tick of `RunExpiry`. -/
def runExpiry (f : Firewall) (now : Time) : Firewall :=
  f.expireWith now defaultTCPTimeout defaultUDPTimeout defaultICMPTimeout

end Firewall

end Neth
