/-
Rules as they are written, `firewall/rule.go`, and the firewall built from them,
`interface.go`.

Each field is looked at twice.  Whether it is a wildcard is decided on the string
without the white space around it; for the protocol, so is what it means, while the
port, the group and the network are taken from the string as it stands.

So white space is harmless in some fields and not in others: a port or a network with a
blank beside it is refused, and a group with one is accepted and is then another group.
Which rules are affected is settled in `Proofs/Rule.lean`.
-/
import Neth.Firewall
import Neth.Text

namespace Neth

/-- `config.FirewallRule`. -/
structure FirewallRule where
  port : GoString
  proto : GoString
  group : GoString
  cidr : GoString
  deriving DecidableEq

/-- `case "", "any"`. -/
def wildcard (s : GoString) : Bool := s == [] || s == ascii "any"

namespace Rule

variable (T : Text)

/-- The `switch` on the protocol. -/
def parseProto (s : GoString) : Except String Proto :=
  let name := T.toLower (trimSpace s)
  if wildcard name then pure protoAny
  else if name = ascii "tcp" then pure protoTCP
  else if name = ascii "udp" then pure protoUDP
  else if name = ascii "icmp" then pure protoICMP
  else throw ("firewall: unknown protocol " ++ T.quote s)

/-- A `switch` that sets the wildcard flag or converts the field; `zero` is the value that
`var rule Rule` leaves. -/
def parseField {α : Type} (any : Bool) (zero : α) (convert : Except String α) :
    Except String (α × Bool) :=
  if any then pure (zero, true) else (·, false) <$> convert

/-- The `default` case of the port. -/
def convertPort (s : GoString) : Except String UInt16 :=
  UInt16.ofNat <$> (T.parseUint s).mapError (("firewall: invalid port " ++ T.quote s ++ ": ") ++ ·)

/-- `parsePort`. -/
def parsePort (s : GoString) : Except String (UInt16 × Bool) :=
  parseField (wildcard (T.toLower (trimSpace s))) 0 (convertPort T s)

/-- Group names are compared as they are written, so nothing is lower-cased. -/
def parseGroup (s : GoString) : Except String (GoString × Bool) :=
  parseField (wildcard (trimSpace s)) [] (pure s)

/-- The `default` case of the network. -/
def convertCIDR (s : GoString) : Except String IPPrefix :=
  IPPrefix.masked <$>
    (T.parsePrefix s).mapError (("firewall: invalid CIDR " ++ T.quote s ++ ": ") ++ ·)

/-- `parseCIDR`. -/
def parseCIDR (s : GoString) : Except String (IPPrefix × Bool) :=
  parseField (wildcard (T.toLower (trimSpace s))) IPPrefix.zero (convertCIDR T s)

end Rule

/-- `ParseRule`. -/
def parseRule (T : Text) (r : FirewallRule) : Except String Rule := do
  let proto ← Rule.parseProto T r.proto
  let (port, portAny) ← Rule.parsePort T r.port
  let (group, groupAny) ← Rule.parseGroup r.group
  let (cidr, cidAny) ← Rule.parseCIDR T r.cidr
  pure { port, portAny, proto, group, groupAny, cidr, cidAny }

/-- One of the two loops of `buildFirewall`. -/
def parseRules (T : Text) (direction : String) (rules : List FirewallRule) :
    Except String (List Rule) :=
  (rules.zipIdx).mapM fun (r, i) =>
    (parseRule T r).mapError ((direction ++ " rule " ++ toString i ++ ": ") ++ ·)

/-- `buildFirewall`. -/
def buildFirewall (T : Text) (inbound outbound : List FirewallRule) : Except String Firewall := do
  let inbound ← parseRules T "inbound" inbound
  let outbound ← parseRules T "outbound" outbound
  pure (.new inbound outbound)

end Neth
