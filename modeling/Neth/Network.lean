/-
Two nodes and the network between them.

Each node reacts to its own TUN device and timers at any time.  A datagram that it gets
out to the address of the other node is in flight until the network delivers or loses
it; what is written to any other address leaves the system.  A datagram seems to come
from the address of the node that sent it.

One action is a whole call, from the event to the last thing the node does about it.  In
the code the socket is written to in the middle of some calls, so that the other node
may react before the call has ended.  Results that this could touch are proved of
`Daemons.lean`, where calls take their steps one by one.
-/
import Neth.Interface
import Neth.Lib.Lossy

namespace Neth

open Lossy

/-- What a node does without a datagram. -/
inductive Tick where
  | inside (pkt : Bytes)
  | retry
  | expire
  | advertise

/-- The event of the node that a tick is. -/
def Tick.event : Tick → Interface.Event
  | .inside pkt => .inside pkt
  | .retry => .retry
  | .expire => .expire
  | .advertise => .advertise

/-- The datagrams that got out to an address. -/
def sentTo (addr : UDPAddr) (effs : List Effect) : List Bytes :=
  effs.filterMap fun
    | .writeTo data to' true => if to' = addr then some data else none
    | _ => none

variable {P : Platform}

/-- A reaction as the node at `addr` gets to know of it. -/
def seenAt (addr : UDPAddr) (r : Interface P × List Effect) : Interface P × List Bytes :=
  (r.1, sentTo addr r.2)

/-- One node, when node `s` is reached at `addr s`.  An action of it is a whole call: what the call
writes is in flight only when the call has ended.  For the order of things inside a call see
`Daemons`. -/
def party (P : Platform) (addr : Side → UDPAddr) (s : Side) :
    Party (Interface P) (Env P × Tick) (Env P) Bytes where
  act I i := seenAt (addr s.other) (I.step (i.1, i.2.event))
  receive I env data :=
    seenAt (addr s.other) (I.step (env, .outside data (addr s.other)))

/-- Two nodes, and the datagrams in flight. -/
abbrev Network (P : Platform) := Net (Interface P) Bytes

/-- What can happen next: a node does something of its own, or the network does something. -/
abbrev NetworkAction (P : Platform) := Action (Env P × Tick) (Env P)

namespace Network

/-- How a node is set up, except for the peers it knows. -/
structure Setup where
  cert : Certificate
  key : DHKey
  caPool : List Certificate
  fw : Firewall
  lighthouse : LightHouse
  punchy : Option Punchy

/-- The handshake manager of a node that has just started. -/
def Setup.manager (P : Platform) (x : Setup) : HandshakeManager P := .new x.cert x.key x.caPool

/-- A node that has just started, and knows the certificates of some peers. -/
def Setup.node (P : Platform) (x : Setup) (peers : List Certificate) : Interface P :=
  .new x.cert x.key x.caPool x.fw x.lighthouse x.punchy peers

/-- Two nodes and nothing in flight. -/
def start (A B : Interface P) : Network P where
  node
    | .left => A
    | .right => B
  inbox _ := []

/-- One action, and the datagrams that got out in it. -/
def step (addr : Side → UDPAddr) (N : Network P) (a : NetworkAction P) :
    Network P × List Bytes :=
  Net.step (party P addr) N a

/-- Any number of actions. -/
def run (addr : Side → UDPAddr) (N : Network P) (as : List (NetworkAction P)) :
    Network P × List (List Bytes) :=
  Trace.run (step addr) N as

end Network

end Neth
