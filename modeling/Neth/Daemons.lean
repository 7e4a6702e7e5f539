/-
Two nodes and the network between them, goroutine by goroutine.

`Network` lets a node handle a whole datagram at once.  In the program `HandleStage0` has
written its response to the socket before `onComplete` stores the session, and by the time
the `Add` is reached the other node may have read the response.  Whatever depends on that
order has to be stated here: each node is a `Daemon`, one action of it starts a call or lets
a call under way take its next step, and a datagram is in flight from the step that wrote
it on.  The steps of the two nodes, and the network, take turns in any order.
-/
import Neth.Concurrent
import Neth.Network

namespace Neth

open Lossy Interleave

variable {P : Platform}

/-- The turn of a node that has no datagram to handle: a call of its own, or a step. -/
def Tick.turn : Turn (Env P × Tick) → Turn (Env P × Interface.Event)
  | .call (env, t) => .call (env, t.event)
  | .advance n => .advance n

/-- A turn, and what gets out to `addr` in it. -/
def Daemon.takeTurn (addr : UDPAddr) (D : Daemon P) (e : Turn (Env P × Interface.Event)) :
    Daemon P × List Bytes :=
  let D' := ((program P).turn D e).1
  (D', sentTo addr (effects (D'.log.drop D.log.length)))

/-- One node, when node `s` is reached at `addr s`.  A datagram that arrives starts a call. -/
def daemonParty (P : Platform) (addr : Side → UDPAddr) (s : Side) :
    Party (Daemon P) (Turn (Env P × Tick)) (Env P) Bytes where
  act D e := D.takeTurn (addr s.other) (Tick.turn e)
  receive D env data := D.takeTurn (addr s.other) (.call (env, .outside data (addr s.other)))

/-- Two nodes with the calls under way in them, and the datagrams in flight. -/
abbrev Daemons (P : Platform) := Net (Daemon P) Bytes

/-- What can happen next: a turn of a node, or something the network does. -/
abbrev DaemonsAction (P : Platform) := Action (Turn (Env P × Tick)) (Env P)

namespace Daemons

/-- Two nodes that have just started, with nothing in flight. -/
def start (x : Side → Network.Setup) (peers : Side → List Certificate) : Daemons P where
  node s := .start ((x s).node P (peers s))
  inbox _ := []

/-- One action, and the datagrams that got out in it. -/
def step (addr : Side → UDPAddr) (N : Daemons P) (a : DaemonsAction P) : Daemons P × List Bytes :=
  Net.step (daemonParty P addr) N a

/-- Any number of actions. -/
def run (addr : Side → UDPAddr) (N : Daemons P) (as : List (DaemonsAction P)) :
    Daemons P × List (List Bytes) :=
  Trace.run (step addr) N as

/-- The session table of a node. -/
def hostmap (N : Daemons P) (s : Side) : HostMap := (N.node s).shared.node.hostmap

end Daemons

end Neth
