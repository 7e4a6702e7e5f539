/-
The world around one call.

A handler reads the clock, draws random numbers and writes to the socket.  What it gets
from outside is an argument, `Env`; what it does to the outside is a list of `Effect`s.
Besides the datagrams and TUN writes, the list records where packets pass a cipher or a
firewall check: these entries change nothing, they are what the theorems about runs
speak of.

Each call has an environment of its own, and nothing relates the environments of two
calls.  So a result that needs the clock to go forward or an index to be free says so.
-/
import Neth.NoiseUtil

namespace Neth

/-- A pointer into one of the object lists below. -/
abbrev Ref := Nat

/-- What one call draws from outside. -/
structure Env (P : Platform) where
  /-- `time.Now`. -/
  now : Time
  /-- The outcome of `randomIndex`. -/
  index : Except String UInt32
  /-- Randomness for the Noise message the call writes. -/
  entropy : P.Entropy
  /-- The outcome of `WriteTo` for each datagram. -/
  writeTo : Bytes → UDPAddr → Except String Unit
  /-- The order in which a `range` over a map keyed by VPN IP visits its keys. -/
  order : List Addr

/-- What a call does that is seen from outside, or that a theorem has to speak about: datagrams and
packets written, decisions of the firewall, calls of the cipher. -/
inductive Effect where
  /-- A datagram handed to `WriteTo`, and whether that succeeded. -/
  | writeTo (data : Bytes) (addr : UDPAddr) (ok : Bool)
  | tunWrite (data : Bytes)
  /-- `Encrypt` was called for a session. -/
  | encrypted (session : Ref) (header plaintext ciphertext : Bytes)
  /-- `Decrypt` succeeded for a session. -/
  | decrypted (session : Ref) (header plaintext : Bytes)
  /-- `AllowOutbound` judged a packet; `tracked` tells whether its connection was established. -/
  | outbound (pkt : Bytes) (groups : List GoString) (tracked allowed : Bool)
  /-- `AllowInbound` judged a packet. -/
  | inbound (pkt : Bytes) (groups : List GoString) (tracked allowed : Bool)
  /-- A sweep of `RunExpiry`. -/
  | expired (now : Time)
  deriving DecidableEq

/-- `WriteTo`, its outcome kept. -/
def Env.send {P : Platform} (env : Env P) (data : Bytes) (addr : UDPAddr) : Effect :=
  .writeTo data addr (env.writeTo data addr).isOk

end Neth
