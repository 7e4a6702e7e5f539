/-
Sessions, `hostmap.go`.

Go keeps one `HostInfo` object per session and reaches it through two maps.  The objects
are kept in a list, a pointer is a position in it, and the maps hold pointers, so that a
counter or a replay bit changed through one map is seen through the other, and a session
replaced under its VPN IP is still there under its index.

Objects are never taken out of the list.  A call that has looked a session up goes on
using it after the session is removed from the maps, as it does in Go, and the position
it has is still good.
-/
import Mathlib.Logic.Function.Basic
import Neth.Cert
import Neth.Env
import Neth.ReplayWindow

namespace Neth

/-- Per-peer session state. -/
structure HostInfo extends ReplayWindow where
  vpnIP : Addr
  remote : UDPAddr
  /-- Local index of this session. -/
  index : UInt32
  /-- Index the remote peer assigned. -/
  remoteIndex : UInt32
  sendCipher : AEAD
  recvCipher : AEAD
  counter : UInt64
  cert : Option Certificate
  deriving DecidableEq

/-- `CheckReplay` on the session object. -/
def HostInfo.checkReplay (h : HostInfo) (counter : UInt64) : HostInfo × Bool :=
  let (w, replay) := h.toReplayWindow.checkReplay counter
  ({ h with toReplayWindow := w }, replay)

/-- `HostMap`: the sessions, under the VPN IP of the peer for sending and under the local index for
receiving. -/
structure HostMap where
  /-- Every session object ever added; a `Ref` is a position in it. -/
  hosts : List HostInfo
  byVpnIP : GoMap Addr Ref
  byIndex : GoMap UInt32 Ref

namespace HostMap

/-- `NewHostMap`. -/
def new : HostMap := ⟨[], fun _ => none, fun _ => none⟩

/-- A pointer with the object it points to. -/
def deref (m : HostMap) (r : Ref) : Option (Ref × HostInfo) := m.hosts[r]?.map fun h => (r, h)

/-- `Add`, of a session object that was just allocated. -/
def add (m : HostMap) (h : HostInfo) : HostMap :=
  { hosts := m.hosts ++ [h]
    byVpnIP := Function.update m.byVpnIP h.vpnIP (some m.hosts.length)
    byIndex := Function.update m.byIndex h.index (some m.hosts.length) }

/-- `GetByVpnIP`. -/
def getByVpnIP (m : HostMap) (ip : Addr) : Option (Ref × HostInfo) := (m.byVpnIP ip).bind m.deref

/-- `GetByIndex`. -/
def getByIndex (m : HostMap) (idx : UInt32) : Option (Ref × HostInfo) :=
  (m.byIndex idx).bind m.deref

/-- `Remove`. -/
def remove (m : HostMap) (ip : Addr) : HostMap :=
  { m with
    byIndex := match m.getByVpnIP ip with
      | some (_, h) => Function.update m.byIndex h.index none
      | none => m.byIndex
    byVpnIP := Function.update m.byVpnIP ip none }

/-- The object behind `r` after an assignment to its fields. -/
def assign (m : HostMap) (r : Ref) (h : HostInfo) : HostMap := { m with hosts := m.hosts.set r h }

end HostMap

end Neth
