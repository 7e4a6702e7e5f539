/-
Peer discovery and hole punching, `lighthouse.go` and `punchy.go`.

Every handler returns the lighthouse afterwards and the datagrams it sends.  The one
place that ranges over a map, `vpnIPByAddr`, takes the order of the iteration from the
environment.

The register is written from three sides: by the static host map at the start, by
updates, which only a lighthouse takes, and by replies to queries, which every node
takes whether it has asked or not.  Who the sender is has been settled before a handler
is called, in `Interface.lean`.  Who can write what is the subject of
`Proofs/Registry.lean` and `Proofs/Senders.lean`.
-/
import Mathlib.Logic.Function.Basic
import Neth.Env
import Neth.Header

namespace Neth

/-- `Punchy`. -/
structure Punchy where
  punch : Bool
  respond : Bool

variable {P : Platform}

namespace Punchy

/-- `Punch`: an empty datagram to each address. -/
def punchAll (p : Punchy) (env : Env P) (remotes : List UDPAddr) : List Effect :=
  if p.punch then remotes.map (env.send []) else []

/-- `RespondToPunch`. -/
def respondToPunch (p : Punchy) (env : Env P) (src : UDPAddr) : List Effect :=
  if p.respond then [env.send [] src] else []

end Punchy

/-- `LightHouse`: the endpoints known of each peer, and what the node reports about itself. -/
structure LightHouse where
  addrStore : GoMap Addr (List UDPAddr)
  lighthouses : List Addr
  amLighthouse : Bool
  myAddrs : List UDPAddr
  punchy : Option Punchy

/-! ### Addresses on the wire

Endpoints travel as text.  One that cannot be read is left out of a list without an error. -/

variable (P) in
/-- `ipPortToUDPAddr`.  The port is taken as it is, even where no UDP port is that large. -/
def ipPortToUDPAddr (p : IpPort) : Except String UDPAddr :=
  match P.parseIP p.ip with
  | none => throw ("lighthouse: invalid IP \"" ++ p.ip ++ "\"")
  | some ip => pure ⟨ip, p.port.toNat⟩

variable (P) in
/-- `udpAddrToIpPort`. -/
def udpAddrToIpPort (a : UDPAddr) : IpPort := ⟨P.ipString a.ip, UInt32.ofNat a.port⟩

variable (P) in
/-- `ipPortsToUDPAddrs`: what does not parse is left out. -/
def ipPortsToUDPAddrs (ports : List IpPort) : List UDPAddr :=
  ports.filterMap fun p => (ipPortToUDPAddr P p).toOption

variable (P) in
/-- `udpAddrsToIpPorts`. -/
def udpAddrsToIpPorts (addrs : List UDPAddr) : List IpPort := addrs.map (udpAddrToIpPort P)

variable (P) in
/-- `marshalLightHousePacket`: a lighthouse message has no index and no counter in its header. -/
def marshalLightHousePacket (msg : LightHouseMessage) : Except String Bytes := do
  let body ← (P.marshalLightHouse msg).mapError ("lighthouse: marshal: " ++ ·)
  let hdr : Header := ⟨headerVersion, typeLightHouse, 0, 0, 0⟩
  pure (hdr.bytes ++ body)

namespace LightHouse

/-- `NewLightHouse`. -/
def new (amLighthouse : Bool) (lighthouses : List Addr) (myAddrs : List UDPAddr) : LightHouse :=
  ⟨fun _ => none, lighthouses, amLighthouse, myAddrs, none⟩

/-- `SetPunchy`. -/
def setPunchy (lh : LightHouse) (p : Punchy) : LightHouse := { lh with punchy := some p }

/-- `lh.addrStore[ip]`, nil when absent. -/
def stored (lh : LightHouse) (ip : Addr) : List UDPAddr := (lh.addrStore ip).getD []

/-- An assignment to `lh.addrStore[ip]`. -/
def store (lh : LightHouse) (ip : Addr) (addrs : List UDPAddr) : LightHouse :=
  { lh with addrStore := Function.update lh.addrStore ip (some addrs) }

/-- `AddStaticEntry`. -/
def addStaticEntry (lh : LightHouse) (vpnIP : Addr) (addr : UDPAddr) : LightHouse :=
  lh.store vpnIP (lh.stored vpnIP ++ [addr])

/-- `GetAddrs`. -/
def getAddrs (lh : LightHouse) (vpnIP : Addr) : List UDPAddr := lh.stored vpnIP

/-- `VpnIPByAddr`: the first entry of the iteration that holds the address. -/
def vpnIPByAddr (lh : LightHouse) (env : Env P) (addr : UDPAddr) : Option Addr :=
  env.order.find? fun vpnIP =>
    (lh.stored vpnIP).any fun a => ipEqual a.ip addr.ip && a.port == addr.port

/-- `send`: one copy to each address stored for the peer. -/
def send (lh : LightHouse) (env : Env P) (msg : LightHouseMessage) (toVpnIP : Addr) :
    List Effect :=
  match marshalLightHousePacket P msg with
  | .error _ => []
  | .ok wire => (lh.stored toVpnIP).map (env.send wire)

/-- `handleQuery`. -/
def handleQuery (lh : LightHouse) (env : Env P) (vpnIp : String) (replyTo : Addr) : List Effect :=
  match P.parseAddr vpnIp with
  | none => []
  | some queried =>
      lh.send env ⟨some (.queryReply vpnIp (udpAddrsToIpPorts P (lh.stored queried)))⟩ replyTo

/-- `handleQueryReply`. -/
def handleQueryReply (P : Platform) (lh : LightHouse) (vpnIp : String) (addrs : List IpPort) :
    LightHouse :=
  match P.parseAddr vpnIp with
  | none => lh
  | some vpnIP => lh.store vpnIP (ipPortsToUDPAddrs P addrs)

/-- `handleUpdate`. -/
def handleUpdate (P : Platform) (lh : LightHouse) (addrs : List IpPort) (src : Addr) :
    LightHouse :=
  if lh.amLighthouse then lh.store src (ipPortsToUDPAddrs P addrs) else lh

/-- `handleWhoAmI`. -/
def handleWhoAmI (lh : LightHouse) (env : Env P) (src : Addr) : List Effect :=
  lh.send env ⟨some (.whoAmIReply ((lh.stored src).head?.map (udpAddrToIpPort P)))⟩ src

/-- `handleWhoAmIReply`. -/
def handleWhoAmIReply (P : Platform) (lh : LightHouse) (addr : Option IpPort) : LightHouse :=
  match addr with
  | none => lh
  | some p =>
      match ipPortToUDPAddr P p with
      | .error _ => lh
      | .ok a => { lh with myAddrs := a :: lh.myAddrs }

/-- `handlePunch`. -/
def handlePunch (lh : LightHouse) (env : Env P) (addrs : List IpPort) : List Effect :=
  match lh.punchy with
  | none => []
  | some p => p.punchAll env (ipPortsToUDPAddrs P addrs)

/-- `HandleMessage`. -/
def handleMessage (lh : LightHouse) (env : Env P) (msg : LightHouseMessage) (src : Addr) :
    LightHouse × List Effect :=
  match msg.body with
  | some (.query vpnIp) => (lh, lh.handleQuery env vpnIp src)
  | some (.queryReply vpnIp addrs) => (lh.handleQueryReply P vpnIp addrs, [])
  | some (.update addrs) => (lh.handleUpdate P addrs src, [])
  | some .whoAmI => (lh, lh.handleWhoAmI env src)
  | some (.whoAmIReply addr) => (lh.handleWhoAmIReply P addr, [])
  | some (.punch _ addrs) => (lh, lh.handlePunch env addrs)
  | none => (lh, [])

/-- `QueryPeer`. -/
def queryPeer (lh : LightHouse) (env : Env P) (vpnIP : Addr) : List Effect :=
  lh.lighthouses.flatMap (lh.send env ⟨some (.query (P.addrString vpnIP))⟩)

/-- `Advertise`. -/
def advertise (lh : LightHouse) (env : Env P) : List Effect :=
  lh.lighthouses.flatMap (lh.send env ⟨some (.update (udpAddrsToIpPorts P lh.myAddrs))⟩)

end LightHouse

end Neth
