/-
Starting a node: `NewInterface` and what it calls in `interface.go`, with `udp.Listen`
and `run` of `cmd/nethd`.

What the machine hands over is in `Machine`: its files, its directories, its network
interfaces, the socket and the kernel.  A start that fails closes what it has opened.

Which handles are open is the state of the `Opening` monad of `Lib/Handles.lean`, so
that a `Close` the code forgets is a handle that stays in the list.  The static host map
is a Go map, and the order in which it is walked is one more thing the machine decides.
Whether the result depends on it is asked in `Proofs/Statics.lean`.
-/
import Neth.Interface
import Neth.PKI
import Neth.TUN

namespace Neth

open Handles

/-- An entry of a directory, as `os.ReadDir` returns it. -/
structure DirEntry where
  name : GoString
  isDir : Bool

/-- A network interface of the machine: two of its flags, and the IPs of those of its addresses
that are `*net.IPNet`. -/
structure NetInterface where
  loopback : Bool
  up : Bool
  addrs : List Bytes

/-- What the start of a node finds on its machine: files, a clock, sockets, a kernel, interfaces and
a resolver, and the order in which Go walks a map. -/
structure Machine extends Files where
  /-- `os.ReadDir`, sorted by name. -/
  readDir : GoString → Except String (List DirEntry)
  /-- `filepath.Join`. -/
  join : GoString → GoString → GoString
  /-- `ListenPacket` on `host:port`: the address of the socket. -/
  listenPacket : String → Except String UDPAddr
  kernel : Kernel
  interfaces : Except String (List NetInterface)
  /-- `net.ResolveUDPAddr`. -/
  resolve : String → Except String UDPAddr
  /-- `Prefix.String`. -/
  prefixString : IPPrefix → GoString
  /-- The order in which `range` visits the keys of the static host map. -/
  order : List String

/-- `IP.To4`. -/
def to4 (ip : Bytes) : Option Bytes :=
  if ip.length = 4 then some ip
  else if ip.length = 16 ∧ ip.take 12 = v4InV6 then some (ip.drop 12)
  else none

/-- `localUDPAddrs`. -/
def localUDPAddrs (interfaces : Except String (List NetInterface)) (port : Nat) : List UDPAddr :=
  match interfaces with
  | .error _ => []
  | .ok ifaces =>
      (ifaces.filter fun i => !i.loopback && i.up).flatMap fun i =>
        (i.addrs.filterMap to4).map fun ip => ⟨ip, port⟩

variable (P : Platform)

/-- The addresses of the lighthouses. -/
def parseHosts (hosts : List String) : Except String (List Addr) :=
  hosts.mapM fun host =>
    match P.parseAddr host with
    | some ip => pure ip
    | none => throw ("lighthouse host \"" ++ host ++ "\": unable to parse IP")

/-- The static entries for one key of the map. -/
def addStatic (resolve : String → Except String UDPAddr) (lh : LightHouse) (vpnIPStr : String)
    (addrStrs : List String) : Except String LightHouse :=
  match P.parseAddr vpnIPStr with
  | none => throw ("static_host_map key \"" ++ vpnIPStr ++ "\": unable to parse IP")
  | some vpnIP =>
      addrStrs.foldlM
        (fun lh addrStr => do
          let udpAddr ← (resolve addrStr).mapError
            (("static_host_map \"" ++ vpnIPStr ++ "\" addr \"" ++ addrStr ++ "\": ") ++ ·)
          pure (lh.addStaticEntry vpnIP udpAddr))
        lh

/-- `buildLightHouse`, for a socket on `port`. -/
def buildLightHouse (M : Machine) (cfg : Config) (port : Nat) : Except String LightHouse := do
  let lhIPs ← parseHosts P cfg.lighthouse.hosts
  let lh := LightHouse.new cfg.lighthouse.amLighthouse lhIPs (localUDPAddrs M.interfaces port)
  M.order.foldlM (fun lh key => addStatic P M.resolve lh key ((cfg.staticHostMap key).getD [])) lh

/-- `strings.HasSuffix(name, ".crt")`. -/
def isCrt (name : GoString) : Bool := (ascii ".crt").isSuffixOf name

/-- `loadPeerCerts`: the certificates it hands to `AddPeerCert`.  A file that cannot be read ends
it, one that does not parse is left out. -/
def loadPeerCerts (M : Machine) (dir : GoString) : Except String (List Certificate) := do
  let entries ← M.readDir dir
  let files := entries.filter fun e => !e.isDir && isCrt e.name
  let data ← files.mapM fun e => M.readFile (M.join dir e.name)
  pure (data.filterMap fun bytes => (Certificate.parse P bytes).toOption)

/-- The certificates a node starts with. -/
def seedPeerCerts (M : Machine) (cfg : Config) : Except String (List Certificate) :=
  if cfg.pki.peersDir ≠ [] then
    (loadPeerCerts P M cfg.pki.peersDir).mapError ("interface: peer certs: " ++ ·)
  else pure []

/-- `udp.Listen`. -/
def listen (M : Machine) (host : String) (port : Int) : Except String UDPAddr :=
  let addr := host ++ ":" ++ toString port
  (M.listenPacket addr).mapError (("udp: listen " ++ addr ++ ": ") ++ ·)

/-- What a start has brought up. -/
structure Startup where
  node : Interface P
  pki : PKI
  device : Device
  localAddr : UDPAddr

/-- The punchy of a configuration; there is none if it would never do anything. -/
def PunchyConfig.punchy (c : PunchyConfig) : Option Punchy :=
  if c.punch || c.respond then some ⟨c.punch, c.respond⟩ else none

/-- `NewInterface`. -/
def newInterface (M : Machine) (T : Text) (cfg : Config) : Opening Handle (Startup P) := do
  let pki ← Opening.attempt (loadPKI P T M.toFiles cfg.pki)
  let fw ← Opening.attempt ((buildFirewall T cfg.firewall.inbound cfg.firewall.outbound).mapError
    ("interface: firewall: " ++ ·))
  let addr ← Opening.acquire .udpConn ((listen M cfg.listen.host cfg.listen.port).mapError
    ("interface: udp: " ++ ·))
  let device ← ((TUN.openDevice M.kernel T cfg.tun.dev (M.prefixString pki.nodeCert.vpnIP)
    cfg.tun.mtu).mapError ("interface: tun: " ++ ·)).closing [.udpConn]
  let lighthouse ← (Opening.attempt ((buildLightHouse P M cfg addr.port).mapError
    ("interface: lighthouse: " ++ ·))).closing [.udpConn, .tunDevice]
  let peers ← (Opening.attempt (seedPeerCerts P M cfg)).closing [.udpConn, .tunDevice]
  let staticKey : DHKey := ⟨pki.curve25519Key, pki.nodeCert.x25519PublicKey⟩
  pure
    { node := .new pki.nodeCert staticKey pki.caCerts fw lighthouse cfg.punchy.punchy peers
      pki
      device
      localAddr := addr }

/-- `run` of `nethd` up to `Run`: the node, or the message it ends with. -/
def nethd (M : Machine) (T : Text) (unmarshalYAML : Bytes → Except String Config)
    (configPath : GoString) : Opening Handle (Startup P) := do
  let cfg ← (Opening.attempt (Config.load T M.readFile unmarshalYAML configPath)).mapError
    ("nethd: config: " ++ ·)
  newInterface P M T cfg

/-- `Run` once the context is cancelled. -/
def shutdown : Opening Handle Unit := do
  Opening.release .tunDevice
  Opening.release .udpConn

/-- `run` of `nethd`, from its start to its end. -/
def nethdRun (M : Machine) (T : Text) (unmarshalYAML : Bytes → Except String Config)
    (configPath : GoString) : Opening Handle Unit := do
  let _ ← nethd P M T unmarshalYAML configPath
  shutdown

end Neth
