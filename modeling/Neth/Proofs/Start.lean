/-
What holds of a node that has started.

A start either fails with everything closed that it opened, or brings up a node that is
fit to take part: its key belongs to its certificate, its certificate is valid under the
CA it trusts, its TUN device has the address of the certificate, and what the kernel
routes into the device is the network of the certificate.

The device is the one the kernel has named, which need not be the one the configuration
asks for, and every later request is about that one.  The handles are followed with the
rules of `Lib/Handles.lean`, the rest by taking a successful start apart.
-/
import Neth.Assumptions
import Neth.Lib.Iteration
import Neth.Proofs.PKI
import Neth.Proofs.Rule
import Neth.Proofs.TUN
import Neth.Start

namespace Neth

open Handles Opening

variable {P : Platform}

/-! ### Handles

The rules of the library, applied along the code.  Every failure has to close what is open by then
and nothing else. -/

theorem TUN.configure_runs (k : Kernel) (devName : GoString) (ip : BitVec 32) (bits : Nat)
    (mtu : Int) :
    Runs [.control, .tunDevice] [.control] [.control, .tunDevice]
      (configure k devName ip bits mtu) := by
  have htell : ∀ (req : Request) (r : Ifreq), Runs [.control, .tunDevice] [.control]
      [.control, .tunDevice] ((attempt (request k req r)).closing [Handle.tunDevice]) :=
    fun req r => (runs_attempt _).closing fun _ => rfl
  refine (htell _ _).bind fun _ => (htell _ _).bind fun _ => (htell _ _).bind fun _ => ?_
  exact (htell _ _).bind fun _ => (htell _ _).bind fun _ => runs_pure ()

theorem TUN.openDevice_runs (k : Kernel) (T : Text) (name cidr : GoString) (mtu : Int) :
    Runs [] [] [.tunDevice] (openDevice k T name cidr mtu) := by
  refine (runs_attempt _).bind fun a => ?_
  refine (runs_acquire Handle.tunDevice _).bind fun _ => ?_
  refine ((runs_attempt _).closing fun _ => rfl).bind fun _ => ?_
  refine ((runs_acquire Handle.control _).closing fun _ => rfl).bind fun _ => ?_
  exact (configure_runs k _ _ _ mtu).deferring.bind fun _ => runs_pure _

theorem newInterface_runs (M : Machine) (T : Text) (cfg : Config) :
    Runs [] [] [.tunDevice, .udpConn] (newInterface P M T cfg) := by
  refine (runs_attempt _).bind fun pki => (runs_attempt _).bind fun fw => ?_
  refine (runs_acquire Handle.udpConn _).bind fun addr => ?_
  have hdevice := (TUN.openDevice_runs M.kernel T cfg.tun.dev (M.prefixString pki.nodeCert.vpnIP)
    cfg.tun.mtu).mapError ("interface: tun: " ++ ·)
  refine ((hdevice.frame [.udpConn]).closing fun _ => rfl).bind fun device => ?_
  refine ((runs_attempt _).closing fun _ => rfl).bind fun lighthouse => ?_
  exact ((runs_attempt _).closing fun _ => rfl).bind fun peers => runs_pure _

theorem nethd_runs (M : Machine) (T : Text) (unmarshalYAML : Bytes → Except String Config)
    (configPath : GoString) :
    Runs [] [] [.tunDevice, .udpConn] (nethd P M T unmarshalYAML configPath) :=
  ((runs_attempt _).mapError _).bind fun cfg => newInterface_runs M T cfg

theorem shutdown_runs : Runs [.tunDevice, .udpConn] [] [] shutdown :=
  (runs_release Handle.tunDevice).bind fun _ => runs_release Handle.udpConn

variable (P) in
/-- **Nothing is left open.**  Whatever fails on the way, and wherever, a start that fails has
closed all it opened; one that succeeds holds the TUN device and the socket and nothing else, in
particular not the socket the device was configured through; and when the daemon ends, both are
closed. -/
theorem nethd_leaves_nothing_open (M : Machine) (T : Text)
    (unmarshalYAML : Bytes → Except String Config) (configPath : GoString) (s : List Handle) :
    ((∃ e, nethd P M T unmarshalYAML configPath s = (.error e, s)) ∨
        ∃ st, nethd P M T unmarshalYAML configPath s = (.ok st, [.tunDevice, .udpConn] ++ s)) ∧
      (nethdRun P M T unmarshalYAML configPath s).2 = s := by
  refine ⟨nethd_runs M T unmarshalYAML configPath s, ?_⟩
  have hruns : Runs [] [] [] (nethdRun P M T unmarshalYAML configPath) :=
    (nethd_runs M T unmarshalYAML configPath).bind fun _ => shutdown_runs
  rcases hruns s with ⟨e, he⟩ | ⟨a, ha⟩
  · exact congrArg Prod.snd he
  · exact congrArg Prod.snd ha

/-! ### A machine

Files, a kernel and a resolver on which a node really starts, for the witnesses below. -/

namespace Symbolic

/-- The symbolic platform with lighthouses and the two kinds of PEM blocks a node reads. -/
abbrev vault : Platform :=
  { discovery with
    pemDecode := fun
      | 45 :: raw => some ⟨pemTypeCert, raw⟩
      | 46 :: raw => some ⟨pemTypeCurve25519Key, raw⟩
      | _ => none
    pemEncode := fun block => (if block.type = pemTypeCert then 45 else 46) :: block.bytes }

theorem vault_ikpsk0 : vault.IKpsk0 where
  initiate s r psk e hs hr :=
    ikpsk0.initiate s r psk e ⟨hs.length, hs.pair⟩ ⟨hr.length, hr.pair⟩
  respond s r psk w hs hr := ikpsk0.respond s r psk w ⟨hs.length, hs.pair⟩ ⟨hr.length, hr.pair⟩

theorem vault_codecs : vault.Codecs := ⟨codecs.details, codecs.message, fun _ => rfl⟩

theorem vault_openSeal : vault.OpenSeal := openSeal

/-- `Prefix.String`, for IPv4. -/
def printPrefix : IPPrefix → GoString
  | ⟨.v4 ip, some bits⟩ =>
      if bits ≤ 32 then quad (Bytes.bePut 4 ip.toNat) ++ slashByte :: digits bits
      else ascii "invalid Prefix"
  | _ => ascii "invalid Prefix"

/-- `netip.ParsePrefix`, for IPv4. -/
def readPrefix (s : GoString) : Except String IPPrefix :=
  match s.splitOn slashByte with
  | [addr, len] =>
      match readQuad addr, decimal len with
      | some ip, some bits =>
          if bits ≤ 32 then pure ⟨.v4 (BitVec.ofNat 32 (Bytes.beGet ip)), some bits⟩
          else throw "netip.ParsePrefix: prefix length out of range"
      | _, _ => throw "netip.ParsePrefix: bad address or length"
  | _ => throw "netip.ParsePrefix: no slash"

/-- A text library that reads IPv4 prefixes. -/
def prefixText : Text := { FirewallRule.plainText with parsePrefix := readPrefix }

/-- The file of the certificate of node `n` in the directory of peers. -/
def peerFile (n : UInt8) : GoString := n :: ascii ".crt"

/-- A kernel that grants every request.  It numbers a device that is asked for as `neth%d`, and has
some flags set on a new one. -/
def kernel : Kernel where
  openClone := pure ()
  socket := pure ()
  ioctl
    | .tunSetIff, r =>
        pure (if r.getName = ascii "neth%d" then
          (Ifreq.zero.setName (ascii "neth0")).setFlags r.getFlags else r)
    | .getFlags, r => pure (r.setFlags 0x1090)
    | _, r => pure r

/-- The machine of node `n`: its three files, the certificates of some peers, the kernel, and names
for the other machines. -/
def machine (n : UInt8) (peers : List UInt8) : Machine where
  readFile path :=
    if path = ascii "ca.crt" then pure (caCert.pem vault)
    else if path = ascii "node.crt" then pure ((nodeCert n [[n]]).pem vault)
    else if path = ascii "node.key" then
      pure (vault.pemEncode ⟨pemTypeCurve25519Key, (nodeKey n).privateKey⟩)
    else
      match peers.find? fun p => path = ascii "peers/" ++ peerFile p with
      | some p => pure ((nodeCert p [[p]]).pem vault)
      | none => throw "no such file or directory"
  nowCA := 0
  nowCert := 0
  readDir _ := pure (peers.map fun p => ⟨peerFile p, false⟩)
  join dir name := dir ++ ascii "/" ++ name
  listenPacket _ := pure ⟨[0, 0, 0, 0], 4242⟩
  kernel := kernel
  interfaces := pure []
  resolve name := if name = "two" then pure (nodeAddr 2) else throw "no such host"
  prefixString := printPrefix
  order := ["10.0.0.2"]

/-- The configuration of all nodes. -/
def config : Config where
  pki := ⟨ascii "ca.crt", ascii "node.crt", ascii "node.key", ascii "peers"⟩
  listen := ⟨"0.0.0.0", 4242⟩
  tun := ⟨ascii "neth%d", 1300⟩
  lighthouse := ⟨false, 60, []⟩
  staticHostMap key := if key = "10.0.0.2" then some ["two"] else none
  punchy := ⟨false, false⟩
  firewall := ⟨[⟨[], [], [], []⟩], [⟨[], [], [], []⟩]⟩
  logging := ⟨"info", "text"⟩

theorem readPrefix_printPrefix (ip : BitVec 32) {bits : Nat} (h : bits ≤ 32) :
    readPrefix (quad (Bytes.bePut 4 ip.toNat) ++ slashByte :: digits bits)
      = .ok ⟨.v4 ip, some bits⟩ := by
  have hlen : (Bytes.bePut 4 ip.toNat).length = 4 := Bytes.length_bePut 4 _
  obtain ⟨hdigits, -, -, hslash⟩ := digits_spec bits (by omega)
  have hsplit : (quad (Bytes.bePut 4 ip.toNat) ++ slashByte :: digits bits).splitOn slashByte
      = [quad (Bytes.bePut 4 ip.toNat), digits bits] := by
    rw [List.splitOn_append_cons_self_of_not_mem (not_mem_quad _ (.inr rfl)),
      List.splitOn_eq_singleton hslash]
  have hip : ip.toNat % 256 ^ 4 = ip.toNat := Nat.mod_eq_of_lt ip.isLt
  simp only [readPrefix, hsplit, readQuad_quad hlen, hdigits, if_pos h, Bytes.beGet_bePut, hip]
  rw [BitVec.ofNat_toNat, BitVec.setWidth_eq]
  rfl

theorem readsPrefixes (n : UInt8) (peers : List UInt8) :
    prefixText.ReadsPrefixes (machine n peers).prefixString := by
  intro p q h
  change readPrefix (printPrefix p) = .ok q at h
  have hinvalid : readPrefix (ascii "invalid Prefix") ≠ .ok q := by
    exact fun h => nomatch h
  unfold printPrefix at h
  split at h
  · split_ifs at h with hbits
    · exact (Except.ok.inj ((readPrefix_printPrefix _ hbits).symm.trans h)).symm
    · exact absurd h hinvalid
  · exact absurd h hinvalid

theorem exists_of_toOption {ε α β γ : Type} {x : Except ε α × β} {f : α → γ} {c : γ}
    (h : x.1.toOption.map f = some c) : ∃ a b, x = (.ok a, b) ∧ f a = c := by
  obtain ⟨a, ha, hc⟩ := Fallible.ok_of_toOption h
  exact ⟨a, x.2, Prod.ext ha rfl, hc⟩

/-- Node 1 starts. -/
theorem exists_startup1 : ∃ st s, newInterface vault (machine 1 [2]) prefixText config []
      = (.ok st, s) ∧ st.node.handshakeMgr.localCert = nodeCert 1 [[1]] :=
  exists_of_toOption (by decide +kernel)

end Symbolic

/-! ### What a start has done

A start that succeeded has been through all its steps; each of them is known by its result. -/

section Started

variable {M : Machine} {T : Text} {cfg : Config} {st : Startup P} {s s' : List Handle}

theorem newInterface_ok (h : newInterface P M T cfg s = (.ok st, s')) :
    ∃ fw lighthouse peers s₁ s₂, loadPKI P T M.toFiles cfg.pki = .ok st.pki ∧
      buildFirewall T cfg.firewall.inbound cfg.firewall.outbound = .ok fw ∧
      TUN.openDevice M.kernel T cfg.tun.dev (M.prefixString st.pki.nodeCert.vpnIP) cfg.tun.mtu s₁
        = (.ok st.device, s₂) ∧
      buildLightHouse P M cfg st.localAddr.port = .ok lighthouse ∧
      seedPeerCerts P M cfg = .ok peers ∧
      st.node = .new st.pki.nodeCert ⟨st.pki.curve25519Key, st.pki.nodeCert.x25519PublicKey⟩
        st.pki.caCerts fw lighthouse cfg.punchy.punchy peers := by
  simp only [newInterface, bind_ok, attempt_ok, acquire_ok, closing_ok, mapError_ok, pure_ok,
    Fallible.mapError_ok] at h
  obtain ⟨pki, _, ⟨hpki, rfl⟩, fw, _, ⟨hfw, rfl⟩, addr, _, ⟨-, rfl⟩, device, _, hdevice,
    lighthouse, _, ⟨hlh, rfl⟩, peers, _, ⟨hpeers, rfl⟩, rfl, rfl⟩ := h
  exact ⟨fw, lighthouse, peers, _, _, hpki, hfw, hdevice, hlh, hpeers, rfl⟩

theorem handshakeMgr_of_newInterface (h : newInterface P M T cfg s = (.ok st, s')) :
    st.node.handshakeMgr = .new st.pki.nodeCert
      ⟨st.pki.curve25519Key, st.pki.nodeCert.x25519PublicKey⟩ st.pki.caCerts := by
  obtain ⟨fw, lighthouse, peers, _, _, -, -, -, -, -, hnode⟩ := newInterface_ok h
  rw [hnode, Interface.new_handshakeMgr]

theorem sound_of_newInterface (h : newInterface P M T cfg s = (.ok st, s')) :
    st.pki.Sound P M.nowCA M.nowCert := by
  obtain ⟨_, _, _, _, _, hpki, -⟩ := newInterface_ok h
  exact loadPKI_sound hpki

/-! ### The peers it knows -/

/-- The files `loadPeerCerts` reads, in the order in which it reads them. -/
def peerFiles (M : Machine) (dir : GoString) : List GoString :=
  match M.readDir dir with
  | .error _ => []
  | .ok entries => (entries.filter fun e => !e.isDir && isCrt e.name).map fun e => M.join dir e.name

/-- The certificates of a directory: those of its files that can be read and parsed. -/
def directory (P : Platform) (M : Machine) (dir : GoString) : List Certificate :=
  (peerFiles M dir).filterMap fun path =>
    (M.readFile path).toOption.bind fun data => (Certificate.parse P data).toOption

theorem loadPeerCerts_ok {dir : GoString} {certs : List Certificate}
    (h : loadPeerCerts P M dir = .ok certs) : certs = directory P M dir := by
  unfold loadPeerCerts at h
  obtain ⟨entries, hentries, h⟩ := Fallible.bind_ok.mp h
  obtain ⟨data, hdata, h⟩ := Fallible.bind_ok.mp h
  obtain rfl := Fallible.pure_ok.mp h
  unfold directory peerFiles
  rw [hentries]
  dsimp only
  rw [List.filterMap_map]
  exact Fallible.filterMap_of_mapM _ hdata

theorem seedPeerCerts_ok {certs : List Certificate} (h : seedPeerCerts P M cfg = .ok certs) :
    certs = if cfg.pki.peersDir = [] then [] else directory P M cfg.pki.peersDir := by
  unfold seedPeerCerts at h
  by_cases hdir : cfg.pki.peersDir = []
  · rw [if_neg (by simpa using hdir), Fallible.pure_ok] at h
    rw [if_pos hdir, h]
  · rw [if_pos hdir, Fallible.mapError_ok] at h
    rw [if_neg hdir]
    exact loadPeerCerts_ok h

/-- Of several certificates for one address, the last one counts. -/
theorem foldl_update_eq (peers : List Certificate) (v : Addr) : ∀ certs : GoMap Addr Certificate,
    peers.foldl (fun (certs : GoMap Addr Certificate) c =>
      Function.update certs c.vpnIP.addr (some c)) certs v
      = (peers.reverse.find? fun c => c.vpnIP.addr = v).or (certs v) := by
  induction peers with
  | nil => intro certs; rfl
  | cons c peers ih =>
      intro certs
      rw [List.foldl_cons, ih, List.reverse_cons, List.find?_append, Option.or_assoc]
      congr 1
      by_cases hc : c.vpnIP.addr = v
      · simp [hc, List.find?]
      · simp [hc, Function.update_of_ne (Ne.symm hc), List.find?]

theorem peerCerts_of_newInterface (h : newInterface P M T cfg s = (.ok st, s')) (v : Addr) :
    st.node.peerCerts v
      = (if cfg.pki.peersDir = [] then [] else directory P M cfg.pki.peersDir).reverse.find?
          fun c => c.vpnIP.addr = v := by
  obtain ⟨fw, lighthouse, peers, _, _, -, -, -, -, hpeers, hnode⟩ := newInterface_ok h
  rw [hnode, ← seedPeerCerts_ok hpeers]
  unfold Interface.new
  rw [Interface.foldl_addPeerCert]
  exact (foldl_update_eq peers v _).trans (Option.or_none ..)

/-- **A node that starts is an honest one.**  Its private key belongs to its certificate, and the
certificate parses from its own bytes and passes, against the one CA the node trusts, the check its
peers will make.  It knows the certificates in its directory of peers, each under the address in
it, the last file counting, and no others. -/
theorem started_honest (M : Machine) (T : Text) (cfg : Config) (s s' : List Handle)
    (st : Startup P) (h : newInterface P M T cfg s = (.ok st, s')) :
    Honest st.node.handshakeMgr ∧
      (∃ ca, st.node.handshakeMgr.caPool = [ca] ∧ ca.verifyCA P M.nowCA = .ok () ∧
        st.node.handshakeMgr.localCert.verify P [ca] M.nowCert = .ok ()) ∧
      ∀ v, st.node.peerCerts v
        = (if cfg.pki.peersDir = [] then [] else directory P M cfg.pki.peersDir).reverse.find?
            fun c => c.vpnIP.addr = v := by
  have hmgr := handshakeMgr_of_newInterface h
  have hsound := sound_of_newInterface h
  refine ⟨hsound.honest (by rw [hmgr]; rfl) (by rw [hmgr]; rfl), ?_, peerCerts_of_newInterface h⟩
  obtain ⟨ca, hcas, hca⟩ := hsound.ca
  have hverified := hsound.verified
  rw [hcas] at hverified
  refine ⟨ca, ?_, hca, ?_⟩
  · rw [hmgr]
    exact hcas
  · rw [hmgr]
    exact hverified

open Symbolic in
theorem started_honest_node1 :
    ∃ st s, newInterface vault (machine 1 [2]) prefixText config [] = (.ok st, s) ∧
      Honest st.node.handshakeMgr ∧ st.node.peerCerts (nodeIP 2) = some (nodeCert 2 [[2]]) := by
  obtain ⟨st, s, h, -⟩ := exists_startup1
  obtain ⟨hhonest, -, hpeers⟩ := started_honest _ _ _ _ _ st h
  refine ⟨st, s, h, hhonest, ?_⟩
  rw [hpeers]
  decide +kernel

/-- **The kernel routes the network of the certificate into the device.**  A node starts only with
an IPv4 certificate.  The device has the name the kernel answered with when it was created, whatever
name it was asked for under.  Under that name the kernel has given it the address of the certificate
and a netmask under which an address is on its link exactly when it is in the network of the
certificate, and was asked for its flags.  What was set then is the kernel's own answer, under the
name in it, with the flags as they were and up. -/
theorem started_on_link (M : Machine) (T : Text) (cfg : Config) (s s' : List Handle)
    (st : Startup P) (hT : T.ReadsPrefixes M.prefixString)
    (h : newInterface P M T cfg s = (.ok st, s')) :
    ∃ created addr mask asked flags : Ifreq,
      (M.kernel.ioctl .tunSetIff ((Ifreq.zero.setName cfg.tun.dev).setFlags iffTun) = .ok created ∧
        st.device.name = created.getName) ∧
      TUN.Granted M.kernel .setAddr addr ∧ TUN.Granted M.kernel .setNetmask mask ∧
      (addr.getName = st.device.name ∧ mask.getName = st.device.name ∧
        asked.getName = st.device.name) ∧
      (addr.family = Ifreq.afINET ∧ mask.family = Ifreq.afINET) ∧
      st.node.handshakeMgr.localCert.vpnIP.addr = .v4 addr.sockaddr ∧
      (∀ a, a &&& mask.sockaddr = addr.sockaddr &&& mask.sockaddr ↔
        st.node.handshakeMgr.localCert.vpnIP.contains (.v4 a) = true) ∧
      M.kernel.ioctl .getFlags asked = .ok flags ∧
      TUN.Granted M.kernel .setFlags (flags.setFlags (flags.getFlags ||| iffUp)) ∧
      (flags.setFlags (flags.getFlags ||| iffUp)).getName = flags.getName ∧
      (flags.setFlags (flags.getFlags ||| iffUp)).getFlags = flags.getFlags ||| iffUp := by
  obtain ⟨_, _, _, _, _, -, -, hdevice, -⟩ := newInterface_ok h
  obtain ⟨ip, bits, hparse, hconf⟩ := TUN.openDevice_ok hdevice
  have hcert : st.node.handshakeMgr.localCert.vpnIP = ⟨.v4 ip, some bits⟩ := by
    rw [handshakeMgr_of_newInterface h]
    exact (hT _ _ hparse).symm
  obtain ⟨created, hcreated⟩ := hconf.created
  obtain ⟨flags, hget, hset⟩ := hconf.up
  refine ⟨created, _, _, _, flags, hcreated, hconf.address, hconf.netmask,
    ⟨?_, ?_, hconf.name⟩, ?_, ?_, ?_, hget, hset, ?_, ?_⟩
  · rw [Ifreq.getName_setSockaddrIn]
    exact hconf.name
  · rw [Ifreq.getName_setSockaddrIn]
    exact hconf.name
  · exact ⟨Ifreq.family_setSockaddrIn _ _, Ifreq.family_setSockaddrIn _ _⟩
  · rw [hcert, Ifreq.sockaddr_setSockaddrIn]
  · intro a
    rw [hcert, Ifreq.sockaddr_setSockaddrIn, Ifreq.sockaddr_setSockaddrIn]
    exact and_prefixMask4_iff ip a bits
  · exact Ifreq.getName_setFlags _ _
  · exact Ifreq.getFlags_setFlags _ _

open Symbolic in
/-- The device asked for as `neth%d` is `neth0`.  Under the netmask of 10.0.0.1/24, 10.0.0.77 is on
its link and 10.0.1.77 is not. -/
theorem started_on_link_node1 :
    ∃ st s, newInterface vault (machine 1 [2]) prefixText config [] = (.ok st, s) ∧
      st.device.name = ascii "neth0" ∧
      ∃ addr mask : Ifreq, addr.getName = ascii "neth0" ∧ addr.sockaddr = 0x0a000001#32 ∧
        0x0a00004d#32 &&& mask.sockaddr = addr.sockaddr &&& mask.sockaddr ∧
        0x0a00014d#32 &&& mask.sockaddr ≠ addr.sockaddr &&& mask.sockaddr := by
  obtain ⟨st, s, h, hcert⟩ := exists_startup1
  obtain ⟨created, addr, mask, -, -, ⟨hcreated, hname⟩, -, -, ⟨haddr, -⟩, -, hip, hlink, -⟩ :=
    started_on_link _ _ _ _ _ st (readsPrefixes 1 [2]) h
  have hneth0 : created.getName = ascii "neth0" := by
    rw [← Except.ok.inj hcreated]
    decide +kernel
  rw [hcert] at hip hlink
  refine ⟨st, s, h, hname.trans hneth0, addr, mask, haddr.trans (hname.trans hneth0),
    (Addr.v4.inj hip).symm, (hlink _).mpr ?_, mt (hlink _).mp ?_⟩
  · decide
  · decide

end Started

end Neth
