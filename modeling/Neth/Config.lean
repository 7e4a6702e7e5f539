/-
The configuration, `config/config.go`.

Absent fields are zero values, as `yaml.Unmarshal` leaves them.  `Load` fills in
defaults and then checks what has none.

A default is put in wherever the field is zero, so a field that was left out cannot be
told from one that was written as zero.  The three paths and the port have no default,
and for them that is the error.  `Validate` goes through all its checks before it
returns, so that one start of the program reports everything that is wrong.  The YAML
parser is a parameter of `load`.
-/
import Neth.Rule

namespace Neth

/-- `PKIConfig`: paths of files and of the directory of peer certificates. -/
structure PKIConfig where
  ca : GoString
  cert : GoString
  key : GoString
  peersDir : GoString

/-- Where the UDP socket listens. -/
structure ListenConfig where
  host : String
  port : Int

/-- The TUN device to ask the kernel for. -/
structure TUNConfig where
  dev : GoString
  mtu : Int

/-- Whether the node is a lighthouse, and which lighthouses it reports to. -/
structure LighthouseConfig where
  amLighthouse : Bool
  interval : Int
  hosts : List String

/-- Hole punching. -/
structure PunchyConfig where
  punch : Bool
  respond : Bool

/-- The rules as they are written, one list for each direction. -/
structure FirewallConfig where
  inbound : List FirewallRule
  outbound : List FirewallRule

/-- What the logger is set up with. -/
structure LoggingConfig where
  level : String
  format : String

/-- `Config`, the configuration file of a node. -/
structure Config where
  pki : PKIConfig
  listen : ListenConfig
  tun : TUNConfig
  lighthouse : LighthouseConfig
  staticHostMap : GoMap String (List String)
  punchy : PunchyConfig
  firewall : FirewallConfig
  logging : LoggingConfig

namespace Config

/-- `if field == zero { field = value }`. -/
def orDefault {α : Type} [DecidableEq α] (zero value field : α) : α :=
  if field = zero then value else field

/-- `setDefaults`. -/
def setDefaults (c : Config) : Config :=
  { c with
    listen := { c.listen with host := orDefault "" "0.0.0.0" c.listen.host }
    tun := ⟨orDefault [] (ascii "neth0") c.tun.dev, orDefault 0 1300 c.tun.mtu⟩
    lighthouse := { c.lighthouse with interval := orDefault 0 60 c.lighthouse.interval }
    logging := ⟨orDefault "" "info" c.logging.level, orDefault "" "text" c.logging.format⟩ }

/-- One of the checks for a path. -/
def required (field : String) (value : GoString) : List String :=
  if value = [] then [field ++ " is required"] else []

/-- The errors `Validate` collects. -/
def problems (c : Config) : List String :=
  required "pki.ca" c.pki.ca ++ required "pki.cert" c.pki.cert ++ required "pki.key" c.pki.key ++
    if c.listen.port < 1 ∨ c.listen.port > 65535 then
      ["listen.port " ++ toString c.listen.port ++ " is out of range [1, 65535]"]
    else []

/-- `Validate`, with `errors.Join`: the messages on lines of their own, or nil if there are none. -/
def validate (c : Config) : Except String Unit :=
  if c.problems = [] then pure () else throw ("\n".intercalate c.problems)

/-- `Load`. -/
def load (T : Text) (readFile : GoString → Except String Bytes)
    (unmarshalYAML : Bytes → Except String Config) (path : GoString) : Except String Config := do
  let data ← (readFile path).mapError (("config: read " ++ T.quote path ++ ": ") ++ ·)
  let cfg ← (unmarshalYAML data).mapError (("config: parse " ++ T.quote path ++ ": ") ++ ·)
  let cfg := cfg.setDefaults
  cfg.validate
  pure cfg

end Config

end Neth
