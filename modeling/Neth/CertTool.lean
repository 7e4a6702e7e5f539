/-
The certificate tool, `cmd/neth-cert`.

`ca` and `sign` each write two files, the certificate first.  A command that fails may
have written one of them, so each returns the disk as it leaves it.  Flags are as `flag`
has parsed them.

Two paths may lead to one file.  A disk therefore says which file a path leads to, and a
write goes to the file and not to the path.  Nothing in the tool keeps `sign` from
writing over the files of the CA it signs with.  What follows for the CA, and what a
node finds when it loads what the tool wrote, is in `Proofs/CertTool.lean`.
-/
import Mathlib.Logic.Function.Basic
import Neth.Keys

namespace Neth

/-- A file: its permissions and what is in it. -/
structure File where
  mode : Nat
  data : Bytes

/-- What the tool uses of the file system. -/
structure Disk where
  /-- The file a path leads to, or would lead to if it were there, under one of its names: `ca.crt`,
  `./ca.crt` and a link to it lead to one file. -/
  file : GoString → GoString
  files : GoMap GoString File
  /-- Why a path cannot be opened for reading although there is a file. -/
  readError : GoString → Option String
  /-- Why a path cannot be opened for writing. -/
  writeError : GoString → Option String

namespace Disk

/-- `os.ReadFile`. -/
def readFile (d : Disk) (path : GoString) : Except String Bytes :=
  match d.files (d.file path), d.readError path with
  | none, _ => throw ("open " ++ plain path ++ ": no such file or directory")
  | some _, some e => throw e
  | some f, none => pure f.data

/-- `writeFile`, on `os.WriteFile`.  A file that exists keeps its permissions; the umask, which
takes some from a new one, is left out. -/
def writeFile (d : Disk) (path : GoString) (data : Bytes) (mode : Nat) :
    Disk × Except String Unit :=
  match d.writeError path with
  | some e => (d, throw ("write " ++ plain path ++ ": " ++ e))
  | none =>
      let mode := ((d.files (d.file path)).map (·.mode)).getD mode
      ({ d with files := Function.update d.files (d.file path) (some ⟨mode, data⟩) }, pure ())

end Disk

namespace CertTool

variable (P : Platform) {X : Issuer} (K : KeyTools X) (T : Text)
  (join : GoString → GoString → GoString)

/-- Where the certificate goes. -/
def crtPath (outDir name : GoString) : GoString := join outDir (name ++ ascii ".crt")

/-- Where the private key goes. -/
def keyPath (outDir name : GoString) : GoString := join outDir (name ++ ascii ".key")

/-- How both commands end: the certificate is written, the key encoded and written. -/
def writePair (d : Disk) (outDir name : GoString) (crt : Bytes) (key : Except String Bytes) :
    Disk × Except String Unit :=
  match d.writeFile (crtPath join outDir name) crt 0o644 with
  | (d, .error e) => (d, throw e)
  | (d, .ok ()) =>
      match key with
      | .error e => (d, throw e)
      | .ok pem => d.writeFile (keyPath join outDir name) pem 0o600

/-- The flags of `neth-cert ca`. -/
structure CAFlags where
  name : GoString
  duration : Time
  outDir : GoString

/-- `cmdCA`. -/
def cmdCA (env : CAEnv X) (flags : CAFlags) (d : Disk) : Disk × Except String Unit :=
  if flags.name = [] then (d, throw "--name is required")
  else
    match (Certificate.generateCA P K env flags.name flags.duration).mapError
      ("generate CA: " ++ ·) with
    | .error e => (d, throw e)
    | .ok (ca, caKey) =>
        writePair join d flags.outDir flags.name (ca.pem P) (marshalEd25519PrivateKey P K caKey)

/-- The flags of `neth-cert sign`. -/
structure SignFlags where
  caCrt : GoString
  caKey : GoString
  name : GoString
  ip : GoString
  groups : GoString
  duration : Time
  outDir : GoString

/-- What one call of `cmdSign` is handed by the machine. -/
structure SignToolEnv where
  sign : SignEnv
  random : Random32

/-- The CA certificate `cmdSign` is pointed at. -/
def loadCA (d : Disk) (path : GoString) : Except String Certificate := do
  let caPEM ← (d.readFile path).mapError ("read CA certificate: " ++ ·)
  let ca ← (Certificate.parse P caPEM).mapError ("parse CA certificate: " ++ ·)
  if !ca.isCA then throw (plain path ++ " is not a CA certificate") else pure ca

/-- The CA key `cmdSign` is pointed at. -/
def loadCAKey (d : Disk) (path : GoString) : Except String X.Signer := do
  let caKeyPEM ← (d.readFile path).mapError ("read CA key: " ++ ·)
  (parseEd25519PrivateKey P K caKeyPEM).mapError ("parse CA key: " ++ ·)

/-- The check that the key belongs to the certificate. -/
def checkCAKey (ca : Certificate) (caKey : X.Signer) : Except String Unit :=
  match K.publicKey ca.x509 with
  | none => throw "interface conversion: interface is not ed25519.PublicKey"  -- a panic
  | some certPub =>
      if certPub ≠ K.publicOf caKey then throw "CA key does not match CA certificate" else pure ()

/-- `cmdSign` up to its files: the certificate and the private key. -/
def issueNode (env : SignToolEnv) (flags : SignFlags) (d : Disk) :
    Except String (Certificate × Bytes) :=
  if flags.caCrt = [] ∨ flags.caKey = [] ∨ flags.name = [] ∨ flags.ip = [] then
    throw "--ca-crt, --ca-key, --name, and --ip are required"
  else do
    let vpnIP ← (T.parsePrefix flags.ip).mapError
      (("invalid --ip " ++ T.quote flags.ip ++ ": ") ++ ·)
    let ca ← loadCA P d flags.caCrt
    let caKey ← loadCAKey P K d flags.caKey
    checkCAKey K ca caKey
    let (nodePriv, nodePub) ← (generateX25519KeyPair P env.random).mapError
      ("generate node key: " ++ ·)
    let node ← (Certificate.sign P X env.sign ca flags.name vpnIP (groupList flags.groups) nodePub
      flags.duration caKey).mapError ("sign certificate: " ++ ·)
    pure (node, nodePriv)

/-- `cmdSign`. -/
def cmdSign (env : SignToolEnv) (flags : SignFlags) (d : Disk) : Disk × Except String Unit :=
  match issueNode P K T env flags d with
  | .error e => (d, throw e)
  | .ok (node, nodePriv) =>
      writePair join d flags.outDir flags.name (node.pem P) (marshalX25519PrivateKey P nodePriv)

/-- `cmdVerify`. -/
def cmdVerify (now : Time) (caCrt cert : GoString) (d : Disk) : Except String Unit :=
  if caCrt = [] ∨ cert = [] then throw "--ca-crt and --cert are required"
  else do
    let caPEM ← (d.readFile caCrt).mapError ("read CA certificate: " ++ ·)
    let ca ← (Certificate.parse P caPEM).mapError ("parse CA certificate: " ++ ·)
    let nodePEM ← (d.readFile cert).mapError ("read certificate: " ++ ·)
    let node ← (Certificate.parse P nodePEM).mapError ("parse certificate: " ++ ·)
    (node.verify P [ca] now).mapError ("verification failed: " ++ ·)

end CertTool

end Neth
