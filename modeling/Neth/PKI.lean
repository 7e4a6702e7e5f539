/-
The identity of a node, `pki.go`.

A node is given three files.  It starts only if the CA certificate is one and verifies
against itself, the node certificate verifies against it, and the private key is the one
the node certificate has the public half of.

The clock is read twice, once for each certificate, and each reading is an argument, so
that time may pass in between.  What a loaded identity is good for is in
`Proofs/PKI.lean`, and that the files the certificate tool writes make one is in
`Proofs/CertTool.lean`.
-/
import Neth.Config
import Neth.Keys

namespace Neth

/-- `PKI`: the identity of the node and the CA it trusts, as they were loaded. -/
structure PKI where
  caCerts : List Certificate
  nodeCert : Certificate
  curve25519Key : Bytes

/-- The files of the machine, and its clock at each of the two checks. -/
structure Files where
  readFile : GoString → Except String Bytes
  nowCA : Time
  nowCert : Time

variable (P : Platform) (T : Text) (F : Files)

/-- `os.ReadFile`, with the message of its caller; `what` names the file. -/
def readNamed (what : String) (path : GoString) : Except String Bytes :=
  (F.readFile path).mapError (("pki: read " ++ what ++ " " ++ T.quote path ++ ": ") ++ ·)

/-- `loadAndParseCA`. -/
def loadAndParseCA (path : GoString) : Except String Certificate := do
  let caBytes ← readNamed T F "CA" path
  let ca ← (Certificate.parse P caBytes).mapError ("pki: parse CA: " ++ ·)
  (ca.verifyCA P F.nowCA).mapError ("pki: " ++ ·)
  pure ca

/-- `loadAndParseNodeCert`. -/
def loadAndParseNodeCert (path : GoString) (ca : Certificate) : Except String Certificate := do
  let certBytes ← readNamed T F "cert" path
  let nodeCert ← (Certificate.parse P certBytes).mapError ("pki: parse cert: " ++ ·)
  (nodeCert.verify P [ca] F.nowCert).mapError ("pki: " ++ ·)
  pure nodeCert

/-- `loadAndVerifyKey`. -/
def loadAndVerifyKey (path : GoString) (nodeCert : Certificate) : Except String Bytes := do
  let keyBytes ← readNamed T F "key" path
  let privKey ← (parseX25519PrivateKey P keyBytes).mapError ("pki: parse key: " ++ ·)
  let derivedPub ← (x25519 P privKey).mapError ("pki: derive public key: " ++ ·)
  if derivedPub ≠ nodeCert.x25519PublicKey then
    throw "pki: private key does not match the public key in the certificate"
  pure privKey

/-- `LoadPKI`. -/
def loadPKI (cfg : PKIConfig) : Except String PKI := do
  let ca ← loadAndParseCA P T F cfg.ca
  let nodeCert ← loadAndParseNodeCert P T F cfg.cert ca
  let privKey ← loadAndVerifyKey P T F cfg.key nodeCert
  pure ⟨[ca], nodeCert, privKey⟩

end Neth
