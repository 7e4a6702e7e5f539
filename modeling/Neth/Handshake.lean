/-
Handshake messages, `handshake/handshake.go` and `handshake/noise.go`.

The outer message carries the sender's certificate in the clear, next to the Noise
message, under a MAC keyed with the certificate's own fingerprint.  The pre-shared key
is the XOR of the two fingerprints, so both ends compute the same one.

Neither of them is a secret: whoever has seen the certificates can compute the MAC and
the pre-shared key.  What they are good for is in `Proofs/MessageMAC.lean` and, for a
whole handshake, in `Proofs/Responder.lean`.  The two builders differ in one index and
one word of an error, and share their body.
-/
import Neth.Cert

namespace Neth

variable (P : Platform)

/-- `DerivePreSharedKey`. -/
def derivePreSharedKey (localCert remoteCert : Certificate) : Bytes :=
  List.zipWith (· ^^^ ·) (localCert.fingerprint P) (remoteCert.fingerprint P)

/-- The MAC over details and Noise message that the two builders and `verifyHMAC` compute. -/
def messageMAC (cert : Certificate) (details noisePayload : Bytes) : Bytes :=
  P.hmacSHA256 (cert.fingerprint P) (details ++ noisePayload)

/-- The body the two builders share; `what` names the details in the error. -/
def buildMessage (what : String) (localCert : Certificate) (noisePayload : Bytes)
    (initiatorIndex responderIndex : UInt32) (now : Time) : Except String HandshakeMessage := do
  let details : HandshakeDetails :=
    ⟨localCert.pem P, initiatorIndex, responderIndex, UInt64.ofNat now⟩
  let detailsBytes ← (P.marshalDetails details).mapError
    ("handshake: marshal " ++ what ++ ": " ++ ·)
  pure ⟨detailsBytes, noisePayload, messageMAC P localCert detailsBytes noisePayload⟩

/-- `BuildInitiatorMessage`. -/
def buildInitiatorMessage (localCert : Certificate) (noisePayload : Bytes) (localIndex : UInt32)
    (now : Time) : Except String HandshakeMessage :=
  buildMessage P "details" localCert noisePayload localIndex 0 now

/-- `BuildResponderMessage`. -/
def buildResponderMessage (localCert : Certificate) (noisePayload : Bytes)
    (initiatorIndex responderIndex : UInt32) (now : Time) : Except String HandshakeMessage :=
  buildMessage P "responder details" localCert noisePayload initiatorIndex responderIndex now

/-- `ParseHandshakeMessage`. -/
def parseHandshakeMessage (raw : Bytes) : Except String HandshakeMessage :=
  (P.unmarshalMessage raw).mapError ("handshake: parse message: " ++ ·)

/-- `ParseDetails`. -/
def parseDetails (msg : HandshakeMessage) : Except String HandshakeDetails :=
  (P.unmarshalDetails msg.details).mapError ("handshake: parse details: " ++ ·)

/-- `VerifyHMAC`. -/
def verifyHMAC (msg : HandshakeMessage) (senderCert : Certificate) : Except String Unit :=
  if messageMAC P senderCert msg.details msg.noisePayload = msg.hmac then pure ()
  else throw "handshake: HMAC verification failed"

/-- `NewInitiatorState`. -/
def newInitiatorState (localStatic : DHKey) (remoteStatic psk : Bytes) :
    Except String P.HandshakeState :=
  (P.newHandshakeState ⟨true, localStatic, remoteStatic, psk, 0⟩).mapError
    ("noise: new initiator state: " ++ ·)

/-- `NewResponderState`. -/
def newResponderState (localStatic : DHKey) (psk : Bytes) : Except String P.HandshakeState :=
  (P.newHandshakeState ⟨false, localStatic, [], psk, 0⟩).mapError
    ("noise: new responder state: " ++ ·)

end Neth
