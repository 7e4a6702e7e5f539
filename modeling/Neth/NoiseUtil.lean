/-
Packet encryption, `noiseutil/aead.go`.

The nonce is the packet counter, and the 16 header bytes are the additional data, so the
counter a receiver reads from the header is bound to the ciphertext.

A `cipher.AEAD` is its key and nothing else here, because AES-GCM keeps no state.  Two
sessions with one key are therefore one cipher, and that no nonce is used twice under a
key cannot be shown session by session; it is in `Proofs/Nonces.lean`.  The two
functions of AES-GCM itself are in `Platform.lean`.
-/
import Neth.Platform

namespace Neth

variable (P : Platform)

/-- A `cipher.AEAD` backed by AES-256-GCM: it is its key. -/
structure AEAD where
  key : Vector UInt8 32
  deriving DecidableEq

/-- `CipherFromState`; `aes.NewCipher` takes keys of 16, 24 or 32 bytes. -/
def cipherFromState (cs : CipherState) : Except String AEAD :=
  if cs.unsafeKey.toList.length ∈ [16, 24, 32] then pure ⟨cs.unsafeKey⟩
  else throw ("noiseutil: AES key: crypto/aes: invalid key size "
    ++ toString cs.unsafeKey.toList.length)

/-- `CounterNonce`: the counter in little-endian, then four zero bytes. -/
def counterNonce (counter : UInt64) : Bytes :=
  Bytes.lePut 8 counter.toNat ++ List.replicate 4 0

/-- `Encrypt`. -/
def encrypt (aead : AEAD) (counter : UInt64) (header plaintext : Bytes) : Bytes :=
  P.gcmSeal aead.key (counterNonce counter) plaintext header

/-- `Decrypt`. -/
def decrypt (aead : AEAD) (counter : UInt64) (header ciphertext : Bytes) : Except String Bytes :=
  (P.gcmOpen aead.key (counterNonce counter) ciphertext header).mapError
    ("noiseutil: decrypt: " ++ ·)

end Neth
