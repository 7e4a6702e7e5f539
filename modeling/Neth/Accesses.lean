/-
The data path with every access checked.

These are functions of `ReplayWindow.lean`, `Header.lean`, `IPv4.lean` and
`Interface.lean` once more, with each index, slice and shift of the Go code written as
an operation that can fail.  The two models have the same shape; what differs is that
a byte outside a packet is a fault here and a zero there.  `Proofs/Accesses.lean` shows
that no fault is ever reached.

Calls that touch neither a packet nor a window are taken from the total model.
-/
import Neth.Interface
import Neth.Lib.Checked

namespace Neth

variable {P : Platform}

namespace Accesses

open Checked

/-! ### The replay window, `hostmap.go`

Every access to the bitmap goes through `read` or `write`, which fault outside the array, and every
shift amount through `amount`, which faults at the width of the word. -/

/-- The body of the whole-word loop. -/
def shiftWord (wordShift i : Nat) : Program Word 64 Unit := do
  let src : Int := (i : Int) - wordShift
  if src < 0 then
    write i 0
  else
    let v ← read src
    write i v

/-- The loop that moves whole words, from the top down. -/
def shiftWords (wordShift : Nat) : Program Word 64 Unit := countdown (shiftWord wordShift) 0 64

/-- The body of the carry loop. -/
def shiftBit (bitShift i : Nat) : Program Word 64 Unit := do
  let high ← read i
  let left ← amount 64 bitShift
  let low ← read ((i : Int) - 1)
  let right ← amount 64 (64 - bitShift)
  write i ((high <<< left) ||| (low >>> right))

/-- The carry loop, down to the word above the lowest. -/
def shiftBits (bitShift : Nat) : Program Word 64 Unit := countdown (shiftBit bitShift) 1 63

/-- `shiftWindow`. -/
def shiftWindow (n : UInt64) : Program Word 64 Unit := do
  let wordShift := n.toNat / 64
  let bitShift := n.toNat % 64
  if wordShift ≥ 64 then
    replace zeroWindow
  else
    shiftWords wordShift
    if bitShift > 0 then
      shiftBits bitShift
      let x ← read 0
      let left ← amount 64 bitShift
      write 0 (x <<< left)

/-- `CheckReplay`: the new `windowEnd` and the answer. -/
def checkReplay (windowEnd counter : UInt64) : Program Word 64 (UInt64 × Bool) := do
  if counter > windowEnd then
    let diff := counter - windowEnd
    if diff.toNat ≥ replayWindowSize then
      replace zeroWindow
    else
      shiftWindow diff
    let x ← read 0
    write 0 (x ||| 1)
    pure (counter, false)
  else if (windowEnd - counter).toNat ≥ replayWindowSize then
    pure (windowEnd, true)
  else
    let pos := windowEnd - counter
    let word := pos.toNat / 64
    let bit := pos.toNat % 64
    let x ← read word
    let left ← amount 64 bit
    if x &&& ((1 : Word) <<< left) ≠ 0 then
      pure (windowEnd, true)
    else
      let x ← read word
      let left ← amount 64 bit
      write word (x ||| ((1 : Word) <<< left))
      pure (windowEnd, false)

/-- `CheckReplay` on the session object. -/
def checkReplayHost (h : HostInfo) (counter : UInt64) : Except Fault (HostInfo × Bool) := do
  let ((windowEnd, replay), w) ← checkReplay h.windowEnd counter ⟨h.window, []⟩
  pure ({ h with toReplayWindow := ⟨windowEnd, w.cells⟩ }, replay)

/-! ### The header, `header/header.go` -/

/-- `binary.BigEndian.Uint16`, `Uint32` and `Uint64`: the last of the `k` bytes is looked at
first. -/
def uint (k : Nat) (b : Bytes) : Except Fault Nat := do
  let _ ← index b (k - 1)
  pure (Bytes.beGet (b.take k))

/-- `binary.BigEndian.PutUint32` and `PutUint64` into `buf[lo:hi]`. -/
def putUint (k : Nat) (buf : Bytes) (lo hi n : Nat) : Except Fault Bytes := do
  let b ← slice buf lo hi
  let _ ← index b (k - 1)
  pure (Bytes.put buf lo (Bytes.bePut k n))

/-- `Encode`. -/
def encode (h : Header) (buf : Bytes) : Except Fault (Bytes × Except String Unit) := do
  if buf.length < headerLen then
    pure (buf, .error ("header: buffer too small: need " ++ toString headerLen ++ " bytes, got "
      ++ toString buf.length))
  else
    let left ← amount 8 4
    let buf ← assign buf 0 ((h.version <<< UInt8.ofNat left) ||| (h.type &&& 0x0F))
    let buf ← assign buf 1 h.subType
    let buf ← assign buf 2 0
    let buf ← assign buf 3 0
    let buf ← putUint 4 buf 4 8 h.remoteIndex.toNat
    let buf ← putUint 8 buf 8 16 h.messageCounter.toNat
    pure (buf, .ok ())

/-- `Bytes`. -/
def bytes (h : Header) : Except Fault Bytes := do
  let (buf, _) ← encode h (List.replicate headerLen 0)
  pure buf

/-- `Parse`. -/
def parse (buf : Bytes) : Except Fault (Except String Header) := do
  if buf.length < headerLen then
    pure (.error ("header: too short: need " ++ toString headerLen ++ " bytes, got "
      ++ toString buf.length))
  else
    let b ← index buf 0
    let right ← amount 8 4
    let v := b >>> UInt8.ofNat right
    if v ≠ headerVersion then
      pure (.error ("header: unsupported version " ++ toString v ++ " (want "
        ++ toString headerVersion ++ ")"))
    else
      let b ← index buf 0
      let subType ← index buf 1
      let remoteIndex ← uint 4 (← slice buf 4 8)
      let messageCounter ← uint 8 (← slice buf 8 16)
      pure (.ok { version := v
                  type := b &&& 0x0F
                  subType
                  remoteIndex := UInt32.ofNat remoteIndex
                  messageCounter := UInt64.ofNat messageCounter })

/-! ### The field extractors, `interface.go` -/

/-- The check with which both address functions begin. -/
def notIPv4 (pkt : Bytes) : Except Fault Bool := do
  if pkt.length < 20 then
    pure true
  else
    let b ← index pkt 0
    let right ← amount 8 4
    pure (b >>> UInt8.ofNat right != 4)

/-- The four bytes of an address. -/
def addrAt (pkt : Bytes) (lo : Nat) : Except Fault Addr := do
  let a ← index pkt lo
  let b ← index pkt (lo + 1)
  let c ← index pkt (lo + 2)
  let d ← index pkt (lo + 3)
  pure (.from4 a b c d)

/-- `dstIPFromIPv4`, index by index. -/
def dstIPFromIPv4 (pkt : Bytes) : Except Fault (Option Addr) := do
  if ← notIPv4 pkt then pure none else return some (← addrAt pkt 16)

/-- `srcIPFromIPv4`, index by index. -/
def srcIPFromIPv4 (pkt : Bytes) : Except Fault (Option Addr) := do
  if ← notIPv4 pkt then pure none else return some (← addrAt pkt 12)

/-- `protoFromIPv4`, index by index. -/
def protoFromIPv4 (pkt : Bytes) : Except Fault Proto :=
  if pkt.length < 10 then pure protoAny else index pkt 9

/-- `dstPortFromIPv4`, index by index. -/
def dstPortFromIPv4 (pkt : Bytes) : Except Fault UInt16 := do
  if pkt.length < 20 then
    pure 0
  else
    let b ← index pkt 0
    let ihl := (b &&& 0x0f).toNat * 4
    let p ← index pkt 9
    if (p = protoTCP ∨ p = protoUDP) ∧ pkt.length ≥ ihl + 4 then
      let ports ← sliceFrom pkt (ihl + 2)
      return UInt16.ofNat (← uint 2 ports)
    else
      pure 0

/-! ### The two directions, `interface.go`

The two packet paths once more, with the faults of what they call passed on.  Whatever has no index
in it is called as it is. -/

/-- `sendToRemote`. -/
def sendToRemote (I : Interface P) (env : Env P) (r : Ref) (plaintext : Bytes) :
    Except Fault (Interface P × List Effect) := do
  match I.hostmap.deref r with
  | none => pure (I, [])
  | some (_, host) =>
      let counter := host.counter + 1
      let hdrBytes ← bytes (host.dataHeader counter)
      let ct := encrypt P host.sendCipher counter hdrBytes plaintext
      let wire : Bytes := List.replicate (headerLen + ct.length) 0
      let _ ← sliceFrom wire headerLen
      pure ({ I with hostmap := I.hostmap.assign r { host with counter } },
        [.encrypted r hdrBytes plaintext ct, env.send (hdrBytes ++ ct) host.remote])

/-- `QueuePacket`. -/
def queuePacket (m : HandshakeManager P) (remoteVpnIP : Addr) (pkt : Bytes) :
    Except Fault (HandshakeManager P) := do
  match m.pending remoteVpnIP with
  | none => pure m
  | some r =>
      match m.handshakes[r]? with
      | none => pure m
      | some ph =>
          let kept ← if ph.pendingPackets.length ≥ maxPendingPackets
            then sliceFrom ph.pendingPackets 1
            else pure ph.pendingPackets
          pure { m with
            handshakes := m.handshakes.set r { ph with pendingPackets := kept ++ [pkt] } }

/-- `consumeInsidePacket` after the firewall has admitted the packet. -/
def forwardInside (I : Interface P) (env : Env P) (dstIP : Addr) (pkt : Bytes) :
    Except Fault (Interface P × List Effect) := do
  match I.hostmap.getByVpnIP dstIP with
  | some (r, _) => sendToRemote I env r pkt
  | none =>
      match I.peerCerts dstIP with
      | none => return ({ I with handshakeMgr := ← queuePacket I.handshakeMgr dstIP pkt }, [])
      | some remoteCert =>
          let remoteAddrs := I.lighthouse.getAddrs dstIP
          if remoteAddrs.length = 0 then
            return ({ I with handshakeMgr := ← queuePacket I.handshakeMgr dstIP pkt },
              I.lighthouse.queryPeer env dstIP)
          else
            let addr ← index remoteAddrs 0
            match I.handshakeMgr.startHandshake env dstIP addr remoteCert with
            | (m, effs, .error _) => pure ({ I with handshakeMgr := m }, effs)
            | (m, effs, .ok ()) =>
                return ({ I with handshakeMgr := ← queuePacket m dstIP pkt }, effs)

/-- `consumeInsidePacket`. -/
def consumeInsidePacket (I : Interface P) (env : Env P) (pkt : Bytes) :
    Except Fault (Interface P × List Effect) := do
  match ← dstIPFromIPv4 pkt with
  | none => pure (I, [])
  | some dstIP =>
      let dstGroups := Interface.hostGroups (I.hostmap.getByVpnIP dstIP)
      let proto ← protoFromIPv4 pkt
      let dstPort ← dstPortFromIPv4 pkt
      let tracked := I.fw.ct.isEstablished (Firewall.key dstIP dstPort proto)
      let (fw, allowed) := I.fw.allowOutbound env.now dstIP dstGroups dstPort proto
      let I := { I with fw }
      let verdict := Effect.outbound pkt dstGroups tracked allowed
      if allowed then
        let (I, effs) ← forwardInside I env dstIP pkt
        pure (I, verdict :: effs)
      else pure (I, [verdict])

/-- `handleMessage` once the packet is decrypted. -/
def deliver (I : Interface P) (env : Env P) (host : HostInfo) (plaintext : Bytes) :
    Except Fault (Interface P × List Effect) := do
  match ← srcIPFromIPv4 plaintext with
  | none => pure (I, [])
  | some srcIP =>
      let srcGroups := (host.cert.map (·.groups)).getD []
      let inProto ← protoFromIPv4 plaintext
      let dstPort ← dstPortFromIPv4 plaintext
      let tracked := I.fw.ct.isEstablished (Firewall.key srcIP dstPort inProto)
      let (fw, allowed) := I.fw.allowInbound env.now srcIP srcGroups dstPort inProto
      pure ({ I with fw },
        .inbound plaintext srcGroups tracked allowed ::
          if allowed then [.tunWrite plaintext] else [])

variable (P) in
/-- The replay check and the decryption of `handleMessage`. -/
def receive (h : HostInfo) (hdr : Header) (pkt : Bytes) :
    Except Fault (HostInfo × Except Dropped Bytes) := do
  let (h, replay) ← checkReplayHost h hdr.messageCounter
  if replay then
    pure (h, .error .replay)
  else
    let header ← slice pkt 0 headerLen
    let body ← sliceFrom pkt headerLen
    match decrypt P h.recvCipher hdr.messageCounter header body with
    | .error e => pure (h, .error (.decryptFailed e))
    | .ok plaintext => pure (h, .ok plaintext)

/-- `handleMessage`. -/
def handleMessage (I : Interface P) (env : Env P) (pkt : Bytes) (hdr : Header) (src : UDPAddr) :
    Except Fault (Interface P × List Effect) := do
  match I.hostmap.getByIndex hdr.remoteIndex with
  | none =>
      pure (I, match I.punchy with
        | some p => p.respondToPunch env src
        | none => [])
  | some (r, host) =>
      let (host, result) ← receive P host hdr pkt
      let I := { I with hostmap := I.hostmap.assign r host }
      match result with
      | .error _ => pure (I, [])
      | .ok plaintext =>
          let (I, effs) ← deliver I env host plaintext
          pure (I, .decrypted r (pkt.take headerLen) plaintext :: effs)

/-- `handleHandshake`.  Both stages look at the length and the header again and then slice the
body off; what they do with it does not touch the datagram. -/
def handleHandshake (I : Interface P) (env : Env P) (pkt : Bytes) (hdr : Header)
    (src : UDPAddr) : Except Fault (Interface P × List Effect) := do
  if pkt.length < headerLen then
    pure (I.handleHandshake env pkt hdr src)
  else
    let _ ← parse pkt
    let _ ← sliceFrom pkt headerLen
    pure (I.handleHandshake env pkt hdr src)

/-- `handleLightHouse`. -/
def handleLightHouse (I : Interface P) (env : Env P) (pkt : Bytes) (hdr : Header)
    (src : UDPAddr) : Except Fault (Interface P × List Effect) := do
  let senderVPN := match I.hostmap.getByIndex hdr.remoteIndex with
    | some (_, host) => some host.vpnIP
    | none => I.lighthouse.vpnIPByAddr env src
  match senderVPN with
  | none => pure (I, [])
  | some senderVPN =>
      let body ← sliceFrom pkt headerLen
      match P.unmarshalLightHouse body with
      | .error _ => pure (I, [])
      | .ok msg =>
          let (lighthouse, effs) := I.lighthouse.handleMessage env msg senderVPN
          pure ({ I with lighthouse }, effs)

/-- `consumeOutsidePacket`. -/
def consumeOutsidePacket (I : Interface P) (env : Env P) (pkt : Bytes) (src : UDPAddr) :
    Except Fault (Interface P × List Effect) := do
  if pkt.length < headerLen then
    pure (I, [])
  else
    match ← parse pkt with
    | .error _ => pure (I, [])
    | .ok hdr =>
        if hdr.type = typeMessage then handleMessage I env pkt hdr src
        else if hdr.type = typeHandshake then handleHandshake I env pkt hdr src
        else if hdr.type = typeLightHouse then handleLightHouse I env pkt hdr src
        else if hdr.type = typeTest then pure (I, Interface.handleTest env src)
        else if hdr.type = typeCloseTunnel then pure (I.handleCloseTunnel hdr, [])
        else pure (I, [])

end Accesses

end Neth
