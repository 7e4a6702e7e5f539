/-
The port the firewall judges.

A packet has a destination port if it carries TCP or UDP, its header has at least the
five words every IPv4 header has, and it is the first fragment, because only that one
begins with the transport header.  `dstPortFromIPv4` asks for the protocol and for room
behind the header, and for neither of the other two.  With a shorter length field it
reads the port out of the IP header itself, and from a later fragment out of the
payload.
-/
import Neth.IPv4

namespace Neth

/-- The header length field, in words of four bytes. -/
def headerWords (pkt : Bytes) : Nat := (pkt.getD 0 0 &&& 0x0f).toNat

/-- The fragment offset: the low 13 bits of bytes 6 and 7. -/
def fragmentOffset (pkt : Bytes) : Nat := (uint16At pkt 6).toNat % 2 ^ 13

/-- The protocols whose packets have ports. -/
def CarriesPorts (pkt : Bytes) : Prop := protoFromIPv4 pkt = protoTCP ∨ protoFromIPv4 pkt = protoUDP

/-- The value where the destination port of a transport header would be. -/
def portField (pkt : Bytes) : UInt16 := uint16At pkt (4 * headerWords pkt + 2)

/-- The bytes of `portField` are there. -/
def HasRoom (pkt : Bytes) : Prop := 4 * headerWords pkt + 4 ≤ pkt.length

/-- The packet begins with a whole IPv4 header and, behind it, a transport header with ports. -/
structure Transport (pkt : Bytes) : Prop where
  words : 5 ≤ headerWords pkt
  ports : CarriesPorts pkt
  first : fragmentOffset pkt = 0
  room : HasRoom pkt

instance (pkt : Bytes) : Decidable (CarriesPorts pkt) := inferInstanceAs (Decidable (_ ∨ _))

instance (pkt : Bytes) : Decidable (HasRoom pkt) := inferInstanceAs (Decidable (_ ≤ _))

/-- The port of the packet is the one in its transport header, and 0 if it has none. -/
def JudgedPortReal (pkt : Bytes) : Prop :=
  (dstPortFromIPv4 pkt ≠ 0 → Transport pkt ∧ dstPortFromIPv4 pkt = portField pkt) ∧
  (¬ Transport pkt → dstPortFromIPv4 pkt = 0)

/-- What `dstPortFromIPv4` looks at. -/
theorem dstPortFromIPv4_eq {pkt : Bytes} (hlen : 20 ≤ pkt.length) :
    dstPortFromIPv4 pkt = if CarriesPorts pkt ∧ HasRoom pkt then portField pkt else 0 := by
  have hproto : protoFromIPv4 pkt = pkt.getD 9 0 := if_neg (by omega)
  have hihl : ihl pkt = 4 * headerWords pkt := Nat.mul_comm _ _
  simp only [dstPortFromIPv4, if_neg (Nat.not_lt.mpr hlen), CarriesPorts, hproto, HasRoom,
    portField, hihl, ge_iff_le]

/-- **When the judged port is real.**  Exactly for the packets in which a non-zero field of a TCP
or UDP packet stands behind a header of at least five words, in a first fragment. -/
theorem judgedPortReal_iff (pkt : Bytes) (hlen : 20 ≤ pkt.length) :
    JudgedPortReal pkt ↔
      (CarriesPorts pkt → HasRoom pkt → portField pkt ≠ 0 →
        5 ≤ headerWords pkt ∧ fragmentOffset pkt = 0) := by
  unfold JudgedPortReal
  rw [dstPortFromIPv4_eq hlen]
  by_cases hreads : CarriesPorts pkt ∧ HasRoom pkt
  · rw [if_pos hreads]
    constructor
    · rintro ⟨hreal, -⟩ - - hport
      exact ⟨(hreal hport).1.words, (hreal hport).1.first⟩
    · intro h
      have hreal : portField pkt ≠ 0 → Transport pkt := fun hport =>
        have hhead := h hreads.1 hreads.2 hport
        ⟨hhead.1, hreads.1, hhead.2, hreads.2⟩
      refine ⟨fun hport => ⟨hreal hport, rfl⟩, fun hnot => ?_⟩
      by_contra hport
      exact hnot (hreal hport)
  · rw [if_neg hreads]
    refine iff_of_true ⟨fun h => absurd rfl h, fun _ => rfl⟩ ?_
    intro hports hroom
    exact absurd ⟨hports, hroom⟩ hreads

section Concrete

/-- An IPv4 header with the given first byte, fragment field and protocol TCP, and four bytes
behind it. -/
def tcpWith (versionLength fragmentHigh fragmentLow : UInt8) : Bytes :=
  [versionLength, 0, 0, 24, 0, 0, fragmentHigh, fragmentLow, 64, 6, 0, 0, 10, 0, 0, 2, 10, 0, 0, 1,
    0xc0, 0, 0x01, 0xbb]

/-- A first fragment with a header of five words, from port 49152 to port 443. -/
theorem judgedPortReal_https :
    JudgedPortReal (tcpWith 0x45 0 0) ∧ dstPortFromIPv4 (tcpWith 0x45 0 0) = 443 :=
  ⟨(judgedPortReal_iff (tcpWith 0x45 0 0) (by decide)).mpr (by decide), by decide⟩

/-- **Ports that are none.**  With a header length of 0 the port is the total length of the packet,
and in the fragment at offset 1480 it is two bytes of the payload. -/
theorem dstPortFromIPv4_not_real :
    (dstPortFromIPv4 (tcpWith 0x40 0 0) = 24 ∧ headerWords (tcpWith 0x40 0 0) = 0 ∧
      ¬ JudgedPortReal (tcpWith 0x40 0 0)) ∧
    (dstPortFromIPv4 (tcpWith 0x45 0 185) = 443 ∧ fragmentOffset (tcpWith 0x45 0 185) = 185 ∧
      ¬ JudgedPortReal (tcpWith 0x45 0 185)) := by
  refine ⟨⟨by decide, by decide, ?_⟩, by decide, by decide, ?_⟩
  · intro h
    have hwords := (h.1 (by decide)).1.words
    exact absurd hwords (by decide)
  · intro h
    have hfirst := (h.1 (by decide)).1.first
    exact absurd hfirst (by decide)

end Concrete

end Neth
