/-
What is written into a header is read back out of it.

The fields of version 1 with a type below 16 survive `bytes` followed by `parse`,
whatever comes after the header on the wire.  Sealed packets use the 16 bytes as
additional data, so this is also what ties the counter a receiver parses to the one
the packet was sealed under.  The other way round, a parsed header spells the bytes it
was read from, up to the two reserved ones.

`encodeInto` writes field by field; all six writes together are one write of `bytes`
over the front of the buffer, and everything about it is read off that.
-/
import Neth.Header

namespace Neth

namespace Header

theorem bytes_eq (h : Header) :
    h.bytes = [(h.version <<< 4) ||| (h.type &&& 0x0F), h.subType, 0, 0]
      ++ Bytes.bePut 4 h.remoteIndex.toNat ++ Bytes.bePut 8 h.messageCounter.toNat := by
  simp [bytes, encode, headerLen]

@[simp] theorem length_bytes (h : Header) : h.bytes.length = headerLen := by
  simp [bytes_eq, headerLen]

@[simp] theorem take_bytes (h : Header) (body : Bytes) :
    (h.bytes ++ body).take headerLen = h.bytes := by
  rw [← length_bytes h, List.take_left]

@[simp] theorem drop_bytes (h : Header) (body : Bytes) :
    (h.bytes ++ body).drop headerLen = body := by
  rw [← length_bytes h, List.drop_left]

/-- The two halves of byte 0 come apart again. -/
theorem version_type_byte (t : UInt8) (ht : t < 16) :
    ((headerVersion <<< 4) ||| (t &&& 0x0F)) >>> 4 = headerVersion ∧
      ((headerVersion <<< 4) ||| (t &&& 0x0F)) &&& 0x0F = t := by
  have hall : ∀ n : Fin 16, ((headerVersion <<< 4) ||| (UInt8.ofNat n &&& 0x0F)) >>> 4
      = headerVersion ∧
      ((headerVersion <<< 4) ||| (UInt8.ofNat n &&& 0x0F)) &&& 0x0F = UInt8.ofNat n := by
    decide
  have hn : t.toNat < 16 := UInt8.lt_iff_toNat_lt.mp ht
  simpa using hall ⟨t.toNat, hn⟩

/-- **Reading undoes writing**, with any body behind the header. -/
theorem parse_bytes_append (h : Header) (hv : h.version = headerVersion) (ht : h.type < 16)
    (body : Bytes) : parse (h.bytes ++ body) = .ok h := by
  obtain ⟨v, t, sub, idx, ctr⟩ := h
  subst hv
  obtain ⟨hver, htyp⟩ := version_type_byte t ht
  have hlen : ¬ ((Header.bytes ⟨headerVersion, t, sub, idx, ctr⟩ ++ body).length < headerLen) := by
    simp
  have hidx : Bytes.beGet (Bytes.bePut 4 idx.toNat) = idx.toNat := by
    rw [Bytes.beGet_bePut]
    exact Nat.mod_eq_of_lt idx.toNat_lt
  have hctr : Bytes.beGet (Bytes.bePut 8 ctr.toNat) = ctr.toNat := by
    rw [Bytes.beGet_bePut]
    exact Nat.mod_eq_of_lt ctr.toNat_lt
  have hs4 : Bytes.slice (Header.bytes ⟨headerVersion, t, sub, idx, ctr⟩ ++ body) 4 4
      = Bytes.bePut 4 idx.toNat := by
    simp [Bytes.slice, bytes_eq]
  have hs8 : Bytes.slice (Header.bytes ⟨headerVersion, t, sub, idx, ctr⟩ ++ body) 8 8
      = Bytes.bePut 8 ctr.toNat := by
    simp [Bytes.slice, bytes_eq]
  have h0 : (Header.bytes ⟨headerVersion, t, sub, idx, ctr⟩ ++ body).getD 0 0
      = (headerVersion <<< 4) ||| (t &&& 0x0F) := by simp [bytes_eq]
  have h1 : (Header.bytes ⟨headerVersion, t, sub, idx, ctr⟩ ++ body).getD 1 0 = sub := by
    simp [bytes_eq]
  unfold parse
  rw [if_neg hlen, hs4, hs8, h0, h1, hver, htyp, hidx, hctr]
  simp

/-- The six assignments of `Encode` overwrite the front of the buffer with the header's bytes. -/
theorem encodeInto_of_le (h : Header) {buf : Bytes} (hlen : headerLen ≤ buf.length) :
    h.encodeInto buf = (h.bytes ++ buf.drop headerLen, .ok ()) := by
  have hlt : ∀ {i : Nat}, i < 16 → i < buf.length := fun hi => Nat.lt_of_lt_of_le hi hlen
  simp only [encodeInto, if_neg (Nat.not_lt.mpr hlen)]
  rw [Bytes.set_eq_put (hlt (by decide)), Bytes.set_put, Bytes.set_put, Bytes.set_put,
    Bytes.put_put (Nat.zero_le buf.length), Bytes.put_put (Nat.zero_le buf.length)]
  · simp [Bytes.put, bytes_eq, headerLen]
  -- what is left is that each write starts where the last one ended, inside the buffer
  all_goals first | exact hlt (by decide) | rfl

theorem length_of_parse {pkt : Bytes} {h : Header} (hp : parse pkt = .ok h) :
    ¬ pkt.length < headerLen := by
  intro hlt
  simp [parse, hlt] at hp

/-! ### The other way round

A header that was parsed is written back as the bytes it was parsed from, but for the reserved ones.
-/

/-- `Parse` looks at the length and at the high half of byte 0. -/
theorem parse_isOk_iff (buf : Bytes) :
    (∃ h, parse buf = .ok h) ↔ headerLen ≤ buf.length ∧ buf.getD 0 0 >>> 4 = headerVersion := by
  unfold parse
  by_cases hlen : buf.length < headerLen
  · simp only [if_pos hlen, reduceCtorEq, exists_false, false_iff, not_and]
    intro hle
    exact absurd hlen (Nat.not_lt.mpr hle)
  · by_cases hv : buf.getD 0 0 >>> 4 = headerVersion
    · simp only [if_neg hlen, hv, ne_eq, not_true_eq_false, if_false, Except.ok.injEq, and_true]
      exact ⟨fun _ => Nat.not_lt.mp hlen, fun _ => ⟨_, rfl⟩⟩
    · simp only [if_neg hlen, ne_eq, hv, not_false_eq_true, if_true, reduceCtorEq, exists_false,
        and_false]

theorem type_byte (b : UInt8) (hb : b >>> 4 = headerVersion) :
    (headerVersion <<< 4) ||| (b &&& 0x0F &&& 0x0F) = b := by
  have hall : ∀ n : Fin 256, UInt8.ofNat n >>> 4 = headerVersion →
      (headerVersion <<< 4) ||| (UInt8.ofNat n &&& 0x0F &&& 0x0F) = UInt8.ofNat n := by
    decide +kernel
  simpa using hall ⟨b.toNat, b.toNat_lt⟩ (by simpa using hb)

/-- A parsed header spells the bytes it was read from, up to the reserved ones. -/
theorem bytes_of_parse {buf : Bytes} {h : Header} (hp : parse buf = .ok h) :
    h.bytes = ((buf.take headerLen).set 2 0).set 3 0 := by
  obtain ⟨hlen, hv⟩ := (parse_isOk_iff buf).mp ⟨h, hp⟩
  have hfields : h = ⟨buf.getD 0 0 >>> 4, buf.getD 0 0 &&& 0x0F, buf.getD 1 0,
      UInt32.ofNat (Bytes.beGet (Bytes.slice buf 4 4)),
      UInt64.ofNat (Bytes.beGet (Bytes.slice buf 8 8))⟩ := by
    simp only [parse, if_neg (Nat.not_lt.mpr hlen), hv, ne_eq, not_true_eq_false, if_false,
      Except.ok.injEq] at hp
    rw [← hp, hv]
  have hword : ∀ lo k, lo + k ≤ headerLen →
      Bytes.bePut k (Bytes.beGet (Bytes.slice buf lo k)) = Bytes.slice buf lo k := by
    intro lo k hk
    apply Bytes.bePut_beGet
    rw [Bytes.length_slice]
    omega
  have hsmall : ∀ lo k, Bytes.beGet (Bytes.slice buf lo k) < 256 ^ k := by
    intro lo k
    refine Nat.lt_of_lt_of_le (Bytes.beGet_lt _) (Nat.pow_le_pow_right (by decide) ?_)
    rw [Bytes.length_slice]
    exact Nat.min_le_left _ _
  have hidx := UInt32.toNat_ofNat_of_lt' (hsmall 4 4)
  have hctr := UInt64.toNat_ofNat_of_lt' (hsmall 8 8)
  rw [bytes_eq, hfields]
  simp only [hv, type_byte _ hv, hidx, hctr]
  rw [hword 4 4 (by decide), hword 8 8 (by decide)]
  obtain ⟨b0, b1, b2, b3, rest, rfl⟩ : ∃ b0 b1 b2 b3 rest, buf = b0 :: b1 :: b2 :: b3 :: rest := by
    match buf, hlen with
    | b0 :: b1 :: b2 :: b3 :: rest, _ => exact ⟨b0, b1, b2, b3, rest, rfl⟩
  have hsplit : rest.take 12 = rest.take 4 ++ (rest.drop 4).take 8 := by
    rw [← List.take_add]
  simp [Bytes.slice, headerLen, hsplit]

/-- **The header codec, both ways.**  `Encode` then `Parse` gives the header back and touches
nothing behind it; `Parse` accepts exactly the buffers of 16 bytes or more of version 1, and
encoding what it read reproduces the 16 bytes with the reserved ones cleared; a shorter buffer is
refused by both and left alone. -/
theorem encodeInto_parse :
    (∀ h : Header, h.version = headerVersion → h.type < 16 →
      ∀ buf : Bytes, headerLen ≤ buf.length →
        ∃ out, h.encodeInto buf = (out, .ok ()) ∧ parse out = .ok h ∧
          out.length = buf.length ∧ out.drop headerLen = buf.drop headerLen) ∧
    (∀ buf : Bytes,
      (∃ h, parse buf = .ok h) ↔ headerLen ≤ buf.length ∧ buf.getD 0 0 >>> 4 = headerVersion) ∧
    (∀ (buf : Bytes) (h : Header), parse buf = .ok h →
      ∀ dst : Bytes, headerLen ≤ dst.length →
        ∃ out, h.encodeInto dst = (out, .ok ()) ∧
          out.take headerLen = ((buf.take headerLen).set 2 0).set 3 0) ∧
    (∀ buf : Bytes, buf.length < headerLen →
      (∃ err, parse buf = .error err) ∧ ∀ h : Header, ∃ err, h.encodeInto buf = (buf, .error err))
    := by
  refine ⟨?_, parse_isOk_iff, ?_, ?_⟩
  · intro h hv ht buf hlen
    refine ⟨_, encodeInto_of_le h hlen, parse_bytes_append h hv ht _, ?_, drop_bytes h _⟩
    rw [List.length_append, length_bytes, List.length_drop]
    omega
  · intro buf h hp dst hlen
    exact ⟨_, encodeInto_of_le h hlen, by rw [take_bytes, bytes_of_parse hp]⟩
  · intro buf hlen
    refine ⟨⟨_, by rw [parse, if_pos hlen]⟩, fun h => ⟨_, by rw [encodeInto, if_pos hlen]⟩⟩

/-- A header of an unnamed type, written over a longer buffer, and a buffer whose reserved bytes
are set. -/
theorem encodeInto_parse_unnamed :
    (∃ out, (Header.mk 1 15 7 0xfffffffe 1).encodeInto (List.replicate 20 9) = (out, .ok ()) ∧
      parse out = .ok ⟨1, 15, 7, 0xfffffffe, 1⟩ ∧ out.length = 20 ∧
        out.drop headerLen = [9, 9, 9, 9]) ∧
    (∃ out, (Header.mk 1 2 0 5 6).encodeInto (List.replicate 16 0) = (out, .ok ()) ∧
      out.take headerLen = [0x12, 0, 0, 0, 0, 0, 0, 5, 0, 0, 0, 0, 0, 0, 0, 6]) ∧
    (∃ err, parse [0x10] = .error err) := by
  obtain ⟨hthere, _, hback, hshort⟩ := encodeInto_parse
  refine ⟨hthere ⟨1, 15, 7, 0xfffffffe, 1⟩ rfl (by decide) (List.replicate 20 9) (by decide), ?_,
    (hshort [0x10] (by decide)).1⟩
  exact hback [0x12, 0, 8, 8, 0, 0, 0, 5, 0, 0, 0, 0, 0, 0, 0, 6] ⟨1, 2, 0, 5, 6⟩ (by decide)
    (List.replicate 16 0) (by decide)

end Header

end Neth
