/-
What the kernel is told about the TUN device.

An `ifreq` is read at fixed places, so each setter is described by what is found where
it wrote and by its leaving the rest alone.  On top of that, a device that `Open` has
returned was given the address of its CIDR, a netmask under which exactly the addresses
of the CIDR are on its link, and has been brought up with its other flags as they were.

All of this is said of the name the kernel gave the device, and of the answers it gave
on the way, in `Configured`.
-/
import Neth.Lib.Fallible
import Neth.TUN

namespace Neth

open Handles Opening

namespace Ifreq

/-- The bytes as a string. -/
def raw (r : Ifreq) : Bytes := r.bytes.toList

@[simp] theorem length_raw (r : Ifreq) : r.raw.length = 40 := by simp [raw]

/-- How the kernel reads a `sockaddr_in`: the family. -/
def family (r : Ifreq) : Nat := Bytes.leGet (Bytes.slice r.raw ifNameSize 2)

/-- How the kernel reads a `sockaddr_in`: the address. -/
def sockaddr (r : Ifreq) : BitVec 32 :=
  BitVec.ofNat 32 (Bytes.beGet (Bytes.slice r.raw (ifNameSize + 4) 4))

theorem raw_overwrite (r : Ifreq) {off : Nat} {data : Bytes} (h : off + data.length ≤ 40) :
    (r.overwrite off data).raw = Bytes.put r.raw off data := by
  have hoff : off ≤ r.raw.length := by
    rw [length_raw]
    omega
  refine List.ext_getElem? fun i => ?_
  rw [Bytes.getElem?_put hoff]
  by_cases hi : i < 40
  · simp only [raw, overwrite, Vector.toList_ofFn, List.getElem?_ofFn, dif_pos hi]
    split_ifs with hin
    · rw [List.getD_eq_getElem?_getD, List.getElem?_eq_getElem (by omega)]
      rfl
    · simp [hi, Vector.get]
  · rw [List.getElem?_eq_none (by rw [length_raw]; omega), if_neg (by omega),
      List.getElem?_eq_none (by rw [length_raw]; omega)]

theorem getName_eq (r : Ifreq) :
    r.getName = (Bytes.slice r.raw 0 ifNameSize).takeWhile (· ≠ 0) := rfl

/-- Nothing that is written behind the name changes it. -/
theorem getName_overwrite (r : Ifreq) {off : Nat} {data : Bytes} (hoff : ifNameSize ≤ off)
    (h : off + data.length ≤ 40) : (r.overwrite off data).getName = r.getName := by
  have hle : off ≤ r.raw.length := by
    rw [length_raw]
    omega
  rw [getName_eq, getName_eq, raw_overwrite r h, Bytes.slice_put_before data hle (by omega)]

theorem length_getName (r : Ifreq) : r.getName.length ≤ ifNameSize := by
  rw [getName_eq]
  refine (List.takeWhile_sublist _).length_le.trans ?_
  rw [Bytes.length_slice]
  exact Nat.min_le_left _ _

theorem ne_zero_of_mem_getName {r : Ifreq} {b : UInt8} (h : b ∈ r.getName) : b ≠ 0 := by
  rw [getName_eq] at h
  simpa using List.all_eq_true.mp List.all_takeWhile b h

/-- A name that fits and has no NUL in it is read back as it is. -/
theorem getName_setName {name : GoString} (hlen : name.length ≤ ifNameSize)
    (hnul : ∀ b ∈ name, b ≠ 0) : (zero.setName name).getName = name := by
  have hfits : 0 + name.length ≤ 40 := by
    unfold ifNameSize at hlen
    omega
  have hraw : (zero.setName name).raw = name ++ List.replicate (40 - name.length) 0 := by
    rw [setName, List.take_of_length_le hlen, raw_overwrite _ hfits]
    show name ++ (List.replicate 40 0).drop (0 + name.length) = _
    rw [List.drop_replicate, Nat.zero_add]
  rw [getName_eq, hraw, Bytes.slice, List.drop_zero, List.take_append,
    List.take_of_length_le hlen, List.take_replicate, List.takeWhile_append_of_pos]
  · simp
  · simpa using hnul

theorem getName_setSockaddrIn (r : Ifreq) (ip : BitVec 32) :
    (r.setSockaddrIn ip).getName = r.getName := by
  unfold setSockaddrIn
  rw [getName_overwrite _ (by decide) (by simp [ifNameSize]),
    getName_overwrite _ (by decide) (by simp [ifNameSize])]

theorem getName_setFlags (r : Ifreq) (flags : UInt16) : (r.setFlags flags).getName = r.getName :=
  getName_overwrite r (Nat.le_refl _) (by simp [ifNameSize])

theorem family_setSockaddrIn (r : Ifreq) (ip : BitVec 32) :
    (r.setSockaddrIn ip).family = afINET := by
  unfold setSockaddrIn family
  rw [raw_overwrite _ (by simp [ifNameSize]), Bytes.slice_put_before _ _ (by decide),
    raw_overwrite _ (by simp [ifNameSize]), Bytes.slice_put _ (Bytes.length_lePut 2 _)]
  · rfl
  · simp [ifNameSize]
  · simp [ifNameSize]

theorem sockaddr_setSockaddrIn (r : Ifreq) (ip : BitVec 32) :
    (r.setSockaddrIn ip).sockaddr = ip := by
  unfold setSockaddrIn sockaddr
  rw [raw_overwrite _ (by simp [ifNameSize]), Bytes.slice_put _ (Bytes.length_bePut 4 _),
    Bytes.beGet_bePut]
  · rw [show (256 : Nat) ^ 4 = 2 ^ 32 from rfl, Nat.mod_eq_of_lt ip.isLt,
      BitVec.ofNat_toNat, BitVec.setWidth_eq]
  · simp [ifNameSize]

theorem getFlags_setFlags (r : Ifreq) (flags : UInt16) : (r.setFlags flags).getFlags = flags := by
  unfold setFlags getFlags
  rw [show (r.overwrite ifNameSize (Bytes.lePut 2 flags.toNat)).bytes.toList = _ from
    raw_overwrite r (by simp [ifNameSize]), Bytes.slice_put _ (Bytes.length_lePut 2 _),
    Bytes.leGet_lePut]
  · refine UInt16.toNat_inj.mp ?_
    simp
  · simp [ifNameSize]

end Ifreq

theorem getLsbD_prefixMask4 (n i : Nat) :
    (prefixMask4 n).getLsbD i = decide (32 - n ≤ i ∧ i < 32) := by
  unfold prefixMask4
  rw [BitVec.getLsbD_shiftLeft, BitVec.getLsbD_allOnes]
  by_cases hi : i < 32
  · by_cases hk : i < 32 - n
    · simp [hi, hk]
      omega
    · simp [hi, hk]
      omega
  · simp [hi]

/-- An address is on the link of `ip` under the netmask of `n` bits exactly when `ip/n` has it. -/
theorem and_prefixMask4_iff (ip a : BitVec 32) (n : Nat) :
    a &&& prefixMask4 n = ip &&& prefixMask4 n ↔
      IPPrefix.contains ⟨.v4 ip, some n⟩ (.v4 a) = true := by
  show _ ↔ ((ip ^^^ a) >>> (32 - n) == 0) = true
  have hbits : ∀ v : BitVec 32, v = 0 ↔ ∀ i, v.getLsbD i = false := by
    intro v
    constructor
    · rintro rfl i
      exact BitVec.getLsbD_zero
    · intro h
      exact BitVec.eq_of_getLsbD_eq fun i _ => by rw [h, BitVec.ofNat_eq_ofNat, BitVec.getLsbD_zero]
  rw [beq_iff_eq, hbits]
  constructor
  · intro h i
    have hbit := congrArg (fun v : BitVec 32 => v.getLsbD (32 - n + i)) h
    simp only [BitVec.getLsbD_and, getLsbD_prefixMask4] at hbit
    rw [BitVec.getLsbD_ushiftRight, BitVec.getLsbD_xor]
    by_cases hi : 32 - n + i < 32
    · simp only [hi, Nat.le_add_right, and_self, decide_true, Bool.and_true] at hbit
      rw [hbit, Bool.xor_self]
    · rw [BitVec.getLsbD_of_ge ip _ (by omega), BitVec.getLsbD_of_ge a _ (by omega)]
      rfl
  · intro h
    refine BitVec.eq_of_getLsbD_eq fun i hi => ?_
    rw [BitVec.getLsbD_and, BitVec.getLsbD_and, getLsbD_prefixMask4]
    by_cases hk : 32 - n ≤ i
    · have hbit := h (i - (32 - n))
      rw [BitVec.getLsbD_ushiftRight, BitVec.getLsbD_xor, Nat.add_sub_cancel' hk,
        bne_eq_false_iff_eq] at hbit
      rw [hbit]
    · simp [hk]

namespace TUN

variable {k : Kernel} {T : Text}

/-- The kernel did what it was asked. -/
def Granted (k : Kernel) (req : Request) (r : Ifreq) : Prop := ∃ r', k.ioctl req r = .ok r'

theorem request_ok {req : Request} {r r' : Ifreq} :
    request k req r = .ok r' ↔ k.ioctl req r = .ok r' :=
  Fallible.mapError_ok

/-- What is known of a device that `Open`, asked for one with a name, has returned: the name is the
one the kernel answered with, and every later request is made under it.  The flags are those the
kernel answered with for that name, and up. -/
structure Configured (k : Kernel) (name : GoString) (dev : Device) (ip : BitVec 32) (bits : Nat)
    (mtu : Int) : Prop where
  created : ∃ r, k.ioctl .tunSetIff ((Ifreq.zero.setName name).setFlags iffTun) = .ok r ∧
    dev.name = r.getName
  address : Granted k .setAddr ((Ifreq.zero.setName dev.name).setSockaddrIn ip)
  netmask : Granted k .setNetmask ((Ifreq.zero.setName dev.name).setSockaddrIn (prefixMask4 bits))
  mtu : Granted k .setMTU ((Ifreq.zero.setName dev.name).setMTU mtu)
  up : ∃ r, k.ioctl .getFlags (Ifreq.zero.setName dev.name) = .ok r ∧
    Granted k .setFlags (r.setFlags (r.getFlags ||| iffUp))
  name : (Ifreq.zero.setName dev.name).getName = dev.name

theorem parseCIDR_ok {cidr : GoString} {ip : BitVec 32} {bits : Nat} :
    parseCIDR T cidr = .ok (ip, bits) ↔ T.parsePrefix cidr = .ok ⟨.v4 ip, some bits⟩ := by
  simp only [parseCIDR, Fallible.bind_ok, Fallible.mapError_ok]
  constructor
  · rintro ⟨⟨addr, b⟩, hparse, hpair⟩
    split at hpair
    · rename_i haddr hbits
      obtain ⟨rfl, rfl⟩ := Prod.mk.inj (Fallible.pure_ok.mp hpair)
      obtain rfl : addr = _ := haddr
      obtain rfl : b = _ := hbits
      exact hparse
    · exact absurd hpair Fallible.throw_ok
  · exact fun hparse => ⟨_, hparse, rfl⟩

theorem openDevice_ok {name cidr : GoString} {mtu : Int} {s s' : List Handle} {dev : Device}
    (h : openDevice k T name cidr mtu s = (.ok dev, s')) :
    ∃ ip bits, T.parsePrefix cidr = .ok ⟨.v4 ip, some bits⟩ ∧
      Configured k name dev ip bits mtu := by
  simp only [openDevice, configure, bind_ok, attempt_ok, acquire_ok, closing_ok, deferring_ok,
    pure_ok, request_ok, Prod.exists] at h
  obtain ⟨ip, bits, _, ⟨hcidr, rfl⟩, _, _, ⟨-, rfl⟩, r₀, _, ⟨htun, rfl⟩, _, _, ⟨-, rfl⟩, _, _,
    ⟨_, ⟨r₁, _, ⟨haddr, rfl⟩, r₂, _, ⟨hmask, rfl⟩, r₃, _, ⟨hmtu, rfl⟩, r₄, _, ⟨hget, rfl⟩,
      r₅, _, ⟨hset, rfl⟩, -, rfl⟩, rfl⟩, rfl, -⟩ := h
  exact ⟨ip, bits, parseCIDR_ok.mp hcidr,
    { created := ⟨r₀, htun, rfl⟩
      address := ⟨r₁, haddr⟩
      netmask := ⟨r₂, hmask⟩
      mtu := ⟨r₃, hmtu⟩
      up := ⟨r₄, hget, r₅, hset⟩
      name := Ifreq.getName_setName (Ifreq.length_getName _)
        fun _ => Ifreq.ne_zero_of_mem_getName }⟩

end TUN

end Neth
