/-
The symbolic platform meets the assumptions about a platform.

Noise works and binds what it should, the codecs are undone by their decoders, and the
cipher opens what it sealed.  So these assumptions are consistent with one another, and
a theorem that uses them can be applied to a concrete run.

The assumptions about issuing certificates are met by platforms of their own, in
`Proofs/Issue.lean` and `Proofs/CertTool.lean`.  What is assumed of the datagrams that
arrive, such as `OpensOnly`, is no property of a platform at all.  Here anybody can
write a ciphertext down, so it is shown for each concrete run that uses it.
-/
import Neth.Assumptions
import Neth.Lib.Fallible
import Neth.Symbolic

namespace Neth

namespace Symbolic

open Framing

theorem newHandshakeState_ok {cfg : NoiseConfig} {hs : State}
    (h : newHandshakeState cfg = .ok hs) :
    cfg.presharedKey.length = 32 ∧ hs = ⟨cfg, [], cfg.peerStatic⟩ := by
  unfold newHandshakeState at h
  split at h
  · rename_i hlen
    cases h
    exact ⟨hlen, rfl⟩
  · cases h

/-- The first message spells out what went into it. -/
theorem firstMessage_eq {s : DHKey} {rs psk : Bytes} {w : NoiseWrite State}
    (h : platform.FirstMessage s rs psk w) :
    psk.length = 32 ∧ ∃ e payload, w = ⟨frames [s.publicKey, rs, psk, e, payload], none,
      ⟨⟨true, s, rs, psk, 0⟩, e, rs⟩⟩ := by
  obtain ⟨hs, e, payload, hnew, hwrite⟩ := h
  obtain ⟨hlen, rfl⟩ := newHandshakeState_ok hnew
  refine ⟨hlen, e, payload, ?_⟩
  have hwrite' : writeMessage ⟨⟨true, s, rs, psk, 0⟩, [], rs⟩ e payload = .ok w := hwrite
  cases hwrite'
  rfl

theorem firstMessage_frames (s : DHKey) (rs psk e payload : Bytes) (hlen : psk.length = 32) :
    platform.FirstMessage s rs psk ⟨frames [s.publicKey, rs, psk, e, payload], none,
      ⟨⟨true, s, rs, psk, 0⟩, e, rs⟩⟩ :=
  ⟨⟨⟨true, s, rs, psk, 0⟩, [], rs⟩, e, payload, by
    show newHandshakeState _ = _
    simp [newHandshakeState, hlen, pure, Except.pure], rfl⟩

theorem ikpsk0 : platform.IKpsk0 where
  initiate s r psk e _ _ hlen := by
    obtain ⟨hs, e', payload, hnew, -⟩ := firstMessage_frames s r.publicKey psk e [] hlen
    exact ⟨hs, _, hnew, by
      obtain ⟨-, rfl⟩ := newHandshakeState_ok hnew
      rfl⟩
  respond s r psk w _ _ hw := by
    obtain ⟨hlen, e, payload, rfl⟩ := firstMessage_eq hw
    refine ⟨⟨⟨false, r, [], psk, 0⟩, [], []⟩, ⟨payload, none⟩,
      ⟨⟨false, r, [], psk, 0⟩, e, s.publicKey⟩, ?_, ?_, rfl, ?_⟩
    · show newHandshakeState _ = _
      simp [newHandshakeState, hlen, pure, Except.pure]
    · show readMessage ⟨⟨false, r, [], psk, 0⟩, [], []⟩ _ = _
      simp [readMessage, readFirst, pure, Except.pure]
    · intro e'
      refine ⟨⟨frames [r.publicKey, s.publicKey, psk, e, e', []], some (split e e'),
        ⟨⟨false, r, [], psk, 0⟩, e, s.publicKey⟩⟩, split e e', ⟨[], some (split e e')⟩,
        rfl, rfl, ?_, rfl⟩
      show (readMessage _ _).1 = _
      simp [readMessage, readSecond, pure, Except.pure]

theorem learnsInitiator : platform.LearnsInitiator := by
  intro s r psk w hs hs' read _ hfirst hnew hread
  obtain ⟨-, e, payload, rfl⟩ := firstMessage_eq hfirst
  obtain ⟨-, rfl⟩ := newHandshakeState_ok hnew
  change readFirst _ (frames [s.publicKey, r.publicKey, psk, e, payload]) = _ at hread
  simp only [readFirst, unframes_frames, and_self, if_true] at hread
  rw [← (Prod.mk.inj hread).2]

theorem bindsKeys : platform.BindsKeys := by
  intro s rs psk w r psk' m w' read hfirst ⟨hs, read1, hs', e, payload, hnew, hread1, hwrite⟩ hread
  obtain ⟨-, e0, payload0, rfl⟩ := firstMessage_eq hfirst
  obtain ⟨-, rfl⟩ := newHandshakeState_ok hnew
  -- reading the first message leaves the configuration of the responder alone
  have hrole : hs'.cfg.initiator = false := by
    have hread2 : readFirst _ m = (.ok read1, hs') := hread1
    unfold readFirst at hread2
    split at hread2
    · split at hread2
      · obtain ⟨-, rfl⟩ := Prod.mk.inj hread2
        rfl
      · cases (Prod.mk.inj hread2).1
    · cases (Prod.mk.inj hread2).1
  have hwritten : writeMessage hs' e payload = .ok w' := hwrite
  unfold writeMessage at hwritten
  rw [if_neg (by simp [hrole])] at hwritten
  cases hwritten
  have hsecond : (readSecond ⟨⟨true, s, rs, psk, 0⟩, e0, rs⟩
      (frames [hs'.cfg.staticKeypair.publicKey, hs'.peer, hs'.cfg.presharedKey, hs'.ephemeral, e,
        payload])).1 = .ok read := hread
  simp only [readSecond, unframes_frames] at hsecond
  split at hsecond
  · cases hsecond
    rfl
  · cases hsecond

theorem codecs : platform.Codecs where
  details d := by
    refine ⟨marshalDetails d, rfl, ?_⟩
    have hi : d.initiatorIndex.toNat % 256 ^ 4 = d.initiatorIndex.toNat :=
      Nat.mod_eq_of_lt d.initiatorIndex.toNat_lt
    have hr : d.responderIndex.toNat % 256 ^ 4 = d.responderIndex.toNat :=
      Nat.mod_eq_of_lt d.responderIndex.toNat_lt
    have ht : d.time.toNat % 256 ^ 8 = d.time.toNat := Nat.mod_eq_of_lt d.time.toNat_lt
    show unmarshalDetails (marshalDetails d) = _
    unfold unmarshalDetails marshalDetails
    simp only [unframes_frames, Bytes.beGet_bePut, hi, hr, ht, UInt32.ofNat_toNat,
      UInt64.ofNat_toNat]
    rfl
  message m := by
    refine ⟨frames [m.details, m.noisePayload, m.hmac], rfl, ?_⟩
    show unmarshalMessage _ = _
    simp [unmarshalMessage, pure, Except.pure]
  pem raw := rfl

theorem openSeal : platform.OpenSeal := by
  intro key nonce plaintext ad
  show gcmOpen key nonce (gcmSeal key nonce plaintext ad) ad = _
  simp [gcmOpen, gcmSeal, pure, Except.pure]

theorem sealLength : platform.SealLength := by
  intro key nonce ad plaintext plaintext' hlen
  show (gcmSeal key nonce plaintext ad).length = (gcmSeal key nonce plaintext' ad).length
  simp [gcmSeal, frames, length_frame, hlen]

/-! ### Lighthouse messages -/

@[simp] theorem untext_text (s : String) : untext (text s) = some s := by
  have hchar : ∀ c : Char, Char.ofNat (Bytes.beGet (Bytes.bePut 4 c.toNat)) = c := by
    intro c
    have hlt : c.toNat < 256 ^ 4 := c.val.toNat_lt
    rw [Bytes.beGet_bePut, Nat.mod_eq_of_lt hlt, Char.ofNat_toNat]
  simp [untext, text, Function.comp_def, hchar]

@[simp] theorem unmarshalIpPort_marshal (p : IpPort) :
    unmarshalIpPort (marshalIpPort p) = some p := by
  have hport : p.port.toNat % 256 ^ 4 = p.port.toNat := Nat.mod_eq_of_lt p.port.toNat_lt
  simp only [unmarshalIpPort, marshalIpPort, unframes_frames, untext_text, Option.map_some,
    Bytes.beGet_bePut, hport, UInt32.ofNat_toNat]

@[simp] theorem unmarshalIpPorts_marshal (ps : List IpPort) :
    unmarshalIpPorts (marshalIpPorts ps) = some ps := by
  rw [unmarshalIpPorts, marshalIpPorts, unframes_frames, Option.bind_some]
  induction ps with
  | nil => rfl
  | cons p ps ih => simp [ih]

theorem lightHouseCodec : discovery.LightHouseCodec := by
  intro msg b hb
  obtain rfl : marshalLightHouse msg = b := Except.ok.inj hb
  show unmarshalLightHouse (marshalLightHouse msg) = _
  have hbody : lightHouseBody (marshalLightHouse msg) = some msg.body := by
    rcases msg with ⟨_ | body⟩
    · rfl
    · cases body with
      | whoAmIReply addr => cases addr <;> simp [lightHouseBody, marshalLightHouse]
      | query _ | queryReply _ _ | update _ | whoAmI | punch _ _ =>
          simp [lightHouseBody, marshalLightHouse]
  rw [unmarshalLightHouse, hbody]
  rfl

/-! ### Addresses as text

What is read back is settled by the separators: no group of digits has one in it, so splitting at
them gives the groups back. -/

theorem ascii_plain (s : GoString) : ascii (plain s) = s := by
  have hbyte : ∀ b : UInt8, UInt8.ofNat (Char.ofNat b.toNat).toNat = b := by
    intro b
    have hvalid : b.toNat.isValidChar := .inl (Nat.lt_trans b.toNat_lt (by decide))
    have hchar : (Char.ofNat b.toNat).toNat = b.toNat := by
      rw [Char.ofNat, dif_pos hvalid]
      rfl
    rw [hchar, UInt8.ofNat_toNat]
  simp [ascii, plain, Function.comp_def, hbyte]

/-- The digits of a byte are read back, and there is no separator among them. -/
theorem digits_spec : ∀ n < 256, decimal (digits n) = some n ∧ dotByte ∉ digits n ∧
    colonByte ∉ digits n ∧ slashByte ∉ digits n := by
  decide +kernel

theorem hexChar_spec : ∀ d < 16, hexDigit (hexChar d) = some d ∧ hexChar d ≠ colonByte ∧
    hexChar d ≠ percentByte := by
  decide

theorem not_mem_intercalate {c sep : UInt8} (hne : c ≠ sep) {groups : List GoString}
    (h : ∀ g ∈ groups, c ∉ g) : c ∉ [sep].intercalate groups := by
  induction groups with
  | nil => simp
  | cons g groups ih =>
      cases groups with
      | nil => simpa using h
      | cons g' groups =>
          rw [List.intercalate_cons_cons]
          simp only [List.mem_append, List.mem_singleton, not_or]
          exact ⟨⟨h g (by simp), hne⟩, ih fun g'' hg => h g'' (List.mem_cons_of_mem _ hg)⟩

theorem readQuad_quad {bs : Bytes} (h : bs.length = 4) : readQuad (quad bs) = some bs := by
  match bs, h with
  | [a, b, c, d], _ =>
      have hspec := fun x : UInt8 => digits_spec x.toNat x.toNat_lt
      have hsplit :
          (quad [a, b, c, d]).splitOn dotByte = [a, b, c, d].map fun x => digits x.toNat :=
        List.splitOn_intercalate dotByte (by simp [hspec]) (by simp)
      have hlt := fun x : UInt8 => x.toNat_lt
      simp [readQuad, hsplit, hspec, hlt]

theorem not_mem_quad (bs : Bytes) {c : UInt8} (hc : c = colonByte ∨ c = slashByte) :
    c ∉ quad bs := by
  refine not_mem_intercalate (by rcases hc with rfl | rfl <;> decide) ?_
  intro g hg
  obtain ⟨b, -, rfl⟩ := List.mem_map.mp hg
  obtain ⟨-, -, hcolon, hslash⟩ := digits_spec b.toNat b.toNat_lt
  rcases hc with rfl | rfl
  · exact hcolon
  · exact hslash

theorem readGroup_hexByte (a b : UInt8) : readGroup (hexByte a ++ hexByte b) = some [a, b] := by
  have hhigh := fun x : UInt8 => (hexChar_spec (x.toNat / 16) (by have := x.toNat_lt; omega)).1
  have hlow := fun x : UInt8 => (hexChar_spec (x.toNat % 16) (Nat.mod_lt _ (by decide))).1
  have hboth : ∀ x : UInt8, UInt8.ofNat (16 * (x.toNat / 16) + x.toNat % 16) = x := by
    intro x
    rw [Nat.div_add_mod, UInt8.ofNat_toNat]
  simp only [hexByte, List.cons_append, List.nil_append, readGroup, hhigh, hlow,
    Option.bind_eq_bind, Option.bind_some, hboth, Option.pure_def]

theorem not_mem_hexByte {c : UInt8} (hc : c = colonByte ∨ c = percentByte) (b : UInt8) :
    c ∉ hexByte b := by
  obtain ⟨-, hcolon, hpercent⟩ := hexChar_spec (b.toNat / 16) (by have := b.toNat_lt; omega)
  obtain ⟨-, hcolon', hpercent'⟩ := hexChar_spec (b.toNat % 16) (Nat.mod_lt _ (by decide))
  rcases hc with rfl | rfl
  · simp [hexByte, hcolon.symm, hcolon'.symm]
  · simp [hexByte, hpercent.symm, hpercent'.symm]

theorem not_mem_hexGroups {c : UInt8} (hc : c = colonByte ∨ c = percentByte) (bs : Bytes) :
    ∀ g ∈ hexGroups bs, c ∉ g := by
  induction bs using hexGroups.induct with
  | case1 a b bs ih =>
      intro g hg
      rcases List.mem_cons.mp hg with rfl | hg
      · simp [not_mem_hexByte hc]
      · exact ih g hg
  | case2 bs hbs =>
      intro g hg
      rw [hexGroups.eq_2 bs hbs] at hg
      cases hg

theorem mapM_readGroup (bs : Bytes) (h : bs.length % 2 = 0) :
    ∃ groups, (hexGroups bs).mapM readGroup = some groups ∧ groups.length = bs.length / 2 ∧
      groups.flatten = bs := by
  induction bs using hexGroups.induct with
  | case1 a b bs ih =>
      obtain ⟨groups, hgroups, hlen, hflat⟩ := ih (by simp only [List.length_cons] at h; omega)
      refine ⟨[a, b] :: groups, ?_, ?_, ?_⟩
      · simp [hexGroups, readGroup_hexByte, hgroups]
      · simp only [List.length_cons, hlen]
        omega
      · simp [hflat]
  | case2 bs hbs =>
      match bs with
      | [] => exact ⟨[], rfl, rfl, rfl⟩
      | [a] => simp at h
      | a :: b :: bs => exact absurd rfl (hbs a b bs)

theorem readExpanded_expanded {bs : Bytes} (h : bs.length = 16) :
    readExpanded (expanded bs) = some bs := by
  obtain ⟨groups, hgroups, hlen, hflat⟩ := mapM_readGroup bs (by rw [h])
  have hne : hexGroups bs ≠ [] := by
    match bs with
    | a :: b :: bs => simp [hexGroups]
  have hsplit : (expanded bs).splitOn colonByte = hexGroups bs :=
    List.splitOn_intercalate colonByte (not_mem_hexGroups (.inl rfl) bs) hne
  simp [readExpanded, hsplit, hgroups, hlen, h, hflat]

theorem colon_mem_expanded {bs : Bytes} (h : bs.length = 16) : colonByte ∈ expanded bs := by
  match bs with
  | a :: b :: a' :: b' :: bs =>
      unfold expanded hexGroups hexGroups
      rw [List.intercalate_cons_cons]
      simp

theorem readAddr_addrText {a : Addr} (h : a ≠ .zero) : readAddr (addrText a) = some a := by
  cases a with
  | zero => exact absurd rfl h
  | v4 ip =>
      have hlen : (Bytes.bePut 4 ip.toNat).length = 4 := Bytes.length_bePut 4 _
      rw [addrText, readAddr, if_neg (not_mem_quad _ (.inl rfl)), readQuad_quad hlen]
      simp only [Option.bind_some, Addr.fromSlice, hlen, Bytes.beGet_bePut]
      rw [show 256 ^ 4 = 2 ^ 32 from rfl, Nat.mod_eq_of_lt ip.isLt, BitVec.ofNat_toNat,
        BitVec.setWidth_eq]
  | v6 ip zone =>
      have hlen : (Bytes.bePut 16 ip.toNat).length = 16 := Bytes.length_bePut 16 _
      have hplain : ∀ c ∈ expanded (Bytes.bePut 16 ip.toNat), decide (c ≠ percentByte) = true := by
        intro c hc
        rw [decide_eq_true_iff]
        rintro rfl
        exact not_mem_intercalate (by decide) (not_mem_hexGroups (.inr rfl) _) hc
      have hzone :
          (if zone = [] then [] else percentByte :: zone).takeWhile (· ≠ percentByte) = [] ∧
            ((if zone = [] then [] else percentByte :: zone).dropWhile (· ≠ percentByte)).drop 1
              = zone := by
        split
        · next hnil => simp [hnil]
        · simp
      rw [addrText, readAddr, if_pos (List.mem_append_left _ (colon_mem_expanded hlen)),
        List.takeWhile_append_of_pos hplain, List.dropWhile_append_of_pos hplain, hzone.1,
        hzone.2, List.append_nil, readExpanded_expanded hlen, Option.map_some, Bytes.beGet_bePut,
        show 256 ^ 16 = 2 ^ 128 from rfl, Nat.mod_eq_of_lt ip.isLt, BitVec.ofNat_toNat,
        BitVec.setWidth_eq]

theorem textualAddrs : discovery.TextualAddrs where
  addr a h := by
    show readAddr (ascii (plain (addrText a))) = some a
    rw [ascii_plain, readAddr_addrText h]
  ip ip h := by
    refine ⟨ip, ?_, by simp [ipEqual]⟩
    show readIP (ascii (plain (ipText ip))) = some ip
    rw [ascii_plain, ipText, readIP]
    rcases h with h | h
    · rw [if_pos h, if_neg (not_mem_quad _ (.inl rfl)), readQuad_quad h]
    · have hne : ¬ ip.length = 4 := by omega
      rw [if_neg hne, if_pos (colon_mem_expanded h), readExpanded_expanded h]

/-- An issued certificate parses. -/
theorem parseDER_issue (isCA : Bool) (name : Bytes) (ip : Vector UInt8 4) (bits : UInt8)
    (groups : List GoString) (key : Vector UInt8 32) :
    Certificate.parseDER platform (issue isCA name ip bits groups key).raw
      = .ok (issue isCA name ip bits groups key) := by
  have hca : ((if isCA then [1] else [0] : Bytes) == [1]) = isCA := by cases isCA <;> rfl
  have hip : Addr.fromSlice ip.toList
      = some (.v4 (BitVec.ofNat 32 (Bytes.beGet ip.toList))) := by
    simp [Addr.fromSlice]
  simp [Certificate.parseDER, issue, parseCertificate, der, hca, Certificate.readExtension,
    Certificate.decodeVpnIP, Certificate.decodeGroups, Certificate.decodeCurve25519Key, hip,
    unmarshalVpnIP, oidVpnIP, oidGroups, oidCurve25519Key, Fallible.bind_ok, Fallible.mapError_ok,
    Fallible.pure_ok]

end Symbolic

end Neth
