import MsgRiver.Lib.Bytes
import MsgRiver.Lib.Chunks
import MsgRiver.Lib.Text

/-!
# Path segments

A provider schema identifier stands in a path as the base64url form of its UTF-8 bytes, without
padding.

* `octets_sextets` and `sextets_octets`: three bytes and four values below 64 hold the same bits,
  and so do a shorter last group and its canonical values;
* `base64url_canonical`: decoder and encoder are inverse to each other, so that the decoder by
  itself refuses every other spelling, and the path codec accepts the encodings of the texts.
-/

namespace MsgRiver.Protocol

open Ascii Text Chunks Bytes

/-- A segment of a path, by what it names. -/
inductive PathSegment
  | providerId (value : String)
  | providerSchemaId (value : String)
  | messageId (value : String)
  deriving DecidableEq

/-- Why a segment is not accepted. -/
inductive PathReject
  | invalidProviderId
  | nonCanonicalBase64Url
  | invalidMessageId
  deriving DecidableEq

/-- What has become of a segment. -/
inductive PathDecodeResult
  | accepted (segment : PathSegment)
  | rejected (reason : PathReject)
  deriving DecidableEq

/-! ### The codec -/

/-- The value of a letter. -/
def base64urlValue (byte : UInt8) : Option UInt8 :=
  if 0x41 ≤ byte ∧ byte ≤ 0x5a then some (byte - 0x41)
  else if 0x61 ≤ byte ∧ byte ≤ 0x7a then some (byte - 0x61 + 26)
  else if 0x30 ≤ byte ∧ byte ≤ 0x39 then some (byte - 0x30 + 52)
  else if byte = 0x2d then some 62
  else if byte = 0x5f then some 63
  else none

/-- The bytes of four values. -/
def octet0 (a b : UInt8) : UInt8 := a <<< 2 ||| b >>> 4

/-- The second byte of a group. -/
def octet1 (b c : UInt8) : UInt8 := b <<< 4 ||| c >>> 2

/-- The third byte of a group. -/
def octet2 (c d : UInt8) : UInt8 := c <<< 6 ||| d

/-- The bytes of at most four values. -/
def decodeChunk (chunk : List UInt8) : List UInt8 :=
  octet0 (byteAt chunk 0) (chunk.getD 1 0)
    :: (if 2 < chunk.length then [octet1 (byteAt chunk 1) (byteAt chunk 2)] else [])
    ++ (if 3 < chunk.length then [octet2 (byteAt chunk 2) (byteAt chunk 3)] else [])

/-- The bytes of a list of values. -/
def octets (values : List UInt8) : List UInt8 := (chunks 4 values).flatMap decodeChunk

/-- The last group has at least two values, and no bits beyond its last byte. -/
def canonicalEnd (values : List UInt8) : Bool :=
  values.length % 4 != 1
  && !(values.length % 4 == 2 && values.getLastD 0 &&& 0x0f != 0)
  && !(values.length % 4 == 3 && values.getLastD 0 &&& 0x03 != 0)

/-- The bytes of a segment whose unused bits are zero. -/
def decodeBase64url (segment : String) : Option (List UInt8) :=
  ((utf8Bytes segment).mapM base64urlValue).bind fun values =>
    if canonicalEnd values then some (octets values) else none

/-- The letters in the order of their values. -/
def alphabet : List UInt8 :=
  codes "ABCDEFGHIJKLMNOPQRSTUVWXYZabcdefghijklmnopqrstuvwxyz0123456789-_".toList

/-- The values of three bytes. -/
def sextet0 (a : UInt8) : UInt8 := a >>> 2

/-- The second value of a group. -/
def sextet1 (a b : UInt8) : UInt8 := (a &&& 0x03) <<< 4 ||| b >>> 4

/-- The third value of a group. -/
def sextet2 (b c : UInt8) : UInt8 := (b &&& 0x0f) <<< 2 ||| c >>> 6

/-- The fourth value of a group. -/
def sextet3 (c : UInt8) : UInt8 := c &&& 0x3f

/-- The values of at most three bytes. -/
def encodeChunk (chunk : List UInt8) : List UInt8 :=
  sextet0 (byteAt chunk 0) :: sextet1 (byteAt chunk 0) (chunk.getD 1 0)
    :: (if 1 < chunk.length then [sextet2 (byteAt chunk 1) (chunk.getD 2 0)] else [])
    ++ (if 2 < chunk.length then [sextet3 (byteAt chunk 2)] else [])

/-- The values of a list of bytes. -/
def sextets (bytes : List UInt8) : List UInt8 := (chunks 3 bytes).flatMap encodeChunk

/-- The letter of a value. -/
def letter (value : UInt8) : UInt8 := byteAt alphabet value.toNat

/-- The segment of some bytes, without padding. -/
def encodeBase64url (bytes : List UInt8) : String :=
  String.ofList ((sextets bytes).map fun value => Char.ofNat (letter value).toNat)

/-- A segment that spells a text. -/
def providerSchemaId (segment : String) : PathDecodeResult :=
  match decodeBase64url segment with
  | none => .rejected .nonCanonicalBase64Url
  | some bytes =>
    match decodeUtf8 bytes with
    | none => .rejected .nonCanonicalBase64Url
    | some decoded =>
      if encodeBase64url (utf8Bytes (String.ofList decoded)) ≠ segment then
        .rejected .nonCanonicalBase64Url
      else .accepted (.providerSchemaId (String.ofList decoded))

/-! ### Bits of a byte -/

section Bits

variable (a b c : UInt8)

theorem toNat_sextet0 : (sextet0 a).toNat = a.toNat / 4 := toNat_shiftRight (by decide)

theorem toNat_low4 : (a &&& 0x0f).toNat = a.toNat % 16 := toNat_and 4 rfl

theorem toNat_low2 : (a &&& 0x03).toNat = a.toNat % 4 := toNat_and 2 rfl

theorem toNat_sextet3 : (sextet3 c).toNat = c.toNat % 64 := toNat_and 6 rfl

theorem toNat_sextet1 : (sextet1 a b).toNat = a.toNat % 4 * 16 + b.toNat / 16 := by
  have hb := b.toNat_lt
  have hhigh : (b >>> 4).toNat = b.toNat / 16 := toNat_shiftRight (by decide)
  have hlt : (b >>> 4).toNat < 2 ^ (4 : UInt8).toNat := by
    rw [hhigh]
    show b.toNat / 16 < 16
    omega
  rw [sextet1, toNat_shiftLeft_or (by decide) hlt, toNat_low2, hhigh]
  show a.toNat % 4 % 16 * 16 + _ = _
  omega

theorem toNat_sextet2 : (sextet2 b c).toNat = b.toNat % 16 * 4 + c.toNat / 64 := by
  have hc := c.toNat_lt
  have hhigh : (c >>> 6).toNat = c.toNat / 64 := toNat_shiftRight (by decide)
  have hlt : (c >>> 6).toNat < 2 ^ (2 : UInt8).toNat := by
    rw [hhigh]
    show c.toNat / 64 < 4
    omega
  rw [sextet2, toNat_shiftLeft_or (by decide) hlt, toNat_low4, hhigh]
  show b.toNat % 16 % 64 * 4 + _ = _
  omega

/-- Four values of three bytes are below 64. -/
theorem sextets_lt : (sextet0 a).toNat < 64 ∧ (sextet1 a b).toNat < 64 ∧ (sextet2 b c).toNat < 64 ∧
    (sextet3 c).toNat < 64 := by
  have ha := a.toNat_lt
  have hb := b.toNat_lt
  have hc := c.toNat_lt
  rw [toNat_sextet0, toNat_sextet1, toNat_sextet2, toNat_sextet3]
  omega

variable {a b c} {d : UInt8}

theorem toNat_octet0 (hb : b.toNat < 64) :
    (octet0 a b).toNat = a.toNat % 64 * 4 + b.toNat / 16 := by
  have hhigh : (b >>> 4).toNat = b.toNat / 16 := toNat_shiftRight (by decide)
  have hlt : (b >>> 4).toNat < 2 ^ (2 : UInt8).toNat := by
    rw [hhigh]
    show b.toNat / 16 < 4
    omega
  rw [octet0, toNat_shiftLeft_or (by decide) hlt, hhigh]
  rfl

theorem toNat_octet1 (hc : c.toNat < 64) :
    (octet1 b c).toNat = b.toNat % 16 * 16 + c.toNat / 4 := by
  have hhigh : (c >>> 2).toNat = c.toNat / 4 := toNat_shiftRight (by decide)
  have hlt : (c >>> 2).toNat < 2 ^ (4 : UInt8).toNat := by
    rw [hhigh]
    show c.toNat / 4 < 16
    omega
  rw [octet1, toNat_shiftLeft_or (by decide) hlt, hhigh]
  rfl

theorem toNat_octet2 (hd : d.toNat < 64) : (octet2 c d).toNat = c.toNat % 4 * 64 + d.toNat := by
  rw [octet2, toNat_shiftLeft_or (by decide) hd]
  rfl

/-! ### Three bytes and four values -/

theorem octet0_sextets (a b : UInt8) : octet0 (sextet0 a) (sextet1 a b) = a := by
  have ha := a.toNat_lt
  have hb := b.toNat_lt
  apply UInt8.toNat_inj.1
  rw [toNat_octet0 (sextets_lt a b 0).2.1, toNat_sextet0, toNat_sextet1]
  omega

theorem octet1_sextets (a b c : UInt8) : octet1 (sextet1 a b) (sextet2 b c) = b := by
  have hb := b.toNat_lt
  have hc := c.toNat_lt
  apply UInt8.toNat_inj.1
  rw [toNat_octet1 (sextets_lt a b c).2.2.1, toNat_sextet1, toNat_sextet2]
  omega

theorem octet2_sextets (b c : UInt8) : octet2 (sextet2 b c) (sextet3 c) = c := by
  have hc := c.toNat_lt
  apply UInt8.toNat_inj.1
  rw [toNat_octet2 (sextets_lt 0 b c).2.2.2, toNat_sextet2, toNat_sextet3]
  omega

theorem sextet0_octets (ha : a.toNat < 64) (hb : b.toNat < 64) : sextet0 (octet0 a b) = a := by
  apply UInt8.toNat_inj.1
  rw [toNat_sextet0, toNat_octet0 hb]
  omega

theorem sextet1_octets (hb : b.toNat < 64) (hc : c.toNat < 64) :
    sextet1 (octet0 a b) (octet1 b c) = b := by
  apply UInt8.toNat_inj.1
  rw [toNat_sextet1, toNat_octet0 hb, toNat_octet1 hc]
  omega

theorem sextet2_octets (hc : c.toNat < 64) (hd : d.toNat < 64) :
    sextet2 (octet1 b c) (octet2 c d) = c := by
  apply UInt8.toNat_inj.1
  rw [toNat_sextet2, toNat_octet1 hc, toNat_octet2 hd]
  omega

theorem sextet3_octets (hd : d.toNat < 64) : sextet3 (octet2 c d) = d := by
  apply UInt8.toNat_inj.1
  rw [toNat_sextet3, toNat_octet2 hd]
  omega

/-- The second value of a single byte. -/
theorem sextet1_zero (hb : b.toNat < 64) (hend : b &&& 0x0f = 0) : sextet1 (octet0 a b) 0 = b := by
  have hlow := toNat_low4 b
  rw [hend] at hlow
  apply UInt8.toNat_inj.1
  rw [toNat_sextet1, toNat_octet0 hb]
  rw [UInt8.toNat_zero] at hlow ⊢
  omega

/-- The third value of two bytes. -/
theorem sextet2_zero (hc : c.toNat < 64) (hend : c &&& 0x03 = 0) : sextet2 (octet1 b c) 0 = c := by
  have hlow := toNat_low2 c
  rw [hend] at hlow
  apply UInt8.toNat_inj.1
  rw [toNat_sextet2, toNat_octet1 hc]
  rw [UInt8.toNat_zero] at hlow ⊢
  omega

end Bits

/-! ### Groups -/

theorem sextets_three (a b c : UInt8) (rest : List UInt8) :
    sextets (a :: b :: c :: rest) =
      sextet0 a :: sextet1 a b :: sextet2 b c :: sextet3 c :: sextets rest := by
  have hchunks : chunks 3 (a :: b :: c :: rest) = [a, b, c] :: chunks 3 rest :=
    @chunks_append _ 3 [a, b, c] (by decide) rfl rest
  rw [sextets, hchunks]
  rfl

theorem octets_four (a b c d : UInt8) (rest : List UInt8) :
    octets (a :: b :: c :: d :: rest) = octet0 a b :: octet1 b c :: octet2 c d :: octets rest := by
  have hchunks : chunks 4 (a :: b :: c :: d :: rest) = [a, b, c, d] :: chunks 4 rest :=
    @chunks_append _ 4 [a, b, c, d] (by decide) rfl rest
  rw [octets, hchunks]
  rfl

/-- Values end as the rest behind a full group does. -/
theorem canonicalEnd_four (a b c d : UInt8) (rest : List UInt8) :
    canonicalEnd (a :: b :: c :: d :: rest) = canonicalEnd rest := by
  have hlength : (a :: b :: c :: d :: rest).length % 4 = rest.length % 4 := by
    simp only [List.length_cons]
    omega
  unfold canonicalEnd
  rw [hlength]
  cases rest with
  | nil => simp
  | cons e rest => rfl

/-- Values of bytes are below 64, end canonically, and hold the bytes. -/
theorem sextets_spec (bytes : List UInt8) :
    (∀ v ∈ sextets bytes, v.toNat < 64) ∧ canonicalEnd (sextets bytes) = true ∧
      octets (sextets bytes) = bytes := by
  induction hn : bytes.length using Nat.strong_induction_on generalizing bytes with
  | _ n ih =>
    rcases bytes with _ | ⟨a, _ | ⟨b, _ | ⟨c, rest⟩⟩⟩
    · exact ⟨fun v hv => absurd hv List.not_mem_nil, rfl, rfl⟩
    · have hone : sextets [a] = [sextet0 a, sextet1 a 0] := rfl
      obtain ⟨h0, h1, -⟩ := sextets_lt a 0 0
      have hlast : sextet1 a 0 &&& 0x0f = 0 := by
        apply UInt8.toNat_inj.1
        rw [toNat_low4, toNat_sextet1, UInt8.toNat_zero]
        omega
      refine ⟨by simpa [hone] using ⟨h0, h1⟩, ?_, congrArg (· :: []) (octet0_sextets a 0)⟩
      simp [hone, canonicalEnd, hlast]
    · have htwo : sextets [a, b] = [sextet0 a, sextet1 a b, sextet2 b 0] := rfl
      obtain ⟨h0, h1, h2, -⟩ := sextets_lt a b 0
      have hlast : sextet2 b 0 &&& 0x03 = 0 := by
        apply UInt8.toNat_inj.1
        rw [toNat_low2, toNat_sextet2, UInt8.toNat_zero]
        omega
      have hbytes : octets [sextet0 a, sextet1 a b, sextet2 b 0] =
          [octet0 (sextet0 a) (sextet1 a b), octet1 (sextet1 a b) (sextet2 b 0)] := rfl
      refine ⟨by simpa [htwo] using ⟨h0, h1, h2⟩, ?_, ?_⟩
      · simp [htwo, canonicalEnd, hlast]
      · rw [htwo, hbytes, octet0_sextets, octet1_sextets]
    · obtain ⟨h0, h1, h2, h3⟩ := sextets_lt a b c
      obtain ⟨hlt, hend, hbytes⟩ :=
        ih rest.length (by simp only [List.length_cons] at hn; omega) rest rfl
      refine ⟨?_, ?_, ?_⟩
      · simpa [sextets_three] using ⟨h0, h1, h2, h3, hlt⟩
      · rw [sextets_three, canonicalEnd_four]
        exact hend
      · rw [sextets_three, octets_four, hbytes, octet0_sextets, octet1_sextets, octet2_sextets]

/-- Canonical values are read back from their bytes. -/
theorem sextets_octets {values : List UInt8} (hlt : ∀ v ∈ values, v.toNat < 64)
    (hend : canonicalEnd values = true) : sextets (octets values) = values := by
  induction hn : values.length using Nat.strong_induction_on generalizing values with
  | _ n ih =>
    rcases values with _ | ⟨a, _ | ⟨b, _ | ⟨c, _ | ⟨d, rest⟩⟩⟩⟩
    · rfl
    · cases hend
    · have ha := hlt a (by simp)
      have hb := hlt b (by simp)
      have hlast : b &&& 0x0f = 0 := by simpa [canonicalEnd] using hend
      have hvalues : sextets (octets [a, b]) = [sextet0 (octet0 a b), sextet1 (octet0 a b) 0] := rfl
      rw [hvalues, sextet0_octets ha hb, sextet1_zero hb hlast]
    · have ha := hlt a (by simp)
      have hb := hlt b (by simp)
      have hc := hlt c (by simp)
      have hlast : c &&& 0x03 = 0 := by simpa [canonicalEnd] using hend
      have hvalues : sextets (octets [a, b, c]) = [sextet0 (octet0 a b),
          sextet1 (octet0 a b) (octet1 b c), sextet2 (octet1 b c) 0] := rfl
      rw [hvalues, sextet0_octets ha hb, sextet1_octets hb hc, sextet2_zero hc hlast]
    · have ha := hlt a (by simp)
      have hb := hlt b (by simp)
      have hc := hlt c (by simp)
      have hd := hlt d (by simp)
      rw [canonicalEnd_four] at hend
      have hrest := ih rest.length (by simp only [List.length_cons] at hn; omega)
        (fun v hv => hlt v (by simp [hv])) hend rfl
      rw [octets_four, sextets_three, hrest, sextet0_octets ha hb, sextet1_octets hb hc,
        sextet2_octets hc hd, sextet3_octets hd]

/-! ### Letters -/

/-- Every value has its letter. -/
theorem base64urlValue_letter {v : UInt8} (h : v.toNat < 64) :
    base64urlValue (letter v) = some v ∧ (letter v).toNat < 128 := by
  have hall : ∀ n < 64, base64urlValue (letter (UInt8.ofNat n)) = some (UInt8.ofNat n) ∧
      (letter (UInt8.ofNat n)).toNat < 128 := by decide +kernel
  have hv := hall v.toNat h
  rwa [UInt8.ofNat_toNat] at hv

/-- A byte with a value is the letter of the value. -/
theorem letter_of_base64urlValue {byte v : UInt8} (h : base64urlValue byte = some v) :
    letter v = byte ∧ v.toNat < 64 := by
  have hall : ∀ n < 256, (base64urlValue (UInt8.ofNat n)).all (fun v =>
      letter v == UInt8.ofNat n && decide (v.toNat < 64)) = true := by decide +kernel
  have hbyte := hall byte.toNat byte.toNat_lt
  rw [UInt8.ofNat_toNat, h, Option.all_some, Bool.and_eq_true, beq_iff_eq,
    decide_eq_true_eq] at hbyte
  exact hbyte

theorem mapM_base64urlValue_letter {values : List UInt8} (h : ∀ v ∈ values, v.toNat < 64) :
    (values.map letter).mapM base64urlValue = some values := by
  induction values with
  | nil => rfl
  | cons v values ih =>
    obtain ⟨hv, hvalues⟩ := List.forall_mem_cons.1 h
    rw [List.map_cons, List.mapM_cons, (base64urlValue_letter hv).1, ih hvalues]
    rfl

theorem map_letter_of_mapM {bytes values : List UInt8}
    (h : bytes.mapM base64urlValue = some values) :
    values.map letter = bytes ∧ ∀ v ∈ values, v.toNat < 64 := by
  induction bytes generalizing values with
  | nil =>
    cases h
    exact ⟨rfl, fun v hv => absurd hv List.not_mem_nil⟩
  | cons byte bytes ih =>
    rw [List.mapM_cons] at h
    obtain ⟨v, hv, h⟩ := Option.bind_eq_some_iff.1 h
    obtain ⟨rest, hrest, h⟩ := Option.bind_eq_some_iff.1 h
    cases h
    obtain ⟨hletter, hlt⟩ := letter_of_base64urlValue hv
    obtain ⟨hletters, hlts⟩ := ih hrest
    exact ⟨by rw [List.map_cons, hletter, hletters], List.forall_mem_cons.2 ⟨hlt, hlts⟩⟩

theorem toNat_charOfNat {n : Nat} (h : n < 128) : (Char.ofNat n).toNat = n := by
  rw [Char.ofNat, dif_pos (Or.inl (Nat.lt_trans h (by decide)))]
  rfl

/-- The letters are ASCII. -/
theorem utf8Bytes_encodeBase64url (bytes : List UInt8) :
    utf8Bytes (encodeBase64url bytes) = (sextets bytes).map letter := by
  have hlt := (sextets_spec bytes).1
  have hascii : ∀ v ∈ sextets bytes, (Char.ofNat (letter v).toNat).toNat = (letter v).toNat := by
    intro v hv
    exact toNat_charOfNat (base64urlValue_letter (hlt v hv)).2
  rw [encodeBase64url, utf8Bytes_of_ascii]
  · rw [codes, List.map_map]
    refine List.map_congr_left fun v hv => ?_
    rw [Function.comp_apply, hascii v hv, UInt8.ofNat_toNat]
  · intro c hc
    obtain ⟨v, hv, rfl⟩ := List.mem_map.1 hc
    rw [hascii v hv]
    exact (base64urlValue_letter (hlt v hv)).2

/-! ### Canonical spellings -/

theorem decodeBase64url_encodeBase64url (bytes : List UInt8) :
    decodeBase64url (encodeBase64url bytes) = some bytes := by
  obtain ⟨hlt, hend, hbytes⟩ := sextets_spec bytes
  rw [decodeBase64url, utf8Bytes_encodeBase64url, mapM_base64urlValue_letter hlt, Option.bind_some,
    if_pos hend, hbytes]

theorem encodeBase64url_of_decodeBase64url {segment : String} {bytes : List UInt8}
    (h : decodeBase64url segment = some bytes) : encodeBase64url bytes = segment := by
  obtain ⟨values, hvalues, h⟩ := Option.bind_eq_some_iff.1 h
  split_ifs at h with hend
  cases h
  obtain ⟨hletters, hlt⟩ := map_letter_of_mapM hvalues
  apply utf8Bytes_injective
  rw [utf8Bytes_encodeBase64url, sextets_octets hlt hend, hletters]

/-- The check after the decoder never fails. -/
theorem providerSchemaId_eq_accepted {segment : String} {accepted : PathSegment} :
    providerSchemaId segment = .accepted accepted ↔
      ∃ text : String, segment = encodeBase64url (utf8Bytes text) ∧
        accepted = .providerSchemaId text := by
  constructor
  · intro h
    unfold providerSchemaId at h
    cases hbytes : decodeBase64url segment with
    | none =>
      rw [hbytes] at h
      cases h
    | some bytes =>
      rw [hbytes] at h
      simp only at h
      cases hdecode : decodeUtf8 bytes with
      | none =>
        rw [hdecode] at h
        cases h
      | some decoded =>
        rw [hdecode] at h
        simp only at h
        split_ifs at h with hcheck
        cases h
        exact ⟨String.ofList decoded, (not_not.1 hcheck).symm, rfl⟩
  · rintro ⟨text, rfl, rfl⟩
    simp only [providerSchemaId, decodeBase64url_encodeBase64url, decodeUtf8_utf8Bytes,
      String.ofList_toList, ne_eq, not_true_eq_false, if_false]

/-- **The base64url spelling is canonical**: each of encoder and decoder inverts the other, and the
path codec accepts exactly the encodings of the texts, answering the text. -/
theorem base64url_canonical :
    (∀ bytes, decodeBase64url (encodeBase64url bytes) = some bytes) ∧
    (∀ segment bytes, decodeBase64url segment = some bytes ↔ encodeBase64url bytes = segment) ∧
    ∀ segment accepted, providerSchemaId segment = .accepted accepted ↔
      ∃ text : String, segment = encodeBase64url (utf8Bytes text) ∧
        accepted = .providerSchemaId text := by
  refine ⟨decodeBase64url_encodeBase64url, fun segment bytes => ?_,
    fun _ _ => providerSchemaId_eq_accepted⟩
  constructor
  · exact encodeBase64url_of_decodeBase64url
  · rintro rfl
    exact decodeBase64url_encodeBase64url bytes

example : encodeBase64url [0x6d, 0x73, 0x67, 0xff] = "bXNn_w" := by decide +kernel

end MsgRiver.Protocol
