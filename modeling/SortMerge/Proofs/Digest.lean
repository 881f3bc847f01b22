import SortMerge.Manifest
import SortMerge.Proofs.Json.Meaning
import SortMerge.Proofs.Text

set_option autoImplicit false

/-! # Digests that read back

A digest is read from a text exactly if the text is 64 hexadecimal digits, and then the digest is
written as the text in lower case. What is written for a digest is therefore read back, also from
its JSON string.

Reading looks at characters. `ReadsByPositions` says what a reader does that works on the bytes of
the text: it checks that there are 64 and that all of them stand for digits, cuts the text at every
second byte position, and takes each part as a number to base 16, for which a sign in front of the
digits would be in order. The check is what keeps the cuts between characters and the signs out, and
the outcome is the same. -/

namespace SortMerge

namespace Digest

open Text (IsPart)

/-! ## Digits -/

/-- The text is 64 hexadecimal digits, each in either case. -/
def IsSpelling (s : String) : Prop :=
  s.toList.length = 64 ∧ ∀ c ∈ s.toList, c ∈ Text.Hex.digits

theorem ext_bytes {d d' : Digest} (h : d.bytes = d'.bytes) : d = d' := by
  cases d
  cases d'
  cases h
  rfl

theorem toList_toHex (d : Digest) : d.toHex.toList = Text.Hex.encode d.bytes := by
  rw [toHex, String.toList_ofList]

theorem toList_toLower (s : String) : s.toLower.toList = s.toList.map Char.toLower :=
  String.toList_map

theorem decode_eq_of_ofHex? {s : String} {d : Digest} (h : ofHex? s = some d) :
    Text.Hex.decode s.toList = some d.bytes := by
  rw [ofHex?] at h
  split at h
  · cases h
  · next bytes hbytes =>
      split at h
      · cases h
        exact hbytes
      · cases h

theorem ofHex?_eq_some_iff {s : String} {d : Digest} :
    ofHex? s = some d ↔ Text.Hex.decode s.toList = some d.bytes := by
  constructor
  · exact decode_eq_of_ofHex?
  · intro h
    simp only [ofHex?, h, d.length_eq, dif_pos]

/-- A text is read as the digest that is written as its lower case, if it consists of digits. -/
theorem ofHex?_eq_some_iff_toHex {s : String} {d : Digest} :
    ofHex? s = some d ↔ (∀ c ∈ s.toList, c ∈ Text.Hex.digits) ∧ d.toHex = s.toLower := by
  rw [ofHex?_eq_some_iff, Text.Hex.decode_eq_some_iff, ← toList_toHex, ← toList_toLower,
    String.toList_inj]

theorem length_toHex (d : Digest) : d.toHex.toList.length = 64 := by
  rw [toList_toHex, Text.Hex.length_encode, d.length_eq]

theorem exists_ofHex?_iff {s : String} : (∃ d, ofHex? s = some d) ↔ IsSpelling s := by
  constructor
  · rintro ⟨d, hd⟩
    obtain ⟨hdigits, hlower⟩ := ofHex?_eq_some_iff_toHex.1 hd
    have hlength := d.length_toHex
    rw [hlower, toList_toLower, List.length_map] at hlength
    exact ⟨hlength, hdigits⟩
  · rintro ⟨hlength, hdigits⟩
    obtain ⟨bytes, hbytes⟩ := Text.Hex.exists_decode (n := 32) hlength hdigits
    have hlength' := Text.Hex.length_of_decode hbytes
    exact ⟨⟨bytes, by omega⟩, ofHex?_eq_some_iff.2 hbytes⟩

theorem ofHex?_toHex (d : Digest) : ofHex? d.toHex = some d := by
  rw [ofHex?_eq_some_iff, toList_toHex, Text.Hex.decode_encode]

theorem ofHex?_eq_none_iff {s : String} : ofHex? s = none ↔ ¬IsSpelling s := by
  rw [← exists_ofHex?_iff, ← Option.isSome_iff_exists, Option.not_isSome_iff_eq_none]

/-! ## Byte positions -/

/-- The text takes 64 bytes, and all of them stand for hexadecimal digits. -/
def IsSpellingInBytes (s : String) : Prop :=
  s.utf8ByteSize = 64 ∧ ∀ b ∈ s.toUTF8.toList, b ∈ Text.Hex.digitBytes

theorem isSpellingInBytes_iff {s : String} : IsSpellingInBytes s ↔ IsSpelling s := by
  rw [IsSpellingInBytes, IsSpelling, Text.Hex.forall_mem_digitBytes_iff]
  refine and_congr_left fun hdigits => ?_
  have hsize := Text.utf8ByteSize_ofList fun c hc => Text.Hex.lt_of_mem_digits (hdigits c hc)
  rw [String.ofList_toList] at hsize
  rw [hsize]

/-- The byte that a reader of numbers to base 16 finds: digits, with a plus sign in front of them if
    there is one, and a number below 256. -/
def byteOfNumber? (cs : List Char) : Option UInt8 :=
  let unsigned := if cs.head? = some '+' then cs.tail else cs
  if unsigned = [] then none
  else
    match Text.Hex.natOfDigits? unsigned with
    | none => none
    | some n => if n < UInt8.size then some (UInt8.ofNat n) else none

/-- The outcome of reading the text by byte positions: nothing if the bytes are not what they should
    be, and otherwise the digest whose bytes are the numbers in the parts of two bytes. -/
def ReadsByPositions (s : String) : Option Digest → Prop
  | none => ¬IsSpellingInBytes s
  | some d => IsSpellingInBytes s ∧ ∀ i < 32, ∃ part b, IsPart s (2 * i) (2 * i + 2) part ∧
      byteOfNumber? part.toList = some b ∧ d.bytes[i]? = some b

/-- Two digits have no sign in front, and the number they spell is the byte. -/
theorem byteOfNumber?_pair {high low : Char} {x y : Nat}
    (hhigh : Text.Hex.digitValue? high = some x) (hlow : Text.Hex.digitValue? low = some y) :
    byteOfNumber? [high, low] = some (UInt8.ofNat (16 * x + y)) := by
  have hx := (Text.Hex.lt_of_digitValue? hhigh).2
  have hy := (Text.Hex.lt_of_digitValue? hlow).2
  have hsign : high ≠ '+' := by
    rintro rfl
    cases hhigh
  have hnumber : Text.Hex.natOfDigits? [high, low] = some (16 * x + y) := by
    simp [Text.Hex.natOfDigits?, hhigh, hlow]
  have hlt : 16 * x + y < UInt8.size := show 16 * x + y < 256 by omega
  simp [byteOfNumber?, hsign, hnumber, hlt]

/-- What is read by positions is what is read by characters. -/
theorem readsByPositions_ofHex? (s : String) : ReadsByPositions s (ofHex? s) := by
  cases hread : ofHex? s with
  | none => rwa [ReadsByPositions, isSpellingInBytes_iff, ← ofHex?_eq_none_iff]
  | some d =>
      have hspelling := exists_ofHex?_iff.1 ⟨d, hread⟩
      refine ⟨isSpellingInBytes_iff.2 hspelling, fun i hi => ?_⟩
      have hbyte := List.getElem?_eq_getElem (show i < d.bytes.length by rw [d.length_eq]; exact hi)
      obtain ⟨before, after, high, low, x, y, hsplit, hlength, hhigh, hlow, hvalue⟩ :=
        Text.Hex.exists_pair_of_decode (decode_eq_of_ofHex? hread) hbyte
      have hsplit : s.toList = before ++ [high, low] ++ after := by simpa using hsplit
      have hpart := Text.isPart_ofList fun c hc =>
        Text.Hex.lt_of_mem_digits (hspelling.2 c (hsplit ▸ hc))
      rw [← hsplit, String.ofList_toList, hlength] at hpart
      refine ⟨String.ofList [high, low], _, hpart, ?_, hbyte⟩
      rw [String.toList_ofList, byteOfNumber?_pair hhigh hlow, hvalue]

/-- Reading by positions has one outcome. -/
theorem ReadsByPositions.unique {s : String} {r r' : Option Digest} (h : ReadsByPositions s r)
    (h' : ReadsByPositions s r') : r = r' := by
  cases r with
  | none =>
      cases r' with
      | none => rfl
      | some d' => exact absurd h'.1 h
  | some d =>
      cases r' with
      | none => exact absurd h.1 h'
      | some d' =>
          refine congrArg some (ext_bytes (List.ext_getElem? fun i => ?_))
          by_cases hi : i < 32
          · obtain ⟨part, b, hpart, hnumber, hb⟩ := h.2 i hi
            obtain ⟨part', b', hpart', hnumber', hb'⟩ := h'.2 i hi
            rw [hpart.unique hpart', hnumber'] at hnumber
            rw [hb, hb', hnumber]
          · rw [List.getElem?_eq_none (by rw [d.length_eq]; omega),
              List.getElem?_eq_none (by rw [d'.length_eq]; omega)]

theorem readsByPositions_iff {s : String} {r : Option Digest} :
    ReadsByPositions s r ↔ r = ofHex? s := by
  constructor
  · intro h
    exact h.unique (readsByPositions_ofHex? s)
  · rintro rfl
    exact readsByPositions_ofHex? s

/-! ## JSON -/

/-- A JSON string is read as the digest that its text spells. -/
theorem digestOfDoc?_render (s : String) :
    (Json.read? (Json.ofString s).render).bind Manifest.digestOfDoc? = ofHex? s := by
  have hwritten : (Json.ofString s).WrittenWith Numeral.IsSpelled := .text s
  rw [Json.read?_render hwritten (Nat.zero_le _), Json.meaning_ofString, Option.bind_some,
    Manifest.digestOfDoc?, Doc.text?, Option.bind_some]

/-! ## The two directions -/

/-- A digest is read from the texts of 64 hexadecimal digits and from no others. It is then written
    as the text in lower case, and it is the digest that byte positions give. What is written for a
    digest is read back, also from a JSON string. -/
theorem hex_reads_back :
    (∀ s, (∃ d, ofHex? s = some d) ↔ IsSpelling s) ∧
      (∀ s d, ofHex? s = some d ↔
        (∀ c ∈ s.toList, c ∈ Text.Hex.digits) ∧ d.toHex = s.toLower) ∧
      (∀ s r, ReadsByPositions s r ↔ r = ofHex? s) ∧
      (∀ d : Digest, ofHex? d.toHex = some d) ∧
      ∀ d : Digest,
        (Json.read? (Json.ofString d.toHex).render).bind Manifest.digestOfDoc? = some d := by
  refine ⟨fun s => exists_ofHex?_iff, fun s d => ofHex?_eq_some_iff_toHex,
    fun s r => readsByPositions_iff, ofHex?_toHex, fun d => ?_⟩
  rw [digestOfDoc?_render, ofHex?_toHex]

end Digest

end SortMerge
