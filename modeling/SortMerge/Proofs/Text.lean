import SortMerge.Bytes

set_option autoImplicit false

/-! # Texts, bytes and hexadecimal digits

A text is known by its UTF-8 bytes, and a text of hexadecimal digits by the bytes that the pairs of
digits stand for. -/

/-! ## Texts as bytes

A position in the bytes of a text is a place to cut the text if it lies between two characters;
`IsPart` says what stands between two such positions, and there is never more than one part between
them. Characters below 128 are one byte each, so a text of these may be cut anywhere. -/

namespace SortMerge.Text

/-! ### Bytes in a list -/

/-- Listing the bytes of an array from a place on. -/
theorem toList_loop_eq (bytes : ByteArray) (i : Nat) (front : List UInt8) :
    ByteArray.toList.loop bytes i front = front.reverse ++ bytes.data.toList.drop i := by
  induction hrest : bytes.data.toList.length - i generalizing i front with
  | zero =>
      have hend : ¬ i < bytes.size := by
        show ¬ i < bytes.data.toList.length
        omega
      rw [ByteArray.toList.loop, if_neg hend, List.drop_eq_nil_of_le (by omega), List.append_nil]
  | succ rest ih =>
      have hlt : i < bytes.data.toList.length := by omega
      have hsize : i < bytes.size := hlt
      have hget : bytes.get! i = bytes.data.toList[i] := by
        show bytes.data[i]! = bytes.data.toList[i]
        simp [hsize]
      rw [ByteArray.toList.loop, if_pos hsize, ih (i + 1) _ (by omega), hget,
        List.drop_eq_getElem_cons hlt]
      simp

theorem toList_eq (bytes : ByteArray) : bytes.toList = bytes.data.toList := by
  rw [ByteArray.toList, toList_loop_eq, List.reverse_nil, List.nil_append, List.drop_zero]

/-- Texts with the same bytes are the same. -/
theorem toUTF8_toList_inj {s t : String} (h : s.toUTF8.toList = t.toUTF8.toList) : s = t := by
  have hdata : s.toUTF8.data.toList = t.toUTF8.data.toList := by
    rwa [toList_eq, toList_eq] at h
  exact String.toByteArray_inj.1 (ByteArray.ext (Array.toList_inj.1 hdata))

theorem toUTF8_append (s t : String) :
    (s ++ t).toUTF8.toList = s.toUTF8.toList ++ t.toUTF8.toList := by
  simp only [toList_eq, String.toUTF8_eq_toByteArray, String.toByteArray_append,
    ByteArray.data_append, Array.toList_append]

theorem utf8ByteSize_eq (s : String) : s.utf8ByteSize = s.toUTF8.toList.length := by
  rw [toList_eq, Array.length_toList, ← String.size_toByteArray]
  rfl

/-! ### Parts -/

/-- Two beginnings of a text that are equally many bytes long are the same. -/
theorem append_inj_of_utf8ByteSize {s s' t t' : String} (h : s ++ t = s' ++ t')
    (hsize : s.utf8ByteSize = s'.utf8ByteSize) : s = s' ∧ t = t' := by
  have hbytes := congrArg (fun text => text.toUTF8.toList) h
  simp only [toUTF8_append] at hbytes
  rw [utf8ByteSize_eq, utf8ByteSize_eq] at hsize
  obtain ⟨hfront, hback⟩ := List.append_inj hbytes hsize
  exact ⟨toUTF8_toList_inj hfront, toUTF8_toList_inj hback⟩

/-- The part of a text between two byte positions, each of which lies between two characters or at
    an end of the text. -/
def IsPart (s : String) (first stop : Nat) (part : String) : Prop :=
  ∃ before after, s = before ++ part ++ after ∧ before.utf8ByteSize = first ∧
    (before ++ part).utf8ByteSize = stop

theorem IsPart.unique {s part part' : String} {first stop : Nat} (h : IsPart s first stop part)
    (h' : IsPart s first stop part') : part = part' := by
  obtain ⟨before, after, hs, hfirst, hstop⟩ := h
  obtain ⟨before', after', hs', hfirst', hstop'⟩ := h'
  obtain ⟨hfront, -⟩ := append_inj_of_utf8ByteSize (hs.symm.trans hs') (hstop.trans hstop'.symm)
  exact (append_inj_of_utf8ByteSize hfront (hfirst.trans hfirst'.symm)).2

/-! ### Characters of one byte -/

theorem utf8EncodeChar_of_lt {c : Char} (h : c.toNat < 128) :
    String.utf8EncodeChar c = [c.toUInt8] := by
  have hval : c.val ≤ 127 := by
    rw [UInt32.le_iff_toNat_le, Char.toNat_val]
    exact Nat.le_of_lt_succ h
  exact String.utf8EncodeChar_eq_singleton (if_pos hval)

/-- Characters below 128 are written as their codes. -/
theorem toUTF8_ofList {cs : List Char} (h : ∀ c ∈ cs, c.toNat < 128) :
    (String.ofList cs).toUTF8.toList = cs.map Char.toUInt8 := by
  rw [toList_eq, String.toUTF8_eq_toByteArray, String.toByteArray_ofList]
  induction cs with
  | nil => rfl
  | cons c cs ih =>
      rw [List.forall_mem_cons] at h
      rw [List.utf8Encode_cons, List.utf8Encode_singleton, utf8EncodeChar_of_lt h.1]
      simp [ih h.2]

theorem utf8ByteSize_ofList {cs : List Char} (h : ∀ c ∈ cs, c.toNat < 128) :
    (String.ofList cs).utf8ByteSize = cs.length := by
  rw [utf8ByteSize_eq, toUTF8_ofList h, List.length_map]

/-- Among characters of one byte every position lies between two characters. -/
theorem isPart_ofList {before part after : List Char}
    (h : ∀ c ∈ before ++ part ++ after, c.toNat < 128) :
    IsPart (String.ofList (before ++ part ++ after)) before.length (before.length + part.length)
      (String.ofList part) := by
  simp only [List.forall_mem_append] at h
  have hbefore := utf8ByteSize_ofList h.1.1
  have hpart := utf8ByteSize_ofList h.1.2
  refine ⟨String.ofList before, String.ofList after, ?_, hbefore, ?_⟩
  · rw [String.ofList_append, String.ofList_append]
  · rw [String.utf8ByteSize_append, hbefore, hpart]

end SortMerge.Text

/-! ## Hexadecimal text that reads back

Twenty-two characters are digits, and the lower case of a digit is what is written for its value. So
characters are read as some bytes exactly if all of them are digits and their lower case is what is
written for the bytes (`decode_eq_some_iff`). Any even number of digits is read.

Digits take one byte each, and a text whose bytes all stand for digits consists of these digits. -/

namespace SortMerge.Text.Hex

/-! ### Digits -/

/-- The characters that are read as digits. -/
def digits : List Char :=
  ['0', '1', '2', '3', '4', '5', '6', '7', '8', '9', 'a', 'b', 'c', 'd', 'e', 'f',
    'A', 'B', 'C', 'D', 'E', 'F']

theorem lt_of_mem_digits {c : Char} (h : c ∈ digits) : c.toNat < 128 := by
  have hall : digits.all (fun c => c.toNat < 128) = true := by decide
  simpa using List.all_eq_true.1 hall c h

theorem exists_digitValue? {c : Char} (h : c ∈ digits) : ∃ d, digitValue? c = some d := by
  have hall : digits.all (fun c => (digitValue? c).isSome) = true := by decide
  exact Option.isSome_iff_exists.1 (List.all_eq_true.1 hall c h)

theorem digitValue?_digitChar {d : Nat} (h : d < 16) :
    digitValue? (Nat.digitChar d) = some d := by
  have hall : ∀ d < 16, digitValue? (Nat.digitChar d) = some d := by decide
  exact hall d h

theorem lt_of_digitValue? {c : Char} {d : Nat} (h : digitValue? c = some d) :
    c.toNat < 128 ∧ d < 16 := by
  have h0 : '0'.toNat = 48 := rfl
  have h9 : '9'.toNat = 57 := rfl
  have ha : 'a'.toNat = 97 := rfl
  have hf : 'f'.toNat = 102 := rfl
  have hA : 'A'.toNat = 65 := rfl
  have hF : 'F'.toNat = 70 := rfl
  simp only [digitValue?, Char.le_def, UInt32.le_iff_toNat_le, Char.toNat_val] at h
  split at h
  · cases h
    omega
  · split at h
    · cases h
      omega
    · split at h
      · cases h
        omega
      · cases h

/-- The value of a digit is the one for which its lower case is written. -/
theorem digitValue?_eq_some_iff {c : Char} {d : Nat} :
    digitValue? c = some d ↔ c ∈ digits ∧ d < 16 ∧ Nat.digitChar d = c.toLower := by
  have hlower : ∀ {c d}, digitValue? c = some d → c ∈ digits ∧ Nat.digitChar d = c.toLower := by
    intro c d h
    have hall : ∀ n < 128, (digitValue? (Char.ofNat n)).all (fun d =>
        decide (Char.ofNat n ∈ digits ∧ Nat.digitChar d = (Char.ofNat n).toLower)) = true := by
      decide
    have hcode := hall c.toNat (lt_of_digitValue? h).1
    rw [Char.ofNat_toNat, h, Option.all_some] at hcode
    exact of_decide_eq_true hcode
  constructor
  · intro h
    exact ⟨(hlower h).1, (lt_of_digitValue? h).2, (hlower h).2⟩
  · rintro ⟨hc, hd, hwritten⟩
    obtain ⟨e, he⟩ := exists_digitValue? hc
    -- the digit has a value, and it is the only one for which the lower case is written
    have hvalue := digitValue?_digitChar hd
    rw [hwritten, ← (hlower he).2, digitValue?_digitChar (lt_of_digitValue? he).2] at hvalue
    rw [he, hvalue]

/-! ### Bytes -/

theorem toNat_ofPair {x y : Nat} (hx : x < 16) (hy : y < 16) :
    (UInt8.ofNat (16 * x + y)).toNat = 16 * x + y :=
  UInt8.toNat_ofNat_of_lt' (show 16 * x + y < 256 by omega)

/-- What is written for a byte that two digits spell is their lower case. -/
theorem byteChars_ofPair {high low : Char} {x y : Nat} (hhigh : digitValue? high = some x)
    (hlow : digitValue? low = some y) :
    byteChars (UInt8.ofNat (16 * x + y)) = [high.toLower, low.toLower] := by
  obtain ⟨-, hx, hx'⟩ := digitValue?_eq_some_iff.1 hhigh
  obtain ⟨-, hy, hy'⟩ := digitValue?_eq_some_iff.1 hlow
  rw [byteChars, toNat_ofPair hx hy, show (16 * x + y) / 16 = x by omega,
    show (16 * x + y) % 16 = y by omega, hx', hy']

theorem encode_cons (b : UInt8) (bs : List UInt8) : encode (b :: bs) = byteChars b ++ encode bs :=
  List.flatMap_cons

theorem ofNat_halves (b : UInt8) : UInt8.ofNat (16 * (b.toNat / 16) + b.toNat % 16) = b := by
  rw [Nat.div_add_mod, UInt8.ofNat_toNat]

theorem decode_pair {high low : Char} {x y : Nat} (hhigh : digitValue? high = some x)
    (hlow : digitValue? low = some y) (cs : List Char) :
    decode (high :: low :: cs) = (decode cs).map (UInt8.ofNat (16 * x + y) :: ·) := by
  rw [decode, hhigh, hlow]
  cases decode cs <;> rfl

theorem encode_of_decode {cs : List Char} {bs : List UInt8} (h : decode cs = some bs) :
    (∀ c ∈ cs, c ∈ digits) ∧ encode bs = cs.map Char.toLower := by
  fun_induction decode cs generalizing bs with
  | case1 =>
      cases h
      simp [encode]
  | case2 => cases h
  | case3 high low cs x y rest hrest hlow hhigh ih =>
      cases h
      obtain ⟨hdigits, hencode⟩ := ih hrest
      rw [encode_cons, hencode, byteChars_ofPair hhigh hlow]
      have hhigh := (digitValue?_eq_some_iff.1 hhigh).1
      have hlow := (digitValue?_eq_some_iff.1 hlow).1
      simp only [List.forall_mem_cons]
      exact ⟨⟨hhigh, hlow, hdigits⟩, rfl⟩
  | case4 => cases h

/-- An even number of digits is read. -/
theorem exists_decode {n : Nat} {cs : List Char} (hlength : cs.length = 2 * n)
    (hdigits : ∀ c ∈ cs, c ∈ digits) : ∃ bs, decode cs = some bs := by
  induction n generalizing cs with
  | zero => exact ⟨[], by rw [List.length_eq_zero_iff.1 hlength, decode]⟩
  | succ n ih =>
      match cs, hlength, hdigits with
      | high :: low :: cs, hlength, hdigits =>
          simp only [List.length_cons] at hlength
          simp only [List.forall_mem_cons] at hdigits
          obtain ⟨x, hx⟩ := exists_digitValue? hdigits.1
          obtain ⟨y, hy⟩ := exists_digitValue? hdigits.2.1
          obtain ⟨bs, hbs⟩ := ih (by omega) hdigits.2.2
          exact ⟨UInt8.ofNat (16 * x + y) :: bs, by rw [decode_pair hx hy, hbs, Option.map_some]⟩

/-- The written digits are in lower case already. -/
theorem decode_encode (bs : List UInt8) : decode (encode bs) = some bs := by
  induction bs with
  | nil => rfl
  | cons b bs ih =>
      have hb := b.toNat_lt
      have hhigh := digitValue?_digitChar (show b.toNat / 16 < 16 by omega)
      have hlow := digitValue?_digitChar (show b.toNat % 16 < 16 by omega)
      rw [encode_cons, byteChars, List.cons_append, List.cons_append, List.nil_append,
        decode_pair hhigh hlow, ih, Option.map_some, ofNat_halves]

theorem length_of_decode {cs : List Char} {bs : List UInt8} (h : decode cs = some bs) :
    cs.length = 2 * bs.length := by
  rw [← length_encode, (encode_of_decode h).2, List.length_map]

/-- Characters are read as the bytes for which their lower case is written, if they are digits. -/
theorem decode_eq_some_iff {cs : List Char} {bs : List UInt8} :
    decode cs = some bs ↔ (∀ c ∈ cs, c ∈ digits) ∧ encode bs = cs.map Char.toLower := by
  constructor
  · exact encode_of_decode
  · rintro ⟨hdigits, hencode⟩
    have hlength : cs.length = 2 * bs.length := by
      rw [← length_encode, hencode, List.length_map]
    obtain ⟨bs', h'⟩ := exists_decode hlength hdigits
    have hsame := congrArg decode ((encode_of_decode h').2.trans hencode.symm)
    rw [decode_encode, decode_encode] at hsame
    rw [h', hsame]

/-! ### Pairs of digits -/

/-- The byte at a place was read from the two digits at twice that place. -/
theorem exists_pair_of_decode {cs : List Char} {bs : List UInt8} (h : decode cs = some bs) {i : Nat}
    {b : UInt8} (hb : bs[i]? = some b) :
    ∃ before after high low x y, cs = before ++ high :: low :: after ∧ before.length = 2 * i ∧
      digitValue? high = some x ∧ digitValue? low = some y ∧ b = UInt8.ofNat (16 * x + y) := by
  fun_induction decode cs generalizing bs i with
  | case1 => cases h; cases hb
  | case2 => cases h
  | case3 high low cs x y rest hrest hlow hhigh ih =>
      cases h
      cases i with
      | zero =>
          cases hb
          exact ⟨[], cs, high, low, x, y, rfl, rfl, hhigh, hlow, rfl⟩
      | succ i =>
          obtain ⟨before, after, high', low', x', y', rfl, hlength, hpair⟩ := ih hrest hb
          exact ⟨high :: low :: before, after, high', low', x', y', rfl, by simp [hlength]; omega,
            hpair⟩
  | case4 => cases h

/-! ### Bytes that stand for digits -/

/-- The bytes that stand for digits. -/
def digitBytes : List UInt8 := digits.map Char.toUInt8

theorem exists_digits_of_bytes {bs : List UInt8} (h : ∀ b ∈ bs, b ∈ digitBytes) :
    ∃ cs : List Char, (∀ c ∈ cs, c ∈ digits) ∧ cs.map Char.toUInt8 = bs := by
  induction bs with
  | nil => exact ⟨[], by simp, rfl⟩
  | cons b bs ih =>
      rw [List.forall_mem_cons] at h
      obtain ⟨c, hc, rfl⟩ := List.mem_map.1 h.1
      obtain ⟨cs, hcs, rfl⟩ := ih h.2
      exact ⟨c :: cs, List.forall_mem_cons.2 ⟨hc, hcs⟩, rfl⟩

/-- A text whose bytes all stand for digits consists of digits. -/
theorem forall_mem_digitBytes_iff {s : String} :
    (∀ b ∈ s.toUTF8.toList, b ∈ digitBytes) ↔ ∀ c ∈ s.toList, c ∈ digits := by
  constructor
  · intro h
    obtain ⟨cs, hdigits, hbytes⟩ := exists_digits_of_bytes h
    -- the text of these digits has the same bytes, so it is the text
    have hsame := (toUTF8_ofList fun c hc => lt_of_mem_digits (hdigits c hc)).trans hbytes
    rw [← toUTF8_toList_inj hsame, String.toList_ofList]
    exact hdigits
  · intro h b hb
    have hbytes := toUTF8_ofList fun c hc => lt_of_mem_digits (h c hc)
    rw [String.ofList_toList] at hbytes
    rw [hbytes] at hb
    obtain ⟨c, hc, rfl⟩ := List.mem_map.1 hb
    exact List.mem_map_of_mem (h c hc)

end SortMerge.Text.Hex
