import SortMerge.Json.Token
import SortMerge.Proofs.Lists
import SortMerge.Proofs.Numeral
import SortMerge.Proofs.Text

set_option autoImplicit false

/-! # Tokens that scan back

A token is spelled if its characters say what it is: a numeral has digits in its fraction, and a
string literal stands for a text. Words and numerals are bare, that is, only what comes next shows
where they end, so two of them may not stand side by side. Spelled tokens without bare neighbours
are scanned as they were written (`Token.scan_flatMap_chars`). -/

namespace SortMerge.Json

/-! ## String literals -/

theorem joinPieces_map_char (cs : List Char) : joinPieces (cs.map .char) = some cs := by
  induction cs with
  | nil => rfl
  | cons c cs ih => rw [List.map_cons, joinPieces, ih, Option.map_some]

/-- A unit below the surrogates stands for its own character. -/
theorem Piece.ofUnit_toNat {c : Char} (h : c.toNat < 0xD800) : Piece.ofUnit c.toNat = .char c := by
  have hunit : ¬(0xD800 ≤ c.toNat ∧ c.toNat < 0xE000) := by omega
  rw [Piece.ofUnit, if_neg hunit, Char.ofNat_toNat]

namespace Scanner

variable {done : List Token} {seen : List Piece}

/-- Inside a literal, the escape of a control character is four digits after its mark. -/
theorem foldlM_step_unit {c : Char} (h : c.toNat < 0x20) :
    ['\\', 'u', '0', '0', Nat.digitChar (c.toNat / 16), Nat.digitChar (c.toNat % 16)].foldlM step
        ⟨done, .literal seen⟩
      = some ⟨done, .literal (.char c :: seen)⟩ := by
  have hhigh := Text.Hex.digitValue?_digitChar (d := c.toNat / 16) (by omega)
  have hlow := Text.Hex.digitValue?_digitChar (d := c.toNat % 16) (by omega)
  have hzero : Text.Hex.digitValue? '0' = some 0 := rfl
  have hunit : 16 * (c.toNat / 16) + c.toNat % 16 = c.toNat := by omega
  have hpiece : Piece.ofUnit c.toNat = .char c := Piece.ofUnit_toNat (by omega)
  simp [step, hzero, hhigh, hlow, Text.Hex.natOfDigits?, hunit, hpiece]

/-- Inside a literal, an escaped character is read as that character. -/
theorem foldlM_step_escape (c : Char) :
    (escape c).foldlM step ⟨done, .literal seen⟩ = some ⟨done, .literal (.char c :: seen)⟩ := by
  unfold escape
  split
  -- a character without a letter of its own: a control character, or one that stands for itself
  case h_8 hquote hslash _ _ _ _ _ =>
    have hquote : c ≠ '"' := hquote
    have hslash : c ≠ '\\' := hslash
    split
    · next hcontrol => exact foldlM_step_unit hcontrol
    · next hcontrol => simp [step, hquote, hslash, hcontrol]
  all_goals rfl

theorem foldlM_step_escapes (cs : List Char) :
    (cs.flatMap escape).foldlM step ⟨done, .literal seen⟩
      = some ⟨done, .literal ((cs.map .char).reverse ++ seen)⟩ := by
  induction cs generalizing seen with
  | nil => rfl
  | cons c cs ih =>
      rw [List.flatMap_cons, foldlM_append_some (foldlM_step_escape c), ih]
      simp

theorem foldlM_step_quoted (s : String) :
    (quoted s).foldlM step ⟨done, .between⟩ = some ⟨.text (some s) :: done, .between⟩ := by
  have hopen : step ⟨done, .between⟩ '"' = some ⟨done, .literal []⟩ := rfl
  have hclose : step ⟨done, .literal ((s.toList.map .char).reverse ++ [])⟩ '"'
      = some ⟨.text (some s) :: done, .between⟩ := by
    simp [step, joinPieces_map_char]
  rw [quoted, List.cons_append, foldlM_cons_some hopen,
    foldlM_append_some (foldlM_step_escapes s.toList), foldlM_cons_some hclose]
  rfl

end Scanner

/-! ## Spelled tokens -/

/-- The characters of the token say what it is. -/
def Token.IsSpelled : Token → Prop
  | .number n => n.IsSpelled
  | .text s => s.isSome
  | _ => True

/-- Words and numerals have no mark at their end. -/
def Token.isBare : Token → Bool
  | .null => true
  | .bool _ => true
  | .number _ => true
  | _ => false

/-- A character that ends a bare token. -/
def Scanner.isBreak (c : Char) : Bool := !c.isLower && !isNumeralChar c

/-- Every token read so far is finished or would be by the next break. -/
def Scanner.Rests (s : Scanner) (done : List Token) : Prop :=
  s.flush? = some done ∧ ∀ c, isBreak c = true → s.step c = open? done c

namespace Scanner

theorem rests_between (done : List Token) : Rests ⟨done, .between⟩ done :=
  ⟨rfl, fun _ _ => rfl⟩

theorem rests_word {done : List Token} {seen : List Char} {t : Token}
    (h : wordToken? seen.reverse = some t) : Rests ⟨done, .word seen⟩ (t :: done) := by
  have hflush : flush? ⟨done, .word seen⟩ = some (t :: done) := by simp [flush?, h]
  refine ⟨hflush, fun c hc => ?_⟩
  have hlower : c.isLower = false := by simpa using (Bool.and_eq_true_iff.1 hc).1
  simp [step, hlower, hflush]

theorem rests_numeral {done : List Token} {seen : List Char} {n : Numeral}
    (h : Numeral.ofChars? seen.reverse = some n) :
    Rests ⟨done, .numeral seen⟩ (.number n :: done) := by
  have hflush : flush? ⟨done, .numeral seen⟩ = some (.number n :: done) := by simp [flush?, h]
  refine ⟨hflush, fun c hc => ?_⟩
  have hnumeral : isNumeralChar c = false := by simpa using (Bool.and_eq_true_iff.1 hc).2
  simp [step, hnumeral, hflush]

/-! ## Scanning one token -/

theorem isNumeralChar_of_isDigit {c : Char} (h : c.isDigit = true) : isNumeralChar c = true := by
  simp [isNumeralChar, h]

theorem isNumeralChar_of_mem_digits {n : Nat} :
    ∀ c ∈ Numeral.digits n, isNumeralChar c = true := fun _ hc =>
  isNumeralChar_of_isDigit (Numeral.isDigit_of_mem_digits hc)

theorem isNumeralChar_of_mem_exponentChars (plus : Bool) (e : Int) :
    ∀ c ∈ Numeral.exponentChars plus e, isNumeralChar c = true := by
  rw [Numeral.exponentChars, List.cons_append, List.forall_mem_cons, List.forall_mem_append]
  refine ⟨rfl, ?_, isNumeralChar_of_mem_digits⟩
  by_cases hneg : e < 0
  · rw [if_pos hneg]
    exact List.forall_mem_singleton.2 rfl
  · rw [if_neg hneg]
    cases plus with
    | true => exact List.forall_mem_singleton.2 rfl
    | false => exact List.forall_mem_nil _

theorem isNumeralChar_of_mem_chars {n : Numeral} (h : n.IsSpelled) (plus : Bool) :
    ∀ c ∈ n.chars plus, isNumeralChar c = true := by
  rw [Numeral.chars_eq, Numeral.tailPart, List.forall_mem_append, List.forall_mem_append,
    List.forall_mem_append]
  refine ⟨?_, isNumeralChar_of_mem_digits, ?_, ?_⟩
  · cases n.negative with
    | true => exact List.forall_mem_singleton.2 rfl
    | false => exact List.forall_mem_nil _
  · by_cases hempty : n.fraction.isEmpty = true
    · rw [if_pos hempty]
      exact List.forall_mem_nil _
    · rw [if_neg hempty]
      exact List.forall_mem_cons.2 ⟨rfl, fun c hc => isNumeralChar_of_isDigit (h c hc)⟩
  · cases n.exponent with
    | none => exact List.forall_mem_nil _
    | some e => exact isNumeralChar_of_mem_exponentChars plus e

/-- A numeral starts with a minus sign or a digit. -/
theorem exists_chars_eq_cons (n : Numeral) (plus : Bool) :
    ∃ c cs, n.chars plus = c :: cs ∧ (c.isDigit = true ∨ c = '-') := by
  obtain ⟨d, ds, hds, hd⟩ := Numeral.exists_digits_eq_cons n.whole
  rw [Numeral.chars_eq, hds]
  cases n.negative with
  | true => exact ⟨'-', _, rfl, .inr rfl⟩
  | false => exact ⟨d, _, rfl, .inl hd⟩

theorem open?_of_numeral {done : List Token} {c : Char} (h : c.isDigit = true ∨ c = '-') :
    open? done c = some ⟨done, .numeral [c]⟩ := by
  have hne : ∀ d : Char, d.isDigit = false → d ≠ '-' → c ≠ d := by
    intro d hd hminus
    rcases h with h | rfl
    · exact Numeral.ne_of_isDigit h hd
    · exact hminus.symm
  have hblank : isBlank c = false := by
    have hspace := hne ' ' (by decide) (by decide)
    have htab := hne '\t' (by decide) (by decide)
    have hnewline := hne '\n' (by decide) (by decide)
    have hreturn := hne '\r' (by decide) (by decide)
    simp [isBlank, hspace, htab, hnewline, hreturn]
  have hquote : c ≠ '"' := hne '"' (by decide) (by decide)
  simp [open?, hblank, hquote, h]

theorem foldlM_step_numeralChars {done : List Token} (cs seen : List Char)
    (h : ∀ c ∈ cs, isNumeralChar c = true) :
    cs.foldlM step ⟨done, .numeral seen⟩ = some ⟨done, .numeral (cs.reverse ++ seen)⟩ := by
  induction cs generalizing seen with
  | nil => rfl
  | cons c cs ih =>
      have hc : isNumeralChar c = true := h c List.mem_cons_self
      have hstep : step ⟨done, .numeral seen⟩ c = some ⟨done, .numeral (c :: seen)⟩ := by
        simp [step, hc]
      rw [foldlM_cons_some hstep, ih _ fun d hd => h d (List.mem_cons_of_mem c hd)]
      simp

theorem foldlM_step_numeral {done : List Token} {n : Numeral} (h : n.IsSpelled) (plus : Bool) :
    (n.chars plus).foldlM step ⟨done, .between⟩
      = some ⟨done, .numeral (n.chars plus).reverse⟩ := by
  have hall := isNumeralChar_of_mem_chars h plus
  obtain ⟨c, cs, hcs, hc⟩ := exists_chars_eq_cons n plus
  have hstep : step ⟨done, .between⟩ c = some ⟨done, .numeral [c]⟩ := open?_of_numeral hc
  rw [hcs] at hall ⊢
  rw [foldlM_cons_some hstep,
    foldlM_step_numeralChars _ _ fun d hd => hall d (List.mem_cons_of_mem c hd), List.reverse_cons]

/-- A spelled token is scanned from a state between tokens; unless it is bare, the state after it is
    between tokens again. -/
theorem foldlM_step_chars {t : Token} (h : t.IsSpelled) (done : List Token) :
    ∃ s, t.chars.foldlM step ⟨done, .between⟩ = some s ∧ s.Rests (t :: done) ∧
      (t.isBare = false → s = ⟨t :: done, .between⟩) := by
  cases t with
  | null => exact ⟨⟨done, .word ['l', 'l', 'u', 'n']⟩, rfl, rests_word rfl, by simp [Token.isBare]⟩
  | bool b =>
      cases b with
      | true =>
          exact ⟨⟨done, .word ['e', 'u', 'r', 't']⟩, rfl, rests_word rfl, by simp [Token.isBare]⟩
      | false =>
          exact ⟨⟨done, .word ['e', 's', 'l', 'a', 'f']⟩, rfl, rests_word rfl,
            by simp [Token.isBare]⟩
  | number n =>
      have hread : Numeral.ofChars? (n.chars true).reverse.reverse = some n := by
        rw [List.reverse_reverse, Numeral.ofChars?_chars h]
      exact ⟨_, foldlM_step_numeral h true, rests_numeral hread, by simp [Token.isBare]⟩
  | text s =>
      cases s with
      | none => exact absurd h (by simp [Token.IsSpelled])
      | some s => exact ⟨_, foldlM_step_quoted s, rests_between _, fun _ => rfl⟩
  | openArray | closeArray | openObject | closeObject | comma | colon =>
      exact ⟨_, rfl, rests_between _, fun _ => rfl⟩

/-- A token that is not bare starts with a break. -/
theorem exists_chars_eq_break {t : Token} (h : t.isBare = false) :
    ∃ c cs, t.chars = c :: cs ∧ isBreak c = true := by
  cases t with
  | null | bool _ | number _ => simp [Token.isBare] at h
  | text s => exact ⟨'"', _, rfl, rfl⟩
  | openArray | closeArray | openObject | closeObject | comma | colon => exact ⟨_, _, rfl, rfl⟩

/-- At rest, a token that is not bare is scanned as it is between tokens. -/
theorem foldlM_step_chars_of_rests {t : Token} (h : t.isBare = false) {s : Scanner}
    {done : List Token} (hs : s.Rests done) :
    t.chars.foldlM step s = t.chars.foldlM step ⟨done, .between⟩ := by
  obtain ⟨c, cs, hcs, hc⟩ := exists_chars_eq_break h
  rw [hcs, List.foldlM_cons, List.foldlM_cons, hs.2 c hc, (rests_between done).2 c hc]

end Scanner

/-! ## Scanning a list of tokens -/

/-- Spelled tokens of which no two bare ones stand side by side. -/
inductive Token.Scannable : List Token → Prop where
  | nil : Scannable []
  | mark {t : Token} {ts : List Token} :
      t.IsSpelled → t.isBare = false → Scannable ts → Scannable (t :: ts)
  | bare {t : Token} {ts : List Token} :
      t.IsSpelled → (∀ u ∈ ts.head?, u.isBare = false) → Scannable ts → Scannable (t :: ts)

/-- At rest, any spelled token can be scanned next, except that a bare one has to find the scanner
    between tokens. -/
theorem Scanner.foldlM_step_next {t : Token} (h : t.IsSpelled) {s : Scanner} {done : List Token}
    (hs : s.Rests done) (hbare : t.isBare = true → s = ⟨done, .between⟩) :
    ∃ s', t.chars.foldlM step s = some s' ∧ s'.Rests (t :: done) ∧
      (t.isBare = false → s' = ⟨t :: done, .between⟩) := by
  obtain ⟨s', hscan, hs'⟩ := foldlM_step_chars h done
  cases ht : t.isBare with
  | true => exact ⟨s', by rw [hbare ht, hscan], ht ▸ hs'⟩
  | false => exact ⟨s', by rw [foldlM_step_chars_of_rests ht hs, hscan], ht ▸ hs'⟩

/-- From a state at rest, scannable tokens are scanned as they were written. The state must be
    between tokens if the first of them is bare. -/
theorem Scanner.foldlM_step_flatMap {ts : List Token} (h : Token.Scannable ts) {s : Scanner}
    {done : List Token} (hs : s.Rests done)
    (hbare : ∀ t ∈ ts.head?, t.isBare = true → s = ⟨done, .between⟩) :
    ((ts.flatMap Token.chars).foldlM step s).bind flush? = some (ts.reverse ++ done) := by
  induction h generalizing s done with
  | nil => exact hs.1
  | @mark t ts ht hmark _ ih =>
      obtain ⟨s', hscan, hs', hbetween⟩ := foldlM_step_next ht hs (hbare t rfl)
      have hrest := ih hs' fun _ _ _ => hbetween hmark
      rw [List.flatMap_cons, foldlM_append_some hscan, hrest]
      simp
  | @bare t ts ht hnext _ ih =>
      obtain ⟨s', hscan, hs', -⟩ := foldlM_step_next ht hs (hbare t rfl)
      have hrest := ih hs' fun u hu hub => absurd hub (by simp [hnext u hu])
      rw [List.flatMap_cons, foldlM_append_some hscan, hrest]
      simp

/-- Scannable tokens are scanned as they were written. -/
theorem Token.scan_flatMap_chars {ts : List Token} (h : Scannable ts) :
    scan (ts.flatMap chars) = some ts := by
  have hscan := Scanner.foldlM_step_flatMap h (Scanner.rests_between []) fun _ _ _ => rfl
  rw [scan, Scanner.start, hscan]
  simp

end SortMerge.Json
