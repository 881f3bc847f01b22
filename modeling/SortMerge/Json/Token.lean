import SortMerge.Bytes
import SortMerge.Numeral

set_option autoImplicit false

/-! # JSON tokens

The lexical level of JSON: six marks, three words, numerals and string literals. `Token.chars`
writes one token; `Token.scan` cuts a text into tokens in a single pass over its characters, each
step either finishing a token or extending the one that is open.

A string literal may spell half of a surrogate pair. It is then still one token, but there is no
text that it stands for, which `none` records. -/

namespace SortMerge.Json

/-- The smallest units of a JSON text. -/
inductive Token where
  | openArray
  | closeArray
  | openObject
  | closeObject
  | comma
  | colon
  | null
  | bool (value : Bool)
  | number (value : Numeral)
  | text (value : Option String)
  deriving DecidableEq, Inhabited

/-! ## Writing -/

/-- One character between the quotes of a string literal. -/
def escape (c : Char) : List Char :=
  match c with
  | '"' => ['\\', '"']
  | '\\' => ['\\', '\\']
  | '\n' => ['\\', 'n']
  | '\r' => ['\\', 'r']
  | '\t' => ['\\', 't']
  | '\x08' => ['\\', 'b']
  | '\x0c' => ['\\', 'f']
  | c =>
    if c.toNat < 0x20 then
      ['\\', 'u', '0', '0', Nat.digitChar (c.toNat / 16), Nat.digitChar (c.toNat % 16)]
    else [c]

def quoted (s : String) : List Char := '"' :: s.toList.flatMap escape ++ ['"']

/-- The characters of a token. A literal without a text is written as an empty one. -/
def Token.chars : Token → List Char
  | .openArray => ['[']
  | .closeArray => [']']
  | .openObject => ['\x7b']
  | .closeObject => ['\x7d']
  | .comma => [',']
  | .colon => [':']
  | .null => ['n', 'u', 'l', 'l']
  | .bool true => ['t', 'r', 'u', 'e']
  | .bool false => ['f', 'a', 'l', 's', 'e']
  | .number n => n.chars true
  | .text s => quoted (s.getD "")

/-! ## The contents of a string literal -/

/-- A character of a string literal, or half of a surrogate pair. -/
inductive Piece where
  | char (c : Char)
  | half (unit : Nat)
  deriving DecidableEq

/-- The piece that four hexadecimal digits stand for. -/
def Piece.ofUnit (n : Nat) : Piece :=
  if 0xD800 ≤ n ∧ n < 0xE000 then .half n else .char (Char.ofNat n)

/-- The text of a literal, whose halves must stand in pairs, a high one before a low one. -/
def joinPieces : List Piece → Option (List Char)
  | [] => some []
  | .char c :: rest => (joinPieces rest).map (c :: ·)
  | .half h :: .half l :: rest =>
    if h < 0xDC00 ∧ 0xDC00 ≤ l then
      (joinPieces rest).map (Char.ofNat (0x10000 + (h - 0xD800) * 0x400 + (l - 0xDC00)) :: ·)
    else none
  | .half _ :: _ => none

/-- The character that a one-letter escape stands for. -/
def unescape? : Char → Option Char
  | '"' => some '"'
  | '\\' => some '\\'
  | '/' => some '/'
  | 'b' => some '\x08'
  | 'f' => some '\x0c'
  | 'n' => some '\n'
  | 'r' => some '\r'
  | 't' => some '\t'
  | _ => none

/-! ## Scanning -/

/-- What the scanner is inside of. Characters and pieces are held latest first. -/
inductive Mode where
  | between
  | word (seen : List Char)
  | numeral (seen : List Char)
  | literal (seen : List Piece)
  | escape (seen : List Piece)
  | unit (seen : List Piece) (digits : List Char)

/-- The finished tokens, latest first, and the open one. -/
structure Scanner where
  done : List Token
  mode : Mode

namespace Scanner

def start : Scanner := ⟨[], .between⟩

/-- The four blanks of JSON. -/
def isBlank (c : Char) : Bool := c == ' ' || c == '\t' || c == '\n' || c == '\r'

/-- The characters that extend a numeral. -/
def isNumeralChar (c : Char) : Bool :=
  c.isDigit || c == '-' || c == '+' || c == '.' || c == 'e' || c == 'E'

def wordToken? : List Char → Option Token
  | ['n', 'u', 'l', 'l'] => some .null
  | ['t', 'r', 'u', 'e'] => some (.bool true)
  | ['f', 'a', 'l', 's', 'e'] => some (.bool false)
  | _ => none

/-- Reads a character outside of any token. -/
def open? (done : List Token) (c : Char) : Option Scanner :=
  if isBlank c then some ⟨done, .between⟩
  else if c = '"' then some ⟨done, .literal []⟩
  else if c.isDigit ∨ c = '-' then some ⟨done, .numeral [c]⟩
  else if c.isLower then some ⟨done, .word [c]⟩
  else
    match c with
    | '[' => some ⟨.openArray :: done, .between⟩
    | ']' => some ⟨.closeArray :: done, .between⟩
    | '\x7b' => some ⟨.openObject :: done, .between⟩
    | '\x7d' => some ⟨.closeObject :: done, .between⟩
    | ',' => some ⟨.comma :: done, .between⟩
    | ':' => some ⟨.colon :: done, .between⟩
    | _ => none

/-- Finishes an open word or numeral; a string literal needs its quote. -/
def flush? (s : Scanner) : Option (List Token) :=
  match s.mode with
  | .between => some s.done
  | .word seen => (wordToken? seen.reverse).map (· :: s.done)
  | .numeral seen => (Numeral.ofChars? seen.reverse).map fun n => .number n :: s.done
  | _ => none

def step (s : Scanner) (c : Char) : Option Scanner :=
  match s.mode with
  | .between => open? s.done c
  | .word seen =>
    if c.isLower then some ⟨s.done, .word (c :: seen)⟩
    else s.flush?.bind fun done => open? done c
  | .numeral seen =>
    if isNumeralChar c then some ⟨s.done, .numeral (c :: seen)⟩
    else s.flush?.bind fun done => open? done c
  | .literal seen =>
    if c = '"' then
      some ⟨.text ((joinPieces seen.reverse).map String.ofList) :: s.done, .between⟩
    else if c = '\\' then some ⟨s.done, .escape seen⟩
    else if c.toNat < 0x20 then none
    else some ⟨s.done, .literal (.char c :: seen)⟩
  | .escape seen =>
    if c = 'u' then some ⟨s.done, .unit seen []⟩
    else (unescape? c).map fun d => ⟨s.done, .literal (.char d :: seen)⟩
  | .unit seen digits =>
    match Text.Hex.digitValue? c with
    | none => none
    | some _ =>
      if digits.length < 3 then some ⟨s.done, .unit seen (c :: digits)⟩
      else
        (Text.Hex.natOfDigits? (c :: digits).reverse).map fun n =>
          ⟨s.done, .literal (Piece.ofUnit n :: seen)⟩

end Scanner

def Token.scan (cs : List Char) : Option (List Token) :=
  ((cs.foldlM Scanner.step Scanner.start).bind Scanner.flush?).map List.reverse

example : Token.scan ['[', '1', ',', '-', '0', '.', '5', ']'] =
    some [.openArray, .number ⟨false, 1, [], none⟩, .comma, .number ⟨true, 0, ['5'], none⟩,
      .closeArray] := by decide
example : Token.scan ['n', 'u', 'l'] = none := by decide

end SortMerge.Json
