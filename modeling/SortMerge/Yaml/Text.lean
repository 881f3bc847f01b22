import SortMerge.Bytes

set_option autoImplicit false

/-! # Characters and texts

YAML gives meaning to columns, so its reader works on characters that know where they stand. The
texts of scalars are read off such characters: each reader takes them from the start of the text on
and gives back the text and the characters that follow. -/

namespace SortMerge.Yaml

/-! ## Characters with positions

Line breaks are unified: a carriage return, a line feed, the two together, and the next-line control
character all become one line feed. The two Unicode separators also end a line but stay what they
are. -/

/-- A character and where it stands. -/
structure Glyph where
  char : Char
  line : Nat
  column : Nat
  index : Nat

namespace Glyph

/-- A blank inside a line. -/
def isBlank (g : Glyph) : Bool := g.char == ' ' || g.char == '\t'

/-- A character that ends a line. -/
def isBreak (g : Glyph) : Bool :=
  g.char == '\n' || g.char == '\u2028' || g.char == '\u2029'

end Glyph

/-- Whether a text is at its end, or goes on with a blank or a line break. -/
def atGap : List Glyph → Bool
  | [] => true
  | g :: _ => g.isBlank || g.isBreak

/-- Whether a character may stand in a YAML text. -/
def isAllowed (c : Char) : Bool :=
  let n := c.toNat
  n == 0x09 || n == 0x0A || n == 0x0D || (0x20 ≤ n && n ≤ 0x7E) || n == 0x85
    || (0xA0 ≤ n && n ≤ 0xFFFD) || 0x10000 ≤ n

/-- The characters of a text with their positions. -/
def glyphsFrom (line column index : Nat) : List Char → List Glyph
  | [] => []
  | '\r' :: '\n' :: cs => ⟨'\n', line, column, index⟩ :: glyphsFrom (line + 1) 0 (index + 2) cs
  | c :: cs =>
    if c == '\r' || c == '\n' || c == '\u0085' then
      ⟨'\n', line, column, index⟩ :: glyphsFrom (line + 1) 0 (index + 1) cs
    else if c == '\u2028' || c == '\u2029' then
      ⟨c, line, column, index⟩ :: glyphsFrom (line + 1) 0 (index + 1) cs
    else ⟨c, line, column, index⟩ :: glyphsFrom line (column + 1) (index + 1) cs

/-- A byte-order mark at the front does not count. -/
def dropMark : List Char → List Char
  | '\ufeff' :: cs => cs
  | cs => cs

/-- The characters of a text, if all of them are allowed. -/
def glyphs? (cs : List Char) : Option (List Glyph) :=
  if cs.all isAllowed then some (glyphsFrom 0 0 0 (dropMark cs)) else none

/-- Whether a line starts here with three times the given character, followed by a gap. -/
def atMarker (c : Char) : List Glyph → Bool
  | a :: b :: d :: rest =>
    a.column == 0 && a.char == c && b.char == c && d.char == c && atGap rest
  | _ => false

/-- Whether a document ends or starts here. -/
def atDocumentMarker (gs : List Glyph) : Bool := atMarker '-' gs || atMarker '.' gs

/-- Letters, digits, the underscore and the hyphen. -/
def isNameChar (c : Char) : Bool := c.isAlphanum || c == '_' || c == '-'

/-! ## Texts of scalars

YAML writes a text in four ways: plain, between single or double quotes, and as a block of lines. In
the first three a line break inside the text is folded: one break becomes a blank, and of several
the first is dropped. -/

/-! ### Folding -/

/-- Blanks and line breaks since the last visible character, and the text before them. The text and
    the later breaks are held latest character first. -/
structure Fold where
  text : List Char := []
  /-- Blanks before the first break. -/
  blanks : List Char := []
  /-- The first break, if it counts. -/
  first : Option Char := none
  /-- The breaks after the first one. -/
  later : List Char := []
  /-- Whether a break has been seen. -/
  broken : Bool := false
  /-- Whether anything has been seen since the last visible character. -/
  gap : Bool := false

namespace Fold

/-- A blank; after a break it is indentation and does not count. -/
def addBlank (f : Fold) (c : Char) : Fold :=
  if f.broken then { f with gap := true } else { f with blanks := c :: f.blanks, gap := true }

/-- A line break; it makes the blanks before it disappear. -/
def addBreak (f : Fold) (c : Char) : Fold :=
  if f.broken then { f with later := c :: f.later, gap := true }
  else { f with blanks := [], first := some c, broken := true, gap := true }

/-- The text with the gap put in: blanks as they are, a single line feed as a blank, and otherwise
    the breaks without a leading line feed. -/
def filled (f : Fold) : List Char :=
  if f.broken then
    match f.first with
    | some '\n' => if f.later.isEmpty then ' ' :: f.text else f.later ++ f.text
    | some c => f.later ++ c :: f.text
    | none => f.later ++ f.text
  else f.blanks ++ f.text

def close (f : Fold) : Fold := { text := f.filled }

def add (f : Fold) (c : Char) : Fold := { text := c :: f.filled }

end Fold

/-- A text that has been read and what follows it. -/
structure Reading where
  text : List Char
  rest : List Glyph
  /-- Whether the reader went over a line break at the end. -/
  broken : Bool := false

/-! ### Plain texts -/

/-- Characters that end a plain text inside brackets, or may not follow a colon there. -/
def isFlowMark (c : Char) : Bool := c == ',' || c == '[' || c == ']' || c == '\x7b' || c == '\x7d'

/-- Reads a plain text. `flow` says whether it stands inside brackets and `indent` how far its later
    lines must be indented otherwise. -/
def plainFrom (flow : Bool) (indent : Nat) : Fold → List Glyph → Option Reading
  | f, [] => some ⟨f.text.reverse, [], f.broken⟩
  | f, g :: rest =>
    let stop : Option Reading := some ⟨f.text.reverse, g :: rest, f.broken⟩
    if g.isBlank then
      if f.broken && decide (g.column < indent) && g.char == '\t' then none
      else plainFrom flow indent (f.addBlank g.char) rest
    else if g.isBreak then plainFrom flow indent (f.addBreak g.char) rest
    else if f.gap && !flow && decide (g.column < indent) then stop
    else if f.gap && (atDocumentMarker (g :: rest) || g.char == '#') then stop
    else if g.char == ':' && atGap rest then stop
    else if flow && g.char == ':' &&
        (match rest with
         | [] => false
         | n :: _ => isFlowMark n.char || n.char == '?') then none
    else if flow && isFlowMark g.char then stop
    else plainFrom flow indent (f.add g.char) rest

/-! ### Quoted texts -/

/-- Reads a single-quoted text from behind its first quote. Two quotes stand for one. -/
def singleFrom : Fold → List Glyph → Option Reading
  | _, [] => none
  | f, g :: rest =>
    if g.isBlank then singleFrom (f.addBlank g.char) rest
    else if g.isBreak then singleFrom (f.addBreak g.char) rest
    else if f.gap && atDocumentMarker (g :: rest) then none
    else if g.char == '\'' then
      match rest with
      | n :: rest =>
        if n.char == '\'' then singleFrom (f.add '\'') rest
        else some ⟨f.filled.reverse, n :: rest, false⟩
      | [] => some ⟨f.filled.reverse, [], false⟩
    else singleFrom (f.add g.char) rest

/-- The character that a one-letter escape stands for. -/
def escaped? : Char → Option Char
  | '0' => some '\x00'
  | 'a' => some '\x07'
  | 'b' => some '\x08'
  | 't' => some '\t'
  | '\t' => some '\t'
  | 'n' => some '\n'
  | 'v' => some '\x0b'
  | 'f' => some '\x0c'
  | 'r' => some '\r'
  | 'e' => some '\x1b'
  | ' ' => some ' '
  | '"' => some '"'
  | '/' => some '/'
  | '\\' => some '\\'
  | 'N' => some '\u0085'
  | '_' => some '\u00a0'
  | 'L' => some '\u2028'
  | 'P' => some '\u2029'
  | _ => none

/-- The number of digits that follow the letter of a numeric escape. -/
def escapeDigits? : Char → Option Nat
  | 'x' => some 2
  | 'u' => some 4
  | 'U' => some 8
  | _ => none

/-- What a double-quoted text is in the middle of. -/
inductive DoubleMode where
  | plain
  | escape
  /-- So many digits are missing from a code point. -/
  | code (missing value : Nat)

/-- The character with the given code point. -/
def charOfCode? (n : Nat) : Option Char :=
  if n.isValidChar then some (Char.ofNat n) else none

/-- Reads a double-quoted text from behind its first quote. A backslash at the end of a line joins
    the lines without a blank. -/
def doubleFrom : DoubleMode → Fold → List Glyph → Option Reading
  | _, _, [] => none
  | .plain, f, g :: rest =>
    if g.isBlank then doubleFrom .plain (f.addBlank g.char) rest
    else if g.isBreak then doubleFrom .plain (f.addBreak g.char) rest
    else if f.gap && atDocumentMarker (g :: rest) then none
    else if g.char == '"' then some ⟨f.filled.reverse, rest, false⟩
    else if g.char == '\\' then doubleFrom .escape f.close rest
    else doubleFrom .plain (f.add g.char) rest
  | .escape, f, g :: rest =>
    if g.isBreak then doubleFrom .plain { f with broken := true, gap := true } rest
    else
      match escapeDigits? g.char with
      | some digits => doubleFrom (.code digits 0) f rest
      | none =>
        match escaped? g.char with
        | some c => doubleFrom .plain (f.add c) rest
        | none => none
  | .code missing value, f, g :: rest =>
    match Text.Hex.digitValue? g.char with
    | none => none
    | some d =>
      let value := 16 * value + d
      if 1 < missing then doubleFrom (.code (missing - 1) value) f rest
      else
        match charOfCode? value with
        | some c => doubleFrom .plain (f.add c) rest
        | none => none

/-! ### Blocks -/

/-- What becomes of the line breaks at the end of a block. -/
inductive Chomping where
  | strip | clip | keep
  deriving DecidableEq

/-- The chomping that a character asks for. -/
def chomping? : Char → Option Chomping
  | '-' => some .strip
  | '+' => some .keep
  | _ => none

/-- The indentation that a digit asks for; zero is refused. -/
def increment? (c : Char) : Option Nat :=
  if c.isDigit && c != '0' then some (c.toNat - '0'.toNat) else none

/-- The indicators behind the mark of a block, in either order, each at most once. -/
def blockIndicators : List Glyph → Option (Chomping × Option Nat × List Glyph)
  | [] => some (.clip, none, [])
  | g :: rest =>
    match chomping? g.char with
    | some c =>
      match rest with
      | d :: rest' =>
        if d.char.isDigit then (increment? d.char).map fun n => (c, some n, rest')
        else some (c, none, rest)
      | [] => some (c, none, [])
    | none =>
      if g.char.isDigit then
        match increment? g.char, rest with
        | none, _ => none
        | some n, [] => some (.clip, some n, [])
        | some n, d :: rest' =>
          match chomping? d.char with
          | some c => some (c, some n, rest')
          | none => some (.clip, some n, rest)
      else some (.clip, none, g :: rest)

/-- The line break at the end of a line that holds nothing but blanks and a comment; what follows
    it. -/
def lineEnd (comment : Bool) : List Glyph → Option (List Glyph)
  | [] => some []
  | g :: rest =>
    if g.isBreak then some rest
    else if comment || g.isBlank then lineEnd comment rest
    else if g.char == '#' then lineEnd true rest
    else none

/-- A block while it is being read. Texts are held latest character first. -/
structure Block where
  text : List Char := []
  /-- The columns of indentation; zero while they are not known. -/
  indent : Nat
  /-- The widest indentation seen so far on lines without text. -/
  widest : Nat := 0
  /-- The break that ended the last line with text. -/
  first : Option Char := none
  /-- The breaks after it. -/
  later : List Char := []
  /-- Whether the last line with text started with a blank. -/
  indented : Bool := false

namespace Block

/-- The text with the breaks before a new line put in. When lines are folded, a single line feed
    between two lines becomes a blank unless one of them starts with a blank. -/
def joined (b : Block) (folded startsBlank : Bool) : List Char :=
  let first :=
    match b.first with
    | none => []
    | some c =>
      if folded && c == '\n' && !b.indented && !startsBlank then
        if b.later.isEmpty then [' '] else []
      else [c]
  b.later ++ first ++ b.text

/-- The text with the breaks at the end that the chomping leaves. -/
def finished (b : Block) (c : Chomping) : List Char :=
  match c with
  | .strip => b.text
  | .clip => b.first.toList ++ b.text
  | .keep => b.later ++ b.first.toList ++ b.text

end Block

/-- Reads the lines of a block. `least` is the least indentation that its lines may have and
    `inLine` says whether a line with text has been started. -/
def blockFrom (folded : Bool) (chomp : Chomping) (least : Nat) :
    Bool → Block → List Glyph → Option Reading
  | _, b, [] => some ⟨(b.finished chomp).reverse, [], false⟩
  | true, b, g :: rest =>
    if g.isBreak then
      blockFrom folded chomp least false { b with first := some g.char, later := [] } rest
    else blockFrom folded chomp least true { b with text := g.char :: b.text } rest
  | false, b, g :: rest =>
    let inMargin := b.indent == 0 || decide (g.column < b.indent)
    if inMargin && g.char == ' ' then
      blockFrom folded chomp least false { b with widest := max b.widest (g.column + 1) } rest
    else if inMargin && g.char == '\t' then none
    else if g.isBreak then
      blockFrom folded chomp least false { b with later := g.char :: b.later } rest
    else
      let indent := if b.indent == 0 then max b.widest least else b.indent
      if g.column == indent then
        let joined := b.joined folded g.isBlank
        blockFrom folded chomp least true
          { b with
            text := g.char :: joined
            indent
            first := none
            later := []
            indented := g.isBlank }
          rest
      else some ⟨(b.finished chomp).reverse, g :: rest, false⟩

/-- Reads a block from behind its mark; `parent` is the column of the structure that it belongs to,
    plus one. -/
def block? (folded : Bool) (parent : Nat) (gs : List Glyph) : Option Reading :=
  match blockIndicators gs with
  | none => none
  | some (chomp, increment, rest) =>
    match lineEnd false rest with
    | none => none
    | some rest =>
      let indent :=
        match increment with
        | none => 0
        | some n => parent - 1 + n
      blockFrom folded chomp (max parent 1) false { indent } rest

end SortMerge.Yaml
