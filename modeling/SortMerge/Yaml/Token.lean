import SortMerge.Yaml.Text

set_option autoImplicit false

/-! # YAML tokens

The tokens of a YAML text show its structure explicitly: where block collections begin and end,
which of its scalars are keys. Beginnings and ends follow from indentation. That something is a key
shows only at the colon behind it, so a scan remembers where a key may have started and puts the key
mark there when the colon comes; a key must end on its line and within 1024 characters. -/

namespace SortMerge.Yaml

/-- The smallest units of a YAML text. -/
inductive Token where
  | version (major minor : Nat)
  | tagHandle (handle expansion : String)
  | documentStart
  | documentEnd
  | blockSequence
  | blockMapping
  | blockEnd
  | openSequence
  | closeSequence
  | openMapping
  | closeMapping
  /-- The hyphen before an item of a block sequence. -/
  | item
  /-- The comma between the entries of a bracketed collection. -/
  | comma
  | key
  | value
  | alias (name : String)
  | anchor (name : String)
  | tag (handle suffix : String)
  | scalar (text : String) (plain : Bool)
  deriving DecidableEq, Inhabited

/-! ## Names, tags and directives -/

/-- The name at the front and what follows it. -/
def spanName : List Glyph → String × List Glyph :=
  fun gs => (String.ofList ((gs.takeWhile fun g => isNameChar g.char).map Glyph.char),
    gs.dropWhile fun g => isNameChar g.char)

/-- The name of an anchor; it must end at a gap or at one of the marks that may follow a name. -/
def anchorName (gs : List Glyph) : Option (String × List Glyph) :=
  match spanName gs with
  | (name, rest) =>
    let ends := atGap rest ||
      (match rest with
       | [] => true
       | g :: _ => ['?', ':', ',', ']', '\x7d', '%', '@', '\x60'].contains g.char)
    if !name.isEmpty && ends then some (name, rest) else none

/-- Characters of a tag; brackets and commas only where nothing else can be meant. -/
def isTagChar (verbatim : Bool) (c : Char) : Bool :=
  isNameChar c || [';', '/', '?', ':', '@', '&', '=', '+', '$', '.', '%', '!', '~', '*', '\'', '(',
    ')'].contains c || (verbatim && [',', '[', ']'].contains c)

/-- The bytes of the characters of a tag, in which a percent sign stands before two digits. -/
def tagBytes : List Char → Option (List UInt8)
  | [] => some []
  | '%' :: h :: l :: rest =>
    match Text.Hex.digitValue? h, Text.Hex.digitValue? l, tagBytes rest with
    | some h, some l, some bs => some (UInt8.ofNat (16 * h + l) :: bs)
    | _, _, _ => none
  | '%' :: _ => none
  | c :: rest => (tagBytes rest).map (c.toString.toUTF8.toList ++ ·)

/-- The text that the characters of a tag spell. -/
def tagText (cs : List Char) : Option String :=
  (tagBytes cs).bind fun bs => String.fromUTF8? ⟨bs.toArray⟩

/-- The tag characters at the front and what follows them. -/
def spanTag (verbatim : Bool) (gs : List Glyph) : List Char × List Glyph :=
  ((gs.takeWhile fun g => isTagChar verbatim g.char).map Glyph.char,
    gs.dropWhile fun g => isTagChar verbatim g.char)

/-- The parts of a tag from behind its exclamation mark: a verbatim tag in angle brackets, a named
    handle between two exclamation marks, or the plain handle. A lone mark is a tag of its own. -/
def tagParts (gs : List Glyph) : Option (String × String × List Glyph) :=
  match gs with
  | g :: rest =>
    if g.char == '<' then
      match spanTag true rest with
      | (cs, c :: rest) =>
        if c.char == '>' && !cs.isEmpty then (tagText cs).map fun s => ("", s, rest) else none
      | _ => none
    else
      match spanName gs with
      | (name, rest) =>
        match rest with
        | m :: after =>
          if m.char == '!' then
            match spanTag false after with
            | (cs, rest) =>
              if cs.isEmpty then none
              else (tagText cs).map fun s => ("!" ++ name ++ "!", s, rest)
          else shorthand gs
        | [] => shorthand gs
  | [] => some ("", "!", [])
where
  /-- A tag with the plain handle. -/
  shorthand (gs : List Glyph) : Option (String × String × List Glyph) :=
    match spanTag false gs with
    | (cs, rest) =>
      (tagText cs).map fun s => if s.isEmpty then ("", "!", rest) else ("!", s, rest)

/-- A tag must end at a gap, or at a comma inside brackets. -/
def tagEnds (flow : Bool) (rest : List Glyph) : Bool :=
  atGap rest ||
    (match rest with
     | [] => true
     | g :: _ => flow && g.char == ',')

def skipBlanks (gs : List Glyph) : List Glyph := gs.dropWhile Glyph.isBlank

/-- The digits at the front as a number, at most nine of them. -/
def spanNumber (gs : List Glyph) : Option (Nat × List Glyph) :=
  let ds := (gs.takeWhile fun g => g.char.isDigit).map Glyph.char
  if ds.isEmpty || 9 < ds.length then none
  else some (Nat.ofDigitChars 10 ds 0, gs.dropWhile fun g => g.char.isDigit)

def versionDirective (gs : List Glyph) : Option (Token × List Glyph) :=
  match spanNumber (skipBlanks gs) with
  | some (major, dot :: rest) =>
    if dot.char == '.' then
      (spanNumber rest).map fun (minor, rest) => (.version major minor, rest)
    else none
  | _ => none

/-- The handle of a directive: an exclamation mark, or a name between two. -/
def directiveHandle (gs : List Glyph) : Option (String × List Glyph) :=
  match gs with
  | m :: rest =>
    if m.char == '!' then
      match spanName rest with
      | (name, after) =>
        match after with
        | n :: after' =>
          if n.char == '!' then some ("!" ++ name ++ "!", after')
          else if name.isEmpty then some ("!", after)
          else none
        | [] => if name.isEmpty then some ("!", after) else none
    else none
  | [] => none

/-- The tag handle that a directive declares. -/
def tagDirective (gs : List Glyph) : Option (Token × List Glyph) :=
  match directiveHandle (skipBlanks gs) with
  | some (handle, b :: rest) =>
    if b.isBlank then
      match spanTag true (skipBlanks rest) with
      | (cs, rest) =>
        if !cs.isEmpty && atGap rest then
          (tagText cs).map fun s => (.tagHandle handle s, rest)
        else none
    else none
  | _ => none

/-- A directive from behind its percent sign, with the rest of its line. -/
def directive? (gs : List Glyph) : Option (Token × List Glyph) :=
  match spanName gs with
  | (name, rest) =>
    if !atGap rest then none
    else
      match (if name == "YAML" then versionDirective rest
             else if name == "TAG" then tagDirective rest
             else none) with
      | none => none
      | some (t, rest) => (lineEnd false rest).map fun rest => (t, rest)

/-! ## Scanning -/

/-- Where a key may have started: before which token, and at which place. A key is required where
    nothing but a key can stand. -/
structure PossibleKey where
  number : Nat
  line : Nat
  column : Nat
  index : Nat
  required : Bool

/-- The state of scanning. -/
structure Scan where
  rest : List Glyph
  /-- The tokens so far, latest first, and how many they are. -/
  done : List Token := []
  count : Nat := 0
  /-- How many brackets are open. -/
  flow : Nat := 0
  /-- The columns of the open block collections, innermost first. -/
  indents : List Nat := []
  /-- A possible key for each open bracket and one for the blocks around them, innermost first. -/
  keys : List (Option PossibleKey) := [none]
  /-- Whether a key may start here. -/
  keyAllowed : Bool := true

namespace Scan

/-- The column of the innermost block collection, plus one; zero outside of all of them. -/
def indent (s : Scan) : Nat :=
  match s.indents with
  | [] => 0
  | i :: _ => i + 1

def emit (s : Scan) (t : Token) : Scan := { s with done := t :: s.done, count := s.count + 1 }

/-- Inserts a token before the token of the given number. -/
def insert (s : Scan) (number : Nat) (t : Token) : Scan :=
  let later := s.count - number
  { s with done := s.done.take later ++ t :: s.done.drop later, count := s.count + 1 }

/-- Opens a block collection at a column, unless one is open there, by a token at the given place.
    -/
def openBlock (s : Scan) (column : Nat) (t : Token) (number : Nat) : Scan :=
  if s.flow == 0 && s.indent ≤ column then
    { s.insert number t with indents := column :: s.indents }
  else s

/-- Ends the block collections whose columns the text has left. -/
def closeBlocks (s : Scan) (column : Option Nat) : Scan :=
  let ended := s.indents.takeWhile fun i =>
    match column with
    | none => true
    | some c => decide (c < i)
  { s with
    done := ended.map (fun _ => Token.blockEnd) ++ s.done
    count := s.count + ended.length
    indents := s.indents.drop ended.length }

/-- Gives up possible keys that are on an earlier line or too far back; a required one may not be
    given up. -/
def expireKeys (s : Scan) (g : Glyph) : Option Scan :=
  (s.keys.mapM fun k : Option PossibleKey =>
    match k with
    | none => some none
    | some k =>
      if k.line < g.line || k.index + 1024 < g.index then
        if k.required then none else some none
      else some (some k)).map fun keys => { s with keys }

/-- Gives up the possible key of the innermost level. -/
def dropKey (s : Scan) : Option Scan :=
  match s.keys with
  | some k :: rest => if k.required then none else some { s with keys := none :: rest }
  | keys => some { s with keys }

/-- Remembers that a key may start here. -/
def saveKey (s : Scan) (g : Glyph) : Option Scan :=
  if s.keyAllowed then
    s.dropKey.map fun s =>
      let required := s.flow == 0 && s.indents.head? == some g.column
      { s with keys := some ⟨s.count, g.line, g.column, g.index, required⟩ :: s.keys.drop 1 }
  else some s

/-- Skips blanks, comments and line breaks before the next token. Outside of brackets a key may
    start on a new line, and a tab may not stand where a key may start. -/
def skipGap (flow : Bool) : Bool → Bool → List Glyph → Bool × List Glyph
  | allowed, _, [] => (allowed, [])
  | allowed, comment, g :: rest =>
    if g.isBreak then skipGap flow (allowed || !flow) false rest
    else if comment then skipGap flow allowed true rest
    else if g.char == ' ' || (g.char == '\t' && (flow || !allowed)) then
      skipGap flow allowed false rest
    else if g.char == '#' then skipGap flow allowed true rest
    else if g.char == '\ufeff' && g.index == 0 then skipGap flow allowed false rest
    else (allowed, g :: rest)

/-- Goes on behind the given rest with a token. -/
def next (s : Scan) (rest : List Glyph) (t : Token) : Scan := { s.emit t with rest }

/-- Ends all block collections, unless brackets are open. -/
def closeAll (s : Scan) : Scan := if s.flow == 0 then s.closeBlocks none else s

/-- A directive or a document mark, which ends everything that is open. -/
def topLevel (s : Scan) (rest : List Glyph) (t : Token) : Option Scan :=
  s.closeAll.dropKey.map fun s => { s.next rest t with keyAllowed := false }

/-- An opening bracket, which may start a key. -/
def openFlow (s : Scan) (g : Glyph) (rest : List Glyph) (t : Token) : Option Scan :=
  (s.saveKey g).map fun s =>
    { s.next rest t with flow := s.flow + 1, keys := none :: s.keys, keyAllowed := true }

def closeFlow (s : Scan) (rest : List Glyph) (t : Token) : Option Scan :=
  s.dropKey.map fun s =>
    let s := { s.next rest t with keyAllowed := false }
    if s.flow == 0 then s else { s with flow := s.flow - 1, keys := s.keys.drop 1 }

def comma (s : Scan) (rest : List Glyph) : Option Scan :=
  s.dropKey.map fun s => { s.next rest .comma with keyAllowed := true }

def item (s : Scan) (g : Glyph) (rest : List Glyph) : Option Scan :=
  if s.flow == 0 && !s.keyAllowed then none
  else
    (s.openBlock g.column .blockSequence s.count).dropKey.map fun s =>
      { s.next rest .item with keyAllowed := true }

def explicitKey (s : Scan) (g : Glyph) (rest : List Glyph) : Option Scan :=
  if s.flow == 0 && !s.keyAllowed then none
  else
    (s.openBlock g.column .blockMapping s.count).dropKey.map fun s =>
      { s.next rest .key with keyAllowed := s.flow == 0 }

/-- The colon before a value: what started at the possible key was a key. -/
def value (s : Scan) (g : Glyph) (rest : List Glyph) : Option Scan :=
  match s.keys with
  | some k :: keys =>
    let s := (s.insert k.number .key).openBlock k.column .blockMapping k.number
    some { s.next rest .value with keys := none :: keys, keyAllowed := false }
  | _ =>
    if s.flow == 0 && !s.keyAllowed then none
    else
      let s := s.openBlock g.column .blockMapping s.count
      some { s.next rest .value with keyAllowed := s.flow == 0 }

/-- A token that may be a key or stand before one. -/
def content (s : Scan) (g : Glyph) (rest : List Glyph) (t : Token) : Option Scan :=
  (s.saveKey g).map fun s => { s.next rest t with keyAllowed := false }

def scalar (s : Scan) (g : Glyph) (plain : Bool) (r : Reading) : Option Scan :=
  (s.content g r.rest (.scalar (String.ofList r.text) plain)).map fun s =>
    { s with keyAllowed := s.keyAllowed || r.broken }

/-- A block of lines, which is no key. -/
def block (s : Scan) (folded : Bool) (rest : List Glyph) : Option Scan :=
  match s.dropKey, block? folded s.indent rest with
  | some s, some r =>
    some { s.next r.rest (.scalar (String.ofList r.text) false) with keyAllowed := true }
  | _, _ => none

/-- Whether a plain text may start with the character, given what follows it. -/
def startsPlain (flow : Bool) (c : Char) (rest : List Glyph) : Bool :=
  let blankNext :=
    match rest with
    | [] => false
    | n :: _ => n.isBlank
  if c == '-' then !blankNext
  else if c == '?' || c == ':' then !flow && !atGap rest
  else !([',', '[', ']', '\x7b', '\x7d', '#', '&', '*', '!', '|', '>', '\'', '"', '%', '@',
    '\x60'].contains c)

/-- Reads the token that starts with the given character. -/
def token (s : Scan) (g : Glyph) (rest : List Glyph) : Option Scan :=
  let flow := s.flow != 0
  if g.column == 0 && g.char == '%' then
    (directive? rest).bind fun (t, rest) => s.topLevel rest t
  else if atMarker '-' (g :: rest) then s.topLevel (rest.drop 2) .documentStart
  else if atMarker '.' (g :: rest) then s.topLevel (rest.drop 2) .documentEnd
  else
    match g.char with
    | '[' => s.openFlow g rest .openSequence
    | '\x7b' => s.openFlow g rest .openMapping
    | ']' => s.closeFlow rest .closeSequence
    | '\x7d' => s.closeFlow rest .closeMapping
    | ',' => s.comma rest
    | '*' => (anchorName rest).bind fun (n, rest) => s.content g rest (.alias n)
    | '&' => (anchorName rest).bind fun (n, rest) => s.content g rest (.anchor n)
    | '!' =>
      (tagParts rest).bind fun (handle, suffix, rest) =>
        if tagEnds flow rest then s.content g rest (.tag handle suffix) else none
    | '\'' => (singleFrom {} rest).bind fun r => s.scalar g false r
    | '"' => (doubleFrom .plain {} rest).bind fun r => s.scalar g false r
    | c =>
      if c == '-' && atGap rest then s.item g rest
      else if c == '?' && (flow || atGap rest) then s.explicitKey g rest
      else if c == ':' && (flow || atGap rest) then s.value g rest
      else if c == '|' && !flow then s.block false rest
      else if c == '>' && !flow then s.block true rest
      else if startsPlain flow c rest then
        (plainFrom flow s.indent {} (g :: rest)).bind fun r => s.scalar g true r
      else none

/-- Ends everything at the end of the text. -/
def finish (s : Scan) : Option (List Token) :=
  s.closeAll.dropKey.map fun s => s.done.reverse

/-- Reads tokens up to the end of the text. Every token takes at least one character, so the number
    of characters bounds the number of steps. -/
def run : Nat → Scan → Option (List Token)
  | 0, _ => none
  | steps + 1, s =>
    match skipGap (s.flow != 0) s.keyAllowed false s.rest with
    | (_, []) => s.finish
    | (keyAllowed, g :: rest) =>
      match { s with keyAllowed }.expireKeys g with
      | none => none
      | some s =>
        let s := if s.flow == 0 then s.closeBlocks (some g.column) else s
        (s.token g rest).bind (run steps)

end Scan

def Token.scan (gs : List Glyph) : Option (List Token) :=
  Scan.run (gs.length + 1) { rest := gs }

end SortMerge.Yaml
