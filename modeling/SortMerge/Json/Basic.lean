import SortMerge.Json.Token

set_option autoImplicit false

/-! # JSON values

The tree of a JSON text. Object members keep their order and their repetitions, and a numeral keeps
its spelling; what they mean is up to the reader. `Json.tokens` flattens a tree and `Json.ofTokens?`
rebuilds it with a stack of open containers, one step for each token. -/

namespace SortMerge

/-- A JSON value as written. A string, also as a member's name, is `none` where its literal stands
    for no text. -/
inductive Json where
  | null
  | bool (value : Bool)
  | number (value : Numeral)
  | text (value : Option String)
  | array (items : List Json)
  | object (members : List (Option String × Json))
  deriving Inhabited

namespace Json

/-! ## Building values -/

def ofString (s : String) : Json := .text (some s)

def ofNat (n : Nat) : Json := .number (.ofNat n)

def ofInt (i : Int) : Json := .number (.ofInt i)

def record (members : List (String × Json)) : Json :=
  .object (members.map fun m => (some m.1, m.2))

/-! ## Flattening -/

mutual

/-- The tokens of a value in front of the given ones. -/
def tokensBefore : Json → List Token → List Token
  | .null, rest => .null :: rest
  | .bool b, rest => .bool b :: rest
  | .number n, rest => .number n :: rest
  | .text s, rest => .text s :: rest
  | .array items, rest => .openArray :: itemTokens items (.closeArray :: rest)
  | .object members, rest => .openObject :: memberTokens members (.closeObject :: rest)

/-- The tokens of the items of an array. -/
def itemTokens : List Json → List Token → List Token
  | [], rest => rest
  | [v], rest => tokensBefore v rest
  | v :: vs, rest => tokensBefore v (.comma :: itemTokens vs rest)

/-- The tokens of the members of an object. -/
def memberTokens : List (Option String × Json) → List Token → List Token
  | [], rest => rest
  | [(k, v)], rest => .text k :: .colon :: tokensBefore v rest
  | (k, v) :: ms, rest => .text k :: .colon :: tokensBefore v (.comma :: memberTokens ms rest)

end

def tokens (j : Json) : List Token := j.tokensBefore []

/-! ## Rebuilding -/

/-- A container whose end has not been read; contents are held latest first. An entry is an object
    one of whose names has been read but not its value. -/
inductive Frame where
  | array (items : List Json)
  | object (members : List (Option String × Json))
  | entry (members : List (Option String × Json)) (name : Option String)

/-- What may come next. -/
inductive Expectation where
  /-- A value. -/
  | value
  /-- A value or the end of an array just opened. -/
  | item
  /-- A member's name or the end of an object just opened. -/
  | member
  /-- A member's name. -/
  | name
  /-- The colon after a name. -/
  | colon
  /-- A comma or the end of the innermost container. -/
  | separator
  /-- Nothing: the value is complete. -/
  | nothing (value : Json)

/-- The open containers, innermost first, and what may come next. -/
structure Builder where
  frames : List Frame
  next : Expectation

namespace Builder

def start : Builder := ⟨[], .value⟩

/-- Puts a finished value where it belongs. -/
def accept (v : Json) : List Frame → Option Builder
  | [] => some ⟨[], .nothing v⟩
  | .array items :: fs => some ⟨.array (v :: items) :: fs, .separator⟩
  | .entry members name :: fs => some ⟨.object ((name, v) :: members) :: fs, .separator⟩
  | .object _ :: _ => none

def closeArray : List Frame → Option Builder
  | .array items :: fs => accept (.array items.reverse) fs
  | _ => none

def closeObject : List Frame → Option Builder
  | .object members :: fs => accept (.object members.reverse) fs
  | _ => none

/-- Reads the first token of a value. -/
def startValue (fs : List Frame) : Token → Option Builder
  | .null => accept .null fs
  | .bool b => accept (.bool b) fs
  | .number n => accept (.number n) fs
  | .text s => accept (.text s) fs
  | .openArray => some ⟨.array [] :: fs, .item⟩
  | .openObject => some ⟨.object [] :: fs, .member⟩
  | _ => none

def startMember : List Frame → Token → Option Builder
  | .object members :: fs, .text name => some ⟨.entry members name :: fs, .colon⟩
  | _, _ => none

def resume : List Frame → Option Builder
  | .array items :: fs => some ⟨.array items :: fs, .value⟩
  | .object members :: fs => some ⟨.object members :: fs, .name⟩
  | _ => none

def step (b : Builder) (t : Token) : Option Builder :=
  match b.next, t with
  | .value, t => startValue b.frames t
  | .item, .closeArray => closeArray b.frames
  | .item, t => startValue b.frames t
  | .member, .closeObject => closeObject b.frames
  | .member, t => startMember b.frames t
  | .name, t => startMember b.frames t
  | .colon, .colon => some ⟨b.frames, .value⟩
  | .separator, .comma => resume b.frames
  | .separator, .closeArray => closeArray b.frames
  | .separator, .closeObject => closeObject b.frames
  | _, _ => none

def finish (b : Builder) : Option Json :=
  match b.next with
  | .nothing v => some v
  | _ => none

end Builder

def ofTokens? (ts : List Token) : Option Json :=
  (ts.foldlM Builder.step Builder.start).bind Builder.finish

/-! ## Text -/

def render (j : Json) : String := String.ofList (j.tokens.flatMap Token.chars)

def parse? (s : String) : Option Json := (Token.scan s.toList).bind ofTokens?

/-! ## Indented text

The text of a value for readers: one item or member a line, two blanks for each level, and nothing
between the brackets of an empty container. -/

/-- A line break and the indentation of a level. -/
def newline (level : Nat) : List Char := '\n' :: List.replicate (2 * level) ' '

mutual

/-- The indented text of a value that starts on the given level. -/
def prettyChars (level : Nat) : Json → List Char
  | .array [] => ['[', ']']
  | .array items => '[' :: prettyItems (level + 1) items ++ newline level ++ [']']
  | .object [] => ['\x7b', '\x7d']
  | .object members => '\x7b' :: prettyMembers (level + 1) members ++ newline level ++ ['\x7d']
  | .null => Token.null.chars
  | .bool b => (Token.bool b).chars
  | .number n => (Token.number n).chars
  | .text s => (Token.text s).chars

/-- The items of an array, each on a line of its own. -/
def prettyItems (level : Nat) : List Json → List Char
  | [] => []
  | [v] => newline level ++ prettyChars level v
  | v :: vs => newline level ++ prettyChars level v ++ ',' :: prettyItems level vs

/-- The members of an object, each on a line of its own. -/
def prettyMembers (level : Nat) : List (Option String × Json) → List Char
  | [] => []
  | [(k, v)] => newline level ++ (Token.text k).chars ++ [':', ' '] ++ prettyChars level v
  | (k, v) :: ms =>
    newline level ++ (Token.text k).chars ++ [':', ' '] ++ prettyChars level v
      ++ ',' :: prettyMembers level ms

end

def pretty (j : Json) : String := String.ofList (prettyChars 0 j)

end Json

end SortMerge
