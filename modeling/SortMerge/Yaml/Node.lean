import SortMerge.Yaml.Token

set_option autoImplicit false

/-! # YAML nodes

A document is a tree of scalars, sequences and mappings. A node may carry a tag and an anchor, and
an alias stands for the node with its anchor. A node that is left out is an empty plain scalar.

The tree is read off the tokens by recursive descent. Every step takes a token or goes one step down
in the grammar, and the grammar goes down at most three times between two tokens, so a multiple of
the number of tokens bounds the recursion. -/

namespace SortMerge.Yaml

/-- A node. Tags are resolved; an alias has the number of the anchor that it refers to. -/
inductive Node where
  | alias (anchor : Nat)
  | scalar (tag : Option String) (plain : Bool) (text : String)
  | sequence (tag : Option String) (items : List Node)
  | mapping (tag : Option String) (entries : List (Node × Node))
  deriving Inhabited

/-- A document. -/
structure Document where
  root : Node
  /-- The nodes with anchors by the numbers of their anchors; the first entry of a number counts. -/
  anchored : List (Nat × Node)
  /-- The size of the tree, where a collection counts for its beginning and its end. -/
  size : Nat

/-- A document while it is being read. -/
structure Draft where
  rest : List Token
  /-- What the handles of tags stand for; the first entry of a handle counts. -/
  handles : List (String × String) := []
  size : Nat := 0
  /-- The number of each anchor name. -/
  names : List (String × Nat) := []
  /-- The place of the node that has a number, latest first. -/
  owners : List (Nat × Nat) := []
  /-- The finished nodes with anchors by their places. -/
  nodes : List (Nat × Node) := []

/-- A step of reading, which may fail. -/
abbrev Drafting := StateT Draft Option

/-- Where a node stands: in a block, as part of an entry of a block mapping, or inside brackets. A
    sequence that is part of an entry needs no indentation of its own. -/
inductive Place where
  | block | entry | flow
  deriving DecidableEq

namespace Draft

/-! ## Tokens -/

def peek : Drafting (Option Token) := do return (← get).rest.head?

def skip : Drafting Unit := modify fun c => { c with rest := c.rest.drop 1 }

/-- Goes over the next token if it is the given one. -/
def accept (t : Token) : Drafting Bool := do
  if (← peek) == some t then
    skip
    return true
  else
    return false

/-- Goes over the given token, which must come next. -/
def expect (t : Token) : Drafting Unit := do
  if !(← accept t) then failure

/-- Whether one of the given tokens comes next. -/
def comes (ts : List Token) : Drafting Bool := do
  return (← peek).any ts.contains

/-! ## Tags and anchors -/

/-- The handles that need no declaration. -/
def standardHandles : List (String × String) := [("!", "!"), ("!!", "tag:yaml.org,2002:")]

/-- The tag that a handle and a suffix spell. -/
def tagOf (handle suffix : String) : Drafting String := do
  if handle.isEmpty then
    return suffix
  else
    match ((← get).handles ++ standardHandles).lookup handle with
    | some expansion => return expansion ++ suffix
    | none => failure

/-- The anchor and the tag before a node, in either order. -/
def properties : Drafting (Option String × Option String) := do
  match ← peek with
  | some (.anchor name) =>
    skip
    match ← peek with
    | some (.tag handle suffix) =>
      skip
      return (some name, some (← tagOf handle suffix))
    | _ => return (some name, none)
  | some (.tag handle suffix) =>
    skip
    match ← peek with
    | some (.anchor name) =>
      skip
      return (some name, some (← tagOf handle suffix))
    | _ => return (none, some (← tagOf handle suffix))
  | _ => return (none, none)

def grow (n : Nat) : Drafting Unit := modify fun c => { c with size := c.size + n }

/-- An anchor at the present place. Its number is the number of names in use; a number that comes up
    again goes over to the later node. -/
def register (name : String) : Drafting Unit := modify fun c =>
  let number := c.names.length
  { c with
    names := (name, number) :: c.names.filter fun n => n.1 != name
    owners := (number, c.size) :: c.owners }

/-- Reads a node that may have an anchor. -/
def anchored (anchor : Option String) (read : Drafting Node) : Drafting Node :=
  match anchor with
  | none => read
  | some name => do
    let place := (← get).size
    register name
    let node ← read
    modify fun c => { c with nodes := (place, node) :: c.nodes }
    return node

/-- The alias of a name, which must be in use. -/
def aliasOf (name : String) : Drafting Node := do
  grow 1
  match (← get).names.lookup name with
  | some number => return .alias number
  | none => failure

/-! ## Nodes -/

/-- A scalar. The tag that is a lone exclamation mark says nothing. -/
def scalar (tag : Option String) (plain : Bool) (text : String) : Drafting Node := do
  grow 1
  return .scalar (tag.filter (· != "!")) plain text

/-- A node that is left out but may have a tag. -/
def blank (tag : Option String) : Drafting Node := do
  grow 1
  return .scalar tag true ""

/-- Reads a part of a collection, which is left out if one of the given tokens comes next. -/
def orBlank (ends : List Token) (read : Drafting Node) : Drafting Node := do
  if ← comes ends then blank none else read

mutual

def node : Nat → Place → Drafting Node
  | 0, _ => failure
  | steps + 1, place => do
    match ← peek with
    | some (.alias name) =>
      skip
      aliasOf name
    | _ =>
      let (anchor, tag) ← properties
      anchored anchor do
        match ← peek with
        | some (.scalar text plain) =>
          skip
          scalar tag plain text
        | some .openSequence =>
          skip
          grow 2
          return .sequence tag (← flowItems steps true)
        | some .openMapping =>
          skip
          grow 2
          return .mapping tag (← flowEntries steps true)
        | next =>
          if next == some .item && place == .entry then
            grow 2
            return .sequence tag (← looseItems steps)
          else if next == some .blockSequence && place != .flow then
            skip
            grow 2
            return .sequence tag (← blockItems steps)
          else if next == some .blockMapping && place != .flow then
            skip
            grow 2
            return .mapping tag (← blockEntries steps)
          else if anchor.isSome || tag.isSome then
            blank tag
          else
            failure

/-- The items of a sequence in a block of its own, up to the end of the block. -/
def blockItems : Nat → Drafting (List Node)
  | 0 => failure
  | steps + 1 => do
    if ← accept .item then
      let first ← orBlank [.item, .blockEnd] (node steps .block)
      return first :: (← blockItems steps)
    else
      expect .blockEnd
      return []

/-- The items of a sequence without a block of its own. -/
def looseItems : Nat → Drafting (List Node)
  | 0 => failure
  | steps + 1 => do
    if ← accept .item then
      let first ← orBlank [.item, .key, .value, .blockEnd] (node steps .block)
      return first :: (← looseItems steps)
    else
      return []

/-- The entries of a mapping in a block, up to the end of the block. -/
def blockEntries : Nat → Drafting (List (Node × Node))
  | 0 => failure
  | steps + 1 => do
    if ← accept .key then
      let ends := [Token.key, .value, .blockEnd]
      let key ← orBlank ends (node steps .entry)
      let value ← if ← accept .value then orBlank ends (node steps .entry) else blank none
      return (key, value) :: (← blockEntries steps)
    else
      expect .blockEnd
      return []

/-- The items of a sequence in brackets. A key makes a mapping with one entry; if that key is left
    out, the token in its place is passed over. -/
def flowItems : Nat → Bool → Drafting (List Node)
  | 0, _ => failure
  | steps + 1, first => do
    if ← accept .closeSequence then
      return []
    else
      if !first then expect .comma
      if ← accept .key then
        grow 2
        let key ← (do
          if ← comes [.value, .comma, .closeSequence] then
            skip
            blank none
          else
            node steps .flow)
        let value ←
          if ← accept .value then
            orBlank [.comma, .closeSequence] (node steps .flow)
          else
            blank none
        return .mapping none [(key, value)] :: (← flowItems steps false)
      else if ← accept .closeSequence then
        return []
      else
        let item ← node steps .flow
        return item :: (← flowItems steps false)

/-- The entries of a mapping in braces. A node that is no key has an entry without a value. -/
def flowEntries : Nat → Bool → Drafting (List (Node × Node))
  | 0, _ => failure
  | steps + 1, first => do
    if ← accept .closeMapping then
      return []
    else
      if !first then expect .comma
      if ← accept .key then
        let key ← orBlank [.value, .comma, .closeMapping] (node steps .flow)
        let value ←
          if ← accept .value then
            orBlank [.comma, .closeMapping] (node steps .flow)
          else
            blank none
        return (key, value) :: (← flowEntries steps false)
      else if ← accept .closeMapping then
        return []
      else
        let key ← node steps .flow
        let value ← blank none
        return (key, value) :: (← flowEntries steps false)

end

/-! ## Documents -/

/-- Whether a version of the language is understood. -/
def isSupported (major minor : Nat) : Bool := major == 1 && (minor == 1 || minor == 2)

/-- The directives before a document, each at most once: the version, and each handle. -/
def directives : Nat → Bool → Drafting Unit
  | 0, _ => failure
  | steps + 1, versioned => do
    match ← peek with
    | some (.version major minor) =>
      skip
      if versioned || !isSupported major minor then failure
      directives steps true
    | some (.tagHandle handle expansion) =>
      skip
      let c ← get
      if (c.handles.lookup handle).isSome then failure
      set { c with handles := (handle, expansion) :: c.handles }
      directives steps versioned
    | _ => return ()

/-- Whether a token stands before the content of a document. -/
def isPreamble : Token → Bool
  | .version .. => true
  | .tagHandle .. => true
  | .documentStart => true
  | _ => false

/-- Goes over the marks at the end of a document, behind which nothing may come. -/
def finish : Drafting Unit := do
  if (← get).rest.any (· != .documentEnd) then failure

/-- Reads the only document of some tokens. -/
def document (steps : Nat) : Drafting Node := do
  match ← peek with
  | none => failure
  | some t =>
    let root ← (do
      if isPreamble t then
        directives steps false
        expect .documentStart
        match ← peek with
        | none => blank none
        | some t =>
          if isPreamble t || t == .documentEnd then blank none else node steps .block
      else
        node steps .block)
    finish
    return root

end Draft

def Document.ofTokens? (ts : List Token) : Option Document :=
  (Draft.document (4 * ts.length + 4) |>.run { rest := ts }).map fun (root, c) =>
    { root
      anchored := c.owners.filterMap fun (number, place) =>
        (c.nodes.lookup place).map fun node => (number, node)
      size := c.size }

def Document.read? (s : String) : Option Document :=
  ((glyphs? s.toList).bind Token.scan).bind Document.ofTokens?

end SortMerge.Yaml
