import SortMerge.Expr.Basic

set_option autoImplicit false

/-! # Expressions as JSON

An expression is a record whose entry `kind` names its form; the other entries are the form's
fields. It may also be a list with the name in front of the fields. An expression document is held
as a whole before it is taken apart, so every part of it must be readable, and below the top a form
may be named by its position.

Reading goes bottom up: every part of the document is read both as an expression and as a list of
expressions, and the form above it takes what it needs. -/

namespace SortMerge.Expr

/-! ## Forms -/

/-- The forms of expressions. -/
inductive Form where
  | column | literal | param | compare | and | or | not
  deriving DecidableEq, Repr

namespace Form

def all : List Form := [.column, .literal, .param, .compare, .and, .or, .not]

def name : Form → String
  | .column => "column"
  | .literal => "literal"
  | .param => "param"
  | .compare => "compare"
  | .and => "and"
  | .or => "or"
  | .not => "not"

/-- The names of a form's fields, in order. -/
def fields : Form → List String
  | .column => ["side", "index"]
  | .literal => ["value"]
  | .param => ["index"]
  | .compare => ["op", "left", "right"]
  | .and => ["args"]
  | .or => ["args"]
  | .not => ["arg"]

end Form

def junctionForm : Junction → Form
  | .and => .and
  | .or => .or

/-! ## Writing -/

def formJson (f : Form) (values : List Json) : Json :=
  .record (("kind", .ofString f.name) :: f.fields.zip values)

mutual

def toJson : Expr → Json
  | .column side index => formJson .column [.ofString side.name, .ofNat index]
  | .literal v => formJson .literal [v.toJson]
  | .param index => formJson .param [.ofNat index]
  | .compare op l r => formJson .compare [.ofString op.name, l.toJson, r.toJson]
  | .junction op args => formJson (junctionForm op) [.array (toJsons args)]
  | .not arg => formJson .not [arg.toJson]

def toJsons : List Expr → List Json
  | [] => []
  | e :: es => e.toJson :: toJsons es

end

/-! ## Reading -/

/-- A part of a document, as an expression and as a list of expressions where it is one. -/
structure Part where
  doc : Doc
  expr : Option Expr
  exprs : Option (List Expr)

def sideOfDoc? (d : Doc) : Option Side :=
  (d.plainChoice? true (Side.all.map Side.name)).bind (Side.all[·]?)

def comparisonOfDoc? (d : Doc) : Option Comparison :=
  (d.plainChoice? true (Comparison.all.map Comparison.name)).bind (Comparison.all[·]?)

/-- The number of a column or a parameter. -/
def index? (d : Doc) : Option Nat := d.nat? 64

/-- The expression of a form with the given fields. -/
def ofSlots? : Form → List (Option Part) → Option Expr
  | .column, [some side, some index] =>
    match sideOfDoc? side.doc, index? index.doc with
    | some s, some i => some (.column s i)
    | _, _ => none
  | .literal, [some value] => (Scalar.ofDoc? true value.doc).map .literal
  | .param, [some index] => (index? index.doc).map .param
  | .compare, [some op, some left, some right] =>
    match comparisonOfDoc? op.doc, left.expr, right.expr with
    | some op, some l, some r => some (.compare op l r)
    | _, _, _ => none
  | .and, [some args] => args.exprs.map (.junction .and)
  | .or, [some args] => args.exprs.map (.junction .or)
  | .not, [some arg] => arg.expr.map .not
  | _, _ => none

/-- The form that a document names: by name, or below the top also by position. -/
def form? (top : Bool) (d : Doc) : Option Form :=
  match top, d with
  | true, .unsigned _ => none
  | _, d => (d.pick? (Form.all.map Form.name)).bind (Form.all[·]?)

/-- The field that an entry's name stands for. A position past the last field is as good as the name
    of an unknown one. -/
def fieldName? (names : List String) : Doc → Option String
  | .text s => some s
  | .unsigned n => some (names.getD n "")
  | _ => none

def isKind (e : Doc × Part) : Bool :=
  match e.1 with
  | .text s => s == "kind"
  | _ => false

def ofEntries? (top : Bool) (entries : List (Doc × Part)) : Option Expr :=
  match entries.filter isKind with
  | [(_, kind)] =>
    match form? top kind.doc with
    | none => none
    | some f =>
      let named := (entries.filter (!isKind ·)).map fun e => (fieldName? f.fields e.1, e.2)
      ((Shape.named named).slots? f.fields f.fields.length).bind (ofSlots? f)
  | _ => none

def ofItems? (top : Bool) : List Part → Option Expr
  | [] => none
  | kind :: items =>
    match form? top kind.doc with
    | none => none
    | some f => ((Shape.positional items).slots? f.fields f.fields.length).bind (ofSlots? f)

mutual

/-- A document that stands below the top of an expression. -/
def Part.ofDoc : Doc → Part
  | .list items =>
    let parts := Part.ofDocs items
    ⟨.list items, ofItems? false parts, parts.mapM Part.expr⟩
  | .record entries => ⟨.record entries, ofEntries? false (Part.ofEntries entries), none⟩
  | d => ⟨d, none, none⟩

/-- Documents below the top of an expression. -/
def Part.ofDocs : List Doc → List Part
  | [] => []
  | d :: ds => Part.ofDoc d :: Part.ofDocs ds

/-- The entries of a record below the top of an expression. -/
def Part.ofEntries : List (Doc × Doc) → List (Doc × Part)
  | [] => []
  | (k, v) :: es => (k, Part.ofDoc v) :: Part.ofEntries es

end

def ofDoc? (d : Doc) : Option Expr :=
  if d.isReadable then
    match d with
    | .list items => ofItems? true (Part.ofDocs items)
    | .record entries => ofEntries? true (Part.ofEntries entries)
    | _ => none
  else none

end SortMerge.Expr
