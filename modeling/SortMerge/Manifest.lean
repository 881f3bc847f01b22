import SortMerge.Digest
import SortMerge.Json.Reading

set_option autoImplicit false

/-! # Manifests

The record of a run, for audits: which plan ran, what came out and when. The run's identifier and
the two times come from outside, everything else is determined by the run. -/

namespace SortMerge

/-! ## Run identifiers -/

/-- A 16-byte identifier. -/
structure RunId where
  bytes : List UInt8
  length_eq : bytes.length = 16

namespace RunId

def nil : RunId := ⟨List.replicate 16 0, List.length_replicate⟩

/-- The hexadecimal digits in groups of 8, 4, 4, 4 and 12, with hyphens between them. -/
def toText (r : RunId) : String :=
  let ds := Text.Hex.encode r.bytes
  String.ofList (ds.take 8 ++ '-' :: (ds.drop 8).take 4 ++ '-' :: (ds.drop 12).take 4
    ++ '-' :: (ds.drop 16).take 4 ++ '-' :: ds.drop 20)

def ofDigits? (ds : List Char) : Option RunId :=
  match Text.Hex.decode ds with
  | none => none
  | some bytes => if h : bytes.length = 16 then some ⟨bytes, h⟩ else none

/-- The identifier that hyphenated groups of digits spell. -/
def ofGroups? (cs : List Char) : Option RunId :=
  if cs.length = 36 ∧ [8, 13, 18, 23].all fun i => cs[i]? = some '-' then
    ofDigits? (cs.take 8 ++ (cs.drop 9).take 4 ++ (cs.drop 14).take 4 ++ (cs.drop 19).take 4
      ++ cs.drop 24)
  else none

/-- The identifier that a text spells: plain digits, or groups, which may stand in braces or behind
    the name of their namespace. -/
def ofText? (s : String) : Option RunId :=
  match s.toList with
  | '\x7b' :: cs => if cs.getLast? = some '\x7d' then ofGroups? cs.dropLast else none
  | 'u' :: 'r' :: 'n' :: ':' :: 'u' :: 'u' :: 'i' :: 'd' :: ':' :: cs => ofGroups? cs
  | cs => if cs.length = 32 then ofDigits? cs else ofGroups? cs

end RunId

/-! ## Manifests -/

def engineVersion : String := "0.1.0"

/-- The record of a run. Times are milliseconds since the start of 1970. -/
structure Manifest where
  id : RunId
  planHash : Digest
  engineVersion : String
  outputsDigest : Option Digest
  outputTiles : Nat
  outputRows : Nat
  startedMs : Nat
  finishedMs : Nat

namespace Manifest

/-- The record of a run that starts: nothing has come out yet. -/
def start (id : RunId) (planHash : Digest) (startedMs : Nat) : Manifest :=
  { id, planHash, engineVersion := SortMerge.engineVersion, outputsDigest := none,
    outputTiles := 0, outputRows := 0, startedMs, finishedMs := startedMs }

def finish (m : Manifest) (finishedMs : Nat) (outputsDigest : Option Digest) : Manifest :=
  { m with finishedMs, outputsDigest }

/-! ## JSON -/

/-- The names of a manifest's fields in JSON, in order. -/
def fieldNames : List String :=
  ["id", "plan_hash", "engine_version", "outputs_digest", "output_tiles", "output_rows",
    "started_ms", "finished_ms"]

/-- A digest in JSON, null where there is none. -/
def digestJson : Option Digest → Json
  | none => .null
  | some d => .ofString d.toHex

def toJson (m : Manifest) : Json :=
  .record (fieldNames.zip
    [.ofString m.id.toText, .ofString m.planHash.toHex, .ofString m.engineVersion,
      digestJson m.outputsDigest, .ofNat m.outputTiles, .ofNat m.outputRows,
      .ofNat m.startedMs, .ofNat m.finishedMs])

def digestOfDoc? (d : Doc) : Option Digest := d.text?.bind Digest.ofHex?

/-- The digest of a slot that may be empty or null. -/
def optionalDigest? : Option Doc → Option (Option Digest)
  | none => some none
  | some .null => some none
  | some d => (digestOfDoc? d).map some

/-- The manifest that a document spells. Only the outputs' digest may be missing. -/
def ofDoc? (d : Doc) : Option Manifest :=
  match d.slots? fieldNames 8 with
  | some [some id, some plan, some version, outputs, some tiles, some rows, some started,
      some finished] => do
    return {
      id := ← id.text?.bind RunId.ofText?
      planHash := ← digestOfDoc? plan
      engineVersion := ← version.text?
      outputsDigest := ← optionalDigest? outputs
      outputTiles := ← tiles.nat? 64
      outputRows := ← rows.nat? 64
      startedMs := ← started.nat? 64
      finishedMs := ← finished.nat? 64 }
  | _ => none

def ofJson? (s : String) : Option Manifest := (Json.read? s).bind ofDoc?

end Manifest

end SortMerge
