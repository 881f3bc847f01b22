import SortMerge.Manifest
import SortMerge.Operator
import SortMerge.Plan.Basic
import SortMerge.Tile

set_option autoImplicit false

/-! # Engines

An engine runs a join to its end under its settings and reports the tiles, the statistics and a
manifest. Two runs of the same plan over the same inputs have the same plan hash and the same digest
of the outputs. -/

namespace SortMerge

/-- The fingerprint of a plan, taken over its JSON text. -/
def Plan.hash (p : Plan) : Digest := .ofText p.toJson.render

/-- What identifies a run and says when it took place; it comes from outside. -/
structure RunStamp where
  id : RunId := .nil
  startedMs : Nat := 0
  finishedMs : Nat := 0

/-- What a finished run hands back. -/
structure Report where
  manifest : Manifest
  tiles : List Tile
  stats : Stats

namespace Report

/-- The number of rows in all tiles. -/
def totalRows (r : Report) : Nat := Tile.totalRows r.tiles

def manifestText (r : Report) : String := r.manifest.toJson.pretty

end Report

/-- The owner of the settings that joins run with. -/
structure Engine where
  config : Config

namespace Engine

/-- A join of two sources under the engine's settings. -/
def join (e : Engine) (plan : Plan) (params : List Scalar) : Except RunError Join :=
  (Join.build? plan e.config params).mapError fun err => .operator (.plan err)

/-- The manifest of a run of the given plan that handed out the given tiles. -/
def manifest (stamp : RunStamp) (plan : Plan) (tiles : List Tile) : Manifest :=
  { Manifest.start stamp.id plan.hash stamp.startedMs with
    outputTiles := tiles.length
    outputRows := Tile.totalRows tiles }.finish stamp.finishedMs
      (some (Digest.ofTiles tiles))

/-- Runs a join of two sources to its end. -/
def run (stamp : RunStamp) (spec : Join) (left right : Source) : Except RunError Report :=
  match (Operator.ofSource (.join spec left right)).drain with
  | (.error e, _) => .error e
  | (.ok tiles, o) => .ok ⟨manifest stamp spec.plan tiles, tiles, o.stats⟩

end Engine

end SortMerge
