import SortMerge.Proofs.Join.Lines
import SortMerge.Proofs.Operator.Stream

set_option autoImplicit false

/-! # Streams cut between keys

A join of two streams joins tile by tile and never looks across the pairs, so in general it misses
rows whose keys meet in tiles at different places. It misses none if the streams are cut between
keys: if all keys of a pair of tiles are below all keys of the later pairs. The rows that come out
are then those of joining everything at once, in the same order, so where the cuts are makes no
difference. A predicate that has an outcome in every pair has one on the whole, since the rows that
it is asked about are the same. -/

namespace SortMerge

variable {p : Plan} {clauses : List Clause} {names : Side → List String}
  {blocks : List (Tile × Tile)} {b b' : Tile × Tile}

/-! ## Streams in key order -/

instance {P : Side → Prop} [DecidablePred P] : Decidable (∀ side, P side) :=
  decidable_of_iff (P .left ∧ P .right)
    ⟨fun ⟨hl, hr⟩ side => side.rec hl hr, fun h => ⟨h .left, h .right⟩⟩

/-- Every key in the first pair of tiles is below every key in the second pair, on both sides. -/
def KeysBelow (clauses : List Clause) (b b' : Tile × Tile) : Prop :=
  ∀ s s' : Side, ∀ i < (s.pick b.1 b.2).rowCount, ∀ k < (s'.pick b'.1 b'.2).rowCount,
    orderBy (fun c => c.key s ((s.pick b.1 b.2).row i))
      (fun c => c.key s' ((s'.pick b'.1 b'.2).row k)) clauses = .ok .lt

instance (clauses : List Clause) (b b' : Tile × Tile) : Decidable (KeysBelow clauses b b') :=
  inferInstanceAs (Decidable (∀ _ _ : Side, ∀ i < _, ∀ k < _, _ = _))

/-- Pairs of tiles, cut between keys: on each side all tiles are accepted and full, have the same
    columns and at least one of them, have a value for each half of a clause, and are sorted. -/
structure AlignedPairs (p : Plan) (names : Side → List String) (blocks : List (Tile × Tile)) :
    Prop where
  valid : p.validate = .ok ()
  columns : ∀ side, names side ≠ []
  check : ∀ b ∈ blocks, ∀ side : Side, (side.pick b.1 b.2).check = .ok ()
  named : ∀ b ∈ blocks, ∀ side : Side,
    (side.pick b.1 b.2).columns.map ColumnView.name = names side
  full : ∀ b ∈ blocks, ∀ side : Side, (side.pick b.1 b.2).Full
  keys : ∀ b ∈ blocks, ∀ side : Side, HasKeys p.clauses side (side.pick b.1 b.2)
  sorted : ∀ b ∈ blocks, ∀ side : Side, SortedOn p.clauses side (side.pick b.1 b.2)
  below : blocks.Pairwise (KeysBelow p.clauses)

/-- The tiles of one side, in order. -/
def sideTiles (blocks : List (Tile × Tile)) (side : Side) : List Tile :=
  blocks.map fun b => side.pick b.1 b.2

/-- The lines of a pair of tiles. -/
def pairLines (b : Tile × Tile) : Block := (b.1.lines, b.2.lines)

theorem mem_pairLines {s : Side} {a : Line} :
    a ∈ s.pick (pairLines b).1 (pairLines b).2 ↔ a ∈ (s.pick b.1 b.2).lines := by
  cases s <;> exact Iff.rfl

theorem concat_pairLines (blocks : List (Tile × Tile)) (side : Side) :
    side.pick (Block.concat (blocks.map pairLines)).1 (Block.concat (blocks.map pairLines)).2
      = (sideTiles blocks side).flatMap Tile.lines := by
  rw [sideTiles, List.flatMap_map]
  cases side
  · exact List.flatMap_map pairLines Prod.fst blocks
  · exact List.flatMap_map pairLines Prod.snd blocks

/-- Lines of pairs in key order have no keys in common. -/
theorem KeysBelow.apart (h : KeysBelow clauses b b') :
    (pairLines b).Apart clauses (pairLines b') := by
  intro s s' a ha a' ha'
  obtain ⟨i, hi, rfl⟩ := Tile.mem_lines.1 (mem_pairLines.1 ha)
  obtain ⟨k, hk, rfl⟩ := Tile.mem_lines.1 (mem_pairLines.1 ha')
  rw [sameLineKey_line, ← Bool.not_eq_true, sameKey_iff, ← orderBy_eq_ok_eq_iff, h s s' i hi k hk]
  simp

namespace AlignedPairs

variable (h : AlignedPairs p names blocks)
include h

theorem keyed : ∀ b ∈ blocks.map pairLines, b.Keyed p.clauses := by
  rw [List.forall_mem_map]
  intro b hb s a ha
  obtain ⟨i, hi, rfl⟩ := Tile.mem_lines.1 (mem_pairLines.1 ha)
  rw [sameLineKey_line]
  exact (h.keys b hb s).sameKey_self hi

theorem apart : (blocks.map pairLines).Pairwise (Block.Apart p.clauses) := by
  rw [List.pairwise_map]
  exact h.below.imp fun hbelow => hbelow.apart

/-- The tile of all rows has all keys. -/
theorem hasKeys {side : Side} {t : Tile} (ht : t.Gathers (names side) (sideTiles blocks side)) :
    HasKeys p.clauses side t := by
  rw [hasKeys_iff_lines, ht.lines]
  intro l hl
  obtain ⟨t', ht', hl⟩ := List.mem_flatMap.1 hl
  obtain ⟨b, hb, rfl⟩ := List.mem_map.1 ht'
  exact hasKeys_iff_lines.1 (h.keys b hb side) l hl

/-- The tile of all rows is sorted: inside a pair because its tile is, across pairs because the
    keys rise. -/
theorem sortedOn {side : Side} {t : Tile} (ht : t.Gathers (names side) (sideTiles blocks side)) :
    SortedOn p.clauses side t := by
  rw [sortedOn_iff_lines (h.hasKeys ht), ht.lines, List.pairwise_flatMap, sideTiles,
    List.pairwise_map]
  constructor
  · intro t' ht'
    obtain ⟨b, hb, rfl⟩ := List.mem_map.1 ht'
    exact (sortedOn_iff_lines (h.keys b hb side)).1 (h.sorted b hb side)
  · refine h.below.imp fun {b b'} hbelow a ha a' ha' => ?_
    obtain ⟨i, hi, rfl⟩ := Tile.mem_lines.1 ha
    obtain ⟨k, hk, rfl⟩ := Tile.mem_lines.1 ha'
    have hlt := hbelow side side i hi k hk
    rw [keyOrder_congr _ _ (Tile.alike_line _ i) (Tile.alike_line _ k), keyOrder, hlt]
    simp

theorem keyedInputs_of_gathers {left right : Tile}
    (hl : left.Gathers (names .left) (sideTiles blocks .left))
    (hr : right.Gathers (names .right) (sideTiles blocks .right)) : KeyedInputs p left right := by
  refine ⟨h.valid, hl.check, hr.check, ?_, ?_, h.hasKeys hl, h.hasKeys hr⟩
  · intro hnil
    have hnames := hl.names
    rw [hnil] at hnames
    exact h.columns .left hnames.symm
  · intro hnil
    have hnames := hr.names
    rw [hnil] at hnames
    exact h.columns .right hnames.symm

theorem sortedInputs_of_gathers {left right : Tile}
    (hl : left.Gathers (names .left) (sideTiles blocks .left))
    (hr : right.Gathers (names .right) (sideTiles blocks .right)) : SortedInputs p left right :=
  ⟨h.valid, h.hasKeys hl, h.hasKeys hr, h.sortedOn hl, h.sortedOn hr⟩

/-- One pair by itself is aligned. -/
theorem of_mem (hb : b ∈ blocks) : AlignedPairs p names [b] := by
  have hsub : ∀ b' ∈ [b], b' ∈ blocks := by
    intro b' hb'
    rw [List.mem_singleton.1 hb']
    exact hb
  exact ⟨h.valid, h.columns, fun b' hb' => h.check b' (hsub b' hb'),
    fun b' hb' => h.named b' (hsub b' hb'), fun b' hb' => h.full b' (hsub b' hb'),
    fun b' hb' => h.keys b' (hsub b' hb'), fun b' hb' => h.sorted b' (hsub b' hb'),
    List.pairwise_singleton _ _⟩

theorem gathers_self (hb : b ∈ blocks) (side : Side) :
    (side.pick b.1 b.2).Gathers (names side) (sideTiles [b] side) :=
  ⟨h.check b hb side, h.named b hb side, by simp [sideTiles]⟩

end AlignedPairs

/-! ## Draining -/

section Drain

variable {j : Join} (h : AlignedPairs j.plan names blocks)
include h

/-- Joining the tiles of all rows gives a result exactly if the predicate has an outcome on all
    lines with equal keys, and then it shows the join of all lines. -/
theorem AlignedPairs.outcome_of_gathers {left right : Tile}
    (hl : left.Gathers (names .left) (sideTiles blocks .left))
    (hr : right.Gathers (names .right) (sideTiles blocks .right)) :
    ((∃ out, j.outcome left right = .ok out) ↔
        j.plan.Judged j.params (Block.concat (blocks.map pairLines)).1
          (Block.concat (blocks.map pairLines)).2) ∧
      ∀ out, j.outcome left right = .ok out →
        out.toList.flatMap Tile.lines = j.plan.joinLines j.params
          (Block.concat (blocks.map pairLines)).1 (Block.concat (blocks.map pairLines)).2 := by
  have hleft := concat_pairLines blocks .left
  have hright := concat_pairLines blocks .right
  simp only [Side.pick] at hleft hright
  rw [hleft, hright, ← hl.lines, ← hr.lines]
  exact Join.outcome_of_sorted (h.keyedInputs_of_gathers hl hr) (h.sortedInputs_of_gathers hl hr)

theorem AlignedPairs.outcome_of_mem (hb : b ∈ blocks) :
    ((∃ out, j.outcome b.1 b.2 = .ok out) ↔ j.plan.Judged j.params b.1.lines b.2.lines) ∧
      ∀ out, j.outcome b.1 b.2 = .ok out →
        out.toList.flatMap Tile.lines = j.plan.joinLines j.params b.1.lines b.2.lines := by
  have hpair := (h.of_mem hb).outcome_of_gathers (h.gathers_self hb .left)
    (h.gathers_self hb .right)
  simpa [Block.concat, pairLines, Side.pick] using hpair

omit h in
theorem outcomes_sideTiles :
    j.outcomes (sideTiles blocks .left) (sideTiles blocks .right)
      = blocks.map fun b => j.outcome b.1 b.2 := by
  rw [Join.outcomes, sideTiles, sideTiles, List.zipWith_map, List.zipWith_self]
  rfl

/-- What a run over aligned pairs gives shows the joins of the pairs, one after the other. -/
theorem AlignedPairs.lines_of_drain {tiles : List Tile}
    (hdrain : (Operator.ofSource (.join j (.scan (sideTiles blocks .left))
      (.scan (sideTiles blocks .right)))).drain.1 = .ok tiles)
    (hstrict : j.config.strictRightExhaustion = false) :
    (∀ b ∈ blocks, j.plan.Judged j.params b.1.lines b.2.lines) ∧
      tiles.flatMap Tile.lines
        = blocks.flatMap fun b => j.plan.joinLines j.params b.1.lines b.2.lines := by
  have hoks := Operator.ok_of_drain (Operator.joins_scans _ _ _) hdrain
  rw [Operator.drain_of_all_ok (Operator.joins_scans _ _ _) hoks, hstrict] at hdrain
  rw [outcomes_sideTiles] at hoks hdrain
  rw [List.forall_mem_map] at hoks
  rw [if_neg (by simp), Except.ok.injEq] at hdrain
  refine ⟨fun b hb => (h.outcome_of_mem hb).1.1 (hoks b hb), ?_⟩
  rw [← hdrain, List.filterMap_map, List.filterMap_eq_flatMap_toList, List.flatMap_assoc]
  refine List.flatMap_congr fun b hb => ?_
  obtain ⟨out, hout⟩ := hoks b hb
  rw [Function.comp_apply, hout]
  exact (h.outcome_of_mem hb).2 out hout

end Drain

/-- On each side there is a tile that holds all rows of aligned tiles. If joining the tiles pair by
    pair goes through, then so does joining the tiles of all rows, and the same rows come out in the
    same order. The end of the right input must not count as an error, since it is always met. -/
theorem drain_aligned {j : Join} {names : Side → List String} {blocks : List (Tile × Tile)}
    (h : AlignedPairs j.plan names blocks) (hstrict : j.config.strictRightExhaustion = false) :
    (∀ side, ∃ t : Tile, t.Gathers (names side) (sideTiles blocks side)) ∧
      ∀ left right : Tile, left.Gathers (names .left) (sideTiles blocks .left) →
        right.Gathers (names .right) (sideTiles blocks .right) →
          ∀ tiles, (Operator.ofSource (.join j (.scan (sideTiles blocks .left))
              (.scan (sideTiles blocks .right)))).drain.1 = .ok tiles →
            ∃ tiles', (Operator.ofSource (.join j (.scan [left]) (.scan [right]))).drain.1
                = .ok tiles' ∧
              tiles'.flatMap Tile.lines = tiles.flatMap Tile.lines := by
  constructor
  · intro side
    refine ⟨_, Tile.gathers_stacked (h.columns side) ?_ ?_⟩
    · intro t ht
      obtain ⟨b, hb, rfl⟩ := List.mem_map.1 ht
      exact h.full b hb side
    · intro t ht
      obtain ⟨b, hb, rfl⟩ := List.mem_map.1 ht
      rw [← h.named b hb side, List.length_map]
      rfl
  · intro left right hl hr tiles hdrain
    obtain ⟨hjudged, hlines⟩ := h.lines_of_drain hdrain hstrict
    obtain ⟨houtcome, hout⟩ := h.outcome_of_gathers hl hr
    obtain ⟨out, hok⟩ := houtcome.2
      (Block.judged_concat h.keyed h.apart (by rwa [List.forall_mem_map]))
    have hall : ∀ x ∈ j.outcomes [left] [right], ∃ t, x = .ok t := by
      simp [Join.outcomes, hok]
    refine ⟨out.toList, ?_, ?_⟩
    · rw [Operator.drain_of_all_ok (Operator.joins_scans _ _ _) hall, hstrict]
      cases out <;> simp [Join.outcomes, hok, outputTile?]
    · rw [hout out hok, hlines, Block.joinLines_concat h.keyed h.apart, List.flatMap_map]
      rfl

namespace Example

/-- Two pairs of tiles with a key and something else, cut between the keys one and two. -/
def shipments : List (Tile × Tile) :=
  [(tile [[.int64 1, .int64 1], [.int16 0, .int16 4]] 2, tile [[.int32 1], [.text "a"]] 1),
    (tile [[.int64 2], [.int16 9]] 1,
      tile [[.float64 0x4000000000000000, .int64 3], [.text "b", .text "c"]] 2)]

/-- Equal keys whose second column is not below the parameter on the left. -/
def atLeast : Join :=
  { plan :=
      { clauses := [.onColumns 0 0]
        predicate := some (.compare .ge (.column .left 1) (.param 0)) }
    config := { verifySortedInputs := true, strictRightExhaustion := false }
    params := [.int64 0] }

/-- All rows of one side of the shipments. -/
def whole (side : Side) : Tile := Tile.whole (Tile.stacked ["", ""] (sideTiles shipments side))

end Example

/-- Two runs of two pairs and of one pair, whose rows are the same. -/
theorem drain_aligned_shipments :
    AlignedPairs Example.atLeast.plan (fun _ => ["", ""]) Example.shipments ∧
      ∃ tiles tiles', (Operator.ofSource (.join Example.atLeast
          (.scan (sideTiles Example.shipments .left))
          (.scan (sideTiles Example.shipments .right)))).drain.1 = .ok tiles ∧
        (Operator.ofSource (.join Example.atLeast (.scan [Example.whole .left])
          (.scan [Example.whole .right]))).drain.1 = .ok tiles' ∧
        tiles'.flatMap Tile.lines =
          [[some (.int64 1), some (.int16 0), some (.int32 1), some (.text "a")],
            [some (.int64 1), some (.int16 4), some (.int32 1), some (.text "a")],
            [some (.int64 2), some (.int16 9), some (.float64 0x4000000000000000),
              some (.text "b")]] := by
  have h : AlignedPairs Example.atLeast.plan (fun _ => ["", ""]) Example.shipments :=
    ⟨by decide, by decide, by decide, by decide, by decide, by decide, by decide, by decide⟩
  have hgathers (side : Side) :
      (Example.whole side).Gathers ["", ""] (sideTiles Example.shipments side) := by
    refine Tile.gathers_stacked (List.cons_ne_nil _ _) ?_ ?_
    · revert side
      decide
    · revert side
      decide
  -- the predicate has an outcome on every pair of lines, so that no pair of tiles fails
  have hoks : ∀ x ∈ Example.atLeast.outcomes (sideTiles Example.shipments .left)
      (sideTiles Example.shipments .right), ∃ out, x = .ok out := by
    rw [outcomes_sideTiles, List.forall_mem_map]
    intro b hb
    exact (h.outcome_of_mem hb).1.2 (by unfold Plan.Judged; revert b; decide)
  have hdrain := Operator.drain_of_all_ok (Operator.joins_scans Example.atLeast _ _) hoks
  rw [if_neg (by decide)] at hdrain
  obtain ⟨tiles', hdrain', hlines⟩ :=
    (drain_aligned h rfl).2 _ _ (hgathers .left) (hgathers .right) _ hdrain
  refine ⟨h, _, tiles', hdrain, hdrain', hlines.trans ?_⟩
  rw [(h.lines_of_drain hdrain rfl).2]
  decide

end SortMerge
