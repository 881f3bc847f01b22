import SortMerge.Engine
import SortMerge.Proofs.Join.Output
import SortMerge.Proofs.Join.Unsorted
import SortMerge.Proofs.Operator.Found

set_option autoImplicit false

/-! # Statistics account for the output

The statistics of a join are added to in different places: a pair and its rows as soon as its merge
has gone through, empty pairs and tiles only once the output is finished. Still they agree with the
tiles handed out after every call, failed pulls included, because finishing the output of checked
tiles cannot fail, and nothing is counted for a pair that fails before. -/

namespace SortMerge

/-- The statistics account for the given output tiles: each pair of tiles was empty or gave one of
    them, and each of them has rows, which stem from at least one match. -/
structure Stats.Accounts (s : Stats) (tiles : List Tile) : Prop where
  tilePairs : s.tilePairs = s.emptyPairs + s.tilesEmitted
  tilesEmitted : s.tilesEmitted = tiles.length
  rowsEmitted : s.rowsEmitted = Tile.totalRows tiles
  nonempty : ∀ t ∈ tiles, 0 < t.rowCount
  tiles_le : s.tilesEmitted ≤ s.matchedGroups
  groups_le : s.matchedGroups ≤ s.rowsEmitted

theorem Tile.totalRows_append (ts us : List Tile) :
    totalRows (ts ++ us) = totalRows ts + totalRows us := by
  induction ts with
  | nil => simp [totalRows]
  | cons t ts ih => simp [totalRows, ih, Nat.add_assoc]

namespace Stats.Accounts

variable {s : Stats} {tiles : List Tile} {p : PassStats} {t : Tile}

theorem init : Stats.Accounts {} [] :=
  ⟨rfl, rfl, rfl, by simp, Nat.le_refl _, Nat.le_refl _⟩

/-- A pair without matches that are kept is an empty one. -/
theorem empty (h : s.Accounts tiles) (hmatched : p.matched = 0) (hemitted : p.emitted = 0) :
    (s.addPass p).addEmpty.Accounts tiles := by
  obtain ⟨hpairs, htiles, hrows, hpos, hle, hgroups⟩ := h
  refine ⟨?_, htiles, ?_, hpos, ?_, ?_⟩ <;>
    simp only [addPass, addEmpty] <;> omega

/-- A pair with rows gives one tile that has them. -/
theorem tile (h : s.Accounts tiles) (hrows : t.rowCount = p.emitted) (hmatched : 0 < p.matched)
    (hle : p.matched ≤ p.emitted) : (s.addPass p).addTile.Accounts (tiles ++ [t]) := by
  obtain ⟨hpairs, htiles, hrows', hpos, htiles_le, hgroups⟩ := h
  refine ⟨?_, ?_, ?_, ?_, ?_, ?_⟩
  · simp only [addPass, addTile]
    omega
  · simp only [addPass, addTile, List.length_append, List.length_singleton]
    omega
  · simp only [addPass, addTile, Tile.totalRows_append, Tile.totalRows]
    omega
  · intro u hu
    rcases List.mem_append.1 hu with hu | hu
    · exact hpos u hu
    · rw [List.mem_singleton.1 hu, hrows]
      omega
  · simp only [addPass, addTile]
    omega
  · simp only [addPass, addTile]
    omega

end Stats.Accounts

/-! ## One pair -/

theorem length_le_productSizes {ms : List Match}
    (h : ∀ m ∈ ms, 0 < m.left.size ∧ 0 < m.right.size) : ms.length ≤ productSizes ms := by
  induction ms with
  | nil => exact Nat.le_refl _
  | cons m ms ih =>
      obtain ⟨hhead, htail⟩ := List.forall_mem_cons.1 h
      have hpos : 0 < m.left.size * m.right.size := Nat.mul_pos hhead.1 hhead.2
      have hrest := ih htail
      rw [List.length_cons, productSizes]
      omega

/-- Each match that is kept emits at least one pair of rows. -/
theorem matched_le_emitted (p : Plan) (params : List Scalar) (left right : Tile) :
    (PassStats.ofMatches (p.merge params left right).toList).matched
      ≤ (PassStats.ofMatches (p.merge params left right).toList).emitted := by
  refine length_le_productSizes fun m hm => ?_
  obtain ⟨hleft, hright, -⟩ := isMatch_of_mem_merge (List.mem_filter.1 hm).1
  exact ⟨Nat.sub_pos_of_lt hleft.first_lt_stop, Nat.sub_pos_of_lt hright.first_lt_stop⟩

/-- Rows are only emitted by matches that are kept. -/
theorem matched_pos {ms : List Match} (h : emittedPairs ms ≠ []) :
    0 < (PassStats.ofMatches ms).matched := by
  refine List.length_pos_iff.2 fun hnil => h ?_
  rw [emittedPairs, hnil, List.flatMap_nil]

namespace Join

variable {j : Join} {left right : Tile} {s : Stats} {tiles : List Tile}

/-- The statistics after a pair account for the given tiles and for what came of the pair, once that
    is counted. -/
def AccountsForPair (tiles : List Tile) : Stats × Except OperatorError (Option Tile) → Prop
  | (s, .error _) => s.Accounts tiles
  | (s, .ok none) => s.addEmpty.Accounts tiles
  | (s, .ok (some t)) => s.addTile.Accounts (tiles ++ [t])

theorem joinPair_accounts (h : s.Accounts tiles) :
    AccountsForPair tiles (j.joinPair left right s) := by
  rcases j.joinPair_cases left right s with ⟨e, -, hjoin⟩ | ⟨e, -, -, hjoin⟩ | ⟨hcheck, -, hjoin⟩
  · rw [hjoin]
    exact h
  · rw [hjoin]
    exact h
  · have hle := matched_le_emitted j.plan j.params left right
    have hlength := length_emittedPairs (j.plan.merge j.params left right).toList
    obtain ⟨hleft, hright⟩ := sound_of_checkPair hcheck
    -- the tiles were checked, so that their output finishes
    rcases Output.finish_append_cases hleft hright fun q hq =>
      mem_rowPairs.1 (mem_rowPairs_of_mem_emittedPairs hq) with
      ⟨hnil, hfinish⟩ | ⟨hne, t, hfinish, -, hshows⟩
    · rw [hnil, List.length_nil] at hlength
      rw [hjoin, hfinish]
      exact h.empty (by omega) hlength.symm
    · rw [hjoin, hfinish]
      exact h.tile (hshows.rows.trans hlength) (matched_pos hne) hle

end Join

/-! ## Traces -/

/-- Along a trace the statistics account for the given tiles and those that the trace adds. -/
def Trace.Accounts : Trace → List Tile → Prop
  | .stop (_, s), tiles => s.Accounts tiles
  | .step (.tile t, s) rest, tiles =>
    s.Accounts (tiles ++ [t]) ∧ Trace.Accounts rest (tiles ++ [t])
  | .step (_, s) rest, tiles => s.Accounts tiles ∧ Trace.Accounts rest tiles

theorem Join.trace_accounts (j : Join) (right left : Feed) {s : Stats} {tiles : List Tile}
    (h : s.Accounts tiles) : (j.trace right left s).Accounts tiles := by
  fun_induction Join.trace j right left s generalizing tiles
  case case1 | case2 | case6 | case7 | case9 => exact h
  case case3 ih | case4 ih | case5 ih | case8 ih | case10 ih | case11 ih => exact ⟨h, ih h⟩
  case case12 hpair ih =>
      have hfailed : Join.AccountsForPair tiles (_, .error _) := hpair ▸ Join.joinPair_accounts h
      exact ⟨hfailed, ih hfailed⟩
  case case13 hpair ih =>
      have hempty : Join.AccountsForPair tiles (_, .ok none) := hpair ▸ Join.joinPair_accounts h
      exact ih hempty
  case case14 hpair ih =>
      have htile : Join.AccountsForPair tiles (_, .ok (some _)) := hpair ▸ Join.joinPair_accounts h
      exact ⟨htile, ih htile⟩

/-! ## Calls -/

/-- The statistics account for the given tiles, and will account for these and whatever the operator
    finds from now on. -/
structure Operator.Accounts (o : Operator) (tiles : List Tile) : Prop where
  plain : o.ahead.Plain
  now : o.stats.Accounts tiles
  later : o.ahead.Accounts tiles

namespace Operator

variable {o : Operator} {tiles : List Tile}

theorem accounts_ofSource (j : Join) (left right : Source) :
    (ofSource (.join j left right)).Accounts [] :=
  ⟨j.trace_plain _ _ _, .init, j.trace_accounts _ _ .init⟩

/-- A pull adds the tile that it finds to what is accounted for. -/
theorem Accounts.pull (h : o.Accounts tiles) : o.pull.2.Accounts (tiles ++ o.next?.toList) := by
  have hplain := plain_pull h.plain
  have hlater := h.later
  rw [next?]
  rcases pull_cases h.plain with ⟨e, s, hahead, hpull⟩ | ⟨e, s, rest, hahead, -, hpull⟩ |
    ⟨t, s, rest, hahead, -, hpull⟩
  · rw [hahead] at hlater
    rw [hpull] at hplain ⊢
    rw [reportsTile_elim, if_neg Bool.false_ne_true, Option.toList_none, List.append_nil]
    exact ⟨hplain, hlater, h.later⟩
  · rw [hahead] at hlater
    rw [hpull] at hplain ⊢
    rw [reportsTile, if_neg Bool.false_ne_true, Option.toList_none, List.append_nil]
    exact ⟨hplain, hlater.1, hlater.2⟩
  · rw [hahead] at hlater
    rw [hpull] at hplain ⊢
    rw [reportsTile, if_pos rfl, Option.toList_some]
    exact ⟨hplain, hlater.1, hlater.2⟩

theorem Accounts.after (h : o.Accounts tiles) (calls : List Call) :
    (o.after calls).Accounts (tiles ++ o.found calls) := by
  induction calls generalizing o tiles with
  | nil =>
      rw [found, List.append_nil]
      exact h
  | cons call calls ih =>
      cases call with
      | take => exact ih ⟨h.plain, h.now, h.later⟩
      | pull =>
          rw [found, ← List.append_assoc]
          exact ih h.pull

end Operator

/-! ## Runs -/

theorem Engine.run_eq_ok {stamp : RunStamp} {j : Join} {left right : Source} {r : Report}
    (h : Engine.run stamp j left right = .ok r) :
    (Operator.ofSource (.join j left right)).drain.1 = .ok r.tiles ∧
      r.stats = (Operator.ofSource (.join j left right)).drain.2.stats ∧
      r.manifest = Engine.manifest stamp j.plan r.tiles := by
  rw [run] at h
  match hdrain : (Operator.ofSource (.join j left right)).drain with
  | (.error e, o) =>
      rw [hdrain] at h
      cases h
  | (.ok tiles, o) =>
      rw [hdrain] at h
      cases h
      exact ⟨rfl, rfl, rfl⟩

/-- After any calls the statistics of a join account for the tiles that pulls have found, one for
    each pull that reported a tile; failed pulls are no exception. So the manifest of a run states
    the number of tiles and rows that the run hands back, which are those of the statistics. -/
theorem statistics_account (j : Join) (left right : Source) :
    (∀ calls,
        ((Operator.ofSource (.join j left right)).after calls).stats.Accounts
            ((Operator.ofSource (.join j left right)).found calls) ∧
          ((Operator.ofSource (.join j left right)).found calls).length
            = ((Operator.ofSource (.join j left right)).answers calls).countP
                Operator.reportsTile) ∧
      ∀ stamp r, Engine.run stamp j left right = .ok r →
        r.manifest.outputTiles = r.tiles.length ∧ r.tiles.length = r.stats.tilesEmitted ∧
          r.manifest.outputRows = r.totalRows ∧ r.totalRows = r.stats.rowsEmitted := by
  have haccounts := Operator.accounts_ofSource j left right
  have hcalls (calls : List Call) := (haccounts.after calls).now
  refine ⟨fun calls => ⟨hcalls calls, Operator.length_found haccounts.plain calls⟩,
    fun stamp r hrun => ?_⟩
  obtain ⟨hdrain, hstats, hmanifest⟩ := Engine.run_eq_ok hrun
  obtain ⟨calls, hafter, hfound⟩ := (Operator.ofSource (.join j left right)).drain_eq_after
  have hlast := hcalls calls
  rw [List.nil_append, ← hafter, ← hstats, hfound _ hdrain] at hlast
  rw [hmanifest]
  exact ⟨rfl, hlast.tilesEmitted.symm, rfl, hlast.rowsEmitted.symm⟩

/-- A run that joins one pair of single rows reports one tile and one row. -/
theorem statistics_account_single :
    ∃ r, Engine.run {} Example.checked Example.once Example.twice = .ok r ∧
      r.manifest.outputTiles = 1 ∧ r.manifest.outputRows = 1 ∧ r.stats.tilesEmitted = 1 ∧
        r.stats.rowsEmitted = 1 := by
  obtain ⟨t, hdrain, hrows⟩ := Example.drain_once_twice
  have hrun : ∃ r, Engine.run {} Example.checked Example.once Example.twice = .ok r ∧
      r.tiles = [t] := by
    rw [Engine.run]
    generalize (Operator.ofSource (.join Example.checked Example.once Example.twice)).drain = result
      at hdrain
    obtain ⟨result, o⟩ := result
    cases hdrain
    exact ⟨_, rfl, rfl⟩
  obtain ⟨r, hr, htiles⟩ := hrun
  obtain ⟨htiles', hemitted, hrows', hrowsEmitted⟩ :=
    (statistics_account Example.checked Example.once Example.twice).2 {} r hr
  have htotal : r.totalRows = 1 := by
    rw [Report.totalRows, htiles, Tile.totalRows, Tile.totalRows, hrows]
  rw [htiles] at htiles' hemitted
  exact ⟨r, hr, htiles', hrows'.trans htotal, hemitted.symm, hrowsEmitted.symm.trans htotal⟩

end SortMerge
