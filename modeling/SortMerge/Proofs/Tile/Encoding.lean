import Mathlib.Data.List.Basic
import SortMerge.Proofs.Scalar.Bytes
import SortMerge.Proofs.Tile.Resolution

set_option autoImplicit false

/-! # What the bytes of tiles determine

The bytes of a sequence of tiles have no separators; the numbers at the start of each tile say how
much of what follows belongs to it. They say how many columns and rows there are, but not how many
position lists. That number cannot be seen in the bytes either, since positions and values are both
plain bytes. So equal bytes make equal tiles up to the first pair of tiles with different numbers of
position lists, and without such a pair they make equal sequences. If the last list of every tile is
named by a column there is no such pair, as the columns then tell how many lists there are. -/

namespace SortMerge.Tile

/-- The tile can be written without loss: it is accepted, every cell has a value, and all numbers
    fit the words that are written for them. -/
structure Writable (t : Tile) : Prop where
  check : t.check = .ok ()
  full : t.Full
  columns : t.columnCount < LittleEndian.capacity 8
  rows : t.rowCount < LittleEndian.capacity 8
  indices : ∀ v ∈ t.columns, v.list < LittleEndian.capacity 8
  positions : ∀ positions ∈ t.lists, ∀ p ∈ positions, p < LittleEndian.capacity 8
  values : ∀ c r v, t.value c r = some v → v.FitsWord

/-- The tiles have as many columns and rows, and the same lists are named by their columns. -/
structure SameHeader (t t' : Tile) : Prop where
  columns : t.columnCount = t'.columnCount
  rows : t.rowCount = t'.rowCount
  indices : t.columns.map ColumnView.list = t'.columns.map ColumnView.list

/-- The tiles also have the same position lists and the same values, bit for bit. -/
structure SameContent (t t' : Tile) : Prop extends SameHeader t t' where
  lists : t.lists = t'.lists
  values : ∀ c r, t.value c r = t'.value c r

variable {t t' : Tile} {s s' : List UInt8}

/-! ## Parts of a tile -/

/-- The scalars of a row. -/
def rowScalars (t : Tile) (r : Nat) : List Scalar :=
  (List.range t.columnCount).map fun c => (t.value c r).getD .null

/-- The scalars of all rows. -/
def scalars (t : Tile) : List (List Scalar) := (List.range t.rowCount).map t.rowScalars

/-- What is written for a tile after its header. -/
def bodyBytes (t : Tile) : List UInt8 :=
  t.lists.flatMap (List.flatMap wordBytes) ++ t.scalars.flatMap (List.flatMap Scalar.bytes)

namespace Writable

theorem sound (h : t.Writable) : t.Sound := (check_eq_ok_iff t).1 h.check

theorem value_eq_some (h : t.Writable) {c r : Nat} (hc : c < t.columnCount) (hr : r < t.rowCount) :
    t.value c r = some ((t.value c r).getD .null) := by
  obtain ⟨v, hv⟩ := Option.isSome_iff_exists.1 (h.full c hc r hr)
  rw [hv, Option.getD_some]

theorem rowBytes_eq (h : t.Writable) {r : Nat} (hr : r < t.rowCount) :
    t.rowBytes r = (t.rowScalars r).flatMap Scalar.bytes := by
  rw [rowBytes, rowScalars, List.flatMap_map]
  refine List.flatMap_congr fun c hc => ?_
  rw [h.value_eq_some (List.mem_range.1 hc) hr]
  rfl

/-- The bytes of a tile are two numbers, the list of each column, and the body. -/
theorem bytes_eq (h : t.Writable) :
    t.bytes = wordBytes t.columnCount ++ (wordBytes t.rowCount
      ++ ((t.columns.map ColumnView.list).flatMap wordBytes ++ t.bodyBytes)) := by
  have hvalues : (List.range t.rowCount).flatMap t.rowBytes
      = t.scalars.flatMap (List.flatMap Scalar.bytes) := by
    rw [scalars, List.flatMap_map]
    exact List.flatMap_congr fun r hr => h.rowBytes_eq (List.mem_range.1 hr)
  rw [bytes, hvalues, bodyBytes, List.flatMap_map]
  simp only [List.append_assoc]

end Writable

/-! ## One tile -/

theorem wordBytes_prefixFree : PrefixFree (fun n => n < LittleEndian.capacity 8) wordBytes :=
  LittleEndian.encode_prefixFree 8

/-- The header is read off the front of the bytes. -/
theorem sameHeader_of_bytes (h : t.Writable) (h' : t'.Writable)
    (heq : t.bytes ++ s = t'.bytes ++ s') :
    t.SameHeader t' ∧ t.bodyBytes ++ s = t'.bodyBytes ++ s' := by
  rw [h.bytes_eq, h'.bytes_eq] at heq
  simp only [List.append_assoc] at heq
  obtain ⟨hcolumns, heq⟩ := wordBytes_prefixFree h.columns h'.columns heq
  obtain ⟨hrows, heq⟩ := wordBytes_prefixFree h.rows h'.rows heq
  have hlists := wordBytes_prefixFree.flatMap t.columnCount
  obtain ⟨hindices, heq⟩ := hlists ⟨by simp [columnCount], by simpa using h.indices⟩
    ⟨by rw [hcolumns]; simp [columnCount], by simpa using h'.indices⟩ heq
  exact ⟨⟨hcolumns, hrows, hindices⟩, heq⟩

/-- The lists are equally long and hold words. -/
theorem Writable.lists_fit (h : t.Writable) : ∀ positions ∈ t.lists,
    positions.length = t.rowCount ∧ ∀ p ∈ positions, p < LittleEndian.capacity 8 :=
  fun positions hp => ⟨h.sound.even positions hp, h.positions positions hp⟩

/-- The rows are equally long and hold scalars that can be read back. -/
theorem Writable.scalars_fit (h : t.Writable) : ∀ row ∈ t.scalars,
    row.length = t.columnCount ∧ ∀ v ∈ row, v.FitsWord := by
  intro row hrow
  obtain ⟨r, hr, rfl⟩ := List.mem_map.1 hrow
  refine ⟨by simp [rowScalars], fun v hv => ?_⟩
  obtain ⟨c, hc, rfl⟩ := List.mem_map.1 hv
  exact h.values c r _ (h.value_eq_some (List.mem_range.1 hc) (List.mem_range.1 hr))

/-- Tiles with the same scalars in equally many rows and columns have the same values everywhere. -/
theorem value_eq_of_scalars (h : t.Writable) (h' : t'.Writable)
    (hcolumns : t.columnCount = t'.columnCount) (hrows : t.rowCount = t'.rowCount)
    (hscalars : t.scalars = t'.scalars) (c r : Nat) : t.value c r = t'.value c r := by
  by_cases hcell : c < t.columnCount ∧ r < t.rowCount
  · obtain ⟨hc, hr⟩ := hcell
    have hc' : c < t'.columnCount := hcolumns ▸ hc
    have hr' : r < t'.rowCount := hrows ▸ hr
    have hcells := congrArg (fun rows => rows[r]?.bind (·[c]?)) hscalars
    simp only [scalars, rowScalars, List.getElem?_map, List.getElem?_range hr,
      List.getElem?_range hr', List.getElem?_range hc, List.getElem?_range hc', Option.map_some,
      Option.bind_some, Option.some.injEq] at hcells
    rw [h.value_eq_some hc hr, h'.value_eq_some hc' hr', hcells]
  · have hnone := (h.sound.value_eq_none_iff c r).2 (by omega)
    have hnone' := (h'.sound.value_eq_none_iff c r).2 (by omega)
    rw [hnone, hnone']

/-- The body is read off the front, once it is known how many position lists there are. -/
theorem sameContent_of_bodyBytes (h : t.Writable) (h' : t'.Writable) (hheader : t.SameHeader t')
    (hcount : t.lists.length = t'.lists.length) (heq : t.bodyBytes ++ s = t'.bodyBytes ++ s') :
    t.SameContent t' ∧ s = s' := by
  rw [bodyBytes, bodyBytes, List.append_assoc, List.append_assoc] at heq
  have hlistsRead := (wordBytes_prefixFree.flatMap t.rowCount).flatMap t.lists.length
  obtain ⟨hlists, heq⟩ := hlistsRead ⟨rfl, h.lists_fit⟩
    ⟨hcount.symm, by rw [hheader.rows]; exact h'.lists_fit⟩ heq
  have hscalarsRead := (Scalar.bytes_prefixFree.flatMap t.columnCount).flatMap t.rowCount
  obtain ⟨hscalars, heq⟩ := hscalarsRead ⟨by simp [scalars], h.scalars_fit⟩
    ⟨by simp [scalars, hheader.rows], by rw [hheader.columns]; exact h'.scalars_fit⟩ heq
  exact ⟨⟨hheader, hlists,
    value_eq_of_scalars h h' hheader.columns hheader.rows hscalars⟩, heq⟩

/-! ## Sequences of tiles -/

/-- The sequences agree up to a pair of tiles with the same header and different numbers of position
    lists. -/
def PartInLists (ts ts' : List Tile) : Prop :=
  ∃ before before' t t' after after', ts = before ++ t :: after ∧ ts' = before' ++ t' :: after' ∧
    List.Forall₂ SameContent before before' ∧ t.SameHeader t' ∧ t.lists.length ≠ t'.lists.length

theorem bytes_append_ne_nil (h : t.Writable) : t.bytes ++ s ≠ [] := by
  intro hnil
  have hlength := congrArg List.length hnil
  rw [h.bytes_eq] at hlength
  simp [wordBytes] at hlength

/-- Equal bytes make equal sequences, or sequences that part in the number of position lists. -/
theorem forall₂_or_partInLists {ts ts' : List Tile} (h : ∀ t ∈ ts, t.Writable)
    (h' : ∀ t ∈ ts', t.Writable) (heq : sequenceBytes ts = sequenceBytes ts') :
    List.Forall₂ SameContent ts ts' ∨ PartInLists ts ts' := by
  induction ts generalizing ts' with
  | nil =>
      match ts' with
      | [] => exact .inl .nil
      | t' :: ts' => exact absurd heq.symm (bytes_append_ne_nil (h' t' List.mem_cons_self))
  | cons t ts ih =>
      match ts' with
      | [] => exact absurd heq (bytes_append_ne_nil (h t List.mem_cons_self))
      | t' :: ts' =>
          rw [List.forall_mem_cons] at h h'
          rw [sequenceBytes, sequenceBytes, List.flatMap_cons, List.flatMap_cons] at heq
          obtain ⟨hheader, hbody⟩ := sameHeader_of_bytes h.1 h'.1 heq
          by_cases hcount : t.lists.length = t'.lists.length
          · obtain ⟨hcontent, hrest⟩ := sameContent_of_bodyBytes h.1 h'.1 hheader hcount hbody
            rcases ih h.2 h'.2 hrest with hsame | hpart
            · exact .inl (.cons hcontent hsame)
            · obtain ⟨before, before', u, u', after, after', rfl, rfl, hbefore, hpart⟩ := hpart
              exact .inr ⟨t :: before, t' :: before', u, u', after, after', rfl, rfl,
                .cons hcontent hbefore, hpart⟩
          · exact .inr ⟨[], [], t, t', ts, ts', rfl, rfl, .nil, hheader, hcount⟩

/-- The last position list, if there is one, is named by a column. -/
def NamesLastList (t : Tile) : Prop :=
  t.lists ≠ [] → ∃ v ∈ t.columns, v.list + 1 = t.lists.length

/-- A tile has no fewer lists than one whose last list is named, if the columns of both name the
    same lists. -/
theorem length_lists_le (hsound : t.Sound) (hlast : t'.NamesLastList)
    (hindices : t.columns.map ColumnView.list = t'.columns.map ColumnView.list) :
    t'.lists.length ≤ t.lists.length := by
  by_cases hnil : t'.lists = []
  · simp [hnil]
  · obtain ⟨v', hv', hlist⟩ := hlast hnil
    have hmem : v'.list ∈ t.columns.map ColumnView.list := by
      rw [hindices]
      exact List.mem_map_of_mem hv'
    obtain ⟨v, hv, hsame⟩ := List.mem_map.1 hmem
    obtain ⟨positions, hpositions, -⟩ := hsound.resolves v hv
    have hlt := (List.getElem?_eq_some_iff.1 hpositions).1
    omega

/-- If two sequences of tiles have the same bytes, they agree tile by tile in everything that is
    written, up to the first pair of tiles that differ in the number of their position lists, which
    is not written. If the last list of every tile is named by a column they agree altogether. -/
theorem sequenceBytes_determines {ts ts' : List Tile} (h : ∀ t ∈ ts, t.Writable)
    (h' : ∀ t ∈ ts', t.Writable) (heq : sequenceBytes ts = sequenceBytes ts') :
    (List.Forall₂ SameContent ts ts' ∨ PartInLists ts ts') ∧
      ((∀ t ∈ ts ++ ts', t.NamesLastList) → List.Forall₂ SameContent ts ts') := by
  refine ⟨forall₂_or_partInLists h h' heq, fun hlast => ?_⟩
  rcases forall₂_or_partInLists h h' heq with hsame | hpart
  · exact hsame
  · obtain ⟨before, before', t, t', after, after', rfl, rfl, -, hheader, hcount⟩ := hpart
    have hle := length_lists_le (h t (by simp)).sound (hlast t' (by simp)) hheader.indices
    have hge := length_lists_le (h' t' (by simp)).sound (hlast t (by simp)) hheader.indices.symm
    omega

namespace Example

/-- A null, and a second position list that no column names. -/
def nulled : Tile := ⟨[⟨⟨[⟨"k", [.null]⟩]⟩, 0, 0⟩], [[0], [4]]⟩

/-- A zero, whose kind is written as the position in the other tile. -/
def zeroed : Tile := ⟨[⟨⟨[⟨"k", [.int64 0]⟩]⟩, 0, 0⟩], [[0]]⟩

theorem writable_nulled : nulled.Writable := by
  refine ⟨by decide, by decide, by decide, by decide, by decide, by decide, ?_⟩
  intro c r v hv
  rcases c with _ | c
  · rcases r with _ | r
    · cases hv
      trivial
    · cases hv
  · cases hv

theorem writable_zeroed : zeroed.Writable := by
  refine ⟨by decide, by decide, by decide, by decide, by decide, by decide, ?_⟩
  intro c r v hv
  rcases c with _ | c
  · rcases r with _ | r
    · cases hv
      trivial
    · cases hv
  · cases hv

end Example

/-- The two tiles have the same bytes, and part in the number of their lists. -/
theorem sequenceBytes_determines_nulled :
    sequenceBytes [Example.nulled] = sequenceBytes [Example.zeroed] ∧
      PartInLists [Example.nulled] [Example.zeroed] := by
  have heq : sequenceBytes [Example.nulled] = sequenceBytes [Example.zeroed] := by decide
  obtain ⟨hparts, -⟩ := sequenceBytes_determines
    (by simpa using Example.writable_nulled) (by simpa using Example.writable_zeroed) heq
  refine ⟨heq, hparts.resolve_left fun hsame => ?_⟩
  rcases hsame with - | ⟨hcontent, -⟩
  exact absurd hcontent.lists (by decide)

/-- Equal bytes do not make equal values, nor equally many lists. -/
theorem not_sameContent_of_sequenceBytes :
    ¬ ∀ ts ts' : List Tile, (∀ t ∈ ts, t.Writable) → (∀ t ∈ ts', t.Writable) →
      sequenceBytes ts = sequenceBytes ts' → List.Forall₂ SameContent ts ts' := by
  intro hall
  have hsame := hall [Example.nulled] [Example.zeroed] (by simpa using Example.writable_nulled)
    (by simpa using Example.writable_zeroed) (by decide)
  rcases hsame with - | ⟨hcontent, -⟩
  have hvalue := hcontent.values 0 0
  exact absurd hvalue (by decide)

end SortMerge.Tile
