import Mathlib.Data.List.Nodup
import Mathlib.Data.List.Perm.Subperm
import SortMerge.Schema

set_option autoImplicit false

/-! # Joined schemas have unique names

The right fields of a joined schema are renamed one after another, each against all fields before
it, the ones just renamed included. So renaming can go through several rounds, and one renamed field
can be what the next one runs into. It still comes to an end, because every round needs another
field with the name just tried; and what it ends with is free, so that names which are distinct on
the left stay distinct altogether, whatever the right side repeats. -/

namespace SortMerge

namespace Schema

/-! ## Rounds of renaming -/

/-- The name with the suffix behind it so many times. -/
def suffixed (name : String) : Nat → String
  | 0 => name
  | rounds + 1 => suffixed name rounds ++ "_right"

/-- Renaming takes exactly so many rounds until the name is not taken. -/
structure FreshAfter (taken : List String) (name : String) (rounds : Nat) : Prop where
  fresh : suffixed name rounds ∉ taken
  least : ∀ r < rounds, suffixed name r ∈ taken

theorem suffixed_append (name : String) (rounds : Nat) :
    suffixed (name ++ "_right") rounds = suffixed name (rounds + 1) := by
  induction rounds with
  | zero => rfl
  | succ rounds ih =>
      show suffixed (name ++ "_right") rounds ++ "_right" = suffixed name (rounds + 1) ++ "_right"
      rw [ih]

theorem length_suffixed (name : String) (rounds : Nat) :
    (suffixed name rounds).length = name.length + 6 * rounds := by
  induction rounds with
  | zero => rfl
  | succ rounds ih =>
      have hsuffix : "_right".length = 6 := rfl
      rw [suffixed, String.length_append, ih, hsuffix]
      omega

theorem suffixed_injective (name : String) : Function.Injective (suffixed name) := by
  intro r s h
  have hlength := congrArg String.length h
  rw [length_suffixed, length_suffixed] at hlength
  omega

/-- The name that is found is the first one of the row that is not taken. -/
theorem exists_freshAfter (taken : List String) (name : String) :
    ∃ rounds, freshName taken name = suffixed name rounds ∧ FreshAfter taken name rounds := by
  fun_induction freshName taken name with
  | case1 name htaken ih =>
      obtain ⟨rounds, hname, hfresh⟩ := ih
      rw [suffixed_append] at hname
      refine ⟨rounds + 1, hname, ?_, fun r hr => ?_⟩
      · rw [← suffixed_append]
        exact hfresh.fresh
      · cases r with
        | zero => exact htaken
        | succ r =>
            rw [← suffixed_append]
            exact hfresh.least r (by omega)
  | case2 name hfree => exact ⟨0, rfl, hfree, by simp⟩

/-- Each round runs into another one of the names that are taken. -/
theorem FreshAfter.le_length {taken : List String} {name : String} {rounds : Nat}
    (h : FreshAfter taken name rounds) : rounds ≤ taken.length := by
  have hnodup : ((List.range rounds).map (suffixed name)).Nodup :=
    List.nodup_range.map (suffixed_injective name)
  have hsubset : (List.range rounds).map (suffixed name) ⊆ taken := by
    intro tried htried
    obtain ⟨r, hr, rfl⟩ := List.mem_map.1 htried
    exact h.least r (List.mem_range.1 hr)
  simpa using (hnodup.subperm hsubset).length_le

/-! ## One field after another -/

/-- The second field is the first one, renamed until no earlier field has its name. -/
structure Renamed (earlier : List Field) (f g : Field) : Prop where
  dataType : g.dataType = f.dataType
  nullable : g.nullable = f.nullable
  name : ∃ rounds ≤ earlier.length, g.name = suffixed f.name rounds ∧
    FreshAfter (earlier.map Field.name) f.name rounds

theorem exists_addFresh (fields : List Field) (f : Field) :
    ∃ g, addFresh fields f = fields ++ [g] ∧ Renamed fields f g := by
  obtain ⟨rounds, hname, hfresh⟩ := exists_freshAfter (fields.map Field.name) f.name
  have hrounds := hfresh.le_length
  rw [List.length_map] at hrounds
  exact ⟨_, rfl, rfl, rfl, rounds, hrounds, hname, hfresh⟩

theorem Renamed.notMem {earlier : List Field} {f g : Field} (h : Renamed earlier f g) :
    g.name ∉ earlier.map Field.name := by
  obtain ⟨rounds, -, hname, hfresh⟩ := h.name
  rw [hname]
  exact hfresh.fresh

theorem length_foldl_addFresh (fields right : List Field) :
    (right.foldl addFresh fields).length = fields.length + right.length := by
  induction right generalizing fields with
  | nil => rfl
  | cons f right ih =>
      rw [List.foldl_cons, ih, addFresh, List.length_append, List.length_cons, List.length_cons,
        List.length_nil]
      omega

/-- Fields that are there stay where they are. -/
theorem prefix_foldl_addFresh (fields right : List Field) :
    fields <+: right.foldl addFresh fields := by
  induction right generalizing fields with
  | nil => exact List.prefix_rfl
  | cons f right ih => exact (List.prefix_append fields _).trans (ih _)

theorem nodup_foldl_addFresh {fields : List Field} (right : List Field)
    (h : (fields.map Field.name).Nodup) :
    ((right.foldl addFresh fields).map Field.name).Nodup := by
  induction right generalizing fields with
  | nil => exact h
  | cons f right ih =>
      obtain ⟨g, hadd, hrenamed⟩ := exists_addFresh fields f
      refine ih ?_
      rw [hadd, List.map_append, List.map_cons, List.map_nil, List.nodup_append]
      refine ⟨h, List.nodup_singleton _, ?_⟩
      intro a ha b hb heq
      rw [List.mem_singleton] at hb
      exact hrenamed.notMem (hb ▸ heq ▸ ha)

/-- A right field is renamed against the fields before it. -/
theorem foldl_addFresh_getElem? {fields right : List Field} {i : Nat} {f : Field}
    (h : right[i]? = some f) :
    ∃ g, (right.foldl addFresh fields)[fields.length + i]? = some g ∧
      Renamed ((right.foldl addFresh fields).take (fields.length + i)) f g := by
  obtain ⟨hi, rfl⟩ := List.getElem?_eq_some_iff.1 h
  obtain ⟨g, hadd, hrenamed⟩ := exists_addFresh ((right.take i).foldl addFresh fields) right[i]
  -- the fields up to this one are what the right fields before it have made
  have hsplit : (right.foldl addFresh fields)
      = (right.drop (i + 1)).foldl addFresh ((right.take i).foldl addFresh fields ++ [g]) := by
    rw [← hadd, ← List.foldl_cons, ← List.foldl_append, List.getElem_cons_drop,
      List.take_append_drop]
  have hlength : ((right.take i).foldl addFresh fields).length = fields.length + i := by
    rw [length_foldl_addFresh, List.length_take, Nat.min_eq_left (Nat.le_of_lt hi)]
  obtain ⟨rest, hrest⟩ :=
    prefix_foldl_addFresh ((right.take i).foldl addFresh fields ++ [g]) (right.drop (i + 1))
  rw [← hsplit, List.append_assoc] at hrest
  rw [← hrest, ← hlength]
  refine ⟨g, by simp, ?_⟩
  rw [List.take_left]
  exact hrenamed

/-! ## Joined schemas -/

/-- In a list of distinct names each one is found where it stands. -/
theorem indexOf?_of_nodup {s : Schema} (h : s.names.Nodup) {i : Nat} {f : Field}
    (hf : s.fields[i]? = some f) : s.indexOf? f.name = some i := by
  obtain ⟨hi, rfl⟩ := List.getElem?_eq_some_iff.1 hf
  have hi' : i < s.names.length := by simpa [names] using hi
  rw [indexOf?, List.idxOf?_eq_some_iff]
  refine ⟨hi', by simp [names], fun j hj heq => ?_⟩
  have hlt : j < s.names.length := Nat.lt_trans hj hi'
  have hsame : s.names[j] = s.names[i] := by simpa [names] using heq
  exact Nat.ne_of_lt hj (h.getElem_inj_iff.1 hsame)

/-- A joined schema has the left fields, and behind them the right ones, each with its type and
    under its own name with the suffix as often as it takes to differ from all fields before it,
    which is no more often than there are such fields. If the names on the left are distinct, so are
    all names, and each of them is found where it stands. -/
theorem fields_join (left right : Schema) :
    (left.join right).fields.length = left.fields.length + right.fields.length ∧
      (left.join right).fields.take left.fields.length = left.fields ∧
      (∀ i f, right.fields[i]? = some f →
        ∃ g, (left.join right).fields[left.fields.length + i]? = some g ∧
          Renamed ((left.join right).fields.take (left.fields.length + i)) f g) ∧
      (left.names.Nodup → (left.join right).names.Nodup ∧
        ∀ i g, (left.join right).fields[i]? = some g →
          (left.join right).indexOf? g.name = some i) := by
  refine ⟨length_foldl_addFresh _ _, ?_, fun i f => foldl_addFresh_getElem?, fun h => ?_⟩
  · exact (List.prefix_iff_eq_take.1 (prefix_foldl_addFresh left.fields right.fields)).symm
  · have hnodup : (left.join right).names.Nodup := nodup_foldl_addFresh right.fields h
    exact ⟨hnodup, fun i g => indexOf?_of_nodup hnodup⟩

end Schema

namespace Example

def stored : Schema := ⟨[⟨"a", .int64, false⟩, ⟨"a_right", .utf8, true⟩]⟩

/-- The first name of the left side twice, and then what the first of the two is renamed to. -/
def incoming : Schema :=
  ⟨[⟨"a", .int32, true⟩, ⟨"a", .utf8, false⟩, ⟨"a_right_right", .float64, true⟩]⟩

end Example

/-- The third right field runs into the first two of them. -/
theorem fields_join_incoming :
    Example.stored.names.Nodup ∧
      Example.incoming.fields[2]? = some ⟨"a_right_right", .float64, true⟩ ∧
      (∃ g, (Example.stored.join Example.incoming).fields[4]? = some g ∧
        Schema.Renamed ((Example.stored.join Example.incoming).fields.take 4)
          ⟨"a_right_right", .float64, true⟩ g) ∧
      (Example.stored.join Example.incoming).names
        = ["a", "a_right", "a_right_right", "a_right_right_right", "a_right_right_right_right"] ∧
      (Example.stored.join Example.incoming).indexOf? "a_right_right_right_right" = some 4 := by
  have hleft : Example.stored.names.Nodup := by decide
  have hfield : Example.incoming.fields[2]? = some ⟨"a_right_right", .float64, true⟩ := rfl
  have hjoined : (Example.stored.join Example.incoming).fields[4]?
      = some ⟨"a_right_right_right_right", .float64, true⟩ := by cbv
  obtain ⟨-, -, hright, hnodup⟩ := Schema.fields_join Example.stored Example.incoming
  exact ⟨hleft, hfield, hright 2 _ hfield, by cbv, (hnodup hleft).2 4 _ hjoined⟩

end SortMerge
