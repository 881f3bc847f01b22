import SortMerge.Json.Reading
import SortMerge.Proofs.Json.Text
import SortMerge.Proofs.Lists

set_option autoImplicit false

/-! # What a JSON value means

The limit on nesting is a limit of reading, not of meaning. `Json.meaning` takes every container
apart, and `toDocWithin_eq_meaning` says that a reader which may enter as many levels as the value
is deep finds the same. A text written from a value that is not too deep therefore reads as the
meaning of that value (`read?_render`). -/

/-! ## Documents that are read

A record whose entries are the fields of a structure, each once, fills every slot of the structure
with the value of its field (`slots?_record`). A document is readable if its parts are. -/

namespace SortMerge

namespace Shape

variable {α : Type}

/-- Under a name that stands once there is one value. -/
theorem under_of_nodup {es : List (String × α)} (hnodup : (es.map Prod.fst).Nodup)
    {e : String × α} (he : e ∈ es) :
    under e.1 (es.map fun e => (some e.1, e.2)) = [e.2] := by
  induction es with
  | nil => exact absurd he List.not_mem_nil
  | cons d ds ih =>
      rw [List.map_cons, List.nodup_cons] at hnodup
      obtain ⟨hfresh, hds⟩ := hnodup
      rw [under, List.map_cons, List.filterMap_cons]
      rcases List.mem_cons.1 he with rfl | he
      · have hnone : ∀ d ∈ ds, d.1 ≠ e.1 := fun d hd heq =>
          hfresh (List.mem_map.2 ⟨d, hd, heq⟩)
        simp only [if_true, List.filterMap_map, List.cons.injEq, true_and]
        rw [List.filterMap_eq_nil_iff]
        intro d hd
        simp [hnone d hd]
      · have hne : d.1 ≠ e.1 := fun heq => hfresh (List.mem_map.2 ⟨e, he, heq.symm⟩)
        have hrest := ih hds he
        rw [under] at hrest
        simp [hne, hrest]

/-- Entries that are the fields of a structure fill its slots. -/
theorem slots?_named {es : List (String × α)} (hnodup : (es.map Prod.fst).Nodup) (least : Nat) :
    (Shape.named (es.map fun e => (some e.1, e.2))).slots? (es.map Prod.fst) least
      = some (es.map fun e => some e.2) := by
  have hslot : ∀ e ∈ es, slot? (es.map fun e => (some e.1, e.2)) e.1 = some (some e.2) := by
    intro e he
    rw [slot?, under_of_nodup hnodup he]
  have hnames : ((es.map fun e => (some e.1, e.2)).all fun e => e.1.isSome) = true := by simp
  rw [slots?, if_pos hnames, mapM_map_eq_some hslot]

end Shape

namespace Doc

/-- A record of the fields of a structure fills its slots. -/
theorem slots?_record {es : List (String × Doc)} (hnodup : (es.map Prod.fst).Nodup) (least : Nat) :
    (Doc.record (es.map fun e => (.text e.1, e.2))).slots? (es.map Prod.fst) least
      = some (es.map fun e => some e.2) := by
  rw [slots?, shape?, List.map_map, Option.bind_some]
  exact Shape.slots?_named hnodup least

/-- A record of two fields fills the slots of both. -/
theorem slots?_pair {first second : String} (h : first ≠ second) (x y : Doc) (least : Nat) :
    (Doc.record [(.text first, x), (.text second, y)]).slots? [first, second] least
      = some [some x, some y] := by
  have hnodup : ([(first, x), (second, y)].map Prod.fst).Nodup := by simp [h]
  exact slots?_record hnodup least

/-! ### Readable documents -/

theorem allReadable_of_forall {ds : List Doc} (h : ∀ d ∈ ds, d.isReadable = true) :
    allReadable ds = true := by
  induction ds with
  | nil => rfl
  | cons d ds ih =>
      rw [allReadable, h d List.mem_cons_self, Bool.true_and]
      exact ih fun e he => h e (List.mem_cons_of_mem d he)

theorem entriesReadable_of_forall {es : List (Doc × Doc)}
    (h : ∀ e ∈ es, e.1.isReadable = true ∧ e.2.isReadable = true) : entriesReadable es = true := by
  induction es with
  | nil => rfl
  | cons e es ih =>
      obtain ⟨hk, hv⟩ := h e List.mem_cons_self
      rw [entriesReadable, hk, hv, Bool.true_and, Bool.true_and]
      exact ih fun d hd => h d (List.mem_cons_of_mem e hd)

end Doc

end SortMerge

namespace SortMerge.Json

/-! ## Depth and meaning -/

mutual

/-- How many containers are open at once where the nesting is deepest. -/
def depth : Json → Nat
  | .null => 0
  | .bool _ => 0
  | .number _ => 0
  | .text _ => 0
  | .array items => itemsDepth items + 1
  | .object members => membersDepth members + 1

def itemsDepth : List Json → Nat
  | [] => 0
  | v :: vs => max v.depth (itemsDepth vs)

def membersDepth : List (Option String × Json) → Nat
  | [] => 0
  | (_, v) :: ms => max v.depth (membersDepth ms)

end

mutual

/-- What a value means, however deep it is. -/
def meaning : Json → Doc
  | .null => .null
  | .bool b => .bool b
  | .number n => docOfNumeral n
  | .text s => docOfText s
  | .array items => .list (itemMeanings items)
  | .object members => .record (memberMeanings members)

def itemMeanings : List Json → List Doc
  | [] => []
  | v :: vs => v.meaning :: itemMeanings vs

def memberMeanings : List (Option String × Json) → List (Doc × Doc)
  | [] => []
  | (k, v) :: ms => (docOfText k, v.meaning) :: memberMeanings ms

end

theorem itemMeanings_eq_map (items : List Json) : itemMeanings items = items.map meaning := by
  induction items with
  | nil => rfl
  | cons v vs ih => rw [itemMeanings, List.map_cons, ih]

theorem memberMeanings_eq_map (members : List (Option String × Json)) :
    memberMeanings members = members.map fun m => (docOfText m.1, m.2.meaning) := by
  induction members with
  | nil => rfl
  | cons m ms ih => rw [memberMeanings, List.map_cons, ih]

@[simp] theorem meaning_array (items : List Json) :
    (array items).meaning = .list (items.map meaning) := by
  rw [meaning, itemMeanings_eq_map]

@[simp] theorem meaning_record (members : List (String × Json)) :
    (record members).meaning = .record (members.map fun m => (.text m.1, m.2.meaning)) := by
  rw [record, meaning, memberMeanings_eq_map, List.map_map]
  rfl

@[simp] theorem meaning_ofString (s : String) : (ofString s).meaning = .text s := by
  rw [ofString, meaning, docOfText]

mutual

/-- A reader that may enter as many levels as a value is deep finds its meaning. -/
theorem toDocWithin_eq_meaning : ∀ (j : Json) (levels : Nat), j.depth ≤ levels →
    toDocWithin levels j = j.meaning
  | .null, levels, _ => by rw [toDocWithin, meaning]
  | .bool _, levels, _ => by rw [toDocWithin, meaning]
  | .number _, levels, _ => by rw [toDocWithin, meaning]
  | .text _, levels, _ => by rw [toDocWithin, meaning]
  | .array items, levels, h => by
      rw [depth] at h
      obtain ⟨below, rfl⟩ : ∃ below, levels = below + 1 := ⟨levels - 1, by omega⟩
      rw [toDocWithin, meaning, itemDocs_eq_meanings items below (by omega)]
  | .object members, levels, h => by
      rw [depth] at h
      obtain ⟨below, rfl⟩ : ∃ below, levels = below + 1 := ⟨levels - 1, by omega⟩
      rw [toDocWithin, meaning, memberDocs_eq_meanings members below (by omega)]

theorem itemDocs_eq_meanings : ∀ (items : List Json) (levels : Nat), itemsDepth items ≤ levels →
    itemDocs levels items = itemMeanings items
  | [], levels, _ => by rw [itemDocs, itemMeanings]
  | v :: vs, levels, h => by
      rw [itemsDepth] at h
      rw [itemDocs, itemMeanings, toDocWithin_eq_meaning v levels (by omega),
        itemDocs_eq_meanings vs levels (by omega)]

theorem memberDocs_eq_meanings : ∀ (members : List (Option String × Json)) (levels : Nat),
    membersDepth members ≤ levels → memberDocs levels members = memberMeanings members
  | [], levels, _ => by rw [memberDocs, memberMeanings]
  | (k, v) :: ms, levels, h => by
      rw [membersDepth] at h
      rw [memberDocs, memberMeanings, toDocWithin_eq_meaning v levels (by omega),
        memberDocs_eq_meanings ms levels (by omega)]

end

/-- The text of a value that is not nested too deep reads as what the value means. -/
theorem read?_render {j : Json} (hspelled : j.WrittenWith Numeral.IsSpelled)
    (hdepth : j.depth ≤ depthLimit) : read? j.render = some j.meaning := by
  rw [read?, parse?_render hspelled, Option.map_some, toDoc, toDocWithin_eq_meaning j _ hdepth]

/-! ## Readable values -/

/-- A value is readable if its numerals are. -/
theorem WrittenWith.isReadable {j : Json}
    (h : j.WrittenWith fun n => (docOfNumeral n).isReadable = true) :
    j.meaning.isReadable = true := by
  induction h with
  | null => rfl
  | bool b => rfl
  | number hn => exact hn
  | text s => rfl
  | array _ ih =>
      rw [meaning_array, Doc.isReadable]
      refine Doc.allReadable_of_forall fun d hd => ?_
      obtain ⟨v, hv, rfl⟩ := List.mem_map.1 hd
      exact ih v hv
  | object hnames _ ih =>
      rw [meaning, memberMeanings_eq_map, Doc.isReadable]
      refine Doc.entriesReadable_of_forall fun e he => ?_
      obtain ⟨m, hm, rfl⟩ := List.mem_map.1 he
      obtain ⟨name, hname⟩ := Option.isSome_iff_exists.1 (hnames m hm)
      rw [hname]
      exact ⟨rfl, ih m hm⟩

/-! ## Integers -/

theorem docOfNumeral_ofNat {n : Nat} (h : n < UInt64.size) :
    docOfNumeral (.ofNat n) = .unsigned n := by
  simp [docOfNumeral, Numeral.ofNat, Numeral.isWhole, h]

theorem docOfNumeral_ofInt_of_nonneg {i : Int} (hnonneg : 0 ≤ i) (h : i.natAbs < UInt64.size) :
    docOfNumeral (.ofInt i) = .unsigned i.natAbs := by
  have hsign : ¬i < 0 := by omega
  simp [docOfNumeral, Numeral.ofInt, Numeral.isWhole, hsign, h]

theorem docOfNumeral_ofInt_of_neg {i : Int} (hneg : i < 0) (h : -((1 <<< 63 : Nat) : Int) ≤ i) :
    docOfNumeral (.ofInt i) = .signed i := by
  have hint : ¬(i.natAbs = 0 ∨ 1 <<< 63 < i.natAbs) := by
    rw [Nat.one_shiftLeft]
    omega
  have habs : -(i.natAbs : Int) = i := by omega
  simp only [docOfNumeral, Numeral.ofInt, Numeral.isWhole, hneg, decide_true, if_true,
    List.isEmpty_nil, Option.isNone_none, Bool.and_self, if_neg hint, habs]

/-- An integer of at most 64 bits is read where its range is expected. -/
theorem int?_docOfNumeral_ofInt {i lo hi : Int} (hlo : -((1 <<< 63 : Nat) : Int) ≤ lo)
    (hhi : hi < ((1 <<< 63 : Nat) : Int)) (h : lo ≤ i ∧ i ≤ hi) :
    (docOfNumeral (.ofInt i)).int? lo hi = some i := by
  by_cases hneg : i < 0
  · rw [docOfNumeral_ofInt_of_neg hneg (by omega), Doc.int?, if_pos h]
  · have hsize : i.natAbs < UInt64.size := by
      have : UInt64.size = 2 * 1 <<< 63 := rfl
      omega
    have habs : (i.natAbs : Int) = i := by omega
    rw [docOfNumeral_ofInt_of_nonneg (by omega) hsize, Doc.int?, habs, if_pos h]

/-! ## Clear values -/

/-- The numeral is spelled and has a value. -/
def IsClearNumeral (n : Numeral) : Prop := n.IsSpelled ∧ (docOfNumeral n).isReadable = true

/-- Every numeral is spelled and has a value, and every string literal stands for a text. -/
abbrev IsClear (j : Json) : Prop := j.WrittenWith IsClearNumeral

theorem IsClear.isReadable {j : Json} (h : j.IsClear) : j.meaning.isReadable = true :=
  WrittenWith.isReadable (h.mono fun _ hn => hn.2)

theorem isClear_ofNat {n : Nat} (h : n < UInt64.size) : (ofNat n).IsClear :=
  .number ⟨Numeral.isSpelled_ofNat n, by rw [docOfNumeral_ofNat h]; rfl⟩

theorem isClear_ofInt {i : Int} (hlo : -((1 <<< 63 : Nat) : Int) ≤ i)
    (hhi : i < ((1 <<< 63 : Nat) : Int)) : (ofInt i).IsClear := by
  refine .number ⟨Numeral.isSpelled_ofInt i, ?_⟩
  by_cases hneg : i < 0
  · rw [docOfNumeral_ofInt_of_neg hneg hlo]
    rfl
  · have hsize : i.natAbs < UInt64.size := by
      have : UInt64.size = 2 * 1 <<< 63 := rfl
      omega
    rw [docOfNumeral_ofInt_of_nonneg (by omega) hsize]
    rfl

end SortMerge.Json
