import SortMerge.Expr.Json
import SortMerge.Proofs.Scalar.Json

set_option autoImplicit false

/-! # Expressions that read back from JSON

An expression is portable if no literal in it is a float and every number of a column or a parameter
fits 64 bits. Its JSON is then clear (`isClear_toJson`), and from the meaning of its JSON the same
expression is read, at the top of a document and below it (`read?_meaning_toJson`). -/

namespace SortMerge.Expr

/-- No literal is a float, and every number of a column or a parameter fits 64 bits. -/
inductive IsPortable : Expr → Prop where
  | column (side : Side) {index : Nat} : index < UInt64.size → IsPortable (.column side index)
  | literal {v : Scalar} : v.isFloat = false → IsPortable (.literal v)
  | param {index : Nat} : index < UInt64.size → IsPortable (.param index)
  | compare (op : Comparison) {l r : Expr} :
      IsPortable l → IsPortable r → IsPortable (.compare op l r)
  | junction (op : Junction) {args : List Expr} :
      (∀ e ∈ args, IsPortable e) → IsPortable (.junction op args)
  | not {arg : Expr} : IsPortable arg → IsPortable (.not arg)

theorem toJsons_eq_map (es : List Expr) : toJsons es = es.map toJson := by
  induction es with
  | nil => rfl
  | cons e es ih => rw [toJsons, List.map_cons, ih]

/-! ## What is written is clear -/

theorem writtenWith_formJson {p : Numeral → Prop} (f : Form) {values : List Json}
    (h : ∀ j ∈ values, j.WrittenWith p) : (formJson f values).WrittenWith p := by
  refine Json.writtenWith_record fun m hm => ?_
  rcases List.mem_cons.1 hm with rfl | hm
  · exact .text _
  · exact h m.2 (List.of_mem_zip hm).2

theorem isClear_toJson {e : Expr} (h : e.IsPortable) : e.toJson.IsClear := by
  induction h with
  | column side hindex =>
      refine writtenWith_formJson .column ?_
      simp only [List.forall_mem_cons]
      exact ⟨.text _, Json.isClear_ofNat hindex, by simp⟩
  | literal hv =>
      refine writtenWith_formJson .literal ?_
      simp only [List.forall_mem_cons]
      exact ⟨Scalar.isClear_toJson hv, by simp⟩
  | param hindex =>
      refine writtenWith_formJson .param ?_
      simp only [List.forall_mem_cons]
      exact ⟨Json.isClear_ofNat hindex, by simp⟩
  | compare op _ _ ihl ihr =>
      refine writtenWith_formJson .compare ?_
      simp only [List.forall_mem_cons]
      exact ⟨.text _, ihl, ihr, by simp⟩
  | @junction op args _ ih =>
      have hargs : (Json.array (toJsons args)).IsClear := by
        rw [toJsons_eq_map]
        exact .array (List.forall_mem_map.2 ih)
      refine writtenWith_formJson (junctionForm op) ?_
      simp only [List.forall_mem_cons]
      exact ⟨hargs, by simp⟩
  | not _ ih =>
      refine writtenWith_formJson .not ?_
      simp only [List.forall_mem_cons]
      exact ⟨ih, by simp⟩

/-! ## One form -/

theorem sideOfDoc?_name (s : Side) : sideOfDoc? (.text s.name) = some s := by
  cases s <;> rfl

theorem comparisonOfDoc?_name (op : Comparison) : comparisonOfDoc? (.text op.name) = some op := by
  cases op <;> rfl

theorem form?_name (top : Bool) (f : Form) : form? top (.text f.name) = some f := by
  cases top <;> cases f <;> rfl

theorem index?_meaning_ofNat {n : Nat} (h : n < UInt64.size) :
    index? (Json.ofNat n).meaning = some n := by
  have hrange : (0 : Int) ≤ n ∧ (n : Int) ≤ ((1 <<< 64 : Nat) : Int) - 1 := by
    have : 1 <<< 64 = UInt64.size := rfl
    omega
  rw [index?, Doc.nat?, Json.ofNat, Json.meaning, Json.docOfNumeral_ofNat h, Doc.int?,
    if_pos hrange]
  rfl

theorem Part.ofDocs_eq_map (ds : List Doc) : Part.ofDocs ds = ds.map Part.ofDoc := by
  induction ds with
  | nil => rfl
  | cons d ds ih => rw [Part.ofDocs, List.map_cons, ih]

theorem Part.ofEntries_eq_map (es : List (Doc × Doc)) :
    Part.ofEntries es = es.map fun e => (e.1, Part.ofDoc e.2) := by
  induction es with
  | nil => rfl
  | cons e es ih => rw [Part.ofEntries, List.map_cons, ih]

@[simp] theorem Part.doc_ofDoc (d : Doc) : (Part.ofDoc d).doc = d := by
  cases d <;> rfl

/-- The expression that a document spells, readable or not. -/
def read? (top : Bool) : Doc → Option Expr
  | .list items => ofItems? top (Part.ofDocs items)
  | .record entries => ofEntries? top (Part.ofEntries entries)
  | _ => none

@[simp] theorem Part.expr_ofDoc (d : Doc) : (Part.ofDoc d).expr = read? false d := by
  cases d <;> rfl

theorem ofDoc?_eq_read? {d : Doc} (h : d.isReadable = true) : ofDoc? d = read? true d := by
  cases d <;> simp [ofDoc?, read?, h]

theorem nodup_fields (f : Form) : f.fields.Nodup := by
  cases f <;> decide

theorem kind_notMem_fields (f : Form) : "kind" ∉ f.fields := by
  cases f <;> decide

/-- The name of a form and one entry for each of its fields are read from the parts that stand in
    the entries. -/
theorem ofEntries?_fields (top : Bool) (f : Form) {fields : List (String × Part)}
    (h : fields.map Prod.fst = f.fields) :
    ofEntries? top ((.text "kind", Part.ofDoc (.text f.name))
        :: fields.map fun e => (.text e.1, e.2))
      = ofSlots? f (fields.map fun e => some e.2) := by
  let entries : List (Doc × Part) := fields.map fun e => (.text e.1, e.2)
  -- no field is called as the entry that names the form
  have hkind : ∀ e ∈ entries, isKind e = false := by
    intro e he
    obtain ⟨m, hm, rfl⟩ := List.mem_map.1 he
    have hmem : m.1 ∈ f.fields := h ▸ List.mem_map_of_mem hm
    have hname : m.1 ≠ "kind" := fun heq => kind_notMem_fields f (heq ▸ hmem)
    simpa [isKind] using hname
  have hfilter : ((Doc.text "kind", Part.ofDoc (.text f.name)) :: entries).filter isKind
      = [(Doc.text "kind", Part.ofDoc (.text f.name))] := by
    rw [List.filter_cons_of_pos rfl, List.filter_eq_nil_iff.2 fun e he => by simp [hkind e he]]
  have hrest : ((Doc.text "kind", Part.ofDoc (.text f.name)) :: entries).filter (!isKind ·)
      = entries := by
    rw [List.filter_cons_of_neg (by simp [isKind]),
      List.filter_eq_self.2 fun e he => by simp [hkind e he]]
  have hnamed : (entries.map fun e => (fieldName? f.fields e.1, e.2))
      = fields.map fun e => (some e.1, e.2) := by
    simp [entries, fieldName?]
  have hslots : (Shape.named (fields.map fun e => (some e.1, e.2))).slots? f.fields f.fields.length
      = some (fields.map fun e => some e.2) := by
    have hnodup : (fields.map Prod.fst).Nodup := h ▸ nodup_fields f
    rw [← h]
    exact Shape.slots?_named hnodup _
  simp only [ofEntries?, entries, hfilter, hrest, Part.doc_ofDoc, form?_name, hnamed, hslots,
    Option.bind_some]

/-- A form that is written with all its fields is read from the parts that they are. -/
theorem read?_meaning_formJson (top : Bool) (f : Form) {values : List Json}
    (h : values.length = f.fields.length) :
    read? top (formJson f values).meaning
      = ofSlots? f (values.map fun j => some (Part.ofDoc j.meaning)) := by
  let fields := (f.fields.zip values).map fun m => (m.1, Part.ofDoc m.2.meaning)
  have hnames : fields.map Prod.fst = f.fields := by
    rw [List.map_map]
    exact List.map_fst_zip (Nat.le_of_eq h.symm)
  have hvalues : fields.map (fun e => some e.2)
      = values.map fun j => some (Part.ofDoc j.meaning) := by
    have hsnd : (f.fields.zip values).map Prod.snd = values := List.map_snd_zip (Nat.le_of_eq h)
    rw [List.map_map, ← hsnd, List.map_map, hsnd]
    rfl
  have hentries : Part.ofEntries ((("kind", Json.ofString f.name) :: f.fields.zip values).map
      fun m => (Doc.text m.1, m.2.meaning))
      = (.text "kind", Part.ofDoc (.text f.name)) :: fields.map fun e => (.text e.1, e.2) := by
    simp [Part.ofEntries_eq_map, fields]
  rw [formJson, Json.meaning_record, read?, hentries, ofEntries?_fields top f hnames, hvalues]

/-! ## Whole expressions -/

/-- From the meaning of its JSON a portable expression is read as it was. -/
theorem read?_meaning_toJson {e : Expr} (h : e.IsPortable) (top : Bool) :
    read? top e.toJson.meaning = some e := by
  induction h generalizing top with
  | column side hindex =>
      rw [toJson, read?_meaning_formJson top .column rfl]
      simp [ofSlots?, sideOfDoc?_name, index?_meaning_ofNat hindex]
  | literal hv =>
      rw [toJson, read?_meaning_formJson top .literal rfl]
      simp [ofSlots?, Scalar.ofDoc?_meaning_toJson true hv]
  | param hindex =>
      rw [toJson, read?_meaning_formJson top .param rfl]
      simp [ofSlots?, index?_meaning_ofNat hindex]
  | compare op _ _ ihl ihr =>
      rw [toJson, read?_meaning_formJson top .compare rfl]
      simp [ofSlots?, comparisonOfDoc?_name, ihl, ihr]
  | @junction op args _ ih =>
      -- operands stand below the top, whatever the place of the connective
      have hread : ∀ e ∈ args, (Part.ofDoc e.toJson.meaning).expr = some e := fun e he => by
        rw [Part.expr_ofDoc, ih e he]
      have hargs : (Part.ofDoc (Json.array (toJsons args)).meaning).exprs = some args := by
        have hitems := mapM_map_eq_some hread
        rw [List.map_id'] at hitems
        rw [toJsons_eq_map, Json.meaning_array, Part.ofDoc, Part.ofDocs_eq_map, List.map_map,
          List.map_map]
        exact hitems
      rw [toJson, read?_meaning_formJson top (junctionForm op) (by cases op <;> rfl)]
      cases op <;> simp only [List.map_cons, List.map_nil, junctionForm, ofSlots?, hargs,
        Option.map_some]
  | not _ ih =>
      rw [toJson, read?_meaning_formJson top .not rfl]
      simp [ofSlots?, ih]

end SortMerge.Expr
