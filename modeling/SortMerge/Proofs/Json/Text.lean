import SortMerge.Json.Basic
import SortMerge.Proofs.Json.Token

set_option autoImplicit false

/-! # JSON texts that read back

Writing a value flattens it to tokens, and reading rebuilds it with a stack of open containers. From
any stack that waits for a value, the tokens of a value do what accepting the value itself does, so
every value is rebuilt from its tokens (`ofTokens?_tokens`). A value whose numerals are spelled and
whose string literals all stand for texts is also read back from its text (`parse?_render`). -/

namespace SortMerge.Json

/-! ## Rebuilding -/

namespace Builder

/-- No value starts with the end of an array. -/
theorem foldlM_step_item (v : Json) (vs : List Json) (rest : List Token) (fs : List Frame) :
    (itemTokens (v :: vs) rest).foldlM step ⟨fs, .item⟩
      = (itemTokens (v :: vs) rest).foldlM step ⟨fs, .value⟩ := by
  cases vs <;> cases v <;> rfl

/-- No member starts with the end of an object. -/
theorem foldlM_step_member (k : Option String) (v : Json) (ms : List (Option String × Json))
    (rest : List Token) (fs : List Frame) :
    (memberTokens ((k, v) :: ms) rest).foldlM step ⟨fs, .member⟩
      = (memberTokens ((k, v) :: ms) rest).foldlM step ⟨fs, .name⟩ := by
  cases ms <;> rfl

mutual

/-- The tokens of a value do what accepting the value does. -/
theorem foldlM_step_tokensBefore : ∀ (j : Json) (rest : List Token) (fs : List Frame),
    (j.tokensBefore rest).foldlM step ⟨fs, .value⟩
      = (accept j fs).bind fun b => rest.foldlM step b
  | .null, _, _ => rfl
  | .bool _, _, _ => rfl
  | .number _, _, _ => rfl
  | .text _, _, _ => rfl
  | .array [], _, _ => rfl
  | .array (v :: vs), rest, fs => by
      have hopen : step ⟨fs, .value⟩ .openArray = some ⟨.array [] :: fs, .item⟩ := rfl
      have hitems := foldlM_step_itemTokens (v :: vs) (List.cons_ne_nil v vs) [] rest fs
      rw [tokensBefore, foldlM_cons_some hopen, foldlM_step_item, hitems]
      rfl
  | .object [], _, _ => rfl
  | .object ((k, v) :: ms), rest, fs => by
      have hopen : step ⟨fs, .value⟩ .openObject = some ⟨.object [] :: fs, .member⟩ := rfl
      have hmembers := foldlM_step_memberTokens ((k, v) :: ms) (List.cons_ne_nil _ ms) [] rest fs
      rw [tokensBefore, foldlM_cons_some hopen, foldlM_step_member, hmembers]
      rfl

/-- The items that are left, with the end of the array, complete the array. -/
theorem foldlM_step_itemTokens : ∀ (vs : List Json), vs ≠ [] → ∀ (done : List Json)
    (rest : List Token) (fs : List Frame),
    (itemTokens vs (.closeArray :: rest)).foldlM step ⟨.array done :: fs, .value⟩
      = (accept (.array (done.reverse ++ vs)) fs).bind fun b => rest.foldlM step b
  | [], h, _, _, _ => absurd rfl h
  | [v], _, done, rest, fs => by
      have hclose : step ⟨.array (v :: done) :: fs, .separator⟩ .closeArray
          = accept (.array (v :: done).reverse) fs := rfl
      rw [itemTokens, foldlM_step_tokensBefore, accept, Option.bind_some, List.foldlM_cons, hclose,
        List.reverse_cons]
      rfl
  | v :: w :: ws, _, done, rest, fs => by
      have hcomma : step ⟨.array (v :: done) :: fs, .separator⟩ .comma
          = some ⟨.array (v :: done) :: fs, .value⟩ := rfl
      have hitems := foldlM_step_itemTokens (w :: ws) (List.cons_ne_nil w ws) (v :: done) rest fs
      rw [itemTokens, foldlM_step_tokensBefore, accept, Option.bind_some, foldlM_cons_some hcomma,
        hitems, List.reverse_cons, List.append_assoc]
      · rfl
      · exact List.cons_ne_nil w ws

/-- The members that are left, with the end of the object, complete the object. -/
theorem foldlM_step_memberTokens : ∀ (ms : List (Option String × Json)), ms ≠ [] →
    ∀ (done : List (Option String × Json)) (rest : List Token) (fs : List Frame),
    (memberTokens ms (.closeObject :: rest)).foldlM step ⟨.object done :: fs, .name⟩
      = (accept (.object (done.reverse ++ ms)) fs).bind fun b => rest.foldlM step b
  | [], h, _, _, _ => absurd rfl h
  | [(k, v)], _, done, rest, fs => by
      have hname : step ⟨.object done :: fs, .name⟩ (.text k)
          = some ⟨.entry done k :: fs, .colon⟩ := rfl
      have hcolon : step ⟨.entry done k :: fs, .colon⟩ .colon
          = some ⟨.entry done k :: fs, .value⟩ := rfl
      have hclose : step ⟨.object ((k, v) :: done) :: fs, .separator⟩ .closeObject
          = accept (.object ((k, v) :: done).reverse) fs := rfl
      rw [memberTokens, foldlM_cons_some hname, foldlM_cons_some hcolon, foldlM_step_tokensBefore,
        accept, Option.bind_some, List.foldlM_cons, hclose, List.reverse_cons]
      rfl
  | (k, v) :: m :: ms, _, done, rest, fs => by
      have hname : step ⟨.object done :: fs, .name⟩ (.text k)
          = some ⟨.entry done k :: fs, .colon⟩ := rfl
      have hcolon : step ⟨.entry done k :: fs, .colon⟩ .colon
          = some ⟨.entry done k :: fs, .value⟩ := rfl
      have hcomma : step ⟨.object ((k, v) :: done) :: fs, .separator⟩ .comma
          = some ⟨.object ((k, v) :: done) :: fs, .name⟩ := rfl
      have hmembers :=
        foldlM_step_memberTokens (m :: ms) (List.cons_ne_nil m ms) ((k, v) :: done) rest fs
      rw [memberTokens, foldlM_cons_some hname, foldlM_cons_some hcolon, foldlM_step_tokensBefore,
        accept, Option.bind_some, foldlM_cons_some hcomma, hmembers, List.reverse_cons,
        List.append_assoc]
      · rfl
      · exact List.cons_ne_nil m ms

end

end Builder

theorem ofTokens?_tokens (j : Json) : ofTokens? j.tokens = some j := by
  rw [ofTokens?, tokens, Builder.start, Builder.foldlM_step_tokensBefore]
  rfl

/-! ## Scanning -/

/-- Every numeral has the property, and every string literal stands for a text. -/
inductive WrittenWith (p : Numeral → Prop) : Json → Prop where
  | null : WrittenWith p .null
  | bool (b : Bool) : WrittenWith p (.bool b)
  | number {n : Numeral} : p n → WrittenWith p (.number n)
  | text (s : String) : WrittenWith p (.text (some s))
  | array {items : List Json} : (∀ v ∈ items, WrittenWith p v) → WrittenWith p (.array items)
  | object {members : List (Option String × Json)} :
      (∀ m ∈ members, m.1.isSome = true) → (∀ m ∈ members, WrittenWith p m.2) →
        WrittenWith p (.object members)

theorem WrittenWith.mono {p q : Numeral → Prop} (h : ∀ n, p n → q n) {j : Json}
    (hj : j.WrittenWith p) : j.WrittenWith q := by
  induction hj with
  | null => exact .null
  | bool b => exact .bool b
  | number hn => exact .number (h _ hn)
  | text s => exact .text s
  | array _ ih => exact .array ih
  | object hnames _ ih => exact .object hnames ih

theorem writtenWith_record {p : Numeral → Prop} {members : List (String × Json)}
    (h : ∀ m ∈ members, m.2.WrittenWith p) : (record members).WrittenWith p := by
  refine .object (fun m hm => ?_) fun m hm => ?_
  · obtain ⟨e, -, rfl⟩ := List.mem_map.1 hm
    rfl
  · obtain ⟨e, he, rfl⟩ := List.mem_map.1 hm
    exact h e he

/-- In front of scannable tokens that start with a mark, the tokens of a value are scannable. -/
def Fits (v : Json) : Prop :=
  ∀ rest : List Token, (∀ t ∈ rest.head?, t.isBare = false) → Token.Scannable rest →
    Token.Scannable (v.tokensBefore rest)

theorem scannable_itemTokens {items : List Json} (h : ∀ v ∈ items, v.Fits) {rest : List Token}
    (hhead : ∀ t ∈ rest.head?, t.isBare = false) (hrest : Token.Scannable rest) :
    Token.Scannable (itemTokens items rest) := by
  induction items with
  | nil => exact hrest
  | cons v vs ih =>
      have hv : v.Fits := h v List.mem_cons_self
      cases vs with
      | nil => exact hv rest hhead hrest
      | cons w ws =>
          have hws := ih fun x hx => h x (List.mem_cons_of_mem v hx)
          have hcomma : Token.Scannable (.comma :: itemTokens (w :: ws) rest) :=
            .mark trivial rfl hws
          exact hv _ (by simp [Token.isBare]) hcomma

theorem scannable_memberTokens {members : List (Option String × Json)}
    (hnames : ∀ m ∈ members, m.1.isSome = true) (h : ∀ m ∈ members, m.2.Fits) {rest : List Token}
    (hhead : ∀ t ∈ rest.head?, t.isBare = false) (hrest : Token.Scannable rest) :
    Token.Scannable (memberTokens members rest) := by
  induction members with
  | nil => exact hrest
  | cons m ms ih =>
      obtain ⟨k, v⟩ := m
      have hk : k.isSome = true := hnames (k, v) List.mem_cons_self
      have hv : v.Fits := h (k, v) List.mem_cons_self
      cases ms with
      | nil => exact .mark hk rfl (.mark trivial rfl (hv rest hhead hrest))
      | cons l ls =>
          have hls := ih (fun x hx => hnames x (List.mem_cons_of_mem _ hx))
            fun x hx => h x (List.mem_cons_of_mem _ hx)
          have hcomma : Token.Scannable (.comma :: memberTokens (l :: ls) rest) :=
            .mark trivial rfl hls
          exact .mark hk rfl (.mark trivial rfl (hv _ (by simp [Token.isBare]) hcomma))

/-- No two bare tokens of a value stand side by side, because only marks stand between its parts. -/
theorem WrittenWith.fits {j : Json} (h : j.WrittenWith Numeral.IsSpelled) : j.Fits := by
  induction h with
  -- a bare token may stand here because the marks that follow a value are never bare
  | null => exact fun rest hhead hrest => .bare trivial hhead hrest
  | bool b => exact fun rest hhead hrest => .bare trivial hhead hrest
  | number hn => exact fun rest hhead hrest => .bare hn hhead hrest
  | text s => exact fun rest _ hrest => .mark rfl rfl hrest
  | array _ ih =>
      intro rest _ hrest
      have hclose : Token.Scannable (.closeArray :: rest) := .mark trivial rfl hrest
      exact .mark trivial rfl (scannable_itemTokens ih (by simp [Token.isBare]) hclose)
  | object hnames _ ih =>
      intro rest _ hrest
      have hclose : Token.Scannable (.closeObject :: rest) := .mark trivial rfl hrest
      exact .mark trivial rfl (scannable_memberTokens hnames ih (by simp [Token.isBare]) hclose)

/-- A value with spelled numerals is read back from its text. -/
theorem parse?_render {j : Json} (h : j.WrittenWith Numeral.IsSpelled) :
    parse? j.render = some j := by
  have hscan := Token.scan_flatMap_chars (h.fits [] (by simp) .nil)
  rw [parse?, render, String.toList_ofList, tokens, hscan, Option.bind_some, ← tokens,
    ofTokens?_tokens]

end SortMerge.Json
