import Mathlib.Data.List.Induction
import SortMerge.Proofs.Lists
import SortMerge.Proofs.Operator.Found

set_option autoImplicit false

/-! # The tile that is ready

A caller expects a tile to be ready exactly if the last thing that happened was a pull that found
it. A scan keeps to that, because each of its pulls puts away what was ready before. A join only
puts a tile away for another one, so a tile that was not taken is still there after a pull that
found none. What is ready there is always the last tile that was found, until it is taken. -/

namespace SortMerge

namespace Operator

variable {o : Operator}

/-- The last one of the calls is a pull, and it finds a tile. -/
def JustFound (o : Operator) (calls : List Call) : Prop :=
  ∃ before, calls = before ++ [.pull] ∧ (o.after before).pull.1 = .ok true

/-- One of the calls is a pull that finds a tile, and nothing is taken after it. -/
def HasUntaken (o : Operator) (calls : List Call) : Prop :=
  ∃ before rest, calls = before ++ .pull :: rest ∧ (o.after before).pull.1 = .ok true ∧
    .take ∉ rest

/-- No pull comes right after one that finds a tile. -/
def TakesEach (o : Operator) (calls : List Call) : Prop :=
  ∀ before rest, calls = before ++ .pull :: .pull :: rest → (o.after before).pull.1 ≠ .ok true

/-- A tile can be taken exactly if the last call was a pull that found one. -/
def ReadyFollowsPull (o : Operator) : Prop :=
  ∀ calls, (o.after calls).take.1.isSome = true ↔ o.JustFound calls

/-! ## One more call -/

theorem after_append (o : Operator) (first rest : List Call) :
    o.after (first ++ rest) = (o.after first).after rest := by
  induction first generalizing o with
  | nil => rfl
  | cons call first ih =>
      cases call with
      | pull => exact ih _
      | take => exact ih _

theorem found_append (o : Operator) (first rest : List Call) :
    o.found (first ++ rest) = o.found first ++ (o.after first).found rest := by
  induction first generalizing o with
  | nil => rfl
  | cons call first ih =>
      cases call with
      | pull => simp only [List.cons_append, found, after, ih, List.append_assoc]
      | take => exact ih _

theorem justFound_concat_pull (o : Operator) (calls : List Call) :
    o.JustFound (calls ++ [.pull]) ↔ (o.after calls).pull.1 = .ok true := by
  constructor
  · rintro ⟨before, hcalls, hanswer⟩
    rw [List.append_cancel_right hcalls]
    exact hanswer
  · intro hanswer
    exact ⟨calls, rfl, hanswer⟩

theorem not_justFound_concat_take (o : Operator) (calls : List Call) :
    ¬ o.JustFound (calls ++ [.take]) := by
  rintro ⟨before, hcalls, -⟩
  rcases concat_eq_append_cons hcalls with ⟨-, -, hcall⟩ | ⟨front, hfront, -⟩
  · cases hcall
  · simp at hfront

theorem hasUntaken_concat_pull (o : Operator) (calls : List Call) :
    o.HasUntaken (calls ++ [.pull]) ↔ (o.after calls).pull.1 = .ok true ∨ o.HasUntaken calls := by
  constructor
  · rintro ⟨before, rest, hcalls, hanswer, hrest⟩
    rcases concat_eq_append_cons hcalls with ⟨-, rfl, -⟩ | ⟨front, rfl, hfront⟩
    · exact .inl hanswer
    · exact .inr ⟨before, front, hfront, hanswer, fun htake =>
        hrest (List.mem_append_left _ htake)⟩
  · rintro (hanswer | ⟨before, rest, rfl, hanswer, hrest⟩)
    · exact ⟨calls, [], rfl, hanswer, List.not_mem_nil⟩
    · exact ⟨before, rest ++ [.pull], by simp, hanswer, by simp [hrest]⟩

theorem not_hasUntaken_concat_take (o : Operator) (calls : List Call) :
    ¬ o.HasUntaken (calls ++ [.take]) := by
  rintro ⟨before, rest, hcalls, -, hrest⟩
  rcases concat_eq_append_cons hcalls with ⟨-, -, hcall⟩ | ⟨front, rfl, -⟩
  · cases hcall
  · exact hrest (by simp)

theorem JustFound.hasUntaken {calls : List Call} (h : o.JustFound calls) : o.HasUntaken calls := by
  obtain ⟨before, hcalls, hanswer⟩ := h
  exact ⟨before, [], hcalls, hanswer, List.not_mem_nil⟩

/-- A caller who takes every tile has none left over from before the last pull. -/
theorem HasUntaken.justFound {calls : List Call} (h : o.HasUntaken calls)
    (htakes : o.TakesEach calls) : o.JustFound calls := by
  obtain ⟨before, rest, hcalls, hanswer, hrest⟩ := h
  match rest with
  | [] => exact ⟨before, hcalls, hanswer⟩
  | .take :: rest => exact absurd List.mem_cons_self hrest
  | .pull :: rest => exact absurd hanswer (htakes before rest hcalls)

/-! ## What stays the same -/

theorem plain_after (h : o.ahead.Plain) (calls : List Call) : (o.after calls).ahead.Plain := by
  induction calls generalizing o with
  | nil => exact h
  | cons call calls ih =>
      cases call with
      | pull => exact ih (plain_pull h)
      | take => exact ih h

theorem keepsUntaken_after (h : o.ahead.Plain) (calls : List Call) :
    (o.after calls).keepsUntaken = o.keepsUntaken := by
  induction calls generalizing o with
  | nil => rfl
  | cons call calls ih =>
      cases call with
      | take => exact ih h
      | pull =>
          refine (ih (plain_pull h)).trans ?_
          rcases pull_cases h with ⟨e, s, -, hpull⟩ | ⟨e, s, rest, -, -, hpull⟩ |
            ⟨t, s, rest, -, -, hpull⟩
          · rw [hpull]
          · rw [hpull]
          · rw [hpull]

/-! ## Putting tiles away -/

theorem kept_after (h : o.ahead.Plain) (calls : List Call) :
    (o.after calls).kept = if o.keepsUntaken then (o.after calls).ready else none := by
  rw [kept, keepsUntaken_after h]

/-- An operator whose pulls put away what was ready has a tile ready exactly if the last call was a
    pull that found it. -/
theorem readyFollowsPull_of_forgets (h : o.ahead.Plain) (hforgets : o.keepsUntaken = false)
    (hready : o.ready = none) : o.ReadyFollowsPull := by
  intro calls
  rcases List.eq_nil_or_concat calls with rfl | ⟨front, call, rfl⟩
  · have hnot : ¬ o.JustFound [] := by
      rintro ⟨before, hcalls, -⟩
      simp at hcalls
    simp only [after, take, hready, Option.isSome_none, Bool.false_eq_true, hnot]
  · rw [List.concat_eq_append]
    cases call with
    | take =>
        rw [after_append]
        exact iff_of_false Bool.false_ne_true (o.not_justFound_concat_take front)
    | pull =>
        rw [justFound_concat_pull, after_append]
        rcases ready_pull (plain_after h front) with ⟨t, hanswer, -, hpull⟩ | ⟨hanswer, -, hpull⟩
        · exact iff_of_true (by simp only [after, take, hpull, Option.isSome_some]) hanswer
        · rw [kept_after h, hforgets, if_neg Bool.false_ne_true] at hpull
          refine iff_of_false ?_ hanswer
          simp only [after, take, hpull, Option.isSome_none, Bool.false_eq_true, not_false_iff]

/-- An operator that only puts a tile away for another one has the last tile ready that was found,
    unless that was taken. -/
theorem ready_eq_some_iff_of_keeps (h : o.ahead.Plain) (hkeeps : o.keepsUntaken = true)
    (hready : o.ready = none) (calls : List Call) (t : Tile) :
    (o.after calls).ready = some t ↔ o.HasUntaken calls ∧ (o.found calls).getLast? = some t := by
  induction calls using List.reverseRecOn with
  | nil =>
      refine iff_of_false (by simp [after, hready]) ?_
      rintro ⟨⟨before, rest, hcalls, -⟩, -⟩
      simp at hcalls
  | append_singleton front call ih =>
      rw [after_append, found_append]
      cases call with
      | take =>
          refine iff_of_false (fun hsome => ?_) fun huntaken => ?_
          · cases hsome
          · exact o.not_hasUntaken_concat_take front huntaken.1
      | pull =>
          rw [hasUntaken_concat_pull]
          rcases ready_pull (plain_after h front) with ⟨u, hanswer, hnext, hpull⟩ |
            ⟨hanswer, hnext, hpull⟩
          · simp [after, found, hpull, hnext, hanswer]
          · rw [kept_after h, hkeeps, if_pos rfl] at hpull
            simp [after, found, hpull, hnext, hanswer, ih]

theorem HasUntaken.found_ne_nil (h : o.ahead.Plain) {calls : List Call}
    (huntaken : o.HasUntaken calls) : o.found calls ≠ [] := by
  obtain ⟨before, rest, rfl, hanswer, -⟩ := huntaken
  rw [found_append, found]
  rcases ready_pull (plain_after h before) with ⟨t, -, hnext, -⟩ | ⟨hnone, -⟩
  · simp [hnext]
  · exact absurd hanswer hnone

theorem exists_pull_of_found_ne_nil (h : o.ahead.Plain) {calls : List Call}
    (hfound : o.found calls ≠ []) : ∃ before, (o.after before).pull.1 = .ok true := by
  induction calls generalizing o with
  | nil => exact absurd rfl hfound
  | cons call calls ih =>
      cases call with
      | take =>
          have hplain : o.take.2.ahead.Plain := h
          obtain ⟨before, hbefore⟩ := ih hplain hfound
          exact ⟨.take :: before, hbefore⟩
      | pull =>
          rcases ready_pull h with ⟨t, hanswer, -⟩ | ⟨-, hnext, -⟩
          · exact ⟨[], hanswer⟩
          · rw [found, hnext] at hfound
            obtain ⟨before, hbefore⟩ := ih (plain_pull h) hfound
            exact ⟨.pull :: before, hbefore⟩

/-- Pulling on and on uses up all that is ahead. -/
theorem exists_pulls_not_found (o : Operator) :
    ∃ n, (o.after (List.replicate n .pull)).pull.1 ≠ .ok true := by
  induction hlength : o.ahead.length using Nat.strongRecOn generalizing o with
  | ind n ih =>
      match hanswer : o.pull.1 with
      | .ok true =>
          have hlt := length_ahead_lt_of_reportsTile (reportsTile_iff.2 hanswer)
          obtain ⟨m, hm⟩ := ih _ (hlength ▸ hlt) o.pull.2 rfl
          exact ⟨m + 1, hm⟩
      | .ok false | .error e => exact ⟨0, by rw [List.replicate_zero, after, hanswer]; simp⟩

section Keeps

variable (h : o.ahead.Plain) (hkeeps : o.keepsUntaken = true) (hready : o.ready = none)
include h hkeeps hready

theorem take_isSome_iff_of_keeps (calls : List Call) :
    (o.after calls).take.1.isSome = true ↔ o.HasUntaken calls := by
  constructor
  · intro hsome
    obtain ⟨t, ht⟩ := Option.isSome_iff_exists.1 hsome
    exact ((ready_eq_some_iff_of_keeps h hkeeps hready calls t).1 ht).1
  · intro huntaken
    have hne := huntaken.found_ne_nil h
    have hlast := List.getLast?_eq_some_getLast hne
    exact Option.isSome_iff_exists.2
      ⟨_, (ready_eq_some_iff_of_keeps h hkeeps hready calls _).2 ⟨huntaken, hlast⟩⟩

/-- Whoever finds a tile at all can leave it and pull on until there are no more. -/
theorem readyFollowsPull_iff_of_keeps :
    o.ReadyFollowsPull ↔ ∀ calls, o.found calls = [] := by
  constructor
  · intro hfollows calls
    refine Decidable.byContradiction fun hfound => ?_
    obtain ⟨before, hbefore⟩ := exists_pull_of_found_ne_nil h hfound
    obtain ⟨n, hn⟩ := (o.after before).pull.2.exists_pulls_not_found
    let later : List Call := before ++ .pull :: List.replicate n .pull
    have hlater : (o.after later).pull.1 ≠ .ok true := by
      rw [after_append]
      exact hn
    have huntaken : o.HasUntaken (later ++ [.pull]) :=
      ⟨before, List.replicate n .pull ++ [.pull], by simp [later], hbefore, by simp⟩
    have hsome := (take_isSome_iff_of_keeps h hkeeps hready _).2 huntaken
    exact hlater ((justFound_concat_pull o later).1 ((hfollows _).1 hsome))
  · intro hnone calls
    rw [take_isSome_iff_of_keeps h hkeeps hready]
    exact ⟨fun huntaken => absurd (hnone calls) (huntaken.found_ne_nil h), JustFound.hasUntaken⟩

end Keeps

end Operator

/-- Which tile can be taken after any calls. From a scan it is what the last call found, if that was
    a pull. From a join it is the last tile that was found, through all pulls that find none, until
    it is taken. So a join is as good as a scan to callers who take every tile before they go on,
    and to all callers only if there are no tiles to be found. -/
theorem ready_after_calls (tiles : List Tile) (j : Join) (left right : Source) :
    (Operator.ofSource (.scan tiles)).ReadyFollowsPull ∧
      (∀ calls t,
        ((Operator.ofSource (.join j left right)).after calls).take.1 = some t ↔
          (Operator.ofSource (.join j left right)).HasUntaken calls ∧
            ((Operator.ofSource (.join j left right)).found calls).getLast? = some t) ∧
      (∀ calls, (Operator.ofSource (.join j left right)).TakesEach calls →
        (((Operator.ofSource (.join j left right)).after calls).take.1.isSome = true ↔
          (Operator.ofSource (.join j left right)).JustFound calls)) ∧
      ((Operator.ofSource (.join j left right)).ReadyFollowsPull ↔
        ∀ calls, (Operator.ofSource (.join j left right)).found calls = []) := by
  have hscan : (Operator.ofSource (.scan tiles)).ahead.Plain :=
    Operator.plain_ofSource fun answers => by simp
  have hjoin : (Operator.ofSource (.join j left right)).ahead.Plain :=
    Operator.plain_ofSource fun answers => by simp
  refine ⟨Operator.readyFollowsPull_of_forgets hscan rfl rfl,
    Operator.ready_eq_some_iff_of_keeps hjoin rfl rfl, fun calls htakes => ?_,
    Operator.readyFollowsPull_iff_of_keeps hjoin rfl rfl⟩
  rw [Operator.take_isSome_iff_of_keeps hjoin rfl rfl]
  exact ⟨fun huntaken => huntaken.justFound htakes, Operator.JustFound.hasUntaken⟩

namespace Example

/-- The join of one tile with two finds one tile and then the end of the left input. -/
theorem pulls_once_twice :
    (Operator.ofSource (.join checked once twice)).answers [.pull, .pull]
      = [.ok true, .ok false] := by
  obtain ⟨t, htile, -⟩ := outcome_single
  have hrows : checked.round ⟨twice.feed, once.feed⟩
      = .went (.ok (some t)) ⟨once.feed, .stop none⟩ :=
    congrArg (Round.went · ⟨once.feed, .stop none⟩) htile
  have hover : checked.round ⟨once.feed, .stop none⟩ = .over none := rfl
  obtain ⟨hfound, hrest⟩ := (Operator.isJoinOf_ofSource checked once twice).pull_tile hrows
  obtain ⟨hend, -⟩ := hrest.pull_over hover
  rw [Operator.answers, Operator.answers, Operator.answers, hfound, hend]
  rfl

end Example

/-- Whoever takes the tile before pulling again has a tile just after the first pull. -/
theorem ready_after_calls_once_twice :
    (Operator.ofSource (.join Example.checked Example.once Example.twice)).TakesEach
        [.pull, .take, .pull] ∧
      (((Operator.ofSource (.join Example.checked Example.once Example.twice)).after
          [.pull, .take, .pull]).take.1.isSome = true ↔
        (Operator.ofSource (.join Example.checked Example.once Example.twice)).JustFound
          [.pull, .take, .pull]) := by
  have htakes : (Operator.ofSource (.join Example.checked Example.once Example.twice)).TakesEach
      [.pull, .take, .pull] := by
    intro before rest hcalls
    match before with
    | [] | [_] | [_, _] | _ :: _ :: _ :: _ => simp at hcalls
  have hready := ready_after_calls [] Example.checked Example.once Example.twice
  exact ⟨htakes, hready.2.2.1 _ htakes⟩

/-- The tile that the first pull found can still be taken after the second one found none. -/
theorem not_readyFollowsPull_once_twice :
    (Operator.ofSource (.join Example.checked Example.once Example.twice)).answers [.pull, .pull]
        = [.ok true, .ok false] ∧
      (((Operator.ofSource (.join Example.checked Example.once Example.twice)).after
        [.pull, .pull]).take.1.isSome = true) ∧
      ¬ (Operator.ofSource
        (.join Example.checked Example.once Example.twice)).ReadyFollowsPull := by
  have hanswers := Example.pulls_once_twice
  obtain ⟨hfound, hrest⟩ := List.cons.inj hanswers
  obtain ⟨hend, -⟩ := List.cons.inj hrest
  have hplain : (Operator.ofSource
      (.join Example.checked Example.once Example.twice)).ahead.Plain :=
    Operator.plain_ofSource fun answers => by simp
  have hsome := (Operator.take_isSome_iff_of_keeps hplain rfl rfl [.pull, .pull]).2
    ⟨[], [.pull], rfl, hfound, by simp⟩
  refine ⟨hanswers, hsome, fun hfollows => ?_⟩
  have hjust := (Operator.justFound_concat_pull _ [.pull]).1 ((hfollows [.pull, .pull]).1 hsome)
  cases hend.symm.trans hjust

end SortMerge
