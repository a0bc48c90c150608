import Pinfall.Proofs.Frame.Marks
import Pinfall.Proofs.Game.Legality

/-!
# What a slash stands for

By the rules of the score sheet an X is ten pins in one roll, a slash is the second roll of a
spare, and every other roll is a numeral.  The display keeps these rules at every place but
one: a slash is written whenever the first two rolls make ten, and so also for a gutter ball
right after a strike.  Only the tenth frame goes on after a strike, so no other frame of a
game is ever shown so.
-/

namespace Pinfall.Frame

variable {frame : Frame} {first second pins : Int} {rolls rest : List Int} {i : Nat}

/-- The marks that a text shows, without spaces: they stand between its brackets and are cut
by commas. -/
def shownMarks (text : String) : List (List Char) :=
  match Text.splitAtFirst (· = '[') (text.toList.filter (· ≠ ' ')) with
  | (_, none) => []
  | (_, some rest) => Text.piecesOf ',' (Text.splitAtFirst (· = ']') rest).1

/-- What a frame shows at a place follows the rules of the score sheet. -/
structure ShowsByRules (frame : Frame) (i : Nat) : Prop where
  slash_iff : (shownMarks frame.display)[i]? = some ['/'] ↔
    i = 1 ∧ frame.isSpare = true ∧ frame.rolls[1]? ≠ some 10
  cross_iff : (shownMarks frame.display)[i]? = some ['X'] ↔ frame.rolls[i]? = some 10
  numeral : ∀ pins, frame.rolls[i]? = some pins → pins ≠ 10 →
    ¬(i = 1 ∧ frame.isSpare = true) →
    (shownMarks frame.display)[i]? = some (Number.numeral pins).toList

/-- The first two rolls are a strike and a gutter ball. -/
def HasGutterAfterStrike (frame : Frame) : Prop :=
  ∃ rest, frame.rolls = 10 :: 0 :: rest

theorem shownMarks_display (frame : Frame) :
    shownMarks frame.display = (marks frame.rolls).map String.toList := by
  have hopening : ∀ after, Text.splitAtFirst (· = '[') ('[' :: after) = ([], some after) :=
    Text.splitAtFirst_append (fun c hc => absurd hc List.not_mem_nil) rfl
  rw [shownMarks, filter_display, hopening]
  simp only [splitAtFirst_marks, piecesOf_marks]

/-! ## Single marks -/

theorem toList_mark_ne_slash (pins : Int) : (mark pins).toList ≠ ['/'] := by
  intro h
  have hroll := rollOfMark?_mark pins
  rw [h] at hroll
  contradiction

/-- An X tells ten pins, so no other roll has it for a mark. -/
theorem toList_mark_eq_cross_iff : (mark pins).toList = ['X'] ↔ pins = 10 := by
  constructor
  · intro h
    have hroll := rollOfMark?_mark pins
    rw [h] at hroll
    exact (Option.some.inj hroll).symm
  · rintro rfl
    rfl

theorem mark_of_ne (h : pins ≠ 10) : mark pins = Number.numeral pins :=
  if_neg h

theorem secondMark_eq (first pins : Int) :
    secondMark first pins =
      if pins = 10 then "X" else if first + pins = 10 then "/" else Number.numeral pins := rfl

theorem toList_secondMark_eq_cross_iff :
    (secondMark first pins).toList = ['X'] ↔ pins = 10 := by
  constructor
  · intro h
    have hroll := rollOfSecondMark?_secondMark first pins
    rw [h] at hroll
    exact (Option.some.inj hroll).symm
  · intro hten
    rw [secondMark_eq, if_pos hten]
    rfl

/-- A slash tells what the first roll has left of ten pins; ten pins themselves have an X. -/
theorem toList_secondMark_eq_slash_iff :
    (secondMark first pins).toList = ['/'] ↔ first + pins = 10 ∧ pins ≠ 10 := by
  constructor
  · intro h
    have hroll := rollOfSecondMark?_secondMark first pins
    rw [h] at hroll
    have hrest : 10 - first = pins := Option.some.inj hroll
    refine ⟨by omega, ?_⟩
    intro hten
    rw [toList_secondMark_eq_cross_iff.mpr hten] at h
    contradiction
  · rintro ⟨hsum, hten⟩
    rw [secondMark_eq, if_neg hten, if_pos hsum]
    rfl

theorem secondMark_of_ne (hten : pins ≠ 10) (hsum : first + pins ≠ 10) :
    secondMark first pins = Number.numeral pins := by
  rw [secondMark_eq, if_neg hten, if_neg hsum]

/-! ## The marks of a frame by their places -/

theorem getElem?_marks_of_ne_one (rolls : List Int) (hi : i ≠ 1) :
    (marks rolls)[i]? = rolls[i]?.map mark := by
  match rolls, i with
  | [], _ => rfl
  | [first], 0 => rfl
  | [first], i + 1 => rfl
  | first :: second :: rest, 0 => rfl
  | first :: second :: rest, 1 => contradiction
  | first :: second :: rest, i + 2 => simp [marks]

/-- At all places but the second one, a mark depends on its own roll only. -/
theorem showsByRules_of_ne_one (frame : Frame) (hi : i ≠ 1) : frame.ShowsByRules i := by
  have hshown : (shownMarks frame.display)[i]? =
      frame.rolls[i]?.map fun pins => (mark pins).toList := by
    rw [shownMarks_display, List.getElem?_map, getElem?_marks_of_ne_one _ hi, Option.map_map]
    rfl
  refine ⟨?_, ?_, ?_⟩
  · simp [hshown, hi, toList_mark_ne_slash]
  · simp [hshown, toList_mark_eq_cross_iff]
  · intro pins hpins hten _
    rw [hshown, hpins, Option.map_some, mark_of_ne hten]

/-- Without a second roll nothing is shown at its place. -/
theorem showsByRules_one_of_length_le (h : frame.rolls.length ≤ 1) : frame.ShowsByRules 1 := by
  obtain ⟨rolls, isLast⟩ := frame
  match rolls, h with
  | [], _ => exact ⟨by simp [shownMarks_display, marks], by simp [shownMarks_display, marks],
      by simp⟩
  | [first], _ => exact ⟨by simp [shownMarks_display, marks], by simp [shownMarks_display, marks],
      by simp⟩

/-- At the second place the rules are kept unless a gutter ball follows a strike. -/
theorem showsByRules_one_iff {isLast : Bool} :
    ShowsByRules ⟨first :: second :: rest, isLast⟩ 1 ↔ ¬(first = 10 ∧ second = 0) := by
  have hshown : (shownMarks (display ⟨first :: second :: rest, isLast⟩))[1]? =
      some (secondMark first second).toList := by
    rw [shownMarks_display]
    rfl
  constructor
  · rintro ⟨hslash, -, -⟩ ⟨rfl, rfl⟩
    have hspare := (hslash.mp (by rw [hshown]; rfl)).2.1
    rw [isSpare_cons_cons] at hspare
    exact (of_decide_eq_true hspare).2 rfl
  · intro hgutter
    refine ⟨?_, ?_, ?_⟩
    · rw [hshown, Option.some.injEq, toList_secondMark_eq_slash_iff, isSpare_cons_cons,
        decide_eq_true_eq]
      constructor
      · rintro ⟨hsum, hten⟩
        exact ⟨rfl, ⟨hsum, by omega⟩, by simpa using hten⟩
      · rintro ⟨-, ⟨hsum, -⟩, hten⟩
        exact ⟨hsum, by simpa using hten⟩
    · rw [hshown, Option.some.injEq, toList_secondMark_eq_cross_iff]
      simp
    · intro pins hpins hten hspare
      obtain rfl : second = pins := Option.some.inj hpins
      rw [isSpare_cons_cons, decide_eq_true_eq] at hspare
      rw [hshown, secondMark_of_ne hten (by omega)]

/-- The rules are kept at all places of all frames, whatever rolls they hold, except at a
gutter ball right after a strike. -/
theorem showsByRules_iff : frame.ShowsByRules i ↔ ¬(i = 1 ∧ frame.HasGutterAfterStrike) := by
  by_cases hi : i = 1
  · subst i
    obtain ⟨rolls, isLast⟩ := frame
    match rolls with
    | [] => simp [showsByRules_one_of_length_le, HasGutterAfterStrike]
    | [first] => simp [showsByRules_one_of_length_le, HasGutterAfterStrike]
    | first :: second :: rest => simp [showsByRules_one_iff, HasGutterAfterStrike]
  · simp [showsByRules_of_ne_one frame hi, hi]

theorem HasGutterAfterStrike.getElem?_shownMarks (h : frame.HasGutterAfterStrike) :
    (shownMarks frame.display)[1]? = some ['/'] := by
  obtain ⟨rest, hrolls⟩ := h
  rw [shownMarks_display, hrolls]
  rfl

theorem HasGutterAfterStrike.isSpare_eq_false (h : frame.HasGutterAfterStrike) :
    frame.isSpare = false := by
  obtain ⟨rest, hrolls⟩ := h
  apply isSpare_eq_false_of_isStrike
  rw [isStrike, hrolls]
  rfl

/-- An ordinary frame ends with a strike. -/
theorem IsLegal.isLast_of_hasGutterAfterStrike (h : frame.IsLegal)
    (hgutter : frame.HasGutterAfterStrike) : frame.isLast = true := by
  obtain ⟨rolls, isLast⟩ := frame
  obtain ⟨rest, hrolls⟩ := hgutter
  obtain rfl : rolls = 10 :: 0 :: rest := hrolls
  cases isLast with
  | true => rfl
  | false =>
    rcases h with hopen | hwhole
    · cases hopen
    · cases isWhole_ordinary.mp hwhole with
      | twoRolls ha ha9 => omega

theorem length_shownMarks_display (frame : Frame) :
    (shownMarks frame.display).length = frame.rolls.length := by
  rw [shownMarks_display, List.length_map]
  match frame.rolls with
  | [] => rfl
  | [first] => rfl
  | first :: second :: rest => simp [marks]

end Pinfall.Frame

namespace Pinfall.Game

/-- In every game that is played with checks, each frame has one mark for each of its rolls, and
it is the one that the rules ask for: an X just for ten pins, a slash just for the second roll
of a spare, and a numeral for all else.  The one exception is a gutter ball right after a
strike, which only the tenth frame can have: it is shown by a slash, although the frame is no
spare. -/
theorem marks_keep_rules {moves : List Move} (hchecked : ∀ move ∈ moves, move.isChecked = true)
    (i : Fin 10) :
    let frame := (new.after moves).frameAt i
    (Frame.shownMarks frame.display).length = frame.rolls.length ∧
      (∀ place, frame.ShowsByRules place ↔ ¬(place = 1 ∧ frame.HasGutterAfterStrike)) ∧
      (frame.HasGutterAfterStrike → i = 9 ∧ frame.isSpare = false ∧
        (Frame.shownMarks frame.display)[1]? = some ['/']) := by
  intro frame
  have hlegal := isLegal_after hchecked
  refine ⟨frame.length_shownMarks_display, fun _ => Frame.showsByRules_iff, ?_⟩
  intro hgutter
  have hlast := (hlegal.frameAt_isLegal i).isLast_of_hasGutterAfterStrike hgutter
  rw [hlegal.isLast_frameAt i, decide_eq_true_eq] at hlast
  exact ⟨hlast, hgutter.isSpare_eq_false, hgutter.getElem?_shownMarks⟩

/-- A tenth frame with a gutter ball between two full racks: an X, a slash and an X. -/
theorem marks_of_gutter_between_tens :
    let moves : List Move :=
      [.addRollAt 9 (.int 10), .addRollAt 9 (.int 0), .addRollAt 9 (.int 10)]
    let frame := (new.after moves).frameAt 9
    (∀ move ∈ moves, move.isChecked = true) ∧ frame.display = "[X, /, X]" ∧
      frame.ShowsByRules 0 ∧ ¬frame.ShowsByRules 1 ∧ frame.ShowsByRules 2 := by
  intro moves frame
  have hchecked : ∀ move ∈ moves, move.isChecked = true := by decide
  have hgutter : frame.HasGutterAfterStrike := ⟨[10], rfl⟩
  obtain ⟨-, hrules, -⟩ := marks_keep_rules hchecked 9
  refine ⟨hchecked, by decide, (hrules 0).mpr ?_, ?_, (hrules 2).mpr ?_⟩
  · rintro ⟨hplace, -⟩
    contradiction
  · exact fun h => (hrules 1).mp h ⟨rfl, hgutter⟩
  · rintro ⟨hplace, -⟩
    contradiction

/-- After nine strikes, a strike and a gutter ball in the tenth frame are shown by an X and a
slash, as if they were a spare. -/
theorem slash_of_gutter_after_strike :
    let moves : List Move := List.replicate 10 (.roll (.int 10)) ++ [.roll (.int 0)]
    let frame := (new.after moves).frameAt 9
    (∀ move ∈ moves, move.isChecked = true) ∧ frame.rolls = [10, 0] ∧
      frame.isSpare = false ∧ frame.display = "[X, /]" ∧ ¬frame.ShowsByRules 1 := by
  refine ⟨by decide, rfl, rfl, rfl, fun hrules => ?_⟩
  obtain ⟨-, hspare, -⟩ := hrules.slash_iff.mp rfl
  contradiction

end Pinfall.Game
