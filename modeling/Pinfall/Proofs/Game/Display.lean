import Pinfall.Proofs.Frame.Marks
import Pinfall.Proofs.Game.Standing

/-!
# Reading the display of a game

The line that shows a game is cut at its bars into ten frames, and the marks of a frame tell
its rolls.  No mark holds a bar, a bracket or a comma, so this reads the line of any game,
also of one whose frames were filled without a check, and two games that are shown alike
have the same rolls.
-/

namespace Pinfall.Game

/-- The rolls that the line of a game tells, frame by frame. -/
def rollsOfDisplay? (line : String) : Option (List (List Int)) :=
  (Text.piecesOf '|' (line.toList.filter (· ≠ ' '))).mapM Frame.rollsOfText?

/-- What stands in front of the frame at a position, without spaces. -/
def label (i : Nat) : List Char :=
  ['F', 'r', 'a', 'm', 'e'] ++ (Number.numeral (i + 1)).toList ++ [':']

/-- Only the numeral of a label can vary, so a character that is neither in the word nor in
a numeral is in no label. -/
theorem notMem_label {c : Char} (hword : c ∉ ['F', 'r', 'a', 'm', 'e', ':'])
    (hc : Frame.isMarkChar c = false) (i : Nat) : c ∉ label i := by
  intro h
  rw [label, List.mem_append, List.mem_append] at h
  rcases h with (hname | hnumeral) | hcolon
  · exact hword (List.mem_append_left [':'] hname)
  · exact Text.ne_of_class (Frame.isMarkChar_of_mem_numeral hnumeral) hc rfl
  · exact hword (List.mem_append_right ['F', 'r', 'a', 'm', 'e'] hcolon)

theorem notMem_filter_display {c : Char} (hpunctuation : c ∉ ['[', ',', ']'])
    (hc : Frame.isMarkChar c = false) (frame : Frame) :
    c ∉ frame.display.toList.filter (· ≠ ' ') := by
  intro h
  rw [Frame.filter_display, List.mem_cons, List.mem_append] at h
  rcases h with rfl | hinside | hclosing
  · exact hpunctuation List.mem_cons_self
  · rcases Text.mem_or_exists_mem_of_mem_intercalate hinside with hcomma | ⟨text, htext, hmem⟩
    · exact hpunctuation (List.mem_append_right ['['] (List.mem_append_left [']'] hcomma))
    · obtain ⟨mark, hmark, rfl⟩ := List.mem_map.mp htext
      exact Text.ne_of_class (Frame.isMarkChar_of_mem_marks hmark hmem) hc rfl
  · exact hpunctuation (List.mem_append_right ['[', ','] hclosing)

/-- The text of a frame at a position with its label, without spaces. -/
def labelled (numbered : Frame × Nat) : List Char :=
  label numbered.2 ++ numbered.1.display.toList.filter (· ≠ ' ')

theorem filter_numeral (n : Int) :
    (Number.numeral n).toList.filter (· ≠ ' ') = (Number.numeral n).toList :=
  Frame.filter_of_isMarkChar fun _ hc => Frame.isMarkChar_of_mem_numeral hc

/-- Without spaces, the line of a game holds its frames with their labels, between bars. -/
theorem filter_display (game : Game) :
    game.display.toList.filter (· ≠ ' ') =
      ['|'].intercalate (game.frames.zipIdx.map labelled) := by
  have hbar : " | ".toList.filter (· ≠ ' ') = ['|'] := by decide
  rw [display, String.toList_intercalate, Text.filter_intercalate, hbar, List.map_map,
    List.map_map]
  refine congrArg (List.intercalate ['|']) (List.map_congr_left ?_)
  rintro ⟨frame, i⟩ _
  simp only [Function.comp_apply, String.toList_append, List.filter_append, filter_numeral]
  rfl

theorem rollsOfDisplay?_display (game : Game) :
    rollsOfDisplay? game.display = some (game.frames.map Frame.rolls) := by
  have hpieces : ∀ text ∈ game.frames.zipIdx.map labelled, text ≠ [] ∧ '|' ∉ text := by
    intro text htext
    obtain ⟨numbered, _, rfl⟩ := List.mem_map.mp htext
    refine ⟨List.cons_ne_nil _ _, ?_⟩
    rw [labelled, List.mem_append, not_or]
    exact ⟨notMem_label (by decide) rfl _, notMem_filter_display (by decide) rfl _⟩
  have hframe : ∀ numbered ∈ game.frames.zipIdx,
      (Frame.rollsOfText? ∘ labelled) numbered = some numbered.1.rolls := by
    intro numbered _
    rw [Function.comp_apply, labelled]
    exact Frame.rollsOfText?_append_display (notMem_label (by decide) rfl numbered.2) numbered.1
  have hrolls : game.frames.zipIdx.map (fun numbered => numbered.1.rolls) =
      game.frames.map Frame.rolls := by
    rw [← Function.comp_def Frame.rolls, ← List.map_map, List.zipIdx_map_fst]
  rw [rollsOfDisplay?, filter_display, Text.piecesOf_intercalate hpieces, List.mapM_map,
    Text.mapM_eq_some_map hframe, hrolls]

/-- No information is lost in the line that shows a game: it tells the rolls of every frame,
an X for ten pins and a slash for what the first roll has left of ten, and so games that are
shown alike have the same rolls in each of their frames. -/
theorem display_tells_rolls :
    (∀ game : Game, rollsOfDisplay? game.display = some (game.frames.map Frame.rolls)) ∧
      Frame.rollOfMark? ['X'] = some 10 ∧
      (∀ first : Int, Frame.rollOfSecondMark? first ['/'] = some (10 - first)) ∧
      ∀ game other : Game, game.display = other.display →
        ∀ i, (game.frameAt i).rolls = (other.frameAt i).rolls := by
  refine ⟨rollsOfDisplay?_display, rfl, fun _ => rfl, ?_⟩
  intro game other h i
  have hrolls : game.frames.map Frame.rolls = other.frames.map Frame.rolls := by
    apply Option.some.inj
    rw [← rollsOfDisplay?_display, h, rollsOfDisplay?_display]
  have hi := congrArg (·[(i : Nat)]?) hrolls
  simpa [getElem?_frames] using hi

end Pinfall.Game
