import Pinfall.Frame.Display
import Pinfall.Proofs.Number.Numeral
import Pinfall.Proofs.Text.Pieces
import Pinfall.Text.Split

/-!
# Reading score marks

An X tells the full rack and a numeral its number of pins.  Only the slash needs another mark
to be read: it tells what the first roll has left of the rack.  So the marks of a frame are
read from the first one on, and they give back all rolls, such as no frame can have too.
-/

namespace Pinfall.Frame

variable {c : Char} {text : String} {first pins : Int} {rolls : List Int}

/-! ## The rolls that marks tell -/

/-- The roll that a mark tells by itself. -/
def rollOfMark? (text : List Char) : Option Int :=
  if text = ['X'] then some fullRack else Number.ofNumeral? text

/-- The second roll of a frame, which its mark and the first roll tell. -/
def rollOfSecondMark? (first : Int) (text : List Char) : Option Int :=
  if text = ['/'] then some (fullRack - first) else rollOfMark? text

/-- The rolls that the marks of a frame tell. -/
def rollsOfMarks? : List (List Char) → Option (List Int)
  | [] => some []
  | [firstMark] => do
    let first ← rollOfMark? firstMark
    return [first]
  | firstMark :: secondMark :: marks => do
    let first ← rollOfMark? firstMark
    let second ← rollOfSecondMark? first secondMark
    let rest ← marks.mapM rollOfMark?
    return first :: second :: rest

theorem rollOfMark?_numeral (pins : Int) :
    rollOfMark? (Number.numeral pins).toList = some pins := by
  have hne := Number.toList_numeral_ne_singleton (c := 'X') (by decide) rfl pins
  rw [rollOfMark?, if_neg hne, Number.ofNumeral?_numeral]

theorem rollOfMark?_mark (pins : Int) : rollOfMark? (mark pins).toList = some pins := by
  unfold mark
  split
  next h =>
    subst h
    rfl
  next => exact rollOfMark?_numeral pins

theorem rollOfSecondMark?_secondMark (first pins : Int) :
    rollOfSecondMark? first (secondMark first pins).toList = some pins := by
  unfold secondMark
  split
  next h =>
    subst h
    rfl
  next =>
    split
    next h =>
      have hrest : fullRack - first = pins := by omega
      rw [← hrest]
      rfl
    next =>
      have hne := Number.toList_numeral_ne_singleton (c := '/') (by decide) rfl pins
      rw [rollOfSecondMark?, if_neg hne, rollOfMark?_numeral]

/-- Whatever the rolls are, their marks tell them. -/
theorem rollsOfMarks?_marks (rolls : List Int) :
    rollsOfMarks? ((marks rolls).map String.toList) = some rolls := by
  match rolls with
  | [] => rfl
  | [first] => simp [marks, rollsOfMarks?, rollOfMark?_mark]
  | first :: second :: rest =>
    have hrest : ((rest.map mark).map String.toList).mapM rollOfMark? = some rest := by
      rw [List.map_map, List.mapM_map]
      exact (Text.mapM_eq_some_map fun pins _ => rollOfMark?_mark pins).trans (by simp)
    simp only [marks, List.map_cons, rollsOfMarks?, rollOfMark?_mark,
      rollOfSecondMark?_secondMark, hrest, Option.bind_eq_bind, Option.bind_some]
    rfl

example : rollsOfMarks? [['-', '1'], ['/'], ['X']] = some [-1, 11, 10] := by
  decide

/-! ## The text of a frame -/

theorem mark_cases (pins : Int) : mark pins = "X" ∨ mark pins = Number.numeral pins := by
  unfold mark
  split
  · exact Or.inl rfl
  · exact Or.inr rfl

theorem secondMark_cases (first pins : Int) :
    secondMark first pins = "/" ∨ secondMark first pins = mark pins := by
  unfold secondMark mark
  split
  · exact Or.inr rfl
  · split
    · exact Or.inl rfl
    · exact Or.inr rfl

theorem eq_of_mem_marks (h : text ∈ marks rolls) : text = "/" ∨ ∃ pins, text = mark pins := by
  match rolls, h with
  | [first], h => exact Or.inr ⟨first, List.mem_singleton.mp h⟩
  | first :: second :: rest, h =>
    rw [marks, List.mem_cons, List.mem_cons, List.mem_map] at h
    rcases h with rfl | rfl | ⟨pins, _, rfl⟩
    · exact Or.inr ⟨first, rfl⟩
    · exact (secondMark_cases first second).imp id fun h => ⟨second, h⟩
    · exact Or.inr ⟨pins, rfl⟩

/-- The characters that marks are made of. -/
def isMarkChar (c : Char) : Bool :=
  c.isDigit || c = '-' || c = 'X' || c = '/'

theorem isMarkChar_of_mem_numeral (h : c ∈ (Number.numeral pins).toList) :
    isMarkChar c = true := by
  rcases Number.eq_or_isDigit_of_mem_numeral h with rfl | hdigit
  · rfl
  · simp [isMarkChar, hdigit]

theorem isMarkChar_of_mem_marks (h : text ∈ marks rolls) (hc : c ∈ text.toList) :
    isMarkChar c = true := by
  rcases eq_of_mem_marks h with rfl | ⟨pins, rfl⟩
  · obtain rfl := List.mem_singleton.mp hc
    rfl
  · rcases mark_cases pins with hmark | hmark
    · rw [hmark] at hc
      obtain rfl := List.mem_singleton.mp hc
      rfl
    · rw [hmark] at hc
      exact isMarkChar_of_mem_numeral hc

/-- No mark is empty, for an empty text would tell no roll. -/
theorem toList_ne_nil_of_mem_marks (h : text ∈ marks rolls) : text.toList ≠ [] := by
  rcases eq_of_mem_marks h with rfl | ⟨pins, rfl⟩
  · decide
  · intro hempty
    have hroll := rollOfMark?_mark pins
    rw [hempty] at hroll
    contradiction

/-- The rolls that a text without spaces tells: their marks are cut by commas and stand
between brackets. -/
def rollsOfText? (text : List Char) : Option (List Int) :=
  match Text.splitAtFirst (· = '[') text with
  | (_, none) => none
  | (_, some rest) =>
    rollsOfMarks? (Text.piecesOf ',' (Text.splitAtFirst (· = ']') rest).1)

/-- Leaving the spaces out takes nothing from marks. -/
theorem filter_of_isMarkChar {cs : List Char} (h : ∀ c ∈ cs, isMarkChar c = true) :
    cs.filter (· ≠ ' ') = cs := by
  apply List.filter_eq_self.mpr
  intro c hc
  have hne : c ≠ ' ' := Text.ne_of_class (h c hc) rfl
  exact decide_eq_true hne

/-- Without spaces, the display of a frame holds nothing but its marks, brackets and commas. -/
theorem filter_display (frame : Frame) :
    frame.display.toList.filter (· ≠ ' ') =
      '[' :: (([','].intercalate ((marks frame.rolls).map String.toList)) ++ [']']) := by
  have hmarks : ((marks frame.rolls).map String.toList).map (List.filter (· ≠ ' ')) =
      (marks frame.rolls).map String.toList := by
    rw [List.map_map]
    apply List.map_congr_left
    intro text htext
    exact filter_of_isMarkChar fun c hc => isMarkChar_of_mem_marks htext hc
  have hinside := Text.filter_intercalate (· ≠ ' ') ", ".toList
    ((marks frame.rolls).map String.toList)
  rw [hmarks] at hinside
  rw [display, String.toList_append, String.toList_append, String.toList_intercalate,
    List.filter_append, List.filter_append, hinside]
  rfl

/-- The bracket behind the marks closes them, for no mark holds one. -/
theorem splitAtFirst_marks (rolls : List Int) :
    Text.splitAtFirst (· = ']') ([','].intercalate ((marks rolls).map String.toList) ++ [']']) =
      ([','].intercalate ((marks rolls).map String.toList), some []) := by
  refine Text.splitAtFirst_append ?_ rfl []
  intro c hc
  rcases Text.mem_or_exists_mem_of_mem_intercalate hc with hcomma | ⟨text, htext, hc⟩
  · obtain rfl := List.mem_singleton.mp hcomma
    rfl
  · obtain ⟨mark, hmark, rfl⟩ := List.mem_map.mp htext
    exact decide_eq_false (Text.ne_of_class (isMarkChar_of_mem_marks hmark hc) rfl)

/-- Marks are cut apart at the commas between them. -/
theorem piecesOf_marks (rolls : List Int) :
    Text.piecesOf ',' ([','].intercalate ((marks rolls).map String.toList)) =
      (marks rolls).map String.toList := by
  apply Text.piecesOf_intercalate
  intro text htext
  obtain ⟨mark, hmark, rfl⟩ := List.mem_map.mp htext
  refine ⟨toList_ne_nil_of_mem_marks hmark, fun hcomma => ?_⟩
  have hchar := isMarkChar_of_mem_marks hmark hcomma
  contradiction

/-- The display of a frame tells its rolls, with any label in front that has no bracket. -/
theorem rollsOfText?_append_display {label : List Char} (hlabel : '[' ∉ label) (frame : Frame) :
    rollsOfText? (label ++ frame.display.toList.filter (· ≠ ' ')) = some frame.rolls := by
  have hopening : ∀ c ∈ label, decide (c = '[') = false := by
    intro c hc
    apply decide_eq_false
    rintro rfl
    exact hlabel hc
  rw [filter_display, rollsOfText?, Text.splitAtFirst_append hopening rfl]
  simp only [splitAtFirst_marks, piecesOf_marks, rollsOfMarks?_marks]

end Pinfall.Frame
