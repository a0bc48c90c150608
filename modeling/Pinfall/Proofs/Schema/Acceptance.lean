import Pinfall.Game.Summary
import Pinfall.Problem

/-!
# What checks accept

A check recovers data from its document when it accepts the document and gives the same
data back.  Integers, truth values and texts are recovered, and lists item by item.  So
are the records that the program writes itself: a problem always, and a summary when its
numbers are in their ranges.
-/

namespace Pinfall.Schema

open Value

variable {α : Type} {check item : Value → Checked α} {render : α → Json}
  {fields : List (String × Value)} {name : String} {others : List String} {v : Value} {a : α}

/-- The check accepts whatever is rendered, and gives it back. -/
def Recovers (check : Value → Checked α) (render : α → Json) : Prop :=
  ∀ a, check (.ofJson (render a)) = .accepted a

/-! ## Fields -/

theorem integer_recovers : Recovers integer .integer :=
  fun _ => rfl

theorem truthValue_recovers : Recovers truthValue .bool :=
  fun _ => rfl

theorem text_recovers : Recovers text .string :=
  fun _ => rfl

theorem optionalText_recovers : Recovers optionalText Json.optionalString := by
  intro s
  cases s with
  | none => rfl
  | some s => rfl

theorem boundedInteger_int {least : Int} {most : Option Int} {n : Int} (hleast : least ≤ n)
    (hmost : ∀ bound ∈ most, n ≤ bound) : boundedInteger least most (.int n) = .accepted n := by
  have hint : integer (.int n) = .accepted n := rfl
  simp only [boundedInteger, hint, Checked.ensure, if_neg (Int.not_lt.mpr hleast)]
  cases most with
  | none => rfl
  | some bound => simp [Int.not_lt.mpr (hmost bound rfl)]

theorem itemsFrom_ofItems (h : Recovers item render) (as : List α) (index : Nat) :
    itemsFrom item index (ofItems (as.map render)) = .accepted as := by
  induction as generalizing index with
  | nil => rfl
  | cons a as ih =>
    rw [List.map_cons, ofItems, itemsFrom, h a, ih]
    rfl

theorem list_recovers (h : Recovers item render) :
    Recovers (list item) fun as => .array (as.map render) :=
  fun as => itemsFrom_ofItems h as 0

theorem integers_recovers : Recovers (list integer) Json.integers :=
  list_recovers integer_recovers

/-! ## Records -/

/-- A field that must be there is found under its first name. -/
theorem required_of_lookup (hlookup : fields.lookup name = some v)
    (hcheck : check v = .accepted a) : required name others check fields = .accepted a := by
  simp [required, hlookup, hcheck, Checked.under]

/-- If its first name is absent, the field is found under the second one. -/
theorem required_of_lookup_other {other : String} (hnone : fields.lookup name = none)
    (hlookup : fields.lookup other = some v) (hcheck : check v = .accepted a) :
    required name [other] check fields = .accepted a := by
  simp [required, hnone, hlookup, hcheck, Checked.under]

theorem optional_of_lookup (hlookup : fields.lookup name = some v)
    (hcheck : check v = .accepted a) : Schema.optional name check fields = .accepted a := by
  simp [Schema.optional, hlookup, hcheck, Checked.under]

end Pinfall.Schema

namespace Pinfall

open Schema

variable {fields : List (String × Value)}

namespace Problem

/-- A problem is accepted field by field. -/
theorem check_object {problem : Problem}
    (htitle : required "title" [] text fields = .accepted problem.title)
    (hdetail : Schema.optional "detail" optionalText fields = .accepted problem.detail)
    (hcode : required "code" [] text fields = .accepted problem.code) :
    check (.object fields) = .accepted problem := by
  simp only [check, record, htitle, hdetail, hcode]
  rfl

theorem check_recovers : Recovers check toJson := by
  intro problem
  apply check_object
  · exact required_of_lookup rfl (text_recovers problem.title)
  · exact optional_of_lookup rfl (optionalText_recovers problem.detail)
  · exact required_of_lookup rfl (text_recovers problem.code)

end Problem

namespace Summary

variable {summary : Summary}

/-- A summary is accepted field by field. -/
theorem check_object
    (hframes : required "frames" [] (list (list integer)) fields = .accepted summary.frames)
    (hscores : required "scores" [] (list integer) fields = .accepted summary.scores)
    (hcumulative : required "cumulative" [] (list integer) fields = .accepted summary.cumulative)
    (htotal : required "total" [] (boundedInteger 0 (some 300)) fields = .accepted summary.total)
    (hframe : required "currentFrame" ["current_frame"] (boundedInteger 1 (some 10)) fields =
      .accepted summary.currentFrame)
    (hroll : required "currentRoll" ["current_roll"] (boundedInteger 1 none) fields =
      .accepted summary.currentRoll)
    (hover : required "gameOver" ["game_over"] truthValue fields = .accepted summary.gameOver) :
    check (.object fields) = .accepted summary := by
  simp only [check, record, hframes, hscores, hcumulative, htotal, hframe, hroll, hover]
  rfl

/-- A summary with its numbers in their ranges passes its own check, under either naming
of its fields. -/
theorem check_toJson (htotal : 0 ≤ summary.total) (htotal300 : summary.total ≤ 300)
    (hframe : 1 ≤ summary.currentFrame) (hframe10 : summary.currentFrame ≤ 10)
    (hroll : 1 ≤ summary.currentRoll) (naming : Naming) :
    check (.ofJson (summary.toJson naming)) = .accepted summary := by
  have hframes := list_recovers integers_recovers summary.frames
  have hscores := integers_recovers summary.scores
  have hcumulative := integers_recovers summary.cumulative
  have htotals : boundedInteger 0 (some 300) (.int summary.total) = .accepted summary.total :=
    boundedInteger_int htotal (by simpa using htotal300)
  have hcurrent : boundedInteger 1 (some 10) (.int summary.currentFrame) =
      .accepted summary.currentFrame := boundedInteger_int hframe (by simpa using hframe10)
  have hnext : boundedInteger 1 none (.int summary.currentRoll) =
      .accepted summary.currentRoll := boundedInteger_int hroll (by simp)
  have hover := truthValue_recovers summary.gameOver
  cases naming with
  | camelCase =>
    apply check_object
    · exact required_of_lookup rfl hframes
    · exact required_of_lookup rfl hscores
    · exact required_of_lookup rfl hcumulative
    · exact required_of_lookup rfl htotals
    · exact required_of_lookup rfl hcurrent
    · exact required_of_lookup rfl hnext
    · exact required_of_lookup rfl hover
  | snakeCase =>
    apply check_object
    · exact required_of_lookup rfl hframes
    · exact required_of_lookup rfl hscores
    · exact required_of_lookup rfl hcumulative
    · exact required_of_lookup rfl htotals
    · exact required_of_lookup_other rfl rfl hcurrent
    · exact required_of_lookup_other rfl rfl hnext
    · exact required_of_lookup_other rfl rfl hover

end Summary

end Pinfall
