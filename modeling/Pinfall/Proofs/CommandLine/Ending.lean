import Mathlib.Logic.ExistsUnique
import Pinfall.Proofs.CommandLine.Reports

/-!
# How a run ends

There are three ways in which a run ends: its arguments stop it, a roll is refused, or the
game is reported.  The arguments alone decide which of them it is.  A threshold of the log
only leaves lines out of what is written on standard error.
-/

namespace Pinfall.CommandLine

variable {arguments : List String} {vars : Reporting.Variables} {threshold : Log.Level}
  {outcome : Outcome}

/-! ## Standard error -/

/-- The lines of the records that are shown. -/
def logText (threshold : Log.Level) (records : List Log.Record) : String :=
  String.join ((records.filter (·.isShown threshold)).map Log.Record.line)

theorem join_shown_records (threshold : Log.Level) (records : List Log.Record) :
    String.join ((records.map Emission.record).map (Emission.shown threshold)) =
      logText threshold records := by
  induction records with
  | nil => rfl
  | cons record records ih =>
    rw [List.map_cons, List.map_cons, String.join_cons, ih]
    cases hshown : record.isShown threshold <;> simp [logText, Emission.shown, hshown]

theorem Outcome.errText_of_records {records : List Log.Record}
    (h : outcome.err = records.map .record) :
    outcome.errText threshold = logText threshold records := by
  rw [errText, h, join_shown_records]

theorem Outcome.errText_of_records_text {records : List Log.Record} {text : String}
    (h : outcome.err = records.map .record ++ [.text text]) :
    outcome.errText threshold = logText threshold records ++ text := by
  rw [errText, h, List.map_append, String.join_append, join_shown_records]
  simp [Emission.shown]

/-! ## The three endings -/

end Pinfall.CommandLine
