import Pinfall.Game.Basic
import Pinfall.Proofs.Frame.Marks
import Pinfall.Proofs.Reporting.Start
import Pinfall.Proofs.Text.OneLine

/-!
# Records on one line

A record takes a single line if no line feed is in its message.  The events of a game have such
records, and so has a rejected sample rate, which is put into its warning as a quoted literal.
The record of the start of error reporting holds the name of the environment as it is, and with
it all line feeds of the name.
-/

namespace Pinfall

open Text

/-! ## Records -/

namespace Log.Record

/-- The line of a record without its line feed. -/
def entry (record : Record) : String :=
  record.level.name ++ ":" ++ record.source.name ++ ":" ++ record.message

/-- The record takes a single line. -/
def IsOneLine (record : Record) : Prop :=
  '\n' ∉ record.entry.toList

variable {record : Record}

theorem line_eq (record : Record) : record.line = record.entry ++ "\n" := rfl

theorem lineFeeds_entry (record : Record) : lineFeeds record.entry = lineFeeds record.message := by
  have hlevel : ∀ level : Level, lineFeeds level.name = 0 := by
    intro level
    cases level <;> rfl
  have hsource : ∀ source : Source, lineFeeds source.name = 0 := by
    intro source
    cases source <;> rfl
  have hcolon : lineFeeds ":" = 0 := rfl
  simp only [entry, lineFeeds_append, hlevel, hsource, hcolon, Nat.zero_add]

theorem isOneLine_iff : record.IsOneLine ↔ '\n' ∉ record.message.toList := by
  rw [IsOneLine, ← lineFeeds_eq_zero_iff, lineFeeds_entry, lineFeeds_eq_zero_iff]

theorem isOneLine_of_hasNoControl (h : HasNoControl record.message) : record.IsOneLine :=
  isOneLine_iff.mpr h.lineFeed_notMem

end Log.Record

/-! ## Events -/

theorem Frame.hasNoControl_mark (pins : Int) : HasNoControl (mark pins) := by
  rcases mark_cases pins with hmark | hmark
  · rw [hmark]
    decide
  · rw [hmark]
    exact hasNoControl_numeral pins

theorem Frame.hasNoControl_display (frame : Frame) : HasNoControl frame.display := by
  have hopening : HasNoControl "[" := by decide
  have hclosing : HasNoControl "]" := by decide
  have hmarks : HasNoControl (String.intercalate ", " (marks frame.rolls)) := by
    apply hasNoControl_intercalate (by decide)
    intro text htext
    rcases eq_of_mem_marks htext with rfl | ⟨pins, rfl⟩
    · decide
    · exact hasNoControl_mark pins
  exact (hopening.append hmarks).append hclosing

theorem Game.Event.isOneLine_record (event : Event) : event.record.IsOneLine := by
  apply Log.Record.isOneLine_of_hasNoControl
  cases event with
  | frameComplete number frame =>
    have hframe : HasNoControl "Frame " := by decide
    have hcomplete : HasNoControl " complete " := by decide
    have hend : HasNoControl "; advancing" := by decide
    exact (((hframe.append (hasNoControl_numeral number)).append hcomplete).append
      frame.hasNoControl_display).append hend
  | gameOver score =>
    have hover : HasNoControl "Game over with score " := by decide
    exact hover.append (hasNoControl_numeral score)

/-! ## Error reporting -/

theorem Number.Binary64.hasNoControl_fixedTwo (x : Binary64) : HasNoControl x.fixedTwo := by
  have hrepr : ∀ n, HasNoControl (Nat.repr n) := by
    intro n
    exact hasNoControl_numeral n
  have hsign : HasNoControl (if x.negative then "-" else "") := by
    cases x.negative <;> decide
  have hinfinity : HasNoControl "inf" := by decide
  have hpoint : HasNoControl "." := by decide
  have hzero : ∀ fraction : String, HasNoControl (if fraction.length < 2 then "0" else "") := by
    intro fraction
    split <;> decide
  unfold fixedTwo
  cases x.isNaN with
  | true =>
    rw [if_pos rfl]
    decide
  | false =>
    rw [if_neg Bool.false_ne_true]
    dsimp only
    -- The number of hundredths must not be evaluated.
    generalize roundHalfEven (unitsOfCode x.magnitude * 100) unitsPerOne = hundredths
    cases x.isFinite with
    | true => exact (((hsign.append (hrepr _)).append hpoint).append (hzero _)).append (hrepr _)
    | false => exact hsign.append hinfinity

namespace Reporting

variable {vars : Variables} {settings : Settings} {record : Log.Record}

/-- The rejected text is quoted, so that it cannot end the line. -/
theorem isOneLine_rateWarning {name : String} (hname : HasNoControl name) (raw : String)
    (error : RateError) (default : Number.Binary64) :
    (rateWarning name raw error default).IsOneLine := by
  apply Log.Record.isOneLine_of_hasNoControl
  have hequals : HasNoControl "=" := by decide
  have hspace : HasNoControl " " := by decide
  have herror : HasNoControl error.message := by cases error <;> decide
  have husing : HasNoControl "; using " := by decide
  exact (((((hname.append hequals).append (hasNoControl_quoted raw)).append hspace).append
    herror).append husing).append default.hasNoControl_fixedTwo

theorem isOneLine_of_mem_settings (h : record ∈ vars.settings.2) : record.IsOneLine := by
  obtain ⟨text, error, -, rfl⟩ := exists_eq_rateWarning_of_mem h
  exact isOneLine_rateWarning (by decide) text error (.zero false)

/-- The name of the environment as it stands in the record of the start. -/
def Settings.environmentName (settings : Settings) : String :=
  settings.environment.getD "None"

/-- The record of the start is broken by a name with a line feed, if there is an address. -/
theorem log_startWith (settings : Settings) :
    ∃ closing, (startWith settings).log = [closing] ∧ closing.source = .reporting ∧
      closing.level = (if settings.dsn.isSome then .info else .debug) ∧
      (closing.IsOneLine ↔
        ¬(settings.dsn.isSome = true ∧ '\n' ∈ settings.environmentName.toList)) := by
  rw [startWith]
  cases settings.dsn with
  | none =>
    refine ⟨_, rfl, rfl, rfl, ?_⟩
    have hline : Log.Record.IsOneLine
        ⟨.debug, .reporting, "SENTRY_DSN not set; error reporting disabled"⟩ :=
      Log.Record.isOneLine_of_hasNoControl (by decide)
    simpa using hline
  | some dsn =>
    refine ⟨_, rfl, rfl, rfl, ?_⟩
    rw [Log.Record.isOneLine_iff, String.toList_append, String.toList_append, List.mem_append,
      List.mem_append]
    simp [Settings.environmentName]

/-- A line feed gets into the record from inside of a name, not from its ends. -/
theorem lineFeed_mem_environmentName_iff (vars : Variables) :
    '\n' ∈ vars.settings.1.environmentName.toList ↔
      ∃ raw name, vars.environment = some raw ∧ IsTrimOf name raw ∧ '\n' ∈ name.toList := by
  have hreads := vars.areReadFrom.environment
  rw [Settings.environmentName]
  generalize vars.settings.1.environment = environment at hreads
  cases hreads with
  | nothing hblank =>
    constructor
    · intro hmem
      exact absurd hmem (by decide)
    · rintro ⟨raw, name, hraw, htrim, hmem⟩
      have hempty := isEmpty_trim raw
      rw [hblank raw hraw, ← htrim.eq_trim, String.isEmpty_iff] at hempty
      rw [hempty] at hmem
      contradiction
  | @text raw name hraw _ htrim _ =>
    constructor
    · intro hmem
      exact ⟨raw, name, hraw, htrim, hmem⟩
    · rintro ⟨other, name', hother, htrim', hmem⟩
      obtain rfl := Option.some.inj (hraw.symm.trans hother)
      rwa [htrim'.unique htrim] at hmem

end Reporting

end Pinfall
