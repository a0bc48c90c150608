import Pinfall.Proofs.CommandLine.Ending
import Pinfall.Proofs.CommandLine.Handover
import Pinfall.Proofs.Log.OneLine

/-!
# The lines on standard error

Each record that is shown takes a line of its own on standard error, and so does the error if a
roll is refused.  Texts from outside cannot change this, with one exception: a name of the
environment that holds a line feed is written as it is when error reporting starts.  Then the
record of the start takes more than one line, and standard error has more lines than records and
errors.
-/

namespace Pinfall.CommandLine

open Text

variable {arguments : List String} {vars : Reporting.Variables} {request : Request}
  {threshold : Log.Level} {record closing : Log.Record} {shown : List Log.Record}
  {errors : List String}

/-! ## Lines of records -/

theorem logText_eq_ofLines (threshold : Log.Level) (records : List Log.Record) :
    logText threshold records =
      ofLines ((records.filter (·.isShown threshold)).map Log.Record.entry) := by
  have hline : Log.Record.line = (· ++ "\n") ∘ Log.Record.entry := funext Log.Record.line_eq
  rw [logText, ofLines, List.map_map, hline]

/-- Records and errors are told apart by their lines just when no record is broken. -/
theorem lineFeeds_eq_iff (herrors : ∀ line ∈ errors, '\n' ∉ line.toList) :
    lineFeeds (ofLines (shown.map Log.Record.entry ++ errors)) = shown.length + errors.length ↔
      ∀ record ∈ shown, record.IsOneLine := by
  rw [lineFeeds_ofLines, List.length_append, List.length_map, Nat.add_eq_left,
    lineFeeds_eq_zero_iff, String.toList_join, List.mem_flatMap]
  constructor
  · intro hnone record hrecord hfeed
    exact hnone ⟨record.entry, by simp [List.mem_map_of_mem hrecord], hfeed⟩
  · rintro hshown ⟨line, hline, hfeed⟩
    rcases List.mem_append.mp hline with hentry | herror
    · obtain ⟨record, hrecord, rfl⟩ := List.mem_map.mp hentry
      exact hshown record hrecord hfeed
    · exact herrors line herror hfeed

theorem linesOf_of_isOneLine (herrors : ∀ line ∈ errors, '\n' ∉ line.toList)
    (hshown : ∀ record ∈ shown, record.IsOneLine) :
    linesOf (ofLines (shown.map Log.Record.entry ++ errors)) =
      shown.map Log.Record.entry ++ errors := by
  apply linesOf_ofLines
  intro line hline
  rcases List.mem_append.mp hline with hentry | herror
  · obtain ⟨record, hrecord, rfl⟩ := List.mem_map.mp hentry
    exact hshown record hrecord
  · exact herrors line herror

theorem isOneLine_refusalWarning (error : RollError) : (refusalWarning error).IsOneLine := by
  apply Log.Record.isOneLine_of_hasNoControl
  have hbegin : HasNoControl "Rejected input: " := by decide
  exact hbegin.append error.hasNoControl_message

/-! ## The record of the start -/

/-- Error reporting is started, the record of the start is shown, and a line feed is inside of
the name of the environment in it. -/
structure BreaksLine (threshold : Log.Level) (vars : Reporting.Variables) : Prop where
  info_isShown : threshold.severity ≤ Log.Level.info.severity
  exists_address : ∃ raw, vars.dsn = some raw ∧ isAllBlank raw = false
  exists_name : ∃ raw name, vars.environment = some raw ∧ IsTrimOf name raw ∧ '\n' ∈ name.toList

/-- The start has one record, and this is broken if there is an address to report to and the
name of the environment holds a line feed. -/
theorem breaksLine_iff (hclosing : (Reporting.startWith vars.settings.1).log = [closing]) :
    BreaksLine threshold vars ↔ closing.isShown threshold = true ∧ ¬closing.IsOneLine := by
  obtain ⟨other, hother, -, hlevel, hline⟩ := Reporting.log_startWith vars.settings.1
  obtain rfl : closing = other := by simpa [hclosing] using hother
  have haddress := vars.areReadFrom.dsn.isSome_iff
  have hname := Reporting.lineFeed_mem_environmentName_iff vars
  rw [hline, not_not, Log.Record.isShown, decide_eq_true_eq, hlevel]
  constructor
  · intro hbreaks
    have hsome := haddress.mpr hbreaks.exists_address
    rw [if_pos hsome]
    exact ⟨hbreaks.info_isShown, hsome, hname.mpr hbreaks.exists_name⟩
  · rintro ⟨hshown, hsome, hmem⟩
    rw [if_pos hsome] at hshown
    exact ⟨hshown, haddress.mp hsome, hname.mp hmem⟩

/-! ## The records of a run -/

namespace Request

/-- The records of a run: the log of the request, and a warning if a roll is refused. -/
def records (request : Request) (vars : Reporting.Variables) : List Log.Record :=
  match (Game.play (request.rolls.map .text)).result with
  | .ok _ => request.log (Reporting.start none vars)
  | .error error => request.log (Reporting.start none vars) ++ [refusalWarning error]

/-- The error that is reported, if a roll is refused. -/
def errorLines (request : Request) : List String :=
  match (Game.play (request.rolls.map .text)).result with
  | .ok _ => []
  | .error error => [errorLine request.json error]

theorem errorLines_cases (request : Request) :
    (∃ game, (Game.play (request.rolls.map .text)).result = .ok game ∧ request.errorLines = []) ∨
      ∃ error, (Game.play (request.rolls.map .text)).result = .error error ∧
        request.errorLines = [errorLine request.json error] := by
  rw [errorLines]
  cases (Game.play (request.rolls.map .text)).result with
  | ok game => exact Or.inl ⟨game, rfl, rfl⟩
  | error error => exact Or.inr ⟨error, rfl, rfl⟩

theorem lineFeed_notMem_errorLines (request : Request) :
    ∀ line ∈ request.errorLines, '\n' ∉ line.toList := by
  rw [errorLines]
  cases (Game.play (request.rolls.map .text)).result with
  | ok game => simp
  | error error =>
    intro line hline
    rw [List.mem_singleton.mp hline]
    exact (hasNoControl_errorLine request.json error).lineFeed_notMem

theorem log_subset_records (request : Request) (vars : Reporting.Variables) :
    request.log (Reporting.start none vars) ⊆ request.records vars := by
  rw [records]
  cases (Game.play (request.rolls.map .text)).result with
  | ok game => exact List.Subset.refl _
  | error error => exact List.subset_append_left _ _

/-- All records but the one of the start are on one line. -/
theorem isOneLine_or_of_mem_log (h : record ∈ request.log (Reporting.start none vars)) :
    record.IsOneLine ∨ record ∈ (Reporting.startWith vars.settings.1).log := by
  rcases List.mem_append.mp h with hstart | hplay
  · rcases List.mem_append.mp hstart with hsettings | hstart
    · exact Or.inl (Reporting.isOneLine_of_mem_settings hsettings)
    · exact Or.inr hstart
  · obtain ⟨event, -, rfl⟩ := List.mem_map.mp hplay
    exact Or.inl event.isOneLine_record

theorem isOneLine_or_of_mem_records (h : record ∈ request.records vars) :
    record.IsOneLine ∨ record ∈ (Reporting.startWith vars.settings.1).log := by
  rw [records] at h
  split at h
  next => exact isOneLine_or_of_mem_log h
  next error _ =>
    rcases List.mem_append.mp h with hlog | hwarning
    · exact isOneLine_or_of_mem_log hlog
    · rw [List.mem_singleton.mp hwarning]
      exact Or.inl (isOneLine_refusalWarning error)

theorem forall_isOneLine_iff (request : Request) (vars : Reporting.Variables)
    (threshold : Log.Level) :
    (∀ record ∈ (request.records vars).filter (·.isShown threshold), record.IsOneLine) ↔
      ¬BreaksLine threshold vars := by
  obtain ⟨closing, hclosing, -⟩ := Reporting.log_startWith vars.settings.1
  rw [breaksLine_iff hclosing]
  constructor
  · rintro hall ⟨hshown, hbroken⟩
    have hmem : closing ∈ request.records vars := by
      apply request.log_subset_records vars
      simp [log, Reporting.start, hclosing]
    exact hbroken (hall closing (List.mem_filter.mpr ⟨hmem, hshown⟩))
  · intro hclear record hrecord
    obtain ⟨hmem, hshown⟩ := List.mem_filter.mp hrecord
    rcases isOneLine_or_of_mem_records hmem with hline | hstart
    · exact hline
    · rw [hclosing, List.mem_singleton] at hstart
      subst hstart
      by_contra hbroken
      exact hclear ⟨hshown, hbroken⟩

/-- Behind the records of a run stands the error, if there is one. -/
theorem exists_outcome_err (request : Request) (vars : Reporting.Variables) :
    ∃ outcome, request.outcome (Reporting.start none vars) = .ok outcome ∧
      outcome.exitCode = request.errorLines.length ∧
      outcome.err = (request.records vars).map .record ++
        request.errorLines.map fun line => .text (line ++ "\n") := by
  cases hresult : (Game.play (request.rolls.map .text)).result with
  | ok game =>
    refine ⟨_, outcome_of_played hresult, ?_, ?_⟩
    · simp [errorLines, hresult]
    · simp [errorLines, records, hresult]
  | error error =>
    refine ⟨_, outcome_of_refused hresult, ?_, ?_⟩
    · simp [errorLines, hresult]
    · simp [errorLines, records, hresult]

end Request

theorem Outcome.errText_eq_ofLines {outcome : Outcome} {records : List Log.Record}
    (h : outcome.err = records.map .record ++ errors.map fun line => .text (line ++ "\n")) :
    outcome.errText threshold =
      ofLines ((records.filter (·.isShown threshold)).map Log.Record.entry ++ errors) := by
  have herrors : (errors.map fun line => Emission.text (line ++ "\n")).map
      (Emission.shown threshold) = errors.map (· ++ "\n") := by
    simp [Emission.shown]
  rw [errText, h, List.map_append, String.join_append, join_shown_records, herrors,
    logText_eq_ofLines, ofLines_append]
  rfl

/-- When the arguments are a request, standard error holds the records that the setting of the log
lets through, and the error if a roll is refused; the exit code counts the errors.  There are as
many line feeds as records and errors, each of them has a line of its own, and these lines can be
told from the text, just as long as no line feed is inside of the name of the environment that
the record of the start shows.  No other record can be broken, whatever the arguments and the
variables of the environment hold. -/
theorem records_takeLines (h : parse arguments = .ok request) (vars : Reporting.Variables) :
    ∃ outcome, run arguments vars = .ok outcome ∧
      outcome.exitCode = request.errorLines.length ∧
      ((∃ game, (Game.play (request.rolls.map .text)).result = .ok game ∧
          request.errorLines = []) ∨
        ∃ error, (Game.play (request.rolls.map .text)).result = .error error ∧
          request.errorLines = [errorLine request.json error]) ∧
      outcome.err = (request.records vars).map .record ++
        (request.errorLines.map fun line => .text (line ++ "\n")) ∧
      ∀ setting, let threshold := Log.Level.ofSetting setting
        let shown := (request.records vars).filter (·.isShown threshold)
        let err := outcome.errText threshold
        err = ofLines (shown.map Log.Record.entry ++ request.errorLines) ∧
          (lineFeeds err = shown.length + request.errorLines.length ↔
            ¬BreaksLine threshold vars) ∧
          ((∀ record ∈ shown, record.IsOneLine) ↔ ¬BreaksLine threshold vars) ∧
          (¬BreaksLine threshold vars →
            linesOf err = shown.map Log.Record.entry ++ request.errorLines) ∧
          ∀ record ∈ shown, ¬record.IsOneLine → record.source = .reporting := by
  obtain ⟨outcome, houtcome, hcode, herr⟩ := request.exists_outcome_err vars
  have herrors := request.lineFeed_notMem_errorLines
  refine ⟨outcome, (run_of_parse h vars).trans houtcome, hcode, request.errorLines_cases, herr, ?_⟩
  intro setting threshold shown err
  have htext : err = ofLines (shown.map Log.Record.entry ++ request.errorLines) :=
    Outcome.errText_eq_ofLines herr
  have hlines := request.forall_isOneLine_iff vars threshold
  refine ⟨htext, ?_, hlines, ?_, ?_⟩
  · rw [htext, lineFeeds_eq_iff herrors]
    exact hlines
  · intro hclear
    rw [htext]
    exact linesOf_of_isOneLine herrors (hlines.mpr hclear)
  · intro record hrecord hbroken
    have hmem := (List.mem_filter.mp hrecord).1
    have hstart := (Request.isOneLine_or_of_mem_records hmem).resolve_left hbroken
    exact Reporting.source_of_mem_startWith hstart

/-- Line feeds in a rejected rate and at the end of a name are no matter: four records and the
error take five lines. -/
theorem records_takeLines_of_feedsAround :
    parse ["--json", "10", "11"] = .ok ⟨["10", "11"], true⟩ ∧
      ∃ outcome, run ["--json", "10", "11"] ⟨some "d", some "a\n", some "x\ny"⟩ = .ok outcome ∧
        lineFeeds (outcome.errText (.ofSetting (some "debug"))) = 5 := by
  have hparse : parse ["--json", "10", "11"] = .ok ⟨["10", "11"], true⟩ := by decide
  obtain ⟨outcome, hrun, -, -, -, hlines⟩ :=
    records_takeLines hparse ⟨some "d", some "a\n", some "x\ny"⟩
  obtain ⟨-, hcount, -⟩ := hlines (some "debug")
  have hclear : ¬BreaksLine (.ofSetting (some "debug")) ⟨some "d", some "a\n", some "x\ny"⟩ := by
    intro hbreaks
    obtain ⟨raw, name, hraw, htrim, hfeed⟩ := hbreaks.exists_name
    obtain rfl := Option.some.inj hraw
    rw [htrim.eq_trim] at hfeed
    exact absurd hfeed (by decide)
  exact ⟨hparse, outcome, hrun, (hcount.mpr hclear).trans (by decide)⟩

/-- A name with a line feed inside forges a line: one record is shown, and behind it stands the
line of another one, which there is not. -/
theorem line_forged_by_name :
    let vars : Reporting.Variables := ⟨some "d", some "a)\nWARNING:tenpin.cli:b", none⟩
    let threshold := Log.Level.ofSetting (some "INFO")
    let shown := (Request.records ⟨[], false⟩ vars).filter (·.isShown threshold)
    parse [] = .ok ⟨[], false⟩ ∧
      ∃ outcome, run [] vars = .ok outcome ∧ shown.length = 1 ∧
        Request.errorLines ⟨[], false⟩ = [] ∧
        linesOf (outcome.errText threshold) =
          ["INFO:tenpin.utils.sentry:Error reporting enabled (environment=a)",
            Log.Record.entry ⟨.warning, .commandLine, "b)"⟩] ∧
        lineFeeds (outcome.errText threshold) ≠
          shown.length + (Request.errorLines ⟨[], false⟩).length :=
  ⟨by decide, _, rfl, by decide, rfl, by decide, by decide⟩

end Pinfall.CommandLine
