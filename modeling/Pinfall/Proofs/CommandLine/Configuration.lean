import Pinfall.Proofs.CommandLine.Agreement
import Pinfall.Proofs.CommandLine.Console

/-!
# The configuration has no say

The setting of the log and the variables of the environment decide what is logged and which
service is called, and nothing else.  The exit code and standard output are those of the
arguments.  On standard error a threshold leaves out the records below it, and the variables
have a say only in the records about the settings of error reporting and its start.
-/

namespace Pinfall

namespace Reporting

/-- Starting error reporting logs nothing but what the settings and the start give rise to. -/
theorem source_of_mem_start {vars : Variables} {record : Log.Record}
    (h : record ∈ (start none vars).log) :
    record.source = .settings ∨ record.source = .reporting := by
  rcases List.mem_append.mp h with hrate | hstart
  · exact .inl (source_of_mem_readRate hrate)
  · exact .inr (source_of_mem_startWith hstart)

end Reporting

namespace CommandLine

variable {arguments : List String} {vars vars' : Reporting.Variables} {request : Request}
  {outcome : Outcome}

/-! ## Parts of standard error -/

namespace Emission

/-- A text is always shown, and a record from the threshold on. -/
def isShown (threshold : Log.Level) : Emission → Bool
  | .record r => r.isShown threshold
  | .text _ => true

/-- What is written when the part is shown. -/
def content : Emission → String
  | .record r => r.line
  | .text s => s

/-- A record about the settings of error reporting or its start. -/
def isAboutReporting : Emission → Bool
  | .record r => r.source = .settings ∨ r.source = .reporting
  | .text _ => false

theorem isShown_notset (emission : Emission) : emission.isShown .notset = true := by
  cases emission with
  | record r => simp [isShown, Log.Record.isShown, Log.Level.severity]
  | text s => rfl

theorem shown_eq (threshold : Log.Level) (emission : Emission) :
    emission.shown threshold = if emission.isShown threshold then emission.content else "" := by
  cases emission with
  | record r => rfl
  | text s => rfl

end Emission

/-- Parts of standard error one after the other. -/
def textOf (emissions : List Emission) : String :=
  String.join (emissions.map Emission.content)

/-- A threshold leaves out the records below it, and nothing else. -/
theorem Outcome.errText_eq_textOf (outcome : Outcome) (threshold : Log.Level) :
    outcome.errText threshold = textOf (outcome.err.filter (·.isShown threshold)) := by
  unfold errText
  induction outcome.err with
  | nil => rfl
  | cons emission emissions ih =>
    rw [List.map_cons, String.join_cons, ih, emission.shown_eq]
    cases hshown : emission.isShown threshold <;> simp [textOf, hshown]

/-! ## Variables of the environment -/

/-- An outcome with the given exit code, the given standard output, and the given parts of
standard error when those about error reporting are left out. -/
structure Outcome.HasCore (outcome : Outcome) (exitCode : Nat) (out : String)
    (err : List Emission) : Prop where
  exitCode_eq : outcome.exitCode = exitCode
  out_eq : outcome.out = out
  filter_err_eq : outcome.err.filter (!·.isAboutReporting) = err

/-- The events of the game that is asked for, as parts of standard error. -/
def Request.eventParts (request : Request) : List Emission :=
  ((Game.play (request.rolls.map .text)).events.map Game.Event.record).map .record

/-- The log of a request is about error reporting up to the events of its game. -/
theorem Request.filter_log_append (request : Request) (vars : Reporting.Variables)
    {rest : List Emission} (hrest : ∀ emission ∈ rest, emission.isAboutReporting = false) :
    ((request.log (Reporting.start none vars)).map Emission.record ++ rest).filter
        (!·.isAboutReporting) = request.eventParts ++ rest := by
  have hstart : ((Reporting.start none vars).log.map Emission.record).filter
      (!·.isAboutReporting) = [] := by
    simpa [Emission.isAboutReporting] using fun record => Reporting.source_of_mem_start
  rw [log, List.map_append, List.append_assoc, List.filter_append, hstart, List.nil_append]
  apply List.filter_eq_self.mpr
  intro emission hemission
  rw [Bool.not_eq_true']
  rcases List.mem_append.mp hemission with hplay | hend
  · obtain ⟨record, hrecord, rfl⟩ := List.mem_map.mp hplay
    obtain ⟨event, -, rfl⟩ := List.mem_map.mp hrecord
    simp [Emission.isAboutReporting, event.source_record]
  · exact hrest emission hend

/-- The core of the outcome is decided by the arguments. -/
theorem exists_hasCore (arguments : List String) :
    ∃ exitCode out err, ∀ vars, ∃ outcome,
      run arguments vars = .ok outcome ∧ outcome.HasCore exitCode out err := by
  cases hparse : parse arguments with
  | error stop =>
    refine ⟨_, _, _, fun vars => ⟨stop.outcome, ?_, rfl, rfl, rfl⟩⟩
    rw [run, hparse]
  | ok request =>
    have hrun : ∀ vars, run arguments vars = request.outcome (Reporting.start none vars) := by
      intro vars
      rw [run, hparse]
    cases hresult : (Game.play (request.rolls.map .text)).result with
    | ok game =>
      refine ⟨0, gameReport request.json game, request.eventParts ++ [], fun vars =>
        ⟨_, (hrun vars).trans (Request.outcome_of_played hresult), rfl, rfl, ?_⟩⟩
      rw [← request.filter_log_append vars (by simp), List.append_nil]
    | error error =>
      let rest : List Emission :=
        [.record (refusalWarning error), .text (errorLine request.json error ++ "\n")]
      refine ⟨1, "", request.eventParts ++ rest, fun vars =>
        ⟨_, (hrun vars).trans (Request.outcome_of_refused hresult), rfl, rfl, ?_⟩⟩
      rw [← request.filter_log_append vars
        (by simp [rest, Emission.isAboutReporting, refusalWarning])]
      simp [rest]

/-! ## Noninterference -/

/-- For the same arguments, whatever the setting of the log and the variables are, the exit
code and standard output are the same.  A setting of the log decides which records are left
out of standard error; at `NOTSET` none is.  The variables decide which records there are
about error reporting and which calls are made; without these records, the parts of standard
error are the same. -/
theorem configuration_hasNoSay (arguments : List String) (vars vars' : Reporting.Variables) :
    ∃ exitCode out err err' calls calls',
      run arguments vars = .ok ⟨exitCode, out, err, calls⟩ ∧
      run arguments vars' = .ok ⟨exitCode, out, err', calls'⟩ ∧
      err.filter (!·.isAboutReporting) = err'.filter (!·.isAboutReporting) ∧
      transcript .notset arguments vars = .ok ⟨exitCode, out, textOf err, calls⟩ ∧
      ∀ setting, let threshold := Log.Level.ofSetting setting
        transcript threshold arguments vars =
            .ok ⟨exitCode, out, textOf (err.filter (·.isShown threshold)), calls⟩ ∧
          transcript threshold arguments vars' =
            .ok ⟨exitCode, out, textOf (err'.filter (·.isShown threshold)), calls'⟩ := by
  obtain ⟨exitCode, out, core, hcore⟩ := exists_hasCore arguments
  obtain ⟨⟨_, _, err, calls⟩, hrun, rfl, rfl, herr⟩ := hcore vars
  obtain ⟨⟨_, _, err', calls'⟩, hrun', rfl, rfl, herr'⟩ := hcore vars'
  refine ⟨_, _, err, err', calls, calls', hrun, hrun', herr.trans herr'.symm, ?_, ?_⟩
  · have hall : err.filter (·.isShown .notset) = err :=
      List.filter_eq_self.mpr fun emission _ => emission.isShown_notset
    rw [transcript_eq hrun, Outcome.errText_eq_textOf, hall]
  · intro setting threshold
    rw [transcript_eq hrun, transcript_eq hrun', Outcome.errText_eq_textOf,
      Outcome.errText_eq_textOf]
    exact ⟨rfl, rfl⟩

end CommandLine

end Pinfall
