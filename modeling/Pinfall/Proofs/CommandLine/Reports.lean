import Pinfall.Proofs.CommandLine.Outcome
import Pinfall.Proofs.Json.OneLine

/-!
# What a request comes to

A request that parses has one of two outcomes.  Either the game that its rolls lead to is
reported, or the refusal of a roll is; both come behind the log.  The documents among these
reports are plain, so that they can be read back, and an error takes a single line.
-/

namespace Pinfall

open Text

/-! ## Documents -/

theorem Json.isPlain_integers (ns : List Int) : (integers ns).IsPlain := by
  apply IsPlain.array
  intro item hitem
  obtain ⟨n, _, rfl⟩ := List.mem_map.mp hitem
  exact .integer n

theorem Json.isPlain_optionalString (s : Option String) : (optionalString s).IsPlain := by
  cases s with
  | none => exact .null
  | some s => exact .string s

theorem Summary.isPlain_toJson (summary : Summary) (naming : Naming) :
    (summary.toJson naming).IsPlain := by
  have hframes : (Json.array (summary.frames.map Json.integers)).IsPlain := by
    apply Json.IsPlain.array
    intro item hitem
    obtain ⟨rolls, _, rfl⟩ := List.mem_map.mp hitem
    exact Json.isPlain_integers rolls
  apply Json.IsPlain.object
  simp [hframes, Json.isPlain_integers, Json.IsPlain.integer, Json.IsPlain.bool]

namespace Problem

variable (problem : Problem)

theorem isPlain_toJson : problem.toJson.IsPlain := by
  apply Json.IsPlain.object
  simp [Json.isPlain_optionalString, Json.IsPlain.string]

theorem parse?_compact : Json.parse? problem.toJson.compact = some problem.toJson :=
  problem.isPlain_toJson.parse?_write Json.Layout.isBlank_compact

theorem hasNoControl_compact : HasNoControl problem.toJson.compact :=
  problem.isPlain_toJson.hasNoControl_compact 0

end Problem

/-! ## Refusals -/

namespace RollError

variable {error : RollError} {fault : Fault}

/-- The problem that a refused roll is reported as. -/
def problem : RollError → Problem
  | .gameOver => ⟨"Game over", some gameOver.message, "game_over"⟩
  | error => ⟨"Invalid roll", some error.message, "invalid_roll"⟩

theorem detail_problem (error : RollError) : error.problem.detail = some error.message := by
  cases error <;> rfl

theorem message_ne_empty (error : RollError) : error.message ≠ "" := by
  cases error with
  | badPins cause =>
    cases cause with
    | outOfRange most =>
      intro hempty
      have hbegin := (String.append_eq_empty_iff.mp hempty).1
      have hwords := (String.append_eq_empty_iff.mp hbegin).1
      contradiction
    | _ => decide
  | _ => decide

theorem hasNoControl_message (error : RollError) : HasNoControl error.message := by
  cases error with
  | badPins cause =>
    cases cause with
    | outOfRange most =>
      have hbegin : HasNoControl "Pins must be between 0 and " := by decide
      have hend : HasNoControl "." := by decide
      exact (hbegin.append (hasNoControl_numeral most)).append hend
    | _ => decide
  | _ => decide

/-- The fault that a refused roll is has the wording of the refusal, and its problem. -/
theorem problem_of_fault? (h : error.fault? = some fault) :
    fault.message = error.message ∧ fault.problem = .accepted error.problem := by
  have hmessage : ∀ kind title code,
      (⟨kind, title, .text error.message, code⟩ : Fault).message = error.message := by
    intro kind title code
    have hwording : (⟨kind, title, .text error.message, code⟩ : Fault).wording =
        .text error.message := by
      simp [Fault.wording, Value.isPresent, error.message_ne_empty]
    rw [Fault.message, hwording, Value.display]
  cases error with
  | noSuchFrame | oversizedIndex => contradiction
  | gameOver =>
    obtain rfl := Option.some.inj h
    exact ⟨hmessage _ _ _, Fault.problem_gameOver⟩
  | badPins | frameComplete | tooManyPins =>
    obtain rfl := Option.some.inj h
    exact ⟨hmessage _ _ _, Fault.problem_invalidRoll _⟩

end RollError

namespace CommandLine

variable {request : Request} {started : Reporting.Started} {game : Game} {error : RollError}

/-! ## Reports -/

/-- The report of a game, as text or in JSON. -/
def gameReport (json : Bool) (game : Game) : String :=
  if json then (game.summary.toJson .camelCase).indented ++ "\n" else gameText game

/-- The line that tells of a refused roll, as text or in JSON. -/
def errorLine (json : Bool) (error : RollError) : String :=
  if json then error.problem.toJson.compact else "error: " ++ error.message

/-- The warning that a roll is refused. -/
def refusalWarning (error : RollError) : Log.Record :=
  ⟨.warning, .commandLine, "Rejected input: " ++ error.message⟩

theorem hasNoControl_errorLine (json : Bool) (error : RollError) :
    HasNoControl (errorLine json error) := by
  cases json with
  | true => exact error.problem.hasNoControl_compact
  | false =>
    have hbegin : HasNoControl "error: " := by decide
    exact hbegin.append error.hasNoControl_message

theorem report_eq (h : game.IsLegal) (json : Bool) :
    report json game = .ok (gameReport json game) := by
  cases json with
  | false => rfl
  | true =>
    have hcheck := h.check_summary .camelCase
    simp only [report, gameJson, hcheck]
    rfl

/-- In JSON a fault is reported by its problem, behind a warning with its wording. -/
theorem rejection_of_problem {fault : Fault} {problem : Problem}
    (h : fault.problem = .accepted problem) :
    rejection true fault =
      .ok [.record ⟨.warning, .commandLine, "Rejected input: " ++ fault.message⟩,
        .text (problem.toJson.compact ++ "\n")] := by
  simp only [rejection, faultJson, h]
  rfl

theorem rejection_eq {fault : Fault} (h : error.fault? = some fault) (json : Bool) :
    rejection json fault =
      .ok [.record (refusalWarning error), .text (errorLine json error ++ "\n")] := by
  obtain ⟨hmessage, hproblem⟩ := RollError.problem_of_fault? h
  cases json with
  | false =>
    simp only [rejection, faultText, hmessage]
    rfl
  | true =>
    rw [rejection_of_problem hproblem, hmessage]
    rfl

/-! ## Outcomes -/

/-- What a request leaves in the log before its report. -/
def Request.log (request : Request) (started : Reporting.Started) : List Log.Record :=
  started.log ++ (Game.play (request.rolls.map .text)).events.map Game.Event.record

/-- If the rolls lead to a game, that is reported. -/
theorem Request.outcome_of_played (h : (Game.play (request.rolls.map .text)).result = .ok game) :
    request.outcome started =
      .ok { exitCode := 0
            out := gameReport request.json game
            err := (request.log started).map .record
            calls := started.calls } := by
  have hreport := report_eq (Game.isLegal_of_play h) request.json
  simp only [outcome, h, hreport]
  rfl

/-- If a roll is refused, that is reported, with a warning at the end of the log. -/
theorem Request.outcome_of_refused
    (h : (Game.play (request.rolls.map .text)).result = .error error) :
    request.outcome started =
      .ok { exitCode := 1
            err := (request.log started ++ [refusalWarning error]).map .record ++
              [.text (errorLine request.json error ++ "\n")]
            calls := started.calls } := by
  obtain ⟨fault, hfault⟩ := Game.exists_fault_of_play h
  have hrejection := rejection_eq hfault request.json
  simp only [outcome, h, hfault, hrejection]
  simp [log]

end CommandLine

end Pinfall
