import Pinfall.Proofs.CommandLine.Arguments
import Pinfall.Proofs.CommandLine.Ending
import Pinfall.Proofs.Reporting.Start

/-!
# Text and JSON agree

The same rolls are run twice, for text and for JSON.  Both runs play the same game, and what
the one prints can be told from what the other does: the text is spelled out of the fields
of the document, and the wording of an error is the detail of the problem.
-/

namespace Pinfall

namespace Game

/-- The frames of a game in one line, each by its rolls. -/
def stateLine (frames : List (List Int)) : String :=
  String.intercalate " | "
    (frames.zipIdx.map fun (rolls, i) =>
      "Frame " ++ Number.numeral (i + 1) ++ ": " ++ ({ rolls } : Frame).display)

theorem display_eq_stateLine (game : Game) : game.display = stateLine game.summary.frames := by
  have hframe : ∀ frame : Frame, ({ rolls := frame.rolls } : Frame).display = frame.display :=
    fun _ => rfl
  simp [display, stateLine, summary, List.zipIdx_map, hframe, Function.comp_def]

/-- No event is a matter of the command line. -/
theorem Event.source_record (event : Event) : event.record.source = .game := by
  cases event <;> rfl

end Game

namespace CommandLine

variable {rolls : List String} {vars : Reporting.Variables}

/-- A text and a document report the same game. -/
structure SameGame (text : String) (document : Json) (frames : List (List Int))
    (total frame roll : Int) (isOver : Bool) (status : String) : Prop where
  frames_eq : document.field? "frames" = some (.array (frames.map Json.integers))
  total_eq : document.field? "total" = some (.integer total)
  currentFrame_eq : document.field? "currentFrame" = some (.integer frame)
  currentRoll_eq : document.field? "currentRoll" = some (.integer roll)
  gameOver_eq : document.field? "gameOver" = some (.bool isOver)
  text_eq : text = Game.stateLine frames ++ "\nScore: " ++ Number.numeral total ++
    " (" ++ status ++ ")\n"
  isOver_iff : isOver = true ↔ status = "final"
  status_eq : isOver = false →
    status = "frame " ++ Number.numeral frame ++ ", roll " ++ Number.numeral roll

theorem sameGame (game : Game) :
    SameGame (gameText game) (game.summary.toJson .camelCase) game.summary.frames
      game.summary.total game.summary.currentFrame game.summary.currentRoll
      game.summary.gameOver (statusText game) where
  frames_eq := rfl
  total_eq := rfl
  currentFrame_eq := rfl
  currentRoll_eq := rfl
  gameOver_eq := rfl
  text_eq := by rw [gameText, game.display_eq_stateLine]; rfl
  isOver_iff := by
    change game.isOver = true ↔ _
    cases hover : game.isOver with
    | true => simp [statusText, hover]
    | false =>
      have hne : statusText game ≠ "final" := by
        intro h
        have hsecond := congrArg (fun s => s.toList[1]?) h
        simp [statusText, hover] at hsecond
      simp [hne]
  status_eq := by
    intro hover
    change game.isOver = false at hover
    rw [statusText, hover]
    rfl

/-- Two outcomes report the same error behind the same log.  The wording of the error stands
in the last record of the log, the only one that the command line has made. -/
structure SameError (text json : Outcome) (threshold : Log.Level) (records : List Log.Record)
    (wording line : String) (document : Json) : Prop where
  out_text : text.out = ""
  out_json : json.out = ""
  source_ne : ∀ record ∈ records, record.source ≠ .commandLine
  errText_text : text.errText threshold =
    logText threshold (records ++ [⟨.warning, .commandLine, "Rejected input: " ++ wording⟩]) ++
      ("error: " ++ wording ++ "\n")
  errText_json : json.errText threshold =
    logText threshold (records ++ [⟨.warning, .commandLine, "Rejected input: " ++ wording⟩]) ++
      (line ++ "\n")
  parse?_eq : Json.parse? line = some document
  detail_eq : document.field? "detail" = some (.string wording)

theorem Request.source_ne_of_mem_log {request : Request} {record : Log.Record}
    (h : record ∈ request.log (Reporting.start none vars)) : record.source ≠ .commandLine := by
  rcases List.mem_append.mp h with hstart | hplay
  · exact Reporting.source_ne_of_mem_start hstart
  · obtain ⟨event, _, rfl⟩ := List.mem_map.mp hplay
    rw [event.source_record]
    decide

theorem parse?_gameReport (game : Game) :
    Json.parse? (gameReport true game) = some (game.summary.toJson .camelCase) :=
  (game.summary.isPlain_toJson .camelCase).parse?_write_append Json.Layout.isBlank_indented
    (List.all_eq_true.mp rfl)

theorem parse?_errorLine (error : RollError) :
    Json.parse? (errorLine true error) = some error.problem.toJson :=
  error.problem.parse?_compact

/-- In text and in JSON, runs with the same rolls have the same exit code.  If it is zero, the
report in JSON is read as a document that the text is spelled out of.  If it is one, nothing
is reported, and the wording of the error is the detail of the problem and stands in the
warning. -/
theorem text_agrees_with_json (rolls : List String) (vars : Reporting.Variables)
    (setting : Option String) :
    ∃ text json, run ("--" :: rolls) vars = .ok text ∧
      run ("--json" :: "--" :: rolls) vars = .ok json ∧ text.exitCode = json.exitCode ∧
      ((text.exitCode = 0 ∧ ∃ document, Json.parse? json.out = some document ∧
          ∃ frames total frame roll isOver status,
            SameGame text.out document frames total frame roll isOver status) ∨
        (text.exitCode = 1 ∧ ∃ records wording line document,
          SameError text json (Log.Level.ofSetting setting) records wording line document)) := by
  have htext : run ("--" :: rolls) vars =
      Request.outcome ⟨rolls, false⟩ (Reporting.start none vars) := by rw [run, parse_separator]
  have hjson : run ("--json" :: "--" :: rolls) vars =
      Request.outcome ⟨rolls, true⟩ (Reporting.start none vars) := by
    rw [run, parse_json_separator]
  cases hresult : (Game.play (rolls.map .text)).result with
  | ok game =>
    refine ⟨_, _, htext.trans (Request.outcome_of_played hresult),
      hjson.trans (Request.outcome_of_played hresult), rfl, .inl ⟨rfl, ?_⟩⟩
    exact ⟨_, parse?_gameReport game, _, _, _, _, _, _, sameGame game⟩
  | error error =>
    refine ⟨_, _, htext.trans (Request.outcome_of_refused hresult),
      hjson.trans (Request.outcome_of_refused hresult), rfl, .inr ⟨rfl, ?_⟩⟩
    exact ⟨_, error.message, errorLine true error, error.problem.toJson,
      { out_text := rfl
        out_json := rfl
        source_ne := fun record hrecord => Request.source_ne_of_mem_log hrecord
        errText_text := Outcome.errText_of_records_text rfl
        errText_json := Outcome.errText_of_records_text rfl
        parse?_eq := parse?_errorLine error
        detail_eq := by
          change some (Json.optionalString error.problem.detail) = _
          rw [error.detail_problem]
          rfl }⟩

end CommandLine

end Pinfall
