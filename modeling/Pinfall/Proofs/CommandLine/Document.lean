import Pinfall.Proofs.CommandLine.Agreement
import Pinfall.Proofs.CommandLine.Handover
import Pinfall.Proofs.Game.Replay

/-!
# The document of a game

With the switch for JSON, a game is printed as one document and a line feed.  The document is
read back as the summary of the game, under the names of its fields: ten lists of rolls, which
hold just what the arguments stand for, and ten scores and totals.
-/

namespace Pinfall

open Scoring

/-- A summary records the given values and nothing else: together its lists of rolls hold
what the values stand for, in their order, and those behind the current frame are empty. -/
structure Summary.Records (summary : Summary) (vs : List Value) : Prop where
  length_frames : summary.frames.length = 10
  length_scores : summary.scores.length = 10
  length_cumulative : summary.cumulative.length = 10
  map_check_eq : vs.map (Pins.check fullRack) = summary.frames.flatten.map .ok
  frames_ahead : ∀ i : Fin 10, summary.currentFrame ≤ (i : Nat) →
    summary.frames[(i : Nat)]? = some []

namespace Game

variable {game : Game} {vs : List Value}

theorem map_check_of_play (h : (play vs).result = .ok game) :
    vs.map (Pins.check fullRack) = (rollsOf game.frames).map .ok := by
  rw [play, result_playOn] at h
  have hcheck := map_check_taken vs
  rw [taken_of_rollEach h, afterRolls_of_rollEach h] at hcheck
  exact hcheck

theorem isUnderWay_of_play (h : (play vs).result = .ok game) : game.IsUnderWay := by
  rw [play, result_playOn] at h
  rw [← afterRolls_of_rollEach h]
  exact isUnderWay_afterRolls vs

/-- Behind the current frame nothing has been rolled. -/
theorem IsUnderWay.frames_ahead (h : game.IsUnderWay) {i : Fin 10}
    (hi : game.currentFrame ≤ (i : Nat)) : game.summary.frames[(i : Nat)]? = some [] := by
  obtain ⟨ended, current, hstands⟩ := h
  have hahead : ended.length < (i : Nat) := by
    rw [currentFrame, hstands.frameCursor_eq] at hi
    omega
  have hempty := hstands.rolls_frameAt_of_gt hahead
  rw [summary, List.getElem?_map, getElem?_frames, Option.map_some, hempty]

theorem records_of_play (h : (play vs).result = .ok game) : game.summary.Records vs where
  length_frames := by rw [summary, List.length_map, game.length_frames]
  length_scores := game.length_frameScores
  length_cumulative := game.length_cumulative
  map_check_eq := map_check_of_play h
  frames_ahead := fun _ hi => (isUnderWay_of_play h).frames_ahead hi

end Game

namespace CommandLine

/-- When the texts of a list are rolls that a game takes, they can be handed over with the
switch for JSON, and however they are, the program prints one document and a line feed.  The
document is read back as the summary of that game, and passes the check of a summary. -/
theorem document_tells_summary {rolls : List String} {game : Game}
    (hplay : (Game.play (rolls.map .text)).result = .ok game) :
    parse ("--json" :: "--" :: rolls) = .ok ⟨rolls, true⟩ ∧
      game.summary.Records (rolls.map .text) ∧
      ∀ (arguments : List String) (vars : Reporting.Variables),
        parse arguments = .ok ⟨rolls, true⟩ →
        ∃ outcome text document, run arguments vars = .ok outcome ∧ outcome.exitCode = 0 ∧
          outcome.out = text ++ "\n" ∧
          Json.parse? text = some document ∧ Json.parse? outcome.out = some document ∧
          document = .object
            [("frames", .array (game.summary.frames.map fun rolls =>
                .array (rolls.map .integer))),
              ("scores", .array (game.summary.scores.map .integer)),
              ("cumulative", .array (game.summary.cumulative.map .integer)),
              ("total", .integer game.summary.total),
              ("currentFrame", .integer game.summary.currentFrame),
              ("currentRoll", .integer game.summary.currentRoll),
              ("gameOver", .bool game.summary.gameOver)] ∧
          Summary.check (.ofJson document) = .accepted game.summary := by
  refine ⟨parse_json_separator rolls, Game.records_of_play hplay, ?_⟩
  intro arguments vars hparse
  have hrun := (run_of_parse hparse vars).trans (Request.outcome_of_played hplay)
  have hdocument : Json.parse? (game.summary.toJson .camelCase).indented =
      some (game.summary.toJson .camelCase) :=
    (game.summary.isPlain_toJson .camelCase).parse?_write Json.Layout.isBlank_indented
  exact ⟨_, _, _, hrun, rfl, rfl, hdocument, parse?_gameReport game, rfl,
    (Game.isLegal_of_play hplay).check_summary .camelCase⟩

/-- After a strike and a spare the document holds two lists of rolls and eight empty ones. -/
theorem document_of_strike_spare :
    let game := Game.new.afterRolls [.int 10, .int 3, .int 7]
    (Game.play (["10", "3", "7"].map .text)).result = .ok game ∧
      parse ["10", "3", "7", "--json"] = .ok ⟨["10", "3", "7"], true⟩ ∧
      ∀ vars, ∃ outcome document, run ["10", "3", "7", "--json"] vars = .ok outcome ∧
        Json.parse? outcome.out = some document ∧
        document.field? "frames" = some (.array (.array [.integer 10] ::
          .array [.integer 3, .integer 7] :: List.replicate 8 (.array []))) := by
  intro game
  have hplay : (Game.play (["10", "3", "7"].map .text)).result = .ok game := rfl
  have hbare : ∀ text ∈ ["10", "3", "7"], IsBare text := by decide
  have hparse : parse ["10", "3", "7", "--json"] = .ok ⟨["10", "3", "7"], true⟩ :=
    parse_append_json_of_isBare hbare
  refine ⟨hplay, hparse, fun vars => ?_⟩
  obtain ⟨-, -, hprinted⟩ := document_tells_summary hplay
  obtain ⟨outcome, -, document, hrun, -, -, -, hread, rfl, -⟩ := hprinted _ vars hparse
  exact ⟨outcome, _, hrun, hread, rfl⟩

end CommandLine

end Pinfall
