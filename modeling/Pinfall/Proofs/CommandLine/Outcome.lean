import Pinfall.CommandLine.Run
import Pinfall.Proofs.Game.Ruling
import Pinfall.Proofs.Game.Summary

/-!
# Every run has an outcome

Three things could end a run without an outcome: a cursor without a frame, a summary that
its own check refuses, and a problem that its own check refuses.  None of them happens.
The rolls of a command line lead to a game that is under way, which is legal, so that its
summary is in order; and what a roll is refused for is a fault with plain texts.
-/

namespace Pinfall

namespace Game

variable {game : Game} {error : RollError}

/-- Rolling up to the first refusal meets only faults. -/
theorem IsUnderWay.exists_fault_of_rollEach {vs : List Value} (h : game.IsUnderWay)
    (hrolls : game.rollEach vs = .error error) : ∃ fault, error.fault? = some fault := by
  induction vs generalizing game with
  | nil => contradiction
  | cons v vs ih =>
    cases hroll : game.roll v with
    | error cause =>
      rw [rollEach_cons_of_error hroll] at hrolls
      obtain rfl := Except.error.inj hrolls
      exact h.exists_fault_of_roll hroll
    | ok result =>
      rw [rollEach_cons_of_ok hroll] at hrolls
      exact ih (h.of_roll hroll) hrolls

theorem exists_fault_of_play {vs : List Value} (h : (play vs).result = .error error) :
    ∃ fault, error.fault? = some fault := by
  rw [play, result_playOn] at h
  exact isUnderWay_new.exists_fault_of_rollEach h

theorem isLegal_of_play {vs : List Value} (h : (play vs).result = .ok game) : game.IsLegal := by
  rw [play, result_playOn] at h
  rw [← afterRolls_of_rollEach h]
  exact isLegal_afterRolls vs

end Game

namespace Fault

/-- A fault with texts has a problem, with a detail or without. -/
theorem problem_of_texts (kind : FaultKind) (title code : String) (detail : Option String) :
    (⟨kind, .text title, .optionalText detail, .text code⟩ : Fault).problem =
      .accepted ⟨title, detail, code⟩ := by
  have hcheck := Problem.check_recovers ⟨title, detail, code⟩
  cases detail with
  | none => exact hcheck
  | some detail => exact hcheck

theorem problem_invalidRoll (detail : String) :
    (invalidRoll (.text detail)).problem =
      .accepted ⟨"Invalid roll", some detail, "invalid_roll"⟩ :=
  problem_of_texts _ _ _ (some detail)

theorem problem_gameOver :
    gameOver.problem = .accepted ⟨"Game over", some RollError.gameOver.message, "game_over"⟩ :=
  problem_of_texts _ _ _ (some RollError.gameOver.message)

end Fault

/-- The fault that a roll meets can be reported. -/
theorem RollError.exists_problem {error : RollError} {fault : Fault}
    (h : error.fault? = some fault) : ∃ problem, fault.problem = .accepted problem := by
  cases error with
  | noSuchFrame | oversizedIndex => contradiction
  | gameOver =>
    obtain rfl := Option.some.inj h
    exact ⟨_, Fault.problem_gameOver⟩
  | badPins | frameComplete | tooManyPins =>
    obtain rfl := Option.some.inj h
    exact ⟨_, Fault.problem_invalidRoll _⟩

namespace CommandLine

variable {game : Game} {fault : Fault}

theorem exists_report (h : game.IsLegal) (json : Bool) : ∃ text, report json game = .ok text := by
  cases json with
  | false => exact ⟨_, rfl⟩
  | true =>
    have hcheck := h.check_summary .camelCase
    simp only [report, gameJson, hcheck]
    exact ⟨_, rfl⟩

theorem exists_rejection {problem : Problem} (h : fault.problem = .accepted problem)
    (json : Bool) : ∃ emissions, rejection json fault = .ok emissions := by
  cases json with
  | false => exact ⟨_, rfl⟩
  | true =>
    simp only [rejection, faultJson, h]
    exact ⟨_, rfl⟩

theorem Request.exists_outcome (request : Request) (started : Reporting.Started) :
    ∃ outcome, request.outcome started = .ok outcome := by
  cases hplay : (Game.play (request.rolls.map .text)).result with
  | ok game =>
    obtain ⟨text, htext⟩ := exists_report (Game.isLegal_of_play hplay) request.json
    simp only [Request.outcome, hplay, htext]
    exact ⟨_, rfl⟩
  | error error =>
    obtain ⟨fault, hfault⟩ := Game.exists_fault_of_play hplay
    obtain ⟨problem, hproblem⟩ := RollError.exists_problem hfault
    obtain ⟨emissions, hemissions⟩ := exists_rejection hproblem request.json
    simp only [Request.outcome, hplay, hfault, hemissions]
    exact ⟨_, rfl⟩

/-- Every run of the program has an outcome. -/
theorem exists_run_outcome (arguments : List String) (vars : Reporting.Variables) :
    ∃ outcome, run arguments vars = .ok outcome := by
  cases hparse : parse arguments with
  | error stop =>
    simp only [run, hparse]
    exact ⟨_, rfl⟩
  | ok request =>
    simp only [run, hparse]
    exact request.exists_outcome _

/-- However rolls are put into the frames of a game, its summary passes its own check
unchanged.  The cumulative scores in it are the totals of the scores up to each frame, they
never fall, and the last of them is the total and the score of the game.  So the check of
a summary never stops the program, and neither does anything else. -/
theorem summary_accepted :
    (∀ moves : List Game.Move, (∀ move ∈ moves, move.isChecked = true) →
        let game := Game.new.after moves
        let summary := game.summary
        Summary.check (.ofJson (summary.toJson .camelCase)) = .accepted summary ∧
          (summary.cumulative.length = 10 ∧ ∀ k < 10,
            summary.cumulative[k]? = some (Number.total (summary.scores.take (k + 1)))) ∧
          summary.cumulative.Pairwise (· ≤ ·) ∧
          summary.cumulative.getLast? = some summary.total ∧ summary.total = game.score) ∧
      ∀ (arguments : List String) (vars : Reporting.Variables),
        ∃ outcome, run arguments vars = .ok outcome := by
  refine ⟨?_, exists_run_outcome⟩
  intro moves hchecked game summary
  have hlegal : game.IsLegal := Game.isLegal_after hchecked
  exact ⟨hlegal.check_summary .camelCase,
    ⟨game.length_cumulative, fun k hk => game.getElem?_cumulative hk⟩,
    hlegal.pairwise_cumulative, game.getLast?_cumulative, rfl⟩

theorem cumulative_after_strikesBackwards :
    (∀ move ∈ Game.strikesBackwards, move.isChecked = true) ∧
      (Game.new.after Game.strikesBackwards).summary.cumulative.getLast? = some 300 := by
  have hchecked := Game.isChecked_of_mem_strikesBackwards
  obtain ⟨-, -, -, hlast, -⟩ := summary_accepted.1 Game.strikesBackwards hchecked
  exact ⟨hchecked, hlast.trans (by decide)⟩

end CommandLine

end Pinfall
