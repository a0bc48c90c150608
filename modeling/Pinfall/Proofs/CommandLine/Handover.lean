import Pinfall.CommandLine.Run
import Pinfall.Proofs.CommandLine.Arguments

/-!
# Rolls on the command line

Any list of texts can be handed over as the rolls of a game: behind `--` none of them is lost,
moved or taken for a switch.  When no text begins with a dash, the separator makes no
difference, and the switch for JSON means the same in front of the texts and behind them.
-/

namespace Pinfall.CommandLine

variable {arguments others : List String} {request : Request}

theorem run_of_parse (h : parse arguments = .ok request) (vars : Reporting.Variables) :
    run arguments vars = request.outcome (Reporting.start none vars) := by
  rw [run, h]

/-- Arguments that ask for the same are run in the same way. -/
theorem run_congr (h : parse arguments = parse others) (vars : Reporting.Variables) :
    run arguments vars = run others vars := by
  rw [run, run, h]

/-- Behind the separator exactly the given texts are asked for as rolls and played, for text
or for JSON.  Texts that do not begin with a dash are run in the same way without the
separator, and with the switch for JSON on either side. -/
theorem rolls_handedOver :
    (∀ (rolls : List String) (vars : Reporting.Variables),
      (parse ("--" :: rolls) = .ok ⟨rolls, false⟩ ∧
        run ("--" :: rolls) vars =
          Request.outcome ⟨rolls, false⟩ (Reporting.start none vars)) ∧
      (parse ("--json" :: "--" :: rolls) = .ok ⟨rolls, true⟩ ∧
        run ("--json" :: "--" :: rolls) vars =
          Request.outcome ⟨rolls, true⟩ (Reporting.start none vars))) ∧
    ∀ rolls : List String, (∀ text ∈ rolls, IsBare text) → ∀ vars : Reporting.Variables,
      run rolls vars = run ("--" :: rolls) vars ∧
      run ("--json" :: rolls) vars = run ("--json" :: "--" :: rolls) vars ∧
      run (rolls ++ ["--json"]) vars = run ("--json" :: "--" :: rolls) vars := by
  constructor
  · intro rolls vars
    have htext := parse_separator rolls
    have hjson := parse_json_separator rolls
    exact ⟨⟨htext, run_of_parse htext vars⟩, hjson, run_of_parse hjson vars⟩
  · intro rolls hbare vars
    have htext := parse_separator rolls
    have hjson := parse_json_separator rolls
    refine ⟨run_congr ?_ vars, run_congr ?_ vars, run_congr ?_ vars⟩
    · rw [parse_of_isBare hbare, htext]
    · rw [parse_json_of_isBare hbare, hjson]
    · rw [parse_append_json_of_isBare hbare, hjson]

/-- Blanks and digits in front of a dash keep it from making a switch. -/
theorem run_of_innerDashes :
    (∀ text ∈ ["7", "", " --json", "3--"], IsBare text) ∧
      ∀ vars, run ["7", "", " --json", "3--"] vars = run ["--", "7", "", " --json", "3--"] vars := by
  have hbare : ∀ text ∈ ["7", "", " --json", "3--"], IsBare text := by decide
  exact ⟨hbare, fun vars => (rolls_handedOver.2 _ hbare vars).1⟩

end Pinfall.CommandLine
