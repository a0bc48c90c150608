import Pinfall.Proofs.CommandLine.Reports

/-!
# The problem of a fault

A fault whose title and code are texts, and whose detail is a text or missing, is reported as a
problem in JSON.  The document is on a single line, whatever characters the texts hold, and all
of them can be read back from it.  A missing detail and an empty one have the same wording, but
they do not have the same document.
-/

namespace Pinfall

open Text

/-- Null stands for a missing detail, and for no other. -/
theorem Problem.field?_detail_eq_null_iff (problem : Problem) :
    problem.toJson.field? "detail" = some .null ↔ problem.detail = none := by
  have hdetail : problem.toJson.field? "detail" = some (Json.optionalString problem.detail) := rfl
  rw [hdetail, Option.some.injEq]
  cases problem.detail <;> simp [Json.optionalString]

namespace CommandLine

/-- A fault with texts has a problem.  By the grammar of JSON its document is read as an object
with the title, the detail and the code of the fault, in which null stands for a missing detail
and for nothing else, and which is accepted as the same problem again.  No control is left in
the document, so that it is one line when it is written as the report of the fault. -/
theorem problem_is_told (kind : FaultKind) (title code : String) (detail : Option String) :
    let fault : Fault := ⟨kind, .text title, .optionalText detail, .text code⟩
    ∃ problem document, fault.problem = .accepted problem ∧
      Json.parse? problem.toJson.compact = some document ∧
      document = .object [("title", .string title), ("detail", Json.optionalString detail),
        ("code", .string code)] ∧
      (document.field? "detail" = some .null ↔ detail = none) ∧
      Problem.check (.ofJson document) = .accepted ⟨title, detail, code⟩ ∧
      HasNoControl problem.toJson.compact ∧
      ∃ warning report, rejection true fault = .ok [.record warning, .text report] ∧
        linesOf report = [problem.toJson.compact] ∧ lineFeeds report = 1 := by
  intro fault
  let problem : Problem := ⟨title, detail, code⟩
  have hproblem : fault.problem = .accepted problem := Fault.problem_of_texts kind title code detail
  have hcontrol := problem.hasNoControl_compact
  refine ⟨problem, problem.toJson, hproblem, problem.parse?_compact, rfl,
    problem.field?_detail_eq_null_iff, Problem.check_recovers problem, hcontrol, _, _,
    rejection_of_problem hproblem, ?_, ?_⟩
  · have hlines : linesOf (ofLines [problem.toJson.compact]) = [problem.toJson.compact] := by
      apply linesOf_ofLines
      intro line hline
      rw [List.mem_singleton.mp hline]
      exact hcontrol.lineFeed_notMem
    simpa [ofLines] using hlines
  · rw [lineFeeds_append, hcontrol.lineFeeds_eq_zero]
    decide

/-- An empty detail is no missing one, and what looks like an escape is told as it is. -/
example : (⟨"\\u0041\n", some "", "\x22\x7f"⟩ : Problem).toJson.compact =
    "\x7b\"title\":\"\\\\u0041\\n\",\"detail\":\"\",\"code\":\"\\\"\x7f\"\x7d" := by
  decide

end CommandLine

end Pinfall
