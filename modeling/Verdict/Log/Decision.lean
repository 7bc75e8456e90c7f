/-
  Verdict.Log.Decision — one log line for each evaluation.

  The line names the blueprint, or says that it has no name, and the result; its fields
  add the code and the number of gates.
-/

import Verdict.Blueprint
import Verdict.Outcome
import Verdict.Report
import Verdict.Value.Coercion

namespace Verdict.Log

def decisionLogger : String := "trilean.decisions"

/-- Logs a report, with the name of the blueprint where the report has none. -/
def decision (report : Report) (blueprint : Option Blueprint) : Outcome Unit := do
  let known := (blueprint.map Blueprint.name).getD .null
  let name ← Value.orElse (report.metadata.field "blueprint") known
  let shown ← Value.orElse name (.str "<anonymous>")
  let message := "Decision " ++ shown.display ++ " evaluated to " ++ report.result.word
  Outcome.emit (.logged ⟨decisionLogger, .info, message, [
    ("blueprint", name),
    ("result", .str report.result.word),
    ("encoded", .str report.encoded),
    ("total_gates", report.metadata.field "total_gates")], none⟩)

end Verdict.Log
