import CounterLang.CommandLine.Invocation
import CounterLang.Proofs.Names
import CounterLang.Proofs.Records
import CounterLang.Report

/-!
# What the command shows

The command shows trace and output as they come, while a report keeps them apart. Both tell the same
run: the output of a statement stands right behind its record, and the diagnostic of a run that ends
early is the problem of its report.

## Main statements

* `Program.Ends.trace_eq_nil`: without a trace there is no line of it.
* `CommandLine.Request.parse_verbose`: the option for debugging notes changes nothing else.
* `CommandLine.invoke?_eq_report`: what the command shows and returns is what the report says.
-/

namespace CounterLang

/-! ## Runs without a trace -/

namespace Machine

variable {o : Options} {m next last : Machine} {fault : Fault} {e : Ending}

theorem trace_of_running (htrace : o.trace = false) (hs : m.step o = .running next) :
    next.trace = m.trace := by
  cases transition_of_step hs with
  | leave => exact trace_emit.trans (List.append_nil _)
  | skip | again => rfl
  | perform hcode htokens hbudget hread hperform =>
    rw [hperform.trace_eq, trace_arrive, htrace]
    exact List.append_nil _

theorem trace_of_failed (htrace : o.trace = false) (hs : m.step o = .failed fault last) :
    last.trace = m.trace := by
  cases transition_of_step hs with
  | lose | exhaust | cut => rfl
  | reject | fault =>
    rw [trace_arrive, htrace]
    exact List.append_nil _

theorem Ends.trace_eq (htrace : o.trace = false) (he : m.Ends o e) :
    e.machine.trace = m.trace := by
  induction he with
  | finished => rfl
  | failed hs => exact trace_of_failed htrace hs
  | running hs _ ih => exact ih.trans (trace_of_running htrace hs)

theorem display_eq_output (h : m.trace = []) : m.display = m.output := by
  rw [trace, List.filterMap_eq_nil_iff] at h
  apply List.filterMap_congr
  intro event hevent
  rw [Event.displayLine?, h event hevent]
  rfl

end Machine

/-- Without a trace there is no line of it. -/
theorem Program.Ends.trace_eq_nil {o : Options} {program : Program} {e : Ending}
    (htrace : o.trace = false) (h : program.Ends o e) : e.machine.trace = [] := by
  obtain ⟨e₀, he₀, rfl⟩ := ends_iff.1 h
  have hclose : e₀.close o = e₀ := by simp [Ending.close, htrace]
  rw [hclose, he₀.trace_eq htrace]
  rfl

/-- The closing lines of the trace: a run that came to the end of its program shows its final
store. -/
def Report.closing (r : Report) : List Text :=
  if r.problem.isNone then ["Finishing status:", r.store.render] else []

namespace CommandLine

/-! ## Arguments -/

namespace Request

/-- The request with debugging notes. -/
def loud (request : Request) : Request := { request with verbose := true }

theorem setBudget_loud (request : Request) (value : Text) :
    request.loud.setBudget value = (request.setBudget value).map loud := by
  simp only [setBudget]
  split
  · rfl
  · split <;> rfl

theorem set_loud (request : Request) (flag : Flag) :
    request.loud.set flag = (request.set flag).map loud := by
  cases flag <;> rfl

theorem foldlM_set_loud (flags : List Flag) (request : Request) :
    flags.foldlM set request.loud = (flags.foldlM set request).map loud := by
  induction flags generalizing request with
  | nil => rfl
  | cons flag flags ih =>
    rw [List.foldlM_cons, List.foldlM_cons, set_loud]
    cases request.set flag with
    | error stop => rfl
    | ok next => exact ih next

theorem map_loud_bind {asked : Except Stop Request}
    {next : Request → Except Stop (Request × List Text)}
    (h : ∀ request, next request.loud = (next request).map (Prod.map loud id)) :
    asked.map loud >>= next = (asked >>= next).map (Prod.map loud id) := by
  cases asked with
  | error stop => rfl
  | ok request => exact h request

/-- The option for debugging notes makes no difference to how further arguments are taken. -/
theorem take_loud (arguments : List Argument) (request : Request) (positional : Bool)
    (extras : List Text) : request.loud.take positional extras arguments =
      (request.take positional extras arguments).map (Prod.map loud id) := by
  fun_induction take request positional extras arguments with
  -- The first two take the path, with the mark behind it or without.
  | case6 request positional extras text hfirst =>
    simp only [take, hfirst]
    rfl
  | case7 request positional extras text hfirst _ rest hmark ih =>
    rw [← ih]
    simp only [take, hfirst, Bool.false_eq_true, if_false]
    rfl
  -- In the others an option has its value in the next argument, has none, has it attached, or has
  -- further options attached.
  | case9 request positional extras flag long htakes value rest ih =>
    simp only [take, htakes, if_true, setBudget_loud]
    exact map_loud_bind ih
  | case11 request positional extras flag long rest htakes ih =>
    rw [take.eq_def]
    simp only [htakes, set_loud, Bool.false_eq_true, if_false]
    exact map_loud_bind ih
  | case12 request positional extras flag long value rest htakes ih =>
    simp only [take, htakes, if_true, setBudget_loud]
    exact map_loud_bind ih
  | case14 request positional extras flag long value rest htakes hattached ih =>
    simp only [take, htakes, hattached]
    cases (cluster flag value).mapError Stop.usage with
    | error stop => rfl
    | ok flags =>
      change (flags.foldlM set request.loud >>= fun next => next.take positional extras rest) = _
      rw [foldlM_set_loud]
      exact map_loud_bind ih
  | _ => simp_all [take, loud, Except.map]

/-- The option for debugging notes, given first, changes nothing else. -/
theorem parse_verbose (arguments : List Text) :
    parse ("-v" :: arguments) = (parse arguments).map loud := by
  have hclassify : Argument.classify "-v" = .ok (.option .verbose false none) := rfl
  simp only [parse, Argument.classifyAll, hclassify]
  cases Argument.classifyAll arguments with
  | error error => rfl
  | ok classified =>
    have hfirst : take {} false [] (.option .verbose false none :: classified) =
        (take {} false [] classified).map (Prod.map loud id) := by
      rw [← take_loud, take.eq_def]
      rfl
    change (take {} false [] (.option .verbose false none :: classified) >>= _) = _
    rw [hfirst]
    change _ = Except.map loud (take {} false [] classified >>= _)
    cases take {} false [] classified with
    | error stop => rfl
    | ok taken =>
      obtain ⟨request, extras⟩ := taken
      cases extras <;> rfl

end Request

/-! ## Invocations -/

section Invocation

variable {find : Text → Lookup} {path : Text} {bytes : List UInt8} {chars : List Char}
  {request : Request} {budget : Option Int} {program : Program}

theorem load_of_file (hpath : path ≠ []) (hfile : find (Path.normalize path) = .file bytes)
    (hchars : Text.Utf8.decode bytes = .ok chars) : Loading.load find (some path) =
      .ok (.ofSource (.ofChars (Text.unifyNewlines chars))) := by
  rw [Loading.load, if_neg (by simpa using hpath)]
  simp only [hfile, Loading.decode, hchars]
  rfl

theorem prepare_of_load (hload : Loading.load find request.program = .ok program)
    (hbudget : request.budget = budget.elim .unlimited .steps)
    (hsteps : ∀ steps ∈ budget, 0 ≤ steps) :
    request.prepare find = .run program (.ofBudget budget request.trace) request.verbose := by
  have hlimit : request.budget.limit = .ok (budget.map .ofInt) := by
    cases budget with
    | none =>
      rw [hbudget]
      rfl
    | some steps =>
      rw [hbudget, Option.elim_some, Budget.limit, if_neg (Int.not_lt.2 (hsteps steps rfl))]
      rfl
  rw [Request.prepare, hlimit, hload]
  rfl

theorem invoke?_of_prepare {arguments : List Text} {options : Options} {verbose : Bool}
    {fuel : Nat} {e : Ending} (hrequest : Request.parse arguments = .ok request)
    (hprepare : request.prepare find = .run program options verbose)
    (hrun : program.run? fuel options = some e) :
    invoke? fuel find arguments = some (conclude verbose e) := by
  rw [invoke?, prepare, hrequest]
  simp only [hprepare, hrun]
  rfl

end Invocation

/-- The line for a run that ends early has no line break of its own: its only blanks are spaces. -/
theorem eq_space_of_mem_summary {budget : Option Int} {trace : Bool} {program : Program}
    {e : Ending} {fault : Fault} (he : program.Ends (.ofBudget budget trace) e)
    (hfault : e.fault = some fault) {point : CodePoint} (hpoint : point ∈ fault.diagnostic.summary)
    (hblank : point.isBlank) : point = ' ' := by
  obtain ⟨plain, hplain, hmessage⟩ := he.exists_message hfault
  have hlabel : (fault.diagnostic.kind.label ++ ": ").IsPlain := by
    generalize fault.diagnostic.kind = kind
    cases kind <;> decide
  rw [Diagnostic.summary, hmessage, ← List.append_assoc] at hpoint
  rcases List.mem_append.1 hpoint with hpoint | hpoint
  · exact (hlabel.append hplain).eq_space hpoint hblank
  · cases htoken : fault.token? with
    | none =>
      rw [htoken] at hpoint
      cases hpoint
    | some token =>
      rw [htoken] at hpoint
      have := (he.mentions_of_fault hfault htoken).isBlank_eq_false point hpoint
      simp [hblank] at this

/-- What an invocation leaves behind is what a report says. The notes are the lines that the option
for debugging notes adds. -/
structure Invocation.Tells (i : Invocation) (r : Report) (trace : Bool) (notes : List Text) :
    Prop where
  completed : r.problem = none → i.exit = .ok 0 ∧ i.stderr = notes
  /-- One line tells the problem, and has no blanks but spaces in it. -/
  failed : ∀ problem ∈ r.problem, i.exit = .ok 1 ∧ ∃ kind : Diagnostic.Kind,
    kind.code = problem.code ∧
    i.stderr = notes ++ [kind.label ++ ": " ++ problem.message] ∧
    ∀ point ∈ kind.label ++ ": " ++ problem.message, point.isBlank → point = ' '
  untraced : trace = false → i.stdout = r.output
  /-- The value that a statement prints is right behind the record of the statement. -/
  traced : trace = true → ∃ (performed : List Record) (rejected : Option Record),
    r.trace = performed.flatMap Record.lines ++ rejected.toList.flatMap Record.lines ++
      r.closing ∧
    r.output = performed.flatMap Record.printed ∧
    (∀ record ∈ performed, record.isPrint → record.printed ≠ []) ∧
    i.stdout = performed.flatMap (fun record => record.lines ++ record.printed) ++
      rejected.toList.flatMap Record.lines ++ r.closing

theorem tells_conclude {budget : Option Int} {trace : Bool} {program : Program} {e : Ending}
    (he : program.Ends (.ofBudget budget trace) e) (verbose : Bool) :
    (conclude verbose e).Tells (.ofEnding e) trace
      (if verbose then e.machine.notes.map noteLine else []) where
  completed hproblem := by
    have hfault : e.fault = none := by
      simpa [Report.ofEnding, Ending.diagnostic?] using hproblem
    simp [conclude, Ending.diagnostic?, hfault]
  failed problem hproblem := by
    obtain ⟨d, hd, rfl⟩ := Option.map_eq_some_iff.1 hproblem
    obtain ⟨fault, hfault, rfl⟩ := Option.map_eq_some_iff.1 hd
    have hstderr : (conclude verbose e).stderr =
        (if verbose then e.machine.notes.map noteLine else []) ++ [fault.diagnostic.summary] := by
      simp [conclude, hd]
    exact ⟨by simp [conclude, hfault], fault.diagnostic.kind, rfl, hstderr,
      fun point => eq_space_of_mem_summary he hfault⟩
  untraced htrace := Machine.display_eq_output (he.trace_eq_nil htrace)
  traced htrace := by
    obtain ⟨performed, rejected, h⟩ := he.exists_recorded htrace
    have hclosing : (Report.ofEnding e).closing = e.closing := by
      simp [Report.closing, Ending.closing, Report.ofEnding, Ending.diagnostic?]
    rw [hclosing]
    refine ⟨performed, rejected, h.trace, h.output, ?_, h.display⟩
    intro record hrecord hprint
    obtain ⟨value, hvalue⟩ := Option.isSome_iff_exists.1 (h.value record hrecord hprint)
    simp [Record.printed, hprint, hvalue]

/-- What the command shows and returns is what the report of the run says, for every file that holds
the text of a program, every budget and every run that ends. Debugging notes, asked for in whatever
way, change neither the exit status nor what is shown. -/
theorem invoke?_eq_report (fuel : Nat) (find : Text → Lookup) (arguments : List Text)
    (request : Request) (path : Text) (bytes : List UInt8) (chars : List Char)
    (budget : Option Int) (e : Ending) (hrequest : Request.parse arguments = .ok request)
    (hprogram : request.program = some path) (hpath : path ≠ [])
    (hfile : find (Path.normalize path) = .file bytes)
    (hchars : Text.Utf8.decode bytes = .ok chars)
    (hbudget : request.budget = budget.elim .unlimited .steps)
    (hsteps : ∀ steps ∈ budget, 0 ≤ steps)
    (hrun : (Program.ofSource (.ofChars (Text.unifyNewlines chars))).run? fuel
      (.ofBudget budget request.trace) = some e) :
    ∃ invocation, invoke? fuel find arguments = some invocation ∧
      invocation.Tells (.ofEnding e) request.trace
        (if request.verbose then e.machine.notes.map noteLine else []) ∧
      Request.parse ("-v" :: arguments) = .ok { request with verbose := true } ∧
      ∀ more, Request.parse more = .ok { request with verbose := true } →
        ∃ loud, invoke? fuel find more = some loud ∧ loud.stdout = invocation.stdout ∧
          loud.exit = invocation.exit := by
  have hload := load_of_file hpath hfile hchars
  rw [← hprogram] at hload
  refine ⟨conclude request.verbose e, ?_, tells_conclude ⟨fuel, hrun⟩ request.verbose, ?_, ?_⟩
  · exact invoke?_of_prepare hrequest (prepare_of_load hload hbudget hsteps) hrun
  · rw [Request.parse_verbose, hrequest]
    rfl
  · intro more hmore
    exact ⟨_, invoke?_of_prepare hmore (prepare_of_load hload hbudget hsteps) hrun, rfl, rfl⟩

/-- Prints two variables, the second of which is unknown. Two of the lines end with a carriage
return. -/
def sample : List Char := "clear x;\r\nincr x; print x;\r\nprint y".toList

def sampleTree : FileTree where
  files := [(["sample.bb"], sample.map fun c => UInt8.ofNat c.toNat)]

theorem eq_ok_of_toOption {ε α : Type} {result : Except ε α} {a : α}
    (h : result.toOption = some a) : result = .ok a := by
  cases result with
  | error => cases h
  | ok =>
    cases h
    rfl

/-- The command fails as the report of the run does, and shows as much with debugging notes. -/
theorem invoke?_eq_report_sample :
    ∃ fuel e invocation loud,
      (Program.ofSource (.ofChars (Text.unifyNewlines sample))).run? fuel
        (.ofBudget (some 9) true) = some e ∧
      e.fault = some (.undefinedVariable 4 "y") ∧ e.machine.output = (["1"] : List Text) ∧
      invoke? fuel sampleTree.find ["--max-steps", "9", "./sample.bb"] = some invocation ∧
      invocation.Tells (.ofEnding e) true [] ∧ invocation.exit = .ok 1 ∧
      invoke? fuel sampleTree.find ["-v", "--max-steps", "9", "./sample.bb"] = some loud ∧
      loud.stdout = invocation.stdout ∧ loud.exit = invocation.exit := by
  have hrun : ((Program.ofSource (.ofChars (Text.unifyNewlines sample))).runFor? 20
      (.ofBudget (some 9) true)).map (fun e => (e.fault, e.machine.output)) =
        some (some (Fault.undefinedVariable 4 "y"), (["1"] : List Text)) := by
    decide +kernel
  obtain ⟨e, he, hvalues⟩ := Option.map_eq_some_iff.1 hrun
  simp only [Prod.mk.injEq] at hvalues
  obtain ⟨hfault, houtput⟩ := hvalues
  obtain ⟨fuel, he⟩ := Program.ends_of_runFor? he
  have hrequest : (Request.parse ["--max-steps", "9", "./sample.bb"]).toOption =
      some { program := some "./sample.bb", budget := .steps 9 } := by
    decide +kernel
  have hchars : (Text.Utf8.decode (sample.map fun c => UInt8.ofNat c.toNat)).toOption =
      some sample := by
    decide +kernel
  have hfile : sampleTree.find (Path.normalize "./sample.bb") =
      .file (sample.map fun c => UInt8.ofNat c.toNat) := by
    decide +kernel
  obtain ⟨invocation, hinvoke, htells, hparse, hloud⟩ :=
    invoke?_eq_report fuel sampleTree.find ["--max-steps", "9", "./sample.bb"]
      { program := some "./sample.bb", budget := .steps 9 } "./sample.bb" _ sample (some 9) e
      (eq_ok_of_toOption hrequest) rfl (by decide) hfile (eq_ok_of_toOption hchars)
      rfl (by simp) he
  obtain ⟨loud, hinvoke', hstdout, hexit⟩ := hloud _ hparse
  refine ⟨fuel, e, invocation, loud, he, hfault, houtput, hinvoke, htells, ?_, hinvoke', hstdout,
    hexit⟩
  exact (htells.failed _ (by rw [Report.ofEnding, Ending.diagnostic?, hfault]; rfl)).1

end CommandLine

end CounterLang
