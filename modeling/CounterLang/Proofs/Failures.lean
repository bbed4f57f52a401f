import CounterLang.Proofs.Budget
import CounterLang.Proofs.Nesting

/-!
# Statements with a fault

A statement with a fault is counted and shown, and that is all that becomes of it. The one fault
that no statement would have, a guard that is gone when the machine comes back to its header, never
happens, because a store keeps the names it has. So the run that stops right before the statement,
for want of budget, has the same store and the same output.

## Main definitions

* `Ending.Rejected`: the run ended at a statement with a fault.
* `Machine.Guarded`: the guards of the open loops are known.

## Main statements

* `Machine.Guarded.of_failed`: a fault is that of a statement which has only been counted and shown.
* `Machine.Reaches.of_steps_le`: a run comes to a machine under any budget that allows the steps
  counted so far.
* `Program.ends_before_fault`: the run with one step less ends right before the fault.
-/

namespace CounterLang

/-- The run ended at a statement with a fault. -/
def Ending.Rejected (e : Ending) : Prop := ∃ fault ∈ e.fault, fault.kind ≠ .stepLimit

instance (e : Ending) : Decidable e.Rejected :=
  inferInstanceAs (Decidable (∃ fault ∈ e.fault, fault.kind ≠ .stepLimit))

theorem Ending.Rejected.close_eq {o : Options} {e : Ending} (h : e.Rejected) : e.close o = e := by
  obtain ⟨fault, hfault, -⟩ := h
  rw [Option.mem_def] at hfault
  simp [close, hfault]

namespace Machine

variable {o o' : Options} {m next last moment : Machine} {fault : Fault} {e : Ending}
  {statement : Statement}

/-! ## Guards -/

/-- The guards of the open loops are known. -/
def Guarded (m : Machine) : Prop := ∀ loop ∈ m.loops, loop.guard ∈ m.store

/-- No command takes a name from the store. -/
theorem Performance.mem_store {line : Int} {rest : Program} {restLine : Int} {command : Command}
    {name : Text} (h : m.Performance line rest restLine command (.ok next))
    (hname : name ∈ m.store) : name ∈ next.store := by
  cases h with
  | clear | increment | decrement => exact Store.mem_set.2 (.inr hname)
  | print | ignore | loop => exact hname

/-- A command keeps the guards known, if that of a loop is known which it enters. -/
theorem Guarded.of_performance {line : Int} {rest : Program} {restLine : Int} {command : Command}
    (h : m.Guarded) (hperform : m.Performance line rest restLine command (.ok next))
    (hguard : ∀ guard, command = .loop guard → guard ∈ m.store) : next.Guarded := by
  intro loop hloop
  rcases hperform.goto_or_enter with ⟨-, -, -, hloops⟩ | ⟨guard, block, hcommand, -, -, -, hloops⟩
  · rw [hloops] at hloop
    exact hperform.mem_store (h loop hloop)
  · rw [hloops] at hloop
    rcases List.mem_cons.1 hloop with rfl | hloop
    · exact hperform.mem_store (hguard guard hcommand)
    · exact hperform.mem_store (h loop hloop)

theorem guarded_of_running (h : m.Guarded) (hs : m.step o = .running next) : next.Guarded := by
  cases transition_of_step hs with
  | skip => exact h
  | leave hcode hloops =>
    intro loop hloop
    exact h loop (hloops ▸ List.mem_cons_of_mem _ hloop)
  | @again loop outer _ hcode hloops =>
    intro inner hinner
    rcases List.mem_cons.1 hinner with rfl | hinner
    · exact h loop (hloops ▸ List.mem_cons_self)
    · exact h inner (hloops ▸ List.mem_cons_of_mem _ hinner)
  | @perform statement _ _ _ _ _ hcode htokens hbudget hread hperform =>
    have harrive : (m.arrive o statement).Guarded := by
      intro loop hloop
      rw [loops_arrive] at hloop
      rw [store_arrive]
      exact h loop hloop
    refine harrive.of_performance hperform ?_
    rintro guard rfl
    rw [store_arrive]
    exact Command.mem_of_read_eq_loop hread

theorem guarded_of_reaches {program : Program} (h : program.start.Reaches o m) : m.Guarded := by
  induction h with
  | refl =>
    intro loop hloop
    cases hloop
  | tail _ hs ih => exact guarded_of_running ih hs

/-- A fault that is no spent budget is that of a statement, which has been counted and shown and has
done nothing else. -/
theorem Guarded.of_failed (h : m.Guarded) (hs : m.step o = .failed fault last)
    (hkind : fault.kind ≠ .stepLimit) :
    ∃ statement rest, m.code = statement :: rest ∧ Statement.tokens statement ≠ [] ∧
      fault.line = m.line ∧ last = m.arrive o statement := by
  cases transition_of_step hs with
  | exhaust | cut => exact absurd rfl hkind
  | lose hcode hloops hget =>
    have hmem := h _ (hloops ▸ List.mem_cons_self)
    exact absurd hmem (Store.get?_eq_none_iff.1 hget)
  | reject hcode htokens hbudget hread =>
    exact ⟨_, _, hcode, by simp [htokens], Command.line_of_read hread, rfl⟩
  | fault hcode htokens hbudget hread hperform =>
    exact ⟨_, _, hcode, by simp [htokens], hperform.line_eq, rfl⟩

/-! ## Runs up to a moment -/

/-- A run comes to a last machine, which has come to the end of the program or fails. -/
theorem Ends.exists_last (he : m.Ends o e) : ∃ final, m.Reaches o final ∧
    (final.step o = .finished ∧ e = { machine := final } ∨
      ∃ fault, final.step o = .failed fault e.machine ∧ e.fault = some fault) := by
  induction he with
  | finished hs => exact ⟨_, .refl, .inl ⟨hs, rfl⟩⟩
  | failed hs => exact ⟨_, .refl, .inr ⟨_, hs, rfl⟩⟩
  | running hs _ ih =>
    obtain ⟨final, hreach, hfinal⟩ := ih
    exact ⟨final, .head hs hreach, hfinal⟩

theorem Ends.exists_failing (he : m.Ends o e) (hfault : e.fault = some fault) :
    ∃ final, m.Reaches o final ∧ final.step o = .failed fault e.machine := by
  obtain ⟨final, hreach, ⟨-, rfl⟩ | ⟨fault', hs, hfault'⟩⟩ := he.exists_last
  · cases hfault
  · obtain rfl : fault = fault' := Option.some.inj (hfault.symm.trans hfault')
    exact ⟨final, hreach, hs⟩

/-- Under another budget a transition is the same if that budget allows the step it counts. -/
theorem step_of_steps_le (htrace : o.trace = o'.trace) (hs : m.step o = .running next)
    (hsteps : ∀ limit ∈ o'.limit, (next.steps : Int) ≤ limit.steps) :
    m.step o' = .running next := by
  cases transition_of_step hs with
  | leave hcode hloops hget => simp only [step_of_loops hcode hloops, iterate, hget, if_true]
  | skip hcode htokens => exact step_of_tokens_eq_nil hcode htokens
  | again hcode hloops hget hvalue hbudget =>
    have hbudget' : m.tick.exceeded? o' = none := exceeded?_eq_none.2 hsteps
    exact (step_congr htrace (hbudget.trans hbudget'.symm)).symm.trans hs
  | perform hcode htokens hbudget hread hperform =>
    rw [hperform.steps, steps_arrive] at hsteps
    have hbudget' : m.tick.exceeded? o' = none := exceeded?_eq_none.2 hsteps
    exact (step_congr htrace (hbudget.trans hbudget'.symm)).symm.trans hs

/-- A run comes to a machine under any budget that allows the steps counted so far. -/
theorem Reaches.of_steps_le (h : m.Reaches o moment) (htrace : o.trace = o'.trace)
    (hsteps : ∀ limit ∈ o'.limit, (moment.steps : Int) ≤ limit.steps) : m.Reaches o' moment := by
  induction h with
  | refl => exact .refl
  | tail _ hs ih =>
    refine .tail (ih ?_) (step_of_steps_le htrace hs hsteps)
    intro limit hlimit
    have := steps_le_of_running hs
    have := hsteps limit hlimit
    omega

/-! ## What is shown of a statement -/

@[simp] theorem output_arrive : (m.arrive o statement).output = m.output := by
  simp only [arrive, announce]
  split <;> simp [output, tick, emit, Event.outputLine?]

theorem trace_arrive : (m.arrive o statement).trace =
    m.trace ++ if o.trace then
      [m.store.render, Text.decimal m.line ++ " - " ++ Text.trim statement] else [] := by
  simp only [arrive, announce]
  split <;> simp [trace, tick, emit, Event.traceLine?]

end Machine

namespace Program

/-- A statement with a fault has no effect, however deep inside loops it stands. Where a run ends at
such a fault, having counted `k` steps, the run with a budget of `k - 1` steps spends that budget on
the same line and ends with the same store and the same output. In a trace the failing run has two
lines more: the store, and the statement on that line of the program. -/
theorem ends_before_fault (program : Program) (budget : Option Int) (trace : Bool) (e : Ending)
    (fault : Fault) (he : program.Ends (.ofBudget budget trace) e) (hfault : e.fault = some fault)
    (hkind : fault.kind ≠ .stepLimit) :
    ∃ cut, program.Ends (.ofBudget (some (e.machine.steps - 1)) trace) cut ∧
      cut.fault = some (.stepLimit fault.line (Text.decimal (e.machine.steps - 1))) ∧
      cut.machine.store = e.machine.store ∧ cut.machine.output = e.machine.output ∧
      ∃ index statement, fault.line = (index : Nat) + 1 ∧ program[index]? = some statement ∧
        e.machine.trace = cut.machine.trace ++ if trace then
          [e.machine.store.render, Text.decimal fault.line ++ " - " ++ Text.trim statement]
        else [] := by
  obtain ⟨e₀, he₀, rfl⟩ := ends_iff.1 he
  rw [Ending.fault_close] at hfault
  have hrejected : e₀.Rejected := ⟨fault, hfault, hkind⟩
  rw [hrejected.close_eq]
  obtain ⟨moment, hreach, hfailed⟩ := he₀.exists_failing hfault
  obtain ⟨statement, rest, hcode, htokens, hline, hlast⟩ :=
    (Machine.guarded_of_reaches hreach).of_failed hfailed hkind
  obtain ⟨-, -, index, -, -, hget, -, hindex, -⟩ :=
    (Machine.placed_of_reaches hreach).exists_index hcode
  have hsteps : (e₀.machine.steps : Int) - 1 = moment.steps := by
    rw [hlast, Machine.steps_arrive]
    push_cast
    omega
  rw [hsteps, hline]
  -- With this budget the machine still comes to the statement, and has no step left to count it.
  have hreach' : program.start.Reaches (.ofBudget (some moment.steps) trace) moment := by
    refine hreach.of_steps_le rfl ?_
    rintro limit ⟨⟩
    exact Int.le_refl _
  have hspent : moment.tick.exceeded? (.ofBudget (some moment.steps) trace) =
      some (.ofInt moment.steps) :=
    Machine.exceeded?_eq_some.2 ⟨rfl, Int.lt_add_one_of_le (Int.le_refl _)⟩
  obtain ⟨word, operands, hwords⟩ := List.exists_cons_of_ne_nil htokens
  have hcut : moment.step (.ofBudget (some moment.steps) trace) =
      .failed (.stepLimit moment.line (Text.decimal moment.steps)) moment.tick :=
    Machine.step_of_exceeded hcode hwords hspent
  refine ⟨_, ends_iff.2 ⟨_, hreach'.ends_iff.2 (.failed hcut), rfl⟩, ?_, ?_, ?_, index, statement,
    hindex, hget, ?_⟩
  · simp
  · simp [Ending.close, hlast, Machine.tick]
  · rw [hlast, Machine.output_arrive]
    rfl
  · rw [hlast, Machine.trace_arrive, Machine.store_arrive]
    rfl

/-- Uses an unknown variable inside two loops. -/
def misspelt : Program :=
  ofSource "clear x; incr x; incr x; while x not 0 do; decr x; while x not 0 do; decr y; end; end"

/-- The ninth step of the run is that of a statement two loops deep, which uses an unknown
variable. A budget of eight steps is spent there, with the same store. -/
theorem ends_before_fault_misspelt :
    ∃ e cut, misspelt.Ends (.ofBudget none true) e ∧
      e.fault = some (.undefinedVariable 7 "y") ∧
      (Fault.undefinedVariable 7 "y").kind ≠ .stepLimit ∧
      misspelt.Ends (.ofBudget (some 8) true) cut ∧ cut.fault = some (.stepLimit 7 "8") ∧
      cut.machine.store = e.machine.store ∧ cut.machine.output = e.machine.output ∧
      e.machine.trace = cut.machine.trace ++ (["\x7bx: 1\x7d", "7 - decr y"] : List Text) := by
  have hrun : (misspelt.run? 40 (.ofBudget none true)).map
      (fun e => (e.fault, e.machine.steps, e.machine.store.render)) =
        some (some (Fault.undefinedVariable 7 "y"), 9, ("\x7bx: 1\x7d" : Text)) := by
    decide +kernel
  obtain ⟨e, he, hvalues⟩ := Option.map_eq_some_iff.1 hrun
  simp only [Prod.mk.injEq] at hvalues
  obtain ⟨hfault, hsteps, hstore⟩ := hvalues
  obtain ⟨cut, hcut, hspent, hsame, houtput, index, statement, hindex, hget, htrace⟩ :=
    ends_before_fault misspelt none true e _ ⟨40, he⟩ hfault (by decide)
  rw [hsteps] at hcut hspent
  obtain rfl : index = 6 := by
    simp only [Fault.line] at hindex
    omega
  obtain rfl : statement = " decr y" := by
    have hsixth : misspelt[6]? = some (" decr y" : Text) := by decide +kernel
    exact Option.some.inj (hget.symm.trans hsixth)
  refine ⟨e, cut, ⟨40, he⟩, hfault, by decide, hcut, ?_, hsame, houtput, ?_⟩
  · exact hspent.trans (by decide +kernel)
  · rw [htrace, hstore]
    have hline : Text.decimal (Fault.undefinedVariable 7 "y").line ++ " - " ++
        Text.trim " decr y" = ("7 - decr y" : Text) := by decide +kernel
    simp only [if_true, hline]

end Program

end CounterLang
