import CounterLang.Proofs.Records
import CounterLang.Proofs.Transit
import Mathlib.Algebra.Ring.Nat

/-!
# What a run builds up

A step that is counted brings at most one line of output, two lines of trace, and one unit to the
store, where a variable takes up one unit and its value as many as it counts. The step that spends
the budget brings nothing. So the budget bounds the answer to any request that is run in the
server's own process.

## Main definitions

* `Entries.size`, `Store.size`: how much entries and stores take up.
* `Machine.Sized`: what a machine has built up is bounded by a number of steps.

## Main statements

* `Store.size_set`: what a variable takes up is exchanged for what its new value takes up.
* `Machine.sized_of_running`: a transition keeps a machine bounded by the steps it has counted.
* `Program.Ends.sized`: what a run within a budget leaves behind is bounded by the budget.
* `Service.run_bounded`: the answers of the service are bounded by the budgets it grants.
-/

namespace CounterLang

/-! ## Stores -/

namespace Entries

/-- What entries take up: one unit each, and as many as the value counts. -/
def size (entries : Entries Int) : Nat := (entries.map fun entry => entry.2.natAbs + 1).sum

/-- What a name takes up with its value, if it has one. -/
def sizeOf? (value : Option Int) : Nat := value.elim 0 fun value => value.natAbs + 1

theorem size_eq (entries : Entries Int) :
    entries.size = entries.length + (entries.map fun entry => entry.2.natAbs).sum := by
  induction entries with
  | nil => rfl
  | cons entry rest ih =>
    simp only [size, List.map_cons, List.sum_cons, List.length_cons] at ih ⊢
    omega

/-- What a name takes up is exchanged for what its new value takes up. -/
theorem size_assign (name : Text) (value : Int) (entries : Entries Int) :
    (entries.assign name value).size + sizeOf? (entries.lookup name) =
      entries.size + sizeOf? (some value) := by
  induction entries with
  | nil => simp [assign, size, sizeOf?]
  | cons entry rest ih =>
    obtain ⟨key, old⟩ := entry
    by_cases hkey : key = name
    · subst hkey
      simp only [assign, if_true, List.lookup_cons_self, size, sizeOf?, List.map_cons,
        List.sum_cons, Option.elim_some]
      omega
    · have hname : (name == key) = false := by simpa using Ne.symm hkey
      simp only [assign, hkey, if_false, List.lookup_cons, hname, size, List.map_cons,
        List.sum_cons] at ih ⊢
      omega

end Entries

namespace Store

variable {s : Store} {name : Text} {value : Int}

/-- What a store takes up. -/
def size (s : Store) : Nat := s.entries.size

theorem size_set (s : Store) (name : Text) (value : Int) :
    (s.set name value).size + Entries.sizeOf? (s.get? name) =
      s.size + Entries.sizeOf? (some value) :=
  Entries.size_assign name value s.entries

theorem size_clear_le : (s.clear name).size ≤ s.size + 1 := by
  have := size_set s name 0
  simp only [Entries.sizeOf?, Option.elim_some, Int.natAbs_zero] at this
  rw [clear]
  omega

/-- A value that changes by one takes up at most one unit more. -/
theorem size_set_le {new : Int} (hget : s.get? name = some value)
    (hnew : new.natAbs ≤ value.natAbs + 1) : (s.set name new).size ≤ s.size + 1 := by
  have := size_set s name new
  simp only [hget, Entries.sizeOf?, Option.elim_some] at this
  omega

end Store

/-! ## Runs -/

namespace Machine

variable {o : Options} {m next last : Machine} {statement : Statement} {fault : Fault} {n : Nat}

/-- What a machine has built up is bounded by a number of steps. -/
structure Sized (m : Machine) (n : Nat) : Prop where
  trace : m.trace.length ≤ 2 * n
  output : m.output.length ≤ n
  store : m.store.size ≤ n

theorem sized_start (program : Program) : program.start.Sized 0 := ⟨by simp [trace, Program.start],
  by simp [output, Program.start], Nat.le_refl _⟩

theorem Sized.congr (h : m.Sized n) (htrace : next.trace = m.trace)
    (houtput : next.output = m.output) (hstore : next.store = m.store) : next.Sized n where
  trace := htrace ▸ h.trace
  output := houtput ▸ h.output
  store := hstore ▸ h.store

theorem Sized.mono {more : Nat} (h : m.Sized n) (hle : n ≤ more) : m.Sized more where
  trace := Nat.le_trans h.trace (Nat.mul_le_mul_left 2 hle)
  output := Nat.le_trans h.output hle
  store := Nat.le_trans h.store hle

/-- A statement is shown on two lines. -/
theorem length_trace_arrive_le (m : Machine) (o : Options) (statement : Statement) :
    (m.arrive o statement).trace.length ≤ m.trace.length + 2 := by
  rw [trace_arrive, List.length_append]
  split <;> simp

/-- A command brings one line of output, or one unit to the store. -/
theorem Performance.growth {line : Int} {rest : Program} {restLine : Int} {command : Command}
    (h : m.Performance line rest restLine command (.ok next)) :
    next.output.length ≤ m.output.length + 1 ∧ next.store.size ≤ m.store.size + 1 := by
  have hsilent : ∀ event : Event, event.outputLine? = none →
      (m.emit event).output.length ≤ m.output.length + 1 := by
    intro event hevent
    simp [output_emit, hevent]
  cases h with
  | clear name => exact ⟨Nat.le_succ _, Store.size_clear_le⟩
  | increment hget => exact ⟨Nat.le_succ _, Store.size_set_le hget (by omega)⟩
  | decrement hget => exact ⟨Nat.le_succ _, Store.size_set_le hget (by omega)⟩
  | @print name value hget =>
    have houtput : (m.emit (.printed value)).output.length ≤ m.output.length + 1 := by
      simp [output_emit, Event.outputLine?]
    exact ⟨houtput, Nat.le_succ _⟩
  | ignore keyword => exact ⟨hsilent (.ignored keyword line) rfl, Nat.le_succ _⟩
  | loop => exact ⟨hsilent (.resolved line restLine _) rfl, Nat.le_succ _⟩

/-- A statement that is shown and does nothing else takes up the two lines of its step. -/
theorem Sized.arrive (h : m.Sized m.steps) :
    (m.arrive o statement).Sized (m.arrive o statement).steps := by
  have htrace := length_trace_arrive_le m o statement
  have := h.trace
  have := h.output
  have := h.store
  rw [steps_arrive]
  exact ⟨by omega, by rw [output_arrive]; omega, by rw [store_arrive]; omega⟩

/-- A transition keeps a machine bounded by the steps it has counted. -/
theorem sized_of_running (h : m.Sized m.steps) (hs : m.step o = .running next) :
    next.Sized next.steps := by
  cases transition_of_step hs with
  | leave =>
    exact h.congr (trace_emit.trans (List.append_nil _)) (output_emit.trans (List.append_nil _)) rfl
  | skip => exact h.congr rfl rfl rfl
  | again => exact (h.mono (Nat.le_succ m.steps)).congr rfl rfl rfl
  | @perform statement _ _ _ _ _ hcode htokens hbudget hread hperform =>
    have htrace := length_trace_arrive_le m o statement
    obtain ⟨houtput, hstore⟩ := hperform.growth
    rw [output_arrive] at houtput
    rw [store_arrive] at hstore
    have := h.trace
    have := h.output
    have := h.store
    rw [hperform.steps, steps_arrive]
    exact ⟨by rw [hperform.trace_eq]; omega, by omega, by omega⟩

theorem sized_of_reaches {program : Program} (h : program.start.Reaches o m) :
    m.Sized m.steps := by
  induction h with
  | refl => exact sized_start program
  | tail _ hs ih => exact sized_of_running ih hs

end Machine

namespace Ending

variable (o : Options) (e : Ending)

/-- The closing lines of a trace are two. -/
theorem length_trace_close_le :
    (e.close o).machine.trace.length ≤ e.machine.trace.length + 2 := by
  rw [close]
  split
  · simp [Machine.trace_emit, Event.traceLine?]
  · exact Nat.le_add_right _ 2

@[simp] theorem output_close : (e.close o).machine.output = e.machine.output := by
  rw [close]
  split
  · simp [Machine.output_emit, Event.outputLine?]
  · rfl

@[simp] theorem store_close : (e.close o).machine.store = e.machine.store := by
  rw [close]
  split <;> rfl

end Ending

namespace Program

variable {program : Program} {trace : Bool} {n : Int} {e : Ending}

/-- What a run within a budget leaves behind is bounded by the budget, with the closing lines of
its trace. -/
theorem Ends.sized (he : program.Ends (.ofBudget (some n) trace) e) :
    (e.machine.trace.length : Int) ≤ 2 * max 0 n + 2 ∧
      (e.machine.output.length : Int) ≤ max 0 n ∧ (e.machine.store.size : Int) ≤ max 0 n := by
  obtain ⟨e₀, he₀, rfl⟩ := ends_iff.1 he
  -- The step that spends the budget is counted, but brings nothing.
  obtain ⟨steps, hsteps, hsized⟩ : ∃ steps : Nat, (steps : Int) ≤ max 0 n ∧
      e₀.machine.Sized steps := by
    have hbudget := he.steps_of_budget
    rw [Ending.steps_close, Ending.exhausted_close] at hbudget
    obtain ⟨final, hreach, ⟨-, rfl⟩ | ⟨fault, hs, hfault⟩⟩ := he₀.exists_last
    · refine ⟨final.steps, ?_, Machine.sized_of_reaches hreach⟩
      rcases hbudget with ⟨-, hx⟩ | ⟨hle, -⟩
      · simp [Ending.Exhausted] at hx
      · rwa [max_comm]
    · have hexhausted : e₀.Exhausted ↔ fault.kind = .stepLimit := by
        simp [Ending.Exhausted, hfault]
      rw [hexhausted] at hbudget
      have hfinal := Machine.sized_of_reaches hreach
      by_cases hkind : fault.kind = .stepLimit
      · obtain ⟨hlast, -⟩ := Machine.step_eq_stepLimit hs hkind
        have hcount : e₀.machine.steps = final.steps + 1 := congrArg Machine.steps hlast
        refine ⟨final.steps, ?_, hlast ▸ hfinal.congr rfl rfl rfl⟩
        rcases hbudget with ⟨heq, -⟩ | ⟨-, hx⟩
        · omega
        · exact absurd hkind hx
      · obtain ⟨statement, rest, -, -, -, hlast⟩ :=
          (Machine.guarded_of_reaches hreach).of_failed hs hkind
        refine ⟨e₀.machine.steps, ?_, hlast ▸ hfinal.arrive⟩
        rcases hbudget with ⟨-, hx⟩ | ⟨hle, -⟩
        · exact absurd hx hkind
        · omega
  have := e₀.length_trace_close_le (.ofBudget (some n) trace)
  have := hsized.trace
  have := hsized.output
  have := hsized.store
  rw [Ending.output_close, Ending.store_close]
  omega

end Program

/-! ## The service -/

theorem Settings.capSteps_le (ceiling asked : Int) : capSteps ceiling asked ≤ max 0 ceiling := by
  rw [capSteps]
  omega

/-- No budget that is granted is greater than the ceiling. -/
theorem Settings.maxSteps_le_of_cap {ceilings : Ceilings} {asked : Json} {settings : Settings}
    (h : cap ceilings asked = .ok settings) : settings.maxSteps ≤ max 0 ceilings.maxSteps := by
  have hceiling : (ofCeilings ceilings).maxSteps ≤ max 0 ceilings.maxSteps := Int.le_max_right _ _
  cases asked with
  | obj members =>
    simp only [cap, bind, Except.bind, pure, Except.pure] at h
    repeat' split at h
    all_goals cases h
    · exact hceiling
    all_goals exact capSteps_le _ _
  | null | bool | int | real | str | arr =>
    simp only [cap] at h
    split at h
    · cases h
      exact hceiling
    · cases h

/-- Every run in the server's own process is bounded in its work and in the size of its answer,
whatever the program, the settings that are asked for and the ceilings are. Either the settings
cannot be made sense of, and the answer has nothing in it but a server error; or they grant a budget
that is no greater than the ceiling. With that budget the run comes to an end, well or with a fault,
and counts at most one step more than the budget allows. Its output has no more lines than the
budget has steps, its trace no more than twice as many and two, and its variables, with their
absolute values added, are no more than that budget. -/
theorem Service.run_bounded (ceilings : Ceilings) (source : Text) (asked : Json) :
    (∃ error message, Settings.cap ceilings asked = .error error ∧
      run ceilings source asked =
        { trace := [], output := [], store := ∅, trouble := some (.server message) } ∧
      (Trouble.server message).code = "SERVER_ERROR") ∨
    ∃ settings, Settings.cap ceilings asked = .ok settings ∧
      settings.maxSteps ≤ max 0 ceilings.maxSteps ∧
      (settings.isolated = false →
        run ceilings source asked = runInProcess source settings) ∧
      ∃ e, (Program.ofSource source).Ends
          (.ofBudget (some settings.maxSteps) settings.trace) e ∧
        runInProcess source settings = .ofReport (.ofEnding e) ∧
        (e.machine.steps : Int) ≤ max 0 settings.maxSteps + 1 ∧
        let answer := runInProcess source settings
        (answer.output.length : Int) ≤ max 0 settings.maxSteps ∧
        (answer.trace.length : Int) ≤ 2 * max 0 settings.maxSteps + 2 ∧
        ((answer.store.entries.length +
          (answer.store.entries.map fun entry => entry.2.natAbs).sum : Nat) : Int) ≤
            max 0 settings.maxSteps := by
  cases hcap : Settings.cap ceilings asked with
  | error error => exact .inl ⟨error, error.message, rfl, by simp only [run, hcap], rfl⟩
  | ok settings =>
    right
    obtain ⟨e, he⟩ := Program.exists_ends_ofBudget (Program.ofSource source) settings.trace
      settings.maxSteps
    obtain ⟨htrace, houtput, hstore⟩ := he.sized
    have hsteps := he.steps_of_budget
    have hanswer := runInProcess_eq he
    refine ⟨settings, rfl, Settings.maxSteps_le_of_cap hcap, ?_, e, he, hanswer, by omega, ?_⟩
    · intro hplace
      simp [run, hcap, hplace]
    · rw [hanswer]
      refine ⟨houtput, htrace, ?_⟩
      rw [← Entries.size_eq]
      exact hstore

end CounterLang
