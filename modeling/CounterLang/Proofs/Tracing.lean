import CounterLang.Proofs.Executions
import Mathlib.Data.List.Basic

/-!
# Runs with and without a trace

Whether a run is traced is looked at for every statement, however deep inside loops, and at the end
of the program. All the same the trace is something that a run emits and nothing that it reads: a
run without a trace is the run with a trace from whose log the events of the trace are left out.

A trace has to be written, though. So an execution that is traced may stop at an integer of a
snapshot, or of a line, that has more digits than are written.

## Main definitions

* `Event.untraced`: the events of a log that do not belong to the trace.
* `Verdict.Agrees`: two runs ended the same way, having done the same but for their traces.

## Main statements

* `Machine.step_untraced`: a transition does the same without a trace.
* `Machine.ends_untraced_iff`, `Machine.Gives.untraced`: so does a run, and so does an execution
  unless an integer is not written.
* `Program.tracing_transparent`: what this says about whole runs and executions.
-/

namespace CounterLang

namespace Event

/-- The events that do not belong to the trace. -/
def untraced (log : List Event) : List Event := log.filter fun event => event.traceLine?.isNone

theorem untraced_cons {event : Event} (h : event.traceLine? = none) (log : List Event) :
    untraced (event :: log) = event :: untraced log := by
  simp [untraced, h]

theorem filterMap_traceLine?_untraced (log : List Event) :
    (untraced log).filterMap traceLine? = [] := by
  rw [List.filterMap_eq_nil_iff]
  intro event hevent
  simpa using (List.mem_filter.1 hevent).2

/-- No event belongs to both the trace and the output. -/
theorem filterMap_outputLine?_untraced (log : List Event) :
    (untraced log).filterMap outputLine? = log.filterMap outputLine? := by
  rw [untraced, List.filterMap_filter]
  apply List.filterMap_congr
  intro event _
  cases event <;> rfl

theorem untraced_reverse (log : List Event) : untraced log.reverse = (untraced log).reverse :=
  List.filter_reverse

theorem untraced_append (log past : List Event) :
    untraced (log ++ past) = untraced log ++ untraced past :=
  List.filter_append log past

/-- What is left out need not be written. -/
theorem all_isWritable_untraced {log : List Event} (h : log.all isWritable) :
    (untraced log).all isWritable := by
  rw [List.all_eq_true] at h ⊢
  exact fun event hevent => h event (List.mem_of_mem_filter hevent)

end Event

/-- The same options without a trace. -/
def Options.untraced (o : Options) : Options := { o with trace := false }

namespace Account

/-- The same without the events of the trace. -/
def untraced (a : Account) : Account := { a with log := Event.untraced a.log }

@[simp] theorem trace_untraced (a : Account) : a.untraced.trace = [] := by
  rw [trace, untraced, ← Event.untraced_reverse, Event.filterMap_traceLine?_untraced]

theorem trace_eq_nil {a : Account} {log : List Event} (h : a.log <:+ log)
    (hlog : Event.untraced log = log) : a.trace = [] := by
  rw [trace, List.filterMap_eq_nil_iff]
  intro event hevent
  have hmem : event ∈ Event.untraced log := by
    rw [hlog]
    exact h.subset (List.mem_reverse.1 hevent)
  simpa using (List.mem_filter.1 hmem).2

@[simp] theorem output_untraced (a : Account) : a.untraced.output = a.output := by
  rw [output, untraced, ← Event.untraced_reverse, Event.filterMap_outputLine?_untraced, output]

/-- Whatever is written, what is left of it without the trace is written as well. -/
theorem writeAll_untraced {a b : Account} {events : List Event} (h : a.writeAll events = .ok b) :
    a.untraced.writeAll (Event.untraced events) = .ok b.untraced := by
  rw [writeAll_eq] at h ⊢
  split at h
  · rename_i hall
    cases h
    rw [if_pos (Event.all_isWritable_untraced hall)]
    simp only [untraced, Event.untraced_append, Event.untraced_reverse]
  · cases h

end Account

namespace Verdict

/-- The same without the events of the trace. -/
def untraced (v : Verdict) : Verdict := { v with account := v.account.untraced }

/-- Both ended the same way, with the same store and the same output, and counted the same steps. -/
structure Agrees (v w : Verdict) : Prop where
  stop : v.stop = w.stop
  store : v.account.store = w.account.store
  steps : v.account.steps = w.account.steps
  output : v.account.output = w.account.output

theorem agrees_untraced (v : Verdict) : v.untraced.Agrees v :=
  ⟨rfl, rfl, rfl, Account.output_untraced v.account⟩

end Verdict

/-- The machine without the events of the trace in its log. -/
def Machine.untraced (m : Machine) : Machine := m.relog Event.untraced

namespace Ending

/-- The ending without the events of the trace in the log of its machine. -/
def untraced (e : Ending) : Ending := { e with machine := e.machine.untraced }

theorem agrees_untraced (e : Ending) : e.untraced.verdict.Agrees e.verdict :=
  e.verdict.agrees_untraced

theorem trace_untraced (e : Ending) : e.untraced.machine.trace = [] :=
  e.machine.account.trace_untraced

/-- Without a trace there are no closing lines. -/
theorem close_untraced (e : Ending) (o : Options) : e.close o.untraced = e := by
  simp [close, Options.untraced]

/-- The closing lines belong to the trace. -/
theorem untraced_close (e : Ending) (o : Options) : (e.close o).untraced = e.untraced := by
  rw [close]
  split <;> rfl

end Ending

namespace Machine

variable {o : Options} {m next : Machine} {outcome : Outcome} {e e' : Ending} {v w : Verdict}

/-- A statement that is shown is shown in the trace and nowhere else. -/
theorem announce_untraced (m : Machine) (o : Options) (line : Int) (statement : Statement) :
    m.untraced.announce o.untraced line statement = (m.announce o line statement).untraced := by
  simp only [announce, Options.untraced, Bool.false_eq_true, if_false]
  split <;> rfl

/-- A transition does the same without a trace. -/
theorem step_untraced (m : Machine) (o : Options) :
    m.untraced.step o.untraced = (m.step o).map untraced := by
  have hlimit : o.untraced.limit = o.limit := rfl
  exact step_relog (fun _ log hevent => Event.untraced_cons hevent log) hlimit
    (fun m line statement => m.announce_untraced o line statement) m

/-! ## Runs -/

/-- A run without a trace is the run with a trace from whose log the trace is left out. -/
theorem ends_untraced_iff : m.untraced.Ends o.untraced e ↔
    ∃ e', m.Ends o e' ∧ e = e'.untraced := by
  have huntraced : ∀ e : Ending, e.bimap id Machine.untraced = e.untraced := by
    intro e
    simp [Ending.bimap, Ending.untraced]
  simp only [← huntraced]
  exact ends_bimap_iff fun m => (m.step_untraced o).trans (Outcome.map_eq_bimap _ _)

/-! ## Executions -/

/-- Without a trace no event of a trace gets into the log. -/
theorem untraced_of_reaches (h : m.Reaches o.untraced next) (hm : m.untraced = m) :
    next.untraced = next := by
  induction h with
  | refl => exact hm
  | @tail moment next _ hs ih =>
    have hquiet := moment.step_untraced o.untraced
    rw [ih, show o.untraced.untraced = o.untraced from rfl, hs, Outcome.map,
      Outcome.running.injEq] at hquiet
    exact hquiet.symm

theorem Stops.trace_eq_nil (h : m.Stops o.untraced v) (hm : m.untraced = m) :
    v.account.trace = [] := by
  have hquiet := m.step_untraced o.untraced
  rw [hm, show o.untraced.untraced = o.untraced from rfl] at hquiet
  cases h with
  | finished => exact Account.trace_eq_nil List.suffix_rfl (congrArg log hm)
  | failed hs =>
    rw [hs, Outcome.map, Outcome.failed.injEq] at hquiet
    exact Account.trace_eq_nil List.suffix_rfl (congrArg log hquiet.2).symm
  | unwritable hs hlog =>
    refine Account.trace_eq_nil hlog ?_
    rcases hs with hs | ⟨fault, hs⟩
    · rw [hs, Outcome.map, Outcome.running.injEq] at hquiet
      exact (congrArg log hquiet).symm
    · rw [hs, Outcome.map, Outcome.failed.injEq] at hquiet
      exact (congrArg log hquiet.2).symm

/-- What is written of a transition is written without the trace as well. -/
theorem write_untraced (a : Account) (outcome : Outcome) :
    (∃ v, outcome.write a = .error v ∧ v.stop = some .unwritable) ∨
      (outcome.map untraced).write a.untraced =
        match outcome.write a with
        | .ok next => .ok next.untraced
        | .error v => .error v.untraced := by
  cases outcome with
  | finished => exact .inr rfl
  | running next =>
    cases hwrite : { a with steps := next.steps }.writeAll next.log.reverse with
    | error v => exact .inl ⟨v, by simp [Outcome.write, hwrite, bind, Except.bind],
        (suffix_of_writeAll hwrite).1⟩
    | ok b =>
      have hquiet := Account.writeAll_untraced hwrite
      rw [Event.untraced_reverse] at hquiet
      simp only [Outcome.write, hwrite]
      exact .inr (congrArg (· >>= _) hquiet)
  | failed fault last =>
    cases hwrite : { a with steps := last.steps }.writeAll last.log.reverse with
    | error v => exact .inl ⟨v, by simp [Outcome.write, hwrite, bind, Except.bind],
        (suffix_of_writeAll hwrite).1⟩
    | ok b =>
      have hquiet := Account.writeAll_untraced hwrite
      rw [Event.untraced_reverse] at hquiet
      simp only [Outcome.write, hwrite]
      exact .inr (congrArg (· >>= _) hquiet)

/-- An attempt does the same without a trace, unless an integer is not written. -/
theorem attempt_untraced (m : Machine) (o : Options) :
    (∃ v, m.attempt o = .error v ∧ v.stop = some .unwritable) ∨
      m.untraced.attempt o.untraced =
        match m.attempt o with
        | .ok next => .ok next.untraced
        | .error v => .error v.untraced := by
  have hwrite := write_untraced m.account ({ m with log := [] }.step o)
  rwa [← step_untraced] at hwrite

theorem Gives.untraced (h : m.Gives o (.error v)) (hstop : v.stop ≠ some .unwritable) :
    m.untraced.Gives o.untraced (.error v.untraced) := by
  generalize hr : Except.error v = result at h
  induction h with
  | refl => cases hr
  | @stop m w hattempt =>
    cases hr
    rcases m.attempt_untraced o with ⟨w, herror, hw⟩ | hquiet
    · rw [hattempt, Except.error.injEq] at herror
      exact absurd (herror ▸ hw) hstop
    · rw [hattempt] at hquiet
      exact .stop hquiet
  | @step m next result hattempt _ ih =>
    rcases m.attempt_untraced o with ⟨w, herror, -⟩ | hquiet
    · simp [hattempt] at herror
    · rw [hattempt] at hquiet
      exact .step hquiet (ih hr)

theorem exists_gives_of_untraced (h : m.untraced.Gives o.untraced (.error v)) :
    ∃ w, m.Gives o (.error w) := by
  generalize hm : m.untraced = quiet at h
  generalize hr : Except.error v = result at h
  induction h generalizing m with
  | refl => cases hr
  | stop hattempt =>
    rcases m.attempt_untraced o with ⟨w, herror, -⟩ | hquiet
    · exact ⟨w, .stop herror⟩
    · rw [hm, hattempt] at hquiet
      cases hloud : m.attempt o with
      | ok next => simp [hloud] at hquiet
      | error w => exact ⟨w, .stop hloud⟩
  | step hattempt _ ih =>
    rcases m.attempt_untraced o with ⟨w, herror, -⟩ | hquiet
    · exact ⟨w, .stop herror⟩
    · rw [hm, hattempt] at hquiet
      cases hloud : m.attempt o with
      | error w => simp [hloud] at hquiet
      | ok next =>
        simp only [hloud, Except.ok.injEq] at hquiet
        obtain ⟨w, hw⟩ := ih hquiet.symm hr
        exact ⟨w, .step hloud hw⟩

end Machine

/-! ## Executions -/

namespace Scope

variable {o : Options} {scope : Scope} {a : Account} {v w : Verdict}

/-- An execution without a trace is the execution with a trace from whose log the trace is left out,
if all of it is written. -/
theorem Executes.untraced (hcursor : 0 ≤ scope.cursor) (h : scope.Executes o a v)
    (hstop : v.stop ≠ some .unwritable) :
    scope.Executes o.untraced a.untraced v.untraced :=
  (executes_iff_gives hcursor).2 (((executes_iff_gives hcursor).1 h).untraced hstop)

theorem exists_executes_of_untraced (hcursor : 0 ≤ scope.cursor)
    (h : scope.Executes o.untraced a.untraced v) : ∃ w, scope.Executes o a w := by
  have hquiet : (scope.resume a).untraced.Gives o.untraced (.error v) :=
    (executes_iff_gives hcursor).1 h
  obtain ⟨w, hw⟩ := Machine.exists_gives_of_untraced hquiet
  exact ⟨w, (executes_iff_gives hcursor).2 hw⟩

theorem Executes.trace_eq_nil (hcursor : 0 ≤ scope.cursor)
    (h : scope.Executes o.untraced a.untraced v) : v.account.trace = [] := by
  have hresume : (scope.resume a.untraced).untraced = scope.resume a.untraced := by
    simp [Machine.untraced, Machine.relog, resume, Account.machine, Account.untraced,
      Event.untraced]
  obtain ⟨moment, hreach, hstops⟩ := h.exists_stops hcursor
  exact hstops.trace_eq_nil (Machine.untraced_of_reaches hreach hresume)

end Scope

/-! ## Whole programs -/

namespace Program

theorem ends_untraced_iff {program : Program} {o : Options} {e : Ending} :
    program.Ends o.untraced e ↔ ∃ e', program.Ends o e' ∧ e = e'.untraced := by
  have hstart : program.start.untraced = program.start := rfl
  simp only [ends_iff, Ending.close_untraced]
  rw [← hstart]
  simp only [Machine.ends_untraced_iff, exists_eq_right]
  constructor
  · rintro ⟨e', he', rfl⟩
    exact ⟨e'.close o, ⟨e', he', rfl⟩, (e'.untraced_close o).symm⟩
  · rintro ⟨_, ⟨e', he', rfl⟩, rfl⟩
    exact ⟨e', he', e'.untraced_close o⟩

/-- Tracing is transparent. Without a trace a run goes on for ever if it does so with a trace, and
otherwise it ends the same way, with the same output, store and number of steps; it emits no line of
a trace. This holds for the run of a program from the empty store, with its closing lines, and for
the run from any of its statements on, with any store and any number of steps counted so far, also
where the budget is spent. Where integers have to be written, the execution with a trace may stop
earlier, at an integer that is not written; otherwise it ends like the execution without. -/
theorem tracing_transparent (program : Program) (limit : Option Limit) :
    let quiet : Options := { limit, trace := false }
    let loud : Options := { limit, trace := true }
    ((∃ e, program.Ends quiet e) ↔ ∃ e, program.Ends loud e) ∧
    (∀ e e', program.Ends quiet e → program.Ends loud e' →
      e.verdict.Agrees e'.verdict ∧ e.machine.trace = []) ∧
    ∀ (firstLine : Int) (cursor : Nat) (store : Store) (steps : Nat),
      let scope : Scope := { program, firstLine, cursor }
      let m := scope.resume { store, steps }
      ((∃ e, m.Ends quiet e) ↔ ∃ e, m.Ends loud e) ∧
      (∀ e e', m.Ends quiet e → m.Ends loud e' →
        e.verdict.Agrees e'.verdict ∧ e.machine.trace = []) ∧
      (∀ w, scope.Executes loud { store, steps } w → w.stop = some .unwritable ∨
        ∃ v, scope.Executes quiet { store, steps } v ∧ v.Agrees w) ∧
      ∀ v, scope.Executes quiet { store, steps } v → v.account.trace = [] ∧
        ∃ w, scope.Executes loud { store, steps } w ∧ (w.stop = some .unwritable ∨ v.Agrees w) := by
  intro quiet loud
  have hquiet : loud.untraced = quiet := rfl
  refine ⟨?_, ?_, fun firstLine cursor store steps => ?_⟩
  · simp only [← hquiet, ends_untraced_iff]
    exact ⟨fun ⟨_, e, he, _⟩ => ⟨e, he⟩, fun ⟨e, he⟩ => ⟨_, e, he, rfl⟩⟩
  · intro e e' he he'
    obtain ⟨w, hw, rfl⟩ := ends_untraced_iff.1 (hquiet ▸ he)
    rw [he'.unique hw]
    exact ⟨w.agrees_untraced, w.trace_untraced⟩
  intro scope m
  have hm : m.untraced = m := rfl
  have hcursor : 0 ≤ scope.cursor := Int.natCast_nonneg cursor
  have hagrees : ∀ w, scope.Executes loud { store, steps } w → w.stop = some .unwritable ∨
      ∃ v, scope.Executes quiet { store, steps } v ∧ v.Agrees w := by
    intro w hw
    by_cases hstop : w.stop = some .unwritable
    · exact .inl hstop
    · exact .inr ⟨w.untraced, hw.untraced hcursor hstop, w.agrees_untraced⟩
  refine ⟨?_, ?_, hagrees, ?_⟩
  · rw [← hquiet, ← hm]
    simp only [Machine.ends_untraced_iff]
    exact ⟨fun ⟨_, e, he, _⟩ => ⟨e, he⟩, fun ⟨e, he⟩ => ⟨_, e, he, rfl⟩⟩
  · intro e e' he he'
    rw [← hquiet, ← hm] at he
    obtain ⟨w, hw, rfl⟩ := Machine.ends_untraced_iff.1 he
    rw [he'.unique hw]
    exact ⟨w.agrees_untraced, w.trace_untraced⟩
  · intro v hv
    have hv' : scope.Executes loud.untraced (Account.untraced { store, steps }) v := hv
    obtain ⟨w, hw⟩ := Scope.exists_executes_of_untraced hcursor hv'
    refine ⟨hv'.trace_eq_nil hcursor, w, hw, ?_⟩
    refine (hagrees w hw).imp_right fun ⟨v', hv', hvw⟩ => ?_
    rwa [hv.unique hcursor hv']

end Program

end CounterLang
