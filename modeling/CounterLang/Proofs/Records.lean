import CounterLang.Proofs.Failures
import Mathlib.Data.List.Chain

/-!
# Records of a run

A traced run can be replayed. Its trace is a sequence of records, each of which shows a statement
and the store before it, and the tokens of the statement alone say what the store is in the next
record. Records are shown from inside all loops alike, so a loop is no gap in the sequence.

## Main definitions

* `Record`: a statement as the trace shows it.
* `Store.follow`: what the tokens of a statement make of a store.
* `Machine.Recorded`: what a machine has done is what some records say.

## Main statements

* `Machine.recorded_of_running`: a transition adds the record of the statement that it runs.
* `Program.replay_of_ends`: the trace of a run can be replayed.
-/

namespace CounterLang

/-- A statement as the trace shows it: the store before it, its line and its text. -/
structure Record where
  store : Store
  line : Int
  text : Text
deriving DecidableEq, Repr

/-- What the tokens of a statement make of a store, if the statement has no fault. -/
def Store.follow (s : Store) : List Text → Store
  | word :: name :: _ =>
    match Keyword.ofText? word with
    | some .clear => s.set name 0
    | some .increment => (s.get? name).elim s fun value => s.set name (value + 1)
    | some .decrement => (s.get? name).elim s fun value => s.set name (value - 1)
    | some .print | some .loop | some .conditional | some .function | none => s
  | _ => s

namespace Record

variable (r : Record)

def tokens : List Text := Statement.tokens r.text

/-- The two lines of the trace. -/
def lines : List Text := [r.store.render, Text.decimal r.line ++ " - " ++ r.text]

/-- The store behind the statement. -/
def after : Store := r.store.follow r.tokens

def isPrint : Bool := r.tokens.head? == some Keyword.print.text

/-- The value that the operand has before the statement. -/
def value? : Option Int := r.tokens[1]?.bind r.store.get?

/-- The line of output, if it is a `print` whose operand has a value. -/
def printed : List Text := if r.isPrint then (r.value?.map Text.decimal).toList else []

/-- The lines of the trace with the output behind them. -/
def shown : List Text := r.lines ++ r.printed

/-- Each record shows the store that the records before it lead to. -/
structure Chained (records : List Record) (final : Store) : Prop where
  head : ∀ r ∈ records.head?, r.store = ∅
  next : records.IsChain fun r next => next.store = r.after
  last : (records.getLast?.map after).getD ∅ = final

variable {r : Record} {records : List Record} {final : Store}

theorem chained_nil : Chained [] ∅ where
  head := by simp
  next := .nil
  last := rfl

theorem Chained.snoc (h : Chained records r.store) : Chained (records ++ [r]) r.after where
  head := by
    intro first hfirst
    cases records with
    | nil =>
      obtain rfl : r = first := by simpa using hfirst
      exact h.last.symm
    | cons head tail => exact h.head first (by simpa using hfirst)
  next := by
    refine List.isChain_append.2 ⟨h.next, .singleton r, ?_⟩
    intro last hlast next hnext
    obtain rfl : r = next := by simpa using hnext
    have hstore := h.last
    rw [Option.mem_def] at hlast
    rw [hlast] at hstore
    exact hstore.symm
  last := by simp

/-- The output, told by the `print` statements, if all of their operands have values. -/
theorem map_flatMap_printed (h : ∀ r ∈ records, r.isPrint → r.value?.isSome) :
    (records.flatMap printed).map some =
      (records.filter isPrint).map fun r => r.value?.map Text.decimal := by
  induction records with
  | nil => rfl
  | cons r records ih =>
    have hrest := ih fun r hr => h r (List.mem_cons_of_mem _ hr)
    rw [List.flatMap_cons, List.map_append, hrest, List.filter_cons]
    cases hprint : r.isPrint with
    | false => simp [printed, hprint]
    | true =>
      obtain ⟨value, hvalue⟩ := Option.isSome_iff_exists.1 (h r List.mem_cons_self hprint)
      simp [printed, hprint, hvalue]

end Record

namespace Machine

variable {o : Options} {m next : Machine} {event : Event} {statement : Statement} {e : Ending}

/-! ## What an event adds -/

theorem trace_emit : (m.emit event).trace = m.trace ++ event.traceLine?.toList := by
  cases h : event.traceLine? <;> simp [trace, emit, h]

theorem output_emit : (m.emit event).output = m.output ++ event.outputLine?.toList := by
  cases h : event.outputLine? <;> simp [output, emit, h]

theorem display_emit : (m.emit event).display = m.display ++ event.displayLine?.toList := by
  cases h : event.displayLine? <;> simp [display, emit, h]

/-- The record of a statement that a machine has come to. -/
def record (m : Machine) (statement : Statement) : Record where
  store := m.store
  line := m.line
  text := Text.trim statement

@[simp] theorem tokens_record : (m.record statement).tokens = Statement.tokens statement :=
  Text.words_trim statement

theorem lines_record : (m.record statement).lines =
    [m.store.render, Text.decimal m.line ++ " - " ++ Text.trim statement] := rfl

theorem display_arrive (htrace : o.trace) :
    (m.arrive o statement).display = m.display ++ (m.record statement).lines := by
  simp only [arrive, announce, htrace, if_true, display_emit]
  simp [lines_record, display, tick, Event.displayLine?, Event.traceLine?]

/-! ## What a command adds -/

/-- A command does to the store what the tokens of its statement say. -/
theorem Performance.store_eq {tokens : List Text} {line : Int} {rest : Program} {restLine : Int}
    {command : Command} (h : m.Performance line rest restLine command (.ok next))
    (htokens : Command.Spelled tokens command) : next.store = m.store.follow tokens := by
  cases h with
  | clear => cases htokens; simp only [Store.follow, Keyword.ofText?_text]; rfl
  | increment hget | decrement hget =>
    cases htokens
    simp only [Store.follow, Keyword.ofText?_text, hget]
    rfl
  | print | ignore | loop => cases htokens <;> rfl

theorem Performance.trace_eq {line : Int} {rest : Program} {restLine : Int} {command : Command}
    (h : m.Performance line rest restLine command (.ok next)) : next.trace = m.trace := by
  cases h with
  | clear | increment | decrement => rfl
  | print | ignore | loop => exact trace_emit.trans (List.append_nil _)

/-- The output of a command is what the record of its statement tells. -/
theorem Performance.printed {r : Record} {tokens : List Text} {line : Int} {rest : Program}
    {restLine : Int} {command : Command}
    (h : m.Performance line rest restLine command (.ok next))
    (htokens : Command.Spelled tokens command) (hr : r.tokens = tokens)
    (hstore : r.store = m.store) :
    next.output = m.output ++ r.printed ∧ next.display = m.display ++ r.printed ∧
      (r.isPrint → r.value?.isSome) := by
  have hquiet : r.isPrint = false → next.output = m.output → next.display = m.display →
      next.output = m.output ++ r.printed ∧ next.display = m.display ++ r.printed ∧
        (r.isPrint → r.value?.isSome) := by
    intro hprint houtput hdisplay
    simp [Record.printed, hprint, houtput, hdisplay]
  cases h with
  | clear | increment | decrement =>
    cases htokens
    exact hquiet (by rw [Record.isPrint, hr]; rfl) rfl rfl
  | ignore =>
    cases htokens <;> exact hquiet (by rw [Record.isPrint, hr]; rfl)
      (output_emit.trans (List.append_nil _)) (display_emit.trans (List.append_nil _))
  | loop =>
    cases htokens
    exact hquiet (by rw [Record.isPrint, hr]; rfl)
      (output_emit.trans (List.append_nil _)) (display_emit.trans (List.append_nil _))
  | @print name value hget =>
    cases htokens
    have hprint : r.isPrint = true := by rw [Record.isPrint, hr]; rfl
    have hvalue : r.value? = some value := by simp [Record.value?, hr, hstore, hget]
    have hprinted : r.printed = [Text.decimal value] := by
      simp [Record.printed, hprint, hvalue]
    rw [hprinted]
    exact ⟨output_emit, display_emit, fun _ => by simp [hvalue]⟩

/-! ## What a run adds -/

/-- What a machine has done is what the records say. -/
structure Recorded (m : Machine) (records : List Record) : Prop where
  trace : m.trace = records.flatMap Record.lines
  output : m.output = records.flatMap Record.printed
  display : m.display = records.flatMap Record.shown
  value : ∀ r ∈ records, r.isPrint → r.value?.isSome
  chained : Record.Chained records m.store

variable {records : List Record} {program : Program}

theorem recorded_start (program : Program) : program.start.Recorded [] :=
  ⟨rfl, rfl, rfl, by simp, Record.chained_nil⟩

theorem Recorded.congr (h : m.Recorded records) (hstore : next.store = m.store)
    (htrace : next.trace = m.trace) (houtput : next.output = m.output)
    (hdisplay : next.display = m.display) : next.Recorded records where
  trace := htrace.trans h.trace
  output := houtput.trans h.output
  display := hdisplay.trans h.display
  value := h.value
  chained := hstore ▸ h.chained

/-- A transition adds the record of the statement that it runs, and none if it runs no statement. -/
theorem recorded_of_running (htrace : o.trace) (h : m.Recorded records)
    (hs : m.step o = .running next) : ∃ more, next.Recorded (records ++ more) := by
  cases transition_of_step hs with
  | leave =>
    refine ⟨[], ?_⟩
    rw [List.append_nil]
    exact h.congr rfl (trace_emit.trans (List.append_nil _)) (output_emit.trans (List.append_nil _))
      (display_emit.trans (List.append_nil _))
  | again | skip =>
    refine ⟨[], ?_⟩
    rw [List.append_nil]
    exact h.congr rfl rfl rfl rfl
  | @perform statement _ _ _ _ _ hcode htokens hbudget hread hperform =>
    have hspelled := Command.spelled_of_read hread
    have hrecord : (m.record statement).tokens = _ := tokens_record.trans htokens
    obtain ⟨houtput, hdisplay, hvalue⟩ :=
      hperform.printed hspelled hrecord (store_arrive m o statement).symm
    have hafter : (m.record statement).after = next.store := by
      rw [hperform.store_eq hspelled, store_arrive, Record.after, hrecord]
      rfl
    refine ⟨[m.record statement], ?_, ?_, ?_, ?_, ?_⟩
    · rw [hperform.trace_eq, trace_arrive, h.trace, if_pos htrace, List.flatMap_append,
        List.flatMap_singleton, lines_record]
    · rw [houtput, output_arrive, h.output, List.flatMap_append, List.flatMap_singleton]
    · rw [hdisplay, display_arrive htrace, h.display, List.append_assoc, List.flatMap_append,
        List.flatMap_singleton, Record.shown]
    · intro r hr
      rcases List.mem_append.1 hr with hr | hr
      · exact h.value r hr
      · obtain rfl := List.mem_singleton.1 hr
        exact hvalue
    · rw [← hafter]
      exact Record.Chained.snoc h.chained

theorem exists_recorded_of_reaches (htrace : o.trace) (h : program.start.Reaches o m) :
    ∃ records, m.Recorded records := by
  induction h with
  | refl => exact ⟨[], recorded_start program⟩
  | tail _ hs ih =>
    obtain ⟨records, hrecords⟩ := ih
    obtain ⟨more, hmore⟩ := recorded_of_running htrace hrecords hs
    exact ⟨records ++ more, hmore⟩

end Machine

/-! ## Endings -/

namespace Ending

/-- The closing lines of the trace. -/
def closing (e : Ending) : List Text :=
  if e.fault.isNone then ["Finishing status:", e.machine.store.render] else []

/-- What a run has done is what the records of the statements that it performed say, with that of
the statement that it rejected, if it did. -/
structure Recorded (e : Ending) (performed : List Record) (rejected : Option Record) : Prop where
  trace : e.machine.trace =
    performed.flatMap Record.lines ++ rejected.toList.flatMap Record.lines ++ e.closing
  output : e.machine.output = performed.flatMap Record.printed
  display : e.machine.display =
    performed.flatMap Record.shown ++ rejected.toList.flatMap Record.lines ++ e.closing
  value : ∀ r ∈ performed, r.isPrint → r.value?.isSome
  chained : Record.Chained performed e.machine.store
  isSome_iff : rejected.isSome ↔ e.Rejected
  store : ∀ r ∈ rejected, r.store = e.machine.store

variable {o : Options} {m last : Machine} {fault : Fault} {statement : Statement}
  {records : List Record}

/-- A run that comes to the end of its program shows the final store. -/
theorem recorded_finished (htrace : o.trace) (h : m.Recorded records) :
    (close o { machine := m }).Recorded records none := by
  have hclose : close o { machine := m } =
      { machine := (m.emit .finished).emit (.snapshot m.store) } := by simp [close, htrace]
  rw [hclose]
  refine ⟨?_, ?_, ?_, h.value, h.chained, by simp [Rejected], by simp⟩
  · rw [Machine.trace_emit, Machine.trace_emit, h.trace]
    simp [closing, Event.traceLine?, Machine.emit]
  · rw [Machine.output_emit, Machine.output_emit, h.output]
    simp [Event.outputLine?]
  · rw [Machine.display_emit, Machine.display_emit, h.display]
    simp [closing, Event.displayLine?, Event.traceLine?, Machine.emit]

/-- A spent budget is noticed before the statement is shown. -/
theorem recorded_exhausted (h : m.Recorded records) (hs : m.step o = .failed fault last)
    (hkind : fault.kind = .stepLimit) :
    Recorded { machine := last, fault := some fault } records none := by
  obtain ⟨rfl, -⟩ := Machine.step_eq_stepLimit hs hkind
  have hlast : m.tick.Recorded records := h.congr rfl rfl rfl rfl
  exact ⟨by simp [closing, hlast.trace], hlast.output, by simp [closing, hlast.display],
    hlast.value, hlast.chained, by simp [Rejected, hkind], by simp⟩

/-- A statement with a fault is shown, and that is all. -/
theorem recorded_rejected (htrace : o.trace) (h : m.Recorded records)
    (hkind : fault.kind ≠ .stepLimit) :
    Recorded { machine := m.arrive o statement, fault := some fault } records
      (some (m.record statement)) := by
  refine ⟨?_, ?_, ?_, h.value, ?_, by simp [Rejected, hkind], ?_⟩
  · simp [closing, Machine.trace_arrive, htrace, h.trace, Machine.lines_record]
  · rw [Machine.output_arrive, h.output]
  · simp [closing, Machine.display_arrive htrace, h.display]
  · rw [Machine.store_arrive]
    exact h.chained
  · rintro r ⟨⟩
    rw [Machine.store_arrive]
    rfl

end Ending

namespace Program

variable {o : Options} {program : Program} {e : Ending}

/-- A traced run that ends has records. -/
theorem Ends.exists_recorded (htrace : o.trace) (he : program.Ends o e) :
    ∃ performed rejected, e.Recorded performed rejected := by
  obtain ⟨e₀, he₀, rfl⟩ := ends_iff.1 he
  obtain ⟨final, hreach, hfinal⟩ := he₀.exists_last
  obtain ⟨records, h⟩ := Machine.exists_recorded_of_reaches htrace hreach
  rcases hfinal with ⟨-, rfl⟩ | ⟨fault, hs, hfault⟩
  · exact ⟨records, none, Ending.recorded_finished htrace h⟩
  · obtain ⟨last, cause⟩ := e₀
    obtain rfl : cause = some fault := hfault
    have hclose : Ending.close o { machine := last, fault := some fault } =
        { machine := last, fault := some fault } := by simp [Ending.close]
    rw [hclose]
    by_cases hkind : fault.kind = .stepLimit
    · exact ⟨records, none, Ending.recorded_exhausted h hs hkind⟩
    · obtain ⟨statement, rest, -, -, -, rfl⟩ :=
        (Machine.guarded_of_reaches hreach).of_failed hs hkind
      exact ⟨records, some (final.record statement), Ending.recorded_rejected htrace h hkind⟩

/-- The trace of a run is a log from which the run can be replayed, however its statements lie
inside loops. It consists of records, two lines each. The first one shows the empty store, and each
shows the store that the tokens of the statement before make of the store before. The last one leads
to the final store, unless its statement was rejected, which changes nothing. The output is made up
of the values that the operands of the `print` statements have in their own records, but for a
rejected one. If the run comes to the end of the program, two lines follow, of which the second
shows the final store. -/
theorem replay_of_ends (program : Program) (budget : Option Int) (e : Ending)
    (he : program.Ends (.ofBudget budget true) e) :
    ∃ records : List Record,
      e.machine.trace = records.flatMap Record.lines ++
        (if e.fault.isNone then ["Finishing status:", e.machine.store.render] else [] : List Text) ∧
      (∀ r ∈ records.head?, r.store = ∅) ∧
      records.IsChain (fun r next => next.store = r.after) ∧
      (e.Rejected → records.getLast?.map Record.store = some e.machine.store) ∧
      (¬ e.Rejected → (records.getLast?.map Record.after).getD ∅ = e.machine.store) ∧
      e.machine.output.map some =
        ((if e.Rejected then records.dropLast else records).filter Record.isPrint).map
          fun r => r.value?.map Text.decimal := by
  obtain ⟨performed, rejected, h⟩ := he.exists_recorded rfl
  have houtput := Record.map_flatMap_printed h.value
  rw [← h.output] at houtput
  cases rejected with
  | none =>
    have hrejected : ¬ e.Rejected := fun hx => by simpa using h.isSome_iff.2 hx
    refine ⟨performed, by simpa [Ending.closing] using h.trace, h.chained.head, h.chained.next,
      fun hx => absurd hx hrejected, fun _ => h.chained.last, ?_⟩
    rw [if_neg hrejected, houtput]
  | some r =>
    have hrejected : e.Rejected := h.isSome_iff.1 rfl
    have hstore := h.store r rfl
    have hsnoc : Record.Chained (performed ++ [r]) r.after := .snoc (hstore ▸ h.chained)
    refine ⟨performed ++ [r], by simpa [Ending.closing] using h.trace, hsnoc.head, hsnoc.next,
      fun _ => by simp [hstore], fun hx => absurd hrejected hx, ?_⟩
    rw [if_pos hrejected, List.dropLast_concat, houtput]

/-- Prints a variable in each of two iterations of a loop, and another one that is unknown. -/
def unfinished : Program :=
  ofSource "clear x; incr x; incr x; while x not 0 do; print x; decr x; end; print y"

/-- The last of the nine records of the run is that of a rejected `print`, which is left out of the
output. -/
theorem replay_of_ends_unfinished :
    ∃ (e : Ending) (records : List Record), unfinished.Ends (.ofBudget none true) e ∧ e.Rejected ∧
      e.machine.trace = records.flatMap Record.lines ∧ records.length = 9 ∧
      records.getLast?.map Record.store = some e.machine.store ∧
      e.machine.output.map some =
        (records.dropLast.filter Record.isPrint).map (fun r => r.value?.map Text.decimal) ∧
      e.machine.output = (["2", "1"] : List Text) := by
  have hrun : (unfinished.run? 40 (.ofBudget none true)).map
      (fun e => (e.fault, e.machine.trace.length, e.machine.output)) =
        some (some (Fault.undefinedVariable 8 "y"), 18, (["2", "1"] : List Text)) := by
    decide +kernel
  obtain ⟨e, he, hvalues⟩ := Option.map_eq_some_iff.1 hrun
  simp only [Prod.mk.injEq] at hvalues
  obtain ⟨hfault, hlength, houtput⟩ := hvalues
  have hrejected : e.Rejected := ⟨_, hfault, by decide⟩
  obtain ⟨records, htrace, -, -, hlast, -, hprinted⟩ :=
    replay_of_ends unfinished none e ⟨40, he⟩
  rw [if_pos hrejected] at hprinted
  simp only [hfault, Option.isNone_some, Bool.false_eq_true, if_false, List.append_nil] at htrace
  refine ⟨e, records, ⟨40, he⟩, hrejected, htrace, ?_, hlast hrejected, hprinted, houtput⟩
  rw [htrace, List.length_flatMap] at hlength
  simp only [Record.lines, List.length_cons, List.length_nil, List.map_const',
    List.sum_replicate_nat] at hlength
  omega

end Program

end CounterLang
