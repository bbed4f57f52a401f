import CounterLang.Proofs.Digits
import CounterLang.Proofs.Executions
import CounterLang.Proofs.Names

/-!
# Lines

A machine knows no index into the program: it counts lines along the statements it has cut out, and
a loop keeps the lines at which its body and what follows it start. All the same, however deep
inside loops, every line in a trace and in a fault is that of the statement it is about, counted
from the first line of the whole scope.

## Main definitions

* `Scope.OnLine`: a statement that is not blank stands on a line of the scope.
* `Scope.Holds`: statements stand in the scope from a line on.
* `Scope.Spans`: header, body and rest of a loop stand on the lines that the loop knows.
* `Scope.Shows`: the statements in a trace are shown with their lines.
* `Scope.Blames`: a fault points at a statement.

## Main statements

* `Machine.located_of_reaches`: the lines that a machine has are those of its statements.
* `Machine.Located.blames`: a fault points at the statement that the machine has come to.
* `Program.lines_of_runs`: traces and faults have the lines of their statements.
-/

namespace CounterLang

/-! ## Statements on lines -/

namespace Scope

/-- A statement that is not blank stands on the line. -/
structure OnLine (scope : Scope) (line : Int) (statement : Statement) : Prop where
  le_line : scope.firstLine ≤ line
  line_lt : line < scope.firstLine + scope.program.length
  getElem? : scope.program[(line - scope.firstLine).toNat]? = some statement
  tokens_ne_nil : Statement.tokens statement ≠ []

/-- The statements stand in the program from the line on. -/
def Holds (scope : Scope) (line : Int) (code : Program) : Prop :=
  ∃ index : Nat, line = scope.firstLine + index ∧ code <+: scope.program.drop index

/-- A loop has its header, its body and what follows it on the lines that it knows. -/
structure Spans (scope : Scope) (loop : Loop) : Prop where
  header : ∃ statement, scope.OnLine loop.header statement ∧
    Command.Spelled (Statement.tokens statement) (.loop loop.guard)
  body : scope.Holds loop.bodyLine loop.body
  rest : scope.Holds loop.restLine loop.rest

variable {scope : Scope} {line : Int} {statement : Statement} {code rest before behind : Program}
  {block : Block}

theorem Holds.onLine (h : scope.Holds line (statement :: rest))
    (htokens : Statement.tokens statement ≠ []) : scope.OnLine line statement := by
  obtain ⟨index, rfl, behind, hdrop⟩ := h
  have hget : scope.program[index]? = some statement := by
    rw [← List.head?_drop, ← hdrop]
    rfl
  obtain ⟨hlt, -⟩ := List.getElem?_eq_some_iff.1 hget
  have hindex : (scope.firstLine + index - scope.firstLine).toNat = index := by omega
  exact ⟨by omega, by omega, by rw [hindex, hget], htokens⟩

theorem Holds.of_append (h : scope.Holds line (before ++ behind)) :
    scope.Holds line before ∧ scope.Holds (line + before.length) behind := by
  obtain ⟨index, rfl, hcode⟩ := h
  refine ⟨⟨index, rfl, (List.prefix_append before behind).trans hcode⟩,
    index + before.length, by push_cast; omega, ?_⟩
  obtain ⟨more, hdrop⟩ := hcode
  rw [← List.drop_drop, ← hdrop, List.append_assoc, List.drop_left]
  exact List.prefix_append behind more

theorem Holds.nil (h : scope.Holds line code) : scope.Holds line [] := by
  obtain ⟨index, hline, -⟩ := h
  exact ⟨index, hline, List.nil_prefix⟩

theorem Holds.tail (h : scope.Holds line (statement :: rest)) : scope.Holds (line + 1) rest := by
  rw [← List.singleton_append] at h
  exact h.of_append.2

/-- A block that is cut out keeps its lines, and so does what follows its `end`. -/
theorem Holds.of_split? (h : scope.Holds line code) (hblock : Block.split? 0 code = some block) :
    scope.Holds line block.body ∧ scope.Holds (line + block.body.length + 1) block.rest := by
  obtain ⟨closer, -, rfl⟩ := Block.append_of_split?_eq_some hblock
  obtain ⟨hbody, hbehind⟩ := h.of_append
  exact ⟨hbody, hbehind.tail⟩

end Scope

/-- What the event shows of a statement stands on its line. -/
def Event.Located (scope : Scope) : Event → Prop
  | entry line statement => scope.OnLine line statement
  | snapshot _ | finished | printed _ | ignored _ _ | resolved _ _ _ | left _ _ => True

/-! ## Runs -/

namespace Machine

/-- The lines that the machine has are those of its statements. -/
structure Located (m : Machine) (scope : Scope) : Prop where
  code : scope.Holds m.line m.code
  loops : ∀ loop ∈ m.loops, scope.Spans loop
  log : ∀ event ∈ m.log, event.Located scope

variable {o : Options} {scope : Scope} {m next last : Machine} {statement : Statement}
  {fault : Fault}

/-- Whatever an execution goes on from, it starts with the lines of its statements. -/
theorem located_resume (hcursor : 0 ≤ scope.cursor) (store : Store) (steps : Nat) :
    (scope.resume { store, steps }).Located scope where
  code := by
    refine ⟨scope.cursor.toNat, ?_, List.prefix_rfl⟩
    rw [Int.toNat_of_nonneg hcursor]
    rfl
  loops _ hloop := by cases hloop
  log _ hevent := by cases hevent

/-- The statement that a machine has come to is shown with its line. -/
theorem located_log_arrive (hlog : ∀ event ∈ m.log, event.Located scope)
    (hline : scope.OnLine m.line statement) :
    ∀ event ∈ (m.arrive o statement).log, event.Located scope := by
  rw [arrive, announce]
  split
  · exact List.forall_mem_cons.2 ⟨hline, List.forall_mem_cons.2 ⟨trivial, hlog⟩⟩
  · exact hlog

theorem Performance.located_log {line : Int} {rest : Program} {restLine : Int} {command : Command}
    (h : m.Performance line rest restLine command (.ok next))
    (hlog : ∀ event ∈ m.log, event.Located scope) : ∀ event ∈ next.log, event.Located scope := by
  cases h with
  | clear | increment | decrement => exact hlog
  | print | ignore | loop => exact List.forall_mem_cons.2 ⟨trivial, hlog⟩

/-- A transition keeps the lines of statements that are cut out. -/
theorem located_of_running (h : m.Located scope) (hs : m.step o = .running next) :
    next.Located scope := by
  have hhere := h.code
  cases transition_of_step hs with
  | leave hcode hloops =>
    have hspans := h.loops _ (hloops ▸ List.mem_cons_self)
    exact ⟨hspans.rest, fun inner hinner => h.loops inner (hloops ▸ List.mem_cons_of_mem _ hinner),
      List.forall_mem_cons.2 ⟨trivial, h.log⟩⟩
  | @again loop outer _ hcode hloops =>
    have hspans := h.loops _ (hloops ▸ List.mem_cons_self)
    refine ⟨hspans.body, fun inner hinner => ?_, h.log⟩
    rcases List.mem_cons.1 hinner with rfl | hinner
    · exact ⟨hspans.header, hspans.body, hspans.rest⟩
    · exact h.loops inner (hloops ▸ List.mem_cons_of_mem _ hinner)
  | skip hcode htokens =>
    rw [hcode] at hhere
    exact ⟨hhere.tail, h.loops, h.log⟩
  | @perform statement rest word operands command _ hcode htokens hbudget hread hperform =>
    rw [hcode] at hhere
    have honLine : scope.OnLine m.line statement := hhere.onLine (by simp [htokens])
    have hlog := hperform.located_log (located_log_arrive h.log honLine)
    rcases hperform.goto_or_enter with ⟨-, hrest, hline, hloops⟩ |
      ⟨guard, block, rfl, hblock, hnil, hline, hloops⟩
    · rw [loops_arrive] at hloops
      exact ⟨by rw [hrest, hline]; exact hhere.tail, hloops ▸ h.loops, hlog⟩
    · obtain ⟨hbody, hbehind⟩ := hhere.tail.of_split? hblock
      rw [loops_arrive] at hloops
      refine ⟨by rw [hnil, hline]; exact hbehind.nil, fun loop hloop => ?_, hlog⟩
      rw [hloops] at hloop
      rcases List.mem_cons.1 hloop with rfl | hloop
      · exact ⟨⟨statement, honLine, htokens ▸ Command.spelled_of_read hread⟩, hbody, hbehind⟩
      · exact h.loops loop hloop

theorem located_of_reaches {start : Machine} (h : start.Reaches o m)
    (hstart : start.Located scope) : m.Located scope := by
  induction h with
  | refl => exact hstart
  | tail _ hs ih => exact located_of_running ih hs

/-- A transition that fails shows nothing but the statement that the machine has come to. -/
theorem Located.log_of_failed (h : m.Located scope) (hs : m.step o = .failed fault last) :
    ∀ event ∈ last.log, event.Located scope := by
  have hhere := h.code
  cases transition_of_step hs with
  | lose | exhaust | cut => exact h.log
  | reject hcode htokens | fault hcode htokens =>
    rw [hcode] at hhere
    exact located_log_arrive h.log (hhere.onLine (by simp [htokens]))

/-- The machine has come to the statement on the line: it is about to run it, or the statement heads
the innermost loop, which is about to be run through once more. -/
inductive Faces (m : Machine) (line : Int) (statement : Statement) : Prop where
  | statement {rest : Program} (hcode : m.code = statement :: rest) (hline : m.line = line)
  | header {loop : Loop} {outer : List Loop} (hcode : m.code = []) (hloops : m.loops = loop :: outer)
      (hheader : Statement.isLoopHeader statement) (hline : loop.header = line)

end Machine

/-! ## Traces and faults -/

namespace Scope

/-- The statements in the trace are shown trimmed, with the lines that they stand on. -/
def Shows (scope : Scope) (trace : List Text) : Prop :=
  ∀ line text, Text.decimal line ++ " - " ++ text ∈ trace →
    ∃ statement, scope.OnLine line statement ∧ text = Text.trim statement

/-- The fault of the machine points at the statement: the machine has come to it, it is on the line
of the fault, and it has the token of the fault. -/
structure Blames (scope : Scope) (m : Machine) (fault : Fault) (statement : Statement) : Prop where
  onLine : scope.OnLine fault.line statement
  mem_tokens : ∀ token ∈ fault.token?, token ∈ Statement.tokens statement
  faces : m.Faces fault.line statement
  /-- Only a loop lacks an `end`. -/
  isLoopHeader : fault.kind = .unterminatedBlock → Statement.isLoopHeader statement

end Scope

/-- A statement that is spelled as a loop heads one. -/
theorem Command.Spelled.isLoopHeader {statement : Statement} {guard : Text}
    (h : Command.Spelled (Statement.tokens statement) (.loop guard)) :
    Statement.isLoopHeader statement := by
  generalize htokens : Statement.tokens statement = tokens at h
  cases h
  simp [Statement.isLoopHeader, htokens]

namespace Machine

variable {o : Options} {scope : Scope} {m next last : Machine} {fault : Fault}

theorem Located.blames (h : m.Located scope) (hs : m.step o = .failed fault last) :
    ∃ statement, scope.Blames m fault statement := by
  have hhere := h.code
  cases transition_of_step hs with
  | lose hcode hloops =>
    obtain ⟨statement, honLine, hspelled⟩ := (h.loops _ (hloops ▸ List.mem_cons_self)).header
    refine ⟨statement, honLine, ?_, .header hcode hloops hspelled.isLoopHeader rfl, by rintro ⟨⟩⟩
    rintro token ⟨⟩
    generalize Statement.tokens statement = tokens at hspelled
    cases hspelled
    simp
  | exhaust hcode hloops =>
    obtain ⟨statement, honLine, hspelled⟩ := (h.loops _ (hloops ▸ List.mem_cons_self)).header
    exact ⟨statement, honLine, by rintro token ⟨⟩,
      .header hcode hloops hspelled.isLoopHeader rfl, by rintro ⟨⟩⟩
  | @cut statement rest word operands limit hcode htokens =>
    rw [hcode] at hhere
    exact ⟨statement, hhere.onLine (by simp [htokens]), by rintro token ⟨⟩, .statement hcode rfl,
      by rintro ⟨⟩⟩
  | @reject statement rest word operands _ hcode htokens hbudget hread =>
    rw [hcode] at hhere
    have hline := Command.line_of_read hread
    have hfaulty := Command.faulty_of_read hread
    rw [← htokens] at hfaulty
    refine ⟨statement, hline ▸ hhere.onLine (by simp [htokens]), fun token => hfaulty.mem,
      .statement hcode hline.symm, fun hkind => ?_⟩
    cases hfaulty <;> cases hkind
  | @fault statement rest word operands command _ hcode htokens hbudget hread hperform =>
    rw [hcode] at hhere
    have hspelled := Command.spelled_of_read hread
    rw [← htokens] at hspelled
    refine ⟨statement, hperform.line_eq ▸ hhere.onLine (by simp [htokens]),
      fun token => hperform.mem_of_error hspelled, .statement hcode hperform.line_eq.symm,
      fun hkind => ?_⟩
    cases hperform with
    | undefined => cases hkind
    | unterminated => exact hspelled.isLoopHeader

end Machine

/-! ## Traces as text -/

namespace Text

/-- A line of a trace that shows a statement begins with the number of its line. -/
theorem takeWhile_entry (line : Int) (text : Text) :
    (decimal line ++ " - " ++ text).takeWhile (· != (' ' : CodePoint)) = decimal line := by
  rw [List.append_assoc, List.takeWhile_append_of_pos]
  · exact List.append_nil _
  · rintro point hpoint
    have hspace : CodePoint.scalar ' ' ∉ decimal line := notMem_decimal (by decide) (by decide)
    simpa using ne_of_mem_of_not_mem hpoint hspace

theorem entry_inj {line other : Int} {text shown : Text} :
    decimal line ++ " - " ++ text = decimal other ++ " - " ++ shown ↔
      line = other ∧ text = shown := by
  constructor
  · intro h
    have hline := congrArg (·.takeWhile (· != (' ' : CodePoint))) h
    simp only [takeWhile_entry] at hline
    obtain rfl := decimal_injective hline
    exact ⟨rfl, List.append_cancel_left h⟩
  · rintro ⟨rfl, rfl⟩
    rfl

end Text

/-- Lines of a trace that show a store or the end of a run are none that show a statement. -/
theorem Event.exists_entry_of_traceLine? {event : Event} {line : Int} {text : Text}
    (h : event.traceLine? = some (Text.decimal line ++ " - " ++ text)) :
    ∃ statement, event = .entry line statement ∧ text = Text.trim statement := by
  have hcut : ∀ {shown}, shown = Text.decimal line ++ " - " ++ text →
      shown.takeWhile (· != (' ' : CodePoint)) = Text.decimal line := by
    rintro shown rfl
    exact Text.takeWhile_entry line text
  cases event with
  | entry other statement =>
    obtain ⟨rfl, rfl⟩ := Text.entry_inj.1 (Option.some.inj h)
    exact ⟨statement, rfl, rfl⟩
  | snapshot store =>
    have hbrace : CodePoint.scalar '\x7b' ∈ Text.decimal line := by
      rw [← hcut (Option.some.inj h)]
      exact List.mem_cons_self
    exact absurd hbrace (Text.notMem_decimal (by decide) (by decide))
  | finished =>
    have hletter : CodePoint.scalar 'F' ∈ Text.decimal line := by
      rw [← hcut (Option.some.inj h)]
      exact List.mem_cons_self
    exact absurd hletter (Text.notMem_decimal (by decide) (by decide))
  | printed | ignored | resolved | left => cases h

/-- A trace made of events on their lines shows statements on their lines. -/
theorem Scope.shows_of_log {scope : Scope} {log : List Event}
    (h : ∀ event ∈ log, event.Located scope) :
    scope.Shows (log.reverse.filterMap Event.traceLine?) := by
  intro line text hmem
  obtain ⟨event, hevent, hline⟩ := List.mem_filterMap.1 hmem
  have hlocated := h event (List.mem_reverse.1 hevent)
  obtain ⟨statement, rfl, htext⟩ := Event.exists_entry_of_traceLine? hline
  exact ⟨statement, hlocated, htext⟩

/-! ## Whole runs -/

namespace Scope

variable {o : Options} {scope : Scope} {store : Store} {steps : Nat} {verdict : Verdict}
  {fault : Fault}

/-- What an execution has logged when it is stopped is on its lines. -/
theorem Executes.located (hcursor : 0 ≤ scope.cursor)
    (h : scope.Executes o { store, steps } verdict) :
    ∀ event ∈ verdict.account.log, event.Located scope := by
  obtain ⟨moment, hreach, hstops⟩ := h.exists_stops hcursor
  have hmoment := Machine.located_of_reaches hreach (Machine.located_resume hcursor store steps)
  cases hstops with
  | finished => exact hmoment.log
  | failed hs => exact hmoment.log_of_failed hs
  | unwritable hs hlog =>
    intro event hevent
    rcases hs with hs | ⟨fault, hs⟩
    · exact (Machine.located_of_running hmoment hs).log event (hlog.subset hevent)
    · exact hmoment.log_of_failed hs event (hlog.subset hevent)

/-- A fault that stops an execution is that of a machine which it has come to. -/
theorem Executes.exists_failing (hcursor : 0 ≤ scope.cursor)
    (h : scope.Executes o { store, steps } verdict) (hstop : verdict.stop = some (.fault fault)) :
    ∃ m last, (scope.resume { store, steps }).Reaches o m ∧ m.step o = .failed fault last := by
  obtain ⟨moment, hreach, hstops⟩ := h.exists_stops hcursor
  cases hstops with
  | failed hs =>
    cases hstop
    exact ⟨moment, _, hreach, hs⟩
  | finished | unwritable => cases hstop

end Scope

namespace Program

/-- The run of a whole program goes on from nothing. -/
theorem start_eq_resume (program : Program) :
    program.start = ({ program } : Scope).resume { store := ∅ } := rfl

theorem located_of_reaches {program : Program} {o : Options} {m : Machine}
    (h : program.start.Reaches o m) : m.Located { program } := by
  rw [start_eq_resume] at h
  exact Machine.located_of_reaches h (Machine.located_resume (Int.le_refl 0) ∅ 0)

theorem Ends.located {program : Program} {o : Options} {e : Ending} (h : program.Ends o e) :
    ∀ event ∈ e.machine.log, event.Located { program } := by
  obtain ⟨e, he, rfl⟩ := ends_iff.1 h
  have hlog : ∀ event ∈ e.machine.log, event.Located { program } := by
    obtain ⟨final, hreach, ⟨-, rfl⟩ | ⟨fault, hs, -⟩⟩ := he.exists_last
    · exact (located_of_reaches hreach).log
    · exact (located_of_reaches hreach).log_of_failed hs
  rw [Ending.close]
  split
  · exact List.forall_mem_cons.2 ⟨trivial, List.forall_mem_cons.2 ⟨trivial, hlog⟩⟩
  · exact hlog

/-- Lines are absolute, at any depth of loops and however often these are run through. The trace of
a program shows statements trimmed and on the lines that they stand on; the fault that it ends with
is on the line of a statement, has a token of it, and is about the statement that the machine has
come to. The same holds of an execution that sets out from any position of a scope with any first
line, at every moment of it and in its verdict. -/
theorem lines_of_runs (program : Program) (o : Options) :
    (∀ e, program.Ends o e →
      ({ program } : Scope).Shows e.machine.trace ∧
      ∀ fault ∈ e.fault, ∃ m last statement, program.start.Reaches o m ∧
        m.step o = .failed fault last ∧ ({ program } : Scope).Blames m fault statement) ∧
    ∀ (firstLine : Int) (cursor : Nat) (store : Store) (steps : Nat),
      let scope : Scope := { program, firstLine, cursor }
      (∀ m, (scope.resume { store, steps }).Reaches o m → scope.Shows m.trace ∧
        ∀ fault last, m.step o = .failed fault last → ∃ statement, scope.Blames m fault statement) ∧
      ∀ verdict, scope.Executes o { store, steps } verdict → scope.Shows verdict.account.trace ∧
        ∀ fault, verdict.stop = some (.fault fault) → ∃ m last statement,
          (scope.resume { store, steps }).Reaches o m ∧ m.step o = .failed fault last ∧
            scope.Blames m fault statement := by
  refine ⟨fun e he => ⟨Scope.shows_of_log he.located, fun fault hfault => ?_⟩,
    fun firstLine cursor store steps => ?_⟩
  · obtain ⟨m, last, hreach, hs⟩ := he.exists_failing hfault
    obtain ⟨statement, hblames⟩ := (located_of_reaches hreach).blames hs
    exact ⟨m, last, statement, hreach, hs, hblames⟩
  · intro scope
    have hcursor : 0 ≤ scope.cursor := Int.natCast_nonneg cursor
    have hlocated : ∀ {m}, (scope.resume { store, steps }).Reaches o m → m.Located scope :=
      fun hreach => Machine.located_of_reaches hreach (Machine.located_resume hcursor store steps)
    refine ⟨fun m hreach => ⟨Scope.shows_of_log (hlocated hreach).log, fun fault last hs =>
      (hlocated hreach).blames hs⟩, fun verdict hverdict =>
        ⟨Scope.shows_of_log (hverdict.located hcursor), fun fault hstop => ?_⟩⟩
    obtain ⟨m, last, hreach, hs⟩ := hverdict.exists_failing hcursor hstop
    obtain ⟨statement, hblames⟩ := (hlocated hreach).blames hs
    exact ⟨m, last, statement, hreach, hs, hblames⟩

/-- A program whose first statement is on line 11, from its second statement on. -/
def misplaced : Scope := { program := misspelt, firstLine := 11, cursor := 1 }

/-- The execution ends at the seventh statement, which stands two loops deep: its line is shown in
the trace and is that of the fault. -/
theorem lines_of_runs_misplaced :
    ∃ verdict, misplaced.Executes {} { store := (∅ : Store).clear "x" } verdict ∧
      verdict.stop = some (.fault (.undefinedVariable 17 "y")) ∧
      ("17 - decr y" : Text) ∈ verdict.account.trace ∧
      (∃ statement, misplaced.OnLine 17 statement ∧ ("y" : Text) ∈ Statement.tokens statement) ∧
      ∃ statement, misplaced.OnLine 17 statement ∧ "decr y" = Text.trim statement := by
  have hrun : (misplaced.follow? {} 40 (misplaced.resume { store := (∅ : Store).clear "x" })).map
      (fun walk => (walk.stop, decide (("17 - decr y" : Text) ∈ walk.verdict.account.trace))) =
        some (some (.fault (.undefinedVariable 17 "y")), true) := by
    decide +kernel
  obtain ⟨walk, hwalk, hvalues⟩ := Option.map_eq_some_iff.1 hrun
  simp only [Prod.mk.injEq, decide_eq_true_eq] at hvalues
  obtain ⟨hstop, htrace⟩ := hvalues
  have hexecutes : misplaced.Executes {} { store := (∅ : Store).clear "x" } walk.verdict :=
    ⟨40, walk, hwalk, rfl⟩
  obtain ⟨-, hscopes⟩ := lines_of_runs misspelt {}
  obtain ⟨-, hverdict⟩ := hscopes 11 1 ((∅ : Store).clear "x") 0
  obtain ⟨hshows, hfault⟩ := hverdict walk.verdict hexecutes
  obtain ⟨_, _, statement, _, _, hblames⟩ := hfault _ hstop
  exact ⟨walk.verdict, hexecutes, hstop, htrace,
    ⟨statement, hblames.onLine, hblames.mem_tokens _ rfl⟩, hshows 17 "decr y" htrace⟩

end Program

end CounterLang
