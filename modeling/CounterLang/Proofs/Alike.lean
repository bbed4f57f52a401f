import CounterLang.Proofs.Executions
import CounterLang.Proofs.Phrases

/-!
# Machines in different layouts

Two machines are alike if they have done the same and have the same phrases to run, but for the
blanks inside the phrases and the lines that these are on. Between the phrases of each there may be
blank statements anywhere: a machine that has passed over its own is settled, and machines that are
alike and settled make transitions that are alike.

Lines are compared by a relation `R` throughout, since nothing looks at a line but to show it.

## Main definitions

* `Machine.Alike`, `Verdict.Alike`: two machines, or verdicts, differ in their layout alone.
* `Machine.settle`: a machine that has passed over blank statements.

## Main statements

* `Command.read_onLine`: a statement reads the same on any line.
* `Machine.Alike.perform`: a command does the same in another layout.
* `Machine.step_alike`: away from blank statements, machines that are alike make transitions that
  are alike.
-/

namespace CounterLang

/-! ## What is alike -/

section Alike

variable (R : Int → Int → Prop)

/-- The phrases have the same tokens, and lines that correspond. -/
structure Phrase.Alike (phrase other : Phrase) : Prop where
  line : R phrase.1 other.1
  tokens : Statement.tokens phrase.2 = Statement.tokens other.2

/-- Two pieces of code, the first statements of which are on `line` and `line'`, have the same
phrases in another layout. -/
abbrev Program.Alike (code : Program) (line : Int) (code' : Program) (line' : Int) : Prop :=
  List.Forall₂ (Phrase.Alike R) (code.phrases line) (code'.phrases line')

/-- The loops have the same guard, and code that is alike. -/
structure Loop.Alike (loop other : Loop) : Prop where
  guard : loop.guard = other.guard
  header : R loop.header other.header
  body : loop.body.Alike R loop.bodyLine other.body other.bodyLine
  rest : loop.rest.Alike R loop.restLine other.rest other.restLine
  iterations : loop.iterations = other.iterations

/-- The events are the same but for the lines and the blanks that they show. Where the body of a
loop begins and ends, blank statements may be. -/
inductive Event.Alike : Event → Event → Prop where
  | snapshot (store : Store) : Alike (.snapshot store) (.snapshot store)
  | entry {line line' : Int} {statement statement' : Statement} (hline : R line line')
      (htokens : Statement.tokens statement = Statement.tokens statement') :
      Alike (.entry line statement) (.entry line' statement')
  | finished : Alike .finished .finished
  | printed (value : Int) : Alike (.printed value) (.printed value)
  | ignored {line line' : Int} (keyword : Keyword) (hline : R line line') :
      Alike (.ignored keyword line) (.ignored keyword line')
  | resolved {header header' : Int} (first last first' last' : Int) (hline : R header header') :
      Alike (.resolved header first last) (.resolved header' first' last')
  | left {header header' : Int} (iterations : Nat) (hline : R header header') :
      Alike (.left header iterations) (.left header' iterations)

/-- The same has been done, but for the lines and the blanks in the log. -/
structure Account.Alike (a b : Account) : Prop where
  store : a.store = b.store
  steps : a.steps = b.steps
  log : List.Forall₂ (Event.Alike R) a.log b.log

/-- The machines have done the same and have the same to do, in another layout. -/
structure Machine.Alike (m n : Machine) : Prop where
  code : m.code.Alike R m.line n.code n.line
  loops : List.Forall₂ (Loop.Alike R) m.loops n.loops
  account : m.account.Alike R n.account

/-- The same fault on another line. -/
def Fault.onLine (line : Int) : Fault → Fault
  | missingOperand _ => missingOperand line
  | unexpectedToken _ token => unexpectedToken line token
  | reservedToken _ token => reservedToken line token
  | undefinedVariable _ name => undefinedVariable line name
  | unterminatedBlock _ => unterminatedBlock line
  | stepLimit _ limit => stepLimit line limit

/-- The faults are the same but for their lines, which correspond. -/
structure Fault.Alike (fault other : Fault) : Prop where
  line : R fault.line other.line
  same : other = fault.onLine other.line

/-- Both results are errors, or neither is, and they are related. -/
inductive Matched {ε α β : Type} (E : ε → ε → Prop) (A : α → β → Prop) :
    Except ε α → Except ε β → Prop where
  | error {e e' : ε} (h : E e e') : Matched E A (.error e) (.error e')
  | ok {a : α} {b : β} (h : A a b) : Matched E A (.ok a) (.ok b)

/-- Both stopped early for the same reason. -/
inductive Stop.Alike : Stop → Stop → Prop where
  | fault {fault other : Fault} (h : fault.Alike R other) : Alike (.fault fault) (.fault other)
  | position (error : PositionError) : Alike (.position error) (.position error)
  | unwritable : Alike .unwritable .unwritable

/-- Both ended the same way, but for lines and blanks. -/
structure Verdict.Alike (v w : Verdict) : Prop where
  account : v.account.Alike R w.account
  stop : Option.Rel (Stop.Alike R) v.stop w.stop

/-- The transitions lead to what is alike. -/
inductive Machine.Outcome.Alike : Outcome → Outcome → Prop where
  | running {m n : Machine} (h : m.Alike R n) : Alike (.running m) (.running n)
  | finished : Alike .finished .finished
  | failed {fault other : Fault} {m n : Machine} (hfault : fault.Alike R other)
      (h : m.Alike R n) : Alike (.failed fault m) (.failed other n)

end Alike

variable {R : Int → Int → Prop}

/-! ## Faults and lines -/

namespace Fault

variable (fault : Fault) (line : Int)

@[simp] theorem line_onLine : (fault.onLine line).line = line := by cases fault <;> rfl

@[simp] theorem kind_onLine : (fault.onLine line).kind = fault.kind := by cases fault <;> rfl

@[simp] theorem token?_onLine : (fault.onLine line).token? = fault.token? := by cases fault <;> rfl

theorem alike_onLine {fault : Fault} {line : Int} (h : R fault.line line) :
    fault.Alike R (fault.onLine line) where
  line := by rwa [line_onLine]
  same := by rw [line_onLine]

end Fault

namespace Command

variable {store : Store} {line line' : Int} {word : Text} {operands : List Text}

theorem single_onLine (command : Text → Command) (operand : Text) (more : List Text) :
    single command line' operand more =
      (single command line operand more).mapError (Fault.onLine line') := by
  cases more <;> rfl

theorem loopHeader_onLine (guard : Text) (tail : List Text) :
    loopHeader store line' guard tail =
      (loopHeader store line guard tail).mapError (Fault.onLine line') := by
  simp only [loopHeader]
  split
  · split
    · rfl
    · split
      · rfl
      · split <;> rfl
  · rfl

/-- A statement reads the same on any line. -/
theorem read_onLine (line line' : Int) : read store line' word operands =
    (read store line word operands).mapError (Fault.onLine line') := by
  simp only [read]
  cases Keyword.ofText? word with
  | none => rfl
  | some keyword =>
    cases operands with
    | nil => rfl
    | cons operand more =>
      simp only
      split
      · rfl
      · cases keyword with
        | clear | increment | decrement | print => exact single_onLine _ operand more
        | conditional | function => rfl
        | loop => exact loopHeader_onLine operand more

end Command

/-! ## Transitions -/

theorem Phrase.Alike.role_eq {phrase other : Phrase} (h : Phrase.Alike R phrase other) :
    Statement.role phrase.2 = Statement.role other.2 := by
  rw [Statement.role, Statement.role, h.tokens]

namespace Machine

variable {m n : Machine} {o : Options} {line line' : Int} {rest rest' : Program}
  {restLine restLine' : Int}

theorem Alike.goto (h : m.Alike R n)
    (hrest : rest.Alike R restLine rest' restLine') :
    (m.goto rest restLine).Alike R (n.goto rest' restLine') :=
  ⟨hrest, h.loops, h.account⟩

theorem Alike.emit {event other : Event} (h : m.Alike R n) (he : event.Alike R other) :
    (m.emit event).Alike R (n.emit other) :=
  ⟨h.code, h.loops, h.account.store, h.account.steps, .cons he h.account.log⟩

theorem Alike.tick (h : m.Alike R n) : m.tick.Alike R n.tick :=
  ⟨h.code, h.loops, h.account.store, congrArg (· + 1) h.account.steps, h.account.log⟩

theorem Alike.store_eq (h : m.Alike R n) : m.store = n.store := h.account.store

theorem Alike.withStore (h : m.Alike R n) (store : Store) :
    ({ m with store } : Machine).Alike R { n with store } :=
  ⟨h.code, h.loops, rfl, h.account.steps, h.account.log⟩

theorem Alike.announce {statement statement' : Statement} (h : m.Alike R n) (hline : R line line')
    (htokens : Statement.tokens statement = Statement.tokens statement') :
    (m.announce o line statement).Alike R (n.announce o line' statement') := by
  simp only [Machine.announce]
  split
  · rw [h.store_eq]
    exact (h.emit (.snapshot n.store)).emit (.entry hline htokens)
  · exact h

/-- Both steps are counted, or neither is. -/
theorem Alike.count {k k' : Machine → Outcome} (h : m.Alike R n) (hline : R line line')
    (hk : (k m.tick).Alike R (k' n.tick)) : (m.count o line k).Alike R (n.count o line' k') := by
  have hbudget : n.tick.exceeded? o = m.tick.exceeded? o := by
    have hsteps : n.tick.steps = m.tick.steps := h.tick.account.steps.symm
    simp only [exceeded?, hsteps]
  simp only [Machine.count, hbudget]
  split
  · exact .failed (Fault.alike_onLine hline) h.tick
  · exact hk

/-- A command does the same in another layout. -/
theorem Alike.perform (h : m.Alike R n) (hline : R line line')
    (hrest : rest.Alike R restLine rest' restLine')
    (command : Command) :
    Matched (Fault.Alike R) (Machine.Alike R) (m.perform line rest restLine command)
      (n.perform line' rest' restLine' command) := by
  cases command with
  | clear name =>
    simp only [Machine.perform, h.store_eq]
    exact .ok ((h.withStore _).goto hrest)
  | ignore keyword => exact .ok ((h.emit (.ignored keyword hline)).goto hrest)
  | increment name =>
    simp only [Machine.perform, Store.increment, Store.get, h.store_eq]
    cases n.store.get? name with
    | none => exact .error (Fault.alike_onLine hline)
    | some value => exact .ok ((h.withStore _).goto hrest)
  | decrement name =>
    simp only [Machine.perform, Store.decrement, Store.get, h.store_eq]
    cases n.store.get? name with
    | none => exact .error (Fault.alike_onLine hline)
    | some value => exact .ok ((h.withStore _).goto hrest)
  | print name =>
    simp only [Machine.perform, Store.get, h.store_eq]
    cases n.store.get? name with
    | none => exact .error (Fault.alike_onLine hline)
    | some value => exact .ok ((h.emit (.printed value)).goto hrest)
  | loop guard =>
    have hcut := Block.cut?_forall₂ (fun _ _ hphrase => Phrase.Alike.role_eq hphrase) 0 hrest
    rw [Block.cut?_phrases, Block.cut?_phrases] at hcut
    simp only [Machine.perform]
    cases hblock : Block.split? 0 rest with
    | none =>
      cases hblock' : Block.split? 0 rest' with
      | some => simp [hblock, hblock'] at hcut
      | none => exact .error (Fault.alike_onLine hline)
    | some block =>
      cases hblock' : Block.split? 0 rest' with
      | none => simp [hblock, hblock'] at hcut
      | some block' =>
        rw [hblock, hblock', Option.map_some, Option.map_some, Option.rel_some_some] at hcut
        have hresolved := h.emit (.resolved restLine (restLine + block.body.length) restLine'
          (restLine' + block'.body.length) hline)
        exact .ok ⟨.nil, .cons ⟨rfl, hline, hcut.1, hcut.2, rfl⟩ h.loops, hresolved.account⟩

/-- A statement does the same in another layout. -/
theorem Alike.dispatch (h : m.Alike R n) (hline : R line line')
    (hrest : rest.Alike R restLine rest' restLine')
    (word : Text) (operands : List Text) :
    Matched (Fault.Alike R) (Machine.Alike R) (m.dispatch line word operands rest restLine)
      (n.dispatch line' word operands rest' restLine') := by
  simp only [Machine.dispatch, h.store_eq, Command.read_onLine line line']
  cases hread : Command.read n.store line word operands with
  | error fault =>
    rw [← Command.line_of_read hread] at hline
    exact .error (Fault.alike_onLine hline)
  | ok command => exact h.perform hline hrest command

/-! ## Blank statements -/

/-- The machine is at no blank statement. -/
def Settled (m : Machine) : Prop := ∀ statement ∈ m.code.head?, Statement.isBlank statement = false

/-- The machine has passed over the blank statements that it was at. -/
def settle (m : Machine) : Machine :=
  { m with
    code := m.code.dropWhile Statement.isBlank
    line := m.line + (m.code.takeWhile Statement.isBlank).length }

theorem settled_settle (m : Machine) : m.settle.Settled := by
  intro statement hstatement
  have hdrop := List.head?_dropWhile_not Statement.isBlank m.code
  rw [show (m.code.dropWhile Statement.isBlank).head? = some statement from hstatement] at hdrop
  simpa using hdrop

theorem Alike.settle (h : m.Alike R n) : m.Alike R n.settle := by
  have hcode : Program.Alike R m.code m.line n.settle.code n.settle.line := by
    rw [Machine.settle, Program.Alike, Program.phrases_dropWhile]
    exact h.code
  exact ⟨hcode, h.loops, h.account⟩

/-- A blank statement is passed over, and nothing is written. -/
theorem attempt_of_isBlank {statement : Statement} (hcode : m.code = statement :: rest)
    (hblank : Statement.isBlank statement = true) :
    m.attempt o = .ok (m.goto rest (m.line + 1)) := by
  have hstep : ({ m with log := [] } : Machine).step o =
      .running (({ m with log := [] } : Machine).goto rest (m.line + 1)) :=
    step_of_tokens_eq_nil hcode (List.isEmpty_iff.1 hblank)
  rw [attempt, hstep]
  rfl

theorem gives_settle (m : Machine) (o : Options) : m.Gives o (.ok m.settle) := by
  obtain ⟨code, line, loops, store, steps, log⟩ := m
  induction code generalizing line with
  | nil => simpa [settle] using Gives.refl _
  | cons statement rest ih =>
    cases hblank : Statement.isBlank statement with
    | false => simpa [settle, hblank] using Gives.refl _
    | true =>
      have hattempt : ({ code := statement :: rest, line, loops, store, steps, log } :
          Machine).attempt o = .ok { code := rest, line := line + 1, loops, store, steps, log } :=
        attempt_of_isBlank rfl hblank
      have hnext := Gives.step hattempt (ih (line + 1))
      have hline : line + 1 + ((rest.takeWhile Statement.isBlank).length : Int) =
        line + ((rest.takeWhile Statement.isBlank).length + 1) := by omega
      simpa [settle, hblank, hline] using hnext

/-! ## Transitions away from blank statements -/

/-- Back at the header of a loop, both machines do the same. -/
theorem Alike.iterate {loop other : Loop} {outer others : List Loop} (h : m.Alike R n)
    (hloop : loop.Alike R other) (houter : List.Forall₂ (Loop.Alike R) outer others) :
    (m.iterate o loop outer).Alike R (n.iterate o other others) := by
  have hget : m.store.get? loop.guard = n.store.get? other.guard := by
    rw [h.store_eq, hloop.guard]
  simp only [Machine.iterate, hget]
  split
  · exact .failed ⟨hloop.header, by rw [hloop.guard]; rfl⟩ h
  · split
    · have hleft : ({ m with loops := outer } : Machine).Alike R { n with loops := others } :=
        ⟨h.code, houter, h.account⟩
      rw [hloop.iterations]
      exact .running ((hleft.emit (.left other.iterations hloop.header)).goto hloop.rest)
    · refine h.count hloop.header (.running ⟨hloop.body, .cons ?_ houter, h.tick.account⟩)
      exact ⟨hloop.guard, hloop.header, hloop.body, hloop.rest,
        congrArg (· + 1) hloop.iterations⟩

/-- The code of a machine that is at no blank statement: its first phrase, or nothing. -/
theorem Settled.code_eq_nil (hm : m.Settled) (h : m.code.phrases m.line = []) : m.code = [] := by
  cases hcode : m.code with
  | nil => rfl
  | cons statement rest =>
    have hblank := hm statement (by rw [hcode]; rfl)
    rw [hcode, Program.phrases_cons_of_not_isBlank hblank] at h
    cases h

theorem Settled.exists_code {phrase : Phrase} {phrases : List Phrase} (hm : m.Settled)
    (h : m.code.phrases m.line = phrase :: phrases) :
    ∃ rest, m.code = phrase.2 :: rest ∧ phrase.1 = m.line ∧
      Statement.isBlank phrase.2 = false ∧ Program.phrases (m.line + 1) rest = phrases := by
  cases hcode : m.code with
  | nil => simp [hcode] at h
  | cons statement rest =>
    have hblank := hm statement (by rw [hcode]; rfl)
    rw [hcode, Program.phrases_cons_of_not_isBlank hblank] at h
    cases h
    exact ⟨rest, rfl, rfl, hblank, rfl⟩

/-- Away from blank statements, machines that are alike make transitions that are alike. -/
theorem step_alike (h : m.Alike R n) (hm : m.Settled) (hn : n.Settled) :
    (m.step o).Alike R (n.step o) := by
  have hcode : List.Forall₂ (Phrase.Alike R) (m.code.phrases m.line) (n.code.phrases n.line) :=
    h.code
  generalize hphrases : m.code.phrases m.line = phrases at hcode
  generalize hphrases' : n.code.phrases n.line = phrases' at hcode
  cases hcode with
  | nil =>
    have hcode := hm.code_eq_nil hphrases
    have hcode' := hn.code_eq_nil hphrases'
    have hloops := h.loops
    generalize hml : m.loops = loops at hloops
    generalize hnl : n.loops = loops' at hloops
    cases hloops with
    | nil =>
      simp only [step, hcode, hcode', hml, hnl]
      exact .finished
    | cons hloop houter =>
      rw [step_of_loops hcode hml, step_of_loops hcode' hnl]
      exact h.iterate hloop houter
  | @cons phrase other _ _ hphrase hrest =>
    obtain ⟨rest, hcode, hline, hblank, rfl⟩ := hm.exists_code hphrases
    obtain ⟨rest', hcode', hline', -, rfl⟩ := hn.exists_code hphrases'
    obtain ⟨hlines, htokens⟩ := hphrase
    rw [hline, hline'] at hlines
    rw [step, step, hcode, hcode']
    simp only [← htokens]
    cases hwords : Statement.tokens phrase.2 with
    | nil => simp [Statement.isBlank, hwords] at hblank
    | cons word operands =>
      refine h.count hlines ?_
      have hannounced := h.tick.announce (o := o) hlines htokens
      have hline : (m.tick.announce o m.line phrase.2).line = m.line := line_arrive m o phrase.2
      have hline' : (n.tick.announce o n.line other.2).line = n.line := line_arrive n o other.2
      have hdispatch := hannounced.dispatch hlines hrest word operands
      simp only [show m.tick.line = m.line from rfl, show n.tick.line = n.line from rfl, hline,
        hline']
      generalize (m.tick.announce o m.line phrase.2).dispatch _ _ _ _ _ = result at hdispatch ⊢
      generalize (n.tick.announce o n.line other.2).dispatch _ _ _ _ _ = result' at hdispatch ⊢
      cases hdispatch with
      | error hfault => exact .failed hfault hannounced
      | ok hnext => exact .running hnext

/-- A machine that is not at a blank statement does what the other one does behind its own. -/
theorem Alike.settled_or_skip (h : m.Alike R n) : (m.Settled ∧ m.Alike R n.settle) ∨
    ∃ statement rest, m.code = statement :: rest ∧ Statement.isBlank statement = true ∧
      (m.goto rest (m.line + 1)).Alike R n := by
  cases hcode : m.code with
  | nil => exact .inl ⟨fun statement hstatement => by simp [hcode] at hstatement, h.settle⟩
  | cons statement rest =>
    cases hblank : Statement.isBlank statement with
    | true =>
      have hphrases := h.code
      rw [hcode, Program.Alike, Program.phrases_cons_of_isBlank hblank] at hphrases
      exact .inr ⟨statement, rest, rfl, hblank, hphrases, h.loops, h.account⟩
    | false =>
      refine .inl ⟨fun first hfirst => ?_, h.settle⟩
      rw [hcode, List.head?_cons, Option.mem_some_iff] at hfirst
      exact hfirst ▸ hblank

end Machine

end CounterLang
