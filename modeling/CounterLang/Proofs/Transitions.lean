import CounterLang.Machine.Run

/-!
# Transitions

One case for each thing that a transition can do, with what the case needs. Facts about runs are
proved by going through these cases.

## Main definitions

* `Command.Spelled`: the tokens of a statement without a fault, and its command.
* `Command.Faulty`: the faults that tokens can have.
* `Machine.Performance`: what becomes of a command that is carried out.
* `Machine.Transition`: what becomes of a machine that makes a transition.
* `Machine.relog`: a machine with a function applied to its log.
* `Machine.behind`: a machine with older events behind its log.

## Main statements

* `Command.spelled_of_read`, `Command.faulty_of_read`: what a statement is read as.
* `Machine.transition`: a transition is one of the cases.
* `Machine.step_relog`: a transition does not look at the log.
* `Machine.step_behind`: it only puts events in front of the log.
-/

namespace CounterLang

namespace Command

/-- The variable that a command reads, other than the guard of a loop. -/
def operand? : Command → Option Text
  | increment name | decrement name | print name => some name
  | clear _ | ignore _ | loop _ => none

variable {store : Store} {line : Int} {word : Text} {operands : List Text} {command : Command}

/-- The tokens of a statement without a fault, and its command. -/
inductive Spelled : List Text → Command → Prop where
  | clear (name : Text) : Spelled [Keyword.clear.text, name] (.clear name)
  | increment (name : Text) : Spelled [Keyword.increment.text, name] (.increment name)
  | decrement (name : Text) : Spelled [Keyword.decrement.text, name] (.decrement name)
  | print (name : Text) : Spelled [Keyword.print.text, name] (.print name)
  | conditional (name : Text) (more : List Text) :
      Spelled (Keyword.conditional.text :: name :: more) (.ignore .conditional)
  | function (name : Text) (more : List Text) :
      Spelled (Keyword.function.text :: name :: more) (.ignore .function)
  | loop (guard : Text) : Spelled (Keyword.loop.text :: guard :: headerTail) (.loop guard)

theorem eq_of_mismatch?_eq_none {expected actual : List Text}
    (hlength : actual.length = expected.length) (h : mismatch? expected actual = none) :
    actual = expected := by
  rw [mismatch?, Option.map_eq_none_iff, List.find?_eq_none] at h
  induction expected generalizing actual with
  | nil => exact List.eq_nil_of_length_eq_zero hlength
  | cons token expected ih =>
    cases actual with
    | nil => cases hlength
    | cons first actual =>
      obtain rfl : first = token := by simpa using h (token, first) List.mem_cons_self
      rw [ih (Nat.succ.inj hlength) fun pair hpair => h pair (List.mem_cons_of_mem _ hpair)]

theorem spelled_of_read (h : read store line word operands = .ok command) :
    Spelled (word :: operands) command := by
  simp only [read] at h
  split at h
  · cases h
  · rename_i keyword hk
    obtain rfl := Keyword.text_of_ofText?_eq_some hk
    split at h
    · cases h
    · rename_i name more
      split at h
      · cases h
      · cases keyword with
        | conditional =>
          cases h
          exact .conditional name more
        | function =>
          cases h
          exact .function name more
        | clear | increment | decrement | print =>
          cases more with
          | cons => cases h
          | nil =>
            cases h
            constructor
        | loop =>
          simp only [loopHeader] at h
          split at h
          · split at h
            · cases h
            · rename_i hlong
              split at h
              · cases h
              · rename_i hdrop
                split at h
                · cases h
                · rename_i hmatch
                  cases h
                  have hshort := List.drop_eq_nil_iff.1 hdrop
                  rw [eq_of_mismatch?_eq_none (by omega) hmatch]
                  exact .loop name
          · cases h

/-- Only the keyword of a loop makes a loop. -/
theorem read_eq_loop {guard : Text} (h : read store line word operands = .ok (.loop guard)) :
    word = Keyword.loop.text := by
  cases spelled_of_read h
  rfl

/-- The guard of a loop is the first operand of its header. -/
theorem head?_of_read_eq_loop {guard : Text}
    (h : read store line word operands = .ok (.loop guard)) : operands.head? = some guard := by
  cases spelled_of_read h
  rfl

/-- The keyword of a loop makes nothing but a loop. -/
theorem exists_loop_of_read (h : read store line Keyword.loop.text operands = .ok command) :
    ∃ guard, command = .loop guard := by
  have hspelled := spelled_of_read h
  generalize hword : Keyword.loop.text = word at hspelled
  cases hspelled with
  | loop guard => exact ⟨guard, rfl⟩
  | clear | increment | decrement | print | conditional | function =>
    exact absurd hword (by decide)

/-- A header whose guard is unknown has a fault. -/
theorem mem_of_read_eq_loop {guard : Text}
    (h : read store line word operands = .ok (.loop guard)) : guard ∈ store := by
  obtain rfl := read_eq_loop h
  simp only [read, Keyword.ofText?_text] at h
  split at h
  · cases h
  · split at h
    · cases h
    · simp only [loopHeader] at h
      split at h
      · rename_i hmem
        repeat' split at h
        all_goals cases h
        exact hmem
      · cases h

/-- The faults that the tokens of a statement can have. A token at fault is one of them. -/
inductive Faulty (line : Int) (tokens : List Text) : Fault → Prop where
  | missingOperand : Faulty line tokens (.missingOperand line)
  | unexpectedToken {token : Text} (h : token ∈ tokens) :
      Faulty line tokens (.unexpectedToken line token)
  | reservedToken {token : Text} (h : token ∈ tokens) :
      Faulty line tokens (.reservedToken line token)
  | undefinedVariable {name : Text} (h : name ∈ tokens) :
      Faulty line tokens (.undefinedVariable line name)

theorem mem_of_mismatch? {expected actual : List Text} {token : Text}
    (h : mismatch? expected actual = some token) : token ∈ actual := by
  obtain ⟨pair, hfind, rfl⟩ := Option.map_eq_some_iff.1 h
  exact (List.of_mem_zip (List.mem_of_find?_eq_some hfind)).2

theorem faulty_of_read {fault : Fault} (h : read store line word operands = .error fault) :
    Faulty line (word :: operands) fault := by
  simp only [read] at h
  split at h
  · cases h
    exact .unexpectedToken List.mem_cons_self
  · rename_i keyword _
    split at h
    · cases h
      exact .missingOperand
    · rename_i operand more
      have hoperand : operand ∈ word :: operand :: more := by simp
      have hmore : ∀ token ∈ more, token ∈ word :: operand :: more := by
        intro token htoken
        simp [htoken]
      split at h
      · cases h
        exact .reservedToken hoperand
      · cases keyword with
        | conditional | function => cases h
        | clear | increment | decrement | print =>
          cases more with
          | nil => cases h
          | cons extra more =>
            cases h
            exact .unexpectedToken (hmore extra List.mem_cons_self)
        | loop =>
          simp only [loopHeader] at h
          split at h
          · split at h
            · cases h
              exact .missingOperand
            · split at h
              · rename_i hdrop
                cases h
                exact .unexpectedToken
                  (hmore _ (List.mem_of_mem_drop (hdrop ▸ List.mem_cons_self)))
              · split at h
                · rename_i hmismatch
                  cases h
                  exact .unexpectedToken (hmore _ (mem_of_mismatch? hmismatch))
                · cases h
          · cases h
            exact .undefinedVariable hoperand

theorem line_of_read {fault : Fault} (h : read store line word operands = .error fault) :
    fault.line = line := by
  cases faulty_of_read h <;> rfl

end Command

namespace Machine

/-! ## Cases -/

/-- What becomes of a command of the statement on `line`, which is followed by `rest`. -/
inductive Performance (m : Machine) (line : Int) (rest : Program) (restLine : Int) :
    Command → Except Fault Machine → Prop where
  | clear (name : Text) : Performance m line rest restLine (.clear name)
      (.ok ({ m with store := m.store.clear name }.goto rest restLine))
  | increment {name : Text} {value : Int} (hget : m.store.get? name = some value) :
      Performance m line rest restLine (.increment name)
        (.ok ({ m with store := m.store.set name (value + 1) }.goto rest restLine))
  | decrement {name : Text} {value : Int} (hget : m.store.get? name = some value) :
      Performance m line rest restLine (.decrement name)
        (.ok ({ m with store := m.store.set name (value - 1) }.goto rest restLine))
  | print {name : Text} {value : Int} (hget : m.store.get? name = some value) :
      Performance m line rest restLine (.print name)
        (.ok ((m.emit (.printed value)).goto rest restLine))
  | ignore (keyword : Keyword) : Performance m line rest restLine (.ignore keyword)
      (.ok ((m.emit (.ignored keyword line)).goto rest restLine))
  | undefined {command : Command} {name : Text} (hname : command.operand? = some name)
      (hget : m.store.get? name = none) :
      Performance m line rest restLine command (.error (.undefinedVariable line name))
  | loop {guard : Text} {block : Block} (hblock : Block.split? 0 rest = some block) :
      Performance m line rest restLine (.loop guard)
        (.ok ((m.emit (.resolved line restLine (restLine + block.body.length))).enter
          { guard, header := line, body := block.body, bodyLine := restLine, rest := block.rest,
            restLine := restLine + block.body.length + 1 }))
  | unterminated {guard : Text} (hblock : Block.split? 0 rest = none) :
      Performance m line rest restLine (.loop guard) (.error (.unterminatedBlock line))

/-- A command does what one of the cases says. -/
theorem performance (m : Machine) (line : Int) (rest : Program) (restLine : Int)
    (command : Command) :
    Performance m line rest restLine command (m.perform line rest restLine command) := by
  cases command with
  | clear name => exact .clear name
  | ignore keyword => exact .ignore keyword
  | increment name =>
    cases hget : m.store.get? name with
    | none =>
      have hfault : Performance m line rest restLine (.increment name)
          (.error (.undefinedVariable line name)) := .undefined rfl hget
      simpa [perform, Store.increment, Store.get, hget, Except.map] using hfault
    | some value => simpa [perform, Store.increment, Store.get, hget, Except.map] using
        Performance.increment hget
  | decrement name =>
    cases hget : m.store.get? name with
    | none =>
      have hfault : Performance m line rest restLine (.decrement name)
          (.error (.undefinedVariable line name)) := .undefined rfl hget
      simpa [perform, Store.decrement, Store.get, hget, Except.map] using hfault
    | some value => simpa [perform, Store.decrement, Store.get, hget, Except.map] using
        Performance.decrement hget
  | print name =>
    cases hget : m.store.get? name with
    | none =>
      have hfault : Performance m line rest restLine (.print name)
          (.error (.undefinedVariable line name)) := .undefined rfl hget
      simpa [perform, Store.get, hget, Except.map] using hfault
    | some value => simpa [perform, Store.get, hget, Except.map] using Performance.print hget
  | loop guard =>
    cases hblock : Block.split? 0 rest with
    | none => simpa [perform, hblock] using Performance.unterminated hblock
    | some block => simpa [perform, hblock] using Performance.loop hblock

theorem Performance.line_eq {m : Machine} {line : Int} {rest : Program} {restLine : Int}
    {command : Command} {fault : Fault}
    (h : m.Performance line rest restLine command (.error fault)) : fault.line = line := by
  cases h <;> rfl

/-- A command that is carried out has found the variable that it reads. -/
theorem Performance.mem_of_operand? {m next : Machine} {line : Int} {rest : Program}
    {restLine : Int} {command : Command} {name : Text}
    (h : m.Performance line rest restLine command (.ok next))
    (hname : command.operand? = some name) : name ∈ m.store := by
  cases h with
  | increment hget | decrement hget | print hget =>
    cases hname
    exact Store.get?_isSome_iff.1 (Option.isSome_of_eq_some hget)
  | clear | ignore | loop => cases hname

/-- A command goes on with the statements behind it, unless it is a loop, which is entered. -/
theorem Performance.goto_or_enter {m next : Machine} {line : Int} {rest : Program} {restLine : Int}
    {command : Command} (h : m.Performance line rest restLine command (.ok next)) :
    (∀ guard, command ≠ .loop guard) ∧ next.code = rest ∧ next.line = restLine ∧
        next.loops = m.loops ∨
      ∃ guard block, command = .loop guard ∧ Block.split? 0 rest = some block ∧ next.code = [] ∧
        next.line = restLine + block.body.length + 1 ∧ next.loops =
          { guard, header := line, body := block.body, bodyLine := restLine, rest := block.rest,
            restLine := restLine + block.body.length + 1 } :: m.loops := by
  cases h with
  | clear | increment | decrement | print | ignore => exact .inl ⟨by simp, rfl, rfl, rfl⟩
  | loop hblock => exact .inr ⟨_, _, rfl, hblock, rfl, rfl, rfl⟩

/-- The machine that has counted the step of a statement and shows the statement. -/
def arrive (m : Machine) (o : Options) (statement : Statement) : Machine :=
  m.tick.announce o m.line statement

section Arrive

variable (m : Machine) (o : Options) (statement : Statement)

@[simp] theorem store_arrive : (m.arrive o statement).store = m.store := by
  simp only [arrive, announce]; split <;> rfl

@[simp] theorem code_arrive : (m.arrive o statement).code = m.code := by
  simp only [arrive, announce]; split <;> rfl

@[simp] theorem line_arrive : (m.arrive o statement).line = m.line := by
  simp only [arrive, announce]; split <;> rfl

@[simp] theorem loops_arrive : (m.arrive o statement).loops = m.loops := by
  simp only [arrive, announce]; split <;> rfl

@[simp] theorem steps_arrive : (m.arrive o statement).steps = m.steps + 1 := by
  simp only [arrive, steps_announce, steps_tick]

end Arrive

section Step

variable {m next : Machine} {o : Options} {statement : Statement} {line : Int} {word : Text}
  {operands : List Text} {rest : Program} {restLine : Int} {command : Command} {fault : Fault}

theorem dispatch_of_read_ok (hread : Command.read m.store line word operands = .ok command) :
    m.dispatch line word operands rest restLine = m.perform line rest restLine command := by
  rw [dispatch, hread]
  rfl

theorem dispatch_of_read_error (hread : Command.read m.store line word operands = .error fault) :
    m.dispatch line word operands rest restLine = .error fault := by
  rw [dispatch, hread]
  rfl

/-- What is carried out is the command that the tokens are read as. -/
theorem exists_performance_of_dispatch
    (h : m.dispatch line word operands rest restLine = .ok next) :
    ∃ command, Command.read m.store line word operands = .ok command ∧
      m.Performance line rest restLine command (.ok next) := by
  cases hread : Command.read m.store line word operands with
  | error fault =>
    rw [dispatch_of_read_error hread] at h
    cases h
  | ok command =>
    rw [dispatch_of_read_ok hread] at h
    exact ⟨command, rfl, h ▸ m.performance line rest restLine command⟩

/-- A statement that is not carried out cannot be read, or its command cannot be carried out. -/
theorem read_or_performance_of_dispatch
    (h : m.dispatch line word operands rest restLine = .error fault) :
    Command.read m.store line word operands = .error fault ∨
      ∃ command, Command.read m.store line word operands = .ok command ∧
        m.Performance line rest restLine command (.error fault) := by
  cases hread : Command.read m.store line word operands with
  | error other =>
    rw [dispatch_of_read_error hread] at h
    cases h
    exact .inl rfl
  | ok command =>
    rw [dispatch_of_read_ok hread] at h
    exact .inr ⟨command, rfl, h ▸ m.performance line rest restLine command⟩

theorem step_of_loops {loop : Loop} {outer : List Loop} (hcode : m.code = [])
    (hloops : m.loops = loop :: outer) : m.step o = m.iterate o loop outer := by
  simp only [step, hcode, hloops]

/-- A blank statement is passed over. -/
theorem step_of_tokens_eq_nil (hcode : m.code = statement :: rest)
    (htokens : Statement.tokens statement = []) :
    m.step o = .running (m.goto rest (m.line + 1)) := by
  simp only [step, hcode, htokens]

theorem step_of_exceeded {limit : Limit} (hcode : m.code = statement :: rest)
    (htokens : Statement.tokens statement = word :: operands)
    (hbudget : m.tick.exceeded? o = some limit) :
    m.step o = .failed (.stepLimit m.line limit.text) m.tick := by
  simp only [step, hcode, htokens, count, hbudget]

/-- A statement that the budget allows is shown, and its command is carried out. -/
theorem step_of_dispatch_ok (hcode : m.code = statement :: rest)
    (htokens : Statement.tokens statement = word :: operands)
    (hbudget : m.tick.exceeded? o = none)
    (hdispatch : (m.arrive o statement).dispatch m.line word operands rest (m.line + 1) =
      .ok next) : m.step o = .running next := by
  rw [arrive] at hdispatch
  have hline : (m.tick.announce o m.line statement).line = m.line := line_arrive m o statement
  simp only [step, hcode, htokens, count, hbudget, show m.tick.line = m.line from rfl, hline,
    hdispatch]

theorem step_of_dispatch_error (hcode : m.code = statement :: rest)
    (htokens : Statement.tokens statement = word :: operands)
    (hbudget : m.tick.exceeded? o = none)
    (hdispatch : (m.arrive o statement).dispatch m.line word operands rest (m.line + 1) =
      .error fault) : m.step o = .failed fault (m.arrive o statement) := by
  rw [arrive] at hdispatch ⊢
  have hline : (m.tick.announce o m.line statement).line = m.line := line_arrive m o statement
  simp only [step, hcode, htokens, count, hbudget, show m.tick.line = m.line from rfl, hline,
    hdispatch]

end Step

/-- What becomes of a machine that makes a transition. -/
inductive Transition (o : Options) (m : Machine) : Outcome → Prop where
  | finish (hcode : m.code = []) (hloops : m.loops = []) : Transition o m .finished
  | lose {loop : Loop} {outer : List Loop} (hcode : m.code = []) (hloops : m.loops = loop :: outer)
      (hget : m.store.get? loop.guard = none) :
      Transition o m (.failed (.undefinedVariable loop.header loop.guard) m)
  | leave {loop : Loop} {outer : List Loop} (hcode : m.code = [])
      (hloops : m.loops = loop :: outer) (hget : m.store.get? loop.guard = some 0) :
      Transition o m (.running (({ m with loops := outer }.emit
        (.left loop.header loop.iterations)).goto loop.rest loop.restLine))
  | exhaust {loop : Loop} {outer : List Loop} {value : Int} {limit : Limit} (hcode : m.code = [])
      (hloops : m.loops = loop :: outer) (hget : m.store.get? loop.guard = some value)
      (hvalue : value ≠ 0) (hbudget : m.tick.exceeded? o = some limit) :
      Transition o m (.failed (.stepLimit loop.header limit.text) m.tick)
  | again {loop : Loop} {outer : List Loop} {value : Int} (hcode : m.code = [])
      (hloops : m.loops = loop :: outer) (hget : m.store.get? loop.guard = some value)
      (hvalue : value ≠ 0) (hbudget : m.tick.exceeded? o = none) :
      Transition o m (.running { m.tick with
        code := loop.body, line := loop.bodyLine,
        loops := { loop with iterations := loop.iterations + 1 } :: outer })
  | skip {statement : Statement} {rest : Program} (hcode : m.code = statement :: rest)
      (htokens : Statement.tokens statement = []) :
      Transition o m (.running (m.goto rest (m.line + 1)))
  | cut {statement : Statement} {rest : Program} {word : Text} {operands : List Text}
      {limit : Limit} (hcode : m.code = statement :: rest)
      (htokens : Statement.tokens statement = word :: operands)
      (hbudget : m.tick.exceeded? o = some limit) :
      Transition o m (.failed (.stepLimit m.line limit.text) m.tick)
  | reject {statement : Statement} {rest : Program} {word : Text} {operands : List Text}
      {fault : Fault} (hcode : m.code = statement :: rest)
      (htokens : Statement.tokens statement = word :: operands)
      (hbudget : m.tick.exceeded? o = none)
      (hread : Command.read m.store m.line word operands = .error fault) :
      Transition o m (.failed fault (m.arrive o statement))
  | fault {statement : Statement} {rest : Program} {word : Text} {operands : List Text}
      {command : Command} {fault : Fault} (hcode : m.code = statement :: rest)
      (htokens : Statement.tokens statement = word :: operands)
      (hbudget : m.tick.exceeded? o = none)
      (hread : Command.read m.store m.line word operands = .ok command)
      (hperform : (m.arrive o statement).Performance m.line rest (m.line + 1) command
        (.error fault)) :
      Transition o m (.failed fault (m.arrive o statement))
  | perform {statement : Statement} {rest : Program} {word : Text} {operands : List Text}
      {command : Command} {next : Machine} (hcode : m.code = statement :: rest)
      (htokens : Statement.tokens statement = word :: operands)
      (hbudget : m.tick.exceeded? o = none)
      (hread : Command.read m.store m.line word operands = .ok command)
      (hperform : (m.arrive o statement).Performance m.line rest (m.line + 1) command
        (.ok next)) :
      Transition o m (.running next)

/-- A transition is one of the cases. -/
theorem transition (o : Options) (m : Machine) : Transition o m (m.step o) := by
  cases hcode : m.code with
  | nil =>
    cases hloops : m.loops with
    | nil => simpa [step, hcode, hloops] using Transition.finish hcode hloops
    | cons loop outer =>
      rw [step_of_loops hcode hloops]
      simp only [iterate]
      split
      · exact .lose hcode hloops ‹_›
      · rename_i value hget
        split
        · subst value
          exact .leave hcode hloops hget
        · rename_i hvalue
          simp only [count]
          split
          · exact .exhaust hcode hloops hget hvalue ‹_›
          · exact .again hcode hloops hget hvalue ‹_›
  | cons statement rest =>
    cases htokens : Statement.tokens statement with
    | nil =>
      rw [step_of_tokens_eq_nil hcode htokens]
      exact .skip hcode htokens
    | cons word operands =>
      cases hbudget : m.tick.exceeded? o with
      | some limit =>
        rw [step_of_exceeded hcode htokens hbudget]
        exact .cut hcode htokens hbudget
      | none =>
        cases hread : Command.read (m.arrive o statement).store m.line word operands with
        | error fault =>
          rw [step_of_dispatch_error hcode htokens hbudget (dispatch_of_read_error hread)]
          exact .reject hcode htokens hbudget (by rwa [store_arrive] at hread)
        | ok command =>
          have hperform := (m.arrive o statement).performance m.line rest (m.line + 1) command
          have hdispatch : (m.arrive o statement).dispatch m.line word operands rest (m.line + 1) =
              (m.arrive o statement).perform m.line rest (m.line + 1) command :=
            dispatch_of_read_ok hread
          rw [store_arrive] at hread
          cases hp : (m.arrive o statement).perform m.line rest (m.line + 1) command with
          | error fault =>
            rw [step_of_dispatch_error hcode htokens hbudget (hdispatch.trans hp)]
            exact .fault hcode htokens hbudget hread (hp ▸ hperform)
          | ok next =>
            rw [step_of_dispatch_ok hcode htokens hbudget (hdispatch.trans hp)]
            exact .perform hcode htokens hbudget hread (hp ▸ hperform)

theorem transition_of_step {outcome : Outcome} (h : m.step o = outcome) :
    Transition o m outcome := by
  rw [← h]
  exact m.transition o

/-! ## The log -/

/-- The outcome with a function applied to the machine that it leads to. -/
def Outcome.map (f : Machine → Machine) : Outcome → Outcome
  | .running next => .running (f next)
  | .finished => .finished
  | .failed fault last => .failed fault (f last)

/-- The machine with a function applied to its log. -/
def relog (f : List Event → List Event) (m : Machine) : Machine := { m with log := f m.log }

/-- The machine with older events behind its log. -/
def behind (m : Machine) (past : List Event) : Machine := { m with log := m.log ++ past }

section Relog

variable {f : List Event → List Event} {m : Machine} {o o' : Options}

@[simp] theorem line_relog : (m.relog f).line = m.line := rfl

@[simp] theorem store_relog : (m.relog f).store = m.store := rfl

theorem count_relog {line : Int} {k k' : Machine → Outcome} (hlimit : o'.limit = o.limit)
    (hk : ∀ m, k' (m.relog f) = (k m).map (relog f)) :
    (m.relog f).count o' line k' = (m.count o line k).map (relog f) := by
  have hbudget : (m.relog f).tick.exceeded? o' = m.tick.exceeded? o := by
    simp only [exceeded?, hlimit]
    rfl
  simp only [count, hbudget]
  split
  · rfl
  · exact hk m.tick

variable (hkeep : ∀ event log, event.traceLine? = none → f (event :: log) = event :: f log)

include hkeep

theorem emit_relog {event : Event} (hevent : event.traceLine? = none) :
    (m.relog f).emit event = (m.emit event).relog f := by
  simp only [emit, relog, hkeep event m.log hevent]

/-- A command that is carried out does not look at the log. -/
theorem perform_relog (line : Int) (rest : Program) (restLine : Int) (command : Command) :
    (m.relog f).perform line rest restLine command =
      (m.perform line rest restLine command).map (relog f) := by
  cases command with
  | clear => rfl
  | ignore keyword =>
    have hevent : (Event.ignored keyword line).traceLine? = none := rfl
    simp only [perform, emit_relog hkeep hevent]
    rfl
  | increment name =>
    simp only [perform, store_relog]
    cases m.store.increment name line <;> rfl
  | decrement name =>
    simp only [perform, store_relog]
    cases m.store.decrement name line <;> rfl
  | print name =>
    simp only [perform, store_relog]
    cases m.store.get name line with
    | error => rfl
    | ok value =>
      have hevent : (Event.printed value).traceLine? = none := rfl
      simp only [Except.map, emit_relog hkeep hevent]
      rfl
  | loop guard =>
    simp only [perform]
    cases Block.split? 0 rest with
    | none => rfl
    | some block =>
      have hevent : (Event.resolved line restLine (restLine + block.body.length)).traceLine? =
        none := rfl
      simp only [emit_relog hkeep hevent]
      rfl

theorem dispatch_relog (line : Int) (word : Text) (operands : List Text) (rest : Program)
    (restLine : Int) :
    (m.relog f).dispatch line word operands rest restLine =
      (m.dispatch line word operands rest restLine).map (relog f) := by
  simp only [dispatch, store_relog]
  cases Command.read m.store line word operands with
  | error fault => rfl
  | ok command => exact perform_relog hkeep line rest restLine command

/-- A transition does not look at the log, so it comes to the same whatever is done to the log, as
long as that goes well with the events that the transition puts in front of it. -/
theorem step_relog (hlimit : o'.limit = o.limit)
    (hannounce : ∀ (m : Machine) line statement,
      (m.relog f).announce o' line statement = (m.announce o line statement).relog f)
    (m : Machine) : (m.relog f).step o' = (m.step o).map (relog f) := by
  cases hcode : m.code with
  | nil =>
    have hcode' : (m.relog f).code = [] := hcode
    cases hloops : m.loops with
    | nil =>
      have hloops' : (m.relog f).loops = [] := hloops
      simp only [step, hcode, hcode', hloops, hloops', Outcome.map]
    | cons loop outer =>
      have hloops' : (m.relog f).loops = loop :: outer := hloops
      rw [step_of_loops hcode hloops, step_of_loops hcode' hloops']
      simp only [iterate, store_relog]
      split
      · rfl
      · split
        · have hevent : (Event.left loop.header loop.iterations).traceLine? = none := rfl
          have hemit := emit_relog (m := { m with loops := outer }) hkeep hevent
          exact congrArg (fun m => Outcome.running (m.goto loop.rest loop.restLine)) hemit
        · exact count_relog hlimit fun _ => rfl
  | cons statement rest =>
    rw [step, step, show (m.relog f).code = statement :: rest from hcode, hcode]
    simp only
    split
    · rfl
    · refine count_relog hlimit fun m => ?_
      simp only [hannounce, dispatch_relog hkeep, line_relog]
      generalize (m.announce o m.line statement).dispatch _ _ _ _ _ = result
      cases result <;> rfl

end Relog

variable {m : Machine} {past : List Event} {o : Options}

theorem dispatch_behind (line : Int) (word : Text) (operands : List Text) (rest : Program)
    (restLine : Int) :
    (m.behind past).dispatch line word operands rest restLine =
      (m.dispatch line word operands rest restLine).map (·.behind past) :=
  dispatch_relog (f := (· ++ past)) (fun _ _ _ => rfl) line word operands rest restLine

/-- A transition only puts events in front of its log. -/
theorem step_behind (m : Machine) (past : List Event) (o : Options) :
    (m.behind past).step o = (m.step o).map (·.behind past) := by
  refine step_relog (f := (· ++ past)) (fun _ _ _ => rfl) rfl (fun m line statement => ?_) m
  simp only [announce]
  split <;> rfl

end Machine

end CounterLang
