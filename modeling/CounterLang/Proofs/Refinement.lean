import CounterLang.Proofs.Budget
import CounterLang.Proofs.Outline

/-!
# Walks along an outline

The walk of a program that comes from an outline does what the evaluation of the outline does: it
writes the same events, counts the same steps, ends with the same store and for the same reason, and
goes on for ever if the evaluation gives nothing.

## Main definitions

* `Account.machine`: a machine that has done this and stands anywhere in a program.

## Main statements

* `Machine.attempt_leaf`, `Machine.attempt_header`, `Machine.attempt_cycle`: an attempt does what
  the evaluation does at this place.
* `Account.gives_of_cycle`, `Outline.gives_of_evaluate`: a machine does what is evaluated.
* `Account.exists_cycle`, `Outline.exists_evaluate`: where a machine ends, there is something that
  is evaluated.
* `Outline.walk?_flatten`: a walk and the evaluation of the outline agree.
-/

namespace CounterLang

/-- The command of a statement that opens no block is no loop. -/
theorem Command.ne_loop_of_role {store : Store} {line : Int} {statement : Statement} {word : Text}
    {operands : List Text} {command : Command} (hplain : Statement.role statement = .plain)
    (htokens : Statement.tokens statement = word :: operands)
    (hread : read store line word operands = .ok command) (guard : Text) :
    command ≠ .loop guard := by
  rintro rfl
  have hheader := (Statement.isLoopHeader_iff htokens).2 (read_eq_loop hread)
  simp [Statement.role_eq_opener_of_isLoopHeader hheader] at hplain

namespace Account

variable {o : Options} {a : Account} {line : Int} {statement : Statement} {word : Text}
  {operands : List Text}

/-- The machine that has done this and has some statements to run inside some loops. -/
def machine (a : Account) (code : Program) (line : Int) (loops : List Loop) : Machine :=
  { code, line, loops, store := a.store, steps := a.steps, log := a.log }

/-- Writing leaves the store and the number of steps as they are. -/
theorem writeAll_bind_congr {α : Type} {events : List Event} {f g : Account → Except Verdict α}
    (h : ∀ b : Account, b.store = a.store → b.steps = a.steps → f b = g b) :
    a.writeAll events >>= f = a.writeAll events >>= g := by
  rw [writeAll_eq]
  split
  · exact h _ rfl rfl
  · rfl

theorem writeAll_singleton (a : Account) (event : Event) : a.writeAll [event] = a.write event := by
  rw [writeAll_cons]
  cases a.write event <;> rfl

theorem count_of_exceeded?_eq_some {m : Machine} {limit : Limit}
    (h : m.tick.exceeded? o = some limit) (hsteps : m.steps = a.steps) :
    a.count o line =
      .error ({ a with steps := a.steps + 1 }.fail (.stepLimit line limit.text)) := by
  obtain ⟨hl, hlt⟩ := Machine.exceeded?_eq_some.1 h
  rw [Machine.steps_tick, hsteps] at hlt
  simp only [count, hl, if_pos hlt]

theorem count_of_exceeded?_eq_none {m : Machine} (h : m.tick.exceeded? o = none)
    (hsteps : m.steps = a.steps) : a.count o line = .ok { a with steps := a.steps + 1 } := by
  rw [Machine.exceeded?_eq_none, Machine.steps_tick, hsteps] at h
  cases hl : o.limit with
  | none => simp only [count, hl]
  | some limit => simp only [count, hl, if_neg (Int.not_lt.2 (h limit hl))]

theorem consider_eq (htokens : Statement.tokens statement = word :: operands)
    (hcount : a.count o line = .ok { a with steps := a.steps + 1 }) :
    a.consider o line statement =
      { a with steps := a.steps + 1 }.writeAll (a.shown o line statement) >>= fun b =>
        (Command.read b.store line word operands).mapError b.fail >>= fun command =>
          .ok (some command, b) := by
  simp only [consider, htokens, hcount]
  rfl

/-- A statement that has been considered is blank, or has the command that its tokens make. -/
theorem cases_of_consider {b : Account} {command? : Option Command}
    (h : a.consider o line statement = .ok (command?, b)) :
    command? = none ∧ Statement.tokens statement = [] ∨
      ∃ word operands command, command? = some command ∧
        Statement.tokens statement = word :: operands ∧
        Command.read b.store line word operands = .ok command := by
  rw [consider] at h
  cases htokens : Statement.tokens statement with
  | nil =>
    simp only [htokens] at h
    cases h
    exact .inl ⟨rfl, rfl⟩
  | cons word operands =>
    simp only [htokens, bind, Except.bind] at h
    split at h
    · cases h
    · split at h
      · cases h
      · rename_i c _
        cases hread : Command.read c.store line word operands with
        | error fault => simp [hread, Except.mapError] at h
        | ok command =>
          simp only [hread, Except.mapError] at h
          cases h
          exact .inr ⟨word, operands, command, rfl, rfl, hread⟩

end Account

/-! ## Attempts -/

namespace Machine

variable {o : Options} {a : Account} {rest : Program} {line : Int} {loops : List Loop}
  {statement : Statement} {shown : List Event} {next last : Machine} {fault : Fault}

/-- What an attempt does once the command of the first statement is known, if it has one. -/
def proceed (m : Machine) (rest : Program) (a : Account) : Option Command → Except Verdict Machine
  | none => .ok (a.machine rest (m.line + 1) m.loops)
  | some command =>
    match m.perform m.line rest (m.line + 1) command with
    | .ok next => a.writeAll next.log.reverse >>= fun b => .ok { next with log := b.log }
    | .error fault => .error (a.fail fault)

theorem arrive_eq_behind (a : Account) (o : Options) (code : Program) (line : Int)
    (loops : List Loop) (statement : Statement) :
    ({ a with log := [] }.machine code line loops).arrive o statement =
      ({ a with steps := a.steps + 1, log := [] }.machine code line loops).behind
        (a.shown o line statement).reverse := by
  simp only [arrive, announce, Account.shown]
  split <;> rfl

theorem write_running_behind (hsteps : next.steps = a.steps + 1) :
    Outcome.write a (.running (next.behind shown.reverse)) =
      { a with steps := a.steps + 1 }.writeAll shown >>= fun b =>
        b.writeAll next.log.reverse >>= fun c => .ok { next with log := c.log } := by
  rw [Outcome.write, behind, hsteps, List.reverse_append, List.reverse_reverse,
    Account.writeAll_append, bind_assoc]

theorem write_failed_behind (hlog : last.log = []) (hsteps : last.steps = a.steps + 1)
    (hstore : last.store = a.store) :
    Outcome.write a (.failed fault (last.behind shown.reverse)) =
      { a with steps := a.steps + 1 }.writeAll shown >>= fun b => .error (b.fail fault) := by
  rw [Outcome.write, behind, hlog, hsteps, List.nil_append, List.reverse_reverse]
  refine Account.writeAll_bind_congr fun b hb _ => ?_
  rw [hstore, ← hb]

/-- A statement is attempted by considering it and going on with its command. -/
theorem attempt_statement (a : Account) (o : Options) (statement : Statement) (rest : Program)
    (line : Int) (loops : List Loop) :
    (a.machine (statement :: rest) line loops).attempt o =
      a.consider o line statement >>= fun result =>
        ({ result.2 with log := [] }.machine (statement :: rest) line loops).proceed rest result.2
          result.1 := by
  let m := { a with log := [] }.machine (statement :: rest) line loops
  change (m.step o).write a = _
  cases htokens : Statement.tokens statement with
  | nil =>
    rw [step_of_tokens_eq_nil rfl htokens, Account.consider, htokens]
    rfl
  | cons word operands =>
    let t := { a with steps := a.steps + 1, log := [] }.machine (statement :: rest) line loops
    cases hbudget : m.tick.exceeded? o with
    | some limit =>
      have hcount : a.count o line = _ := Account.count_of_exceeded?_eq_some hbudget rfl
      rw [step_of_exceeded rfl htokens hbudget]
      simp only [Account.consider, htokens, hcount]
      rfl
    | none =>
      have harrive : m.arrive o statement = t.behind (a.shown o line statement).reverse :=
        arrive_eq_behind a o _ line loops statement
      have hdispatch : (m.arrive o statement).dispatch line word operands rest (line + 1) =
          (t.dispatch line word operands rest (line + 1)).map
            (·.behind (a.shown o line statement).reverse) := by
        rw [harrive, dispatch_behind]
      -- What was counted and shown since `a` has changed nothing that the command depends on.
      have hsame : ∀ b : Account, b.store = a.store → b.steps = a.steps + 1 →
          { b with log := [] }.machine (statement :: rest) line loops = t := by
        rintro ⟨store, steps, log⟩ rfl rfl
        rfl
      rw [Account.consider_eq htokens (Account.count_of_exceeded?_eq_none hbudget rfl), bind_assoc]
      cases hread : Command.read t.store line word operands with
      | error fault =>
        rw [dispatch_of_read_error hread] at hdispatch
        rw [step_of_dispatch_error rfl htokens hbudget hdispatch, harrive]
        refine (write_failed_behind rfl rfl rfl).trans
          (Account.writeAll_bind_congr fun b hb _ => ?_)
        have hreadb : Command.read b.store line word operands = .error fault := by rwa [hb]
        rw [hreadb]
        rfl
      | ok command =>
        rw [dispatch_of_read_ok hread] at hdispatch
        cases hperform : t.perform line rest (line + 1) command with
        | error fault =>
          rw [hperform] at hdispatch
          rw [step_of_dispatch_error rfl htokens hbudget hdispatch, harrive]
          refine (write_failed_behind rfl rfl rfl).trans
            (Account.writeAll_bind_congr fun b hb hbsteps => ?_)
          have hreadb : Command.read b.store line word operands = .ok command := by rwa [hb]
          rw [hreadb]
          simp only [bind, Except.bind, Except.mapError, hsame b hb hbsteps, proceed]
          rw [show t.perform t.line rest (t.line + 1) command = _ from hperform]
        | ok next =>
          rw [hperform] at hdispatch
          rw [step_of_dispatch_ok rfl htokens hbudget hdispatch]
          refine (write_running_behind (steps_of_perform_eq_ok hperform)).trans
            (Account.writeAll_bind_congr fun b hb hbsteps => ?_)
          have hreadb : Command.read b.store line word operands = .ok command := by rwa [hb]
          rw [hreadb]
          simp only [bind, Except.bind, Except.mapError, hsame b hb hbsteps, proceed]
          rw [show t.perform t.line rest (t.line + 1) command = _ from hperform]

/-- A command other than a loop is gone on with as it is carried out. -/
theorem proceed_of_ne_loop {code : Program} {command : Command}
    (hloop : ∀ guard, command ≠ .loop guard) :
    ({ a with log := [] }.machine code line loops).proceed rest a (some command) =
      a.carryOut line command >>= fun b => .ok (b.machine rest (line + 1) loops) := by
  simp only [proceed, Account.machine]
  cases command with
  | loop => exact absurd rfl (hloop _)
  | clear => rfl
  | ignore => rfl
  | increment name =>
    simp only [perform, Account.carryOut]
    cases a.store.increment name line <;> rfl
  | decrement name =>
    simp only [perform, Account.carryOut]
    cases a.store.decrement name line <;> rfl
  | print name =>
    simp only [perform, Account.carryOut]
    cases a.store.get name line with
    | error => rfl
    | ok value =>
      simp only [Except.map, Except.mapError, emit, goto, List.reverse_singleton,
        Account.writeAll_singleton]
      cases hwrite : (Event.printed value).isWritable <;>
        simp [Account.write, hwrite, bind, Except.bind]

/-- A statement that opens no block is attempted as it is performed. -/
theorem attempt_leaf (a : Account) (hplain : Statement.role statement = .plain) :
    (a.machine (statement :: rest) line loops).attempt o =
      a.perform o line statement >>= fun b => .ok (b.machine rest (line + 1) loops) := by
  rw [attempt_statement, Account.perform, bind_assoc]
  cases hconsider : a.consider o line statement with
  | error => rfl
  | ok result =>
    obtain ⟨command?, b⟩ := result
    rcases Account.cases_of_consider hconsider with ⟨rfl, -⟩ |
      ⟨word, operands, command, rfl, htokens, hread⟩
    · rfl
    · exact proceed_of_ne_loop (Command.ne_loop_of_role hplain htokens hread)

/-- A header is attempted by considering it and entering its loop, whose `end` is looked for. -/
theorem attempt_header {block : Block} (a : Account) (hheads : Statement.isLoopHeader statement)
    (hblock : Block.split? 0 rest = some block) :
    (a.machine (statement :: rest) line loops).attempt o =
      a.consider o line statement >>= fun result =>
        .ok ((result.2.resolve line block.body).machine [] (line + 1 + block.body.length + 1)
          ({ guard := Statement.guard statement, header := line, body := block.body,
             bodyLine := line + 1, rest := block.rest,
             restLine := line + 1 + block.body.length + 1 } :: loops)) := by
  rw [attempt_statement]
  cases hconsider : a.consider o line statement with
  | error => rfl
  | ok result =>
    obtain ⟨command?, b⟩ := result
    rcases Account.cases_of_consider hconsider with ⟨rfl, htokens⟩ |
      ⟨word, operands, command, rfl, htokens, hread⟩
    · exact absurd hheads (Statement.not_isLoopHeader_of_tokens_eq_nil htokens)
    · obtain rfl := (Statement.isLoopHeader_iff htokens).1 hheads
      obtain ⟨guard, rfl⟩ := Command.exists_loop_of_read hread
      have hguard : Statement.guard statement = guard := by
        have hhead := Command.head?_of_read_eq_loop hread
        cases operands with
        | nil => cases hhead
        | cons operand more =>
          cases hhead
          simp [Statement.guard, htokens]
      simp only [hguard, bind, Except.bind, proceed, Account.machine, perform, hblock]
      rfl

/-- Coming back to its header, a loop is left, run once more or given up as in its cycle. -/
theorem attempt_cycle (a : Account) (line : Int) (loop : Loop) (loops : List Loop) :
    (a.machine [] line (loop :: loops)).attempt o =
      match a.store.get? loop.guard with
      | none => .error (a.fail (.undefinedVariable loop.header loop.guard))
      | some value =>
        if value = 0 then
          .ok ((a.leave loop.header loop.iterations).machine loop.rest loop.restLine loops)
        else
          a.count o loop.header >>= fun b => .ok (b.machine loop.body loop.bodyLine
            ({ loop with iterations := loop.iterations + 1 } :: loops)) := by
  let m := { a with log := [] }.machine [] line (loop :: loops)
  change (m.step o).write a = _
  rw [step_of_loops rfl rfl]
  simp only [iterate, show m.store = a.store from rfl]
  cases a.store.get? loop.guard with
  | none => rfl
  | some value =>
    dsimp only
    split
    · rfl
    · rw [count]
      cases hbudget : m.tick.exceeded? o with
      | none =>
        rw [Account.count_of_exceeded?_eq_none hbudget rfl]
        rfl
      | some limit =>
        rw [Account.count_of_exceeded?_eq_some hbudget rfl]
        rfl

/-! ## Sequences of attempts -/

/-- After some attempts a machine gives another machine, or a verdict. -/
inductive Gives (o : Options) : Machine → Except Verdict Machine → Prop where
  | refl (m : Machine) : Gives o m (.ok m)
  | stop {m : Machine} {verdict : Verdict} (h : m.attempt o = .error verdict) :
      Gives o m (.error verdict)
  | step {m next : Machine} {result : Except Verdict Machine} (h : m.attempt o = .ok next)
      (hg : Gives o next result) : Gives o m result

variable {m : Machine} {verdict : Verdict} {result : Except Verdict Machine} {fuel : Nat}

theorem Gives.trans (h : m.Gives o (.ok next)) (h' : next.Gives o result) : m.Gives o result := by
  generalize hr : Except.ok next = first at h
  induction h with
  | refl => cases hr; exact h'
  | stop => cases hr
  | step h _ ih => exact .step h (ih hr)

theorem Gives.exists_pursue (h : m.Gives o (.error verdict)) :
    ∃ fuel, m.pursue o fuel = some verdict := by
  generalize hr : Except.error verdict = result at h
  induction h with
  | refl => cases hr
  | stop h =>
    cases hr
    exact ⟨1, pursue_of_error h⟩
  | step h _ ih =>
    obtain ⟨fuel, hfuel⟩ := ih hr
    exact ⟨fuel + 1, (pursue_of_ok h).trans hfuel⟩

theorem Gives.eq_of_pursue {other : Verdict} (h : m.Gives o (.error verdict))
    (hp : m.pursue o fuel = some other) : other = verdict := by
  generalize hr : Except.error verdict = result at h
  induction h generalizing fuel with
  | refl => cases hr
  | stop h =>
    cases hr
    cases fuel with
    | zero => cases hp
    | succ fuel =>
      rw [pursue_of_error h] at hp
      exact (Option.some.inj hp).symm
  | step h _ ih =>
    cases fuel with
    | zero => cases hp
    | succ fuel => exact ih (pursue_of_ok h ▸ hp) hr

/-- What comes of a machine comes of the machines that it gives, with less fuel. -/
theorem Gives.pursue_of_ok (h : m.Gives o (.ok next)) (hp : m.pursue o fuel = some verdict) :
    ∃ less ≤ fuel, next.pursue o less = some verdict := by
  generalize hr : Except.ok next = result at h
  induction h generalizing fuel with
  | refl =>
    cases hr
    exact ⟨fuel, Nat.le_refl _, hp⟩
  | stop => cases hr
  | step h _ ih =>
    cases fuel with
    | zero => cases hp
    | succ fuel =>
      rw [Machine.pursue_of_ok h] at hp
      obtain ⟨less, hle, hless⟩ := ih hp hr
      exact ⟨less, Nat.le_succ_of_le hle, hless⟩

end Machine

/-! ## Cycles -/

namespace Account

variable {o : Options} {body : Account → Option (Except Verdict Account)} {last : Int}

/-- If a body does what it evaluates to, so does the loop that repeats it. -/
theorem gives_of_cycle (loop : Loop) (loops : List Loop)
    (hbody : ∀ a result, body a = some result → ∀ loops,
      (a.machine loop.body loop.bodyLine loops).Gives o
        (result.map fun b => b.machine [] last loops))
    {iterations : Nat} {a : Account} {result : Except Verdict Account}
    (h : a.cycle o loop.guard loop.header body iterations = some result) (here : Int) :
    (a.machine [] here ({ loop with iterations } :: loops)).Gives o
      (result.map fun b => b.machine loop.rest loop.restLine loops) := by
  revert here
  refine cycle.partial_correctness o loop.guard loop.header body
    (fun iterations a result => ∀ here,
      (a.machine [] here ({ loop with iterations } :: loops)).Gives o
        (result.map fun b => b.machine loop.rest loop.restLine loops)) ?_ iterations a result h
  intro cycle ih iterations a result h here
  have hattempt := Machine.attempt_cycle (o := o) a here { loop with iterations } loops
  cases hget : a.store.get? loop.guard with
  | none =>
    simp only [hget] at h hattempt
    cases h
    exact .stop hattempt
  | some value =>
    simp only [hget] at h hattempt
    by_cases hvalue : value = 0
    · simp only [hvalue, if_true] at h hattempt
      cases h
      exact .step hattempt (.refl _)
    · simp only [hvalue, if_false] at h hattempt
      cases hcount : a.count o loop.header with
      | error verdict =>
        simp only [hcount] at h hattempt
        cases h
        exact .stop hattempt
      | ok b =>
        simp only [hcount] at h hattempt
        refine .step hattempt ?_
        cases hb : body b with
        | none => simp [hb] at h
        | some first =>
          have hrun := hbody b first hb ({ loop with iterations := iterations + 1 } :: loops)
          cases first with
          | error verdict =>
            simp only [hb] at h
            cases h
            exact hrun
          | ok c =>
            simp only [hb] at h
            exact hrun.trans (ih _ _ _ h _)

/-- If a body evaluates to something where a walk through it ends, so does the loop that repeats
it. The induction is on the fuel of the walk, because each run of the body uses some up. -/
theorem exists_cycle (loop : Loop) {loops : List Loop}
    (hbody : ∀ a result, body a = some result → ∀ loops,
      (a.machine loop.body loop.bodyLine loops).Gives o
        (result.map fun b => b.machine [] last loops))
    (hends : ∀ a loops fuel verdict,
      (a.machine loop.body loop.bodyLine loops).pursue o fuel = some verdict →
        ∃ result, body a = some result)
    {fuel iterations : Nat} {a : Account} {here : Int} {verdict : Verdict}
    (h : (a.machine [] here ({ loop with iterations } :: loops)).pursue o fuel = some verdict) :
    ∃ result, a.cycle o loop.guard loop.header body iterations = some result := by
  induction fuel using Nat.strong_induction_on generalizing iterations a here with
  | _ fuel ih =>
    have hattempt := Machine.attempt_cycle (o := o) a here { loop with iterations } loops
    rw [cycle]
    cases hget : a.store.get? loop.guard with
    | none => exact ⟨_, rfl⟩
    | some value =>
      simp only [hget] at hattempt
      by_cases hvalue : value = 0
      · simp only [hvalue, if_true]
        exact ⟨_, rfl⟩
      · simp only [hvalue, if_false] at hattempt ⊢
        cases hcount : a.count o loop.header with
        | error => exact ⟨_, rfl⟩
        | ok b =>
          simp only [hcount] at hattempt
          cases fuel with
          | zero => cases h
          | succ fuel =>
            rw [Machine.pursue_of_ok hattempt] at h
            obtain ⟨first, hb⟩ := hends _ _ _ _ h
            simp only [hb]
            cases first with
            | error => exact ⟨_, rfl⟩
            | ok c =>
              obtain ⟨less, hle, hless⟩ := (hbody b _ hb _).pursue_of_ok h
              exact ih less (Nat.lt_succ_of_le hle) hless

end Account

/-! ## Outlines -/

namespace Outline

variable {o : Options} {line : Int} {a : Account} {result : Except Verdict Account}

/-- The loop that a machine enters at the header of a loop with an outline as its body. -/
def entered (header : Statement) (body : Outline) (line : Int) (behind : Program) : Loop where
  guard := Statement.guard header
  header := line
  body := body.flatten
  bodyLine := line + 1
  rest := behind
  restLine := line + 1 + body.flatten.length + 1

theorem attempt_loop (o : Options) (a : Account) (line : Int) {header closer : Statement}
    (heads : Statement.isLoopHeader header) (closes : Statement.role closer = .closer)
    (body next : Outline) (rest : Program) (loops : List Loop) :
    (a.machine ((loop header heads body closer closes next).flatten ++ rest) line loops).attempt o =
      a.consider o line header >>= fun result =>
        .ok ((result.2.resolve line body.flatten).machine [] (line + 1 + body.flatten.length + 1)
          (entered header body line (next.flatten ++ rest) :: loops)) := by
  have hflatten : (loop header heads body closer closes next).flatten ++ rest =
      header :: (body.flatten ++ closer :: (next.flatten ++ rest)) := by simp [flatten]
  rw [hflatten]
  exact Machine.attempt_header a heads (body.split?_flatten_closer closes (next.flatten ++ rest))

theorem attempt_leaf (o : Options) (a : Account) (line : Int) {statement : Statement}
    (plain : Statement.role statement = .plain) (next : Outline) (rest : Program)
    (loops : List Loop) :
    (a.machine ((leaf statement plain next).flatten ++ rest) line loops).attempt o =
      a.perform o line statement >>= fun b =>
        .ok (b.machine (next.flatten ++ rest) (line + 1) loops) :=
  Machine.attempt_leaf a plain

/-- A walk through the statements of an outline does what the outline evaluates to. -/
theorem gives_of_evaluate (outline : Outline) (h : outline.evaluate o line a = some result)
    (rest : Program) (loops : List Loop) :
    (a.machine (outline.flatten ++ rest) line loops).Gives o
      (result.map fun b => b.machine rest (line + outline.flatten.length) loops) := by
  induction outline generalizing line a result rest loops with
  | nil =>
    cases h
    simpa [flatten, Except.map] using Machine.Gives.refl (o := o) (a.machine rest line loops)
  | leaf statement plain next ih =>
    have hattempt := attempt_leaf o a line plain next rest loops
    rw [evaluate] at h
    cases hperform : a.perform o line statement with
    | error verdict =>
      simp only [hperform] at h hattempt
      cases h
      exact .stop hattempt
    | ok b =>
      simp only [hperform] at h hattempt
      have hline : line + (leaf statement plain next).flatten.length =
          line + 1 + next.flatten.length := by
        rw [flatten, List.length_cons]
        push_cast
        omega
      rw [hline]
      exact .step hattempt (ih h rest loops)
  | loop header heads body closer closes next ihbody ihnext =>
    have hattempt := attempt_loop o a line heads closes body next rest loops
    rw [evaluate] at h
    cases hconsider : a.consider o line header with
    | error verdict =>
      simp only [hconsider] at h hattempt
      cases h
      exact .stop hattempt
    | ok considered =>
      simp only [hconsider] at h hattempt
      refine .step hattempt ?_
      have hbody : ∀ a result, body.evaluate o (line + 1) a = some result → ∀ loops,
          (a.machine body.flatten (line + 1) loops).Gives o (result.map fun b =>
            b.machine [] (line + 1 + body.flatten.length) loops) := by
        intro a result h loops
        have hrun := ihbody h [] loops
        rwa [List.append_nil] at hrun
      split at h
      · cases h
      · rename_i hcycle
        cases h
        exact Account.gives_of_cycle (entered header body line (next.flatten ++ rest)) loops hbody
          hcycle _
      · rename_i hcycle
        have hgives := Account.gives_of_cycle (entered header body line (next.flatten ++ rest))
          loops hbody hcycle (line + 1 + body.flatten.length + 1)
        have hline : line + (loop header heads body closer closes next).flatten.length =
            line + 1 + body.flatten.length + 1 + next.flatten.length := by
          rw [flatten, List.length_cons, List.length_append, List.length_cons]
          push_cast
          omega
        rw [hline]
        exact hgives.trans (ihnext h rest loops)

/-- The same where no statement follows. -/
theorem gives_nil_of_evaluate (outline : Outline) (h : outline.evaluate o line a = some result)
    (loops : List Loop) :
    (a.machine outline.flatten line loops).Gives o
      (result.map fun b => b.machine [] (line + outline.flatten.length) loops) := by
  have hrun := outline.gives_of_evaluate h [] loops
  rwa [List.append_nil] at hrun

/-- Where a walk through the statements of an outline ends, the outline evaluates to something. -/
theorem exists_evaluate (outline : Outline) {rest : Program} {loops : List Loop} {fuel : Nat}
    {verdict : Verdict}
    (h : (a.machine (outline.flatten ++ rest) line loops).pursue o fuel = some verdict) :
    ∃ result, outline.evaluate o line a = some result := by
  induction outline generalizing line a rest loops fuel verdict with
  | nil => exact ⟨_, rfl⟩
  | leaf statement plain next ih =>
    have hattempt := attempt_leaf o a line plain next rest loops
    rw [evaluate]
    cases hperform : a.perform o line statement with
    | error => exact ⟨_, rfl⟩
    | ok b =>
      simp only [hperform] at hattempt ⊢
      obtain ⟨less, -, hless⟩ := (Machine.Gives.step hattempt (.refl _)).pursue_of_ok h
      exact ih hless
  | loop header heads body closer closes next ihbody ihnext =>
    have hattempt := attempt_loop o a line heads closes body next rest loops
    rw [evaluate]
    cases hconsider : a.consider o line header with
    | error => exact ⟨_, rfl⟩
    | ok considered =>
      simp only [hconsider] at hattempt ⊢
      obtain ⟨less, -, hless⟩ := (Machine.Gives.step hattempt (.refl _)).pursue_of_ok h
      have hends : ∀ a loops fuel verdict,
          (a.machine body.flatten (line + 1) loops).pursue o fuel = some verdict →
            ∃ result, body.evaluate o (line + 1) a = some result := by
        intro a loops fuel verdict h
        rw [← List.append_nil body.flatten] at h
        exact ihbody h
      have hbody : ∀ a result, body.evaluate o (line + 1) a = some result → ∀ loops,
          (a.machine body.flatten (line + 1) loops).Gives o (result.map fun b =>
            b.machine [] (line + 1 + body.flatten.length) loops) :=
        fun a result h loops => body.gives_nil_of_evaluate h loops
      obtain ⟨first, hcycle⟩ := Account.exists_cycle
        (entered header body line (next.flatten ++ rest)) hbody hends hless
      have hgives := Account.gives_of_cycle (entered header body line (next.flatten ++ rest))
        loops hbody hcycle (line + 1 + body.flatten.length + 1)
      have hevaluate : (considered.2.resolve line body.flatten).cycle o (Statement.guard header)
        line (body.evaluate o (line + 1)) 0 = some first := hcycle
      rw [hevaluate]
      cases first with
      | error => exact ⟨_, rfl⟩
      | ok b =>
        obtain ⟨less', -, hless'⟩ := hgives.pursue_of_ok hless
        exact ihnext hless'

/-- The verdict of a walk that goes on until nothing is left, if it comes so far. -/
def verdict : Except Verdict Account → Verdict
  | .ok a => { account := a }
  | .error verdict => verdict

/-- A machine with the statements of an outline ends as the outline evaluates. -/
theorem exists_pursue_iff (outline : Outline) (verdict : Verdict) :
    (∃ fuel, (a.machine outline.flatten line []).pursue o fuel = some verdict) ↔
      (outline.evaluate o line a).map Outline.verdict = some verdict := by
  have hgives : ∀ result, outline.evaluate o line a = some result →
      (a.machine outline.flatten line []).Gives o (.error (Outline.verdict result)) := by
    intro result h
    have hrun := outline.gives_nil_of_evaluate h []
    cases result with
    | error => exact hrun
    | ok b => exact hrun.trans (.stop (Machine.attempt_of_finished rfl))
  constructor
  · rintro ⟨fuel, hfuel⟩
    have happend := hfuel
    rw [← List.append_nil outline.flatten] at happend
    obtain ⟨result, hresult⟩ := outline.exists_evaluate happend
    rw [hresult, Option.map_some, (hgives result hresult).eq_of_pursue hfuel]
  · intro h
    obtain ⟨result, hresult, rfl⟩ := Option.map_eq_some_iff.1 h
    exact (hgives result hresult).exists_pursue

/-- The walk of a program that comes from an outline ends with the verdict that the evaluation of
the outline gives, with the same events, steps, store and reason, whatever the budget, the store and
the first line are. It goes on for ever where the evaluation gives nothing. -/
theorem walk?_flatten (outline : Outline) (firstLine : Int) (o : Options) (store : Store) :
    let scope : Scope := { program := outline.flatten, firstLine }
    (∀ verdict, (∃ fuel walk, scope.walk? fuel o store = some walk ∧ walk.verdict = verdict) ↔
      (outline.evaluate o firstLine { store }).map Outline.verdict = some verdict) ∧
    ((∀ fuel, scope.walk? fuel o store = none) ↔
      outline.evaluate o firstLine { store } = none) := by
  intro scope
  have hstart : scope.start store = Account.machine { store } outline.flatten firstLine [] := by
    simp [scope, Scope.start, Account.machine]
  have hwalk : ∀ fuel, (scope.walk? fuel o store).map Walk.verdict =
      (Account.machine { store } outline.flatten firstLine []).pursue o fuel := by
    intro fuel
    rw [← hstart]
    exact Scope.walk?_eq_pursue (Int.le_refl 0)
  have hiff : ∀ verdict,
      (∃ fuel walk, scope.walk? fuel o store = some walk ∧ walk.verdict = verdict) ↔
        (outline.evaluate o firstLine { store }).map Outline.verdict = some verdict := by
    intro verdict
    rw [← exists_pursue_iff]
    simp only [← hwalk, Option.map_eq_some_iff]
  refine ⟨hiff, ?_, ?_⟩
  · intro hnone
    cases hresult : outline.evaluate o firstLine { store } with
    | none => rfl
    | some result =>
      obtain ⟨fuel, walk, hsome, -⟩ := (hiff (Outline.verdict result)).2 (by rw [hresult]; rfl)
      rw [hnone fuel] at hsome
      cases hsome
  · intro hnone fuel
    cases hsome : scope.walk? fuel o store with
    | none => rfl
    | some walk =>
      have hverdict := (hiff walk.verdict).1 ⟨fuel, walk, hsome, rfl⟩
      rw [hnone] at hverdict
      cases hverdict

end Outline

end CounterLang
