import CounterLang.Proofs.Balance
import CounterLang.Proofs.Budget
import CounterLang.Proofs.Executions
import CounterLang.Proofs.Failures
import CounterLang.Proofs.Phrases
import CounterLang.Proofs.Termination

/-!
# Counting loops

A loop whose body only adds one to variables and takes one from them moves each variable by the same
amount whenever it is run through. So it is known in advance whether the guard is ever zero at the
header, after how many times, and what the variables are by then.

## Main definitions

* `Program.drift`: how far a body moves a variable.
* `CountingLoop`: the statements of such a loop.
* `Account.Counted`: what has been done by a loop that was run through so many times.
* `Machine.Advances`: a machine has come further, has moved the variables and has put nothing out.

## Main statements

* `Machine.exists_advances_body`: the body moves the variables once.
* `Machine.exists_advances_iterations`: the loop moves them as often as the guard is not zero.
* `Machine.Unending.exhausted`: a run that counts any number of steps only ends with its budget.
* `CountingLoop.closed_form`: what becomes of a counting loop.
-/

namespace CounterLang

/-! ## Stores that move -/

namespace Store

variable {s t u : Store} {amount more : Text → Int} {name : Text} {value : Int}

/-- Each variable has moved by its amount, and the order is the same. -/
structure Moves (s : Store) (amount : Text → Int) (t : Store) : Prop where
  names : t.names = s.names
  get? : ∀ name, t.get? name = (s.get? name).map (· + amount name)

theorem Moves.refl (s : Store) : s.Moves (fun _ => 0) s where
  names := rfl
  get? := by simp

theorem Moves.trans (h : s.Moves amount t) (h' : t.Moves more u) :
    s.Moves (fun name => amount name + more name) u where
  names := h'.names.trans h.names
  get? := by
    intro name
    rw [h'.get?, h.get?, Option.map_map]
    refine congrArg (Option.map · _) (funext fun value => ?_)
    exact Int.add_assoc value _ _

theorem Moves.mem_iff (h : s.Moves amount t) : name ∈ t ↔ name ∈ s := by
  rw [mem_def, mem_def, h.names]

theorem moves_set (h : s.get? name = some value) (change : Int) :
    s.Moves (fun other => if other = name then change else 0) (s.set name (value + change)) where
  names := by
    have hmem : name ∈ s := get?_isSome_iff.1 (by simp [h])
    rw [names_set, if_pos hmem]
  get? := by
    intro other
    rw [get?_set]
    by_cases hother : other = name
    · simp [hother, h]
    · simp [hother]

end Store

/-! ## Bodies -/

/-- The tokens ask for a known variable to be changed by one. -/
inductive Statement.Changes (store : Store) : List Text → Text → Int → Prop where
  | increment {name : Text} (hname : name ∈ store) (hfree : isReserved name = false) :
      Changes store [Keyword.increment.text, name] name 1
  | decrement {name : Text} (hname : name ∈ store) (hfree : isReserved name = false) :
      Changes store [Keyword.decrement.text, name] name (-1)

/-- All statements that are not blank change a known variable by one. -/
def Program.IsCount (store : Store) (body : Program) : Prop :=
  ∀ tokens ∈ body.tokenLists, ∃ name change, Statement.Changes store tokens name change

namespace Statement

variable {store later : Store} {amount : Text → Int} {tokens : List Text} {name : Text}
  {change : Int}

theorem Changes.mem (h : Changes store tokens name change) : name ∈ store := by
  cases h <;> assumption

theorem Changes.of_moves (h : Changes store tokens name change)
    (hstore : store.Moves amount later) : Changes later tokens name change := by
  cases h with
  | increment hname hfree => exact .increment (hstore.mem_iff.2 hname) hfree
  | decrement hname hfree => exact .decrement (hstore.mem_iff.2 hname) hfree

theorem Changes.ne_nil (h : Changes store tokens name change) : tokens ≠ [] := by
  cases h <;> simp

theorem Changes.roleOfTokens_eq (h : Changes store tokens name change) :
    roleOfTokens tokens = .plain := by
  cases h <;> rfl

end Statement

namespace Program

/-- How far the statements move a variable: how many add one to it, without those that take one. -/
def drift (program : Program) (name : Text) : Int :=
  (tokenLists program).count [Keyword.increment.text, name] -
    (tokenLists program).count [Keyword.decrement.text, name]

variable {store later : Store} {amount : Text → Int} {statement : Statement} {rest : Program}
  {name : Text} {change : Int}

theorem tokenLists_cons_of_nil (h : Statement.tokens statement = []) :
    tokenLists (statement :: rest) = tokenLists rest := by
  simp [tokenLists, h]

theorem tokenLists_cons_of_ne_nil (h : Statement.tokens statement ≠ []) :
    tokenLists (statement :: rest) = Statement.tokens statement :: tokenLists rest := by
  simp [tokenLists, h]

theorem IsCount.of_moves (h : IsCount store rest) (hstore : store.Moves amount later) :
    IsCount later rest := by
  intro tokens htokens
  obtain ⟨name, change, hchanges⟩ := h tokens htokens
  exact ⟨name, change, hchanges.of_moves hstore⟩

/-- No statement of such a body opens or closes a block. -/
theorem IsCount.role_eq (h : IsCount store rest) (hmem : statement ∈ rest) :
    Statement.role statement = .plain := by
  rw [Statement.role]
  by_cases htokens : Statement.tokens statement = []
  · rw [htokens]
    rfl
  · have hlist : Statement.tokens statement ∈ tokenLists rest := by
      rw [tokenLists, List.mem_filter]
      exact ⟨List.mem_map_of_mem hmem, by simpa using htokens⟩
    obtain ⟨name, change, hchanges⟩ := h _ hlist
    exact hchanges.roleOfTokens_eq

theorem drift_cons_of_nil (h : Statement.tokens statement = []) :
    drift (statement :: rest) = drift rest := by
  funext name
  rw [drift, drift, tokenLists_cons_of_nil h]

/-- A statement that changes a variable adds the change to what the others move. -/
theorem drift_cons (h : Statement.Changes store (Statement.tokens statement) name change) :
    drift (statement :: rest) =
      fun other => (if other = name then change else 0) + drift rest other := by
  have hne : Keyword.increment.text ≠ Keyword.decrement.text := by decide
  funext other
  rw [drift, drift, tokenLists_cons_of_ne_nil h.ne_nil]
  generalize Statement.tokens statement = tokens at h
  by_cases hother : other = name
  · cases h <;> simp [hother, hne, hne.symm] <;> omega
  · cases h <;> simp [hother, Ne.symm hother, hne, hne.symm]

end Program

/-! ## Machines that advance -/

/-- The event puts nothing out, and nothing of it is too long to be written unless there is a
trace. -/
def Event.IsSilent (o : Options) (event : Event) : Prop :=
  event.outputLine? = none ∧ (o.trace = false → event.isWritable)

namespace Machine

/-- The machine comes to another one, and on the way the variables move by their amounts, so many
steps are counted, and nothing is put out. -/
structure Advances (o : Options) (amount : Text → Int) (steps : Nat) (m next : Machine) : Prop where
  reaches : m.Reaches o next
  store : m.store.Moves amount next.store
  steps_eq : next.steps = m.steps + steps
  log : Event.Since (Event.IsSilent o) m.log next.log

variable {o : Options} {m next last : Machine} {amount more : Text → Int} {steps count : Nat}
  {statement : Statement} {body rest : Program} {loop : Loop} {outer : List Loop} {name : Text}
  {change value : Int}

theorem Advances.refl (o : Options) (m : Machine) : m.Advances o (fun _ => 0) 0 m where
  reaches := .refl
  store := .refl m.store
  steps_eq := rfl
  log := .refl _ m.log

theorem Advances.trans (h : m.Advances o amount steps next) (h' : next.Advances o more count last) :
    m.Advances o (fun name => amount name + more name) (steps + count) last where
  reaches := Relation.ReflTransGen.trans h.reaches h'.reaches
  store := h.store.trans h'.store
  steps_eq := by rw [h'.steps_eq, h.steps_eq, Nat.add_assoc]
  log := h.log.trans h'.log

theorem Advances.congr (h : m.Advances o amount steps next) (hamount : amount = more)
    (hsteps : steps = count) : m.Advances o more count next :=
  hamount ▸ hsteps ▸ h

/-- A budget that allows the steps changes nothing. -/
theorem Advances.of_steps_le (h : m.Advances { o with limit := none } amount steps next)
    (hsteps : ∀ limit ∈ o.limit, ((m.steps + steps : Nat) : Int) ≤ limit.steps) :
    m.Advances o amount steps next where
  reaches := h.reaches.of_steps_le rfl (h.steps_eq ▸ hsteps)
  store := h.store
  steps_eq := h.steps_eq
  log := h.log

/-- Without a trace, all that is logged is written. -/
theorem Advances.since_isWritable (h : m.Advances o amount steps next) (htrace : o.trace = false) :
    Event.Since (·.isWritable) m.log next.log :=
  h.log.mono fun _ hevent => hevent.2 htrace

theorem Advances.output_eq (h : m.Advances o amount steps next) : next.output = m.output := by
  obtain ⟨events, hlog, hevents⟩ := h.log
  have hsilent : events.reverse.filterMap Event.outputLine? = [] := by
    rw [List.filterMap_eq_nil_iff]
    exact fun event hevent => (hevents event (List.mem_reverse.1 hevent)).1
  rw [output, output, hlog, List.reverse_append, List.filterMap_append, hsilent, List.append_nil]

theorem since_arrive (m : Machine) (o : Options) (statement : Statement) :
    Event.Since (Event.IsSilent o) m.log (m.arrive o statement).log := by
  rw [arrive, announce]
  split
  · rename_i htrace
    refine ⟨[.entry m.line statement, .snapshot m.store], rfl, ?_⟩
    simp [Event.IsSilent, Event.outputLine?, htrace]
  · exact .refl _ _

/-! ## Iterations

No budget is set here: under a budget, a run comes to the same machines as long as the budget
allows their steps. -/

theorem exceeded?_of_limit_eq_none (hl : o.limit = none) : m.exceeded? o = none := by
  rw [exceeded?, hl]

/-- A blank statement is passed over. -/
theorem advances_of_tokens_eq_nil (hcode : m.code = statement :: rest)
    (htokens : Statement.tokens statement = []) :
    m.Advances o (fun _ => 0) 0 (m.goto rest (m.line + 1)) where
  reaches := .single (step_of_tokens_eq_nil hcode htokens)
  store := .refl m.store
  steps_eq := rfl
  log := .refl _ m.log

/-- A statement that changes a variable is carried out. -/
theorem exists_advances_of_changes (hl : o.limit = none) (hcode : m.code = statement :: rest)
    (hchanges : Statement.Changes m.store (Statement.tokens statement) name change) :
    ∃ next, m.Advances o (fun other => if other = name then change else 0) 1 next ∧
      next.code = rest ∧ next.loops = m.loops := by
  obtain ⟨value, hvalue⟩ := Option.isSome_iff_exists.1 (Store.get?_isSome_iff.2 hchanges.mem)
  let next := { m.arrive o statement with store := m.store.set name (value + change) }.goto rest
    (m.line + 1)
  have hdispatch : ∃ word operands, Statement.tokens statement = word :: operands ∧
      (m.arrive o statement).dispatch m.line word operands rest (m.line + 1) = .ok next := by
    generalize Statement.tokens statement = tokens at hchanges
    cases hchanges with
    | increment hname hfree =>
      have hread : Command.read (m.arrive o statement).store m.line Keyword.increment.text [name] =
          .ok (.increment name) := by
        simp [Command.read, hfree, Command.single]
      refine ⟨_, _, rfl, (dispatch_of_read_ok hread).trans ?_⟩
      simp [perform, Store.increment, Store.get, hvalue, Except.map, next]
    | decrement hname hfree =>
      have hread : Command.read (m.arrive o statement).store m.line Keyword.decrement.text [name] =
          .ok (.decrement name) := by
        simp [Command.read, hfree, Command.single]
      refine ⟨_, _, rfl, (dispatch_of_read_ok hread).trans ?_⟩
      simp [perform, Store.decrement, Store.get, hvalue, Except.map, next, Int.sub_eq_add_neg]
  obtain ⟨word, operands, htokens, hdispatch⟩ := hdispatch
  have hs := step_of_dispatch_ok hcode htokens (exceeded?_of_limit_eq_none hl) hdispatch
  refine ⟨next, ⟨.single hs, ?_, ?_, ?_⟩, rfl, loops_arrive m o statement⟩
  · exact Store.moves_set hvalue change
  · exact steps_arrive m o statement
  · exact since_arrive m o statement

/-- The body moves the variables once. -/
theorem exists_advances_body (hl : o.limit = none) (hbody : body.IsCount m.store)
    (hcode : m.code = body) :
    ∃ next, m.Advances o (Program.drift body) (Program.tokenLists body).length next ∧
      next.code = [] ∧ next.loops = m.loops := by
  induction body generalizing m with
  | nil => exact ⟨m, .refl o m, hcode, rfl⟩
  | cons statement rest ih =>
    by_cases hblank : Statement.tokens statement = []
    · have hfirst := advances_of_tokens_eq_nil (o := o) hcode hblank
      rw [Program.IsCount, Program.tokenLists_cons_of_nil hblank] at hbody
      rw [Program.tokenLists_cons_of_nil hblank, Program.drift_cons_of_nil hblank]
      obtain ⟨next, hnext, hend, hloops⟩ := ih (m := m.goto rest (m.line + 1)) hbody rfl
      exact ⟨next, (hfirst.trans hnext).congr (by simp) (by simp), hend, hloops⟩
    · rw [Program.tokenLists_cons_of_ne_nil hblank, List.length_cons, Nat.add_comm]
      rw [Program.IsCount, Program.tokenLists_cons_of_ne_nil hblank, List.forall_mem_cons] at hbody
      obtain ⟨⟨name, change, hchanges⟩, hrest⟩ := hbody
      rw [Program.drift_cons hchanges]
      obtain ⟨middle, hfirst, hcode, hloops⟩ := exists_advances_of_changes hl hcode hchanges
      obtain ⟨next, hnext, hend, hsame⟩ := ih (Program.IsCount.of_moves hrest hfirst.store) hcode
      exact ⟨next, hfirst.trans hnext, hend, hsame.trans hloops⟩

/-- Back at the header with a guard that is not zero, the body is run through once. -/
theorem exists_advances_iteration (hl : o.limit = none) (hcode : m.code = [])
    (hloops : m.loops = loop :: outer) (hbody : loop.body.IsCount m.store)
    (hvalue : m.store.get? loop.guard = some value) (hne : value ≠ 0) :
    ∃ next, m.Advances o (Program.drift loop.body) (1 + (Program.tokenLists loop.body).length)
        next ∧ next.code = [] ∧
      next.loops = { loop with iterations := loop.iterations + 1 } :: outer := by
  let again := { m.tick with
    code := loop.body, line := loop.bodyLine,
    loops := { loop with iterations := loop.iterations + 1 } :: outer }
  have hs : m.step o = .running again := by
    have hbudget : m.tick.exceeded? o = none := exceeded?_of_limit_eq_none hl
    rw [step_of_loops hcode hloops]
    simp only [iterate, hvalue, if_neg hne, count, hbudget]
    rfl
  have hfirst : m.Advances o (fun _ => 0) 1 again :=
    ⟨.single hs, .refl m.store, rfl, .refl _ m.log⟩
  obtain ⟨next, hnext, hend, hsame⟩ := exists_advances_body (m := again) hl hbody rfl
  exact ⟨next, (hfirst.trans hnext).congr (by simp) rfl, hend, hsame⟩

/-- As long as the guard is not zero, the loop goes on, and each time the body moves the variables
by the same amounts. -/
theorem exists_advances_iterations (hl : o.limit = none) (hcode : m.code = [])
    (hloops : m.loops = loop :: outer) (hbody : loop.body.IsCount m.store)
    (hvalue : m.store.get? loop.guard = some value) (n : Nat)
    (hne : ∀ k < n, value + k * Program.drift loop.body loop.guard ≠ 0) :
    ∃ next, m.Advances o (fun name => n * Program.drift loop.body name)
        (n * (1 + (Program.tokenLists loop.body).length)) next ∧ next.code = [] ∧
      next.loops = { loop with iterations := loop.iterations + n } :: outer := by
  -- The last iteration is taken off: only the sum tells that the guard is not zero there.
  induction n with
  | zero => exact ⟨m, (Advances.refl o m).congr (by simp) (by simp), hcode, hloops⟩
  | succ n ih =>
    obtain ⟨middle, hfirst, hend, hopen⟩ := ih fun k hk => hne k (Nat.lt_succ_of_lt hk)
    have hmiddle : middle.store.get? loop.guard =
        some (value + n * Program.drift loop.body loop.guard) := by
      rw [hfirst.store.get?, hvalue, Option.map_some]
    obtain ⟨next, hnext, hdone, hagain⟩ := exists_advances_iteration hl hend hopen
      (Program.IsCount.of_moves hbody hfirst.store) hmiddle (hne n (Nat.lt_succ_self n))
    refine ⟨next, (hfirst.trans hnext).congr (funext fun name => ?_) ?_, hdone, hagain⟩
    · push_cast
      rw [Int.add_mul, Int.one_mul]
    · rw [Nat.succ_mul]

/-- Back at the header with a guard that is zero, the loop is left. -/
theorem advances_leave (hcode : m.code = []) (hloops : m.loops = loop :: outer)
    (hvalue : m.store.get? loop.guard = some 0) :
    m.Advances o (fun _ => 0) 0
      (({ m with loops := outer }.emit (.left loop.header loop.iterations)).goto loop.rest
        loop.restLine) where
  reaches := by
    refine .single ?_
    rw [step_of_loops hcode hloops]
    simp only [iterate, hvalue, if_true]
  store := .refl m.store
  steps_eq := rfl
  log := ⟨[.left loop.header loop.iterations], rfl, by
    simp [Event.IsSilent, Event.outputLine?, Event.isWritable]⟩

end Machine

/-! ## Runs without an end -/

namespace Machine

/-- The run counts any number of steps, and all events that it logs have the property. -/
def Unending (o : Options) (P : Event → Prop) (m : Machine) : Prop :=
  ∀ count : Nat, ∃ next, m.Reaches o next ∧ count < next.steps ∧ Event.Since P m.log next.log

variable {o : Options} {P Q : Event → Prop} {m later : Machine} {e : Ending} {verdict : Verdict}

theorem Unending.mono (h : m.Unending o P) (hPQ : ∀ event, P event → Q event) :
    m.Unending o Q := by
  intro count
  obtain ⟨next, hreach, hlt, hsince⟩ := h count
  exact ⟨next, hreach, hlt, hsince.mono hPQ⟩

/-- The run goes on from everything that it comes to. -/
theorem Unending.exists_running (h : m.Unending o P) (hreach : m.Reaches o later) :
    ∃ next, later.step o = .running next ∧ Event.Since P m.log later.log ∧
      Event.Since P later.log next.log := by
  -- What counts more steps than a machine that was come to is behind it.
  obtain ⟨last, hlast, hlt, hsince⟩ := h later.steps
  have hbehind := hreach.of_steps_lt hlast hlt
  obtain ⟨hbefore, hafter⟩ := hsince.split hreach.log_suffix hbehind.log_suffix
  rcases Relation.ReflTransGen.cases_head hbehind with rfl | ⟨next, hs, hnext⟩
  · exact absurd hlt (Nat.lt_irrefl _)
  · exact ⟨next, hs, hbefore,
      (hafter.split (log_suffix_of_running hs) (Reaches.log_suffix hnext)).1⟩

theorem Unending.not_ends (h : m.Unending o P) : ¬ m.Ends o e := by
  intro he
  obtain ⟨next, hreach, hlt, -⟩ := h e.machine.steps
  exact absurd (hreach.ends_iff.1 he).steps_le (Nat.not_le.2 hlt)

/-- Under a budget, such a run ends because the budget is spent. -/
theorem Unending.exhausted (h : m.Unending { o with limit := none } P) (he : m.Ends o e) :
    e.Exhausted ∧ Event.Since P m.log e.machine.log := by
  have hnarrower : o.Narrower { o with limit := none } := ⟨rfl, by simp⟩
  have hx : e.Exhausted := by
    by_contra hx
    exact h.not_ends (he.of_narrower hnarrower hx)
  obtain ⟨moment, hreach, -, hlast, -⟩ := he.exists_moment hnarrower hx
  obtain ⟨next, -, hsince, -⟩ := h.exists_running hreach
  exact ⟨hx, hlast ▸ hsince⟩

/-- Without a budget it has no ending. -/
theorem Unending.not_ends_of_limit (h : m.Unending { o with limit := none } P)
    (hl : o.limit = none) : ¬ m.Ends o e :=
  fun he => he.not_exhausted hl (h.exhausted he).1

/-- Where all events are written, an execution without a budget does not end either. -/
theorem Unending.not_gives (h : m.Unending { o with limit := none } (·.isWritable))
    (hl : o.limit = none) : ¬ m.Gives o (.error verdict) := by
  intro hgives
  obtain ⟨last, hlast, hattempt⟩ := hgives.exists_last
  obtain ⟨limit, trace⟩ := o
  cases hl
  obtain ⟨next, hs, -, hsince⟩ := h.exists_running hlast.reaches
  rw [attempt_of_running_since hs hsince] at hattempt
  cases hattempt

/-- Within a budget a run ends. -/
theorem exists_ends_of_limit {limit : Limit} (h : limit ∈ o.limit) : ∃ e, m.Ends o e := by
  obtain ⟨_, trace⟩ := o
  cases h
  exact ⟨_, ends_finish limit trace m⟩

/-- Under a budget, an execution ends as the run does, if the line of the fault is written too. -/
theorem Unending.exists_gives {limit : Limit}
    (h : m.Unending { o with limit := none } (·.isWritable)) (hlimit : limit ∈ o.limit)
    (hline : ∀ e, m.Ends o e → ∀ fault ∈ e.fault, Numeral.isWritable fault.line) :
    ∃ e : Ending, m.Gives o (.error e.verdict) := by
  obtain ⟨e, he⟩ := exists_ends_of_limit (m := m) hlimit
  obtain ⟨-, hsince⟩ := h.exhausted he
  exact ⟨e, he.gives hsince (hline e he)⟩

end Machine

/-! ## Counting loops -/

/-- A loop with a known guard whose body only changes known variables by one. -/
structure CountingLoop (store : Store) (guard : Text) (header : Statement) (body : Program)
    (closer : Statement) : Prop where
  header : Statement.tokens header = Keyword.loop.text :: guard :: headerTail
  guard_mem : guard ∈ store
  guard_free : isReserved guard = false
  body : body.IsCount store
  closer : Statement.role closer = .closer

namespace CountingLoop

variable {o : Options} {m : Machine} {guard : Text} {header closer : Statement}
  {body rest : Program} {value : Int}

/-- The `end` of the loop is the first statement behind the body. -/
theorem split?_eq (h : CountingLoop m.store guard header body closer) (rest : Program) :
    Block.split? 0 (body ++ closer :: rest) = some ⟨body, rest⟩ := by
  refine Block.split?_eq_some_iff.2 ⟨closer, h.closer, rfl, .balanced (balanced_of_forall_plain ?_)⟩
  intro role hrole
  obtain ⟨statement, hmem, rfl⟩ := List.mem_map.1 hrole
  exact h.body.role_eq hmem

theorem exists_advances_enter (h : CountingLoop m.store guard header body closer)
    (hl : o.limit = none) (hcode : m.code = header :: (body ++ closer :: rest)) :
    ∃ next, m.Advances o (fun _ => 0) 1 next ∧ next.code = [] ∧ next.loops =
      { guard, header := m.line, body, bodyLine := m.line + 1, rest,
        restLine := m.line + 1 + body.length + 1 } :: m.loops := by
  have hread : Command.read (m.arrive o header).store m.line Keyword.loop.text
      (guard :: headerTail) = .ok (.loop guard) := by
    have hmatch : Command.mismatch? headerTail headerTail = none := by decide
    simp [Command.read, h.guard_free, Command.loopHeader, h.guard_mem, hmatch]
  have hperform : (m.arrive o header).perform m.line (body ++ closer :: rest) (m.line + 1)
      (.loop guard) = .ok (((m.arrive o header).emit
        (.resolved m.line (m.line + 1) (m.line + 1 + body.length))).enter
        { guard, header := m.line, body, bodyLine := m.line + 1, rest,
          restLine := m.line + 1 + body.length + 1 }) := by
    rw [Machine.perform, h.split?_eq rest]
  have hs := Machine.step_of_dispatch_ok hcode h.header (Machine.exceeded?_of_limit_eq_none hl)
    ((Machine.dispatch_of_read_ok hread).trans hperform)
  refine ⟨_, ⟨.single hs, ?_, ?_, ?_⟩, rfl, ?_⟩
  · simpa [Machine.enter, Machine.emit] using Store.Moves.refl m.store
  · exact Machine.steps_arrive m o header
  · refine (Machine.since_arrive m o header).trans ⟨[_], rfl, ?_⟩
    simp [Event.IsSilent, Event.outputLine?, Event.isWritable]
  · simp [Machine.enter, Machine.emit]

/-- The loop is run through as long as its guard is not zero. -/
theorem exists_advances_rounds (h : CountingLoop m.store guard header body closer)
    (hl : o.limit = none) (hcode : m.code = header :: (body ++ closer :: rest))
    (hvalue : m.store.get? guard = some value) (n : Nat)
    (hne : ∀ k < n, value + k * Program.drift body guard ≠ 0) :
    ∃ next, m.Advances o (fun name => n * Program.drift body name)
        (1 + n * (1 + (Program.tokenLists body).length)) next ∧ next.code = [] ∧ next.loops =
      { guard, header := m.line, body, bodyLine := m.line + 1, rest,
        restLine := m.line + 1 + body.length + 1, iterations := n } :: m.loops := by
  obtain ⟨first, hfirst, hcode, hloops⟩ := h.exists_advances_enter hl hcode
  have hfound : first.store.get? guard = some value := by
    rw [hfirst.store.get?, hvalue]
    simp
  obtain ⟨next, hnext, hend, hagain⟩ := Machine.exists_advances_iterations hl hcode hloops
    (h.body.of_moves hfirst.store) hfound n hne
  refine ⟨next, (hfirst.trans hnext).congr (by simp) rfl, hend, ?_⟩
  rw [hagain, Nat.zero_add]

/-- Where the guard gets to zero, the loop is left after the least number of iterations that takes
it there, if the budget allows the steps. -/
theorem exists_advances_of_isLeast (h : CountingLoop m.store guard header body closer)
    (hcode : m.code = header :: (body ++ closer :: rest)) (hvalue : m.store.get? guard = some value)
    {n : Nat} (hn : IsLeast {k : Nat | value + k * Program.drift body guard = 0} n)
    (hsteps : ∀ limit ∈ o.limit,
      ((m.steps + (1 + n * (1 + (Program.tokenLists body).length)) : Nat) : Int) ≤ limit.steps) :
    ∃ final, m.Advances o (fun name => n * Program.drift body name)
        (1 + n * (1 + (Program.tokenLists body).length)) final ∧ final.code = rest ∧
      final.line = m.line + body.length + 2 ∧ final.loops = m.loops ∧
      final.log.head? = some (.left m.line n) := by
  obtain ⟨last, hlast, hcode, hloops⟩ :=
    h.exists_advances_rounds (o := { o with limit := none }) rfl hcode hvalue n
      fun k hk hzero => absurd (hn.2 hzero) (by omega)
  have hzero : last.store.get? guard = some 0 := by
    rw [hlast.store.get?, hvalue, Option.map_some, show value + n * _ = 0 from hn.1]
  have hamount : (fun name => n * Program.drift body name + 0) =
      fun name => n * Program.drift body name := by simp
  have hfinal := (hlast.trans (Machine.advances_leave hcode hloops hzero)).congr hamount rfl
  refine ⟨_, hfinal.of_steps_le hsteps, rfl, ?_, rfl, rfl⟩
  show m.line + 1 + body.length + 1 = m.line + body.length + 2
  omega

/-- Where the guard never gets to zero, the loop is never left. -/
theorem unending (h : CountingLoop m.store guard header body closer)
    (hcode : m.code = header :: (body ++ closer :: rest)) (hvalue : m.store.get? guard = some value)
    (hne : ∀ k : Nat, value + k * Program.drift body guard ≠ 0) :
    m.Unending { o with limit := none } (Event.IsSilent o) := by
  intro n
  obtain ⟨next, hnext, -, -⟩ := h.exists_advances_rounds (o := { o with limit := none }) rfl hcode
    hvalue n fun k _ => hne k
  refine ⟨next, hnext.reaches, ?_, hnext.log⟩
  rw [hnext.steps_eq]
  calc n ≤ n * (1 + (Program.tokenLists body).length) := Nat.le_mul_of_pos_right n (by omega)
    _ < m.steps + (1 + n * (1 + (Program.tokenLists body).length)) := by omega

/-- All lines of a loop that stands alone are those of its statements. -/
theorem between_resume (header closer : Statement) (body : Program) (firstLine : Int)
    (a : Account) :
    (({ program := header :: (body ++ [closer]), firstLine } : Scope).resume a).Between firstLine
      (firstLine + (body.length + 2 : Nat)) where
  le_line := by simp [Scope.resume, Account.machine]
  code_le := by
    simp only [Scope.resume, Account.machine, Int.toNat_zero, List.drop_zero, List.length_cons,
      List.length_append, List.length_nil]
    omega
  loops := by simp [Scope.resume, Account.machine]

/-- If the lines of these statements are written, so is that of a fault. -/
theorem isWritable_line {firstLine : Int} {a : Account} {e : Ending}
    (hlines : ∀ index < body.length + 2, Numeral.isWritable (firstLine + index))
    (he : (({ program := header :: (body ++ [closer]), firstLine } : Scope).resume a).Ends o e)
    {fault : Fault} (hfault : fault ∈ e.fault) : Numeral.isWritable fault.line := by
  obtain ⟨hge, hlt⟩ := he.line_of_fault (between_resume header closer body firstLine a) hfault
  have hwritten := hlines (fault.line - firstLine).toNat (by omega)
  rwa [show firstLine + ((fault.line - firstLine).toNat : Int) = fault.line by omega] at hwritten

end CountingLoop

/-- What has been done by a counting loop that was run through so many times: each variable has
moved by what the body moves it, as often as that, and nothing was put out. The last event is that
the loop was left, after that number of iterations. -/
structure Account.Counted (body : Program) (iterations : Nat) (a b : Account) : Prop where
  names : b.store.names = a.store.names
  get? : ∀ name, b.store.get? name =
    (a.store.get? name).map (· + iterations * Program.drift body name)
  steps : b.steps = a.steps + (1 + iterations * (1 + (Program.tokenLists body).length))
  output : b.output = a.output
  left : ∃ header, b.log.head? = some (.left header iterations)

theorem Machine.Advances.counted {o : Options} {body : Program} {n : Nat} {a : Account}
    {code : Program} {line header : Int} {loops : List Loop} {final : Machine}
    (h : (a.machine code line loops).Advances o (fun name => n * Program.drift body name)
      (1 + n * (1 + (Program.tokenLists body).length)) final)
    (hleft : final.log.head? = some (.left header n)) : a.Counted body n final.account where
  names := h.store.names
  get? := h.store.get?
  steps := h.steps_eq
  output := h.output_eq
  left := ⟨header, hleft⟩

/-- What becomes of a counting loop, from any store in which its variables are known. Where some
number of iterations takes the guard to zero, there is a least one, and if the budget allows the
steps the machine comes behind the loop after that number of iterations, in any context. An
execution of the loop alone then comes to its end.

Where no number of iterations does that, the loop is never left: without a budget the run has no
ending, and under any budget it ends because the budget is spent.

An execution may end early at an integer that is not written. Without a trace there is none, as
long as the line of the fault is written. -/
theorem CountingLoop.closed_form {guard : Text} {header closer : Statement} {body : Program}
    {value : Int} (a : Account) (h : CountingLoop a.store guard header body closer)
    (hvalue : a.store.get? guard = some value) (o : Options) :
    (∀ n : Nat, IsLeast {k : Nat | value + k * Program.drift body guard = 0} n →
      (∀ limit ∈ o.limit,
        ((a.steps + (1 + n * (1 + (Program.tokenLists body).length)) : Nat) : Int) ≤ limit.steps) →
      (∀ rest line loops, ∃ final,
        (a.machine (header :: (body ++ closer :: rest)) line loops).Reaches o final ∧
          final.code = rest ∧ final.line = line + body.length + 2 ∧ final.loops = loops ∧
          a.Counted body n final.account) ∧
      ∀ firstLine : Int,
        let scope : Scope := { program := header :: (body ++ [closer]), firstLine }
        (∀ verdict, scope.Executes o a verdict → verdict.stop ≠ some .unwritable →
          verdict.stop = none ∧ a.Counted body n verdict.account) ∧
        (o.trace = false → ∃ verdict, scope.Executes o a verdict ∧ verdict.stop = none)) ∧
    ((∀ k : Nat, value + k * Program.drift body guard ≠ 0) →
      (∀ rest line loops,
        let m := a.machine (header :: (body ++ closer :: rest)) line loops
        (o.limit = none → ∀ e, ¬ m.Ends o e) ∧
          ∀ limit ∈ o.limit, ∃ e, m.Ends o e ∧ e.Exhausted) ∧
      ∀ firstLine : Int,
        let scope : Scope := { program := header :: (body ++ [closer]), firstLine }
        (∀ verdict, scope.Executes o a verdict → verdict.stop ≠ some .unwritable →
          ∃ fault, verdict.stop = some (.fault fault) ∧ fault.kind = .stepLimit) ∧
        (o.trace = false → (o.limit = none → ∀ verdict, ¬ scope.Executes o a verdict) ∧
          ((∀ index < body.length + 2, Numeral.isWritable (firstLine + index)) →
            ∀ limit ∈ o.limit, ∃ verdict, scope.Executes o a verdict ∧
              verdict.stop ≠ some .unwritable))) := by
  have hresume : ∀ firstLine : Int,
      ({ program := header :: (body ++ [closer]), firstLine } : Scope).resume a =
        a.machine (header :: (body ++ [closer])) firstLine [] := by
    simp [Scope.resume]
  refine ⟨fun n hn hsteps => ⟨fun rest line loops => ?_, fun firstLine => ?_⟩,
    fun hne => ⟨fun rest line loops => ?_, fun firstLine => ?_⟩⟩
  · obtain ⟨final, hfinal, hcode, hline, hloops, hleft⟩ := exists_advances_of_isLeast
      (m := a.machine (header :: (body ++ closer :: rest)) line loops) h rfl hvalue hn hsteps
    exact ⟨final, hfinal.reaches, hcode, hline, hloops, hfinal.counted hleft⟩
  · intro scope
    obtain ⟨final, hfinal, hcode, -, hloops, hleft⟩ := exists_advances_of_isLeast
      (m := a.machine (header :: (body ++ [closer])) firstLine []) h rfl hvalue hn hsteps
    have hloops : final.loops = [] := hloops
    have hdone : final.step o = .finished := by simp only [Machine.step, hcode, hloops]
    have he := hfinal.reaches.ends_iff.2 (.finished hdone)
    rw [← hresume] at he
    refine ⟨fun verdict hverdict hstop => ?_, fun htrace => ?_⟩
    · obtain ⟨e, he', rfl⟩ := hverdict.exists_ends (Int.le_refl 0) hstop
      obtain rfl := he'.unique he
      exact ⟨rfl, hfinal.counted hleft⟩
    · have hgives := he.gives (hfinal.since_isWritable htrace) (by simp)
      exact ⟨_, (Scope.executes_iff_gives (Int.le_refl 0)).2 hgives, rfl⟩
  · intro m
    have hunending : m.Unending { o with limit := none } (Event.IsSilent o) :=
      h.unending (m := m) rfl hvalue hne
    refine ⟨fun hl e => hunending.not_ends_of_limit hl, fun limit hlimit => ?_⟩
    obtain ⟨e, he⟩ := Machine.exists_ends_of_limit (m := m) hlimit
    exact ⟨e, he, (hunending.exhausted he).1⟩
  · intro scope
    have hunending : (scope.resume a).Unending { o with limit := none } (Event.IsSilent o) :=
      h.unending (m := scope.resume a) rfl hvalue hne
    refine ⟨fun verdict hverdict hstop => ?_, fun htrace => ?_⟩
    · obtain ⟨e, he, rfl⟩ := hverdict.exists_ends (Int.le_refl 0) hstop
      obtain ⟨fault, hfault, hkind⟩ := Option.map_eq_some_iff.1 (hunending.exhausted he).1
      exact ⟨fault, by simp [Ending.verdict, hfault], hkind⟩
    · have hwritten := hunending.mono fun event hevent => hevent.2 htrace
      refine ⟨fun hl verdict hverdict => ?_, fun hlines limit hlimit => ?_⟩
      · exact hwritten.not_gives hl ((Scope.executes_iff_gives (Int.le_refl 0)).1 hverdict)
      · obtain ⟨e, hgives⟩ :=
          hwritten.exists_gives hlimit fun e he fault => isWritable_line hlines he
        refine ⟨_, (Scope.executes_iff_gives (Int.le_refl 0)).2 hgives, ?_⟩
        cases hfault : e.fault <;> simp [Ending.verdict, hfault]

/-- Takes two from `g` and adds one to `v`. -/
def strides : Program := ["decr g", " ", "incr v", " decr  g"]

/-- From six, the guard gets to zero after three iterations; from five it steps over zero. -/
theorem CountingLoop.closed_form_strides :
    (∃ final, (Account.machine { store := Store.ofList [("v", -1), ("g", 6)] }
        ("while g not 0 do" :: (strides ++ (["end", "print v"] : Program))) 1 []).Reaches
          (.ofBudget (some 13) true) final ∧
      final.code = ["print v"] ∧ final.line = 7 ∧ final.steps = 13 ∧
      final.store.names = ["v", "g"] ∧ final.store.get? "v" = some 2 ∧
      final.store.get? "g" = some 0) ∧
    ∀ budget : Int, ∃ e, (Account.machine { store := Store.ofList [("v", -1), ("g", 5)] }
        ("while g not 0 do" :: (strides ++ (["end"] : Program))) 1 []).Ends
          (.ofBudget (some budget) true) e ∧
      e.Exhausted := by
  have hlists : Program.tokenLists strides =
      [[Keyword.decrement.text, "g"], [Keyword.increment.text, "v"],
        [Keyword.decrement.text, "g"]] := by decide +kernel
  have hguard : Program.drift strides "g" = -2 := by decide +kernel
  have hvalue : Program.drift strides "v" = 1 := by decide +kernel
  have hget : ∀ value : Int, (Store.ofList [("v", -1), ("g", value)]).get? "g" = some value :=
    fun _ => rfl
  have hloop : ∀ value : Int, CountingLoop (Store.ofList [("v", -1), ("g", value)]) "g"
      "while g not 0 do" strides "end" := by
    intro value
    have hg : ("g" : Text) ∈ Store.ofList [("v", -1), ("g", value)] :=
      Store.get?_isSome_iff.1 rfl
    have hv : ("v" : Text) ∈ Store.ofList [("v", -1), ("g", value)] :=
      Store.get?_isSome_iff.1 rfl
    refine ⟨by decide +kernel, hg, by decide, fun tokens htokens => ?_, by decide +kernel⟩
    rw [hlists] at htokens
    simp only [List.mem_cons, List.not_mem_nil, or_false] at htokens
    rcases htokens with rfl | rfl | rfl
    · exact ⟨_, _, .decrement hg (by decide)⟩
    · exact ⟨_, _, .increment hv (by decide)⟩
    · exact ⟨_, _, .decrement hg (by decide)⟩
  constructor
  · obtain ⟨hreturns, -⟩ := closed_form { store := Store.ofList [("v", -1), ("g", 6)] } (hloop 6)
      (hget 6) (.ofBudget (some 13) true)
    have hleast : IsLeast {k : Nat | (6 : Int) + k * Program.drift strides "g" = 0} 3 := by
      rw [hguard]
      refine ⟨rfl, fun k (hk : (6 : Int) + k * -2 = 0) => ?_⟩
      omega
    obtain ⟨hcomes, -⟩ := hreturns 3 hleast (by simp [Options.ofBudget, Limit.ofInt, hlists])
    obtain ⟨final, hreach, hcode, hline, -, hcounted⟩ := hcomes ["print v"] 1 []
    refine ⟨final, hreach, hcode, hline, hcounted.steps.trans (by simp [hlists]),
      hcounted.names.trans rfl, (hcounted.get? "v").trans ?_, (hcounted.get? "g").trans ?_⟩
    · rw [hvalue]
      rfl
    · rw [hguard]
      rfl
  · intro budget
    obtain ⟨-, hstays⟩ := closed_form { store := Store.ofList [("v", -1), ("g", 5)] } (hloop 5)
      (hget 5) (.ofBudget (some budget) true)
    obtain ⟨hruns, -⟩ := hstays fun k => by rw [hguard]; omega
    exact (hruns [] 1 []).2 (.ofInt budget) rfl

end CounterLang
