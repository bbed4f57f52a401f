import CounterLang.Proofs.Alike

/-!
# Bystanders

A statement looks at one variable, which is its second token, and changes no other. So variables
that no statement of a program names stand aside: they keep their values and their places, and all
else is as it would be without them. Only a trace shows them, for it shows whole stores.

## Main definitions

* `Store.restrict`: the entries under some of the names.
* `Store.Beside`, `Machine.Beside`: a store or a machine has bystanders beside what another one has.
* `Verdict.Disregards`: a verdict is another one with bystanders in its store.

## Main statements

* `Command.read_of_beside`, `Machine.Beside.perform`: a statement that names no bystander is read
  and carried out as if there were none.
* `Machine.Beside.step`: so is a transition made.
* `Program.bystanders_irrelevant`: so are programs executed.
-/

namespace CounterLang

/-! ## Stores -/

namespace Store

variable {keep aside : Text → Bool} {extra s t : Store} {name : Text}

/-- The entries under the names that are kept, in the same order. -/
def restrict (keep : Text → Bool) (s : Store) : Store where
  entries := s.entries.filter fun entry => keep entry.1
  nodup := (List.filter_sublist.map Prod.fst).nodup s.nodup

theorem get?_restrict (h : keep name = true) : (s.restrict keep).get? name = s.get? name := by
  rw [get?, get?, restrict]
  simp only
  induction s.entries with
  | nil => rfl
  | cons entry entries ih =>
    obtain ⟨key, value⟩ := entry
    by_cases hkey : name = key
    · subst hkey
      simp [h]
    · have hother : (name == key) = false := by simpa using hkey
      rw [List.lookup_cons, hother, List.filter_cons]
      split
      · simpa [List.lookup_cons, hother] using ih
      · exact ih

/-- Setting a variable matters to the part of the store that it belongs to, and to no other. -/
theorem restrict_set (s : Store) (keep : Text → Bool) (name : Text) (value : Int) :
    (s.set name value).restrict keep =
      if keep name then (s.restrict keep).set name value else s.restrict keep := by
  have hentries : (Entries.assign name value s.entries).filter (fun entry => keep entry.1) =
      if keep name then Entries.assign name value (s.entries.filter fun entry => keep entry.1)
      else s.entries.filter fun entry => keep entry.1 := by
    induction s.entries with
    | nil => simp [Entries.assign, List.filter_cons]
    | cons entry entries ih =>
      by_cases hkey : entry.1 = name
      · subst hkey
        cases hkeep : keep entry.1 <;> simp [Entries.assign, hkeep]
      · cases hkeep : keep entry.1 <;> cases hname : keep name <;>
          simp_all [Entries.assign]
  apply Store.ext
  rw [apply_ite entries]
  exact hentries

/-- The names that have been added to a store. -/
def added (s t : Store) (name : Text) : Bool := decide (name ∈ t ∧ name ∉ s)

theorem filter_eq_of_sublist {entries more : Entries Int} (h : entries.Sublist more)
    (hnodup : (more.map Prod.fst).Nodup) :
    more.filter (fun entry => decide (entry.1 ∈ entries.map Prod.fst)) = entries := by
  induction h with
  | slnil => rfl
  | @cons entries more entry hsub ih =>
    rw [List.map_cons, List.nodup_cons] at hnodup
    have hnew : entry.1 ∉ entries.map Prod.fst := fun hmem =>
      hnodup.1 ((hsub.map Prod.fst).subset hmem)
    rw [List.filter_cons_of_neg (by simpa using hnew), ih hnodup.2]
  | @cons_cons entries more entry hsub ih =>
    rw [List.map_cons, List.nodup_cons] at hnodup
    have hrest : more.filter (fun other => decide (other.1 ∈ (entry :: entries).map Prod.fst)) =
        more.filter (fun other => decide (other.1 ∈ entries.map Prod.fst)) := by
      refine List.filter_congr fun other hother => ?_
      have hne : other.1 ≠ entry.1 := fun heq => hnodup.1 (heq ▸ List.mem_map_of_mem hother)
      simp only [List.map_cons, List.mem_cons, hne, false_or]
    rw [List.filter_cons_of_pos (by simp), hrest, ih hnodup.2]

/-- The second store has the entries of the first and, at any places among them, those of `extra`,
which are all the entries under names that stand aside. -/
structure Beside (aside : Text → Bool) (s extra t : Store) : Prop where
  others : t.restrict (fun name => !aside name) = s
  extra : t.restrict aside = extra

theorem beside_of_sublist (h : s.entries.Sublist t.entries) :
    s.Beside (added s t) (t.restrict (added s t)) t where
  others := by
    refine Store.ext ((List.filter_congr fun entry hentry => ?_).trans
      (filter_eq_of_sublist h t.nodup))
    have hmem : entry.1 ∈ t := List.mem_map_of_mem hentry
    have hiff : entry.1 ∈ s.entries.map Prod.fst ↔ entry.1 ∈ s := Iff.rfl
    simp [added, hmem, hiff]
  extra := rfl

theorem Beside.get?_eq (h : s.Beside aside extra t) (hname : aside name = false) :
    t.get? name = s.get? name := by
  rw [← h.others, get?_restrict (by simp [hname])]

theorem Beside.mem_iff (h : s.Beside aside extra t) (hname : aside name = false) :
    name ∈ t ↔ name ∈ s := by
  rw [← get?_isSome_iff, h.get?_eq hname, get?_isSome_iff]

theorem Beside.set (h : s.Beside aside extra t) (hname : aside name = false) (value : Int) :
    (s.set name value).Beside aside extra (t.set name value) where
  others := by rw [restrict_set, if_pos (by simp [hname]), h.others]
  extra := by rw [restrict_set, if_neg (by simp [hname]), h.extra]

end Store

/-! ## Reading statements -/

/-- No statement has a name that stands aside as its second token. -/
def Program.Spares (aside : Text → Bool) (program : Program) : Prop :=
  ∀ statement ∈ program, ∀ name ∈ (Statement.tokens statement)[1]?, aside name = false

namespace Command

variable {aside : Text → Bool} {extra s t : Store} {line : Int} {word : Text}
  {operands : List Text} {command : Command}

/-- The variable that a command is about. -/
def subject? : Command → Option Text
  | clear name | increment name | decrement name | print name | loop name => some name
  | ignore _ => none

/-- The variable that a command is about is the second token of its statement. -/
theorem head?_of_read {name : Text} (h : read s line word operands = .ok command)
    (hname : command.subject? = some name) : operands.head? = some name := by
  cases spelled_of_read h with
  | conditional | function => cases hname
  | clear | increment | decrement | print | loop => exact hname

/-- A statement that names no bystander is read as if there were none. -/
theorem read_of_beside (h : s.Beside aside extra t)
    (hspares : ∀ name ∈ operands.head?, aside name = false) :
    read t line word operands = read s line word operands := by
  cases operands with
  | nil => rfl
  | cons operand more =>
    have hmem : operand ∈ t ↔ operand ∈ s := h.mem_iff (hspares operand rfl)
    simp only [read, loopHeader, hmem]

end Command

/-! ## Machines -/

/-- No code of the loop has a name that stands aside, and its guard is none. -/
structure Loop.Spares (aside : Text → Bool) (loop : Loop) : Prop where
  guard : aside loop.guard = false
  body : loop.body.Spares aside
  rest : loop.rest.Spares aside

/-- The same has been done, but for bystanders in the store. -/
inductive Account.Beside (aside : Text → Bool) (extra : Store) (a : Account) : Account → Prop where
  | intro {store : Store} (hstore : a.store.Beside aside extra store) :
      Beside aside extra a { a with store }

/-- The same ending, but for bystanders in the store. -/
inductive Verdict.Beside (aside : Text → Bool) (extra : Store) (v : Verdict) : Verdict → Prop where
  | intro {account : Account} (haccount : v.account.Beside aside extra account) :
      Beside aside extra v { v with account }

namespace Machine

/-- The machines are the same but for bystanders in the store, which none of the code that is left
to run names. -/
inductive Beside (aside : Text → Bool) (extra : Store) (m : Machine) : Machine → Prop where
  | intro {store : Store} (hcode : m.code.Spares aside)
      (hloops : ∀ loop ∈ m.loops, loop.Spares aside) (hstore : m.store.Beside aside extra store) :
      Beside aside extra m { m with store }

/-- The transitions lead to the same but for bystanders in the store. -/
inductive Outcome.Beside (aside : Text → Bool) (extra : Store) : Outcome → Outcome → Prop where
  | running {m n : Machine} (h : m.Beside aside extra n) :
      Beside aside extra (.running m) (.running n)
  | finished : Beside aside extra .finished .finished
  | failed {m n : Machine} (fault : Fault) (h : m.Beside aside extra n) :
      Beside aside extra (.failed fault m) (.failed fault n)

variable {aside : Text → Bool} {extra : Store} {m n : Machine} {o : Options} {line restLine : Int}
  {rest : Program} {command : Command} {word : Text} {operands : List Text}

theorem Beside.goto (h : m.Beside aside extra n) (hrest : rest.Spares aside) :
    (m.goto rest restLine).Beside aside extra (n.goto rest restLine) := by
  cases h with
  | intro _ hloops hstore => exact .intro (m := m.goto rest restLine) hrest hloops hstore

theorem Beside.tick (h : m.Beside aside extra n) : m.tick.Beside aside extra n.tick := by
  cases h with
  | intro hcode hloops hstore => exact .intro (m := m.tick) hcode hloops hstore

theorem Beside.count {k k' : Machine → Outcome} (h : m.Beside aside extra n)
    (hk : (k m.tick).Beside aside extra (k' n.tick)) :
    (m.count o line k).Beside aside extra (n.count o line k') := by
  have hbudget : n.tick.exceeded? o = m.tick.exceeded? o := by
    cases h
    rfl
  simp only [Machine.count, hbudget]
  split
  · exact .failed _ h.tick
  · exact hk

/-- A command that is about no bystander does to the other variables what it does without
bystanders, and to bystanders nothing. -/
theorem Beside.perform (h : m.Beside aside extra n) (hrest : rest.Spares aside)
    (hsubject : ∀ name ∈ command.subject?, aside name = false) :
    Matched Eq (Beside aside extra) (m.perform line rest restLine command)
      (n.perform line rest restLine command) := by
  cases h with
  | @intro store hcode hloops hstore =>
    cases command with
    | clear name => exact .ok (.intro hrest hloops (hstore.set (hsubject name rfl) 0))
    | ignore keyword => exact .ok (.intro hrest hloops hstore)
    | increment name =>
      have hname := hsubject name rfl
      simp only [Machine.perform, Store.increment, Store.get, hstore.get?_eq hname]
      cases m.store.get? name with
      | none => exact .error rfl
      | some value => exact .ok (.intro hrest hloops (hstore.set hname _))
    | decrement name =>
      have hname := hsubject name rfl
      simp only [Machine.perform, Store.decrement, Store.get, hstore.get?_eq hname]
      cases m.store.get? name with
      | none => exact .error rfl
      | some value => exact .ok (.intro hrest hloops (hstore.set hname _))
    | print name =>
      simp only [Machine.perform, Store.get, hstore.get?_eq (hsubject name rfl)]
      cases m.store.get? name with
      | none => exact .error rfl
      | some value => exact .ok (.intro hrest hloops hstore)
    | loop guard =>
      simp only [Machine.perform]
      cases hblock : Block.split? 0 rest with
      | none => exact .error rfl
      | some block =>
        obtain ⟨closer, -, rfl⟩ := Block.append_of_split?_eq_some hblock
        have hloop : ∀ header, Loop.Spares aside
            { guard, header, body := block.body, bodyLine := restLine, rest := block.rest,
              restLine := restLine + block.body.length + 1 } := fun header =>
          { guard := hsubject guard rfl
            body := fun statement hstatement => hrest statement (by simp [hstatement])
            rest := fun statement hstatement => hrest statement (by simp [hstatement]) }
        exact .ok (.intro (by simp [enter, Program.Spares])
          (List.forall_mem_cons.2 ⟨hloop line, hloops⟩) hstore)

/-- A statement that names no bystander does the same as if there were none. -/
theorem Beside.dispatch (h : m.Beside aside extra n) (hrest : rest.Spares aside)
    (hspares : ∀ name ∈ operands.head?, aside name = false) :
    Matched Eq (Beside aside extra) (m.dispatch line word operands rest restLine)
      (n.dispatch line word operands rest restLine) := by
  have hread : Command.read n.store line word operands =
      Command.read m.store line word operands := by
    cases h with
    | intro _ _ hstore => exact Command.read_of_beside hstore hspares
  simp only [Machine.dispatch, hread]
  cases hcommand : Command.read m.store line word operands with
  | error fault => exact .error rfl
  | ok command =>
    exact h.perform hrest fun name hname =>
      hspares name (Command.head?_of_read hcommand hname)

/-- Back at the header of a loop, bystanders do not matter either. -/
theorem Beside.iterate {loop : Loop} {outer : List Loop} (h : m.Beside aside extra n)
    (hloops : m.loops = loop :: outer) :
    (m.iterate o loop outer).Beside aside extra (n.iterate o loop outer) := by
  have hbeside := h
  cases h with
  | @intro store hcode hall hstore =>
    rw [hloops, List.forall_mem_cons] at hall
    obtain ⟨hloop, houter⟩ := hall
    simp only [Machine.iterate, hstore.get?_eq hloop.guard]
    split
    · exact .failed _ hbeside
    · split
      · exact .running (.intro hloop.rest houter hstore)
      · have hagain : Loop.Spares aside { loop with iterations := loop.iterations + 1 } :=
          ⟨hloop.guard, hloop.body, hloop.rest⟩
        exact hbeside.count
          (.running (.intro hloop.body (List.forall_mem_cons.2 ⟨hagain, houter⟩) hstore))

/-- Without a trace, a transition does the same as if there were no bystanders. -/
theorem Beside.step (h : m.Beside aside extra n) (htrace : o.trace = false) :
    (m.step o).Beside aside extra (n.step o) := by
  have hshape : n.code = m.code ∧ n.loops = m.loops ∧ n.line = m.line ∧ m.code.Spares aside := by
    cases h with
    | intro hcode => exact ⟨rfl, rfl, rfl, hcode⟩
  obtain ⟨hsame, hloops', hline, hspares⟩ := hshape
  cases hcode : m.code with
  | nil =>
    have hcode' := hsame.trans hcode
    cases hloops : m.loops with
    | nil =>
      simp only [Machine.step, hcode, hcode', hloops, hloops']
      exact .finished
    | cons loop outer =>
      rw [step_of_loops hcode hloops, step_of_loops hcode' (hloops'.trans hloops)]
      exact h.iterate hloops
  | cons statement rest =>
    rw [hcode, Program.Spares, List.forall_mem_cons] at hspares
    obtain ⟨hstatement, hrest⟩ := hspares
    have hcode' := hsame.trans hcode
    cases htokens : Statement.tokens statement with
    | nil =>
      rw [step_of_tokens_eq_nil hcode htokens, step_of_tokens_eq_nil hcode' htokens, hline]
      exact .running (h.goto hrest)
    | cons word operands =>
      have hhead : ∀ name ∈ operands.head?, aside name = false := by
        intro name hname
        refine hstatement name ?_
        rwa [htokens, List.getElem?_cons_succ, ← List.head?_eq_getElem?]
      have hquiet : ∀ (m : Machine) (line : Int), m.announce o line statement = m := by
        simp [announce, htrace]
      simp only [Machine.step, hcode, hcode', htokens, hquiet, hline]
      refine h.count ?_
      have hline' : n.tick.line = m.tick.line := hline
      have hdispatch : Matched Eq (Beside aside extra)
          (m.tick.dispatch m.tick.line word operands rest (m.tick.line + 1))
          (n.tick.dispatch m.tick.line word operands rest (m.tick.line + 1)) :=
        h.tick.dispatch hrest hhead
      rw [hline']
      generalize m.tick.dispatch _ _ _ _ _ = result at hdispatch ⊢
      generalize n.tick.dispatch _ _ _ _ _ = result' at hdispatch ⊢
      cases hdispatch with
      | ok hnext => exact .running hnext
      | error hfault => exact hfault ▸ .failed _ h.tick

/-! ## Executions -/

/-- What is written does not depend on bystanders. -/
theorem Outcome.Beside.write {outcome other : Outcome} {a b : Account}
    (h : outcome.Beside aside extra other) (ha : a.Beside aside extra b) :
    Matched (Verdict.Beside aside extra) (Machine.Beside aside extra) (outcome.write a)
      (other.write b) := by
  cases ha with
  | @intro store hstore =>
    cases h with
    | finished => exact .error (.intro (.intro hstore))
    | running h =>
      cases h with
      | intro hcode hloops hnext =>
        simp only [Outcome.write, Account.writeAll_eq]
        split
        · exact .ok (.intro hcode hloops hnext)
        · exact .error (.intro (.intro hstore))
    | failed fault h =>
      cases h with
      | intro hcode hloops hlast =>
        simp only [Outcome.write, Account.writeAll_eq]
        split
        · exact .error (.intro (.intro hlast))
        · exact .error (.intro (.intro hstore))

theorem Beside.attempt (h : m.Beside aside extra n) (htrace : o.trace = false) :
    Matched (Verdict.Beside aside extra) (Beside aside extra) (m.attempt o) (n.attempt o) := by
  cases h with
  | intro hcode hloops hstore =>
    have hempty : Beside aside extra { m with log := [] } { m with store := _, log := [] } :=
      .intro hcode hloops hstore
    exact (hempty.step htrace).write (.intro hstore)

theorem Beside.pursue (h : m.Beside aside extra n) (htrace : o.trace = false) (fuel : Nat) :
    Option.Rel (Verdict.Beside aside extra) (m.pursue o fuel) (n.pursue o fuel) := by
  induction fuel generalizing m n with
  | zero => exact .none
  | succ fuel ih =>
    have hattempt := h.attempt htrace
    simp only [Machine.pursue]
    generalize m.attempt o = result at hattempt ⊢
    generalize n.attempt o = other at hattempt ⊢
    cases hattempt with
    | ok hnext => exact ih hnext
    | error hverdict => exact .some hverdict

end Machine

/-- The second verdict is the first with bystanders in the store, which are still what they are in
the store `start`. -/
structure Verdict.Disregards (aside : Text → Bool) (start : Store) (v w : Verdict) : Prop where
  /-- Both come to the end, or both stop early, for the same reason. -/
  stop : w.stop = v.stop
  steps : w.account.steps = v.account.steps
  output : w.account.output = v.account.output
  log : w.account.log = v.account.log
  /-- Without the bystanders the stores are the same, in the same order. -/
  others : w.account.store.restrict (fun name => !aside name) = v.account.store
  /-- The bystanders have kept their values and their order. -/
  bystanders : w.account.store.restrict aside = start.restrict aside
  value : ∀ name, aside name = true → w.account.store.get? name = start.get? name

theorem Verdict.Beside.disregards {aside : Text → Bool} {start : Store} {v w : Verdict}
    (h : v.Beside aside (start.restrict aside) w) : v.Disregards aside start w := by
  cases h with
  | intro h =>
    cases h with
    | intro h =>
      refine ⟨rfl, rfl, rfl, rfl, h.others, h.extra, fun name hname => ?_⟩
      rw [← Store.get?_restrict hname, h.extra, Store.get?_restrict hname]

namespace Program

variable {program : Program} {o : Options} {store : Store}

/-- Variables that a program does not name neither change nor matter. Let a store have more entries
than another one, at any places among those, and let no statement have one of their names as its
second token. Then without a trace an execution from either store ends if and only if the one from
the other does, whatever the budget is, where it sets out and what has been done before. It ends for
the same reason, with the same fault if it is one, after the same number of steps and with the same
output; the entries that have been added are as they were, and without them the stores are the
same. -/
theorem bystanders_irrelevant (firstLine : Int) (cursor : Nat) (a : Account)
    (htrace : o.trace = false) (hinsert : a.store.entries.Sublist store.entries)
    (hunnamed : ∀ name ∈ store, name ∉ a.store → ∀ statement ∈ program,
      (Statement.tokens statement)[1]? ≠ some name) :
    let scope : Scope := { program, firstLine, cursor }
    (∀ v, scope.Executes o a v → ∃ w, scope.Executes o { a with store } w ∧
      v.Disregards (a.store.added store) store w) ∧
    ∀ w, scope.Executes o { a with store } w → ∃ v, scope.Executes o a v ∧
      v.Disregards (a.store.added store) store w := by
  intro scope
  have hspares : program.Spares (a.store.added store) := by
    intro statement hstatement name hname
    refine decide_eq_false fun ⟨hmem, hnew⟩ => ?_
    exact hunnamed name hmem hnew statement hstatement hname
  have hbeside : (scope.resume a).Beside (a.store.added store)
      (store.restrict (a.store.added store)) (scope.resume { a with store }) :=
    .intro (m := scope.resume a)
      (fun statement hstatement => hspares statement (List.mem_of_mem_drop hstatement))
      (by simp [scope, Scope.resume, Account.machine]) (Store.beside_of_sublist hinsert)
  have hcursor : 0 ≤ scope.cursor := Int.natCast_nonneg cursor
  simp only [Scope.executes_iff_pursue hcursor]
  constructor
  · rintro v ⟨fuel, hv⟩
    have hpursue := hbeside.pursue htrace fuel
    rw [hv] at hpursue
    generalize hw : (scope.resume { a with store }).pursue o fuel = result at hpursue
    cases hpursue with
    | some h => exact ⟨_, ⟨fuel, hw⟩, h.disregards⟩
  · rintro w ⟨fuel, hw⟩
    have hpursue := hbeside.pursue htrace fuel
    rw [hw] at hpursue
    generalize hv : (scope.resume a).pursue o fuel = result at hpursue
    cases hpursue with
    | some h => exact ⟨_, ⟨fuel, hv⟩, h.disregards⟩

/-- It counts `x` down and `y` up, and comes to a variable that was never cleared. -/
def countdownThenFault : Program :=
  ["clear y", "while x not 0 do", "incr y", "print y", "decr x", "end", "decr z"]

/-- The bystanders stand before, between and behind the variables of the program, and one of them
has a name that the program uses as a keyword. -/
theorem bystanders_irrelevant_countdownThenFault :
    ∃ w, Scope.Executes { trace := false } { program := countdownThenFault }
        { store := Store.ofList [("a", 7), ("x", 2), ("end", -5), ("y", 9), ("b", 0)] } w ∧
      w.stop = some (.fault (.undefinedVariable 7 "z")) ∧ w.account.output = ["1", "2"] ∧
      w.account.steps = 11 ∧ w.account.store.get? "end" = some (-5) := by
  let before : Account := { store := Store.ofList [("x", 2), ("y", 9)] }
  let store := Store.ofList [("a", 7), ("x", 2), ("end", -5), ("y", 9), ("b", 0)]
  have hinsert : before.store.entries.Sublist store.entries := by decide +kernel
  have hunnamed : ∀ name ∈ store.names, name ∉ before.store → ∀ statement ∈ countdownThenFault,
      (Statement.tokens statement)[1]? ≠ some name := by decide +kernel
  let start : Machine := Scope.resume { program := countdownThenFault } before
  have hpursue : (start.pursue { trace := false } 40).map
      (fun v => (v.stop, v.account.output, v.account.steps)) =
        some (some (Stop.fault (.undefinedVariable 7 "z")), (["1", "2"] : List Text), 11) := by
    decide +kernel
  obtain ⟨v, hv, hvalues⟩ := Option.map_eq_some_iff.1 hpursue
  obtain ⟨hstop, houtput, hsteps⟩ : v.stop = _ ∧ v.account.output = _ ∧ v.account.steps = _ := by
    simpa using hvalues
  have hexecutes : Scope.Executes { trace := false } { program := countdownThenFault } before v :=
    (Scope.executes_iff_pursue (Int.le_refl 0)).2 ⟨40, hv⟩
  obtain ⟨hforth, -⟩ := bystanders_irrelevant (o := { trace := false }) 1 0 before rfl hinsert
    hunnamed
  obtain ⟨w, hw, h⟩ := hforth v hexecutes
  exact ⟨w, hw, h.stop.trans hstop, h.output.trans houtput, h.steps.trans hsteps,
    (h.value "end" (by decide +kernel)).trans (by decide +kernel)⟩

end Program

end CounterLang
