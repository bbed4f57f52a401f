import CounterLang.Proofs.Walks

/-!
# Outlines

An outline is a program with its loops as a tree. It is evaluated along the tree: no `end` is ever
looked for, and the lines come from the lengths of the parts before.

## Main definitions

* `Outline`: statements, and loops with an outline as their body.
* `Outline.flatten`: the program with the same statements.
* `Outline.evaluate`: the evaluation along the tree. It gives nothing if it does not end.

## Main statements

* `Outline.split?_flatten`: the search for an `end` passes over the statements of an outline.
-/

namespace CounterLang

/-- A program with its loops as a tree. -/
inductive Outline where
  /-- No statement. -/
  | nil
  /-- A statement that neither opens nor closes a block. -/
  | leaf (statement : Statement) (plain : Statement.role statement = .plain) (next : Outline)
  /-- A loop, from its header to the `end` that closes it. -/
  | loop (header : Statement) (heads : Statement.isLoopHeader header) (body : Outline)
      (closer : Statement) (closes : Statement.role closer = .closer) (next : Outline)

/-- The variable that a loop header names. -/
def Statement.guard (header : Statement) : Text := (tokens header).getD 1 []

namespace Account

/-- Counts a step for a line, if the budget allows the step. -/
def count (a : Account) (o : Options) (line : Int) : Except Verdict Account :=
  let a := { a with steps := a.steps + 1 }
  match o.limit with
  | none => .ok a
  | some limit =>
    if limit.steps < a.steps then .error (a.fail (.stepLimit line limit.text)) else .ok a

/-- What is shown of a statement before it runs. -/
def shown (a : Account) (o : Options) (line : Int) (statement : Statement) : List Event :=
  if o.trace then [.snapshot a.store, .entry line statement] else []

/-- Counts a statement, shows it and finds its command in order. A blank statement has none and is
passed over. -/
def consider (a : Account) (o : Options) (line : Int) (statement : Statement) :
    Except Verdict (Option Command × Account) :=
  match Statement.tokens statement with
  | [] => .ok (none, a)
  | word :: operands => do
    let a ← a.count o line
    let a ← a.writeAll (a.shown o line statement)
    let command ← (Command.read a.store line word operands).mapError a.fail
    .ok (some command, a)

/-- Carries out a command other than a loop. -/
def carryOut (a : Account) (line : Int) : Command → Except Verdict Account
  | .clear name => .ok { a with store := a.store.clear name }
  | .increment name => do
    let store ← (a.store.increment name line).mapError a.fail
    .ok { a with store }
  | .decrement name => do
    let store ← (a.store.decrement name line).mapError a.fail
    .ok { a with store }
  | .print name => do
    let value ← (a.store.get name line).mapError a.fail
    a.write (.printed value)
  | .ignore keyword => a.write (.ignored keyword line)
  | .loop _ => .ok a

/-- Runs a statement that opens no block. -/
def perform (a : Account) (o : Options) (line : Int) (statement : Statement) :
    Except Verdict Account := do
  let (command, a) ← a.consider o line statement
  match command with
  | none => .ok a
  | some command => a.carryOut line command

/-- Notes where the body of a loop is, before its first run. -/
def resolve (a : Account) (line : Int) (body : Program) : Account :=
  { a with log := .resolved line (line + 1) (line + 1 + body.length) :: a.log }

/-- Notes how often the body of a loop was run, after the last time. -/
def leave (a : Account) (line : Int) (iterations : Nat) : Account :=
  { a with log := .left line iterations :: a.log }

/-- Runs the body of the loop on a line until the guard is zero, counting a step each time. -/
def cycle (o : Options) (guard : Text) (line : Int)
    (body : Account → Option (Except Verdict Account)) (iterations : Nat) (a : Account) :
    Option (Except Verdict Account) :=
  match a.store.get? guard with
  | none => some (.error (a.fail (.undefinedVariable line guard)))
  | some value =>
    if value = 0 then some (.ok (a.leave line iterations))
    else
      match a.count o line with
      | .error verdict => some (.error verdict)
      | .ok a =>
        match body a with
        | none => none
        | some (.error verdict) => some (.error verdict)
        | some (.ok a) => a |>.cycle o guard line body (iterations + 1)
partial_fixpoint

end Account

namespace Outline

/-- The program with the same statements. -/
def flatten : Outline → Program
  | nil => []
  | leaf statement _ next => statement :: next.flatten
  | loop header _ body closer _ next => header :: (body.flatten ++ closer :: next.flatten)

/-- Evaluates an outline whose first statement is on a line; gives nothing if this does not end. -/
def evaluate (o : Options) : Outline → Int → Account → Option (Except Verdict Account)
  | nil, _, a => some (.ok a)
  | leaf statement _ next, line, a =>
    match a.perform o line statement with
    | .error verdict => some (.error verdict)
    | .ok a => next.evaluate o (line + 1) a
  | loop header _ body _ _ next, line, a =>
    match a.consider o line header with
    | .error verdict => some (.error verdict)
    | .ok (_, a) =>
      match (a.resolve line body.flatten).cycle o (Statement.guard header) line
          (body.evaluate o (line + 1)) 0 with
      | none => none
      | some (.error verdict) => some (.error verdict)
      | some (.ok a) => next.evaluate o (line + 1 + body.flatten.length + 1) a

/-- The search for an `end` passes over the statements of an outline. -/
theorem split?_flatten (outline : Outline) (depth : Nat) (rest : Program) :
    Block.split? depth (outline.flatten ++ rest) = (Block.split? depth rest).map fun block =>
      { block with body := outline.flatten ++ block.body } := by
  induction outline generalizing depth rest with
  | nil => simp [flatten]
  | leaf statement plain next ih =>
    simp only [flatten, List.cons_append, Block.split?_cons, plain, Statement.Role.after?, ih,
      Option.map_map]
    rfl
  | loop header heads body closer closes next ihbody ihnext =>
    have hopener := Statement.role_eq_opener_of_isLoopHeader heads
    simp only [flatten, List.cons_append, List.append_assoc, Block.split?_cons, hopener, closes,
      Statement.Role.after?, ihbody, ihnext, Option.map_map]
    rfl

/-- The body of a loop is what its header finds. -/
theorem split?_flatten_closer (body : Outline) {closer : Statement}
    (closes : Statement.role closer = .closer) (rest : Program) :
    Block.split? 0 (body.flatten ++ closer :: rest) = some ⟨body.flatten, rest⟩ := by
  rw [split?_flatten, Block.split?_cons, closes]
  simp [Statement.Role.after?]

end Outline

end CounterLang
