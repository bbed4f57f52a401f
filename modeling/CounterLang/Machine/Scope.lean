import CounterLang.Machine.Run

/-!
# Scopes

A scope is a program that is walked from any of its positions. A walk that sets out behind the start
of the program, at a position that counts from the end, comes round to the start and then takes the
whole program. Where a loop is headed before the start and closed after it, its body is the slice
between the two positions, which is empty unless the first of them comes first.

## Main definitions

* `Scope`: a program, the line of its first statement, and a cursor.
* `Scope.walk?`: the statements from the cursor on.
* `Scope.dispatch?`: one statement, given by its tokens, that stands at the cursor.
* `Walk`: how either of the two ended.
* `Block.find`, `Block.extract`: where the block at a position ends, and what it holds.
-/

namespace CounterLang

/-- A program with the position that a walk sets out from. -/
structure Scope where
  program : Program
  /-- The line of its first statement. -/
  firstLine : Int := 1
  /-- The position to set out from; a negative one counts from the end. -/
  cursor : Int := 0
deriving DecidableEq, Repr

/-- Why a walk stopped early. -/
inductive Stop where
  | fault (fault : Fault)
  /-- No statement stands where one was looked for. -/
  | position (error : PositionError)
  /-- An integer had more digits than are written. -/
  | unwritable
deriving DecidableEq, Repr

/-- The position of the `end` of the block that starts at a position, behind the header on a
line. -/
def Block.find (program : Program) (start header : Int) : Except Stop Int :=
  match search program start with
  | .closed position => .ok position
  | .unclosed => .error (.fault (.unterminatedBlock header))
  | .outside error => .error (.position error)

/-- The statements of that block, with the position of its `end`. -/
def Block.extract (program : Program) (start header : Int) : Except Stop (Program × Int) :=
  (find program start header).map fun stop => (program.slice start stop, stop)

/-- How a walk ended. -/
structure Walk where
  /-- The machine at the end. -/
  machine : Machine
  /-- Why the walk stopped early, if it did. -/
  stop : Option Stop := none
deriving DecidableEq, Repr

namespace Scope

/-- The position that a machine in the scope has come to. -/
def position (scope : Scope) (m : Machine) : Int := m.position - scope.firstLine

/-- A loop of the outermost block with the body that its lines delimit. -/
def place (scope : Scope) (loop : Loop) : Loop :=
  { loop with
    body := scope.program.slice (loop.bodyLine - scope.firstLine)
      (loop.restLine - 1 - scope.firstLine) }

/-- The machine after a statement of the outermost block. -/
def settle (scope : Scope) (m : Machine) : Machine := { m with loops := m.loops.map scope.place }

/-- The machine that stopped because of what `next`, its successor with a log of its own, has to
write. What comes before that is in the log. -/
def cutShort (m next : Machine) : Machine :=
  { m with
    steps := next.steps
    log := (next.log.reverse.takeWhile Event.isWritable).reverse ++ m.log }

/-- Walks from where a machine is, if the walk ends within `fuel` transitions. -/
def follow? (o : Options) (scope : Scope) : Nat → Machine → Option Walk
  | 0, _ => none
  | fuel + 1, m =>
    match { m with log := [] }.step o with
    | .finished => some { machine := m }
    | .running next =>
      if next.log.all Event.isWritable then
        let next := if m.loops.isEmpty then scope.settle next else next
        follow? o scope fuel { next with log := next.log ++ m.log }
      else some { machine := cutShort m next, stop := some .unwritable }
    | .failed fault last =>
      if last.log.all Event.isWritable && Numeral.isWritable fault.line then
        some { machine := { last with log := last.log ++ m.log }, stop := some (.fault fault) }
      else some { machine := cutShort m last, stop := some .unwritable }

/-- The machine at the cursor with nothing to run. -/
def idle (scope : Scope) (store : Store) : Machine where
  code := []
  line := scope.firstLine + scope.cursor
  store

/-- Walks from the cursor on, if the walk ends within `fuel` transitions. -/
def walk? (fuel : Nat) (o : Options) (scope : Scope) (store : Store) : Option Walk :=
  let idle := scope.idle store
  match scope.program.startingAt scope.cursor with
  | .ok code => follow? o scope fuel { idle with code }
  | .error error => some { machine := idle, stop := some (.position error) }

/-- Runs the statement at the cursor, whose tokens and line are given, with the blocks it opens, if
the run ends within `fuel` transitions. The statement itself counts no step. -/
def dispatch? (fuel : Nat) (o : Options) (scope : Scope) (store : Store) (tokens : List Text)
    (line : Int) : Option Walk :=
  let idle := scope.idle store
  match tokens with
  | [] => some { machine := idle, stop := some (.position .outOfRange) }
  | word :: operands =>
    let rest := scope.program.startingAt (scope.cursor + 1)
    match idle.dispatch line word operands (rest.toOption.getD [])
        (scope.firstLine + scope.cursor + 1), rest with
    | .ok next, _ => follow? o scope fuel (scope.settle next).confine
    -- Only the search for the end of a block looks at the statements behind the cursor.
    | .error (.unterminatedBlock _), .error error =>
      some { machine := idle, stop := some (.position error) }
    | .error fault, _ => some { machine := idle, stop := some (.fault fault) }

end Scope

end CounterLang
