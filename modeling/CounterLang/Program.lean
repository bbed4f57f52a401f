import CounterLang.Text.Blank
import CounterLang.Word

/-!
# Programs

A program is a list of statement texts. Source text is cut into statements at each semicolon and at
nothing else, so blank statements count, and the index of a statement is also its line.

## Main definitions

* `Program.ofSource`, `Program.toSource`: between source text and statements.
* `Statement.tokens`: the tokens of a statement, cut at blanks.
* `Statement.role`: what a statement does to the nesting of blocks.
* `Program.startingAt`, `Program.slice`: the statements from a position on, and those between two
  positions. A position may count from the end.

## Main statements

* `Program.length_ofSource`: there is one statement more than there are semicolons.
* `Program.toSource_ofSource`, `Program.ofSource_toSource`: source text and statements without a
  semicolon determine each other.
-/

namespace CounterLang

/-- The text of one statement, without the semicolon that ends it. -/
abbrev Statement := Text

/-- The statements of a program, in order; blank ones count. -/
abbrev Program := List Statement

namespace Statement

/-- The tokens of a statement: its blank-free pieces. -/
def tokens (statement : Statement) : List Text := Text.words statement

def isBlank (statement : Statement) : Bool := (tokens statement).isEmpty

/-- What a statement does to the nesting of blocks. -/
inductive Role where
  | opener
  | closer
  | plain
deriving DecidableEq, Repr

/-- What a statement with these tokens does to the nesting of blocks: the first token decides. -/
def roleOfTokens : List Text → Role
  | [] => .plain
  | first :: _ =>
    if opensBlock first then .opener else if closesBlock first then .closer else .plain

def role (statement : Statement) : Role := roleOfTokens (tokens statement)

end Statement

/-- Why a position stands for no statement of a program. -/
inductive PositionError where
  /-- The program has no statement there. -/
  | outOfRange
  /-- No program has a statement there. -/
  | unaddressable
deriving DecidableEq, Repr

def PositionError.message : PositionError → Text
  | outOfRange => "list index out of range"
  | unaddressable => "cannot fit 'int' into an index-sized integer"

namespace Program

/-- The position that is furthest back. -/
def leastPosition : Int := -Int.pow 2 63

/-- The character that ends a statement. -/
def delimiter : CodePoint := ';'

/-- Cuts source text into statements. -/
def ofSource (source : Text) : Program := source.splitOn delimiter

def toSource (program : Program) : Text := [delimiter].intercalate program

/-- There is one statement more than there are semicolons. -/
theorem length_ofSource (source : Text) :
    (ofSource source).length = source.count delimiter + 1 := by
  simp [ofSource, List.splitOn_eq_splitOnP, Text.length_splitOnP, List.count]

/-- Cutting source text loses nothing. -/
@[simp] theorem toSource_ofSource (source : Text) : toSource (ofSource source) = source := by
  simp [toSource, ofSource, List.intercalate_splitOn]

/-- Any statements without a semicolon are those of some source text, if there is at least one. -/
theorem ofSource_toSource {program : Program} (hne : program ≠ [])
    (h : ∀ statement ∈ program, delimiter ∉ statement) : ofSource (toSource program) = program :=
  List.splitOn_intercalate delimiter h hne

def isBlank (program : Program) : Bool := program.all Statement.isBlank

/-- The statements from a position on. A negative position counts from the end, and the program
then follows once more from its start; there is no statement further back than the first. -/
def startingAt (program : Program) (position : Int) : Except PositionError Program :=
  if 0 ≤ position then .ok (program.drop position.toNat)
  else
    let back := (-position).toNat
    if back ≤ program.length then .ok (program.drop (program.length - back) ++ program)
    else if position < leastPosition then .error .unaddressable
    else .error .outOfRange

/-- The index that a position stands for, where a negative position counts from the end; a position
further back than the first statement stands for it. -/
def index (program : Program) (position : Int) : Nat :=
  if 0 ≤ position then position.toNat else (program.length + position).toNat

/-- The statements from one position up to another. -/
def slice (program : Program) (start stop : Int) : Program :=
  (program.take (program.index stop)).drop (program.index start)

/-- Between two indices lie the statements before the one without those before the other. -/
theorem slice_natCast (program : Program) (start stop : Nat) :
    program.slice start stop = (program.take stop).drop start := by
  simp [slice, index]

end Program

end CounterLang
