import CounterLang.Program

/-!
# Blocks

A block starts after its header and ends at the first `end` that no block opened inside it needs.

## Main definitions

* `Block.split?`: the body of a block and what follows its `end`.
* `Block.endIndex?`: the same block found by position in a program.
* `Block.search`: the same for positions that may count from the end.

## Main statements

* `Block.append_of_split?_eq_some`: body, `end` and rest make up the statements that were cut.
-/

namespace CounterLang

/-- A block cut out of the statements that follow its header. -/
structure Block where
  /-- The statements between the header and the matching `end`. -/
  body : Program
  /-- The statements after the matching `end`. -/
  rest : Program
deriving DecidableEq, Repr

namespace Block

/-- The block with one more statement at the start of its body. -/
def cons (statement : Statement) (block : Block) : Block :=
  { block with body := statement :: block.body }

@[simp] theorem body_cons (s : Statement) (b : Block) : (b.cons s).body = s :: b.body := rfl

@[simp] theorem rest_cons (s : Statement) (b : Block) : (b.cons s).rest = b.rest := rfl

/-- Cuts the statements after a header at the `end` that closes it, with `depth` inner blocks still
open; `none` if there is no such `end`. -/
def split? (depth : Nat) : Program → Option Block
  | [] => none
  | statement :: rest =>
    match Statement.role statement, depth with
    | .closer, 0 => some ⟨[], rest⟩
    | .closer, depth + 1 => (split? depth rest).map (cons statement)
    | .opener, depth => (split? (depth + 1) rest).map (cons statement)
    | .plain, depth => (split? depth rest).map (cons statement)

/-- Body, `end` and rest make up the statements that were cut. -/
theorem append_of_split?_eq_some {depth : Nat} {program : Program} {block : Block}
    (h : split? depth program = some block) :
    ∃ closer, Statement.role closer = .closer ∧ program = block.body ++ closer :: block.rest := by
  fun_induction split? depth program generalizing block with
  | case1 => simp at h
  | case2 statement rest hr =>
    cases h
    exact ⟨statement, hr, rfl⟩
  | case3 depth statement rest hr ih | case4 depth statement rest hr ih
  | case5 depth statement rest hr ih =>
    obtain ⟨inner, hi, rfl⟩ := Option.map_eq_some_iff.1 h
    obtain ⟨closer, hc, hp⟩ := ih hi
    exact ⟨closer, hc, by simp [hp]⟩

/-- The index of the `end` that closes the block starting at index `start`. -/
def endIndex? (program : Program) (start : Nat) : Option Nat :=
  (split? 0 (program.drop start)).map (start + ·.body.length)

/-- Where a block starting at a given position ends. -/
inductive Search where
  /-- Its `end` stands at this position. -/
  | closed (position : Int)
  | unclosed
  /-- There is no statement to start from. -/
  | outside (error : PositionError)
deriving DecidableEq, Repr

/-- Looks for the `end` that closes the block starting at a position, which counts from the end of
the program if it is negative. -/
def search (program : Program) (start : Int) : Search :=
  match program.startingAt start with
  | .error error => .outside error
  | .ok rest =>
    match split? 0 rest with
    | some block => .closed (start + block.body.length)
    | none => .unclosed

/-- The search from an index is the search among the statements from there on. -/
theorem search_natCast (program : Program) (start : Nat) :
    search program start =
      match endIndex? program start with
      | some index => .closed index
      | none => .unclosed := by
  simp only [search, Program.startingAt, Int.natCast_nonneg, if_true, Int.toNat_natCast, endIndex?]
  cases split? 0 (program.drop start) <;> simp

end Block

end CounterLang
