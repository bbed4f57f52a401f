import CounterLang.Proofs.Balance
import CounterLang.Proofs.Failures
import CounterLang.Proofs.Variables

/-!
# The grammar of statements

A statement has a few forms, and there are ten rules that a list of tokens may break. A list may
break several at once; the fault that is reported is that of the first rule in a fixed order. Each
rule is stated for itself here, as if there were no others.

## Main definitions

* `Statement.Accepted`: the forms of statements.
* `Rule`, `Rule.fault?`: the rules, and the fault of a statement that breaks one.
* `Statement.violations`: the faults of all rules that a statement breaks, in order.
* `Scope.Refuses`: a statement is refused with a fault of its own.

## Main statements

* `Machine.head?_violations_of_dispatch_error`: the fault is that of the first rule that is broken.
* `Machine.accepted_of_dispatch_ok`, `Statement.Accepted.violations_eq_nil`: a statement breaks no
  rule exactly when it has one of the forms.
* `Scope.code_ne_nil_of_follow?`: the fault of a loop that runs is that of a statement in its body.
* `Scope.refuses_iff_violations`: a statement is refused with the fault of the first broken rule.
-/

namespace CounterLang

/-! ## Forms and rules -/

/-- The forms of statements. The block of a loop starts at index `start` of the program. -/
inductive Statement.Accepted (store : Store) (program : Program) (start : Nat) :
    List Text → Prop where
  | clear {name : Text} (hname : isReserved name = false) :
      Accepted store program start [Keyword.clear.text, name]
  | known {keyword : Keyword} (hkeyword : keyword ∈ [.increment, .decrement, .print]) {name : Text}
      (hname : isReserved name = false) (hmem : name ∈ store) :
      Accepted store program start [keyword.text, name]
  | ignored {keyword : Keyword} (hkeyword : keyword ∈ [.conditional, .function]) {name : Text}
      (hname : isReserved name = false) (more : List Text) :
      Accepted store program start (keyword.text :: name :: more)
  | loop {guard : Text} (hname : isReserved guard = false) (hmem : guard ∈ store) {stop : Nat}
      (hend : Block.EndsAt program start stop) :
      Accepted store program start [Keyword.loop.text, guard, "not", "0", "do"]

/-- What the tokens of a statement may violate. -/
inductive Rule where
  /-- The first token is a keyword. -/
  | keyword
  /-- There is a second token. -/
  | operand
  /-- The second token is no word of the language. -/
  | name
  /-- Only two tokens, where a statement has a single operand. -/
  | single
  /-- The variable to count or print is known. -/
  | known
  /-- The guard of a loop is known. -/
  | guard
  /-- A loop header has at least five tokens. -/
  | short
  /-- A loop header has at most five tokens. -/
  | long
  /-- Behind its guard a loop header has the right tokens. -/
  | header
  /-- The block of a loop is closed. -/
  | block
deriving DecidableEq, Repr

namespace Rule

/-- The rules in their order. -/
def all : List Rule :=
  [keyword, operand, name, single, known, guard, short, long, header, block]

/-- The keyword that the tokens start with. -/
def keyword? (tokens : List Text) : Option Keyword := tokens.head?.bind Keyword.ofText?

/-- The fault of a statement on `line` that breaks the rule. -/
def fault? (store : Store) (program : Program) (start : Nat) (line : Int) (tokens : List Text) :
    Rule → Option Fault
  | keyword => (tokens[0]?.filter fun word => (Keyword.ofText? word).isNone).map
      (.unexpectedToken line)
  | operand => if tokens.length = 1 then some (.missingOperand line) else none
  | name => (tokens[1]?.filter isReserved).map (.reservedToken line)
  | single =>
    if keyword? tokens ∈ [some .clear, some .increment, some .decrement, some .print] then
      tokens[2]?.map (.unexpectedToken line)
    else none
  | known =>
    if keyword? tokens ∈ [some .increment, some .decrement, some .print] then
      (tokens[1]?.filter (· ∉ store)).map (.undefinedVariable line)
    else none
  | guard =>
    if keyword? tokens = some .loop then
      (tokens[1]?.filter (· ∉ store)).map (.undefinedVariable line)
    else none
  | short =>
    if keyword? tokens = some .loop ∧ tokens.length < 5 then some (.missingOperand line) else none
  | long => if keyword? tokens = some .loop then tokens[5]?.map (.unexpectedToken line) else none
  | header =>
    if keyword? tokens = some .loop then
      (Command.mismatch? ["not", "0", "do"] (tokens.drop 2)).map (.unexpectedToken line)
    else none
  | block =>
    if keyword? tokens = some .loop ∧ Block.endIndex? program start = none then
      some (.unterminatedBlock line)
    else none

@[simp] theorem keyword?_text (keyword : Keyword) (operands : List Text) :
    keyword? (keyword.text :: operands) = some keyword := by
  rw [keyword?, List.head?_cons, Option.bind_some, Keyword.ofText?_text]

end Rule

/-- The faults of all rules that a statement breaks, in the order of the rules. -/
def Statement.violations (store : Store) (program : Program) (start : Nat) (line : Int)
    (tokens : List Text) : List Fault :=
  Rule.all.filterMap (Rule.fault? store program start line tokens)

section Rules

variable {store : Store} {program : Program} {start : Nat} {line : Int} {tokens : List Text}

/-- A statement of one of the forms breaks no rule. -/
theorem Statement.Accepted.violations_eq_nil (h : Accepted store program start tokens) :
    violations store program start line tokens = [] := by
  cases h with
  | clear hname => simp [violations, Rule.all, Rule.fault?, hname]
  | known hkeyword hname hmem =>
    have hloop := ne_of_mem_of_not_mem hkeyword (by decide : Keyword.loop ∉ _)
    simp [violations, Rule.all, Rule.fault?, hname, hmem, hloop]
  | @ignored keyword hkeyword name hname more =>
    have hother : keyword ≠ .clear ∧ keyword ≠ .increment ∧ keyword ≠ .decrement ∧
        keyword ≠ .print ∧ keyword ≠ .loop := by
      revert hkeyword
      cases keyword <;> decide
    simp [violations, Rule.all, Rule.fault?, hname, hother]
  | @loop guard hname hmem stop hend =>
    have hheader : Command.mismatch? ["not", "0", "do"] ["not", "0", "do"] = none := by decide
    have hblock := Block.endIndex?_eq_some_iff.2 hend
    simp [violations, Rule.all, Rule.fault?, hname, hmem, hheader, hblock]

variable {word : Text} {operands : List Text} {fault : Fault}

/-- Where the first three rules are kept, the others decide. -/
theorem Statement.head?_violations_of_name {keyword : Keyword} {name : Text} {more : List Text}
    (hname : isReserved name = false) :
    (violations store program start line (keyword.text :: name :: more)).head? =
      [Rule.single, .known, .guard, .short, .long, .header, .block].findSome?
        (Rule.fault? store program start line (keyword.text :: name :: more)) := by
  simp [violations, Rule.all, List.head?_filterMap, Rule.fault?, hname]

/-- A loop header that is not read has the fault of the first rule that it breaks. -/
theorem Command.head?_violations_of_loopHeader_error {guard : Text} {tail : List Text}
    (hguard : isReserved guard = false) (h : loopHeader store line guard tail = .error fault) :
    (Statement.violations store program start line (Keyword.loop.text :: guard :: tail)).head? =
      some fault := by
  have hthree : headerTail.length = 3 := rfl
  rw [Statement.head?_violations_of_name hguard]
  simp only [loopHeader, hthree] at h
  split at h
  · rename_i hmem
    split at h
    · rename_i hshort
      cases h
      have hlength : tail.length + 1 + 1 < 5 := by omega
      simp [Rule.fault?, hmem, hlength]
    · rename_i hlong
      have hlength : ¬ tail.length + 1 + 1 < 5 := by omega
      have hextra : tail[3]? = (tail.drop 3).head? := List.head?_drop.symm
      split at h
      · rename_i extra behind hdrop
        cases h
        rw [hdrop, List.head?_cons] at hextra
        simp [Rule.fault?, hmem, hlength, hextra]
      · rename_i hdrop
        rw [hdrop, List.head?_nil] at hextra
        split at h
        · rename_i token hmismatch
          cases h
          have hheader : mismatch? ["not", "0", "do"] tail = some token := hmismatch
          simp [Rule.fault?, hmem, hlength, hextra, hheader]
        · cases h
  · rename_i hnew
    cases h
    simp [Rule.fault?, hnew]

/-- What is not read has the fault of the first rule that it breaks. -/
theorem Command.head?_violations_of_read_error
    (h : read store line word operands = .error fault) :
    (Statement.violations store program start line (word :: operands)).head? = some fault := by
  simp only [read] at h
  split at h
  · rename_i hword
    cases h
    simp [Statement.violations, Rule.all, Rule.fault?, hword]
  · rename_i keyword hkeyword
    obtain rfl := Keyword.text_of_ofText?_eq_some hkeyword
    split at h
    · cases h
      simp [Statement.violations, Rule.all, Rule.fault?]
    · rename_i name more
      split at h
      · rename_i hreserved
        cases h
        simp [Statement.violations, Rule.all, Rule.fault?, hreserved]
      · rename_i hname
        have hname : isReserved name = false := by simpa using hname
        cases keyword with
        | conditional | function => cases h
        | clear | increment | decrement | print =>
          cases more with
          | nil => cases h
          | cons extra more =>
            cases h
            rw [Statement.head?_violations_of_name hname]
            simp [Rule.fault?]
        | loop => exact head?_violations_of_loopHeader_error hname h

end Rules

namespace Machine

variable {m next : Machine} {program : Program} {start : Nat} {line restLine : Int} {word : Text}
  {operands : List Text} {fault : Fault}

/-- What is not carried out has the fault of the first rule that it breaks. -/
theorem head?_violations_of_dispatch_error
    (h : m.dispatch line word operands (program.drop start) restLine = .error fault) :
    (Statement.violations m.store program start line (word :: operands)).head? = some fault := by
  obtain hread | ⟨command, hread, hperform⟩ := read_or_performance_of_dispatch h
  · exact Command.head?_violations_of_read_error hread
  have hspelled := Command.spelled_of_read hread
  cases hperform with
  | undefined hname hget =>
    have hnew := Store.get?_eq_none_iff.1 hget
    cases hspelled with
    | clear | conditional | function | loop => cases hname
    | increment | decrement | print =>
      cases hname
      rw [Statement.head?_violations_of_name (Command.isReserved_of_read hread)]
      simp [Rule.fault?, hnew]
  | unterminated hblock =>
    have hend : Block.endIndex? program start = none := by
      rw [Block.endIndex?, hblock, Option.map_none]
    cases hspelled with
    | loop guard =>
      have hmem := Command.mem_of_read_eq_loop hread
      have hheader : Command.mismatch? ["not", "0", "do"] headerTail = none := by decide
      rw [Statement.head?_violations_of_name (Command.isReserved_of_read hread)]
      simp [Rule.fault?, hmem, hend, hheader, show headerTail.length = 3 from rfl]

/-- What is carried out has one of the forms. -/
theorem accepted_of_dispatch_ok
    (h : m.dispatch line word operands (program.drop start) restLine = .ok next) :
    Statement.Accepted m.store program start (word :: operands) := by
  obtain ⟨command, hread, hperform⟩ := exists_performance_of_dispatch h
  cases Command.spelled_of_read hread with
  | clear name => exact .clear (Command.isReserved_of_read hread)
  | conditional name more => exact .ignored (by decide) (Command.isReserved_of_read hread) more
  | function name more => exact .ignored (by decide) (Command.isReserved_of_read hread) more
  | increment name | decrement name | print name =>
    exact .known (by decide) (Command.isReserved_of_read hread) (hperform.mem_of_operand? rfl)
  | loop guard =>
    cases hperform with
    | loop hblock =>
      have hend := Block.endIndex?_eq_some_iff.1 (congrArg (Option.map _) hblock)
      exact .loop (Command.isReserved_of_read hread) (Command.mem_of_read_eq_loop hread) hend

/-- No statement is refused for lack of budget. -/
theorem kind_ne_stepLimit_of_dispatch {rest : Program}
    (h : m.dispatch line word operands rest restLine = .error fault) :
    fault.kind ≠ .stepLimit := by
  obtain hread | ⟨command, -, hperform⟩ := read_or_performance_of_dispatch h
  · exact Command.kind_ne_stepLimit_of_read hread
  · exact hperform.kind_ne_stepLimit

/-- A statement is carried out or has a fault, and the rules that it breaks decide which. -/
theorem dispatch_eq_error_iff :
    m.dispatch line word operands (program.drop start) restLine = .error fault ↔
      (Statement.violations m.store program start line (word :: operands)).head? = some fault := by
  refine ⟨head?_violations_of_dispatch_error, fun hfirst => ?_⟩
  cases h : m.dispatch line word operands (program.drop start) restLine with
  | error other =>
    rw [head?_violations_of_dispatch_error h, Option.some.injEq] at hfirst
    rw [hfirst]
  | ok next =>
    rw [(accepted_of_dispatch_ok h).violations_eq_nil] at hfirst
    cases hfirst

end Machine

/-- A statement breaks no rule exactly when it has one of the forms. -/
theorem Statement.violations_eq_nil_iff {store : Store} {program : Program} {start : Nat}
    {line : Int} {word : Text} {operands : List Text} :
    violations store program start line (word :: operands) = [] ↔
      Accepted store program start (word :: operands) := by
  refine ⟨fun hnil => ?_, fun h => h.violations_eq_nil⟩
  let m : Machine := { code := [], store }
  cases h : m.dispatch line word operands (program.drop start) 0 with
  | ok next => exact Machine.accepted_of_dispatch_ok h
  | error fault =>
    have hfirst := Machine.head?_violations_of_dispatch_error h
    rw [hnil] at hfirst
    cases hfirst

/-! ## Faults of a statement of its own -/

namespace Machine

variable {o : Options} {m next : Machine} {line restLine : Int} {word : Text}
  {operands : List Text} {rest : Program}

theorem Guarded.of_dispatch (h : m.Guarded)
    (hdispatch : m.dispatch line word operands rest restLine = .ok next) : next.Guarded := by
  obtain ⟨command, hread, hperform⟩ := exists_performance_of_dispatch hdispatch
  exact h.of_performance hperform fun guard hcommand =>
    Command.mem_of_read_eq_loop (hcommand ▸ hread)

theorem Guarded.confine (h : m.Guarded) : m.confine.Guarded := by
  intro loop hloop
  simp only [Machine.confine, List.mem_append, Option.mem_toList, Option.map_eq_some_iff] at hloop
  rcases hloop with hloop | ⟨last, hlast, rfl⟩
  · exact h loop (List.mem_of_mem_dropLast hloop)
  · exact h last (List.mem_of_getLast? hlast)

end Machine

namespace Scope

variable {o : Options} {scope : Scope} {m : Machine} {walk : Walk} {fault : Fault} {fuel : Nat}

theorem guarded_settle (scope : Scope) (h : m.Guarded) : (scope.settle m).Guarded := by
  intro loop hloop
  obtain ⟨inner, hinner, rfl⟩ := List.mem_map.1 hloop
  exact h inner hinner

/-- A walk from guards that are known is stopped by lack of budget or by a statement, which the
machine is still at. -/
theorem code_ne_nil_of_follow? (h : m.Guarded) (hwalk : scope.follow? o fuel m = some walk)
    (hstop : walk.stop = some (.fault fault)) (hkind : fault.kind ≠ .stepLimit) :
    walk.machine.code ≠ [] := by
  induction fuel generalizing m with
  | zero => cases hwalk
  | succ fuel ih =>
    have hempty : Machine.Guarded { m with log := [] } := h
    simp only [follow?] at hwalk
    split at hwalk
    · cases hwalk
      cases hstop
    · rename_i next hs
      have hnext := Machine.guarded_of_running hempty hs
      split at hwalk
      · have hsettled :
            (if m.loops.isEmpty then scope.settle next else next : Machine).Guarded := by
          split
          · exact guarded_settle scope hnext
          · exact hnext
        refine ih ?_ hwalk
        exact hsettled
      · cases hwalk
        cases hstop
    · rename_i other last hs
      split at hwalk
      · cases hwalk
        cases hstop
        obtain ⟨statement, rest, hcode, -, -, rfl⟩ := hempty.of_failed hs hkind
        have hcode : m.code = statement :: rest := hcode
        simp [hcode]
      · cases hwalk
        cases hstop

/-- The statement is refused with a fault of its own: the budget is not spent, and no statement in
the body of a loop is at fault, which the machine would be at. -/
def Refuses (o : Options) (scope : Scope) (store : Store) (tokens : List Text) (line : Int)
    (fault : Fault) : Prop :=
  ∃ fuel walk, scope.dispatch? fuel o store tokens line = some walk ∧
    walk.stop = some (.fault fault) ∧ fault.kind ≠ .stepLimit ∧ walk.machine.code = []

theorem dispatch?_natCast (program : Program) (firstLine : Int) (cursor : Nat) (store : Store)
    (word : Text) (operands : List Text) (line : Int) (o : Options) (fuel : Nat) :
    ({ program, firstLine, cursor } : Scope).dispatch? fuel o store (word :: operands) line =
      match (({ program, firstLine, cursor } : Scope).idle store).dispatch line word operands
        (program.drop (cursor + 1)) (firstLine + cursor + 1) with
      | .ok next => ({ program, firstLine, cursor } : Scope).follow? o fuel
          (({ program, firstLine, cursor } : Scope).settle next).confine
      | .error fault => some
          { machine := ({ program, firstLine, cursor } : Scope).idle store
            stop := some (.fault fault) } := by
  have hrest : program.startingAt (cursor + 1) = .ok (program.drop (cursor + 1)) := by
    rw [Program.startingAt, if_pos (by omega)]
    rfl
  simp only [dispatch?, hrest, Except.toOption, Option.getD_some]
  generalize Machine.dispatch _ _ _ _ _ _ = result
  cases result with
  | ok next => rfl
  | error fault => cases fault <;> rfl

section Refusals

variable {program : Program} {firstLine : Int} {cursor : Nat} {store : Store} {word : Text}
  {operands : List Text} {line : Int}

/-- A statement that breaks a rule is refused before anything is done. -/
theorem dispatch?_of_head?_violations (firstLine : Int) (o : Options) (fuel : Nat)
    (hfault : (Statement.violations store program (cursor + 1) line (word :: operands)).head? =
      some fault) :
    let scope : Scope := { program, firstLine, cursor }
    scope.dispatch? fuel o store (word :: operands) line =
      some { machine := scope.idle store, stop := some (.fault fault) } := by
  intro scope
  have herror : (scope.idle store).dispatch line word operands (program.drop (cursor + 1))
      (firstLine + cursor + 1) = .error fault := Machine.dispatch_eq_error_iff.2 hfault
  rw [dispatch?_natCast, herror]

/-- A statement is refused with the fault of the first rule that it breaks. -/
theorem refuses_iff : Refuses o { program, firstLine, cursor } store (word :: operands) line fault ↔
    (Statement.violations store program (cursor + 1) line (word :: operands)).head? =
      some fault := by
  let scope : Scope := { program, firstLine, cursor }
  have hidle : (scope.idle store).Guarded := by
    intro loop hloop
    cases hloop
  constructor
  · rintro ⟨fuel, walk, hwalk, hstop, hkind, hcode⟩
    rw [dispatch?_natCast] at hwalk
    split at hwalk
    · rename_i next hnext
      have hguarded := (guarded_settle scope (hidle.of_dispatch hnext)).confine
      exact absurd hcode (code_ne_nil_of_follow? hguarded hwalk hstop hkind)
    · rename_i other herror
      cases hwalk
      cases hstop
      exact Machine.head?_violations_of_dispatch_error (m := scope.idle store) herror
  · intro hfault
    have herror : (scope.idle store).dispatch line word operands (program.drop (cursor + 1)) line =
        .error fault := Machine.dispatch_eq_error_iff.2 hfault
    exact ⟨0, _, dispatch?_of_head?_violations firstLine o 0 hfault, rfl,
      Machine.kind_ne_stepLimit_of_dispatch herror, rfl⟩

end Refusals

/-- Exactly the statements of the grammar are accepted, and what is refused is refused with the
fault of the first rule that it breaks. This holds of any tokens but none at all, at any index of a
program, whatever the store, the line and the budget are; the tokens need not be those of the
statement that stands there. A statement is refused if and only if it has none of the forms. The
fault, with its line and its token, is the first of its violations in the order of the rules. And
nothing has been done then: the store is as it was, no step has been counted, and nothing has been
written. -/
theorem refuses_iff_violations (program : Program) (firstLine : Int) (cursor : Nat) (o : Options)
    (store : Store) (word : Text) (operands : List Text) (line : Int) :
    let scope : Scope := { program, firstLine, cursor }
    let tokens := word :: operands
    ((∃ fault, scope.Refuses o store tokens line fault) ↔
      ¬ Statement.Accepted store program (cursor + 1) tokens) ∧
    (∀ fault, scope.Refuses o store tokens line fault ↔
      (Statement.violations store program (cursor + 1) line tokens).head? = some fault) ∧
    ∀ fault, scope.Refuses o store tokens line fault → ∀ fuel,
      scope.dispatch? fuel o store tokens line =
        some { machine := scope.idle store, stop := some (.fault fault) } := by
  intro scope tokens
  have hsome : (∃ fault, scope.Refuses o store tokens line fault) ↔
      Statement.violations store program (cursor + 1) line tokens ≠ [] := by
    simp only [scope, tokens, refuses_iff, ← Option.isSome_iff_exists, List.isSome_head?]
  refine ⟨?_, fun fault => refuses_iff, fun fault hfault fuel =>
    dispatch?_of_head?_violations firstLine o fuel (refuses_iff.1 hfault)⟩
  rw [hsome, Ne, Statement.violations_eq_nil_iff]

-- Only the first of the violations is reported: the guard is unknown.
example : Statement.violations ∅ ["while x nott 0 do it", "decr x"] 1 4
    ["while", "x", "nott", "0", "do", "it"] =
    [.undefinedVariable 4 "x", .unexpectedToken 4 "it", .unexpectedToken 4 "nott",
      .unterminatedBlock 4] := by
  decide +kernel

end Scope

end CounterLang
