import CounterLang.Machine.Scope
import CounterLang.Proofs.Blocks

/-!
# Balanced blocks

The search for the end of a block counts the inner blocks that are open. What it accepts is the same
as what a grammar says: the block ends at the first `end` such that the roles of the statements
before it are balanced.

To follow the search, the grammar is needed for any number of blocks that are open at the start. The
roles then unwind these blocks: they are balanced sequences with a closer between each two.

## Main definitions

* `Balanced`: the roles in which each opener has its closer, and each closer its opener.
* `Unwinds`: the roles that close a number of blocks beside those that they open.
* `Block.EndsAt`: the grammar's answer to where a block ends.

## Main statements

* `unwinds_cons_iff`: the grammar follows the counter of the search.
* `Block.split?_eq_some_iff`: the search finds what the grammar allows.
* `Block.isSome_split?_succ_iff`: where a second block is closed as well.
* `Block.find_iff_balanced`: what this says about blocks by index.
-/

namespace CounterLang

open Statement (Role)

/-! ## The grammar -/

/-- Each opener has its closer behind it, and each closer has its opener. -/
inductive Balanced : List Role → Prop where
  | nil : Balanced []
  | plain {roles : List Role} (h : Balanced roles) : Balanced (.plain :: roles)
  | block {inner behind : List Role} (hinner : Balanced inner) (hbehind : Balanced behind) :
      Balanced (.opener :: (inner ++ .closer :: behind))

/-- Beside the blocks that the roles open, they close so many that were open before. -/
inductive Unwinds : Nat → List Role → Prop where
  | balanced {roles : List Role} (h : Balanced roles) : Unwinds 0 roles
  | closer {depth : Nat} {inner behind : List Role} (hinner : Balanced inner)
      (hbehind : Unwinds depth behind) : Unwinds (depth + 1) (inner ++ .closer :: behind)

section Grammar

variable {depth : Nat} {role : Role} {roles : List Role}

theorem balanced_of_forall_plain (h : ∀ role ∈ roles, role = .plain) : Balanced roles := by
  induction roles with
  | nil => exact .nil
  | cons role roles ih =>
    obtain rfl := h role List.mem_cons_self
    exact .plain (ih fun role hrole => h role (List.mem_cons_of_mem _ hrole))

theorem unwinds_nil_iff : Unwinds depth [] ↔ depth = 0 := by
  constructor
  · intro h
    generalize hroles : ([] : List Role) = roles at h
    cases h with
    | balanced => rfl
    | closer => simp at hroles
  · rintro rfl
    exact .balanced .nil

theorem unwinds_plain_iff : Unwinds depth (.plain :: roles) ↔ Unwinds depth roles := by
  constructor
  · intro h
    generalize hroles : Role.plain :: roles = whole at h
    cases h with
    | balanced h =>
      cases h <;> cases hroles
      exact .balanced ‹_›
    | closer hinner hbehind =>
      cases hinner <;> cases hroles
      exact .closer ‹_› hbehind
  · intro h
    cases h with
    | balanced h => exact .balanced (.plain h)
    | closer hinner hbehind => exact .closer (.plain hinner) hbehind

/-- An opener is closed like the blocks that were open before it, and before them. -/
theorem unwinds_opener_iff : Unwinds depth (.opener :: roles) ↔ Unwinds (depth + 1) roles := by
  constructor
  · intro h
    generalize hroles : Role.opener :: roles = whole at h
    cases h with
    | balanced h =>
      cases h <;> cases hroles
      exact .closer ‹_› (.balanced ‹_›)
    | closer hinner hbehind =>
      cases hinner with
      | nil | plain => cases hroles
      | @block inner middle hinner hmiddle =>
        cases hroles
        have hclosers := Unwinds.closer hinner (.closer hmiddle hbehind)
        rwa [← List.cons_append, ← List.append_assoc] at hclosers
  · intro h
    cases h with
    | closer hinner hbehind =>
      cases hbehind with
      | balanced hbehind => exact .balanced (.block hinner hbehind)
      | closer hmiddle hbehind =>
        have hcloser := Unwinds.closer (.block hinner hmiddle) hbehind
        rwa [List.cons_append, List.append_assoc] at hcloser

theorem unwinds_closer_iff :
    Unwinds depth (.closer :: roles) ↔ ∃ outer, depth = outer + 1 ∧ Unwinds outer roles := by
  constructor
  · intro h
    generalize hroles : Role.closer :: roles = whole at h
    cases h with
    | balanced h => cases h <;> cases hroles
    | closer hinner hbehind =>
      cases hinner <;> cases hroles
      exact ⟨_, rfl, hbehind⟩
  · rintro ⟨outer, rfl, h⟩
    exact .closer .nil h

/-- The grammar follows the counter of the search. -/
theorem unwinds_cons_iff :
    Unwinds depth (role :: roles) ↔ ∃ next, role.after? depth = some next ∧ Unwinds next roles := by
  cases role with
  | opener => simp [Role.after?, unwinds_opener_iff]
  | plain => simp [Role.after?, unwinds_plain_iff]
  | closer =>
    rw [unwinds_closer_iff]
    cases depth <;> simp [Role.after?]

/-- Only a closer with no block open closes the block itself. -/
theorem Statement.Role.after?_eq_none_iff :
    role.after? depth = none ↔ role = .closer ∧ depth = 0 := by
  cases role <;> cases depth <;> simp [after?]

end Grammar

/-! ## The search -/

namespace Block

variable {depth : Nat} {program : Program} {block : Block}

/-- The search finds a block where the grammar allows one, and the same one. -/
theorem split?_eq_some_iff : split? depth program = some block ↔
    ∃ closer, Statement.role closer = .closer ∧ program = block.body ++ closer :: block.rest ∧
      Unwinds depth (block.body.map Statement.role) := by
  induction program generalizing depth block with
  | nil => simp [split?]
  | cons statement rest ih =>
    obtain ⟨body, behind⟩ := block
    rw [split?_cons]
    cases ha : (Statement.role statement).after? depth with
    | none =>
      obtain ⟨hrole, rfl⟩ := Role.after?_eq_none_iff.1 ha
      constructor
      · intro h
        cases h
        exact ⟨statement, hrole, rfl, .balanced .nil⟩
      · rintro ⟨closer, -, hprogram, hunwinds⟩
        cases body with
        | nil =>
          cases hprogram
          rfl
        | cons first body =>
          cases hprogram
          simp [unwinds_cons_iff, ha] at hunwinds
    | some next =>
      rw [Option.map_eq_some_iff]
      constructor
      · rintro ⟨inner, hinner, h⟩
        cases h
        obtain ⟨closer, hrole, rfl, hunwinds⟩ := ih.1 hinner
        exact ⟨closer, hrole, rfl, unwinds_cons_iff.2 ⟨next, ha, hunwinds⟩⟩
      · rintro ⟨closer, hrole, hprogram, hunwinds⟩
        cases body with
        | nil =>
          cases hprogram
          obtain rfl := unwinds_nil_iff.1 hunwinds
          simp [hrole, Role.after?] at ha
        | cons first body =>
          cases hprogram
          obtain ⟨other, hother, hunwinds⟩ := unwinds_cons_iff.1 hunwinds
          obtain rfl : other = next := Option.some.inj (hother.symm.trans ha)
          exact ⟨⟨body, behind⟩, ih.2 ⟨closer, hrole, rfl, hunwinds⟩, rfl⟩

/-- A second block is closed as well where it is closed behind the first. -/
theorem isSome_split?_succ_iff : (split? (depth + 1) program).isSome ↔
    ∃ block, split? 0 program = some block ∧ (split? depth block.rest).isSome := by
  simp only [Option.isSome_iff_exists, split?_eq_some_iff]
  constructor
  · rintro ⟨⟨body, rest⟩, closer, hrole, rfl, hunwinds⟩
    generalize hroles : body.map Statement.role = roles at hunwinds
    cases hunwinds with
    | closer hinner hbehind =>
      obtain ⟨inner, more, rfl, rfl, hmore⟩ := List.map_eq_append_iff.1 hroles
      obtain ⟨first, behind, rfl, hfirst, rfl⟩ := List.map_eq_cons_iff.1 hmore
      exact ⟨⟨inner, behind ++ closer :: rest⟩,
        ⟨first, hfirst, by simp, .balanced hinner⟩,
        ⟨behind, rest⟩, closer, hrole, rfl, hbehind⟩
  · rintro ⟨⟨inner, _⟩, ⟨first, hfirst, rfl, hinner⟩, ⟨behind, rest⟩, closer, hrole, rfl, hbehind⟩
    cases hinner with
    | balanced hinner =>
      refine ⟨⟨inner ++ first :: behind, rest⟩, closer, hrole, by simp, ?_⟩
      rw [List.map_append, List.map_cons, hfirst]
      exact .closer hinner hbehind

/-! ## By index -/

/-- The block that starts at index `start` ends at index `stop`: a closer stands there, and what
stands before it is balanced. -/
structure EndsAt (program : Program) (start stop : Nat) : Prop where
  start_le : start ≤ stop
  role_eq : ∃ h : stop < program.length, Statement.role program[stop] = .closer
  balanced : Balanced (((program.take stop).drop start).map Statement.role)

variable {start stop : Nat}

theorem endIndex?_eq_some_iff :
    endIndex? program start = some stop ↔ EndsAt program start stop := by
  constructor
  · intro h
    obtain ⟨hle, closer, hcloser, hrole⟩ := exists_closer_of_endIndex? h
    obtain ⟨hlt, rfl⟩ := List.getElem?_eq_some_iff.1 hcloser
    obtain ⟨-, -, -, hunwinds⟩ := split?_eq_some_iff.1 (split?_of_endIndex? h)
    cases hunwinds with
    | balanced hbalanced => exact ⟨hle, ⟨hlt, hrole⟩, hbalanced⟩
  · rintro ⟨hle, ⟨hlt, hrole⟩, hbalanced⟩
    have hlength : ((program.take stop).drop start).length = stop - start := by
      rw [List.length_drop, List.length_take]
      omega
    have hdrop : program.drop start =
        (program.take stop).drop start ++ program[stop] :: program.drop (stop + 1) := by
      rw [List.getElem_cons_drop, ← List.drop_append_of_le_length, List.take_append_drop]
      rw [List.length_take]
      omega
    have hsplit : split? 0 (program.drop start) =
        some ⟨(program.take stop).drop start, program.drop (stop + 1)⟩ :=
      split?_eq_some_iff.2 ⟨program[stop], hrole, hdrop, .balanced hbalanced⟩
    rw [endIndex?, hsplit, Option.map_some, hlength, Nat.add_sub_cancel' hle]

theorem endIndex?_eq_none_iff :
    endIndex? program start = none ↔ ∀ stop, ¬ EndsAt program start stop := by
  simp only [Option.eq_none_iff_forall_ne_some, ne_eq, endIndex?_eq_some_iff]

/-- A block ends at one index at most. -/
theorem EndsAt.unique {other : Nat} (h : EndsAt program start stop)
    (h' : EndsAt program start other) : stop = other :=
  Option.some.inj ((endIndex?_eq_some_iff.2 h).symm.trans (endIndex?_eq_some_iff.2 h'))

theorem find_natCast (program : Program) (start : Nat) (header : Int) :
    find program start header =
      match endIndex? program start with
      | some stop => .ok stop
      | none => .error (.fault (.unterminatedBlock header)) := by
  rw [find, search_natCast]
  cases endIndex? program start <;> rfl

end Block

/-- The header of a loop finds the block that starts at the index behind it. -/
theorem Machine.perform_loop_drop (m : Machine) (line : Int) (program : Program) (start : Nat)
    (restLine : Int) (guard : Text) :
    m.perform line (program.drop start) restLine (.loop guard) =
      match Block.endIndex? program start with
      | none => .error (.unterminatedBlock line)
      | some stop =>
        let closeLine := restLine + ((program.take stop).drop start).length
        .ok ((m.emit (.resolved line restLine closeLine)).enter
          { guard, header := line, body := (program.take stop).drop start, bodyLine := restLine,
            rest := program.drop (stop + 1), restLine := closeLine + 1 }) := by
  rw [perform]
  cases hend : Block.endIndex? program start with
  | none =>
    rw [Block.endIndex?, Option.map_eq_none_iff] at hend
    rw [hend]
  | some stop => rw [Block.split?_of_endIndex? hend]

namespace Block

/-- Blocks are resolved as the grammar says. From any index, and for a header on any line, the end
of the block is found at a position if and only if that is the index of a closer and what stands
before it, from the start of the block on, is balanced; there is one such index at most. If there is
none, the fault names the header, and there is no other way to fail. What is cut out is what stands
before the closer.

The same goes for a header that a machine comes to: the body of the loop that it enters is what is
cut out, and its fault names the header. -/
theorem find_iff_balanced (program : Program) (start : Nat) (header : Int) :
    (∀ position, find program start header = .ok position ↔
      ∃ stop : Nat, position = stop ∧ EndsAt program start stop) ∧
    (∀ stop other, EndsAt program start stop → EndsAt program start other → stop = other) ∧
    (∀ reason, find program start header = .error reason ↔
      reason = .fault (.unterminatedBlock header) ∧ ∀ stop, ¬ EndsAt program start stop) ∧
    (∀ body position, extract program start header = .ok (body, position) ↔
      ∃ stop : Nat, position = stop ∧ EndsAt program start stop ∧
        body = (program.take stop).drop start) ∧
    (∀ reason, extract program start header = .error reason ↔
      find program start header = .error reason) ∧
    ∀ (m : Machine) (restLine : Int) (guard : Text),
      (∀ fault, m.perform header (program.drop start) restLine (.loop guard) = .error fault ↔
        fault = .unterminatedBlock header ∧ ∀ stop, ¬ EndsAt program start stop) ∧
      ∀ next, m.perform header (program.drop start) restLine (.loop guard) = .ok next →
        ∃ stop loop, EndsAt program start stop ∧ next.loops = loop :: m.loops ∧
          loop.body = (program.take stop).drop start ∧ loop.rest = program.drop (stop + 1) := by
  cases hend : endIndex? program start with
  | none =>
    have hnone := endIndex?_eq_none_iff.1 hend
    have hfind : find program start header = .error (.fault (.unterminatedBlock header)) := by
      rw [find_natCast, hend]
    refine ⟨?_, fun _ _ => EndsAt.unique, ?_, ?_, ?_, fun m restLine guard => ?_⟩
    · simp [hfind, hnone]
    · simp [hfind, hnone, eq_comm]
    · simp [extract, hfind, Except.map, hnone]
    · simp [extract, hfind, Except.map]
    · rw [Machine.perform_loop_drop, hend]
      simp [hnone, eq_comm]
  | some stop =>
    have hends := endIndex?_eq_some_iff.1 hend
    have hfind : find program start header = .ok stop := by rw [find_natCast, hend]
    have hiff : ∀ other, EndsAt program start other ↔ stop = other :=
      fun other => ⟨hends.unique, fun h => h ▸ hends⟩
    refine ⟨?_, fun _ _ => EndsAt.unique, ?_, ?_, ?_, fun m restLine guard => ?_⟩
    · simp [hfind, hiff, eq_comm]
    · simp [hfind, hiff]
    · intro body position
      simp only [extract, hfind, Except.map, Except.ok.injEq, Prod.mk.injEq, hiff,
        Program.slice_natCast]
      constructor
      · rintro ⟨rfl, rfl⟩
        exact ⟨stop, rfl, rfl, rfl⟩
      · rintro ⟨_, rfl, rfl, rfl⟩
        exact ⟨rfl, rfl⟩
    · simp [extract, hfind, Except.map]
    · rw [Machine.perform_loop_drop, hend]
      refine ⟨by simp [hiff], fun next hnext => ?_⟩
      cases hnext
      exact ⟨stop, _, hends, rfl, rfl, rfl⟩

/-- An inner block is passed over, also one that does nothing; what follows the `end` is not looked
at. -/
example : (find (Program.ofSource "if x;;end;end;end") 0 7).toOption = some 3 := by
  decide +kernel

end Block

end CounterLang
