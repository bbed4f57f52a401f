import CounterLang.Block

/-!
# Blocks inside blocks

The search for the end of a block looks at nothing behind the `end` that it finds. So it finds the
same one in any longer text, and a block that opens inside the body of another is closed inside that
body.

## Main definitions

* `Statement.Role.after?`: how many blocks are open after a statement.
* `Statement.isLoopHeader`: the statements that head loops.

## Main statements

* `Block.split?_prefix`: what stands behind the `end` does not matter.
* `Block.split?_nested`: a block that opens in a body closes in it.
* `Block.endIndex?_nested`: the same by index in a program, inside a body and in the whole program.
-/

namespace CounterLang

/-- How many inner blocks are open after a statement, when `depth` were open before it; `none` if
the statement closes the block itself. -/
def Statement.Role.after? : Statement.Role → Nat → Option Nat
  | .closer, 0 => none
  | .closer, depth + 1 => some depth
  | .opener, depth => some (depth + 1)
  | .plain, depth => some depth

/-- With more blocks open around it, a statement that would close the block itself closes one of
those. -/
theorem Statement.Role.after?_add (role : Statement.Role) (depth more : Nat) :
    role.after? (depth + 1 + more) = some ((role.after? depth).elim more (· + 1 + more)) := by
  cases role with
  | closer =>
    cases depth with
    | zero => simp [after?, show 0 + 1 + more = more + 1 by omega]
    | succ depth => simp [after?, show depth + 1 + 1 + more = depth + 1 + more + 1 by omega]
  | opener => simp [after?, show depth + 1 + more + 1 = depth + 1 + 1 + more by omega]
  | plain => rfl

/-- Whether a statement heads a loop. -/
def Statement.isLoopHeader (statement : Statement) : Bool :=
  (tokens statement).head? == some Keyword.loop.text

theorem Statement.role_eq_opener_of_isLoopHeader {statement : Statement}
    (h : isLoopHeader statement) : role statement = .opener := by
  rw [isLoopHeader, beq_iff_eq] at h
  obtain ⟨operands, htokens⟩ := List.head?_eq_some_iff.1 h
  rw [role, htokens]
  rfl

theorem Statement.isLoopHeader_iff {statement : Statement} {word : Text} {operands : List Text}
    (h : tokens statement = word :: operands) :
    isLoopHeader statement ↔ word = Keyword.loop.text := by
  simp [isLoopHeader, h]

theorem Statement.not_isLoopHeader_of_tokens_eq_nil {statement : Statement}
    (h : tokens statement = []) : ¬ isLoopHeader statement := by
  simp [isLoopHeader, h]

namespace Block

variable {depth : Nat} {program : Program} {block : Block}

theorem split?_cons (depth : Nat) (statement : Statement) (rest : Program) :
    split? depth (statement :: rest) =
      match statement.role.after? depth with
      | none => some ⟨[], rest⟩
      | some next => (split? next rest).map (cons statement) := by
  cases hr : statement.role <;> cases depth <;> simp [split?, hr, Statement.Role.after?]

/-- A block is closed by its `end`, and what stands behind that does not matter. -/
theorem split?_prefix (h : split? depth program = some block) :
    ∃ closer, Statement.role closer = .closer ∧ program = block.body ++ closer :: block.rest ∧
      ∀ rest, split? depth (block.body ++ closer :: rest) = some ⟨block.body, rest⟩ := by
  induction program generalizing depth block with
  | nil => simp [split?] at h
  | cons statement rest ih =>
    rw [split?_cons] at h
    cases ha : statement.role.after? depth with
    | none =>
      rw [ha] at h
      cases h
      refine ⟨statement, ?_, rfl, fun rest => ?_⟩
      · cases hr : statement.role <;> simp [hr, Statement.Role.after?] at ha ⊢
      · simp [split?_cons, ha]
    | some next =>
      rw [ha] at h
      obtain ⟨inner, hi, rfl⟩ := Option.map_eq_some_iff.1 h
      obtain ⟨closer, hc, hp, hs⟩ := ih hi
      refine ⟨closer, hc, by simp [hp], fun rest => ?_⟩
      simp [split?_cons, ha, hs, cons]

/-- The block is the same where more statements follow. -/
theorem split?_append (h : split? depth program = some block) (more : Program) :
    split? depth (program ++ more) = some ⟨block.body, block.rest ++ more⟩ := by
  obtain ⟨closer, -, hp, hs⟩ := split?_prefix h
  rw [hp, List.append_assoc, List.cons_append]
  exact hs _

/-- Where `depth + 1 + more` blocks are closed, first `depth + 1` of them are. -/
theorem exists_split?_of_add {more : Nat} (h : split? (depth + 1 + more) program = some block) :
    ∃ inner closer behind, split? depth program = some inner ∧
      program = inner.body ++ closer :: inner.rest ∧
      block.body = inner.body ++ closer :: behind := by
  induction program generalizing depth block with
  | nil => simp [split?] at h
  | cons statement rest ih =>
    rw [split?_cons, Statement.Role.after?_add] at h
    obtain ⟨last, hl, rfl⟩ := Option.map_eq_some_iff.1 h
    cases ha : statement.role.after? depth with
    | none => exact ⟨⟨[], rest⟩, statement, last.body, by simp [split?_cons, ha], rfl, rfl⟩
    | some next =>
      rw [ha, Option.elim_some] at hl
      obtain ⟨inner, closer, behind, hi, hp, hb⟩ := ih hl
      refine ⟨inner.cons statement, closer, behind, ?_, by simp [hp], by simp [hb]⟩
      simp [split?_cons, ha, hi]

/-- The search goes on from any position in the body, with some number of blocks open. -/
theorem exists_split?_of_append {before behind rest : Program}
    (h : split? depth program = some ⟨before ++ behind, rest⟩) :
    ∃ level closer, split? level (behind ++ closer :: rest) = some ⟨behind, rest⟩ := by
  induction before generalizing depth program with
  | nil =>
    obtain ⟨closer, -, -, hs⟩ := split?_prefix h
    exact ⟨depth, closer, hs rest⟩
  | cons statement before ih =>
    cases program with
    | nil => simp [split?] at h
    | cons first others =>
      rw [split?_cons] at h
      split at h
      · simp at h
      · obtain ⟨last, hl, hlast⟩ := Option.map_eq_some_iff.1 h
        obtain ⟨body, rest'⟩ := last
        simp only [cons, List.cons_append, mk.injEq, List.cons.injEq] at hlast
        obtain ⟨⟨-, rfl⟩, rfl⟩ := hlast
        exact ih hl

/-- A block that opens in a body closes in it. -/
theorem split?_nested {before behind rest : Program} {opener : Statement}
    (h : split? depth program = some ⟨before ++ opener :: behind, rest⟩)
    (ho : opener.role = .opener) : ∃ inner, split? 0 behind = some inner := by
  obtain ⟨level, closer, hs⟩ := exists_split?_of_append h
  -- Behind the opener one more block is open, and all of them are closed in the end.
  rw [List.cons_append, split?_cons, ho] at hs
  obtain ⟨last, hl, hlast⟩ := Option.map_eq_some_iff.1 hs
  obtain rfl : last.body = behind := (List.cons.inj (congrArg body hlast)).2
  have hdeep : split? (0 + 1 + level) (last.body ++ closer :: rest) = some last := by
    rwa [Nat.zero_add, Nat.add_comm]
  obtain ⟨inner, close, more, hi, hp, hbody⟩ := exists_split?_of_add hdeep
  obtain ⟨close', -, hp', hall⟩ := split?_prefix hi
  obtain ⟨-, hclose⟩ := List.append_inj (hp.symm.trans hp') rfl
  obtain rfl : close = close' := (List.cons.inj hclose).1
  exact ⟨⟨inner.body, more⟩, hbody ▸ hall more⟩

/-! ## By index -/

/-- What a block that starts at an index consists of. -/
theorem eq_of_split?_drop {start : Nat} (h : split? depth (program.drop start) = some block) :
    block = ⟨(program.take (start + block.body.length)).drop start,
      program.drop (start + block.body.length + 1)⟩ := by
  obtain ⟨closer, -, hp⟩ := append_of_split?_eq_some h
  obtain ⟨body, rest⟩ := block
  have hbody : (program.take (start + body.length)).drop start = body := by
    rw [List.drop_take, hp]
    simp
  have hrest : program.drop (start + body.length + 1) = rest := by
    rw [Nat.add_assoc, ← List.drop_drop, hp]
    simp
  rw [hbody, hrest]

theorem split?_of_endIndex? {start stop : Nat} (h : endIndex? program start = some stop) :
    split? 0 (program.drop start) =
      some ⟨(program.take stop).drop start, program.drop (stop + 1)⟩ := by
  obtain ⟨block, hb, rfl⟩ := Option.map_eq_some_iff.1 h
  rw [hb, ← eq_of_split?_drop hb]

/-- A block found by index ends with a statement that closes it. -/
theorem exists_closer_of_endIndex? {start stop : Nat} (h : endIndex? program start = some stop) :
    start ≤ stop ∧ ∃ closer, program[stop]? = some closer ∧ Statement.role closer = .closer := by
  obtain ⟨block, hb, rfl⟩ := Option.map_eq_some_iff.1 h
  obtain ⟨closer, hc, hp⟩ := append_of_split?_eq_some hb
  refine ⟨Nat.le_add_right _ _, closer, ?_, hc⟩
  rw [← List.getElem?_drop, hp]
  simp

/-- A block found among the statements before `bound` is found in the whole program, in the same
place. -/
theorem endIndex?_of_split?_take {start bound : Nat}
    (h : split? 0 ((program.take bound).drop start) = some block) :
    endIndex? program start = some (start + block.body.length) ∧
      start + block.body.length < bound := by
  constructor
  · have hp : program.drop start = (program.take bound).drop start ++
        (program.drop bound).drop (start - (program.take bound).length) := by
      rw [← List.drop_append, List.take_append_drop]
    rw [endIndex?, hp, split?_append h]
    rfl
  · obtain ⟨closer, -, hp⟩ := append_of_split?_eq_some h
    have hlength := congrArg List.length hp
    simp only [List.length_drop, List.length_take, List.length_append, List.length_cons] at hlength
    omega

/-- A block that opens inside another one closes inside it. The search for its end in the body gives
the index that the search in the whole program gives. -/
theorem endIndex?_nested {start stop index : Nat} {opener : Statement}
    (h : endIndex? program start = some stop) (hstart : start ≤ index) (hstop : index < stop)
    (hopener : program[index]? = some opener) (ho : Statement.role opener = .opener) :
    ∃ block, split? 0 ((program.take stop).drop (index + 1)) = some block ∧
      endIndex? program (index + 1) = some (index + 1 + block.body.length) ∧
      index + 1 + block.body.length < stop := by
  have hbody : (program.take stop).drop start =
      (program.take index).drop start ++ opener :: (program.take stop).drop (index + 1) := by
    have hget : (program.take stop)[index]? = some opener := by
      rw [List.getElem?_take_of_lt hstop, hopener]
    obtain ⟨hlt, hget⟩ := List.getElem?_eq_some_iff.1 hget
    have hcut : program.take index ++ (program.take stop).drop index = program.take stop := by
      have := List.take_append_drop index (program.take stop)
      rwa [List.take_take, Nat.min_eq_left (Nat.le_of_lt hstop)] at this
    have hlength : start ≤ (program.take index).length := by
      rw [List.length_take] at hlt ⊢
      omega
    calc
      (program.take stop).drop start
      _ = (program.take index ++ (program.take stop).drop index).drop start := by rw [hcut]
      _ = (program.take index).drop start ++ (program.take stop).drop index :=
        List.drop_append_of_le_length hlength
      _ = _ := by rw [List.drop_eq_getElem_cons hlt, hget]
  have hs := split?_of_endIndex? h
  rw [hbody] at hs
  obtain ⟨block, hb⟩ := split?_nested hs ho
  exact ⟨block, hb, endIndex?_of_split?_take hb⟩

end Block

end CounterLang
