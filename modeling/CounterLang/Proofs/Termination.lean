import CounterLang.Proofs.Budget
import CounterLang.Proofs.Walks

/-!
# Walks within a budget

Within a budget every walk ends, wherever it sets out and whatever the statements are. It counts one
step more than the budget allows if and only if it ended because the budget was spent.

An integer that is not written can end a walk before the budget does, and it can take the place of
the fault that a spent budget is. For the second the line of that fault has to be such an integer,
and all lines that a walk comes to are lines of its program.

## Main definitions

* `Machine.Between`: the lines that a machine may come to lie between two lines.

## Main statements

* `Machine.Ends.line_of_fault`: a fault is on a line of the program.
* `Machine.Ends.exists_pursue`: a walk comes to the ending of the run, or to an integer that is not
  written.
* `Scope.exists_walk?_of_budget`: a walk within a budget ends, with so many steps.
-/

namespace CounterLang

/-- The lines of a loop, of its body and of what follows it lie from `first` up to `last`. -/
structure Loop.Between (first last : Int) (loop : Loop) : Prop where
  le_header : first ≤ loop.header
  header_lt : loop.header < last
  le_bodyLine : first ≤ loop.bodyLine
  body_le : loop.bodyLine + loop.body.length ≤ last
  le_restLine : first ≤ loop.restLine
  rest_le : loop.restLine + loop.rest.length ≤ last

namespace Machine

/-- The lines that a machine may come to lie from `first` up to `last`. -/
structure Between (first last : Int) (m : Machine) : Prop where
  le_line : first ≤ m.line
  code_le : m.line + m.code.length ≤ last
  loops : ∀ loop ∈ m.loops, loop.Between first last

variable {o : Options} {limit : Limit} {m next final : Machine} {fault : Fault} {e : Ending}
  {first last : Int}

theorem Between.of_running (h : m.Between first last) (hs : m.step o = .running next) :
    next.Between first last := by
  have hline := h.le_line
  have hcode' := h.code_le
  cases transition_of_step hs with
  | leave hcode hloops hget =>
    have hloop := h.loops _ (hloops ▸ List.mem_cons_self)
    exact ⟨hloop.le_restLine, hloop.rest_le,
      fun loop hmem => h.loops loop (hloops ▸ List.mem_cons_of_mem _ hmem)⟩
  | @again loop outer _ hcode hloops hget hvalue hbudget =>
    have hloop := h.loops _ (hloops ▸ List.mem_cons_self)
    refine ⟨hloop.le_bodyLine, hloop.body_le, fun inner hmem => ?_⟩
    rcases List.mem_cons.1 hmem with rfl | hmem
    · exact ⟨hloop.le_header, hloop.header_lt, hloop.le_bodyLine, hloop.body_le,
        hloop.le_restLine, hloop.rest_le⟩
    · exact h.loops inner (hloops ▸ List.mem_cons_of_mem _ hmem)
  | skip hcode htokens =>
    rw [hcode, List.length_cons] at hcode'
    refine ⟨?_, ?_, h.loops⟩
    · simp only [goto]
      omega
    · simp only [goto]
      omega
  | perform hcode htokens hbudget hread hperform =>
    rw [hcode, List.length_cons] at hcode'
    rcases hperform.goto_or_enter with ⟨-, hnext, hline', hloops⟩ |
      ⟨guard, block, rfl, hblock, hnext, hline', hloops⟩
    · rw [loops_arrive] at hloops
      refine ⟨by omega, ?_, hloops ▸ h.loops⟩
      rw [hnext, hline']
      omega
    · obtain ⟨closer, -, hp⟩ := Block.append_of_split?_eq_some hblock
      have hlength := congrArg List.length hp
      rw [List.length_append, List.length_cons] at hlength
      rw [loops_arrive] at hloops
      refine ⟨by omega, ?_, fun loop hmem => ?_⟩
      · rw [hnext, hline', List.length_nil]
        omega
      · rw [hloops] at hmem
        rcases List.mem_cons.1 hmem with rfl | hmem
        · refine ⟨hline, ?_, ?_, ?_, ?_, ?_⟩ <;> dsimp only <;> omega
        · exact h.loops loop hmem

theorem Between.line_of_failed (h : m.Between first last) (hs : m.step o = .failed fault final) :
    first ≤ fault.line ∧ fault.line < last := by
  have hhere : ∀ {statement : Statement} {rest : Program}, m.code = statement :: rest →
      first ≤ m.line ∧ m.line < last := by
    intro statement rest hcode
    have hline := h.le_line
    have hlast := h.code_le
    rw [hcode, List.length_cons] at hlast
    omega
  cases transition_of_step hs with
  | lose hcode hloops | exhaust hcode hloops =>
    have hloop := h.loops _ (hloops ▸ List.mem_cons_self)
    exact ⟨hloop.le_header, hloop.header_lt⟩
  | cut hcode => exact hhere hcode
  | reject hcode _ _ hread => exact Command.line_of_read hread ▸ hhere hcode
  | fault hcode _ _ _ hperform => exact hperform.line_eq ▸ hhere hcode

/-- A fault is on one of the lines that the machine may come to. -/
theorem Ends.line_of_fault (he : m.Ends o e) (h : m.Between first last)
    (hfault : e.fault = some fault) : first ≤ fault.line ∧ fault.line < last := by
  induction he with
  | finished => cases hfault
  | failed hs =>
    cases hfault
    exact h.line_of_failed hs
  | running hs _ ih => exact ih (h.of_running hs) hfault

/-- Within a budget, a walk comes to the ending of the run or to an integer that is not written. In
the second case it has not spent the budget, or the line of the fault is such an integer. -/
theorem Ends.exists_pursue (hl : o.limit = some limit) (he : m.Ends o e) (hm : m.Within limit) :
    ∃ fuel verdict, m.pursue o fuel = some verdict ∧ (verdict = e.verdict ∨
      verdict.stop = some .unwritable ∧ ((verdict.account.steps : Int) ≤ max limit.steps 0 ∨
        verdict.account.steps = e.machine.steps ∧
          ∃ fault, e.fault = some fault ∧ Numeral.isWritable fault.line = false)) := by
  induction he with
  | finished hs => exact ⟨1, _, pursue_of_error (attempt_of_finished hs), .inl rfl⟩
  | running hs _ ih =>
    have hnext := within_of_running hl hm hs
    rcases attempt_of_running hs with hok | ⟨verdict, herror, hstop, hsteps⟩
    · obtain ⟨fuel, verdict, hverdict, hcases⟩ := ih hnext
      exact ⟨fuel + 1, verdict, (pursue_of_ok hok).trans hverdict, hcases⟩
    · exact ⟨1, verdict, pursue_of_error herror, .inr ⟨hstop, .inl (hsteps ▸ hnext)⟩⟩
  | @failed m final fault hs =>
    rcases attempt_of_failed hs with herror | ⟨hlog, verdict, herror, hstop, hsteps⟩
    · refine ⟨1, _, pursue_of_error herror, ?_⟩
      cases hline : Numeral.isWritable fault.line with
      | true => exact .inl (by simp [Account.fail, Ending.verdict, hline])
      | false => exact .inr ⟨by simp [Account.fail, hline], .inr ⟨rfl, fault, rfl, hline⟩⟩
    · refine ⟨1, verdict, pursue_of_error herror, .inr ⟨hstop, .inl ?_⟩⟩
      -- A transition that spends the budget has no events, so they cannot have kept it from that.
      rcases (Ends.failed hs).steps_of_within hl hm with ⟨-, hx⟩ | ⟨hle, -⟩
      · obtain ⟨rfl, -⟩ := step_eq_stepLimit hs (by simpa [Ending.Exhausted] using hx)
        exact absurd rfl hlog
      · exact hsteps ▸ hle

end Machine

namespace Scope

variable {o : Options} {scope : Scope} {m : Machine}

/-- A walk sets out between its cursor and the end of the program. -/
theorem between_start (hcursor : 0 ≤ scope.cursor) (store : Store) :
    (scope.start store).Between (scope.firstLine + scope.cursor)
      (scope.firstLine + max scope.cursor scope.program.length) := by
  refine ⟨Int.le_refl _, ?_, by simp [start]⟩
  simp only [start, List.length_drop]
  omega

/-- Within a budget the walk of any program from any cursor that does not count from the end comes
to its end, from any store. `Machine.finish` is the ending, by recursion on the budget that is left
and then on the statements that are left. It counts at most one step more than the budget allows,
and it counts that one if and only if it ended because the budget was spent. The walk comes to this
ending, unless an integer is not written; as long as the lines of the program are written, that does
not take the place of a spent budget. -/
theorem exists_walk?_of_budget (program : Program) (firstLine : Int) (cursor : Nat) (store : Store)
    (n : Int) (trace : Bool) :
    let scope : Scope := { program, firstLine, cursor }
    let ending := (scope.start store).finish (.ofInt n) trace
    ((ending.machine.steps : Int) ≤ max n 0 + 1 ∧
      ((ending.machine.steps : Int) = max n 0 + 1 ↔ ending.Exhausted)) ∧
    ∃ fuel walk, scope.walk? fuel (.ofBudget (some n) trace) store = some walk ∧
      (walk.machine.steps : Int) ≤ max n 0 + 1 ∧
      (walk.stop ≠ some .unwritable → walk.verdict = ending.verdict) ∧
      ((∀ index < program.length, Numeral.isWritable (firstLine + index)) →
        ((walk.machine.steps : Int) = max n 0 + 1 ↔
          ∃ fault, walk.stop = some (.fault fault) ∧ fault.kind = .stepLimit)) := by
  intro scope ending
  have hcursor : 0 ≤ scope.cursor := Int.natCast_nonneg cursor
  have he : (scope.start store).Ends (.ofBudget (some n) trace) ending :=
    Machine.ends_finish (.ofInt n) trace _
  have hwithin : (scope.start store).Within (.ofInt n) := Int.le_max_right n 0
  have hsteps : (ending.machine.steps : Int) = max n 0 + 1 ∧ ending.Exhausted ∨
      (ending.machine.steps : Int) ≤ max n 0 ∧ ¬ ending.Exhausted :=
    he.steps_of_within rfl hwithin
  have hending : (ending.machine.steps : Int) = max n 0 + 1 ↔ ending.Exhausted := by
    rcases hsteps with ⟨heq, hx⟩ | ⟨hle, hx⟩
    · exact iff_of_true heq hx
    · exact iff_of_false (by omega) hx
  refine ⟨⟨by omega, hending⟩, ?_⟩
  obtain ⟨fuel, verdict, hverdict, hcases⟩ := he.exists_pursue rfl hwithin
  rw [← walk?_eq_pursue hcursor] at hverdict
  obtain ⟨walk, hwalk, rfl⟩ := Option.map_eq_some_iff.1 hverdict
  rcases hcases with heq | ⟨hstop, hcases⟩
  · have hsame : walk.machine.steps = ending.machine.steps := congrArg (·.account.steps) heq
    have hstop : walk.stop = ending.fault.map .fault := congrArg Verdict.stop heq
    refine ⟨fuel, walk, hwalk, by omega, fun _ => heq, fun _ => ?_⟩
    rw [hsame, hending, hstop, Ending.Exhausted]
    cases ending.fault <;> simp
  · have hstop : walk.stop = some .unwritable := hstop
    rcases hcases with hle | ⟨hsame, fault, hfault, hline⟩
    · have hle : (walk.machine.steps : Int) ≤ max n 0 := hle
      refine ⟨fuel, walk, hwalk, by omega, fun hne => absurd hstop hne, fun _ => ?_⟩
      exact iff_of_false (by omega) (by simp [hstop])
    · have hsame : walk.machine.steps = ending.machine.steps := hsame
      refine ⟨fuel, walk, hwalk, by omega, fun hne => absurd hstop hne, fun hlines => ?_⟩
      obtain ⟨hge, hlt⟩ := he.line_of_fault (between_start hcursor store) hfault
      have hge : firstLine + cursor ≤ fault.line := hge
      have hlt : fault.line < firstLine + max (cursor : Int) program.length := hlt
      have hwritten := hlines (fault.line - firstLine).toNat (by omega)
      rw [show firstLine + ((fault.line - firstLine).toNat : Int) = fault.line by omega,
        hline] at hwritten
      cases hwritten

end Scope

end CounterLang
