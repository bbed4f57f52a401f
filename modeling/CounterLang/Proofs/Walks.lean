import CounterLang.Machine.Scope
import CounterLang.Proofs.Blocks
import CounterLang.Proofs.Runs
import Mathlib.Data.List.TakeWhile

/-!
# Walks and their verdicts

A walk differs from the run of a machine in two ways. It takes the body of an outermost loop from
the program of its scope, and it stops where an integer has more digits than are written. From a
cursor that does not count from the end the first makes no difference. So a walk is the repetition
of one attempt, which is a transition and then the writing of its events.

## Main definitions

* `Account`: what a run has done, whatever is left to run.
* `Verdict`: how a walk ended, whatever was left to run.
* `Machine.attempt`: one transition, with the writing of its events.
* `Machine.pursue`: attempts until one fails or nothing is left to run.

## Main statements

* `Scope.walk?_eq_pursue`: a walk repeats attempts.
* `Machine.attempt_of_running`, `Machine.attempt_of_failed`: an attempt is a transition, unless an
  integer is not written.
-/

namespace CounterLang

/-- What a run has done so far, whatever is left to run. The log has the newest event first. -/
structure Account where
  store : Store
  steps : Nat := 0
  log : List Event := []
deriving DecidableEq, Repr

/-- How a walk ended, whatever was left to run: what has been done, and why the walk stopped early,
if it did. -/
structure Verdict where
  account : Account
  stop : Option Stop := none
deriving DecidableEq, Repr

namespace Account

/-- Writes an event, if none of its integers has more digits than are written. -/
def write (a : Account) (event : Event) : Except Verdict Account :=
  if event.isWritable then .ok { a with log := event :: a.log }
  else .error { account := a, stop := some .unwritable }

/-- Writes events one after another. -/
def writeAll (a : Account) (events : List Event) : Except Verdict Account := events.foldlM write a

/-- Stops because of a fault, whose line is written. -/
def fail (a : Account) (fault : Fault) : Verdict where
  account := a
  stop := some (if Numeral.isWritable fault.line then .fault fault else .unwritable)

@[simp] theorem writeAll_nil (a : Account) : a.writeAll [] = .ok a := rfl

theorem writeAll_cons (a : Account) (event : Event) (events : List Event) :
    a.writeAll (event :: events) = a.write event >>= (·.writeAll events) := rfl

theorem writeAll_append (a : Account) (events more : List Event) :
    a.writeAll (events ++ more) = a.writeAll events >>= (·.writeAll more) := by
  simp [writeAll, List.foldlM_append]

/-- Events are written up to the first that cannot be. -/
theorem writeAll_eq (a : Account) (events : List Event) :
    a.writeAll events =
      if events.all Event.isWritable then .ok { a with log := events.reverse ++ a.log }
      else .error
        { account :=
            { a with log := (events.takeWhile Event.isWritable).reverse ++ a.log }
          stop := some .unwritable } := by
  induction events generalizing a with
  | nil => rfl
  | cons event events ih =>
    rw [writeAll_cons, write]
    cases hevent : event.isWritable with
    | false => simp [hevent, bind, Except.bind]
    | true => simp [hevent, bind, Except.bind, ih]

end Account

/-- What the machine has done. -/
def Machine.account (m : Machine) : Account := { store := m.store, steps := m.steps, log := m.log }

/-- How the walk ended. -/
def Walk.verdict (walk : Walk) : Verdict := { account := walk.machine.account, stop := walk.stop }

/-- How the run ended. -/
def Ending.verdict (e : Ending) : Verdict where
  account := e.machine.account
  stop := e.fault.map .fault

namespace Machine

/-- What a transition leads to, with its events written after what had been done before. -/
def Outcome.write (a : Account) : Outcome → Except Verdict Machine
  | .finished => .error { account := a }
  | .running next => do
    let a ← { a with steps := next.steps }.writeAll next.log.reverse
    .ok { next with log := a.log }
  | .failed fault last => do
    let a ← { a with steps := last.steps }.writeAll last.log.reverse
    .error ({ a with store := last.store }.fail fault)

/-- One transition, with the writing of its events. -/
def attempt (o : Options) (m : Machine) : Except Verdict Machine :=
  ({ m with log := [] }.step o).write m.account

/-- Repeats attempts; gives how this ends, if it ends within `fuel` of them. -/
def pursue (o : Options) : Nat → Machine → Option Verdict
  | 0, _ => none
  | fuel + 1, m =>
    match m.attempt o with
    | .ok next => pursue o fuel next
    | .error verdict => some verdict

/-- The statements that the outermost block goes on with and the line of the first of them, where
`code` goes on on `line` inside some loops. -/
def outermost (code : Program) (line : Int) : List Loop → Program × Int
  | [] => (code, line)
  | loop :: outer => outermost loop.rest loop.restLine outer

end Machine

namespace Scope

open Machine (outermost)

/-- The outermost block goes on with the program of the scope from some index on. -/
def Aligned (scope : Scope) (m : Machine) : Prop :=
  ∃ index : Nat, outermost m.code m.line m.loops =
    (scope.program.drop index, scope.firstLine + index)

variable {o : Options} {scope : Scope} {m next : Machine} {statement : Statement} {rest : Program}

theorem Aligned.of_goto (h : scope.Aligned m) (hcode : m.code = statement :: rest)
    (hnext : next.code = rest) (hline : next.line = m.line + 1) (hloops : next.loops = m.loops) :
    scope.Aligned next := by
  obtain ⟨index, hindex⟩ := h
  rw [Aligned, hloops, hnext, hline]
  cases hm : m.loops with
  | nil =>
    rw [hm, hcode, outermost, Prod.mk.injEq] at hindex
    refine ⟨index + 1, ?_⟩
    rw [outermost, hindex.2, ← List.drop_drop, ← hindex.1, List.drop_succ_cons, List.drop_zero]
    push_cast
    rw [Int.add_assoc]
  | cons loop outer =>
    rw [hm] at hindex
    exact ⟨index, hindex⟩

/-- A loop that is entered has the body that the scope delimits, and goes on where the program goes
on behind its `end`. -/
theorem Aligned.of_enter {block : Block} {loop : Loop} (h : scope.Aligned m)
    (hcode : m.code = statement :: rest) (hblock : Block.split? 0 rest = some block)
    (hbody : loop.body = block.body) (hbodyLine : loop.bodyLine = m.line + 1)
    (hrest : loop.rest = block.rest)
    (hrestLine : loop.restLine = m.line + 1 + block.body.length + 1)
    (hloops : next.loops = loop :: m.loops) :
    scope.Aligned next ∧ (m.loops = [] → scope.place loop = loop) := by
  obtain ⟨index, hindex⟩ := h
  rw [Aligned, hloops]
  -- Inside another loop only that loop says where the outermost block goes on.
  cases hm : m.loops with
  | cons inner outer =>
    rw [hm] at hindex
    exact ⟨⟨index, hindex⟩, by simp⟩
  | nil =>
    rw [hm, hcode, outermost, Prod.mk.injEq] at hindex
    obtain ⟨hdrop, hline⟩ := hindex
    have hafter : rest = scope.program.drop (index + 1) := by
      rw [← List.drop_drop, ← hdrop, List.drop_succ_cons, List.drop_zero]
    rw [hafter] at hblock
    have hparts := Block.eq_of_split?_drop hblock
    refine ⟨⟨index + 1 + block.body.length + 1, ?_⟩, fun _ => ?_⟩
    · rw [outermost, outermost, hrest, hrestLine, hline]
      refine Prod.ext (congrArg Block.rest hparts) ?_
      push_cast
      omega
    · have hstart : loop.bodyLine - scope.firstLine = (index + 1 : Nat) := by
        rw [hbodyLine, hline]
        push_cast
        omega
      have hstop : loop.restLine - 1 - scope.firstLine =
          (index + 1 + block.body.length : Nat) := by
        rw [hrestLine, hline]
        push_cast
        omega
      rw [place, hstart, hstop, Program.slice_natCast]
      have hslice := (congrArg Block.body hparts).symm
      simp only at hslice
      rw [hslice, ← hbody]

/-- A transition keeps the scope aligned, and from the outermost block the scope has nothing to put
right in what it leads to. -/
theorem Aligned.of_running (h : scope.Aligned m) (hs : m.step o = .running next) :
    scope.Aligned next ∧ (m.loops = [] → scope.settle next = next) := by
  cases Machine.transition_of_step hs with
  | leave hcode hloops hget =>
    obtain ⟨index, hindex⟩ := h
    rw [hloops] at hindex ⊢
    exact ⟨⟨index, hindex⟩, by simp⟩
  | again hcode hloops hget hvalue hbudget =>
    obtain ⟨index, hindex⟩ := h
    rw [hloops] at hindex ⊢
    exact ⟨⟨index, hindex⟩, by simp⟩
  | skip hcode htokens =>
    refine ⟨h.of_goto hcode rfl rfl rfl, fun hloops => ?_⟩
    simp [settle, Machine.goto, hloops]
  | perform hcode htokens hbudget hread hperform =>
    rcases hperform.goto_or_enter with ⟨-, hcode', hline', hloops'⟩ |
      ⟨guard, block, rfl, hblock, hcode', -, hloops'⟩
    · rw [Machine.loops_arrive] at hloops'
      refine ⟨h.of_goto hcode hcode' hline' hloops', fun hloops => ?_⟩
      rw [settle, hloops', hloops, List.map_nil, ← hloops, ← hloops']
    · rw [Machine.loops_arrive] at hloops'
      obtain ⟨haligned, hplace⟩ := h.of_enter hcode hblock rfl rfl rfl rfl hloops'
      refine ⟨haligned, fun hloops => ?_⟩
      rw [settle, hloops', List.map_cons, hplace hloops, hloops, List.map_nil, ← hloops, ← hloops']

/-- In an aligned scope, following a machine is repeating attempts. -/
theorem follow?_eq_pursue {fuel : Nat} (h : scope.Aligned m) :
    (scope.follow? o fuel m).map Walk.verdict = m.pursue o fuel := by
  induction fuel generalizing m with
  | zero => rfl
  | succ fuel ih =>
    have hempty : scope.Aligned { m with log := [] } := h
    simp only [follow?, Machine.pursue, Machine.attempt]
    cases hs : ({ m with log := [] } : Machine).step o with
    | finished => rfl
    | failed fault last =>
      simp only [Machine.Outcome.write, Account.writeAll_eq, List.all_reverse, List.reverse_reverse]
      cases hall : last.log.all Event.isWritable with
      | false => simp [bind, Except.bind, Walk.verdict, cutShort, Machine.account]
      | true =>
        cases hline : Numeral.isWritable fault.line with
        | false =>
          have hwhole : last.log.reverse.takeWhile Event.isWritable = last.log.reverse := by
            rw [List.takeWhile_eq_self_iff]
            simpa using hall
          simp [hline, bind, Except.bind, Walk.verdict, cutShort, Machine.account, Account.fail,
            hwhole, Machine.store_of_failed hs]
        | true => simp [hline, bind, Except.bind, Walk.verdict, Machine.account, Account.fail]
    | running next =>
      obtain ⟨hnext, hsettle⟩ := hempty.of_running hs
      simp only [Machine.Outcome.write, Account.writeAll_eq, List.all_reverse, List.reverse_reverse]
      cases hall : next.log.all Event.isWritable with
      | false => simp [bind, Except.bind, Walk.verdict, cutShort, Machine.account]
      | true =>
        have hsettle' : (if m.loops.isEmpty then scope.settle next else next) = next := by
          split
          · exact hsettle (List.isEmpty_iff.1 ‹_›)
          · rfl
        simp only [if_true, hsettle']
        exact ih hnext

/-- The machine that a walk sets out with, from a cursor that does not count from the end. -/
def start (scope : Scope) (store : Store) : Machine where
  code := scope.program.drop scope.cursor.toNat
  line := scope.firstLine + scope.cursor
  store

/-- A walk repeats attempts. -/
theorem walk?_eq_pursue {fuel : Nat} {store : Store} (hcursor : 0 ≤ scope.cursor) :
    (scope.walk? fuel o store).map Walk.verdict = (scope.start store).pursue o fuel := by
  have haligned : scope.Aligned (scope.start store) := by
    refine ⟨scope.cursor.toNat, ?_⟩
    rw [Int.toNat_of_nonneg hcursor]
    rfl
  rw [walk?, Program.startingAt, if_pos hcursor]
  exact follow?_eq_pursue haligned

end Scope

/-! ## Attempts and transitions -/

namespace Machine

variable {o : Options} {m next last : Machine} {fault : Fault} {verdict : Verdict}

theorem pursue_of_ok {fuel : Nat} (h : m.attempt o = .ok next) :
    m.pursue o (fuel + 1) = next.pursue o fuel := by
  simp only [pursue, h]

theorem pursue_of_error {fuel : Nat} (h : m.attempt o = .error verdict) :
    m.pursue o (fuel + 1) = some verdict := by
  simp only [pursue, h]

theorem attempt_of_finished (h : m.step o = .finished) :
    m.attempt o = .error { account := m.account } := by
  rw [step_eq_map_behind] at h
  rw [attempt]
  cases hs : ({ m with log := [] } : Machine).step o with
  | finished => rfl
  | running | failed => simp [hs, Outcome.map] at h

/-- A transition to another machine is an attempt that comes to it, if its events are written. -/
theorem attempt_of_running (h : m.step o = .running next) :
    m.attempt o = .ok next ∨ ∃ verdict, m.attempt o = .error verdict ∧
      verdict.stop = some .unwritable ∧ verdict.account.steps = next.steps := by
  rw [step_eq_map_behind] at h
  rw [attempt]
  cases hs : ({ m with log := [] } : Machine).step o with
  | finished | failed => simp [hs, Outcome.map] at h
  | running fresh =>
    rw [hs, Outcome.map, Outcome.running.injEq] at h
    subst h
    simp only [Outcome.write, Account.writeAll_eq, List.reverse_reverse]
    split
    · exact .inl rfl
    · exact .inr ⟨_, rfl, rfl, rfl⟩

/-- A transition that fails is an attempt that fails, with the same fault if its events and the line
of the fault are written. -/
theorem attempt_of_failed (h : m.step o = .failed fault last) :
    m.attempt o = .error (last.account.fail fault) ∨ last.log ≠ m.log ∧ ∃ verdict,
      m.attempt o = .error verdict ∧ verdict.stop = some .unwritable ∧
        verdict.account.steps = last.steps := by
  rw [step_eq_map_behind] at h
  rw [attempt]
  cases hs : ({ m with log := [] } : Machine).step o with
  | finished | running => simp [hs, Outcome.map] at h
  | failed fault fresh =>
    rw [hs, Outcome.map, Outcome.failed.injEq] at h
    obtain ⟨rfl, rfl⟩ := h
    simp only [Outcome.write, Account.writeAll_eq, List.reverse_reverse]
    split
    · exact .inl rfl
    · rename_i hall
      refine .inr ⟨fun hlog => hall ?_, _, rfl, rfl, rfl⟩
      have hnil : fresh.log = [] := by simpa [behind] using hlog
      simp [hnil]

end Machine

end CounterLang
