import CounterLang.Proofs.Nesting
import CounterLang.Proofs.Refinement

/-!
# Executions

An execution walks a scope like `Scope.walk?`, but goes on from what has been done before: from any
store, any number of counted steps and any log. A walk is the execution that nothing has been done
before. What ends an execution is what a transition at some moment of the run leads to, or an
integer that is not written.

## Main definitions

* `Scope.resume`: the machine that goes on with a scope.
* `Scope.Executes`: the execution of a scope ends with a verdict.
* `Verdict.behind`: a verdict with older events behind its log.
* `Machine.Stops`: what stops a machine.
* `Event.Since`: what has been logged since an older log.

## Main statements

* `Scope.executes_iff_walk?`: a walk is an execution.
* `Scope.Executes.unique`: an execution has one verdict at most.
* `Scope.executes_behind`: an execution does not look at what has been logged before.
* `Scope.Executes.exists_stops`: a verdict is what stops some machine that the run comes to.
* `Machine.Ends.gives`: where all events are written, an execution ends like the run.
-/

namespace CounterLang

namespace Account

/-- The trace so far. -/
def trace (a : Account) : List Text := a.log.reverse.filterMap Event.traceLine?

/-- The output so far. -/
def output (a : Account) : List Text := a.log.reverse.filterMap Event.outputLine?

/-- The same with older events behind the log. -/
def behind (a : Account) (past : List Event) : Account := { a with log := a.log ++ past }

variable (a : Account) (past : List Event)

theorem trace_behind : (a.behind past).trace =
    past.reverse.filterMap Event.traceLine? ++ a.trace := by
  simp [trace, behind]

theorem output_behind : (a.behind past).output =
    past.reverse.filterMap Event.outputLine? ++ a.output := by
  simp [output, behind]

end Account

namespace Verdict

/-- The verdict with older events behind its log. -/
def behind (verdict : Verdict) (past : List Event) : Verdict :=
  { verdict with account := verdict.account.behind past }

end Verdict

/-! ## Attempts -/

namespace Machine

variable {o : Options} {m next : Machine} {past : List Event} {verdict : Verdict} {fuel : Nat}

theorem write_behind (a : Account) (outcome : Outcome) :
    outcome.write (a.behind past) =
      match outcome.write a with
      | .ok next => .ok (next.behind past)
      | .error verdict => .error (verdict.behind past) := by
  cases outcome with
  | finished => rfl
  | running next =>
    simp only [Outcome.write, Account.writeAll_eq, Account.behind]
    split
    · simp [bind, Except.bind, Machine.behind]
    · simp [bind, Except.bind, Verdict.behind, Account.behind]
  | failed fault last =>
    simp only [Outcome.write, Account.writeAll_eq, Account.behind]
    split
    · simp [bind, Except.bind, Account.fail, Verdict.behind, Account.behind]
    · simp [bind, Except.bind, Verdict.behind, Account.behind]

/-- An attempt does not look at the log, it only puts events in front of it. -/
theorem attempt_behind (m : Machine) (past : List Event) (o : Options) :
    (m.behind past).attempt o =
      match m.attempt o with
      | .ok next => .ok (next.behind past)
      | .error verdict => .error (verdict.behind past) :=
  write_behind m.account _

/-- Where functions take each attempt to an attempt, they take repeated attempts to repeated
attempts. -/
theorem pursue_map {o' : Options} {f : Machine → Machine} {g : Verdict → Verdict}
    (hattempt : ∀ m, (f m).attempt o' =
      match m.attempt o with
      | .ok next => .ok (f next)
      | .error verdict => .error (g verdict)) :
    (f m).pursue o' fuel = (m.pursue o fuel).map g := by
  induction fuel generalizing m with
  | zero => rfl
  | succ fuel ih =>
    simp only [pursue, hattempt]
    cases m.attempt o with
    | ok next => exact ih
    | error verdict => rfl

theorem pursue_behind : (m.behind past).pursue o fuel =
    (m.pursue o fuel).map (·.behind past) :=
  pursue_map (f := fun m => m.behind past) fun m => m.attempt_behind past o

theorem gives_of_pursue (h : m.pursue o fuel = some verdict) : m.Gives o (.error verdict) := by
  induction fuel generalizing m with
  | zero => cases h
  | succ fuel ih =>
    rw [pursue] at h
    split at h
    · exact .step ‹_› (ih h)
    · cases h
      exact .stop ‹_›

theorem step_of_attempt (h : m.attempt o = .ok next) : m.step o = .running next := by
  cases hs : m.step o with
  | finished => simp [attempt_of_finished hs] at h
  | failed fault last =>
    rcases attempt_of_failed hs with herror | ⟨-, verdict, herror, -⟩ <;> simp [herror] at h
  | running other =>
    rcases attempt_of_running hs with hok | ⟨verdict, herror, -⟩
    · rw [hok, Except.ok.injEq] at h
      rw [h]
    · simp [herror] at h

/-- What stops a machine: it has nothing left to run, its transition fails, or an integer among the
events of its transition or in the line of its fault is not written. -/
inductive Stops (o : Options) (m : Machine) : Verdict → Prop where
  | finished (hs : m.step o = .finished) : Stops o m { account := m.account }
  | failed {fault : Fault} {last : Machine} (hs : m.step o = .failed fault last) :
      Stops o m { account := last.account, stop := some (.fault fault) }
  | unwritable {a : Account} {next : Machine}
      (hs : m.step o = .running next ∨ ∃ fault, m.step o = .failed fault next)
      (hlog : a.log <:+ next.log) : Stops o m { account := a, stop := some .unwritable }

/-- Where writing stops, older events are in the log already. -/
theorem suffix_of_writeAll {a : Account} {events : List Event}
    (h : a.writeAll events = .error verdict) :
    verdict.stop = some .unwritable ∧ verdict.account.log <:+ events.reverse ++ a.log := by
  rw [Account.writeAll_eq] at h
  split at h
  · cases h
  · cases h
    refine ⟨rfl, List.suffix_append_self_iff.2 ?_⟩
    exact List.reverse_suffix.2 (List.takeWhile_prefix _)

theorem stops_of_attempt (h : m.attempt o = .error verdict) : m.Stops o verdict := by
  have hstep := step_eq_map_behind m o
  rw [attempt] at h
  cases hs : ({ m with log := [] } : Machine).step o with
  | finished =>
    rw [hs] at h hstep
    cases h
    exact .finished hstep
  | running fresh =>
    rw [hs] at h hstep
    simp only [Outcome.write, bind, Except.bind] at h
    split at h
    · rename_i hwrite
      cases h
      obtain ⟨account, stop⟩ := verdict
      obtain ⟨rfl, hlog⟩ := suffix_of_writeAll hwrite
      rw [List.reverse_reverse] at hlog
      exact .unwritable (.inl hstep) hlog
    · cases h
  | failed fault fresh =>
    rw [hs] at h hstep
    simp only [Outcome.write, bind, Except.bind] at h
    split at h
    · rename_i hwrite
      cases h
      obtain ⟨account, stop⟩ := verdict
      obtain ⟨rfl, hlog⟩ := suffix_of_writeAll hwrite
      rw [List.reverse_reverse] at hlog
      exact .unwritable (.inr ⟨fault, hstep⟩) hlog
    · rename_i a hwrite
      cases h
      have hlast : { a with store := fresh.store } = (fresh.behind m.log).account := by
        rw [Account.writeAll_eq] at hwrite
        split at hwrite
        · cases hwrite
          simp [account, Machine.behind]
        · cases hwrite
      rw [hlast, Account.fail]
      split
      · exact .failed hstep
      · exact .unwritable (.inr ⟨fault, hstep⟩) List.suffix_rfl

theorem Gives.reaches (h : m.Gives o (.ok next)) : m.Reaches o next := by
  generalize hr : Except.ok next = result at h
  induction h with
  | refl =>
    cases hr
    exact .refl
  | stop => cases hr
  | step hattempt _ ih => exact .head (step_of_attempt hattempt) (ih hr)

/-- A verdict is given by the last of the machines that are given. -/
theorem Gives.exists_last (h : m.Gives o (.error verdict)) :
    ∃ last, m.Gives o (.ok last) ∧ last.attempt o = .error verdict := by
  generalize hr : Except.error verdict = result at h
  induction h with
  | refl => cases hr
  | @stop m _ hattempt =>
    cases hr
    exact ⟨m, .refl m, hattempt⟩
  | step hattempt _ ih =>
    obtain ⟨last, hgives, hlast⟩ := ih hr
    exact ⟨last, .step hattempt hgives, hlast⟩

end Machine

/-! ## Events that are written -/

/-- All events that have been logged since the log was `past` have the property. -/
def Event.Since (P : Event → Prop) (past log : List Event) : Prop :=
  ∃ events, log = events ++ past ∧ ∀ event ∈ events, P event

namespace Event

variable {P Q : Event → Prop} {past middle log : List Event}

theorem Since.refl (P : Event → Prop) (log : List Event) : Since P log log := ⟨[], rfl, by simp⟩

theorem Since.suffix (h : Since P past log) : past <:+ log := by
  obtain ⟨events, rfl, -⟩ := h
  exact List.suffix_append events past

theorem Since.mono (h : Since P past log) (hPQ : ∀ event, P event → Q event) :
    Since Q past log := by
  obtain ⟨events, hlog, hevents⟩ := h
  exact ⟨events, hlog, fun event hevent => hPQ event (hevents event hevent)⟩

theorem Since.trans (h : Since P past middle) (h' : Since P middle log) : Since P past log := by
  obtain ⟨first, rfl, hfirst⟩ := h
  obtain ⟨second, rfl, hsecond⟩ := h'
  refine ⟨second ++ first, (List.append_assoc ..).symm, fun event hevent => ?_⟩
  rcases List.mem_append.1 hevent with hmem | hmem
  · exact hsecond event hmem
  · exact hfirst event hmem

/-- What has been logged up to some moment and what has been logged after it. -/
theorem Since.split (h : Since P past log) (hpast : past <:+ middle) (hmiddle : middle <:+ log) :
    Since P past middle ∧ Since P middle log := by
  obtain ⟨events, hlog, hevents⟩ := h
  obtain ⟨first, rfl⟩ := hpast
  obtain ⟨second, rfl⟩ := hmiddle
  rw [← List.append_assoc, List.append_cancel_right_eq] at hlog
  subst hlog
  exact ⟨⟨first, rfl, fun event hevent => hevents event (by simp [hevent])⟩,
    ⟨second, rfl, fun event hevent => hevents event (by simp [hevent])⟩⟩

end Event

namespace Machine

variable {o : Options} {m next last : Machine} {fault : Fault} {e : Ending}

/-- A transition whose events are written is an attempt that comes to the same machine. -/
theorem attempt_of_running_since (hs : m.step o = .running next)
    (h : Event.Since (·.isWritable) m.log next.log) : m.attempt o = .ok next := by
  rw [step_eq_map_behind] at hs
  rw [attempt]
  cases hfresh : ({ m with log := [] } : Machine).step o with
  | finished | failed => simp [hfresh, Outcome.map] at hs
  | running fresh =>
    rw [hfresh, Outcome.map, Outcome.running.injEq] at hs
    subst hs
    obtain ⟨events, hevents, hwritten⟩ := h
    obtain rfl : fresh.log = events := List.append_cancel_right hevents
    have hall : fresh.log.reverse.all Event.isWritable := by simpa using hwritten
    simp only [Outcome.write, Account.writeAll_eq, if_pos hall, List.reverse_reverse]
    rfl

/-- The same of a transition that fails. -/
theorem attempt_of_failed_since (hs : m.step o = .failed fault last)
    (h : Event.Since (·.isWritable) m.log last.log) :
    m.attempt o = .error (last.account.fail fault) := by
  rw [step_eq_map_behind] at hs
  rw [attempt]
  cases hfresh : ({ m with log := [] } : Machine).step o with
  | finished | running => simp [hfresh, Outcome.map] at hs
  | failed fault' fresh =>
    rw [hfresh, Outcome.map, Outcome.failed.injEq] at hs
    obtain ⟨rfl, rfl⟩ := hs
    obtain ⟨events, hevents, hwritten⟩ := h
    obtain rfl : fresh.log = events := List.append_cancel_right hevents
    have hall : fresh.log.reverse.all Event.isWritable := by simpa using hwritten
    simp only [Outcome.write, Account.writeAll_eq, if_pos hall, List.reverse_reverse]
    rfl

/-- Where all events are written, and the line of the fault, an execution ends like the run. -/
theorem Ends.gives (he : m.Ends o e) (h : Event.Since (·.isWritable) m.log e.machine.log)
    (hline : ∀ fault ∈ e.fault, Numeral.isWritable fault.line) :
    m.Gives o (.error e.verdict) := by
  induction he with
  | finished hs => exact .stop (attempt_of_finished hs)
  | @failed m last fault hs =>
    have hfail := attempt_of_failed_since hs h
    rw [Account.fail, if_pos (hline fault rfl)] at hfail
    exact .stop hfail
  | running hs he ih =>
    obtain ⟨hfirst, hrest⟩ := h.split (log_suffix_of_running hs) he.log_suffix
    exact .step (attempt_of_running_since hs hfirst) (ih hrest hline)

end Machine

/-! ## Executions -/

namespace Scope

variable {o : Options} {scope : Scope} {a : Account} {verdict other : Verdict}

/-- The machine that goes on with the statements from the cursor on, after what has been done. -/
def resume (scope : Scope) (a : Account) : Machine :=
  a.machine (scope.program.drop scope.cursor.toNat) (scope.firstLine + scope.cursor) []

/-- A whole program starts outside all loops, whatever has been done before. -/
theorem placed_resume (program : Program) (a : Account) :
    (({ program } : Scope).resume a).Placed program :=
  Machine.placed_of_drop .nil (by simp [resume, Account.machine]) rfl fun _ => rfl

/-- The statements from the cursor on are executed after what has been done before, and the
execution ends with the verdict. -/
def Executes (o : Options) (scope : Scope) (a : Account) (verdict : Verdict) : Prop :=
  ∃ fuel walk, scope.follow? o fuel (scope.resume a) = some walk ∧ walk.verdict = verdict

/-- A walk is an execution before which nothing has been done but to fill a store. -/
theorem executes_iff_walk? (hcursor : 0 ≤ scope.cursor) (store : Store) :
    scope.Executes o { store } verdict ↔
      ∃ fuel walk, scope.walk? fuel o store = some walk ∧ walk.verdict = verdict := by
  simp only [Executes, walk?, Program.startingAt, if_pos hcursor]
  rfl

theorem executes_iff_pursue (hcursor : 0 ≤ scope.cursor) :
    scope.Executes o a verdict ↔ ∃ fuel, (scope.resume a).pursue o fuel = some verdict := by
  have haligned : scope.Aligned (scope.resume a) := by
    refine ⟨scope.cursor.toNat, ?_⟩
    rw [Int.toNat_of_nonneg hcursor]
    rfl
  simp only [Executes, ← follow?_eq_pursue haligned, Option.map_eq_some_iff]

theorem executes_iff_gives (hcursor : 0 ≤ scope.cursor) :
    scope.Executes o a verdict ↔ (scope.resume a).Gives o (.error verdict) := by
  rw [executes_iff_pursue hcursor]
  exact ⟨fun ⟨fuel, hfuel⟩ => Machine.gives_of_pursue hfuel, Machine.Gives.exists_pursue⟩

/-- An execution has one verdict at most. -/
theorem Executes.unique (hcursor : 0 ≤ scope.cursor) (h : scope.Executes o a verdict)
    (h' : scope.Executes o a other) : verdict = other := by
  obtain ⟨fuel, hfuel⟩ := (executes_iff_pursue hcursor).1 h
  exact ((executes_iff_gives hcursor).1 h').eq_of_pursue hfuel

/-- An execution does not look at what has been logged before. -/
theorem executes_behind (hcursor : 0 ≤ scope.cursor) (past : List Event) :
    scope.Executes o (a.behind past) verdict ↔
      ∃ fresh, scope.Executes o a fresh ∧ verdict = fresh.behind past := by
  have hresume : scope.resume (a.behind past) = (scope.resume a).behind past := rfl
  simp only [executes_iff_pursue hcursor, hresume, Machine.pursue_behind, Option.map_eq_some_iff]
  constructor
  · rintro ⟨fuel, fresh, hfuel, rfl⟩
    exact ⟨fresh, ⟨fuel, hfuel⟩, rfl⟩
  · rintro ⟨fresh, ⟨fuel, hfuel⟩, rfl⟩
    exact ⟨fuel, fresh, hfuel, rfl⟩

/-- A verdict is what stops some machine that the run comes to. -/
theorem Executes.exists_stops (hcursor : 0 ≤ scope.cursor) (h : scope.Executes o a verdict) :
    ∃ moment, (scope.resume a).Reaches o moment ∧ moment.Stops o verdict := by
  obtain ⟨moment, hgives, hattempt⟩ := ((executes_iff_gives hcursor).1 h).exists_last
  exact ⟨moment, hgives.reaches, Machine.stops_of_attempt hattempt⟩

/-- Unless an integer is not written, the verdict is that of the run. -/
theorem Executes.exists_ends (hcursor : 0 ≤ scope.cursor) (h : scope.Executes o a verdict)
    (hstop : verdict.stop ≠ some .unwritable) :
    ∃ e, (scope.resume a).Ends o e ∧ e.verdict = verdict := by
  obtain ⟨moment, hreach, hstops⟩ := h.exists_stops hcursor
  cases hstops with
  | finished hs => exact ⟨_, hreach.ends_iff.2 (.finished hs), rfl⟩
  | failed hs => exact ⟨_, hreach.ends_iff.2 (.failed hs), rfl⟩
  | unwritable => exact absurd rfl hstop

end Scope

end CounterLang
