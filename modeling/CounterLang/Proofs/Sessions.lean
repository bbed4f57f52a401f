import CounterLang.Proofs.Budget
import CounterLang.Session
import Mathlib.Data.List.Forall2

/-!
# Runs of one session

A session starts each run anew: with the empty store, no steps and nothing collected. Then it makes
the transitions of the run one by one, on a store and a count of its own, and each line goes to a
sink or to the collected lines at the moment when it is emitted. All that comes of this is what
`Session.execute?` says at once. So the runs of a session have nothing to do with each other,
whatever is asked of it in between, but that each sink keeps what the runs before have sent to it.

## Main definitions

* `Session.Proceeds`: the session makes the transitions of a run.
* `Session.History`: what a session has been asked, and the runs that have come of it.
* `Episode.Matches`: a run of a session came to the same as a run of a session that is new.

## Main statements

* `Session.proceeds_iff_execute?`: transition by transition a run comes to what `execute?` says.
* `Session.execute?_eq`: a run comes to what it comes to in a session that is new.
* `Session.runs_independent`: the runs of a session are independent, and its sinks lose nothing.
-/

namespace CounterLang

namespace Channel

/-- The channel with nothing collected. -/
def reset (channel : Channel) : Channel := { channel with collected := [] }

/-- The channel after one more line. -/
def emit (channel : Channel) (line : Text) : Channel :=
  match channel.sink with
  | some received => { channel with sink := some (received ++ [line]) }
  | none => { channel with collected := channel.collected ++ [line] }

theorem foldl_emit (channel : Channel) (lines : List Text) :
    lines.foldl emit channel =
      match channel.sink with
      | some received => { channel with sink := some (received ++ lines) }
      | none => { channel with collected := channel.collected ++ lines } := by
  obtain ⟨sink, collected⟩ := channel
  induction lines generalizing sink collected with
  | nil => cases sink <;> simp
  | cons line lines ih => cases sink <;> simp [emit, ih]

/-- Lines that are delivered are emitted one after another. -/
theorem deliver_eq_foldl (channel : Channel) (lines : List Text) :
    channel.deliver lines = lines.foldl emit channel.reset := by
  rw [foldl_emit]
  obtain ⟨sink, collected⟩ := channel
  cases sink <;> rfl

/-- A channel, with a sink or without, after runs that have emitted these lines. -/
def after (sink : Bool) (runs : List (List Text)) : Channel :=
  if sink then { sink := some runs.flatten } else { collected := runs.getLast?.getD [] }

theorem deliver_after (sink : Bool) (runs : List (List Text)) (lines : List Text) :
    (after sink runs).deliver lines = after sink (runs ++ [lines]) := by
  cases sink <;> simp [after, deliver]

theorem collected_after_concat (sink : Bool) (runs : List (List Text)) (lines : List Text) :
    (after sink (runs ++ [lines])).collected = if sink then [] else lines := by
  cases sink <;> simp [after]

end Channel

/-- The closing lines are emitted whatever has been logged before. -/
theorem Ending.close_behind (e : Ending) (o : Options) (past : List Event) :
    (e.bimap id (·.behind past)).close o = (e.close o).bimap id (·.behind past) := by
  simp only [close, bimap, Option.map_id, id]
  split <;> rfl

namespace Session

/-! ## Transition by transition -/

/-- The session at the start of a run. -/
def reset (session : Session) : Session :=
  { session with
    trace := session.trace.reset
    output := session.output.reset
    store := ∅
    steps := 0 }

/-- The session after an event, which has a line for the trace, for the output or for neither. -/
def hear (session : Session) (event : Event) : Session :=
  { session with
    trace := event.traceLine?.elim session.trace session.trace.emit
    output := event.outputLine?.elim session.output session.output.emit }

/-- The session after what a machine has done to its store and its count, and after the events that
the machine has logged, oldest first. -/
def advance (session : Session) (m : Machine) : Session :=
  m.log.reverse.foldl hear { session with store := m.store, steps := m.steps }

/-- The machine that goes on in a session, with the store and the count of the session. -/
def machine (session : Session) (code : Program) (line : Int) (loops : List Loop) : Machine :=
  { code, line, loops, store := session.store, steps := session.steps }

/-- The session after the closing lines of the trace. -/
def finish (session : Session) : Session :=
  if session.options.trace then (session.hear .finished).hear (.snapshot session.store)
  else session

/-- With `code` to run inside some loops, a session makes transitions until the run ends, with a
fault if the run ends early. -/
inductive Proceeds :
    Session → Program → Int → List Loop → Session → Option Fault → Prop where
  | finished {session : Session} {code : Program} {line : Int} {loops : List Loop}
      (h : (session.machine code line loops).step session.options = .finished) :
      Proceeds session code line loops session.finish none
  | failed {session : Session} {code : Program} {line : Int} {loops : List Loop} {fault : Fault}
      {last : Machine}
      (h : (session.machine code line loops).step session.options = .failed fault last) :
      Proceeds session code line loops (session.advance last) (some fault)
  | running {session next : Session} {code : Program} {line : Int} {loops : List Loop}
      {moment : Machine} {fault : Option Fault}
      (h : (session.machine code line loops).step session.options = .running moment)
      (hp : Proceeds (session.advance moment) moment.code moment.line moment.loops next fault) :
      Proceeds session code line loops next fault

variable {session next : Session} {code program : Program} {line : Int} {loops : List Loop}
  {fault : Option Fault} {fuel : Nat}

theorem foldl_hear (session : Session) (events : List Event) :
    events.foldl hear session =
      { session with
        trace := (events.filterMap Event.traceLine?).foldl Channel.emit session.trace
        output := (events.filterMap Event.outputLine?).foldl Channel.emit session.output } := by
  induction events generalizing session with
  | nil => rfl
  | cons event events ih =>
    rw [List.foldl_cons, ih, hear]
    cases htrace : event.traceLine? <;> cases houtput : event.outputLine? <;>
      simp [htrace, houtput]

theorem advance_eq (session : Session) (m : Machine) :
    session.advance m =
      { session with
        trace := m.trace.foldl Channel.emit session.trace
        output := m.output.foldl Channel.emit session.output
        store := m.store
        steps := m.steps } :=
  foldl_hear _ _

@[simp] theorem options_advance (m : Machine) : (session.advance m).options = session.options := by
  rw [advance_eq]

/-- What is done first and what is done then. -/
theorem advance_advance (session : Session) (m later : Machine) :
    (session.advance m).advance later = session.advance (later.behind m.log) := by
  simp [advance_eq, Machine.trace, Machine.output, Machine.behind]

theorem advance_emit (session : Session) (m : Machine) (event : Event) :
    session.advance (m.emit event) = (session.advance m).hear event := by
  rw [advance, Machine.emit, List.reverse_cons, List.foldl_append]
  rfl

/-- The machine goes on where a transition has led to, with nothing in its log. -/
theorem machine_advance (session : Session) (m : Machine) :
    (session.advance m).machine m.code m.line m.loops = { m with log := [] } := by
  simp [advance_eq, machine]

/-- The closing lines are emitted like all others. -/
theorem advance_close (session : Session) (m : Machine) :
    session.advance (Ending.close session.options { machine := m }).machine =
      (session.advance m).finish := by
  have hstore : (session.advance m).store = m.store := by rw [advance_eq]
  rw [finish, options_advance, Ending.close, hstore]
  cases session.options.trace with
  | false => rfl
  | true => exact (advance_emit session _ _).trans (congrArg (hear · _) (advance_emit session m _))

/-- Transition by transition a session comes to what the run of its machine comes to. -/
theorem Proceeds.exists_ends (h : session.Proceeds code line loops next fault) :
    ∃ e, (session.machine code line loops).Ends session.options e ∧
      next = session.advance (e.close session.options).machine ∧ fault = e.fault := by
  induction h with
  | @finished session code line loops hs =>
    exact ⟨_, .finished hs, (advance_close session (session.machine code line loops)).symm, rfl⟩
  | failed hs => exact ⟨_, .failed hs, rfl, rfl⟩
  | @running session next code line loops moment fault hs _ ih =>
    obtain ⟨e, he, rfl, rfl⟩ := ih
    rw [machine_advance, options_advance] at he
    have hbehind : moment.Ends session.options (e.bimap id (·.behind moment.log)) :=
      Machine.ends_behind_iff.2 ⟨e, he, rfl⟩
    refine ⟨_, .running hs hbehind, ?_, by simp [Ending.bimap]⟩
    rw [options_advance, advance_advance, Ending.close_behind]
    rfl

theorem exists_proceeds {o : Options} {m : Machine} {e : Ending} (h : m.Ends o e)
    (ho : session.options = o)
    (hm : session.machine m.code m.line m.loops = { m with log := [] }) :
    ∃ next fault, session.Proceeds m.code m.line m.loops next fault := by
  induction h generalizing session with
  | @finished m hs =>
    rw [Machine.step_eq_map_behind, ← hm, ← ho] at hs
    cases hstep : (session.machine m.code m.line m.loops).step session.options with
    | finished => exact ⟨_, _, .finished hstep⟩
    | running | failed => simp [hstep, Machine.Outcome.map] at hs
  | @failed m last fault hs =>
    rw [Machine.step_eq_map_behind, ← hm, ← ho] at hs
    cases hstep : (session.machine m.code m.line m.loops).step session.options with
    | failed => exact ⟨_, _, .failed hstep⟩
    | running | finished => simp [hstep, Machine.Outcome.map] at hs
  | @running m moment e hs _ ih =>
    rw [Machine.step_eq_map_behind, ← hm, ← ho] at hs
    cases hstep : (session.machine m.code m.line m.loops).step session.options with
    | finished | failed => simp [hstep, Machine.Outcome.map] at hs
    | running fresh =>
      rw [hstep, Machine.Outcome.map, Machine.Outcome.running.injEq] at hs
      subst hs
      obtain ⟨next, fault, hnext⟩ := ih ((options_advance fresh).trans ho)
        (session.machine_advance fresh)
      exact ⟨next, fault, .running hstep hnext⟩

/-- A run of a session is the run of its machine. -/
theorem proceeds_iff : session.Proceeds code line loops next fault ↔
    ∃ e, (session.machine code line loops).Ends session.options e ∧
      next = session.advance (e.close session.options).machine ∧ fault = e.fault := by
  constructor
  · exact Proceeds.exists_ends
  · rintro ⟨e, he, rfl, rfl⟩
    obtain ⟨next, fault, hnext⟩ := exists_proceeds he rfl rfl
    obtain ⟨e', he', rfl, rfl⟩ := hnext.exists_ends
    rwa [he.unique he']

/-- Transition by transition a run comes to what `execute?` says at once. -/
theorem proceeds_iff_execute? : session.reset.Proceeds program 1 [] next fault ↔
    ∃ fuel, session.execute? fuel program = some (next, fault) := by
  have hrun : ∀ e : Ending, session.run e = session.reset.advance e.machine := by
    intro e
    rw [advance_eq, run, Channel.deliver_eq_foldl, Channel.deliver_eq_foldl]
    rfl
  rw [proceeds_iff]
  constructor
  · rintro ⟨e, he, rfl, rfl⟩
    obtain ⟨fuel, hfuel⟩ := Program.ends_iff.2 ⟨e, he, rfl⟩
    refine ⟨fuel, ?_⟩
    rw [execute?, show session.options = session.reset.options from rfl, hfuel, Option.map_some,
      hrun, Ending.fault_close]
  · rintro ⟨fuel, hfuel⟩
    obtain ⟨_, hending, heq⟩ := Option.map_eq_some_iff.1 hfuel
    obtain ⟨e, he, rfl⟩ := Program.ends_iff.1 ⟨fuel, hending⟩
    rw [hrun, Ending.fault_close, Prod.mk.injEq] at heq
    exact ⟨e, he, heq.1.symm, heq.2.symm⟩

/-! ## Run after run -/

/-- What a session is asked. -/
inductive Request where
  | setLimit (limit : Option Limit)
  | setTrace (trace : Bool)
  | run (source : Text)
  | runStatements (program : Program)

/-- The options after a request. -/
def Request.configure (o : Options) : Request → Options
  | setLimit limit => { o with limit }
  | setTrace trace => { o with trace }
  | run _ | runStatements _ => o

/-- The program that is asked for. -/
def Request.program? : Request → Option Program
  | setLimit _ | setTrace _ => none
  | run source => some (Program.ofSource source)
  | runStatements program => some program

/-- A run of a session. -/
structure Episode where
  /-- The options of the session at the time. -/
  options : Options
  program : Program
  /-- Why the run ended early, if it did. -/
  fault : Option Fault
  /-- The session after the run. -/
  after : Session

/-- From `start` on a session has been asked this and that, and these runs have come of it, each of
which has ended. -/
inductive History (start : Session) : List Request → List Episode → Session → Prop where
  | start : History start [] [] start
  | configure {requests : List Request} {episodes : List Episode} {session : Session}
      (h : History start requests episodes session) (request : Request)
      (hrequest : request.program? = none) :
      History start (requests ++ [request]) episodes
        { session with options := request.configure session.options }
  | run {requests : List Request} {episodes : List Episode} {session next : Session}
      {program : Program} {fault : Option Fault} {fuel : Nat}
      (h : History start requests episodes session) (request : Request)
      (hrequest : request.program? = some program)
      (hrun : session.execute? fuel program = some (next, fault)) :
      History start (requests ++ [request])
        (episodes ++ [{ options := session.options, program, fault, after := next }]) next

/-- A session that is new, without a sink and with the given options. -/
def solitary (options : Options) : Session := { fresh false false with options }

/-- The session after a run that has come to this in a session that is new. -/
def take (session alone : Session) : Session :=
  { session with
    trace := session.trace.deliver alone.trace.collected
    output := session.output.deliver alone.output.collected
    store := alone.store
    steps := alone.steps }

/-- A run comes to what it comes to in a session that is new. -/
theorem execute?_eq (session : Session) (fuel : Nat) (program : Program) :
    session.execute? fuel program =
      ((solitary session.options).execute? fuel program).map fun (alone, fault) =>
        (session.take alone, fault) := by
  simp only [execute?, Option.map_map]
  rfl

/-- The run has come to the same as in a session that is new, where it has come to `alone`. What no
sink has taken are the lines of this run alone. -/
structure Episode.Matches (traceSink outputSink : Bool) (episode : Episode) (alone : Session) :
    Prop where
  run : ∃ fuel, (solitary episode.options).execute? fuel episode.program =
    some (alone, episode.fault)
  store : episode.after.store = alone.store
  steps : episode.after.steps = alone.steps
  trace : episode.after.trace.collected = if traceSink then [] else alone.trace.collected
  output : episode.after.output.collected = if outputSink then [] else alone.output.collected

variable {traceSink outputSink : Bool} {requests : List Request} {episodes : List Episode}

theorem History.exists_alone
    (h : History (fresh traceSink outputSink) requests episodes session) :
    ∃ alone : List Session, List.Forall₂ (Episode.Matches traceSink outputSink) episodes alone ∧
      session.trace = .after traceSink (alone.map (·.trace.collected)) ∧
      session.output = .after outputSink (alone.map (·.output.collected)) := by
  induction h with
  | start =>
    refine ⟨[], .nil, ?_, ?_⟩
    · cases traceSink <;> rfl
    · cases outputSink <;> rfl
  | configure _ _ _ ih => exact ih
  | @run _ episodes session _ program fault fuel _ _ _ hrun ih =>
    obtain ⟨past, hpast, htrace, houtput⟩ := ih
    rw [execute?_eq, Option.map_eq_some_iff] at hrun
    obtain ⟨⟨alone, fault'⟩, halone, heq⟩ := hrun
    obtain ⟨rfl, rfl⟩ := Prod.mk.inj heq
    have htrace' : (session.take alone).trace =
        .after traceSink (past.map (·.trace.collected) ++ [alone.trace.collected]) := by
      rw [← Channel.deliver_after, ← htrace, take]
    have houtput' : (session.take alone).output =
        .after outputSink (past.map (·.output.collected) ++ [alone.output.collected]) := by
      rw [← Channel.deliver_after, ← houtput, take]
    refine ⟨past ++ [alone], List.rel_append hpast (.cons ?_ .nil), ?_, ?_⟩
    · refine ⟨⟨fuel, halone⟩, rfl, rfl, ?_, ?_⟩
      · rw [htrace', Channel.collected_after_concat]
      · rw [houtput', Channel.collected_after_concat]
    · rw [htrace', List.map_append, List.map_singleton]
    · rw [houtput', List.map_append, List.map_singleton]

/-- The runs of a session are independent, and its sinks lose and duplicate nothing. Whatever the
session is asked, each of its runs comes to what the same program comes to in a session that is new
and has the options of the moment: it ends early because of the same fault, with the same store and
number of steps, and what is collected is what the new session collects. A sink has received what
the new sessions collect, one after another, also what comes of the runs that end early. The next
run ends if it ends in a new session, and it comes to what its transitions come to one by one, each
line of which goes to its channel at once. -/
theorem runs_independent (h : History (fresh traceSink outputSink) requests episodes session) :
    (∃ alone : List Session, List.Forall₂ (Episode.Matches traceSink outputSink) episodes alone ∧
      session.trace = .after traceSink (alone.map (·.trace.collected)) ∧
      session.output = .after outputSink (alone.map (·.output.collected))) ∧
    ∀ program,
      (∀ fuel, (session.execute? fuel program).map Prod.snd =
        ((solitary session.options).execute? fuel program).map Prod.snd) ∧
      ∀ next fault, (∃ fuel, session.execute? fuel program = some (next, fault)) ↔
        session.reset.Proceeds program 1 [] next fault := by
  refine ⟨h.exists_alone, fun program => ⟨fun fuel => ?_, fun next fault => ?_⟩⟩
  · rw [execute?_eq, Option.map_map]
    rfl
  · exact proceeds_iff_execute?.symm

/-- Three runs, the first two of which end early, and the second of which has no trace. -/
def mixed : List Request :=
  [.run "clear x; incr x; print x; decr y", .setTrace false,
    .runStatements ["clear a", "print a", "while a not 0 do"], .setTrace true,
    .run "clear z; print z; print z"]

/-- With a sink for the trace alone, what is collected is the output of each run. -/
theorem runs_independent_mixed : ∃ episodes session,
    History (fresh true false) mixed episodes session ∧
    episodes.map (·.fault) = [some (.undefinedVariable 4 "y"), some (.unterminatedBlock 3), none] ∧
    episodes.map (·.after.output.collected) = ([["1"], ["0"], ["0", "0"]] : List (List Text)) ∧
    ∃ alone : List Session, List.Forall₂ (Episode.Matches true false) episodes alone ∧
      session.trace.sink = some (alone.map (·.trace.collected)).flatten := by
  have hruns : ((fresh true false).execute? 20
      (.ofSource "clear x; incr x; print x; decr y")).bind (fun first =>
        (execute? 20 { first.1 with options := { first.1.options with trace := false } }
          ["clear a", "print a", "while a not 0 do"]).bind fun second =>
            (execute? 20 { second.1 with options := { second.1.options with trace := true } }
              (.ofSource "clear z; print z; print z")).map fun third =>
                ([first.2, second.2, third.2], [first.1.output.collected,
                  second.1.output.collected, third.1.output.collected])) =
      some ([some (.undefinedVariable 4 "y"), some (.unterminatedBlock 3), none],
        ([["1"], ["0"], ["0", "0"]] : List (List Text))) := by
    decide +kernel
  obtain ⟨first, hfirst, hruns⟩ := Option.bind_eq_some_iff.1 hruns
  obtain ⟨second, hsecond, hruns⟩ := Option.bind_eq_some_iff.1 hruns
  obtain ⟨third, hthird, hruns⟩ := Option.map_eq_some_iff.1 hruns
  obtain ⟨hfaults, hcollected⟩ := Prod.mk.inj hruns
  have hstart : History (fresh true false) [] [] (fresh true false) := .start
  have hspoilt := hstart.run (.run "clear x; incr x; print x; decr y") rfl hfirst
  have hquiet := (hspoilt.configure (.setTrace false) rfl).run
    (.runStatements ["clear a", "print a", "while a not 0 do"]) rfl hsecond
  have hhistory := (hquiet.configure (.setTrace true) rfl).run
    (.run "clear z; print z; print z") rfl hthird
  obtain ⟨⟨alone, halone, htrace, -⟩, -⟩ := runs_independent hhistory
  refine ⟨_, third.1, hhistory, hfaults, hcollected, alone, halone, ?_⟩
  rw [htrace]
  rfl

end Session

end CounterLang
