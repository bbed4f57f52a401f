import CounterLang.Machine.Effort
import CounterLang.Worker

/-!
# Isolated runs

A program that may never end is run by a worker process under a time limit. The worker gets the
program as a request and is stopped when its time is over.

Time is counted in work: a worker does `pace` units of it in a second, after the time that it takes
to start. A program that ends needs little, so which side of the limit it falls on does not depend
on the exact pace. The limit itself must be one that a clock of milliseconds can hold.

## Main definitions

* `Isolation.request`: the text that the worker gets.
* `Isolation.Refusal`: why a time limit is not accepted.
* `Isolation.run`: the outcome of an isolated run.
-/

namespace CounterLang.Isolation

/-- Why a time limit is not accepted. -/
inductive Refusal where
  | nan
  | infinite
  /-- It has more nanoseconds than a time can have. -/
  | unrepresentable
  /-- It has more milliseconds than can be waited for at once. -/
  | tooLong
deriving DecidableEq, Repr

def Refusal.message : Refusal → Text
  | nan => "cannot convert float NaN to integer"
  | infinite => "cannot convert float infinity to integer"
  | unrepresentable => "timestamp too large to convert to C _PyTime_t"
  | tooLong => "timeout is too large"

/-- The outcome of an isolated run. -/
inductive Outcome where
  /-- The worker came to an end. -/
  | exited (status : Nat) (stdout : Text)
  | timedOut
  /-- The worker was not waited for. -/
  | refused (refusal : Refusal)
deriving DecidableEq, Repr

/-- The text that the worker gets. -/
def request (source : Text) (maxSteps : Option Int) (trace : Bool) : Text :=
  (Json.obj [
    ("code", .str source),
    ("max_steps", maxSteps.elim .null .int),
    ("trace", .bool trace)]).toText

/-- The most nanoseconds of a time. -/
def maxNanoseconds : Nat := Nat.pow 2 63 - 1

/-- The most milliseconds that can be waited for at once. -/
def maxMilliseconds : Nat := Nat.pow 2 31 - 1

/-- The milliseconds of a time limit in seconds, rounded up, or why they are not waited for. -/
def milliseconds : Binary64 → Except Refusal Nat
  | .finite false units =>
    match Binary64.round false (units * 1000) 1 with
    | .finite _ units =>
      let count := (units + Binary64.one - 1) / Binary64.one
      if maxNanoseconds < count * 1000000 then .error .unrepresentable
      else if maxMilliseconds < count then .error .tooLong
      else .ok count
    | .infinity _ | .nan => .error .infinite
  | .finite true _ | .infinity true => .ok 0
  | .infinity false => .error .infinite
  | .nan => .error .nan

/-- How many units of work a worker does in a millisecond. -/
def pace : Nat := 7500

/-- How many milliseconds a worker takes to start. -/
def startup : Nat := 30

/-- The most units of work that are waited for. -/
def patience : Nat := 40000000

/-- How much work a worker does in a number of milliseconds. -/
def allowance (milliseconds : Nat) : Nat := min patience ((milliseconds - startup) * pace)

/-- The outcome of running a program in a worker, under a time limit in seconds if there is one. -/
def run (source : Text) (maxSteps : Option Int) (trace : Bool) (limit : Option Binary64) :
    Outcome :=
  match limit.elim (.ok patience) fun limit => (milliseconds limit).map allowance with
  | .error refusal => .refused refusal
  | .ok work =>
    match Worker.respond? (Program.runWithin? work) (request source maxSteps trace) with
    | some (.ok answer) => .exited answer.exit answer.stdout
    | some (.error _) => .exited 1 ""
    | none => .timedOut

end CounterLang.Isolation
