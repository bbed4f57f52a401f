import CounterLang.Json.Conversion

/-!
# Settings of a run

A client may ask for a step budget, a time limit, a trace, and a run in a process of its own. The
server trusts none of the numbers: it holds them below ceilings of its own, which its environment
may set.

## Main definitions

* `Ceilings`: the greatest budget and time limit that the server grants.
* `Settings`: what a run is granted.
* `Settings.cap`: what is granted of what a client asks for.
-/

namespace CounterLang

/-- The greatest step budget and time limit that the server grants. -/
structure Ceilings where
  maxSteps : Int
  /-- The greatest time limit, in seconds. -/
  timeout : Binary64
deriving DecidableEq, Repr

/-- What a run is granted. -/
structure Settings where
  maxSteps : Int
  /-- The time limit in seconds, which a run in a process of its own must keep. -/
  timeout : Binary64
  trace : Bool
  /-- Whether the run has a process of its own. -/
  isolated : Bool
deriving DecidableEq, Repr

namespace Ceilings

/-- The step budget that is granted where the environment sets none. -/
def defaultSteps : Int := 100000

/-- The time limit that is granted where the environment sets none. -/
def defaultTimeout : Binary64 := .ofDecimal false 2 0

/-- The ceilings that the environment sets. An empty text sets nothing. -/
def ofEnvironment (steps timeout : Option Text) : Except Json.ConversionError Ceilings := do
  let maxSteps ←
    match steps.filter fun text => !text.isEmpty with
    | some text => Json.integerOfText text
    | none => .ok defaultSteps
  let timeout ←
    match timeout.filter fun text => !text.isEmpty with
    | some text => Json.realOfText text
    | none => .ok defaultTimeout
  return { maxSteps, timeout }

end Ceilings

namespace Settings

/-- The least time limit that a client can ask for. -/
def leastTimeout : Binary64 := .ofDecimal false 1 (-1)

/-- What is granted to a client that asks for nothing: the ceilings as they are. -/
def ofCeilings (ceilings : Ceilings) : Settings where
  maxSteps := ceilings.maxSteps
  timeout := ceilings.timeout
  trace := true
  isolated := false

/-- The step budget granted of the one asked for: at most the ceiling, and not below zero. -/
def capSteps (ceiling asked : Int) : Int := max 0 (min asked ceiling)

/-- The time limit granted of the one asked for: the ceiling if it is less than what is asked, and
then the least time limit unless that is less. A comparison with the non-number does not hold. -/
def capTimeout (ceiling asked : Binary64) : Binary64 :=
  let held := if ceiling.lt asked then ceiling else asked
  if leastTimeout.lt held then held else leastTimeout

/-- A switch among what is asked for. -/
def switch (asked : Json) (name : Text) (default : Bool) : Bool :=
  match asked.get? name with
  | some value => value.truthy
  | none => default

/-- What is granted of what a client asks for. A client that asks for nothing gets the ceilings. -/
def cap (ceilings : Ceilings) (asked : Json) : Except Json.ConversionError Settings :=
  if !asked.truthy then .ok (ofCeilings ceilings)
  else
    match asked with
    | .obj _ => do
      let maxSteps ←
        match asked.get? "max_steps" with
        | some value => value.toInteger
        | none => .ok ceilings.maxSteps
      let timeout ←
        match asked.get? "timeout_s" with
        | some value => value.toReal
        | none => .ok ceilings.timeout
      return {
        maxSteps := capSteps ceilings.maxSteps maxSteps
        timeout := capTimeout ceilings.timeout timeout
        trace := switch asked "trace" true
        isolated := switch asked "use_subprocess" false }
    | other => .error (.noMembers other.typeName)

end Settings

end CounterLang
