import CounterLang.Report

/-!
# Answers of the service

The service answers requests over HTTP. This module holds the types of its answers.

## Main definitions

* `Service.Issue`: what is wrong with the shape of a request.
* `Service.Trouble`: why a run has no ordinary ending.
* `Service.Result`: the answer to a request that has the right shape.
* `Service.Answer`: the answer to any request.
-/

namespace CounterLang.Service

/-- One step on the way to the part of a request that an issue is about. -/
inductive Place where
  /-- The part with this name. -/
  | part (name : Text)
  /-- The character at this offset. -/
  | offset (position : Nat)
deriving DecidableEq, Repr

/-- What is wrong with the shape of a request. -/
structure Issue where
  /-- The stable name of the kind of issue. -/
  kind : Text
  /-- The way to the part of the request. -/
  place : List Place
  message : Text
  /-- The part of the request, which the service sends back. -/
  input : Json

/-- Why a run has no ordinary ending. -/
inductive Trouble where
  /-- The program ended early. -/
  | program (problem : Problem)
  /-- The run was stopped when its time was over. -/
  | timeout
  /-- The run could not be started or its result not be used. -/
  | server (message : Text)
deriving DecidableEq, Repr

/-- What the service answers to a request that has the right shape. -/
structure Result where
  trace : List Text := []
  output : List Text := []
  /-- The values of the variables at the end. -/
  store : Store := ∅
  /-- Why there is no ordinary ending. -/
  trouble : Option Trouble := none
deriving DecidableEq, Repr

/-- What the service answers. -/
inductive Answer where
  /-- The request was carried out. -/
  | result (result : Result)
  /-- The request does not have the right shape. -/
  | invalid (issues : List Issue)
  /-- The bytes of the request write no text, or its text an integer with too many digits. -/
  | unreadable

namespace Trouble

/-- The stable code of a trouble. -/
def code : Trouble → Text
  | program problem => problem.code
  | timeout => "TIMEOUT"
  | server _ => "SERVER_ERROR"

def message : Trouble → Text
  | program problem => problem.message
  | timeout => "Time limit exceeded"
  | server message => message

end Trouble

/-- The result that carries a report. -/
def Result.ofReport (report : Report) : Result where
  trace := report.trace
  output := report.output
  store := report.store
  trouble := report.problem.map .program

/-- The status of an answer. -/
def Answer.status : Answer → Nat
  | result _ => 200
  | invalid _ => 422
  | unreadable => 400

end CounterLang.Service
