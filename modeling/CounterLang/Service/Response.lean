import CounterLang.Json.Printer
import CounterLang.Service.Basic
import CounterLang.Text.Utf8

/-!
# Responses of the service

An answer is sent as compact JSON in UTF-8. JSON has no infinities and no word for the non-number,
and UTF-8 has no surrogates, so an answer that holds one of them is not sent: the request fails.

## Main definitions

* `Json.withoutHidden`: a value without the members that clients do not get to see.
* `Service.Answer.toJson`: an answer as it is sent.
* `Service.Unsendable`: why an answer is not sent.
* `Service.Answer.unsendable?`: whether there is such a reason.
-/

namespace CounterLang

namespace Json

/-- Whether a member has one of the names that belong to a database and are kept from clients. -/
def isHidden (name : Text) : Bool := ("_sa" : Text).isPrefixOf name

/-- The value without hidden members, at any depth. -/
def withoutHidden : Json → Json
  | null => null
  | bool value => bool value
  | int value => int value
  | real value => real value
  | str value => str value
  | arr items => arr (items.map withoutHidden)
  | obj members =>
    obj ((members.map fun entry => (entry.1, withoutHidden entry.2)).filter fun entry =>
      !isHidden entry.1)
termination_by json => sizeOf json
decreasing_by
  · have := List.sizeOf_lt_of_mem ‹_›
    simp only [arr.sizeOf_spec]
    omega
  · have := List.sizeOf_lt_of_mem ‹_›
    rcases entry with ⟨name, value⟩
    simp only [Prod.mk.sizeOf_spec, obj.sizeOf_spec] at this ⊢
    omega

/-- Whether all numbers of a value are finite. -/
def isFinite : Json → Bool
  | real .nan | real (.infinity _) => false
  | null | bool _ | int _ | real (.finite _ _) | str _ => true
  | arr items => (items.map isFinite).all id
  | obj members => (members.map fun entry => isFinite entry.2).all id
termination_by json => sizeOf json
decreasing_by
  · have := List.sizeOf_lt_of_mem ‹_›
    simp only [arr.sizeOf_spec]
    omega
  · have := List.sizeOf_lt_of_mem ‹_›
    rcases entry with ⟨name, value⟩
    simp only [Prod.mk.sizeOf_spec, obj.sizeOf_spec] at this ⊢
    omega

end Json

namespace Service

def Place.toJson : Place → Json
  | part name => .str name
  | offset position => .int position

def Issue.toJson (issue : Issue) : Json :=
  .obj [
    ("type", .str issue.kind),
    ("loc", .arr (issue.place.map Place.toJson)),
    ("msg", .str issue.message),
    ("input", issue.input.withoutHidden)]

/-- A trouble as it is sent. Only a program has lines and tokens. -/
def Trouble.toJson : Trouble → Json
  | program problem => problem.toJson
  | trouble => .obj [("code", .str trouble.code), ("message", .str trouble.message)]

/-- The entries of the store that are sent. -/
def Result.sentEntries (r : Result) : Entries Int :=
  r.store.entries.filter fun entry => !Json.isHidden entry.1

def Result.toJson (r : Result) : Json :=
  .obj [
    ("trace", .arr (r.trace.map .str)),
    ("output", .arr (r.output.map .str)),
    ("store", .obj (r.sentEntries.map fun entry => (entry.1, .int entry.2))),
    ("errors", r.trouble.elim .null Trouble.toJson)]

/-- The wording for a request that cannot be read. -/
def unreadableMessage : Text := "There was an error parsing the body"

def Answer.toJson : Answer → Json
  | result r => r.toJson
  | invalid issues => .obj [("detail", .arr (issues.map Issue.toJson))]
  | unreadable => .obj [("detail", .str unreadableMessage)]

/-- Why an answer is not sent. -/
inductive Unsendable where
  /-- It holds a number that is not finite. -/
  | number
  /-- Its written form holds surrogates. -/
  | surrogates (stretch : Text.Utf8.Surrogates)
deriving DecidableEq, Repr

def Unsendable.message : Unsendable → Text
  | number => "Out of range float values are not JSON compliant"
  | surrogates stretch =>
    let start := stretch.position
    let place : Text :=
      if stretch.count = 1 then
        "character '" ++ Text.escapePoint stretch.first ++ "' in position " ++ Text.decimal start
      else
        "characters in position " ++ Text.decimal start ++ "-" ++
          Text.decimal (start + stretch.count - 1)
    "'utf-8' codec can't encode " ++ place ++ ": surrogates not allowed"

/-- Why an answer is not sent, if it is not. -/
def Answer.unsendable? (answer : Answer) : Option Unsendable :=
  let json := answer.toJson
  if json.isFinite then (Text.Utf8.surrogates? (json.render .compact)).map .surrogates
  else some .number

end Service

end CounterLang
