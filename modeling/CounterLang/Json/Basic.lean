import CounterLang.Entries
import CounterLang.Numeral.Binary64.Basic

/-!
# JSON values

Requests and answers are exchanged as JSON. Integers and numbers with a fraction or an exponent are
kept apart, because the two are taken and shown differently.

## Main definitions

* `Json`: the values.
* `Json.get?`: the member of an object.
* `Json.truthy`: whether a value counts as true where any value may stand for a switch.
* `Json.typeName`: the type of a value as diagnostics name it.
-/

namespace CounterLang

/-- A JSON value. -/
inductive Json where
  | null
  | bool (value : Bool)
  /-- A number without fraction and exponent. -/
  | int (value : Int)
  /-- A number with a fraction or an exponent, an infinity, or the non-number. -/
  | real (value : Binary64)
  | str (value : Text)
  | arr (items : List Json)
  /-- Named values, in order, no name twice. -/
  | obj (members : List (Text × Json))

namespace Json

instance : Inhabited Json := ⟨null⟩

/-- The member of an object with the given name. -/
def get? (json : Json) (name : Text) : Option Json :=
  match json with
  | obj members => members.lookup name
  | _ => none

/-- Whether a value counts as true where any value may stand for a switch: all do but null, false,
zero, and the empty text, list and object. -/
def truthy : Json → Bool
  | null => false
  | bool value => value
  | int value => value != 0
  | real value => !value.isZero
  | str value => !value.isEmpty
  | arr items => !items.isEmpty
  | obj members => !members.isEmpty

/-- The type of a value as diagnostics name it. -/
def typeName : Json → Text
  | null => "NoneType"
  | bool _ => "bool"
  | int _ => "int"
  | real _ => "float"
  | str _ => "str"
  | arr _ => "list"
  | obj _ => "dict"

end Json

end CounterLang
