import CounterLang.Entries
import CounterLang.Fault
import CounterLang.Numeral.Integer

/-!
# Stores

A store maps the variables of a program to integers and remembers the order in which they were first
cleared. Entries are added by `clear` alone and never removed.

## Main definitions

* `Store`: the entries, no name twice.
* `Store.set`, `Store.clear`, `Store.increment`, `Store.decrement`: the operations.
* `Store.get?`, `Store.get`, `Store.names`: the views.
* `Store.render`: the line that a trace shows.

## Main statements

* `Store.get?_set`: setting a variable changes its own value and no other.
* `Store.names_set`: a new name goes to the end, a known name keeps its place.
-/

namespace CounterLang

/-- The variables of a program with their values, in the order in which they were first cleared. -/
structure Store where
  entries : Entries Int
  /-- No variable occurs twice. -/
  nodup : (entries.map Prod.fst).Nodup := by simp
deriving DecidableEq, Repr

namespace Store

instance : EmptyCollection Store := ⟨{ entries := [] }⟩

instance : Inhabited Store := ⟨∅⟩

@[ext] theorem ext {s t : Store} (h : s.entries = t.entries) : s = t := by
  cases s; cases t; simp_all

/-- The names of the variables, in order. -/
def names (s : Store) : List Text := s.entries.map Prod.fst

instance : Membership Text Store := ⟨fun s name => name ∈ s.names⟩

instance (name : Text) (s : Store) : Decidable (name ∈ s) :=
  inferInstanceAs (Decidable (name ∈ s.names))

def get? (s : Store) (name : Text) : Option Int := s.entries.lookup name

/-- The value of a variable that the statement on `line` asks for. -/
def get (s : Store) (name : Text) (line : Int) : Except Fault Int :=
  match s.get? name with
  | some value => .ok value
  | none => .error (.undefinedVariable line name)

/-- Gives a variable a value, in its place if it has one and as the last entry otherwise. -/
def set (s : Store) (name : Text) (value : Int) : Store where
  entries := s.entries.assign name value
  nodup := Entries.nodup_assign s.nodup

/-- Sets a variable to zero, whether or not it is known. -/
def clear (s : Store) (name : Text) : Store := s.set name 0

/-- Adds one to a variable, for the statement on `line`. -/
def increment (s : Store) (name : Text) (line : Int) : Except Fault Store :=
  (s.get name line).map fun value => s.set name (value + 1)

/-- Takes one from a variable, for the statement on `line`. Values may go below zero. -/
def decrement (s : Store) (name : Text) (line : Int) : Except Fault Store :=
  (s.get name line).map fun value => s.set name (value - 1)

/-- The store with the given entries. A repeated name keeps its first place and its last value. -/
def ofList (entries : List (Text × Int)) : Store where
  entries := Entries.ofList entries
  nodup := Entries.nodup_ofList entries

/-- The store as a trace shows it: each name with its value, between braces. -/
def render (s : Store) : Text :=
  let entries := s.entries.map fun entry => entry.1 ++ ": " ++ Text.decimal entry.2
  "\x7b" ++ Text.join ", " entries ++ "\x7d"

/-- Whether no value of the store has more digits than are written. -/
def isWritable (s : Store) : Bool := s.entries.all fun entry => Numeral.isWritable entry.2

variable {s : Store} {name other : Text} {value : Int}

theorem mem_def : name ∈ s ↔ name ∈ s.names := Iff.rfl

@[simp] theorem names_empty : (∅ : Store).names = [] := rfl

@[simp] theorem get?_empty : (∅ : Store).get? name = none := rfl

/-- Setting a variable changes its own value and no other. -/
@[simp] theorem get?_set :
    (s.set name value).get? other = if other = name then some value else s.get? other :=
  Entries.lookup_assign name other value s.entries

/-- A new name goes to the end, a known name keeps its place. -/
theorem names_set :
    (s.set name value).names = if name ∈ s then s.names else s.names ++ [name] :=
  Entries.map_fst_assign name value s.entries

@[simp] theorem mem_set : other ∈ s.set name value ↔ other = name ∨ other ∈ s := by
  rw [mem_def, names_set]
  split
  · rename_i h
    constructor
    · exact Or.inr
    · rintro (rfl | h')
      · exact h
      · exact h'
  · simp [mem_def, or_comm]

/-- A variable has a value exactly when it is in the store. -/
theorem get?_isSome_iff : (s.get? name).isSome ↔ name ∈ s := by
  rw [mem_def, names, get?, List.mem_map]
  induction s.entries with
  | nil => simp
  | cons entry rest ih =>
    obtain ⟨key, value⟩ := entry
    by_cases h : name = key
    · simp [h]
    · have hb : (name == key) = false := by simpa using h
      simp [List.lookup_cons, hb, ih, Ne.symm h]

theorem get?_eq_none_iff : s.get? name = none ↔ name ∉ s := by
  rw [← get?_isSome_iff]
  cases s.get? name <;> simp

end Store

end CounterLang
