import CounterLang.Proofs.Variables

/-!
# Stores and their histories

A store is what the calls on it have made of it. Calls that fail are part of a history as well, and
leave the store as it is. So the variables are those that the store has started with and those that
were cleared, and a value is counted from the last call that has cleared the variable, or from the
start.

## Main definitions

* `Store.Call`: a call on a store.
* `Store.answer`: what a call makes of a store and returns, or its fault.
* `Store.replay`: the store after a sequence of calls, some of which may fail.
* `Store.successes`: the calls of a sequence that do not fail.
* `Store.Call.balance`: how many times some calls increment a variable, less the times they
  decrement it.

## Main statements

* `Store.answer_eq_error_iff`: a call fails for a variable that is not in the store, and for no other
  reason.
* `Store.get?_replay`: a variable that is not cleared has its first value and the balance.
* `Store.names_replay`: new variables are in the order of the calls that first cleared them.
* `Store.replay_determined`: the store is determined by its history.
-/

namespace CounterLang.Store

/-- A call on a store. A call that asks for the value of a variable is made for the statement on a
line. -/
inductive Call where
  | clear (name : Text)
  | increment (name : Text) (line : Int)
  | decrement (name : Text) (line : Int)
  | get (name : Text) (line : Int)
deriving DecidableEq, Repr

/-! ## Calls -/

namespace Call

/-- The variable that a call clears. -/
def cleared? : Call → Option Text
  | clear name => some name
  | increment _ _ | decrement _ _ | get _ _ => none

/-- The variable that has to be in the store, and the line of the statement that asks for it. -/
def asked? : Call → Option (Text × Int)
  | clear _ => none
  | increment name line | decrement name line | get name line => some (name, line)

def increments (name : Text) : Call → Bool
  | increment other _ => other == name
  | clear _ | decrement _ _ | get _ _ => false

def decrements (name : Text) : Call → Bool
  | decrement other _ => other == name
  | clear _ | increment _ _ | get _ _ => false

/-- How many of the calls increment a variable, less how many of them decrement it. -/
def balance (name : Text) (calls : List Call) : Int :=
  calls.countP (increments name) - calls.countP (decrements name)

variable {name other : Text} {line : Int} {call : Call}

@[simp] theorem balance_nil : balance name [] = 0 := rfl

@[simp] theorem balance_clear : balance name [clear other] = 0 := rfl

@[simp] theorem balance_get : balance name [get other line] = 0 := rfl

@[simp] theorem balance_increment :
    balance name [increment other line] = if other = name then 1 else 0 := by
  by_cases h : other = name <;> simp [balance, increments, decrements, h]

@[simp] theorem balance_decrement :
    balance name [decrement other line] = if other = name then -1 else 0 := by
  by_cases h : other = name <;> simp [balance, increments, decrements, h]

theorem balance_append (calls more : List Call) :
    balance name (calls ++ more) = balance name calls + balance name more := by
  simp only [balance, List.countP_append]
  omega

theorem cleared?_eq_some_iff : call.cleared? = some name ↔ call = .clear name := by
  cases call <;> simp [cleared?]

theorem cleared?_of_asked? (h : call.asked? = some (name, line)) :
    call.cleared? = none := by
  cases call with
  | clear => cases h
  | increment | decrement | get => rfl

theorem mem_filterMap_cleared? {calls : List Call} :
    name ∈ calls.filterMap cleared? ↔ .clear name ∈ calls := by
  simp only [List.mem_filterMap, cleared?_eq_some_iff, exists_eq_right]

end Call

/-- What a call makes of a store, with the value that it returns if it returns one; or its fault. -/
def answer (s : Store) : Call → Except Fault (Store × Option Int)
  | .clear name => .ok (s.clear name, none)
  | .increment name line => (s.increment name line).map fun next => (next, none)
  | .decrement name line => (s.decrement name line).map fun next => (next, none)
  | .get name line => (s.get name line).map fun value => (s, some value)

/-- The store after a call. A call that fails leaves it as it is. -/
def next (s : Store) (call : Call) : Store :=
  match s.answer call with
  | .ok (next, _) => next
  | .error _ => s

/-- The store after a sequence of calls. -/
def replay (s : Store) (calls : List Call) : Store := calls.foldl next s

/-- The calls of a sequence that do not fail. -/
def successes (s : Store) : List Call → List Call
  | [] => []
  | call :: calls =>
    match s.answer call with
    | .ok (next, _) => call :: next.successes calls
    | .error _ => s.successes calls

/-- The calls with what they make of a store and return, one constructor for each way in which a call
can go. -/
inductive Answered (s : Store) : Call → Except Fault (Store × Option Int) → Prop where
  | clear (name : Text) : Answered s (.clear name) (.ok (s.set name 0, none))
  | increment {name : Text} {line value : Int} (h : s.get? name = some value) :
      Answered s (.increment name line) (.ok (s.set name (value + 1), none))
  | decrement {name : Text} {line value : Int} (h : s.get? name = some value) :
      Answered s (.decrement name line) (.ok (s.set name (value - 1), none))
  | get {name : Text} {line value : Int} (h : s.get? name = some value) :
      Answered s (.get name line) (.ok (s, some value))
  | undefined {call : Call} {name : Text} {line : Int} (hcall : call.asked? = some (name, line))
      (h : name ∉ s) : Answered s call (.error (.undefinedVariable line name))

variable {s : Store} {name : Text} {line value : Int} {call : Call} {calls before after : List Call}
  {fault : Fault}

/-! ## One call -/

theorem get_of_get? (h : s.get? name = some value) : s.get name line = .ok value := by
  rw [Store.get, h]

theorem get_of_notMem (h : name ∉ s) : s.get name line = .error (.undefinedVariable line name) := by
  rw [Store.get, get?_eq_none_iff.2 h]

theorem answer_of_notMem (hcall : call.asked? = some (name, line)) (h : name ∉ s) :
    s.answer call = .error (.undefinedVariable line name) := by
  cases call with
  | clear => cases hcall
  | increment | decrement | get =>
    cases hcall
    simp only [answer, Store.increment, Store.decrement, get_of_notMem h, Except.map]

/-- Each call goes in one of the ways. -/
theorem answered (s : Store) (call : Call) : s.Answered call (s.answer call) := by
  by_cases hfail : ∃ name line, call.asked? = some (name, line) ∧ name ∉ s
  · obtain ⟨name, line, hcall, hname⟩ := hfail
    rw [answer_of_notMem hcall hname]
    exact .undefined hcall hname
  · have hvalue : ∀ name line, call.asked? = some (name, line) →
        ∃ value, s.get? name = some value := by
      intro name line hcall
      rw [← Option.isSome_iff_exists, get?_isSome_iff]
      by_contra hname
      exact hfail ⟨name, line, hcall, hname⟩
    cases call with
    | clear name => exact .clear name
    | increment name line =>
      obtain ⟨value, hget⟩ := hvalue name line rfl
      rw [answer, Store.increment, get_of_get? hget]
      exact .increment hget
    | decrement name line =>
      obtain ⟨value, hget⟩ := hvalue name line rfl
      rw [answer, Store.decrement, get_of_get? hget]
      exact .decrement hget
    | get name line =>
      obtain ⟨value, hget⟩ := hvalue name line rfl
      rw [answer, get_of_get? hget]
      exact .get hget

/-- A call fails for a variable that is not in the store, and for no other reason. -/
theorem answer_eq_error_iff : s.answer call = .error fault ↔
    ∃ name line, call.asked? = some (name, line) ∧ name ∉ s ∧
      fault = .undefinedVariable line name := by
  constructor
  · intro h
    have hanswered := s.answered call
    rw [h] at hanswered
    cases hanswered with
    | undefined hcall hname => exact ⟨_, _, hcall, hname, rfl⟩
  · rintro ⟨name, line, hcall, hname, rfl⟩
    exact answer_of_notMem hcall hname

/-- A value that is asked for is the one in the store. -/
theorem answer_get (h : s.get? name = some value) :
    s.answer (.get name line) = .ok (s, some value) := by
  rw [answer, get_of_get? h]
  rfl

theorem next_of_error (h : s.answer call = .error fault) : s.next call = s := by
  rw [next, h]

/-- A call brings no variable into the store but the one that it clears. -/
theorem names_next (s : Store) (call : Call) :
    (s.next call).names = call.cleared?.elim s.names fun name => (s.clear name).names := by
  have h := s.answered call
  rw [next]
  generalize s.answer call = result at h
  cases h with
  | clear | get => rfl
  | increment h | decrement h => exact names_set_of_get? h
  | undefined hcall => rw [Call.cleared?_of_asked? hcall, Option.elim_none]

theorem mem_next : name ∈ s.next call ↔ name ∈ s ∨ call = .clear name := by
  rw [mem_def, names_next, ← Call.cleared?_eq_some_iff]
  cases call.cleared? with
  | none => simp [mem_def]
  | some cleared =>
    rw [Option.elim_some, ← mem_def, Store.clear, mem_set, Option.some.injEq, or_comm, eq_comm]

/-- A call that does not clear a variable changes its value by the balance of the call, if the
variable has a value and the call does not fail, and not otherwise. -/
theorem get?_next (h : call ≠ .clear name) : (s.next call).get? name =
    (s.get? name).map (· + Call.balance name (s.successes [call])) := by
  have hanswered := s.answered call
  simp only [next, successes]
  generalize s.answer call = result at hanswered
  cases hanswered with
  | undefined | get => simp
  | clear other =>
    have hne : name ≠ other := fun heq => h (heq ▸ rfl)
    simp [hne]
  | @increment other _ _ hget =>
    by_cases hname : other = name
    · subst hname
      simp [hget]
    · simp [hname, Ne.symm hname]
  | @decrement other _ _ hget =>
    by_cases hname : other = name
    · subst hname
      simp [hget, Int.sub_eq_add_neg]
    · simp [hname, Ne.symm hname]

/-! ## Sequences of calls -/

theorem replay_append (s : Store) (before after : List Call) :
    s.replay (before ++ after) = (s.replay before).replay after := List.foldl_append

theorem successes_cons (s : Store) (call : Call) (calls : List Call) :
    s.successes (call :: calls) = s.successes [call] ++ (s.next call).successes calls := by
  simp only [successes, next]
  cases s.answer call <;> rfl

/-- A variable is in the store if it was there at the start or is cleared by some call. -/
theorem mem_replay : name ∈ s.replay calls ↔ name ∈ s ∨ .clear name ∈ calls := by
  induction calls generalizing s with
  | nil => simp [replay]
  | cons call calls ih =>
    rw [replay, List.foldl_cons, ← replay, ih, mem_next, or_assoc, List.mem_cons, eq_comm]

/-- A variable that is not cleared has its first value and the balance. -/
theorem get?_replay (h : .clear name ∉ calls) : (s.replay calls).get? name =
    (s.get? name).map (· + Call.balance name (s.successes calls)) := by
  induction calls generalizing s with
  | nil => simp [replay, successes]
  | cons call calls ih =>
    obtain ⟨hcall, hcalls⟩ := not_or.1 (mt List.mem_cons.2 h)
    rw [replay, List.foldl_cons, ← replay, ih hcalls, get?_next (Ne.symm hcall), Option.map_map,
      successes_cons s call calls, Call.balance_append]
    simp only [Function.comp_def, Int.add_assoc]

/-- From the last call that clears it on, a variable has the balance. -/
theorem get?_replay_of_clear (h : .clear name ∉ after) :
    (s.replay (before ++ .clear name :: after)).get? name =
      some (Call.balance name ((s.replay (before ++ [.clear name])).successes after)) := by
  have hzero : (s.replay (before ++ [.clear name])).get? name = some 0 := by
    rw [replay_append]
    exact get?_set.trans (if_pos rfl)
  rw [List.append_cons, replay_append, get?_replay h, hzero, Option.map_some, Int.zero_add]

/-- New variables stand behind the others, in the order of the calls that first cleared them. -/
theorem names_replay (s : Store) (calls : List Call) : (s.replay calls).names =
    s.names ++ ((calls.filterMap Call.cleared?).filter (· ∉ s)).eraseDups := by
  induction calls using List.reverseRecOn with
  | nil => exact (List.append_nil s.names).symm
  | append_singleton calls call ih =>
    have hlast : s.replay (calls ++ [call]) = (s.replay calls).next call := replay_append s calls _
    rw [hlast, names_next, List.filterMap_append, List.filter_append]
    cases hcleared : call.cleared? with
    | none => simp [ih, hcleared]
    | some name =>
      have hsingle : [call].filterMap Call.cleared? = [name] := by simp [hcleared]
      have hknown : name ∈ s.replay calls ↔ name ∈ s ∨ name ∈ calls.filterMap Call.cleared? := by
        rw [mem_replay, Call.mem_filterMap_cleared?]
      rw [hsingle, Option.elim_some, Store.clear, names_set]
      -- A name that is known from the start is not new, and any other is new once.
      by_cases hname : name ∈ s
      · rw [if_pos (hknown.2 (.inl hname)), ih]
        simp [hname]
      · have hnew : [name].filter (· ∉ s) = [name] := by simp [hname]
        rw [hnew, Text.eraseDups_concat]
        by_cases hmem : name ∈ calls.filterMap Call.cleared?
        · rw [if_pos (hknown.2 (.inr hmem)), ih,
            if_pos (List.mem_filter.2 ⟨hmem, decide_eq_true hname⟩)]
        · rw [if_neg fun h => (hknown.1 h).elim hname hmem, ih,
            if_neg fun h => hmem (List.mem_filter.1 h).1, List.append_assoc]

/-- A store is determined by its history. Let some calls be made on a store, in any order, and let
those that fail be followed by the others nevertheless. Afterwards the variables are those of the
start and those that some call has cleared. The value of a variable is the number of increments less
that of decrements, of those that did not fail, from the last call on that has cleared it; or, if
there is none, on top of its first value. An increment, a decrement or a look at a value fails
exactly if the variable is not in the store at that moment, with a fault of its own line and name,
and then changes nothing. The variables of the start keep their order, and the others stand behind
them in the order of the calls that first cleared them. -/
theorem replay_determined (s : Store) (calls : List Call) :
    (∀ name, name ∈ s.replay calls ↔ name ∈ s ∨ .clear name ∈ calls) ∧
    (∀ name before after, calls = before ++ .clear name :: after → .clear name ∉ after →
      (s.replay calls).get? name =
        some (Call.balance name ((s.replay (before ++ [.clear name])).successes after))) ∧
    (∀ name value, .clear name ∉ calls → s.get? name = some value →
      (s.replay calls).get? name = some (value + Call.balance name (s.successes calls))) ∧
    (∀ before call after, calls = before ++ call :: after →
      (∀ fault, (s.replay before).answer call = .error fault ↔ ∃ name line,
        call.asked? = some (name, line) ∧ name ∉ s.replay before ∧
          fault = .undefinedVariable line name) ∧
      (∀ fault, (s.replay before).answer call = .error fault →
        s.replay (before ++ [call]) = s.replay before) ∧
      ∀ name line value, call = .get name line → (s.replay before).get? name = some value →
        (s.replay before).answer call = .ok (s.replay before, some value)) ∧
    (s.replay calls).names =
      s.names ++ ((calls.filterMap Call.cleared?).filter (· ∉ s)).eraseDups := by
  refine ⟨fun name => mem_replay, ?_, ?_, ?_, names_replay s calls⟩
  · rintro name before after rfl hafter
    exact get?_replay_of_clear hafter
  · intro name value hcalls hvalue
    rw [get?_replay hcalls, hvalue, Option.map_some]
  · rintro before call after -
    refine ⟨fun fault => answer_eq_error_iff, fun fault hfault => ?_, ?_⟩
    · rw [replay_append]
      exact next_of_error hfault
    · rintro name line value rfl hvalue
      exact answer_get hvalue

/-- An increment before the first `clear` fails, and a second `clear` keeps the place. -/
example : (replay (ofList [("b", 5)]) [.increment "a" 1, .clear "c", .clear "a", .decrement "a" 2,
      .increment "b" 3, .clear "c", .increment "c" 4]).entries =
    ([("b", 6), ("c", 1), ("a", -1)] : List (Text × Int)) := by decide

end CounterLang.Store
