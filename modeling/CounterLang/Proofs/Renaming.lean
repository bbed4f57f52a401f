import CounterLang.Proofs.Executions
import CounterLang.Proofs.Words
import Mathlib.Data.List.Nodup
import Mathlib.Logic.Equiv.Basic

/-!
# Renaming variables

A name of a variable is looked at only to see whether it is a word of the language, which no name
is, and whether it is the same as another one. So any way to rename the variables that keeps
different names apart takes a run to a run. In a statement the name is its second token, whatever
the first one is; it is replaced where it stands, and all other tokens stay as they are, also where
they look like the name.

## Main definitions

* `Text.IsName`: a token that is no word of the language.
* `Renaming`: a name for each name, with none used twice.
* `Statement.rename`, `Program.rename`, `Store.rename`, `Machine.rename`: what becomes of
  statements, stores and machines.
* `Machine.itinerary`: the lines of the statements that a run carries out.

## Main statements

* `Statement.tokens_rename`: the second token is renamed, if it is a name.
* `Command.read_rename`, `Machine.perform_rename`, `Machine.step_rename`: reading a statement,
  carrying out its command, and a whole transition go well with a renaming.
* `Program.executes_rename_iff`: so do executions.
-/

namespace CounterLang

/-! ## Names -/

/-- A token that can name a variable: it is no word of the language. -/
structure Text.IsName (token : Text) : Prop where
  ne_nil : token ≠ []
  isBlank_eq_false : ∀ point ∈ token, point.isBlank = false
  isReserved_eq_false : isReserved token = false

instance (token : Text) : Decidable token.IsName :=
  decidable_of_iff (token ≠ [] ∧ (∀ point ∈ token, point.isBlank = false) ∧
    isReserved token = false) ⟨fun ⟨h, h', h''⟩ => ⟨h, h', h''⟩, fun ⟨h, h', h''⟩ => ⟨h, h', h''⟩⟩

/-- What each name is replaced by. No two names are replaced by the same one. -/
structure Renaming where
  name : {token : Text // token.IsName} → {token : Text // token.IsName}
  injective : Function.Injective name

namespace Renaming

variable (ρ : Renaming) {token other : Text}

/-- What a token is replaced by, if it is a name. Other tokens stay as they are. -/
def apply (token : Text) : Text := if h : token.IsName then ρ.name ⟨token, h⟩ else token

theorem apply_of_isName (h : token.IsName) : ρ.apply token = ρ.name ⟨token, h⟩ := dif_pos h

theorem apply_of_not_isName (h : ¬ token.IsName) : ρ.apply token = token := dif_neg h

@[simp] theorem isName_apply : (ρ.apply token).IsName ↔ token.IsName := by
  by_cases h : token.IsName
  · simp only [ρ.apply_of_isName h, (ρ.name ⟨token, h⟩).2, h]
  · rw [ρ.apply_of_not_isName h]

theorem apply_injective : Function.Injective ρ.apply := by
  intro token other hsame
  have hiff : token.IsName ↔ other.IsName := by
    rw [← ρ.isName_apply, hsame, ρ.isName_apply]
  by_cases h : token.IsName
  · rw [ρ.apply_of_isName h, ρ.apply_of_isName (hiff.1 h)] at hsame
    exact congrArg Subtype.val (ρ.injective (Subtype.ext hsame))
  · rwa [ρ.apply_of_not_isName h, ρ.apply_of_not_isName (mt hiff.2 h)] at hsame

@[simp] theorem apply_inj : ρ.apply token = ρ.apply other ↔ token = other :=
  ρ.apply_injective.eq_iff

@[simp] theorem apply_nil : ρ.apply [] = [] := ρ.apply_of_not_isName fun h => h.ne_nil rfl

theorem apply_ne_nil (h : token ≠ []) : ρ.apply token ≠ [] := by
  rwa [← ρ.apply_nil, Ne, ρ.apply_inj]

theorem isBlank_of_mem_apply (h : ∀ point ∈ token, point.isBlank = false) :
    ∀ point ∈ ρ.apply token, point.isBlank = false := by
  by_cases hname : token.IsName
  · exact (ρ.isName_apply.2 hname).isBlank_eq_false
  · rwa [ρ.apply_of_not_isName hname]

/-- A word of the language stays as it is, and nothing becomes one. -/
@[simp] theorem isReserved_apply : isReserved (ρ.apply token) = isReserved token := by
  by_cases hname : token.IsName
  · rw [(ρ.isName_apply.2 hname).isReserved_eq_false, hname.isReserved_eq_false]
  · rw [ρ.apply_of_not_isName hname]

theorem apply_of_isReserved (h : isReserved token = true) : ρ.apply token = token :=
  ρ.apply_of_not_isName fun hname => by simp [hname.isReserved_eq_false] at h

/-- Two names are exchanged, and all others stay as they are. -/
def swap (first second : {token : Text // token.IsName}) : Renaming where
  name := Equiv.swap first second
  injective := (Equiv.swap first second).injective

end Renaming

-- A name may contain a word of the language, and it may be the literal of a loop header.
example : Text.IsName "endgame" ∧ Text.IsName "while1" ∧ Text.IsName "0" := by decide

/-! ## Programs, stores and machines -/

variable (ρ : Renaming)

/-- The statement with its second token renamed where it stands. -/
def Statement.rename (statement : Statement) : Statement := Text.mapSecond ρ.apply statement

def Program.rename (program : Program) : Program := program.map (Statement.rename ρ)

/-- The tokens behind the first one, with the first of them renamed. -/
def Renaming.operands : List Text → List Text
  | operand :: more => ρ.apply operand :: more
  | [] => []

/-- The tokens of a statement with the second one renamed. -/
def Renaming.tokens : List Text → List Text
  | word :: operands => word :: ρ.operands operands
  | [] => []

/-- The first token is no name, whatever it is, and neither is the third one. -/
theorem Statement.tokens_rename (statement : Statement) :
    (statement.rename ρ).tokens = ρ.tokens statement.tokens := by
  have hwords := Text.words_mapSecond ρ.apply_nil (fun _ => ρ.apply_ne_nil)
    (fun _ => ρ.isBlank_of_mem_apply) statement
  rw [tokens, rename, hwords, tokens]
  rcases Text.words statement with _ | ⟨_, _ | _⟩ <;> rfl

example : Statement.rename (.swap ⟨"x", by decide⟩ ⟨"0", by decide⟩) "\n while  x not 0 do " =
    "\n while  0 not 0 do " := by
  decide

/-- What a statement does to the nesting of blocks does not depend on a name. -/
@[simp] theorem Statement.role_rename (statement : Statement) :
    (statement.rename ρ).role = statement.role := by
  rw [role, role, tokens_rename]
  rcases statement.tokens with _ | ⟨_, _ | _⟩ <;> rfl

/-- The store with its names renamed, in the same order. -/
def Store.rename (store : Store) : Store where
  entries := store.entries.map fun entry => (ρ.apply entry.1, entry.2)
  nodup := by
    have hnames : (store.entries.map fun entry => (ρ.apply entry.1, entry.2)).map Prod.fst =
        (store.entries.map Prod.fst).map ρ.apply := by
      simp
    rw [hnames]
    exact List.Nodup.map ρ.apply_injective store.nodup

/-- A fault names a variable only where the variable is unknown. -/
def Fault.rename : Fault → Fault
  | undefinedVariable line name => undefinedVariable line (ρ.apply name)
  | fault => fault

def Command.rename : Command → Command
  | clear name => clear (ρ.apply name)
  | increment name => increment (ρ.apply name)
  | decrement name => decrement (ρ.apply name)
  | print name => print (ρ.apply name)
  | ignore keyword => ignore keyword
  | loop guard => loop (ρ.apply guard)

/-- Only the events of a trace show names. -/
def Event.rename : Event → Event
  | snapshot store => snapshot (store.rename ρ)
  | entry line statement => entry line (statement.rename ρ)
  | event => event

def Loop.rename (loop : Loop) : Loop :=
  { loop with
    guard := ρ.apply loop.guard
    body := loop.body.rename ρ
    rest := loop.rest.rename ρ }

def Block.rename (block : Block) : Block := ⟨block.body.rename ρ, block.rest.rename ρ⟩

def Machine.rename (m : Machine) : Machine where
  code := m.code.rename ρ
  line := m.line
  loops := m.loops.map (Loop.rename ρ)
  store := m.store.rename ρ
  steps := m.steps
  log := m.log.map (Event.rename ρ)

def Account.rename (a : Account) : Account where
  store := a.store.rename ρ
  steps := a.steps
  log := a.log.map (Event.rename ρ)

def Stop.rename : Stop → Stop
  | .fault cause => .fault (cause.rename ρ)
  | stop => stop

def Verdict.rename (v : Verdict) : Verdict where
  account := v.account.rename ρ
  stop := v.stop.map (Stop.rename ρ)

/-! ## Reading statements -/

theorem Block.split?_rename (depth : Nat) (program : Program) :
    split? depth (program.rename ρ) = (split? depth program).map (Block.rename ρ) := by
  induction program generalizing depth with
  | nil => rfl
  | cons statement rest ih =>
    have hcons : Program.rename ρ (statement :: rest) =
      statement.rename ρ :: Program.rename ρ rest := rfl
    rw [hcons, split?_cons, split?_cons, Statement.role_rename]
    cases statement.role.after? depth with
    | none => rfl
    | some next =>
      simp only [ih, Option.map_map]
      rfl

namespace Store

variable {store : Store} {name : Text} {line : Int}

@[simp] theorem get?_rename : (store.rename ρ).get? (ρ.apply name) = store.get? name := by
  rw [get?, get?, rename]
  simp only
  induction store.entries with
  | nil => rfl
  | cons entry entries ih =>
    obtain ⟨key, value⟩ := entry
    by_cases h : name = key
    · simp [h]
    · have hkey : (name == key) = false := by simpa using h
      have hkey' : (ρ.apply name == ρ.apply key) = false := by simpa using h
      rw [List.map_cons, List.lookup_cons, List.lookup_cons, hkey, hkey']
      exact ih

@[simp] theorem mem_rename : ρ.apply name ∈ store.rename ρ ↔ name ∈ store := by
  rw [← get?_isSome_iff, get?_rename, get?_isSome_iff]

theorem set_rename (value : Int) :
    (store.rename ρ).set (ρ.apply name) value = (store.set name value).rename ρ := by
  apply Store.ext
  rw [set, set, rename, rename]
  simp only
  induction store.entries with
  | nil => rfl
  | cons entry entries ih =>
    obtain ⟨key, other⟩ := entry
    by_cases h : key = name
    · simp [Entries.assign, h]
    · simp [Entries.assign, h, ih]

theorem get_rename : (store.rename ρ).get (ρ.apply name) line =
    (store.get name line).mapError (Fault.rename ρ) := by
  rw [get, get, get?_rename]
  cases store.get? name <;> rfl

theorem increment_rename : (store.rename ρ).increment (ρ.apply name) line =
    ((store.increment name line).map (Store.rename ρ)).mapError (Fault.rename ρ) := by
  rw [increment, increment, get_rename]
  cases store.get name line with
  | error => rfl
  | ok value => exact congrArg Except.ok (set_rename ρ _)

theorem decrement_rename : (store.rename ρ).decrement (ρ.apply name) line =
    ((store.decrement name line).map (Store.rename ρ)).mapError (Fault.rename ρ) := by
  rw [decrement, decrement, get_rename]
  cases store.get name line with
  | error => rfl
  | ok value => exact congrArg Except.ok (set_rename ρ _)

end Store

namespace Command

variable {store : Store} {line : Int} {word operand : Text} {more operands : List Text}

theorem single_rename {command : Text → Command}
    (hcommand : ∀ name, command (ρ.apply name) = (command name).rename ρ) :
    single command line (ρ.apply operand) more =
      ((single command line operand more).map (rename ρ)).mapError (Fault.rename ρ) := by
  cases more with
  | nil => exact congrArg Except.ok (hcommand operand)
  | cons => rfl

theorem loopHeader_rename : loopHeader (store.rename ρ) line (ρ.apply operand) more =
    ((loopHeader store line operand more).map (rename ρ)).mapError (Fault.rename ρ) := by
  simp only [loopHeader, Store.mem_rename]
  split
  · split
    · rfl
    · split
      · rfl
      · split <;> rfl
  · rfl

/-- A name is read as any other name is. -/
theorem read_rename : read (store.rename ρ) line word (ρ.operands operands) =
    ((read store line word operands).map (rename ρ)).mapError (Fault.rename ρ) := by
  simp only [read]
  cases hword : Keyword.ofText? word with
  | none => rfl
  | some keyword =>
    cases operands with
    | nil => rfl
    | cons operand more =>
      simp only [Renaming.operands, Renaming.isReserved_apply]
      split
      · rename_i hreserved
        rw [ρ.apply_of_isReserved hreserved]
        rfl
      · cases keyword with
        | clear | increment | decrement | print => exact single_rename ρ fun _ => rfl
        | conditional | function => rfl
        | loop => exact loopHeader_rename ρ

end Command

/-! ## Transitions -/

namespace Machine

variable {m : Machine} {o : Options}

/-- A command does to renamed variables what it does to the variables. -/
theorem perform_rename (m : Machine) (line : Int) (rest : Program) (restLine : Int)
    (command : Command) :
    (m.rename ρ).perform line (rest.rename ρ) restLine (command.rename ρ) =
      ((m.perform line rest restLine command).map (rename ρ)).mapError (Fault.rename ρ) := by
  cases command with
  | clear name =>
    have hclear : (m.store.rename ρ).clear (ρ.apply name) = (m.store.clear name).rename ρ :=
      Store.set_rename ρ 0
    simp only [perform, Command.rename, Machine.rename, hclear]
    rfl
  | ignore keyword => rfl
  | increment name =>
    have hincrement : (m.rename ρ).store.increment (ρ.apply name) line = _ :=
      Store.increment_rename ρ
    simp only [perform, Command.rename, hincrement]
    cases m.store.increment name line <;> rfl
  | decrement name =>
    have hdecrement : (m.rename ρ).store.decrement (ρ.apply name) line = _ :=
      Store.decrement_rename ρ
    simp only [perform, Command.rename, hdecrement]
    cases m.store.decrement name line <;> rfl
  | print name =>
    have hget : (m.rename ρ).store.get (ρ.apply name) line = _ := Store.get_rename ρ
    simp only [perform, Command.rename, hget]
    cases m.store.get name line <;> rfl
  | loop guard =>
    simp only [perform, Command.rename, Block.split?_rename]
    cases Block.split? 0 rest with
    | none => rfl
    | some block =>
      have hlength : (block.rename ρ).body.length = block.body.length := List.length_map _
      simp only [Option.map_some, hlength]
      rfl

theorem dispatch_rename (m : Machine) (line : Int) (word : Text) (operands : List Text)
    (rest : Program) (restLine : Int) :
    (m.rename ρ).dispatch line word (ρ.operands operands) (rest.rename ρ) restLine =
      ((m.dispatch line word operands rest restLine).map (rename ρ)).mapError (Fault.rename ρ) := by
  have hread : Command.read (m.rename ρ).store line word (ρ.operands operands) = _ :=
    Command.read_rename ρ
  simp only [dispatch, hread]
  cases Command.read m.store line word operands with
  | error => rfl
  | ok command => exact m.perform_rename ρ line rest restLine command

theorem count_rename {line : Int} {k k' : Machine → Outcome}
    (hk : ∀ m, k' (m.rename ρ) = (k m).bimap (Fault.rename ρ) (rename ρ)) (m : Machine) :
    (m.rename ρ).count o line k' = (m.count o line k).bimap (Fault.rename ρ) (rename ρ) := by
  have hbudget : (m.rename ρ).tick.exceeded? o = m.tick.exceeded? o := rfl
  simp only [count, hbudget]
  split
  · rfl
  · exact hk m.tick

theorem announce_rename (m : Machine) (line : Int) (statement : Statement) :
    (m.rename ρ).announce o line (statement.rename ρ) =
      (m.announce o line statement).rename ρ := by
  simp only [announce]
  split <;> rfl

/-- A transition takes a renamed machine where it takes the machine. -/
theorem step_rename (m : Machine) (o : Options) :
    (m.rename ρ).step o = (m.step o).bimap (Fault.rename ρ) (rename ρ) := by
  cases hcode : m.code with
  | nil =>
    have hcode' : (m.rename ρ).code = [] := by rw [rename, hcode]; rfl
    cases hloops : m.loops with
    | nil =>
      have hloops' : (m.rename ρ).loops = [] := by rw [rename, hloops]; rfl
      simp only [step, hcode, hcode', hloops, hloops', Outcome.bimap]
    | cons loop outer =>
      have hloops' : (m.rename ρ).loops = loop.rename ρ :: outer.map (Loop.rename ρ) := by
        rw [rename, hloops]
        rfl
      have hget : (m.rename ρ).store.get? (loop.rename ρ).guard = m.store.get? loop.guard :=
        Store.get?_rename ρ
      rw [step_of_loops hcode hloops, step_of_loops hcode' hloops']
      simp only [iterate, hget]
      split
      · rfl
      · split
        · rfl
        · exact count_rename ρ (fun _ => rfl) m
  | cons statement rest =>
    have hcode' : (m.rename ρ).code = statement.rename ρ :: Program.rename ρ rest := by
      rw [rename, hcode]
      rfl
    rw [step, step, hcode, hcode']
    simp only [Statement.tokens_rename]
    cases Statement.tokens statement with
    | nil => rfl
    | cons word operands =>
      refine count_rename ρ (fun m => ?_) m
      have hline : (m.rename ρ).line = m.line := rfl
      have hannounced : ((m.announce o m.line statement).rename ρ).line =
        (m.announce o m.line statement).line := rfl
      simp only [hline, announce_rename, hannounced, dispatch_rename]
      generalize (m.announce o m.line statement).dispatch _ _ _ _ _ = result
      cases result <;> rfl

end Machine

/-! ## Executions -/

/-- Names are written whatever they are. -/
@[simp] theorem Event.isWritable_rename (event : Event) :
    (event.rename ρ).isWritable = event.isWritable := by
  cases event with
  | snapshot store => simp [rename, isWritable, Store.isWritable, Store.rename, List.all_map,
      Function.comp_def]
  | entry | finished | printed | ignored | resolved | left => rfl

@[simp] theorem Fault.line_rename (fault : Fault) : (fault.rename ρ).line = fault.line := by
  cases fault <;> rfl

namespace Account

theorem write_rename (a : Account) (event : Event) :
    (a.rename ρ).write (event.rename ρ) =
      ((a.write event).map (rename ρ)).mapError (Verdict.rename ρ) := by
  simp only [write, Event.isWritable_rename]
  split <;> rfl

theorem writeAll_rename (a : Account) (events : List Event) :
    (a.rename ρ).writeAll (events.map (Event.rename ρ)) =
      ((a.writeAll events).map (rename ρ)).mapError (Verdict.rename ρ) := by
  induction events generalizing a with
  | nil => rfl
  | cons event events ih =>
    rw [List.map_cons, writeAll_cons, writeAll_cons, write_rename]
    cases a.write event with
    | error => rfl
    | ok b => exact ih b

theorem fail_rename (a : Account) (fault : Fault) :
    (a.rename ρ).fail (fault.rename ρ) = (a.fail fault).rename ρ := by
  simp only [fail, Fault.line_rename, Verdict.rename, Option.map_some]
  split <;> rfl

end Account

namespace Machine

variable {m : Machine} {o : Options} {fuel : Nat}

theorem write_rename (a : Account) (outcome : Outcome) :
    (outcome.bimap (Fault.rename ρ) (rename ρ)).write (a.rename ρ) =
      match outcome.write a with
      | .ok next => .ok (next.rename ρ)
      | .error verdict => .error (verdict.rename ρ) := by
  have hlog : ∀ m : Machine, (m.rename ρ).log.reverse = m.log.reverse.map (Event.rename ρ) :=
    fun m => (List.map_reverse ..).symm
  cases outcome with
  | finished => rfl
  | running next =>
    have hwrite := Account.writeAll_rename ρ { a with steps := next.steps } next.log.reverse
    simp only [Outcome.bimap, Outcome.write, hlog]
    refine (congrArg (· >>= _) hwrite).trans ?_
    cases Account.writeAll { a with steps := next.steps } next.log.reverse <;> rfl
  | failed fault last =>
    have hwrite := Account.writeAll_rename ρ { a with steps := last.steps } last.log.reverse
    simp only [Outcome.bimap, Outcome.write, hlog]
    refine (congrArg (· >>= _) hwrite).trans ?_
    cases Account.writeAll { a with steps := last.steps } last.log.reverse with
    | error => rfl
    | ok b =>
      have hfail := Account.fail_rename ρ { b with store := last.store } fault
      exact congrArg Except.error hfail

theorem attempt_rename (m : Machine) (o : Options) :
    (m.rename ρ).attempt o =
      match m.attempt o with
      | .ok next => .ok (next.rename ρ)
      | .error verdict => .error (verdict.rename ρ) := by
  have hempty : { m.rename ρ with log := [] } = ({ m with log := [] } : Machine).rename ρ := rfl
  rw [attempt, hempty, step_rename]
  exact write_rename ρ m.account _

theorem pursue_rename : (m.rename ρ).pursue o fuel = (m.pursue o fuel).map (Verdict.rename ρ) :=
  pursue_map fun m => m.attempt_rename ρ o

/-- The line of the statement that a machine carries out next, if it is at a statement and the
budget allows the step. -/
def dispatched? (o : Options) (m : Machine) : Option Int :=
  match m.code with
  | [] => none
  | statement :: _ =>
    if Statement.isBlank statement || (m.tick.exceeded? o).isSome then none else some m.line

/-- The lines of the statements that a machine carries out in so many attempts, in order. -/
def itinerary (o : Options) : Nat → Machine → List Int
  | 0, _ => []
  | fuel + 1, m => (m.dispatched? o).toList ++
    match m.attempt o with
    | .ok next => itinerary o fuel next
    | .error _ => []

theorem dispatched?_rename : (m.rename ρ).dispatched? o = m.dispatched? o := by
  rw [dispatched?, dispatched?]
  cases hcode : m.code with
  | nil =>
    rw [show (m.rename ρ).code = [] by rw [rename, hcode]; rfl]
  | cons statement rest =>
    rw [show (m.rename ρ).code = statement.rename ρ :: Program.rename ρ rest by
      rw [rename, hcode]; rfl]
    have hblank : (statement.rename ρ).isBlank = statement.isBlank := by
      rw [Statement.isBlank, Statement.isBlank, Statement.tokens_rename]
      cases Statement.tokens statement <;> rfl
    simp only [hblank]
    rfl

/-- With other names a machine goes through the same lines. -/
theorem itinerary_rename : (m.rename ρ).itinerary o fuel = m.itinerary o fuel := by
  induction fuel generalizing m with
  | zero => rfl
  | succ fuel ih =>
    simp only [itinerary, dispatched?_rename, attempt_rename]
    cases m.attempt o with
    | error => rfl
    | ok next => exact congrArg _ ih

/-- What a machine that carries out a statement comes to is what the statement does. -/
theorem step_of_dispatched? {line : Int} (h : m.dispatched? o = some line) :
    ∃ statement rest word operands, m.code = statement :: rest ∧
      Statement.tokens statement = word :: operands ∧ m.step o =
        match (m.arrive o statement).dispatch line word operands rest (line + 1) with
        | .ok next => .running next
        | .error fault => .failed fault (m.arrive o statement) := by
  rw [dispatched?] at h
  split at h
  · cases h
  · rename_i statement rest hcode
    split at h
    · cases h
    · rename_i hblank
      cases h
      rw [Bool.or_eq_true, not_or, Statement.isBlank, List.isEmpty_iff] at hblank
      obtain ⟨htokens, hbudget⟩ := hblank
      obtain ⟨word, operands, htokens⟩ := List.exists_cons_of_ne_nil htokens
      rw [Option.not_isSome_iff_eq_none] at hbudget
      refine ⟨statement, rest, word, operands, hcode, htokens, ?_⟩
      split
      · exact step_of_dispatch_ok hcode htokens hbudget ‹_›
      · exact step_of_dispatch_error hcode htokens hbudget ‹_›

theorem ends_rename_iff {e : Ending} : (m.rename ρ).Ends o e ↔
    ∃ e', m.Ends o e' ∧ e = e'.bimap (Fault.rename ρ) (rename ρ) :=
  ends_bimap_iff fun m => m.step_rename ρ o

end Machine

/-- The second verdict is what becomes of the first where the variables are renamed. -/
structure Verdict.Mirrors (v w : Verdict) : Prop where
  output : w.account.output = v.account.output
  steps : w.account.steps = v.account.steps
  /-- The store has the renamed variables in the same order. -/
  entries : w.account.store.entries =
    v.account.store.entries.map fun entry => (ρ.apply entry.1, entry.2)
  /-- Both come to the end, or both stop early, at an integer that is not written or at a fault. -/
  stop : w.stop = v.stop.map (Stop.rename ρ)
  /-- The fault is of the same kind and on the same line. Its token is the same as well, unless it
  is the name of an unknown variable, which is renamed. -/
  fault : ∀ fault, v.stop = some (.fault fault) → ∃ fault', w.stop = some (.fault fault') ∧
    fault'.kind = fault.kind ∧ fault'.line = fault.line ∧ fault'.token? =
      if fault.kind = .undefinedVariable then fault.token?.map ρ.apply else fault.token?

theorem Verdict.mirrors_rename (v : Verdict) : v.Mirrors ρ (v.rename ρ) where
  output := by
    have hline : ∀ event : Event, (event.rename ρ).outputLine? = event.outputLine? := by
      intro event
      cases event <;> rfl
    simp [rename, Account.rename, Account.output, ← List.map_reverse, List.filterMap_map, hline]
  steps := rfl
  entries := rfl
  stop := rfl
  fault := by
    intro fault hfault
    refine ⟨fault.rename ρ, by rw [rename, hfault]; rfl, ?_, fault.line_rename ρ, ?_⟩
    all_goals cases fault <;> rfl

namespace Program

variable {program : Program} {o : Options} {firstLine : Int} {cursor : Nat} {a : Account}

theorem resume_rename (a : Account) :
    ({ program := program.rename ρ, firstLine, cursor } : Scope).resume (a.rename ρ) =
      (({ program, firstLine, cursor } : Scope).resume a).rename ρ := by
  simp [Scope.resume, Account.machine, Machine.rename, Account.rename, Program.rename]

/-- An execution with renamed variables is what becomes of an execution. -/
theorem executes_rename_iff {w : Verdict} :
    ({ program := program.rename ρ, firstLine, cursor } : Scope).Executes o (a.rename ρ) w ↔
      ∃ v, ({ program, firstLine, cursor } : Scope).Executes o a v ∧ w = v.rename ρ := by
  have hiff : ∀ {program : Program} {a : Account} {v : Verdict},
      ({ program, firstLine, cursor } : Scope).Executes o a v ↔
        ∃ fuel, (({ program, firstLine, cursor } : Scope).resume a).pursue o fuel = some v :=
    Scope.executes_iff_pursue (Int.natCast_nonneg cursor)
  simp only [hiff, resume_rename, Machine.pursue_rename, Option.map_eq_some_iff]
  constructor
  · rintro ⟨fuel, v, hv, rfl⟩
    exact ⟨v, ⟨fuel, hv⟩, rfl⟩
  · rintro ⟨v, ⟨fuel, hv⟩, rfl⟩
    exact ⟨fuel, v, hv, rfl⟩

theorem ends_rename_iff {e : Ending} : (program.rename ρ).Ends o e ↔
    ∃ e', program.Ends o e' ∧ e = e'.bimap (Fault.rename ρ) (Machine.rename ρ) := by
  have hstart : start (program.rename ρ) = program.start.rename ρ := rfl
  have hclose : ∀ e : Ending, (e.bimap (Fault.rename ρ) (Machine.rename ρ)).close o =
      (e.close o).bimap (Fault.rename ρ) (Machine.rename ρ) := by
    intro e
    simp only [Ending.close, Ending.bimap, Option.isNone_map]
    split <;> rfl
  simp only [ends_iff, hstart, Machine.ends_rename_iff]
  constructor
  · rintro ⟨_, ⟨e, he, rfl⟩, rfl⟩
    exact ⟨_, ⟨e, he, rfl⟩, hclose e⟩
  · rintro ⟨_, ⟨e, he, rfl⟩, rfl⟩
    exact ⟨_, ⟨e, he, rfl⟩, hclose e⟩

/-- The names of variables are opaque. Let the second token of each statement be renamed, if it is
no word of the language, and the store likewise. Then an execution ends if it ends with the old
names, whatever the budget, the store and the cursor are. It has the same output and the same number
of steps, and the store has the renamed variables in the same order. If it stops early it does so
for the same reason, on the same line and with the same token, but that an unknown variable has its
new name. And it carries out the statements on the same lines in the same order, also if it goes on
for ever. Without a limit on digits the same holds for the run of the whole program. -/
theorem names_opaque (ρ : Renaming) (o : Options) (program : Program) :
    (∀ (firstLine : Int) (cursor : Nat) (store : Store) (steps : Nat),
      let scope : Scope := { program, firstLine, cursor }
      let renamed : Scope := { program := program.rename ρ, firstLine, cursor }
      (∀ v, scope.Executes o { store, steps } v →
        ∃ w, renamed.Executes o { store := store.rename ρ, steps } w ∧ v.Mirrors ρ w) ∧
      (∀ w, renamed.Executes o { store := store.rename ρ, steps } w →
        ∃ v, scope.Executes o { store, steps } v ∧ v.Mirrors ρ w) ∧
      ∀ fuel, (renamed.resume { store := store.rename ρ, steps }).itinerary o fuel =
        (scope.resume { store, steps }).itinerary o fuel) ∧
    (∀ e, program.Ends o e →
      ∃ e', (program.rename ρ).Ends o e' ∧ e.verdict.Mirrors ρ e'.verdict) ∧
    ∀ e', (program.rename ρ).Ends o e' →
      ∃ e, program.Ends o e ∧ e.verdict.Mirrors ρ e'.verdict := by
  have hends : ∀ e : Ending, e.verdict.Mirrors ρ
      (e.bimap (Fault.rename ρ) (Machine.rename ρ)).verdict := by
    intro e
    have hverdict : (e.bimap (Fault.rename ρ) (Machine.rename ρ)).verdict = e.verdict.rename ρ := by
      obtain ⟨m, fault⟩ := e
      cases fault <;> rfl
    rw [hverdict]
    exact e.verdict.mirrors_rename ρ
  refine ⟨fun firstLine cursor store steps => ?_, fun e he => ?_, fun e' he' => ?_⟩
  · intro scope renamed
    have ha : ({ store := store.rename ρ, steps } : Account) = Account.rename ρ { store, steps } :=
      rfl
    rw [ha]
    refine ⟨fun v hv => ?_, fun w hw => ?_, fun fuel => ?_⟩
    · exact ⟨v.rename ρ, (executes_rename_iff ρ).2 ⟨v, hv, rfl⟩, v.mirrors_rename ρ⟩
    · obtain ⟨v, hv, rfl⟩ := (executes_rename_iff ρ).1 hw
      exact ⟨v, hv, v.mirrors_rename ρ⟩
    · rw [resume_rename]
      exact Machine.itinerary_rename ρ
  · exact ⟨_, (ends_rename_iff ρ).2 ⟨e, he, rfl⟩, hends e⟩
  · obtain ⟨e, he, rfl⟩ := (ends_rename_iff ρ).1 he'
    exact ⟨e, he, hends e⟩

end Program

end CounterLang
