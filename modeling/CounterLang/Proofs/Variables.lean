import CounterLang.Proofs.Growth
import CounterLang.Proofs.Lines
import CounterLang.Proofs.Texts

/-!
# Variables

What a store holds says which `clear` statements have been carried out, and nothing else: each
variable stands where its first `clear` has put it, and stays there. So the guard of a loop, which
is known when the loop is entered, is known whenever the machine comes back to the header.

## Main definitions

* `Text.IsVariable`: a text that can name a variable of a program given as source text.
* `Machine.Performs`: a machine comes to another one and carries out commands on the way.

## Main statements

* `Machine.Performs.names`: variables are in the order in which they were first cleared.
* `Machine.names_prefix_of_reaches`: a store only grows at its end.
* `Program.variables_of_reaches`: stores are well formed at every moment of a run, and guards are
  known.
-/

namespace CounterLang

/-! ## Names -/

/-- The text can name a variable of a program that is given as source text. -/
structure Text.IsVariable (name : Text) : Prop where
  ne_nil : name ≠ []
  isBlank_eq_false : ∀ point ∈ name, point.isBlank = false
  delimiter_notMem : Program.delimiter ∉ name
  ne_keyword : ∀ keyword : Keyword, name ≠ keyword.text
  ne_reserved : ∀ word : Reserved, name ≠ word.text

theorem isReserved_eq_false_iff {token : Text} : isReserved token = false ↔
    (∀ keyword : Keyword, token ≠ keyword.text) ∧ ∀ word : Reserved, token ≠ word.text := by
  simp only [isReserved, Bool.or_eq_false_iff, List.any_eq_false, beq_iff_eq]
  constructor
  · rintro ⟨hreserved, hkeyword⟩
    exact ⟨fun keyword h => hkeyword keyword (Keyword.mem_all keyword) h.symm,
      fun word h => hreserved word (Reserved.mem_all word) h.symm⟩
  · rintro ⟨hkeyword, hreserved⟩
    exact ⟨fun word _ h => hreserved word h.symm, fun keyword _ h => hkeyword keyword h.symm⟩

/-- A token that is not reserved can name a variable. -/
theorem Program.Mentions.isVariable {source name : Text} (h : (ofSource source).Mentions name)
    (hreserved : isReserved name = false) : name.IsVariable := by
  obtain ⟨statement, hstatement, hname⟩ := h
  have htoken := isToken_of_mem_ofSource hstatement hname
  obtain ⟨hkeyword, hreserved⟩ := isReserved_eq_false_iff.1 hreserved
  exact ⟨htoken.ne_nil, htoken.isBlank_eq_false, htoken.delimiter_notMem, hkeyword, hreserved⟩

/-- Without repetitions, a name that is new goes to the end. -/
theorem Text.eraseDups_concat (names : List Text) (name : Text) :
    (names ++ [name]).eraseDups =
      if name ∈ names then names.eraseDups else names.eraseDups ++ [name] := by
  rw [List.eraseDups_append, List.removeAll]
  split <;> simp [*, List.eraseDups_cons]

/-! ## Commands -/

namespace Command

/-- The variable that a command clears. -/
def cleared? : Command → Option Text
  | clear name => some name
  | increment _ | decrement _ | print _ | ignore _ | loop _ => none

variable {store : Store} {line : Int} {word operand : Text} {operands more : List Text}
  {command : Command}

theorem isReserved_of_read (h : read store line word (operand :: more) = .ok command) :
    isReserved operand = false := by
  simp only [read] at h
  split at h
  · cases h
  · split at h
    · cases h
    · simpa using ‹¬ isReserved operand = true›

/-- None of the words of the language is cleared. -/
theorem isReserved_of_cleared? {name : Text} (h : read store line word operands = .ok command)
    (hname : command.cleared? = some name) : isReserved name = false := by
  cases spelled_of_read h <;> cases hname
  exact isReserved_of_read h

end Command

namespace Store

/-- A variable that is set keeps all the others in their places. -/
theorem names_prefix_set (s : Store) (name : Text) (value : Int) :
    s.names <+: (s.set name value).names := by
  rw [names_set]
  split
  · exact List.prefix_rfl
  · exact List.prefix_append s.names [name]

theorem names_set_of_get? {s : Store} {name : Text} {value new : Int}
    (h : s.get? name = some value) : (s.set name new).names = s.names := by
  have hmem : name ∈ s := by
    rw [← get?_isSome_iff, h]
    rfl
  rw [names_set, if_pos hmem]

end Store

/-! ## Runs -/

namespace Machine

variable {o : Options} {m next moment later : Machine} {commands : List Command}
  {command : Command} {name : Text}

/-- The command of the statement that the machine has come to, if it is a statement without a
fault. -/
def command? (m : Machine) : Option Command :=
  match m.code with
  | [] => none
  | statement :: _ =>
    match Statement.tokens statement with
    | [] => none
    | word :: operands => (Command.read m.store m.line word operands).toOption

/-- A machine comes to another one, and these are the commands that it carries out on the way. -/
inductive Performs (o : Options) (m : Machine) : List Command → Machine → Prop where
  | refl : Performs o m [] m
  | tail {commands : List Command} {moment next : Machine} (h : Performs o m commands moment)
      (hs : moment.step o = .running next) :
      Performs o m (commands ++ moment.command?.toList) next

/-- Whatever a machine comes to, it has carried out some commands on the way. -/
theorem reaches_iff_performs : m.Reaches o next ↔ ∃ commands, m.Performs o commands next := by
  constructor
  · intro h
    induction h with
    | refl => exact ⟨[], .refl⟩
    | tail _ hs ih =>
      obtain ⟨commands, hperforms⟩ := ih
      exact ⟨_, .tail hperforms hs⟩
  · rintro ⟨commands, h⟩
    induction h with
    | refl => exact .refl
    | tail _ hs ih => exact .tail ih hs

theorem Performance.names {line : Int} {rest : Program} {restLine : Int}
    (h : m.Performance line rest restLine command (.ok next)) :
    next.store.names =
      command.cleared?.elim m.store.names fun name => (m.store.clear name).names := by
  cases h with
  | clear | print | ignore | loop => rfl
  | increment hget | decrement hget => exact Store.names_set_of_get? hget

/-- The names in a store change when a variable is cleared, and not otherwise. -/
theorem names_of_running (hs : m.step o = .running next) :
    next.store.names = (m.command?.bind Command.cleared?).elim m.store.names fun name =>
      (m.store.clear name).names := by
  cases transition_of_step hs with
  | leave hcode | again hcode =>
    simp only [command?, hcode]
    rfl
  | skip hcode htokens =>
    simp only [command?, hcode, htokens]
    rfl
  | perform hcode htokens hbudget hread hperform =>
    simp only [command?, hcode, htokens, hread]
    rw [hperform.names, store_arrive]
    rfl

/-- A transition keeps the names in a store in their places. -/
theorem names_prefix_of_running (hs : m.step o = .running next) :
    m.store.names <+: next.store.names := by
  rw [names_of_running hs]
  cases m.command?.bind Command.cleared? with
  | none => exact List.prefix_rfl
  | some name => exact m.store.names_prefix_set name 0

/-- A store only grows at its end. -/
theorem names_prefix_of_reaches (h : m.Reaches o later) :
    m.store.names <+: later.store.names := by
  induction h with
  | refl => exact List.prefix_rfl
  | tail _ hs ih => exact ih.trans (names_prefix_of_running hs)

/-- The variables of a run from the empty store are those it has cleared, in the order in which they
were first cleared. -/
theorem Performs.names (h : m.Performs o commands moment) (hstore : m.store = ∅) :
    moment.store.names = (commands.filterMap Command.cleared?).eraseDups := by
  induction h with
  | refl =>
    rw [hstore]
    rfl
  | @tail commands moment next _ hs ih =>
    have hlast : moment.command?.toList.filterMap Command.cleared? =
        (moment.command?.bind Command.cleared?).toList := by
      cases moment.command? with
      | none => rfl
      | some command => cases hcleared : command.cleared? <;> simp [hcleared]
    have hmem : ∀ name, name ∈ moment.store ↔ name ∈ commands.filterMap Command.cleared? := by
      intro name
      rw [Store.mem_def, ih, List.mem_eraseDups]
    rw [names_of_running hs, List.filterMap_append, hlast]
    cases moment.command?.bind Command.cleared? with
    | none => rw [Option.elim_none, Option.toList_none, List.append_nil, ih]
    | some name =>
      rw [Option.elim_some, Option.toList_some, Store.clear, Store.names_set, Text.eraseDups_concat,
        ih]
      simp only [hmem]

/-- A name comes into a store by being cleared. -/
theorem mem_store_of_running (hs : m.step o = .running next) (hname : name ∈ next.store) :
    name ∈ m.store ∨ m.command?.bind Command.cleared? = some name := by
  rw [Store.mem_def, names_of_running hs] at hname
  cases hcleared : m.command?.bind Command.cleared? with
  | none =>
    rw [hcleared] at hname
    exact .inl hname
  | some cleared =>
    rw [hcleared] at hname
    rcases Store.mem_set.1 hname with rfl | hname
    · exact .inr rfl
    · exact .inl hname

/-- No word of the language is cleared. -/
theorem isReserved_of_cleared (h : m.command?.bind Command.cleared? = some name) :
    isReserved name = false := by
  obtain ⟨command, hcommand, hname⟩ := Option.bind_eq_some_iff.1 h
  simp only [command?] at hcommand
  split at hcommand
  · cases hcommand
  · split at hcommand
    · cases hcommand
    · rename_i word operands _
      cases hread : Command.read m.store m.line word operands with
      | error fault =>
        rw [hread] at hcommand
        cases hcommand
      | ok read =>
        rw [hread] at hcommand
        cases hcommand
        exact Command.isReserved_of_cleared? hread hname

theorem isReserved_of_reaches (h : m.Reaches o next) (hstore : m.store = ∅) :
    ∀ name ∈ next.store, isReserved name = false := by
  induction h with
  | refl =>
    intro name hname
    rw [hstore] at hname
    cases hname
  | tail _ hs ih =>
    intro name hname
    rcases mem_store_of_running hs hname with hname | hcleared
    · exact ih name hname
    · exact isReserved_of_cleared hcleared

/-! ## Guards -/

/-- A machine that comes back to the header of a loop fails for want of budget only. -/
theorem Guarded.kind_of_failed {fault : Fault} (h : m.Guarded) (hcode : m.code = [])
    (hs : m.step o = .failed fault next) : fault.kind = .stepLimit := by
  by_contra hkind
  obtain ⟨statement, rest, hcons, -⟩ := h.of_failed hs hkind
  rw [hcode] at hcons
  cases hcons

/-- A loop that is left has a guard, and it is zero. -/
theorem guard_of_left {loop : Loop} {outer : List Loop} (hcode : m.code = [])
    (hloops : m.loops = loop :: outer) (hs : m.step o = .running next)
    (hleft : next.loops = outer) : next.store.get? loop.guard = some 0 := by
  cases transition_of_step hs with
  | skip hcons | perform hcons =>
    rw [hcode] at hcons
    cases hcons
  | leave _ hloops' hget =>
    obtain ⟨rfl, -⟩ := List.cons.inj (hloops.symm.trans hloops')
    exact hget
  | again _ hloops' =>
    obtain ⟨-, rfl⟩ := List.cons.inj (hloops.symm.trans hloops')
    exact absurd hleft (List.cons_ne_self _ _)

end Machine

/-! ## Whole runs -/

namespace Program

variable {o : Options} {e : Ending} {program : Program} {m : Machine}

/-- A run leaves the store of the last machine that it comes to. -/
theorem Ends.exists_store_eq (he : program.Ends o e) (h : program.start.Reaches o m) :
    ∃ last, m.Reaches o last ∧ e.machine.store = last.store := by
  obtain ⟨e₀, he₀, rfl⟩ := ends_iff.1 he
  obtain ⟨last, hreach, ⟨-, rfl⟩ | ⟨fault, hs, -⟩⟩ := (h.ends_iff.1 he₀).exists_last
  · exact ⟨last, hreach, Ending.store_close o _⟩
  · exact ⟨last, hreach, (Ending.store_close o _).trans (Machine.store_of_failed hs)⟩

/-- Stores are well formed at every moment of a run, and only grow. Each name can name a variable,
occurs once, and stands where the first `clear` of it that was carried out has put it; from then on
it keeps its place, also in the store that the run leaves behind. So the guard of a loop is known as
long as the loop is open: back at the header the machine fails for want of budget only, and when it
leaves the loop the guard is zero. -/
theorem variables_of_reaches (source : Text) (o : Options) (m : Machine)
    (h : (ofSource source).start.Reaches o m) :
    (∀ name ∈ m.store, name.IsVariable) ∧ m.store.names.Nodup ∧
    (∃ commands, (ofSource source).start.Performs o commands m) ∧
    (∀ commands, (ofSource source).start.Performs o commands m →
      m.store.names = (commands.filterMap Command.cleared?).eraseDups) ∧
    (∀ later, m.Reaches o later → m.store.names <+: later.store.names) ∧
    (∀ e, (ofSource source).Ends o e → ∃ last, m.Reaches o last ∧ e.machine.store = last.store ∧
      m.store.names <+: e.machine.store.names) ∧
    (∀ loop ∈ m.loops, loop.guard ∈ m.store ∧ ∃ statement,
      ({ program := ofSource source } : Scope).OnLine loop.header statement ∧
        Command.Spelled (Statement.tokens statement) (.loop loop.guard)) ∧
    (m.code = [] → ∀ fault last, m.step o = .failed fault last → fault.kind = .stepLimit) ∧
    ∀ loop outer next, m.code = [] → m.loops = loop :: outer → m.step o = .running next →
      next.loops = outer → next.store.get? loop.guard = some 0 := by
  have hguarded := Machine.guarded_of_reaches h
  have hlocated := located_of_reaches h
  refine ⟨fun name hname => ?_, m.store.nodup, Machine.reaches_iff_performs.1 h,
    fun commands hperforms => hperforms.names rfl,
    fun later hlater => Machine.names_prefix_of_reaches hlater, fun e he => ?_,
    fun loop hloop => ⟨hguarded loop hloop, (hlocated.loops loop hloop).header⟩,
    fun hcode fault last hs => hguarded.kind_of_failed hcode hs,
    fun loop outer next hcode hloops hs hleft => Machine.guard_of_left hcode hloops hs hleft⟩
  · have hmentions := (Machine.drawn_of_reaches h).store name hname
    exact hmentions.isVariable (Machine.isReserved_of_reaches h rfl name hname)
  · obtain ⟨last, hreach, hstore⟩ := he.exists_store_eq h
    exact ⟨last, hreach, hstore, hstore ▸ Machine.names_prefix_of_reaches hreach⟩

/-- Clears a variable again in a loop. -/
def recleared : Text := "clear b; clear a; incr b; while b not 0 do; clear a; decr b; end; clear c"

/-- In the loop, after the second `clear` of `a`, the store holds `b` and `a`, in this order. -/
theorem variables_of_reaches_recleared :
    ∃ m commands, (ofSource recleared).start.Reaches {} m ∧
      (ofSource recleared).start.Performs {} commands m ∧
      m.store.names = (["b", "a"] : List Text) ∧
      (commands.filterMap Command.cleared?).eraseDups = (["b", "a"] : List Text) ∧
      Text.IsVariable "a" ∧ m.loops.length = 1 ∧ ∀ loop ∈ m.loops, loop.guard ∈ m.store := by
  have hrun : ((ofSource recleared).start.runFor (.ofBudget (some 6) true) 20).map (fun e =>
      (e.machine.store.names, e.machine.loops.length, decide e.Exhausted)) =
        some ((["b", "a"] : List Text), 1, true) := by
    decide +kernel
  obtain ⟨e, he, hvalues⟩ := Option.map_eq_some_iff.1 hrun
  simp only [Prod.mk.injEq, decide_eq_true_eq] at hvalues
  obtain ⟨hnames, hloops, hx⟩ := hvalues
  have hnarrower : (Options.ofBudget (some 6) true).Narrower (.ofBudget none true) :=
    Options.narrower_ofBudget true (by simp)
  obtain ⟨m, hreach, -, hlast, -⟩ := (Machine.ends_of_runFor he).exists_moment hnarrower hx
  rw [hlast] at hnames hloops
  obtain ⟨hvariable, -, ⟨commands, hperforms⟩, horder, -, -, hguards, -⟩ :=
    variables_of_reaches recleared {} m hreach
  have hmem : ("a" : Text) ∈ m.store := by
    rw [Store.mem_def, show m.store.names = _ from hnames]
    simp
  exact ⟨m, commands, hreach, hperforms, hnames, (horder commands hperforms).symm.trans hnames,
    hvariable _ hmem, hloops, fun loop hloop => (hguards loop hloop).1⟩

end Program

end CounterLang
