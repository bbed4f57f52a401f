import CounterLang.Proofs.Failures
import CounterLang.Proofs.Texts

/-!
# Names

The names in a store are tokens of the program that filled it, and so is the token of a fault. What
a trace shows is made up of such names and of the statements of the program.

## Main definitions

* `Program.Mentions`: a token occurs in the program.
* `Machine.Drawn`: what a machine holds comes from the program.

## Main statements

* `Program.Ends.drawn`: what a run leaves behind comes from the program.
* `Program.Ends.mentions_of_fault`: the token of a fault occurs in the program.
-/

namespace CounterLang

namespace Command

variable {line : Int} {token : Text} {tokens : List Text} {command : Command} {fault : Fault}

theorem Faulty.mem (h : Faulty line tokens fault) (htoken : fault.token? = some token) :
    token ∈ tokens := by
  cases h with
  | missingOperand => cases htoken
  | unexpectedToken h | reservedToken h | undefinedVariable h =>
    cases htoken
    exact h

theorem Spelled.mem_of_operand? {name : Text} (h : Spelled tokens command)
    (hname : command.operand? = some name) : name ∈ tokens := by
  cases h <;> cases hname <;> simp

end Command

/-- The token occurs in a statement of the program. -/
def Program.Mentions (program : Program) (token : Text) : Prop :=
  ∃ statement ∈ program, token ∈ Statement.tokens statement

/-- What the event shows comes from the program. -/
def Event.Drawn (program : Program) : Event → Prop
  | snapshot store => ∀ name ∈ store, program.Mentions name
  | entry _ statement => statement ∈ program
  | finished | printed _ | ignored _ _ | resolved _ _ _ | left _ _ => True

namespace Machine

/-- What the machine holds comes from the program. -/
structure Drawn (m : Machine) (program : Program) : Prop where
  store : ∀ name ∈ m.store, program.Mentions name
  log : ∀ event ∈ m.log, event.Drawn program

variable {o : Options} {program : Program} {m next last : Machine} {statement : Statement}
  {fault : Fault} {event : Event}

theorem drawn_start (program : Program) : program.start.Drawn program where
  store _ hname := by cases hname
  log _ hevent := by cases hevent

theorem Drawn.emit (h : m.Drawn program) (hevent : event.Drawn program) :
    (m.emit event).Drawn program where
  store := h.store
  log := List.forall_mem_cons.2 ⟨hevent, h.log⟩

theorem Drawn.congr (h : m.Drawn program) (hstore : next.store = m.store)
    (hlog : next.log = m.log) : next.Drawn program where
  store := hstore ▸ h.store
  log := hlog ▸ h.log

theorem Drawn.set (h : m.Drawn program) {name : Text} {value : Int} (hname : program.Mentions name)
    (hstore : next.store = m.store.set name value) (hlog : next.log = m.log) :
    next.Drawn program where
  store other hother := by
    rw [hstore, Store.mem_set] at hother
    rcases hother with rfl | hother
    · exact hname
    · exact h.store other hother
  log := hlog ▸ h.log

/-- The statement that a machine has come to is shown with the store. -/
theorem Drawn.arrive (h : m.Drawn program) (hmem : statement ∈ program) :
    (m.arrive o statement).Drawn program := by
  have htick : m.tick.Drawn program := h.congr rfl rfl
  rw [Machine.arrive, announce]
  split
  · have hshown : (m.tick.emit (.snapshot m.store)).Drawn program := htick.emit h.store
    exact hshown.emit hmem
  · exact htick

/-- A command brings no name into the store that is not a token of its statement. -/
theorem Performance.drawn {line : Int} {rest : Program} {restLine : Int} {command : Command}
    {tokens : List Text} (h : m.Performance line rest restLine command (.ok next))
    (htokens : Command.Spelled tokens command)
    (hmentions : ∀ token ∈ tokens, program.Mentions token) (hm : m.Drawn program) :
    next.Drawn program := by
  cases h with
  | clear name | increment hget | decrement hget =>
    cases htokens
    exact hm.set (hmentions _ (by simp)) rfl rfl
  | print hget | ignore keyword | loop => exact (hm.emit (by trivial)).congr rfl rfl

theorem Placed.mem_of_code {rest : Program} (h : m.Placed program)
    (hcode : m.code = statement :: rest) : statement ∈ program := by
  obtain ⟨-, -, index, -, -, hget, -⟩ := h.exists_index hcode
  exact List.mem_of_getElem? hget

theorem drawn_of_running (hplaced : m.Placed program) (h : m.Drawn program)
    (hs : m.step o = .running next) : next.Drawn program := by
  cases transition_of_step hs with
  | skip | again => exact h.congr rfl rfl
  | leave => exact (h.emit (by trivial)).congr rfl rfl
  | @perform statement _ _ _ _ _ hcode htokens hbudget hread hperform =>
    have hmem := hplaced.mem_of_code hcode
    refine hperform.drawn (Command.spelled_of_read hread) ?_ (h.arrive hmem)
    intro token htoken
    exact ⟨statement, hmem, htokens ▸ htoken⟩

theorem drawn_of_reaches (h : program.start.Reaches o m) : m.Drawn program := by
  induction h with
  | refl => exact drawn_start program
  | tail hreach hs ih => exact drawn_of_running (placed_of_reaches hreach) ih hs

/-- A command at fault has the name of an unknown variable for its token, if it has any. -/
theorem Performance.mem_of_error {line : Int} {rest : Program} {restLine : Int} {command : Command}
    {tokens : List Text} {token : Text}
    (h : m.Performance line rest restLine command (.error fault))
    (htokens : Command.Spelled tokens command) (htoken : fault.token? = some token) :
    token ∈ tokens := by
  cases h with
  | undefined hname =>
    cases htoken
    exact htokens.mem_of_operand? hname
  | unterminated => cases htoken

/-- A transition that fails leaves nothing behind that does not come from the program, and neither
does its fault. -/
theorem drawn_of_failed (hreach : program.start.Reaches o m) (hs : m.step o = .failed fault last) :
    last.Drawn program ∧ ∀ token ∈ fault.token?, program.Mentions token := by
  have h := drawn_of_reaches hreach
  cases transition_of_step hs with
  | exhaust | cut => exact ⟨h.congr rfl rfl, by rintro token ⟨⟩⟩
  -- The guard of an open loop never loses its value, so there is no such transition in a run.
  | lose hcode hloops hget =>
    have hguard := guarded_of_reaches hreach _ (hloops ▸ List.mem_cons_self)
    exact absurd hguard (Store.get?_eq_none_iff.1 hget)
  | @reject statement _ _ _ _ hcode htokens hbudget hread =>
    have hmem := (placed_of_reaches hreach).mem_of_code hcode
    refine ⟨h.arrive hmem, ?_⟩
    intro token htoken
    exact ⟨statement, hmem, htokens ▸ (Command.faulty_of_read hread).mem htoken⟩
  | @fault statement _ _ _ _ _ hcode htokens hbudget hread hperform =>
    have hmem := (placed_of_reaches hreach).mem_of_code hcode
    refine ⟨h.arrive hmem, ?_⟩
    intro token htoken
    exact ⟨statement, hmem,
      htokens ▸ hperform.mem_of_error (Command.spelled_of_read hread) htoken⟩

end Machine

theorem Machine.Drawn.close {o : Options} {program : Program} {e : Ending}
    (h : e.machine.Drawn program) : (e.close o).machine.Drawn program := by
  rw [Ending.close]
  split
  · have hfinished : (e.machine.emit .finished).Drawn program := h.emit trivial
    exact hfinished.emit h.store
  · exact h

namespace Program.Ends

variable {o : Options} {program : Program} {e : Ending}

/-- What a run leaves behind comes from the program. -/
theorem drawn (h : program.Ends o e) : e.machine.Drawn program := by
  obtain ⟨e₀, he₀, rfl⟩ := ends_iff.1 h
  obtain ⟨final, hreach, ⟨-, rfl⟩ | ⟨fault, hs, -⟩⟩ := he₀.exists_last
  · exact (Machine.drawn_of_reaches hreach).close
  · exact (Machine.drawn_of_failed hreach hs).1.close

theorem exists_failing {fault : Fault} (h : program.Ends o e) (hfault : e.fault = some fault) :
    ∃ final last, program.start.Reaches o final ∧ final.step o = .failed fault last := by
  obtain ⟨e₀, he₀, rfl⟩ := ends_iff.1 h
  rw [Ending.fault_close] at hfault
  obtain ⟨final, hreach, hs⟩ := he₀.exists_failing hfault
  exact ⟨final, e₀.machine, hreach, hs⟩

/-- The token of a fault occurs in the program. -/
theorem mentions_of_fault {fault : Fault} {token : Text} (h : program.Ends o e)
    (hfault : e.fault = some fault) (htoken : fault.token? = some token) :
    program.Mentions token := by
  obtain ⟨final, last, hreach, hs⟩ := h.exists_failing hfault
  exact (Machine.drawn_of_failed hreach hs).2 token htoken

end Program.Ends

/-! ## Messages -/

namespace Program.Mentions

variable {program : Program} {token : Text}

theorem isBlank_eq_false (h : program.Mentions token) : ∀ point ∈ token, point.isBlank = false := by
  obtain ⟨statement, -, htoken⟩ := h
  exact (Text.ne_nil_and_not_blank_of_mem_words htoken).2

end Program.Mentions

theorem Diagnostic.isPlain_lineText (line : Option Int) : (lineText line).IsPlain := by
  cases line with
  | none => decide
  | some line => exact Text.isPlain_decimal line

/-- A message is plain up to the token at its end. -/
theorem Fault.exists_message (fault : Fault)
    (hlimit : ∀ line limit, fault = .stepLimit line limit → limit.IsPlain) :
    ∃ plain, plain.IsPlain ∧ fault.diagnostic.message = plain ++ fault.token?.getD [] := by
  have hline := Diagnostic.isPlain_lineText (some fault.line)
  cases fault with
  | missingOperand line =>
    exact ⟨_, .append (by decide) hline, (List.append_nil _).symm⟩
  | unterminatedBlock line =>
    exact ⟨_, .append (.append (by decide) hline) (by decide), (List.append_nil _).symm⟩
  | unexpectedToken line token | reservedToken line token | undefinedVariable line token =>
    exact ⟨_, .append (.append (by decide) hline) (by decide), rfl⟩
  | stepLimit line limit =>
    have hlimit : limit.IsPlain := hlimit line limit rfl
    exact ⟨_, .append (.append (.append (by decide) hlimit) (by decide)) hline,
      (List.append_nil _).symm⟩

/-- A spent budget is told as the options write it. -/
theorem Machine.limit_of_failed {o : Options} {m last : Machine} {line : Int} {text : Text}
    (hs : m.step o = .failed (.stepLimit line text) last) :
    ∃ limit ∈ o.limit, limit.text = text := by
  have ht := transition_of_step hs
  generalize hfault : Fault.stepLimit line text = fault at ht
  cases ht with
  | exhaust hcode hloops hget hvalue hbudget | cut hcode htokens hbudget =>
    cases hfault
    exact ⟨_, (exceeded?_eq_some.1 hbudget).1, rfl⟩
  | lose => cases hfault
  | reject hcode htokens hbudget hread =>
    exact absurd (hfault ▸ rfl) (Command.kind_ne_stepLimit_of_read hread)
  | fault hcode htokens hbudget hread hperform =>
    exact absurd (hfault ▸ rfl) hperform.kind_ne_stepLimit

/-- The message of a run that ends early is plain up to the token at its end. -/
theorem Program.Ends.exists_message {budget : Option Int} {trace : Bool} {program : Program}
    {e : Ending} {fault : Fault} (h : program.Ends (.ofBudget budget trace) e)
    (hfault : e.fault = some fault) :
    ∃ plain, plain.IsPlain ∧ fault.diagnostic.message = plain ++ fault.token?.getD [] := by
  obtain ⟨final, last, hreach, hs⟩ := h.exists_failing hfault
  apply fault.exists_message
  rintro line text rfl
  obtain ⟨limit, hlimit, rfl⟩ := Machine.limit_of_failed hs
  obtain ⟨steps, -, rfl⟩ := Option.map_eq_some_iff.1 hlimit
  exact Text.isPlain_decimal steps

end CounterLang
