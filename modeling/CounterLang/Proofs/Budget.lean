import CounterLang.Proofs.Runs

/-!
# Step budgets

A budget is looked at in one place only, where a step is counted, and there it either lets the
machine go on as it would without a budget or ends the run. So a wider budget changes nothing about
a run that does not spend the narrower one, and what a run has done when its budget is spent is what
any run with a wider budget has done at the same moment.

## Main definitions

* `Ending.Exhausted`: the run ended because its budget was spent.
* `Options.Narrower`: options that differ at most in that the second have a wider budget.
* `Machine.Counts`: the next transition of the machine counts a step.

## Main statements

* `Machine.Ends.of_narrower`: a run that does not spend its budget has the same ending under any
  wider budget.
* `Machine.Ends.exists_moment`: a run that spends its budget stops at a moment of the wider run.
* `Machine.Ends.steps_of_within`: how many steps a run within a budget counts.
-/

namespace CounterLang

/-- The run ended because its budget was spent. -/
def Ending.Exhausted (e : Ending) : Prop := e.fault.map Fault.kind = some .stepLimit

instance (e : Ending) : Decidable e.Exhausted :=
  inferInstanceAs (Decidable (e.fault.map Fault.kind = some .stepLimit))

/-- The options of a run with a budget of so many steps, or with none. -/
def Options.ofBudget (budget : Option Int) (trace : Bool) : Options :=
  { limit := budget.map .ofInt, trace }

/-- The second options have a budget that is no narrower, and are the same otherwise. -/
structure Options.Narrower (o o' : Options) : Prop where
  /-- Both or none emit a trace. -/
  trace : o.trace = o'.trace
  /-- Where the second options set a budget, the first set one that is no wider. -/
  limit : ∀ wide ∈ o'.limit, ∃ narrow ∈ o.limit, narrow.steps ≤ wide.steps

theorem Options.Narrower.refl (o : Options) : o.Narrower o where
  trace := rfl
  limit := fun wide hwide => ⟨wide, hwide, Int.le_refl _⟩

theorem Options.narrower_ofBudget {n : Int} {wider : Option Int} (trace : Bool)
    (h : ∀ m ∈ wider, n ≤ m) : (ofBudget (some n) trace).Narrower (ofBudget wider trace) where
  trace := rfl
  limit := by
    intro wide hwide
    obtain ⟨m, hm, rfl⟩ := Option.map_eq_some_iff.1 hwide
    exact ⟨.ofInt n, rfl, h m hm⟩

/-- What is wrong with the tokens of a statement has nothing to do with a budget. -/
theorem Command.kind_ne_stepLimit_of_read {store : Store} {line : Int} {word : Text}
    {operands : List Text} {fault : Fault} (h : read store line word operands = .error fault) :
    fault.kind ≠ .stepLimit := by
  cases faulty_of_read h <;> simp [Fault.kind]

namespace Machine

variable {o o' : Options} {m next last : Machine} {limit : Limit} {fault : Fault} {e : Ending}

theorem Performance.kind_ne_stepLimit {line : Int} {rest : Program} {restLine : Int}
    {command : Command} (h : m.Performance line rest restLine command (.error fault)) :
    fault.kind ≠ .stepLimit := by
  cases h <;> simp [Fault.kind]

theorem exceeded?_eq_some : m.exceeded? o = some limit ↔
    o.limit = some limit ∧ limit.steps < m.steps := by
  simp only [exceeded?]
  cases o.limit with
  | none => simp
  | some other =>
    simp only [Option.some.injEq]
    split
    · constructor
      · rintro ⟨⟩
        exact ⟨rfl, ‹_›⟩
      · rintro ⟨rfl, -⟩
        rfl
    · constructor
      · rintro ⟨⟩
      · rintro ⟨rfl, hlt⟩
        contradiction

theorem exceeded?_eq_none : m.exceeded? o = none ↔ ∀ limit ∈ o.limit, m.steps ≤ limit.steps := by
  rw [Option.eq_none_iff_forall_ne_some]
  simp only [ne_eq, exceeded?_eq_some, Option.mem_def, not_and, Int.not_lt]

/-! ## A wider budget -/

/-- A budget that lets a step be counted lets it be counted when it is wider. -/
theorem exceeded?_of_narrower (h : o.Narrower o') (hm : m.exceeded? o = none) :
    m.exceeded? o' = none := by
  rw [exceeded?_eq_none] at hm ⊢
  intro wide hwide
  obtain ⟨narrow, hnarrow, hle⟩ := h.limit wide hwide
  exact Int.le_trans (hm narrow hnarrow) hle

/-- Options take part in a transition only by the trace and by what is left of the budget. -/
theorem step_congr (htrace : o.trace = o'.trace)
    (hbudget : m.tick.exceeded? o = m.tick.exceeded? o') : m.step o = m.step o' := by
  simp only [step, iterate, count, announce, hbudget, htrace]

/-- Without the budget's being spent, a transition is the same under a wider one. -/
theorem step_of_narrower (h : o.Narrower o')
    (hkind : ∀ fault last, m.step o = .failed fault last → fault.kind ≠ .stepLimit) :
    m.step o' = m.step o := by
  cases hbudget : m.tick.exceeded? o with
  | none =>
    exact (step_congr h.trace (hbudget.trans (exceeded?_of_narrower h hbudget).symm)).symm
  | some limit =>
    have ht := m.transition o
    generalize hs : m.step o = outcome at ht hkind
    cases ht with
    | finish hcode hloops => simp only [step, hcode, hloops]
    | lose hcode hloops hget => simp only [step_of_loops hcode hloops, iterate, hget]
    | leave hcode hloops hget => simp only [step_of_loops hcode hloops, iterate, hget, if_true]
    | skip hcode htokens => exact step_of_tokens_eq_nil hcode htokens
    | exhaust | cut => exact absurd rfl (hkind _ _ rfl)
    | again _ _ _ _ hnone | reject _ _ hnone | fault _ _ hnone | perform _ _ hnone =>
      simp [hbudget] at hnone

/-- A run that does not spend its budget has the same ending under any wider budget. -/
theorem Ends.of_narrower (he : m.Ends o e) (h : o.Narrower o') (hx : ¬ e.Exhausted) :
    m.Ends o' e := by
  induction he with
  | finished hs =>
    exact .finished ((step_of_narrower h (by simp [hs])).trans hs)
  | failed hs =>
    refine .failed ((step_of_narrower h ?_).trans hs)
    rintro fault last hf
    obtain ⟨rfl, rfl⟩ := Outcome.failed.inj (hs.symm.trans hf)
    simpa [Ending.Exhausted] using hx
  | running hs _ ih =>
    exact .running ((step_of_narrower h (by simp [hs])).trans hs) (ih hx)

/-! ## A spent budget -/

/-- The next transition of the machine counts a step. -/
inductive Counts (m : Machine) : Prop where
  | statement {statement : Statement} {rest : Program} (hcode : m.code = statement :: rest)
      (htokens : Statement.tokens statement ≠ [])
  | loop {loop : Loop} {outer : List Loop} {value : Int} (hcode : m.code = [])
      (hloops : m.loops = loop :: outer) (hget : m.store.get? loop.guard = some value)
      (hvalue : value ≠ 0)

/-- When a budget is spent the step is counted and nothing else happens. -/
theorem step_eq_stepLimit (hs : m.step o = .failed fault last) (hkind : fault.kind = .stepLimit) :
    last = m.tick ∧ m.Counts ∧ ∃ limit ∈ o.limit, limit.steps ≤ m.steps := by
  cases transition_of_step hs with
  | lose => simp [Fault.kind] at hkind
  | reject _ _ _ hread => exact absurd hkind (Command.kind_ne_stepLimit_of_read hread)
  | fault _ _ _ _ hperform => exact absurd hkind hperform.kind_ne_stepLimit
  | exhaust hcode hloops hget hvalue hbudget =>
    obtain ⟨hlimit, hlt⟩ := exceeded?_eq_some.1 hbudget
    exact ⟨rfl, .loop hcode hloops hget hvalue, _, hlimit, Int.lt_add_one_iff.1 hlt⟩
  | cut hcode htokens hbudget =>
    obtain ⟨hlimit, hlt⟩ := exceeded?_eq_some.1 hbudget
    exact ⟨rfl, .statement hcode (by simp [htokens]), _, hlimit, Int.lt_add_one_iff.1 hlt⟩

/-- A step that is about to be counted is counted, whatever becomes of the run. -/
theorem Counts.steps_lt (hm : m.Counts) (he : m.Ends o e) : m.steps < e.machine.steps := by
  cases he with
  | finished hs =>
    cases transition_of_step hs with
    | finish hcode hloops => cases hm <;> simp_all
  | failed hs =>
    cases transition_of_step hs with
    | lose hcode hloops hget => cases hm <;> simp_all
    | exhaust | cut | reject | fault => simp
  | running hs he =>
    refine Nat.lt_of_lt_of_le ?_ he.steps_le
    cases transition_of_step hs with
    | leave hcode hloops hget => cases hm <;> simp_all
    | skip hcode htokens => cases hm <;> simp_all
    | again => simp
    | perform _ _ _ _ hperform => simp [hperform.steps]

/-- A run that spends its budget stops at a moment of the run under a wider budget, where the next
step is about to be counted. -/
theorem Ends.exists_moment (he : m.Ends o e) (h : o.Narrower o') (hx : e.Exhausted) :
    ∃ moment, m.Reaches o' moment ∧ moment.Counts ∧ e.machine = moment.tick ∧
      ∃ limit ∈ o.limit, limit.steps ≤ moment.steps := by
  induction he with
  | finished => simp [Ending.Exhausted] at hx
  | @failed m last fault hs =>
    obtain ⟨hlast, hcounts, hlimit⟩ := step_eq_stepLimit hs (by simpa [Ending.Exhausted] using hx)
    exact ⟨m, .refl, hcounts, hlast, hlimit⟩
  | running hs _ ih =>
    obtain ⟨moment, hreach, hrest⟩ := ih hx
    exact ⟨moment, .head ((step_of_narrower h (by simp [hs])).trans hs) hreach, hrest⟩

/-- Without a budget there is none to be spent. -/
theorem Ends.not_exhausted (he : m.Ends o e) (hl : o.limit = none) : ¬ e.Exhausted := by
  intro hx
  obtain ⟨_, -, -, -, limit, hlimit, -⟩ := he.exists_moment (.refl o) hx
  rw [hl] at hlimit
  cases hlimit

/-! ## The steps that a budget allows -/

/-- A machine that has not counted more steps than its budget allows. -/
def Within (limit : Limit) (m : Machine) : Prop := (m.steps : Int) ≤ max limit.steps 0

theorem within_of_running (hl : o.limit = some limit) (hm : m.Within limit)
    (hs : m.step o = .running next) : next.Within limit := by
  cases transition_of_step hs with
  | leave | skip => exact hm
  | again _ _ _ _ hbudget =>
    exact Int.le_trans (exceeded?_eq_none.1 hbudget limit hl) (Int.le_max_left _ _)
  | perform _ _ hbudget _ hperform =>
    rw [Within, hperform.steps, steps_arrive]
    exact Int.le_trans (exceeded?_eq_none.1 hbudget limit hl) (Int.le_max_left _ _)

/-- A run within a budget counts no step beyond it, but for the one that spends it. -/
theorem Ends.steps_of_within (hl : o.limit = some limit) (he : m.Ends o e) (hm : m.Within limit) :
    (e.machine.steps : Int) = max limit.steps 0 + 1 ∧ e.Exhausted ∨
      (e.machine.steps : Int) ≤ max limit.steps 0 ∧ ¬ e.Exhausted := by
  induction he with
  | finished => exact .inr ⟨hm, by simp [Ending.Exhausted]⟩
  | running hs _ ih => exact ih (within_of_running hl hm hs)
  | @failed m last fault hs =>
    have hx : ∀ e : Ending, e.fault = some fault → (e.Exhausted ↔ fault.kind = .stepLimit) := by
      intro e he
      simp [Ending.Exhausted, he]
    rw [hx _ rfl]
    by_cases hkind : fault.kind = .stepLimit
    · obtain ⟨rfl, -, limit', hl', hle⟩ := step_eq_stepLimit hs hkind
      obtain rfl : limit = limit' := Option.some.inj (hl.symm.trans hl')
      refine .inl ⟨?_, hkind⟩
      simp only [Within, steps_tick] at hm ⊢
      omega
    · refine .inr ⟨?_, hkind⟩
      cases transition_of_step hs with
      | lose => exact hm
      | exhaust | cut => simp [Fault.kind] at hkind
      | reject _ _ hbudget | fault _ _ hbudget =>
        rw [steps_arrive]
        exact Int.le_trans (exceeded?_eq_none.1 hbudget limit hl) (Int.le_max_left _ _)

/-! ## What has been emitted -/

theorem trace_prefix {m m' : Machine} (h : m.log <:+ m'.log) : m.trace <+: m'.trace :=
  (List.reverse_prefix.2 h).filterMap _

theorem output_prefix {m m' : Machine} (h : m.log <:+ m'.log) : m.output <+: m'.output :=
  (List.reverse_prefix.2 h).filterMap _

end Machine

namespace Ending

variable (o : Options) (e : Ending)

@[simp] theorem steps_close : (e.close o).machine.steps = e.machine.steps := by
  simp only [close]
  split <;> rfl

@[simp] theorem fault_close : (e.close o).fault = e.fault := by
  simp only [close]
  split <;> rfl

@[simp] theorem exhausted_close : (e.close o).Exhausted ↔ e.Exhausted := by
  simp only [Exhausted, fault_close]

theorem log_suffix_close : e.machine.log <:+ (e.close o).machine.log := by
  simp only [close]
  split
  · exact ⟨[.snapshot e.machine.store, .finished], rfl⟩
  · exact List.suffix_rfl

/-- A run that stops early has no closing lines. -/
theorem Exhausted.close_eq {e : Ending} (h : e.Exhausted) : e.close o = e := by
  cases hf : e.fault with
  | none => simp [Exhausted, hf] at h
  | some fault => simp [close, hf]

end Ending

namespace Program

variable {program : Program} {trace : Bool} {n : Int} {wider : Option Int} {e e' : Ending}

theorem exists_ends_ofBudget (program : Program) (trace : Bool) (n : Int) :
    ∃ e, program.Ends (.ofBudget (some n) trace) e :=
  ⟨_, ends_iff.2 ⟨_, Machine.ends_finish (.ofInt n) trace program.start, rfl⟩⟩

/-- The closing lines do not depend on the budget. -/
theorem close_ofBudget (e : Ending) (budget wider : Option Int) (trace : Bool) :
    e.close (.ofBudget budget trace) = e.close (.ofBudget wider trace) := rfl

theorem Ends.of_wider (hle : ∀ m ∈ wider, n ≤ m) (he : program.Ends (.ofBudget (some n) trace) e)
    (hx : ¬ e.Exhausted) : program.Ends (.ofBudget wider trace) e := by
  obtain ⟨e₀, he₀, rfl⟩ := ends_iff.1 he
  rw [Ending.exhausted_close] at hx
  have hwide := he₀.of_narrower (Options.narrower_ofBudget trace hle) hx
  exact ends_iff.2 ⟨e₀, hwide, close_ofBudget e₀ wider (some n) trace⟩

/-- A spent budget leaves the machine at a moment of the run under a wider budget, one counted step
ahead of it. -/
theorem Ends.exists_moment (hle : ∀ m ∈ wider, n ≤ m)
    (he : program.Ends (.ofBudget (some n) trace) e) (hx : e.Exhausted) :
    ∃ moment, program.start.Reaches (.ofBudget wider trace) moment ∧ moment.Counts ∧
      e.machine = moment.tick ∧ n ≤ moment.steps := by
  obtain ⟨e₀, he₀, rfl⟩ := ends_iff.1 he
  rw [Ending.exhausted_close] at hx
  obtain ⟨moment, hreach, hcounts, hlast, limit, hlimit, hsteps⟩ :=
    he₀.exists_moment (Options.narrower_ofBudget trace hle) hx
  obtain rfl : Limit.ofInt n = limit := Option.some.inj hlimit
  refine ⟨moment, hreach, hcounts, ?_, hsteps⟩
  rw [hx.close_eq, hlast]

/-- What has been emitted at a moment of a run, the whole run emits first. -/
theorem Ends.log_suffix {o : Options} {moment : Machine} (he : program.Ends o e)
    (hreach : program.start.Reaches o moment) : moment.log <:+ e.machine.log := by
  obtain ⟨e₀, he₀, rfl⟩ := ends_iff.1 he
  exact (hreach.ends_iff.1 he₀).log_suffix.trans (e₀.log_suffix_close o)

/-- A step that is about to be counted at a moment of a run is among those that the run counts. -/
theorem Ends.steps_lt {o : Options} {moment : Machine} (he : program.Ends o e)
    (hreach : program.start.Reaches o moment) (hcounts : moment.Counts) :
    moment.steps < e.machine.steps := by
  obtain ⟨e₀, he₀, rfl⟩ := ends_iff.1 he
  rw [Ending.steps_close]
  exact hcounts.steps_lt (hreach.ends_iff.1 he₀)

theorem Ends.not_exhausted (he : program.Ends (.ofBudget none trace) e) : ¬ e.Exhausted := by
  obtain ⟨e₀, he₀, rfl⟩ := ends_iff.1 he
  rw [Ending.exhausted_close]
  exact he₀.not_exhausted rfl

/-- The steps that the run of a program within a budget counts. -/
theorem Ends.steps_of_budget (he : program.Ends (.ofBudget (some n) trace) e) :
    (e.machine.steps : Int) = max n 0 + 1 ∧ e.Exhausted ∨
      (e.machine.steps : Int) ≤ max n 0 ∧ ¬ e.Exhausted := by
  obtain ⟨e₀, he₀, rfl⟩ := ends_iff.1 he
  rw [Ending.steps_close, Ending.exhausted_close]
  have hwithin : program.start.Within (.ofInt n) := Int.le_max_right n 0
  exact he₀.steps_of_within rfl hwithin

/-- A step budget only cuts a run short, and the steps that the run would count are the threshold.
Where the run with budget `n` does not spend it, the run with any wider budget, or with none, has
the same ending. Where it does, its trace and output have been emitted at some moment of the wider
run and so are prefixes of what that emits, and the wider run counts more than `n` steps if it ends.
A run that ends without a budget is therefore reproduced by the budgets of at least as many steps as
it counts and by no others, and every smaller budget is spent. -/
theorem ends_ofBudget (program : Program) (trace : Bool) (n : Int) (wider : Option Int)
    (hle : ∀ m ∈ wider, n ≤ m) :
    (∃ e, program.Ends (.ofBudget (some n) trace) e ∧
      (¬ e.Exhausted → program.Ends (.ofBudget wider trace) e) ∧
      (e.Exhausted →
        (∃ moment, program.start.Reaches (.ofBudget wider trace) moment ∧
          moment.trace = e.machine.trace ∧ moment.output = e.machine.output) ∧
        ∀ e', program.Ends (.ofBudget wider trace) e' →
          e.machine.trace <+: e'.machine.trace ∧ e.machine.output <+: e'.machine.output ∧
            n < e'.machine.steps)) ∧
    ∀ e, program.Ends (.ofBudget none trace) e → 0 ≤ n →
      (program.Ends (.ofBudget (some n) trace) e ↔ e.machine.steps ≤ n) ∧
      (n < e.machine.steps →
        ∃ cut, program.Ends (.ofBudget (some n) trace) cut ∧ cut.Exhausted) := by
  obtain ⟨e, he⟩ := exists_ends_ofBudget program trace n
  refine ⟨⟨e, he, he.of_wider hle, fun hx => ?_⟩, fun whole hwhole hn => ?_⟩
  · obtain ⟨moment, hreach, hcounts, hlast, hsteps⟩ := he.exists_moment hle hx
    have hlog : e.machine.log = moment.log := by rw [hlast]; rfl
    refine ⟨⟨moment, hreach, ?_, ?_⟩, fun e' he' => ⟨?_, ?_, ?_⟩⟩
    · simp only [Machine.trace, hlog]
    · simp only [Machine.output, hlog]
    · exact Machine.trace_prefix (hlog ▸ he'.log_suffix hreach)
    · exact Machine.output_prefix (hlog ▸ he'.log_suffix hreach)
    · have := he'.steps_lt hreach hcounts
      omega
  · have hnone : ∀ m ∈ (none : Option Int), n ≤ m := by simp
    rcases he.steps_of_budget with ⟨-, hx⟩ | ⟨hsteps, hx⟩
    · obtain ⟨moment, hreach, hcounts, -, hmoment⟩ := he.exists_moment hnone hx
      have := hwhole.steps_lt hreach hcounts
      refine ⟨iff_of_false (fun hsame => ?_) (by omega), fun _ => ⟨e, he, hx⟩⟩
      obtain rfl := hsame.unique he
      exact hwhole.not_exhausted hx
    · obtain rfl := hwhole.unique (he.of_wider hnone hx)
      exact ⟨iff_of_true he (by omega), fun hlt => by omega⟩

/-- Counts one variable down from two and another one up. -/
def countdown : Program :=
  ofSource "clear x; incr x; incr x; clear y; while x not 0 do; incr y; decr x; end; print y"

/-- The countdown takes twelve steps: a budget of twelve reproduces its run, and with a budget of
eleven the run stops before the last statement. -/
theorem ends_ofBudget_countdown :
    (∀ m ∈ some (12 : Int), (11 : Int) ≤ m) ∧
    ∃ e cut, countdown.Ends (.ofBudget none true) e ∧ e.machine.steps = 12 ∧
      countdown.Ends (.ofBudget (some 12) true) e ∧
      countdown.Ends (.ofBudget (some 11) true) cut ∧ cut.Exhausted ∧
      cut.machine.trace <+: e.machine.trace ∧ 11 < e.machine.steps := by
  have hle : ∀ m ∈ some (12 : Int), (11 : Int) ≤ m := by simp
  have hrun : (countdown.run? 40 (.ofBudget none true)).map (·.machine.steps) = some 12 := by
    decide +kernel
  obtain ⟨e, he, hsteps⟩ := Option.map_eq_some_iff.1 hrun
  have hwhole := ((ends_ofBudget countdown true 12 none (by simp)).2 e ⟨40, he⟩ (by decide)).1.2
    (by omega)
  obtain ⟨⟨cut, hcut, -, hx⟩, hless⟩ := ends_ofBudget countdown true 11 (some 12) hle
  obtain ⟨spent, hspent, hexhausted⟩ := (hless e ⟨40, he⟩ (by decide)).2 (by omega)
  obtain rfl := hspent.unique hcut
  obtain ⟨htrace, -, hlt⟩ := (hx hexhausted).2 e hwhole
  exact ⟨hle, e, spent, ⟨40, he⟩, hsteps, hwhole, hspent, hexhausted, htrace, by omega⟩

end Program

end CounterLang
