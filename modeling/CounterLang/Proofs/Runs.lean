import CounterLang.Proofs.Transitions
import Mathlib.Logic.Relation

/-!
# Runs and their endings

`Machine.runFor` and `Machine.finish` compute the ending of a run. Here the same is said without a
bound on the number of transitions: what a machine comes to, and how a run from it ends. A run that
has no ending goes on for ever.

## Main definitions

* `Machine.Reaches`: a machine comes to another one.
* `Machine.Ends`: the run from a machine ends so.
* `Program.Ends`: the run of a whole program from the empty store ends so.
* `Machine.Outcome.bimap`, `Ending.bimap`: functions applied to the fault and to the machine.

## Main statements

* `Machine.ends_iff_runFor`, `Machine.ends_finish`: both computations give the ending.
* `Machine.Ends.unique`: a run has one ending at most.
* `Machine.ends_bimap_iff`: a function that goes well with transitions goes well with runs.
* `Machine.Ends.log_suffix`: what a run has emitted stays emitted.
* `Machine.Reaches.of_steps_lt`: the steps that are counted order what a run comes to.
-/

namespace CounterLang

/-- The ending with functions applied to its fault and to its machine. -/
def Ending.bimap (g : Fault → Fault) (f : Machine → Machine) (e : Ending) : Ending where
  machine := f e.machine
  fault := e.fault.map g

namespace Machine

/-- A machine comes to another one in some number of transitions. -/
def Reaches (o : Options) : Machine → Machine → Prop :=
  Relation.ReflTransGen fun m next => m.step o = .running next

/-- The run from a machine ends so. -/
inductive Ends (o : Options) : Machine → Ending → Prop where
  | finished {m : Machine} (h : m.step o = .finished) : Ends o m { machine := m }
  | failed {m last : Machine} {fault : Fault} (h : m.step o = .failed fault last) :
      Ends o m { machine := last, fault := some fault }
  | running {m next : Machine} {e : Ending} (h : m.step o = .running next) (he : Ends o next e) :
      Ends o m e

variable {o : Options} {m next : Machine} {e e' : Ending}

theorem ends_of_runFor {fuel : Nat} (h : m.runFor o fuel = some e) : m.Ends o e := by
  induction fuel generalizing m with
  | zero => cases h
  | succ fuel ih =>
    simp only [runFor] at h
    split at h
    · exact .running ‹_› (ih h)
    · cases h
      exact .finished ‹_›
    · cases h
      exact .failed ‹_›

theorem Ends.exists_runFor (h : m.Ends o e) : ∃ fuel, m.runFor o fuel = some e := by
  induction h with
  | finished h => exact ⟨1, by simp [runFor, h]⟩
  | failed h => exact ⟨1, by simp [runFor, h]⟩
  | running h _ ih =>
    obtain ⟨fuel, hf⟩ := ih
    exact ⟨fuel + 1, by simp [runFor, h, hf]⟩

theorem ends_iff_runFor : m.Ends o e ↔ ∃ fuel, m.runFor o fuel = some e :=
  ⟨Ends.exists_runFor, fun ⟨_, h⟩ => ends_of_runFor h⟩

/-- Within a budget a run always ends, and `finish` computes the ending. -/
theorem ends_finish (limit : Limit) (trace : Bool) (m : Machine) :
    m.Ends { limit := some limit, trace } (m.finish limit trace) := by
  fun_induction finish limit trace m with
  | case1 m next h ih => exact .running h ih
  | case2 m h => exact .finished h
  | case3 m fault last h => exact .failed h

/-- A run has one ending at most. -/
theorem Ends.unique (h : m.Ends o e) (h' : m.Ends o e') : e = e' := by
  induction h with
  | finished h => cases h' <;> simp_all
  | failed h => cases h' <;> simp_all
  | running h _ ih =>
    cases h' with
    | finished h2 => simp [h] at h2
    | failed h2 => simp [h] at h2
    | running h2 he2 =>
      rw [h, Outcome.running.injEq] at h2
      exact ih (h2 ▸ he2)

theorem Ends.of_running (h : m.Ends o e) (hs : m.step o = .running next) : next.Ends o e := by
  cases h with
  | finished h => simp [h] at hs
  | failed h => simp [h] at hs
  | running h he =>
    rw [h, Outcome.running.injEq] at hs
    exact hs ▸ he

/-- The ending of a run is that of any machine that it comes to. -/
theorem Reaches.ends_iff (h : m.Reaches o next) : m.Ends o e ↔ next.Ends o e := by
  induction h with
  | refl => rfl
  | tail _ hs ih => exact ih.trans ⟨fun he => he.of_running hs, .running hs⟩

theorem ends_iff_of_limit {limit : Limit} {trace : Bool} :
    m.Ends { limit := some limit, trace } e ↔ e = m.finish limit trace :=
  ⟨fun h => h.unique (ends_finish limit trace m), fun h => h ▸ ends_finish limit trace m⟩

theorem exists_run?_iff : (∃ fuel, m.run? fuel o = some e) ↔ m.Ends o e := by
  obtain ⟨limit, trace⟩ := o
  cases limit with
  | none => exact ends_iff_runFor.symm
  | some limit => simp only [run?, Option.some.injEq, exists_const, ends_iff_of_limit, eq_comm]

/-! ## Runs with a function applied -/

/-- The outcome with functions applied to its fault and to the machine that it leads to. -/
def Outcome.bimap (g : Fault → Fault) (f : Machine → Machine) : Outcome → Outcome
  | .running next => .running (f next)
  | .finished => .finished
  | .failed fault last => .failed (g fault) (f last)

theorem Outcome.map_eq_bimap (f : Machine → Machine) (outcome : Outcome) :
    outcome.map f = outcome.bimap id f := by
  cases outcome <;> rfl

/-- Where a function takes each transition to a transition, it takes each run to a run. -/
theorem ends_bimap_iff {o' : Options} {g : Fault → Fault} {f : Machine → Machine}
    (hstep : ∀ m, (f m).step o' = (m.step o).bimap g f) :
    (f m).Ends o' e ↔ ∃ e', m.Ends o e' ∧ e = e'.bimap g f := by
  have hends : ∀ {m e}, m.Ends o e → (f m).Ends o' (e.bimap g f) := by
    intro m e he
    induction he with
    | @finished m hs => exact .finished (by rw [hstep, hs, Outcome.bimap])
    | @failed m last fault hs => exact .failed (by rw [hstep, hs, Outcome.bimap])
    | @running m next e hs _ ih => exact .running (by rw [hstep, hs, Outcome.bimap]) ih
  have hexists : ∀ {moment e}, moment.Ends o' e → ∀ m, f m = moment → ∃ e', m.Ends o e' := by
    intro moment e he
    induction he with
    | finished hs =>
      rintro m rfl
      rw [hstep] at hs
      cases hm : m.step o with
      | finished => exact ⟨_, .finished hm⟩
      | running | failed => simp [hm, Outcome.bimap] at hs
    | failed hs =>
      rintro m rfl
      rw [hstep] at hs
      cases hm : m.step o with
      | failed => exact ⟨_, .failed hm⟩
      | running | finished => simp [hm, Outcome.bimap] at hs
    | running hs _ ih =>
      rintro m rfl
      rw [hstep] at hs
      cases hm : m.step o with
      | finished | failed => simp [hm, Outcome.bimap] at hs
      | running next =>
        rw [hm, Outcome.bimap, Outcome.running.injEq] at hs
        obtain ⟨e', he'⟩ := ih next hs
        exact ⟨e', .running hm he'⟩
  constructor
  · intro he
    obtain ⟨e', he'⟩ := hexists he m rfl
    exact ⟨e', he', he.unique (hends he')⟩
  · rintro ⟨e', he', rfl⟩
    exact hends he'

/-! ## What a run leaves as it is -/

/-- A transition is one of a machine with an empty log, with the old log behind what is new. -/
theorem step_eq_map_behind (m : Machine) (o : Options) :
    m.step o = ({ m with log := [] }.step o).map (·.behind m.log) := by
  rw [← step_behind]
  rfl

/-- A run does not look at what has been logged before. -/
theorem ends_behind_iff {past : List Event} : (m.behind past).Ends o e ↔
    ∃ e', m.Ends o e' ∧ e = e'.bimap id (·.behind past) :=
  ends_bimap_iff (f := (·.behind past)) fun m =>
    (m.step_behind past o).trans (Outcome.map_eq_bimap _ _)

theorem log_suffix_of_running (h : m.step o = .running next) : m.log <:+ next.log := by
  rw [step_eq_map_behind] at h
  cases hs : ({ m with log := [] } : Machine).step o with
  | running fresh =>
    rw [hs, Outcome.map, Outcome.running.injEq] at h
    exact ⟨fresh.log, h ▸ rfl⟩
  | finished | failed => simp [hs, Outcome.map] at h

theorem log_suffix_of_failed {fault : Fault} (h : m.step o = .failed fault next) :
    m.log <:+ next.log := by
  rw [step_eq_map_behind] at h
  cases hs : ({ m with log := [] } : Machine).step o with
  | failed fault last =>
    rw [hs, Outcome.map, Outcome.failed.injEq] at h
    exact ⟨last.log, h.2 ▸ rfl⟩
  | finished | running => simp [hs, Outcome.map] at h

/-- What a run has emitted stays emitted. -/
theorem Ends.log_suffix (h : m.Ends o e) : m.log <:+ e.machine.log := by
  induction h with
  | finished => exact List.suffix_rfl
  | failed h => exact log_suffix_of_failed h
  | running h _ ih => exact (log_suffix_of_running h).trans ih

/-- A transition that fails leaves the store as it is. -/
theorem store_of_failed {fault : Fault} (h : m.step o = .failed fault next) :
    next.store = m.store := by
  cases transition_of_step h with
  | lose | exhaust | cut => rfl
  | reject | fault => exact store_arrive m o _

/-- A command counts no step. -/
theorem Performance.steps {line : Int} {rest : Program} {restLine : Int} {command : Command}
    (h : m.Performance line rest restLine command (.ok next)) : next.steps = m.steps := by
  cases h <;> rfl

theorem steps_le_of_running (h : m.step o = .running next) : m.steps ≤ next.steps := by
  cases transition_of_step h with
  | leave | skip => exact Nat.le_refl _
  | again => exact Nat.le_succ _
  | perform _ _ _ _ hperform =>
    rw [hperform.steps, steps_arrive]
    exact Nat.le_succ _

theorem steps_le_of_failed {fault : Fault} (h : m.step o = .failed fault next) :
    m.steps ≤ next.steps := by
  cases transition_of_step h with
  | lose => exact Nat.le_refl _
  | exhaust | cut => exact Nat.le_succ _
  | reject | fault => simp

/-- A step that a run has counted stays counted. -/
theorem Ends.steps_le (h : m.Ends o e) : m.steps ≤ e.machine.steps := by
  induction h with
  | finished => exact Nat.le_refl _
  | failed h => exact steps_le_of_failed h
  | running h _ ih => exact Nat.le_trans (steps_le_of_running h) ih

theorem Reaches.log_suffix (h : m.Reaches o next) : m.log <:+ next.log := by
  induction h with
  | refl => exact List.suffix_rfl
  | tail _ hs ih => exact ih.trans (log_suffix_of_running hs)

theorem Reaches.steps_le (h : m.Reaches o next) : m.steps ≤ next.steps := by
  induction h with
  | refl => exact Nat.le_refl _
  | tail _ hs ih => exact Nat.le_trans ih (steps_le_of_running hs)

/-- Of two machines that a run comes to, it comes to the one with fewer steps first. -/
theorem Reaches.of_steps_lt {last : Machine} (h : m.Reaches o next) (h' : m.Reaches o last)
    (hlt : next.steps < last.steps) : next.Reaches o last := by
  have hunique : Relator.RightUnique fun m next : Machine => m.step o = .running next :=
    fun _ _ _ hs hs' => Outcome.running.inj (hs.symm.trans hs')
  rcases Relation.ReflTransGen.total_of_right_unique hunique h h' with hle | hge
  · exact hle
  · exact absurd (Reaches.steps_le hge) (Nat.not_le.2 hlt)

end Machine

/-! ## Whole programs -/

namespace Program

/-- The run of a program from the empty store ends so. -/
def Ends (o : Options) (program : Program) (e : Ending) : Prop :=
  ∃ fuel, program.run? fuel o = some e

variable {o : Options} {program : Program} {e : Ending}

/-- The run of a program is that of its machine, with the closing lines of the trace. -/
theorem ends_iff : program.Ends o e ↔ ∃ e₀, program.start.Ends o e₀ ∧ e₀.close o = e := by
  simp only [Ends, run?, Option.map_eq_some_iff]
  rw [exists_comm]
  simp only [exists_and_right, Machine.exists_run?_iff]

theorem ends_of_runFor? {fuel : Nat} (h : program.runFor? fuel o = some e) : program.Ends o e := by
  obtain ⟨e₀, he₀, rfl⟩ := Option.map_eq_some_iff.1 h
  exact ends_iff.2 ⟨e₀, Machine.ends_of_runFor he₀, rfl⟩

theorem Ends.unique {e' : Ending} (h : program.Ends o e) (h' : program.Ends o e') : e = e' := by
  obtain ⟨e₀, he₀, rfl⟩ := ends_iff.1 h
  obtain ⟨e₁, he₁, rfl⟩ := ends_iff.1 h'
  rw [he₀.unique he₁]

end Program

end CounterLang
