import CounterLang.Proofs.Alike

/-!
# Layout

Two programs that have the same phrases, but for the blanks inside them and the lines they are on,
do the same. A run of one is followed by the run of the other, which passes over blank statements of
its own wherever it comes to some: before, after and between statements, behind the header of a loop
and before its `end`.

## Main definitions

* `Verdict.Corresponds`: two runs ended the same way and show the same in another layout.
* `Program.Counterparts`: the lines of the statements that come at the same place in two programs,
  blank ones not counted.

## Main statements

* `Machine.Ends.alike`: a run ends if it ends in another layout, and it ends the same way.
* `Machine.Gives.alike`: so does an execution, if the lines are written.
* `Program.layout_irrelevant`: what this says about whole programs.
-/

namespace CounterLang

variable {R : Int → Int → Prop}

namespace Machine

variable {m n : Machine} {o : Options}

/-! ## Runs -/

/-- A transition either passes over a blank statement, or the other machine makes one like it when
it has passed over its own. -/
theorem Alike.step (h : m.Alike R n) (o : Options) :
    (∃ next, m.step o = .running next ∧ next.Alike R n) ∨
      (m.step o).Alike R (n.settle.step o) := by
  rcases h.settled_or_skip with ⟨hm, hsettle⟩ | ⟨statement, rest, hcode, hblank, hskip⟩
  · exact .inr (step_alike hsettle hm n.settled_settle)
  · exact .inl ⟨_, step_of_tokens_eq_nil hcode (List.isEmpty_iff.1 hblank), hskip⟩

/-- A run ends if it ends in another layout, and it ends the same way. -/
theorem Ends.alike {e : Ending} (he : m.Ends o e) (h : m.Alike R n) :
    ∃ e', n.Ends o e' ∧ e.verdict.Alike R e'.verdict := by
  have hsettle : ∀ {n : Machine} {e'}, n.settle.Ends o e' → n.Ends o e' :=
    fun {n _} he' => (gives_settle n o).reaches.ends_iff.2 he'
  induction he generalizing n with
  | @finished m hs =>
    rcases h.step o with ⟨next, hnext, -⟩ | hstep
    · simp [hs] at hnext
    · rw [hs] at hstep
      generalize hn : n.settle.step o = outcome at hstep
      cases hstep
      exact ⟨_, hsettle (.finished hn), h.account, .none⟩
  | @failed m last fault hs =>
    rcases h.step o with ⟨next, hnext, -⟩ | hstep
    · simp [hs] at hnext
    · rw [hs] at hstep
      generalize hn : n.settle.step o = outcome at hstep
      cases hstep with
      | failed hfault hlast =>
        exact ⟨_, hsettle (.failed hn), hlast.account, .some (.fault hfault)⟩
  | @running m next e hs _ ih =>
    rcases h.step o with ⟨other, hother, halike⟩ | hstep
    · rw [hs, Outcome.running.injEq] at hother
      exact ih (hother ▸ halike)
    · rw [hs] at hstep
      generalize hn : n.settle.step o = outcome at hstep
      cases hstep with
      | running hnext =>
        obtain ⟨e', he', halike⟩ := ih hnext
        exact ⟨e', hsettle (.running hn he'), halike⟩

end Machine

/-! ## Executions -/

section Executions

variable (hR : ∀ line line', R line line' → Numeral.isWritable line = Numeral.isWritable line')

include hR

theorem Event.Alike.isWritable_eq {event other : Event} (h : event.Alike R other) :
    event.isWritable = other.isWritable := by
  cases h with
  | entry hline => exact hR _ _ hline
  | snapshot | finished | printed | ignored | resolved | left => rfl

namespace Account

variable {a b : Account}

theorem Alike.write {event other : Event} (h : a.Alike R b) (he : event.Alike R other) :
    Matched (Verdict.Alike R) (Account.Alike R) (a.write event) (b.write other) := by
  rw [Account.write, Account.write, he.isWritable_eq hR]
  split
  · exact .ok ⟨h.store, h.steps, .cons he h.log⟩
  · exact .error ⟨h, .some .unwritable⟩

theorem Alike.writeAll {events others : List Event} (h : a.Alike R b)
    (he : List.Forall₂ (Event.Alike R) events others) :
    Matched (Verdict.Alike R) (Account.Alike R) (a.writeAll events) (b.writeAll others) := by
  induction he generalizing a b with
  | nil => exact .ok h
  | @cons event other events others hevent _ ih =>
    rw [writeAll_cons, writeAll_cons]
    have hwrite := h.write hR hevent
    generalize a.write event = result at hwrite ⊢
    generalize b.write other = result' at hwrite ⊢
    cases hwrite with
    | error hv => exact .error hv
    | ok hab => exact ih hab

theorem Alike.fail {fault other : Fault} (h : a.Alike R b) (hfault : fault.Alike R other) :
    (a.fail fault).Alike R (b.fail other) := by
  refine ⟨h, ?_⟩
  rw [Account.fail, Account.fail, hR _ _ hfault.line]
  refine .some ?_
  split
  · exact .fault hfault
  · exact .unwritable

end Account

namespace Machine

variable {m n : Machine} {o : Options}

/-- What alike machines have logged is written alike. -/
theorem Alike.writeLog {a b : Account} (h : m.Alike R n) (hab : a.Alike R b) :
    Matched (Verdict.Alike R) (Account.Alike R)
      ({ a with steps := m.steps }.writeAll m.log.reverse)
      ({ b with steps := n.steps }.writeAll n.log.reverse) := by
  have hcounted : ({ a with steps := m.steps } : Account).Alike R { b with steps := n.steps } :=
    ⟨hab.store, h.account.steps, hab.log⟩
  exact hcounted.writeAll hR (List.rel_reverse h.account.log)

/-- What is alike is written alike. -/
theorem Outcome.Alike.write {a b : Account} {outcome other : Outcome} (h : outcome.Alike R other)
    (hab : a.Alike R b) :
    Matched (Verdict.Alike R) (Machine.Alike R) (outcome.write a) (other.write b) := by
  cases h with
  | finished => exact .error ⟨hab, .none⟩
  | @running m n h =>
    have hwrite := h.writeLog hR hab
    simp only [Outcome.write]
    generalize Account.writeAll _ m.log.reverse = result at hwrite ⊢
    generalize Account.writeAll _ n.log.reverse = result' at hwrite ⊢
    cases hwrite with
    | error hv => exact .error hv
    | ok hwritten => exact .ok ⟨h.code, h.loops, h.account.store, h.account.steps, hwritten.log⟩
  | @failed fault other m n hfault h =>
    have hwrite := h.writeLog hR hab
    simp only [Outcome.write]
    generalize Account.writeAll _ m.log.reverse = result at hwrite ⊢
    generalize Account.writeAll _ n.log.reverse = result' at hwrite ⊢
    cases hwrite with
    | error hv => exact .error hv
    | @ok c d hwritten =>
      have hlast : ({ c with store := m.store } : Account).Alike R { d with store := n.store } :=
        ⟨h.account.store, hwritten.steps, hwritten.log⟩
      exact .error (hlast.fail hR hfault)

/-- An attempt either passes over a blank statement, or the other machine makes one like it when it
has passed over its own. -/
theorem Alike.attempt (h : m.Alike R n) (o : Options) :
    (∃ next, m.attempt o = .ok next ∧ next.Alike R n) ∨
      Matched (Verdict.Alike R) (Machine.Alike R) (m.attempt o) (n.settle.attempt o) := by
  rcases h.settled_or_skip with ⟨hm, hsettle⟩ | ⟨statement, rest, hcode, hblank, hskip⟩
  · have hempty : ({ m with log := [] } : Machine).Alike R { n.settle with log := [] } :=
      ⟨hsettle.code, hsettle.loops, hsettle.account.store, hsettle.account.steps, .nil⟩
    exact .inr ((step_alike hempty hm n.settled_settle).write hR hsettle.account)
  · exact .inl ⟨_, attempt_of_isBlank hcode hblank, hskip⟩

/-- An execution ends if it ends in another layout, and it ends the same way. -/
theorem Gives.alike {v : Verdict} (hv : m.Gives o (.error v)) (h : m.Alike R n) :
    ∃ w, n.Gives o (.error w) ∧ v.Alike R w := by
  generalize hr : Except.error v = result at hv
  induction hv generalizing n with
  | refl => cases hr
  | @stop m v hattempt =>
    cases hr
    rcases h.attempt hR o with ⟨next, hnext, -⟩ | hmatched
    · simp [hattempt] at hnext
    · rw [hattempt] at hmatched
      generalize hn : n.settle.attempt o = result at hmatched
      cases hmatched with
      | @error _ w halike => exact ⟨w, (gives_settle n o).trans (.stop hn), halike⟩
  | @step m next result hattempt _ ih =>
    rcases h.attempt hR o with ⟨other, hother, halike⟩ | hmatched
    · rw [hattempt, Except.ok.injEq] at hother
      exact ih (hother ▸ halike) hr
    · rw [hattempt] at hmatched
      generalize hn : n.settle.attempt o = result at hmatched
      cases hmatched with
      | @ok _ other hnext =>
        obtain ⟨w, hw, halike⟩ := ih hnext hr
        exact ⟨w, (gives_settle n o).trans (.step hn hw), halike⟩

end Machine

end Executions

/-! ## Whole programs -/

/-- The closing lines are alike. -/
theorem Verdict.Alike.close {e e' : Ending} (h : e.verdict.Alike R e'.verdict) (o : Options) :
    (e.close o).verdict.Alike R (e'.close o).verdict := by
  have hnone : e.fault.isNone = e'.fault.isNone := by
    have hstop := h.stop
    rw [Ending.verdict, Ending.verdict] at hstop
    cases hfault : e.fault <;> cases hfault' : e'.fault <;> simp [hfault, hfault'] at hstop ⊢
  have hstore : e.machine.store = e'.machine.store := h.account.store
  rw [Ending.close, Ending.close, hnone]
  split
  · refine ⟨⟨hstore, h.account.steps, .cons ?_ (.cons .finished h.account.log)⟩, h.stop⟩
    rw [hstore]
    exact .snapshot e'.machine.store
  · exact h

/-- The lines of a trace show the same store, or statements with the same tokens on lines that
correspond. -/
inductive SameLine (R : Int → Int → Prop) : Text → Text → Prop where
  | snapshot (store : Store) : SameLine R store.render store.render
  | entry {line line' : Int} {statement statement' : Statement} (hline : R line line')
      (htokens : Statement.tokens statement = Statement.tokens statement') :
      SameLine R (Text.decimal line ++ " - " ++ Text.trim statement)
        (Text.decimal line' ++ " - " ++ Text.trim statement')
  | finished : SameLine R "Finishing status:" "Finishing status:"

/-- Both ended the same way, and they differ only in the layout that the trace shows. -/
structure Verdict.Corresponds (R : Int → Int → Prop) (v w : Verdict) : Prop where
  output : v.account.output = w.account.output
  store : v.account.store = w.account.store
  steps : v.account.steps = w.account.steps
  trace : List.Forall₂ (SameLine R) v.account.trace w.account.trace
  completed : v.stop = none ↔ w.stop = none
  unwritable : v.stop = some .unwritable ↔ w.stop = some .unwritable
  fault : ∀ fault, v.stop = some (.fault fault) → ∃ other, w.stop = some (.fault other) ∧
    other.kind = fault.kind ∧ other.token? = fault.token? ∧ R fault.line other.line

theorem Event.Alike.traceLine? {event other : Event} (h : event.Alike R other) :
    Option.Rel (SameLine R) event.traceLine? other.traceLine? := by
  cases h with
  | snapshot store => exact .some (.snapshot store)
  | entry hline htokens => exact .some (.entry hline htokens)
  | finished => exact .some .finished
  | printed | ignored | resolved | left => exact .none

theorem Event.Alike.outputLine?_eq {event other : Event} (h : event.Alike R other) :
    event.outputLine? = other.outputLine? := by
  cases h <;> rfl

theorem Account.Alike.output_eq {a b : Account} (h : a.Alike R b) : a.output = b.output := by
  have hlines : ∀ {log log' : List Event}, List.Forall₂ (Event.Alike R) log log' →
      log.filterMap Event.outputLine? = log'.filterMap Event.outputLine? := by
    intro log log' hlog
    induction hlog with
    | nil => rfl
    | cons hevent _ ih => rw [List.filterMap_cons, List.filterMap_cons, hevent.outputLine?_eq, ih]
  exact hlines (List.rel_reverse h.log)

theorem Verdict.Alike.corresponds {v w : Verdict} (h : v.Alike R w) : v.Corresponds R w := by
  obtain ⟨a, stop⟩ := v
  obtain ⟨b, stop'⟩ := w
  obtain ⟨haccount, hstop⟩ := h
  refine ⟨haccount.output_eq, haccount.store, haccount.steps, ?_, ?_, ?_, ?_⟩
  · exact List.rel_filterMap (fun _ _ hevent => Event.Alike.traceLine? hevent)
      (List.rel_reverse haccount.log)
  · cases hstop <;> simp
  · rcases hstop with ⟨_ | _ | _⟩ | _ <;> simp
  · rintro fault rfl
    obtain ⟨⟨hfault⟩⟩ := hstop
    refine ⟨_, rfl, ?_, ?_, hfault.line⟩
    · rw [hfault.same, Fault.kind_onLine]
    · rw [hfault.same, Fault.token?_onLine]

namespace Program

/-- The lines of two statements that come at the same place in their programs, blank statements not
counted. -/
def Counterparts (program other : Program) (firstLine otherLine line line' : Int) : Prop :=
  ∃ (index : Nat) (statement statement' : Statement),
    (program.phrases firstLine)[index]? = some (line, statement) ∧
      (other.phrases otherLine)[index]? = some (line', statement')

variable {program other : Program} {firstLine otherLine : Int} {o : Options}

theorem forall₂_phrases (h : program.tokenLists = other.tokenLists) (firstLine otherLine : Int) :
    program.Alike (Counterparts program other firstLine otherLine) firstLine other otherLine := by
  rw [← map_tokens_phrases firstLine, ← map_tokens_phrases otherLine] at h
  have hlength := congrArg List.length h
  rw [List.length_map, List.length_map] at hlength
  refine List.forall₂_iff_get.2 ⟨hlength, fun index hindex hindex' => ?_⟩
  refine ⟨⟨index, _, _, List.getElem?_eq_getElem hindex, List.getElem?_eq_getElem hindex'⟩, ?_⟩
  have htokens := congrArg (·[index]?) h
  simpa [hindex, hindex'] using htokens

/-- At the start of programs with the same tokens, machines are alike. -/
theorem alike_resume (h : program.tokenLists = other.tokenLists) (firstLine otherLine : Int)
    (store : Store) (steps : Nat) :
    (({ program, firstLine } : Scope).resume { store, steps }).Alike
      (Counterparts program other firstLine otherLine)
      (({ program := other, firstLine := otherLine } : Scope).resume { store, steps }) where
  code := by
    simp only [Scope.resume, Account.machine, Int.toNat_zero, List.drop_zero, Int.add_zero]
    exact forall₂_phrases h firstLine otherLine
  loops := .nil
  account := ⟨rfl, rfl, .nil⟩

/-- The line of a phrase is the line of some statement. -/
theorem exists_line_of_mem_phrases {phrase : Phrase} (h : phrase ∈ program.phrases firstLine) :
    ∃ index < program.length, phrase.1 = firstLine + index := by
  induction program generalizing firstLine with
  | nil => simp at h
  | cons statement rest ih =>
    have hrest : phrase ∈ phrases (firstLine + 1) rest →
        ∃ index < (statement :: rest).length, phrase.1 = firstLine + index := by
      intro hmem
      obtain ⟨index, hindex, hline⟩ := ih hmem
      refine ⟨index + 1, by simpa using hindex, ?_⟩
      rw [hline]
      push_cast
      omega
    rw [phrases] at h
    split at h
    · exact hrest h
    · rcases List.mem_cons.1 h with rfl | h
      · exact ⟨0, by simp, by simp⟩
      · exact hrest h

theorem isWritable_of_counterparts
    (hwritten : ∀ index < program.length, Numeral.isWritable (firstLine + index))
    (hwritten' : ∀ index < other.length, Numeral.isWritable (otherLine + index))
    (line line' : Int) (h : Counterparts program other firstLine otherLine line line') :
    Numeral.isWritable line = Numeral.isWritable line' := by
  obtain ⟨place, statement, statement', hphrase, hphrase'⟩ := h
  obtain ⟨index, hindex, hline⟩ := exists_line_of_mem_phrases (List.mem_of_getElem? hphrase)
  obtain ⟨index', hindex', hline'⟩ := exists_line_of_mem_phrases (List.mem_of_getElem? hphrase')
  rw [show line = firstLine + index from hline, show line' = otherLine + index' from hline',
    hwritten index hindex, hwritten' index' hindex']

/-- Where each of the first comes with one of the second, of which there is one at most, they all
come together. -/
theorem iff_and_forall_of_exists {α : Type} {P Q : α → Prop} {S : α → α → Prop}
    (hP : ∀ x, P x → ∃ y, Q y ∧ S x y) (hQ : ∀ y, Q y → ∃ x, P x)
    (hunique : ∀ y z, Q y → Q z → y = z) :
    ((∃ x, P x) ↔ ∃ y, Q y) ∧ ∀ x y, P x → Q y → S x y := by
  refine ⟨⟨fun ⟨x, hx⟩ => ?_, fun ⟨y, hy⟩ => hQ y hy⟩, fun x y hx hy => ?_⟩
  · obtain ⟨y, hy, -⟩ := hP x hx
    exact ⟨y, hy⟩
  · obtain ⟨z, hz, hS⟩ := hP x hx
    exact hunique z y hz hy ▸ hS

theorem Ends.alike {e : Ending} (h : program.tokenLists = other.tokenLists)
    (he : program.Ends o e) :
    ∃ e', other.Ends o e' ∧ e.verdict.Alike (Counterparts program other 1 1) e'.verdict := by
  obtain ⟨e₀, he₀, rfl⟩ := ends_iff.1 he
  obtain ⟨e', he', halike⟩ := Machine.Ends.alike he₀ (alike_resume h 1 1 ∅ 0)
  exact ⟨_, ends_iff.2 ⟨e', he', rfl⟩, halike.close o⟩

/-- Layout is irrelevant. Let two programs have the same phrases, but for the blanks in them. Then a
run of one ends if the run of the other does, whatever the budget is and whether or not there is a
trace. Both have the same output and the same number of steps and leave the same store. If one ends
early, so does the other, because of the same kind of fault with the same token. Their traces have
the same length and show the same stores. Where one shows the line of a phrase, in the trace or for
a fault, the other shows the line of its own phrase at the same place.

This holds for the run of the program from the empty store, with its closing lines, and for the run
from any store. It holds as well where integers have to be written, if the lines of both programs
are. -/
theorem layout_irrelevant (h : program.tokenLists = other.tokenLists) (o : Options) :
    (((∃ e, program.Ends o e) ↔ ∃ e', other.Ends o e') ∧
      ∀ e e', program.Ends o e → other.Ends o e' →
        e.verdict.Corresponds (Counterparts program other 1 1) e'.verdict) ∧
    ∀ (firstLine otherLine : Int) (store : Store) (steps : Nat),
      let scope : Scope := { program, firstLine }
      let scope' : Scope := { program := other, firstLine := otherLine }
      let m := scope.resume { store, steps }
      let n := scope'.resume { store, steps }
      (((∃ e, m.Ends o e) ↔ ∃ e', n.Ends o e') ∧
        ∀ e e', m.Ends o e → n.Ends o e' →
          e.verdict.Corresponds (Counterparts program other firstLine otherLine) e'.verdict) ∧
      ((∀ index < program.length, Numeral.isWritable (firstLine + index)) →
        (∀ index < other.length, Numeral.isWritable (otherLine + index)) →
        ((∃ v, scope.Executes o { store, steps } v) ↔ ∃ w, scope'.Executes o { store, steps } w) ∧
        ∀ v w, scope.Executes o { store, steps } v → scope'.Executes o { store, steps } w →
          v.Corresponds (Counterparts program other firstLine otherLine) w) := by
  refine ⟨?_, fun firstLine otherLine store steps => ?_⟩
  · refine iff_and_forall_of_exists (fun e he => ?_) (fun e' he' => ?_)
      fun e e' he he' => he.unique he'
    · obtain ⟨e', he', halike⟩ := he.alike h
      exact ⟨e', he', halike.corresponds⟩
    · obtain ⟨e, he, -⟩ := he'.alike h.symm
      exact ⟨e, he⟩
  intro scope scope' m n
  refine ⟨?_, fun hwritten hwritten' => ?_⟩
  · refine iff_and_forall_of_exists (fun e he => ?_) (fun e' he' => ?_)
      fun e e' he he' => he.unique he'
    · obtain ⟨e', he', halike⟩ := he.alike (alike_resume h firstLine otherLine store steps)
      exact ⟨e', he', halike.corresponds⟩
    · obtain ⟨e, he, -⟩ := he'.alike (alike_resume h.symm otherLine firstLine store steps)
      exact ⟨e, he⟩
  · have hcursor : (0 : Int) ≤ 0 := Int.le_refl 0
    refine iff_and_forall_of_exists (fun v hv => ?_) (fun w hw => ?_)
      fun w w' hw hw' => hw.unique hcursor hw'
    · obtain ⟨w, hw, halike⟩ := ((Scope.executes_iff_gives hcursor).1 hv).alike
        (isWritable_of_counterparts hwritten hwritten')
        (alike_resume h firstLine otherLine store steps)
      exact ⟨w, (Scope.executes_iff_gives hcursor).2 hw, halike.corresponds⟩
    · obtain ⟨v, hv, -⟩ := ((Scope.executes_iff_gives hcursor).1 hw).alike
        (isWritable_of_counterparts hwritten' hwritten)
        (alike_resume h.symm otherLine firstLine store steps)
      exact ⟨v, (Scope.executes_iff_gives hcursor).2 hv⟩

/-- Counts a variable down, and then names another one that is unknown. -/
def compact : Program := ofSource "clear x;incr x;while x not 0 do;decr x;end;incr y"

/-- The same with blanks in many places, among them the start and the end of the body. -/
def scattered : Program :=
  ofSource ";clear\t x ; ;incr  x;\nwhile x  not 0 do; \n;decr x;;end ;\t; incr y;"

/-- Both fail at their last phrase, which is on line 6 of one and on line 11 of the other. -/
theorem layout_irrelevant_scattered : compact.tokenLists = scattered.tokenLists ∧
    (∃ e e', compact.Ends {} e ∧ scattered.Ends {} e' ∧
      e.fault = some (.undefinedVariable 6 "y") ∧ e'.fault = some (.undefinedVariable 11 "y") ∧
      e.verdict.Corresponds (Counterparts compact scattered 1 1) e'.verdict) ∧
    (∀ index < compact.length, Numeral.isWritable (1 + index)) ∧
    (∀ index < scattered.length, Numeral.isWritable (41 + index)) ∧
    ∃ v w, ({ program := compact } : Scope).Executes {} { store := (∅ : Store).clear "y" } v ∧
      ({ program := scattered, firstLine := 41 } : Scope).Executes {}
        { store := (∅ : Store).clear "y" } w ∧ v.stop = none ∧
      v.Corresponds (Counterparts compact scattered 1 41) w := by
  have htokens : compact.tokenLists = scattered.tokenLists := by decide +kernel
  have hwritten : ∀ index < compact.length, Numeral.isWritable (1 + index) := by decide +kernel
  have hwritten' : ∀ index < scattered.length, Numeral.isWritable (41 + index) := by
    decide +kernel
  have hruns : (compact.run? 40 {}).map (·.fault) = some (some (.undefinedVariable 6 "y")) ∧
      (scattered.run? 40 {}).map (·.fault) = some (some (.undefinedVariable 11 "y")) := by
    decide +kernel
  have hwalk : (({ program := compact } : Scope).follow? {} 40
      (({ program := compact } : Scope).resume { store := (∅ : Store).clear "y" })).map
        (fun walk => walk.verdict.stop) = some none := by
    decide +kernel
  obtain ⟨⟨e, he, hfault⟩, e', he', hfault'⟩ :=
    hruns.imp Option.map_eq_some_iff.1 Option.map_eq_some_iff.1
  obtain ⟨walk, hwalk, hstop⟩ := Option.map_eq_some_iff.1 hwalk
  have hv : ({ program := compact } : Scope).Executes {} { store := (∅ : Store).clear "y" }
    walk.verdict := ⟨40, walk, hwalk, rfl⟩
  obtain ⟨⟨-, hends⟩, hscopes⟩ := layout_irrelevant htokens {}
  obtain ⟨-, hexecutes⟩ := hscopes 1 41 ((∅ : Store).clear "y") 0
  obtain ⟨hiff, hcorresponds⟩ := hexecutes hwritten hwritten'
  obtain ⟨w, hw⟩ := hiff.1 ⟨_, hv⟩
  exact ⟨htokens, ⟨e, e', ⟨40, he⟩, ⟨40, he'⟩, hfault, hfault', hends e e' ⟨40, he⟩ ⟨40, he'⟩⟩,
    hwritten, hwritten', _, w, hv, hw, hstop, hcorresponds _ w hv hw⟩

end Program

end CounterLang
