import CounterLang.Proofs.RoundTrip
import CounterLang.Proofs.Runs
import CounterLang.Worker

/-!
# What a worker answers

A worker answers with one line of JSON, unless it dies. It looks at the fields of a request only
when it comes to need them: at the program when it cuts it into statements, and at the budget when
it counts the first step. So a request with a field of the wrong type is not refused, as one that is
no object is, but is either run all the same or the end of the worker.

## Main definitions

* `Worker.IsDocumented`: the fields of a payload have the types that they should have.
* `Worker.Request.IsUsable`: the worker does not die of the fields of a request.
* `Worker.Request.Ends`: the run that a request asks for ends so.
* `Worker.Answers`: what comes of a text.
* `Worker.Answer.Tells`: an answer is one line of JSON.

## Main statements

* `Worker.answers_iff_of_usable`: a request that can be used is answered with the report of its run.
* `Worker.exists_crash`: the worker dies of all other requests.
* `Worker.answers_or_crashes`: what comes of any text.
-/

namespace CounterLang.Worker

/-! ## Requests -/

/-- The value can be compared with a number of steps, or stands for no budget. -/
def isBudget : Json → Bool
  | .null | .bool _ | .int _ | .real _ => true
  | .str _ | .arr _ | .obj _ => false

theorem exists_limit? {json : Json} (h : isBudget json) : ∃ limit, limit? json = .ok limit := by
  cases json with
  | null | bool | int => exact ⟨_, rfl⟩
  | real value => cases value <;> exact ⟨_, rfl⟩
  | str | arr | obj => cases h

theorem limit?_eq_error {json : Json} (h : isBudget json = false) :
    limit? json = .error (.notNumber json.typeName) := by
  cases json with
  | null | bool | int | real => cases h
  | str | arr | obj => rfl

/-- The payload is an object in which the program, if there is one, is a text, and the budget, if
there is one, is a budget. -/
structure IsDocumented (payload : Json) : Prop where
  isObject : ∃ members, payload = .obj members
  code : ∀ code ∈ payload.get? "code", ∃ source, code = .str source
  maxSteps : ∀ maxSteps ∈ payload.get? "max_steps", isBudget maxSteps

namespace Request

/-- The request that a payload makes, in which fields that are missing have their defaults. -/
def ofPayload (payload : Json) : Request where
  code := (payload.get? "code").getD (.str "")
  maxSteps := (payload.get? "max_steps").getD .null
  trace := ((payload.get? "trace").getD (.bool true)).truthy

/-- The program is a text, and the budget is one if it is ever looked at. -/
def IsUsable (request : Request) : Prop :=
  ∃ source, request.code = .str source ∧
    (isBudget request.maxSteps ∨ (Program.ofSource source).isBlank)

/-- What the run of a request is given. A budget that is none is never looked at. -/
def options (request : Request) : Options where
  limit := (limit? request.maxSteps).toOption.join
  trace := request.trace

/-- The run that a request asks for ends so. -/
def Ends (request : Request) (e : Ending) : Prop :=
  ∃ source, request.code = .str source ∧ (Program.ofSource source).Ends request.options e

variable {request : Request} {e e' : Ending}

theorem Ends.unique (h : request.Ends e) (h' : request.Ends e') : e = e' := by
  obtain ⟨source, hcode, he⟩ := h
  obtain ⟨source', hcode', he'⟩ := h'
  obtain rfl := Json.str.inj (hcode.symm.trans hcode')
  exact he.unique he'

/-- A request as it should be can be used. -/
theorem isUsable_ofPayload {payload : Json} (h : IsDocumented payload) :
    (ofPayload payload).IsUsable := by
  have hcode : ∃ source, (ofPayload payload).code = .str source := by
    cases hget : payload.get? "code" with
    | none => exact ⟨"", by rw [ofPayload, hget]; rfl⟩
    | some code =>
      obtain ⟨source, rfl⟩ := h.code code hget
      exact ⟨source, by rw [ofPayload, hget]; rfl⟩
  have hbudget : isBudget (ofPayload payload).maxSteps := by
    cases hget : payload.get? "max_steps" with
    | none => rw [ofPayload, hget]; rfl
    | some maxSteps => rw [ofPayload, hget]; exact h.maxSteps maxSteps hget
  obtain ⟨source, hcode⟩ := hcode
  exact ⟨source, hcode, .inl hbudget⟩

/-- Within a budget a run always ends. -/
theorem exists_ends {source : Text} {limit : Limit} (hcode : request.code = .str source)
    (hlimit : request.options.limit = some limit) : ∃ e, request.Ends e := by
  have hends := Machine.ends_finish limit request.trace (Program.ofSource source).start
  have hoptions : request.options = { limit := some limit, trace := request.trace } := by
    rw [← hlimit]
    rfl
  exact ⟨_, source, hcode, Program.ends_iff.2 ⟨_, hoptions ▸ hends, rfl⟩⟩

/-- A text is a request if it is the JSON of an object. -/
theorem read_of_read {text : Text} {members : List (Text × Json)}
    (h : Json.read text = .ok (.obj members)) :
    read text = .ok (ofPayload (.obj members)) := by
  rw [read, h]
  rfl

theorem exists_reason {text : Text} (h : ∀ members, Json.read text ≠ .ok (.obj members)) :
    ∃ reason, read text = .error reason := by
  rw [read]
  cases hread : Json.read text with
  | error failure => exact ⟨_, rfl⟩
  | ok json =>
    cases json with
    | obj members => exact absurd hread (h members)
    | null | bool | int | real | str | arr => exact ⟨_, rfl⟩

end Request

/-! ## Answers -/

/-- This comes of a text. -/
def Answers (text : Text) (result : Except Crash Answer) : Prop :=
  ∃ fuel, respond? (Program.run? fuel) text = some result

/-- The answer is the exit status with the value, as one line of JSON. -/
structure Answer.Tells (answer : Answer) (status : Nat) (json : Json) : Prop where
  exit : answer.exit = status
  stdout : answer.stdout = json.toText ++ "\n"
  isPlain : json.toText.IsPlain

/-- What a worker says of a text that is no request. -/
def rejection (reason : Text) : Json :=
  .obj [("error", .obj [("code", .str "BAD_PAYLOAD"), ("message", .str reason)])]

theorem tells_reject (reason : Text) : (reject reason).Tells 1 (rejection reason) where
  exit := rfl
  stdout := rfl
  isPlain := by
    refine Json.isPlain_toText_obj (List.forall_mem_singleton.2 (Json.isPlain_toText_obj ?_))
    exact List.forall_mem_cons.2 ⟨Json.isPlain_toText_str _,
      List.forall_mem_singleton.2 (Json.isPlain_toText_str _)⟩

end Worker

/-! ## Reports in one line -/

theorem Problem.isPlain_toText (p : Problem) : p.toJson.toText.IsPlain := by
  refine Json.isPlain_toText_obj fun member hmember => ?_
  simp only [List.mem_cons, List.not_mem_nil, or_false] at hmember
  rcases hmember with rfl | rfl | rfl | rfl
  · exact Json.isPlain_toText_str p.code
  · exact Json.isPlain_toText_str p.message
  · cases p.line with
    | none => exact Json.isPlain_toText_null
    | some line => exact Json.isPlain_toText_int line
  · cases p.token with
    | none => exact Json.isPlain_toText_null
    | some token => exact Json.isPlain_toText_str token

namespace Report

/-- A report is written within one line, whatever texts and integers are in it. -/
theorem isPlain_toText (r : Report) : r.toJson.toText.IsPlain := by
  have htexts : ∀ texts : List Text, (Json.arr (texts.map .str)).toText.IsPlain :=
    fun texts => Json.isPlain_toText_arr
      (List.forall_mem_map.2 fun text _ => Json.isPlain_toText_str text)
  have hstore :
      (Json.obj (r.store.entries.map fun entry => (entry.1, .int entry.2))).toText.IsPlain :=
    Json.isPlain_toText_obj (List.forall_mem_map.2 fun entry _ => Json.isPlain_toText_int entry.2)
  refine Json.isPlain_toText_obj fun member hmember => ?_
  simp only [List.mem_cons, List.not_mem_nil, or_false] at hmember
  rcases hmember with rfl | rfl | rfl | rfl
  · exact htexts r.trace
  · exact htexts r.output
  · exact hstore
  · cases r.problem with
    | none => exact Json.isPlain_toText_null
    | some p => exact p.isPlain_toText

/-- The names of what is told of a run. -/
def fields : List Text := ["trace", "output", "store", "error"]

theorem exists_members (r : Report) :
    ∃ members, r.toJson = .obj members ∧ members.map Prod.fst = fields := ⟨_, rfl, rfl⟩

end Report

namespace Worker

theorem tells_accept (r : Report) : (accept r).Tells 0 r.toJson where
  exit := rfl
  stdout := rfl
  isPlain := r.isPlain_toText

/-! ## What comes of a text -/

variable {text reason : Text} {request : Request} {result : Except Crash Answer}

theorem answers_iff_of_error (h : Request.read text = .error reason) :
    Answers text result ↔ result = .ok (reject reason) := by
  simp only [Answers, respond?, h, Option.some.injEq, exists_const, eq_comm]

/-- A request that can be used is answered with the report of its run. -/
theorem answers_iff_of_usable (h : Request.read text = .ok request) (husable : request.IsUsable) :
    Answers text result ↔ ∃ e, request.Ends e ∧ result = .ok (accept (.ofEnding e)) := by
  obtain ⟨source, hcode, hbudget⟩ := husable
  have hrespond : ∀ run?, respond? run? text =
      (run? request.options (Program.ofSource source)).map fun e => .ok (accept (.ofEnding e)) := by
    intro run?
    rw [respond?, h]
    simp only [hcode, Request.options]
    cases hlimit : limit? request.maxSteps with
    | ok limit => rfl
    | error crash =>
      have hblank : (Program.ofSource source).isBlank := by
        refine hbudget.resolve_left fun hbudget => ?_
        obtain ⟨limit, hlimit'⟩ := exists_limit? hbudget
        rw [hlimit] at hlimit'
        cases hlimit'
      simp only [hblank, if_true]
      rfl
  simp only [Answers, hrespond, Option.map_eq_some_iff, Request.Ends, Program.Ends, hcode,
    Json.str.injEq, exists_eq_left']
  constructor
  · rintro ⟨fuel, e, he, rfl⟩
    exact ⟨e, ⟨fuel, he⟩, rfl⟩
  · rintro ⟨e, ⟨fuel, he⟩, rfl⟩
    exact ⟨fuel, e, he, rfl⟩

/-- The worker dies of a request that cannot be used, for the type of its program or of its
budget. -/
theorem exists_crash (h : Request.read text = .ok request) (husable : ¬ request.IsUsable) :
    ∃ crash, (crash = .notText request.code.typeName ∨
        crash = .notNumber request.maxSteps.typeName) ∧
      ∀ result, Answers text result ↔ result = .error crash := by
  have hanswers : ∀ crash : Crash, (∀ run?, respond? run? text = some (.error crash)) →
      ∀ result, Answers text result ↔ result = .error crash := by
    intro crash hrespond result
    simp only [Answers, hrespond, Option.some.injEq, exists_const, eq_comm]
  cases hcode : request.code with
  | str source =>
    have hbudget : isBudget request.maxSteps = false := by
      by_contra hbudget
      exact husable ⟨source, hcode, .inl (by simpa using hbudget)⟩
    have hblank : (Program.ofSource source).isBlank = false := by
      by_contra hblank
      exact husable ⟨source, hcode, .inr (by simpa using hblank)⟩
    refine ⟨_, .inr rfl, hanswers _ fun run? => ?_⟩
    rw [respond?, h]
    simp only [hcode, limit?_eq_error hbudget, hblank]
    rfl
  | null | bool | int | real | arr | obj =>
    refine ⟨_, .inl rfl, hanswers _ fun run? => ?_⟩
    rw [respond?, h]
    simp only [hcode]

/-- What comes of a text when the run that it asks for ends, if it asks for one. One thing does. It
is a rejection exactly when the text is not the JSON of an object. For an object it is the report of
the run exactly when the request can be used, as each request can be that is as it should be, and it
is the death of the worker exactly when the request cannot be used. -/
theorem answers_or_crashes (text : Text)
    (hends : ∀ request, Request.read text = .ok request → request.IsUsable →
      ∃ e, request.Ends e) :
    ∃ result, Answers text result ∧ (∀ other, Answers text other → other = result) ∧
      ((∃ answer reason, result = .ok answer ∧ answer.Tells 1 (rejection reason)) ↔
        ∀ members, Json.read text ≠ .ok (.obj members)) ∧
      (∀ members, Json.read text = .ok (.obj members) →
        ((∃ answer e, result = .ok answer ∧ (Request.ofPayload (.obj members)).Ends e ∧
            answer.Tells 0 (Report.ofEnding e).toJson) ↔
          (Request.ofPayload (.obj members)).IsUsable) ∧
        ((∃ crash, result = .error crash) ↔ ¬ (Request.ofPayload (.obj members)).IsUsable) ∧
        (IsDocumented (.obj members) → (Request.ofPayload (.obj members)).IsUsable)) ∧
      ∀ r : Report, ∃ members, r.toJson = .obj members ∧ members.map Prod.fst = Report.fields := by
  by_cases hobject : ∃ members, Json.read text = .ok (.obj members)
  · obtain ⟨members, hjson⟩ := hobject
    have hread := Request.read_of_read hjson
    by_cases husable : (Request.ofPayload (.obj members)).IsUsable
    · obtain ⟨e, he⟩ := hends _ hread husable
      refine ⟨.ok (accept (.ofEnding e)), (answers_iff_of_usable hread husable).2 ⟨e, he, rfl⟩,
        fun other hother => ?_, ?_, fun members' hjson' => ?_, Report.exists_members⟩
      · obtain ⟨e', he', rfl⟩ := (answers_iff_of_usable hread husable).1 hother
        rw [he.unique he']
      · refine iff_of_false ?_ fun hnone => hnone members hjson
        rintro ⟨answer, reason, hanswer, htells⟩
        obtain rfl := Except.ok.inj hanswer
        exact absurd htells.exit Nat.zero_ne_one
      · obtain rfl := Json.obj.inj (Except.ok.inj (hjson.symm.trans hjson'))
        refine ⟨iff_of_true ⟨_, e, rfl, he, tells_accept _⟩ husable,
          iff_of_false ?_ (not_not_intro husable), fun _ => husable⟩
        rintro ⟨crash, hcrash⟩
        cases hcrash
    · obtain ⟨crash, -, hanswers⟩ := exists_crash hread husable
      refine ⟨.error crash, (hanswers _).2 rfl, fun other => (hanswers other).1, ?_,
        fun members' hjson' => ?_, Report.exists_members⟩
      · refine iff_of_false ?_ fun hnone => hnone members hjson
        rintro ⟨answer, reason, hanswer, -⟩
        cases hanswer
      · obtain rfl := Json.obj.inj (Except.ok.inj (hjson.symm.trans hjson'))
        refine ⟨iff_of_false ?_ husable, iff_of_true ⟨crash, rfl⟩ husable,
          Request.isUsable_ofPayload⟩
        rintro ⟨answer, e, hanswer, -⟩
        cases hanswer
  · have hnone : ∀ members, Json.read text ≠ .ok (.obj members) :=
      fun members hjson => hobject ⟨members, hjson⟩
    obtain ⟨reason, hread⟩ := Request.exists_reason hnone
    exact ⟨.ok (reject reason), (answers_iff_of_error hread).2 rfl,
      fun other => (answers_iff_of_error hread).1,
      iff_of_true ⟨_, reason, rfl, tells_reject reason⟩ hnone,
      fun members hjson => absurd hjson (hnone members), Report.exists_members⟩

/-- A request with a truth value for its budget. -/
def trueBudget : List (Text × Json) :=
  [("code", .str "clear x; incr x"), ("max_steps", .bool true)]

/-- A request with a number for its program. -/
def numberCode : List (Text × Json) := [("code", .int 5)]

/-- A request with a text for its budget, and without a program. -/
def textBudget : List (Text × Json) := [("max_steps", .str "9")]

theorem read_trueBudget : Json.read (Json.obj trueBudget).toText = .ok (.obj trueBudget) := by
  refine (Json.Portable.of_names ["code", "max_steps"] rfl (by decide) (by decide) ?_).read_toText
  exact List.forall_mem_cons.2 ⟨.str (by decide), List.forall_mem_singleton.2 (.bool true)⟩

theorem read_numberCode : Json.read (Json.obj numberCode).toText = .ok (.obj numberCode) := by
  refine (Json.Portable.of_names ["code"] rfl (by decide) (by decide) ?_).read_toText
  exact List.forall_mem_singleton.2 (.int (by decide +kernel))

theorem read_textBudget : Json.read (Json.obj textBudget).toText = .ok (.obj textBudget) := by
  refine (Json.Portable.of_names ["max_steps"] rfl (by decide) (by decide) ?_).read_toText
  exact List.forall_mem_singleton.2 (.str (by decide))

/-- A truth value is a budget: `true` allows one step, and is named in the problem of the second. -/
theorem answers_or_crashes_trueBudget :
    ∃ answer e, Answers (Json.obj trueBudget).toText (.ok answer) ∧
      answer.Tells 0 (Report.ofEnding e).toJson ∧ e.fault = some (.stepLimit 2 "True") := by
  have hcode : (Request.ofPayload (.obj trueBudget)).code = .str "clear x; incr x" := rfl
  have hlimit : (Request.ofPayload (.obj trueBudget)).options.limit = some ⟨1, "True"⟩ := rfl
  have hread := Request.read_of_read read_trueBudget
  obtain ⟨result, hanswers, -, -, hobject, -⟩ :=
    answers_or_crashes (Json.obj trueBudget).toText fun request hrequest _ => by
      obtain rfl := Except.ok.inj (hread.symm.trans hrequest)
      exact Request.exists_ends hcode hlimit
  obtain ⟨hanswered, -, -⟩ := hobject _ read_trueBudget
  obtain ⟨answer, e, rfl, ⟨source, hsource, hends⟩, htells⟩ := hanswered.2 ⟨_, hcode, .inl rfl⟩
  obtain rfl := Json.str.inj (hcode.symm.trans hsource)
  have hrun : ((Program.ofSource "clear x; incr x").runFor? 5
      (Request.ofPayload (.obj trueBudget)).options).map Ending.fault =
        some (some (.stepLimit 2 "True")) := by
    decide +kernel
  obtain ⟨e', he', hfault⟩ := Option.map_eq_some_iff.1 hrun
  obtain rfl := hends.unique (Program.ends_of_runFor? he')
  exact ⟨answer, e, hanswers, htells, hfault⟩

/-- The worker dies of a request with a number for its program, and it answers a request with no
program and a text for its budget as if it were as it should be. -/
theorem not_always_answered_numberCode :
    (¬ ∀ text, (∀ request, Request.read text = .ok request → request.IsUsable →
      ∃ e, request.Ends e) → ∃ answer, Answers text (.ok answer)) ∧
    ¬ ∀ text answer, Answers text (.ok answer) →
      ((∃ reason, answer.Tells 1 (rejection reason)) ↔
        ¬ ∃ payload, Json.read text = .ok payload ∧ IsDocumented payload) := by
  constructor
  · have hread := Request.read_of_read read_numberCode
    have husable : ¬ (Request.ofPayload (.obj numberCode)).IsUsable := by
      rintro ⟨source, hcode, -⟩
      cases hcode
    intro h
    obtain ⟨answer, hanswer⟩ := h (Json.obj numberCode).toText fun request hrequest hrequest' => by
      obtain rfl := Except.ok.inj (hread.symm.trans hrequest)
      exact absurd hrequest' husable
    obtain ⟨crash, -, hanswers⟩ := exists_crash hread husable
    cases (hanswers _).1 hanswer
  · have hread := Request.read_of_read read_textBudget
    have husable : (Request.ofPayload (.obj textBudget)).IsUsable := ⟨"", rfl, .inr (by decide)⟩
    have hrun : ((Program.ofSource "").runFor? 4
        (Request.ofPayload (.obj textBudget)).options).isSome := by
      decide +kernel
    obtain ⟨e, he⟩ := Option.isSome_iff_exists.1 hrun
    have hanswer := (answers_iff_of_usable hread husable).2 ⟨e, ⟨"", rfl, Program.ends_of_runFor? he⟩, rfl⟩
    intro h
    obtain ⟨reason, htells⟩ := (h _ _ hanswer).2 (by
      rintro ⟨payload, hpayload, hdocumented⟩
      obtain rfl := Except.ok.inj (read_textBudget.symm.trans hpayload)
      cases hdocumented.maxSteps _ rfl)
    exact absurd htells.exit Nat.zero_ne_one

end Worker

end CounterLang
