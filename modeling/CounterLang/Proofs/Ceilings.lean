import CounterLang.Proofs.Growth

/-!
# What is granted under ceilings

A client that sends settings has the numbers that it asks for held between a least value and a
ceiling, and what it does not ask for counts as the ceiling. A client that sends no settings, or
empty ones, gets the ceilings as they are. So the two get the same only where the ceilings are not
below the least values, which nothing makes sure of; but neither ever gets more than the ceilings,
or the least values if these are more.

## Main definitions

* `Settings.askedSteps`, `Settings.askedTimeout`: what a client asks for, or the ceiling.
* `Settings.clamp`: what is granted to a client that sends settings.
* `Settings.leastCeiling`: the ceiling on time limits, or the least time limit if that is more.
* `Settings.Within`: what is granted keeps to the ceilings.

## Main statements

* `Settings.cap_obj_eq_ok_iff`: settings are granted if the numbers in them can be made sense of.
* `Settings.ofCeilings_eq_ofRaised_iff`: when both kinds of clients get the same.
* `Settings.cap_within`: what is granted never exceeds the ceilings.
* `Settings.cap_under_ceilings`: what is granted, for all ceilings.
-/

namespace CounterLang

namespace Binary64

/-- Nothing is between a number and another one that is not above it. -/
theorem lt_of_not_lt {x y z : Binary64} (hy : y ≠ nan) (hxy : ¬ x.lt y) (hxz : x.lt z) :
    y.lt z := by
  cases x with
  | nan => cases hxz
  | infinity s =>
    cases y with
    | nan => exact absurd rfl hy
    | infinity t => cases z <;> cases s <;> cases t <;> simp_all [lt]
    | finite t n => cases z <;> cases s <;> simp_all [lt]
  | finite s m =>
    cases y with
    | nan => exact absurd rfl hy
    | infinity t => cases z <;> cases t <;> simp_all [lt]
    | finite t n =>
      cases z with
      | nan => cases hxz
      | infinity u => simpa [lt] using hxz
      | finite u k =>
        simp only [lt, decide_eq_true_eq] at hxy hxz ⊢
        omega

theorem lt_trans {x y z : Binary64} (hxy : x.lt y) (hyz : y.lt z) : x.lt z := by
  have hx : x ≠ nan := by
    rintro rfl
    cases hxy
  exact lt_of_not_lt hx (by simp [lt_asymm hxy]) hyz

end Binary64

namespace Settings

variable {ceilings : Ceilings} {asked : Json} {members : List (Text × Json)} {settings : Settings}
  {ceiling limit : Binary64}

/-! ## Two ways to the settings -/

/-- The step budget that is asked for. Not to ask for one is to ask for the ceiling. -/
def askedSteps (ceilings : Ceilings) (asked : Json) : Except Json.ConversionError Int :=
  match asked.get? "max_steps" with
  | some value => value.toInteger
  | none => .ok ceilings.maxSteps

/-- The time limit that is asked for. Not to ask for one is to ask for the ceiling. -/
def askedTimeout (ceilings : Ceilings) (asked : Json) : Except Json.ConversionError Binary64 :=
  match asked.get? "timeout_s" with
  | some value => value.toReal
  | none => .ok ceilings.timeout

/-- What is granted of a step budget and a time limit, with the switches that are asked for. -/
def clamp (ceilings : Ceilings) (asked : Json) (steps : Int) (timeout : Binary64) : Settings where
  maxSteps := capSteps ceilings.maxSteps steps
  timeout := capTimeout ceilings.timeout timeout
  trace := switch asked "trace" true
  isolated := switch asked "use_subprocess" false

theorem timeout_clamp (ceilings : Ceilings) (asked : Json) (steps : Int)
    (timeout : Binary64) :
    (clamp ceilings asked steps timeout).timeout = capTimeout ceilings.timeout timeout := by
  rw [clamp]

/-- The names that mean anything in settings. -/
def names : List Text := ["max_steps", "timeout_s", "trace", "use_subprocess"]

theorem cap_of_not_truthy (h : asked.truthy = false) :
    cap ceilings asked = .ok (ofCeilings ceilings) := by
  simp only [cap, h, Bool.not_false, if_true]

/-- Settings that are not empty are granted if both numbers in them can be made sense of. -/
theorem cap_obj_eq_ok_iff (hne : members ≠ []) : cap ceilings (.obj members) = .ok settings ↔
    ∃ steps timeout, askedSteps ceilings (.obj members) = .ok steps ∧
      askedTimeout ceilings (.obj members) = .ok timeout ∧
      settings = clamp ceilings (.obj members) steps timeout := by
  have htruthy : (Json.obj members).truthy = true := by simp [Json.truthy, hne]
  have hcap : cap ceilings (.obj members) = do
      let steps ← askedSteps ceilings (.obj members)
      let timeout ← askedTimeout ceilings (.obj members)
      return clamp ceilings (.obj members) steps timeout := by
    rw [cap, htruthy, askedSteps, askedTimeout]
    cases (Json.obj members).get? "max_steps" <;> cases (Json.obj members).get? "timeout_s" <;> rfl
  rw [hcap]
  cases askedSteps ceilings (.obj members) with
  | error error => simp [bind, Except.bind]
  | ok steps =>
    cases askedTimeout ceilings (.obj members) with
    | error error => simp [bind, Except.bind]
    | ok timeout => simp [bind, Except.bind, pure, Except.pure, eq_comm]

/-- Settings in which no name means anything ask for the ceilings. -/
theorem cap_of_unknown (hne : members ≠ [])
    (h : ∀ name ∈ names, (Json.obj members).get? name = none) :
    cap ceilings (.obj members) =
      .ok (clamp ceilings (.obj []) ceilings.maxSteps ceilings.timeout) := by
  simp only [names, List.forall_mem_cons] at h
  obtain ⟨hsteps, htimeout, htrace, hisolated, -⟩ := h
  refine (cap_obj_eq_ok_iff hne).2 ⟨ceilings.maxSteps, ceilings.timeout, ?_, ?_, ?_⟩
  · rw [askedSteps, hsteps]
  · rw [askedTimeout, htimeout]
  · simp only [clamp, switch, htrace, hisolated]
    rfl

/-! ## Time limits -/

/-- The ceiling on time limits, or the least time limit if that is more. -/
def leastCeiling (ceiling : Binary64) : Binary64 :=
  if leastTimeout.lt ceiling then ceiling else leastTimeout

theorem capTimeout_self (ceiling : Binary64) : capTimeout ceiling ceiling = leastCeiling ceiling := by
  rw [capTimeout, Binary64.lt_irrefl]
  rfl

/-- A time limit above the least one is not above the ceiling as well. -/
theorem not_lt_capTimeout (ceiling asked : Binary64) :
    ¬ (leastTimeout.lt (capTimeout ceiling asked) ∧ ceiling.lt (capTimeout ceiling asked)) := by
  have hheld : ¬ ceiling.lt (if ceiling.lt asked then ceiling else asked) := by
    split
    · simp [Binary64.lt_irrefl]
    · assumption
  simp only [capTimeout]
  generalize (if ceiling.lt asked then ceiling else asked) = held at hheld
  rintro ⟨hleast, hceiling⟩
  by_cases h : leastTimeout.lt held
  · rw [if_pos h] at hceiling
    exact hheld hceiling
  · rw [if_neg h, Binary64.lt_irrefl] at hleast
    cases hleast

/-- What is not above the least time limit and the ceiling as well is not above the greater of the
two, if the ceiling is a number. -/
theorem not_leastCeiling_lt (hceiling : ceiling ≠ .nan)
    (h : ¬ (leastTimeout.lt limit ∧ ceiling.lt limit)) : ¬ (leastCeiling ceiling).lt limit := by
  rw [leastCeiling]
  intro hlimit
  by_cases hleast : leastTimeout.lt ceiling
  · rw [if_pos hleast] at hlimit
    exact h ⟨Binary64.lt_trans hleast hlimit, hlimit⟩
  · rw [if_neg hleast] at hlimit
    exact h ⟨hlimit, Binary64.lt_of_not_lt hceiling hleast hlimit⟩

/-- A ceiling that is no number holds nothing down. -/
theorem capTimeout_nan (asked : Binary64) : capTimeout .nan asked = leastCeiling asked := rfl

/-! ## What is granted -/

/-- What is granted is not more than the ceilings, or the least values if these are more. -/
structure Within (settings : Settings) (ceilings : Ceilings) : Prop where
  steps : settings.maxSteps ≤ max 0 ceilings.maxSteps
  timeout : ¬ (leastTimeout.lt settings.timeout ∧ ceilings.timeout.lt settings.timeout)
  leastCeiling : ceilings.timeout ≠ .nan →
    ¬ (leastCeiling ceilings.timeout).lt settings.timeout

theorem within_ofCeilings (ceilings : Ceilings) : (ofCeilings ceilings).Within ceilings := by
  have htimeout : ¬ (leastTimeout.lt ceilings.timeout ∧ ceilings.timeout.lt ceilings.timeout) := by
    simp [Binary64.lt_irrefl]
  exact ⟨Int.le_max_right _ _, htimeout, fun hceiling => not_leastCeiling_lt hceiling htimeout⟩

theorem within_clamp (ceilings : Ceilings) (asked : Json) (steps : Int) (timeout : Binary64) :
    (clamp ceilings asked steps timeout).Within ceilings := by
  have htimeout := not_lt_capTimeout ceilings.timeout timeout
  rw [← timeout_clamp ceilings asked steps] at htimeout
  exact ⟨capSteps_le _ _, htimeout, fun hceiling => not_leastCeiling_lt hceiling htimeout⟩

/-- What is granted never exceeds the ceilings. -/
theorem cap_within (h : cap ceilings asked = .ok settings) : settings.Within ceilings := by
  cases htruthy : asked.truthy with
  | false =>
    rw [cap_of_not_truthy htruthy, Except.ok.injEq] at h
    exact h ▸ within_ofCeilings ceilings
  | true =>
    cases asked with
    | obj members =>
      have hne : members ≠ [] := by simpa [Json.truthy] using htruthy
      obtain ⟨steps, timeout, -, -, rfl⟩ := (cap_obj_eq_ok_iff hne).1 h
      exact within_clamp ceilings _ steps timeout
    | null | bool | int | real | str | arr =>
      rw [cap, htruthy] at h
      · cases h
      · rintro members ⟨⟩

theorem capSteps_nonneg (ceiling asked : Int) : 0 ≤ capSteps ceiling asked := Int.le_max_left _ _

/-- Who asks for more steps is granted no fewer. -/
theorem capSteps_mono {ceiling asked more : Int} (h : asked ≤ more) :
    capSteps ceiling asked ≤ capSteps ceiling more := by
  simp only [capSteps]
  omega

/-- The ceilings, or the least values where these are more. -/
def ofRaised (ceilings : Ceilings) : Settings where
  maxSteps := max 0 ceilings.maxSteps
  timeout := leastCeiling ceilings.timeout
  trace := true
  isolated := false

/-- To ask for the ceilings is to get them, or the least values where these are more. -/
theorem clamp_self (ceilings : Ceilings) :
    clamp ceilings (.obj []) ceilings.maxSteps ceilings.timeout = ofRaised ceilings := by
  rw [clamp, capTimeout_self, capSteps, Int.min_self]
  rfl

theorem ofCeilings_eq_ofRaised_iff (ceilings : Ceilings) : ofCeilings ceilings = ofRaised ceilings ↔
    0 ≤ ceilings.maxSteps ∧
      (leastTimeout.lt ceilings.timeout ∨ ceilings.timeout = leastTimeout) := by
  have hsteps : ceilings.maxSteps = max 0 ceilings.maxSteps ↔ 0 ≤ ceilings.maxSteps := by omega
  have htimeout : ceilings.timeout = leastCeiling ceilings.timeout ↔
      leastTimeout.lt ceilings.timeout ∨ ceilings.timeout = leastTimeout := by
    rw [leastCeiling]
    by_cases h : leastTimeout.lt ceilings.timeout <;> simp [h]
  rw [ofCeilings, ofRaised, Settings.mk.injEq, hsteps, htimeout]
  simp

/-- What is granted, for all ceilings, also for those that are negative or no numbers. A client that
sends no settings, or empty ones, gets the ceilings as they are. A client whose settings are not
empty but ask for nothing gets the ceilings, or the least values where these are more. So the two
get the same exactly if the ceilings are not below the least values. Whatever is granted is not more
than the ceilings, or than the least values if these are more; a ceiling on time limits that is no
number holds nothing down. If both numbers in settings that are not empty can be made sense of, a
budget is granted that is not negative, and no smaller one to a client who asks for more. -/
theorem cap_under_ceilings (ceilings : Ceilings) :
    (∀ asked, asked = .null ∨ asked = .obj [] →
      cap ceilings asked = .ok (ofCeilings ceilings)) ∧
    (∀ members, members ≠ [] → (∀ name ∈ names, (Json.obj members).get? name = none) →
      cap ceilings (.obj members) = .ok (ofRaised ceilings)) ∧
    (ofCeilings ceilings = ofRaised ceilings ↔ 0 ≤ ceilings.maxSteps ∧
      (leastTimeout.lt ceilings.timeout ∨ ceilings.timeout = leastTimeout)) ∧
    (∀ asked settings, cap ceilings asked = .ok settings → settings.Within ceilings) ∧
    (∀ members steps timeout, members ≠ [] → askedSteps ceilings (.obj members) = .ok steps →
      askedTimeout ceilings (.obj members) = .ok timeout →
      ∃ settings, cap ceilings (.obj members) = .ok settings ∧ 0 ≤ settings.maxSteps ∧
        (ceilings.timeout = .nan → settings.timeout = leastCeiling timeout)) ∧
    ∀ members more steps moreSteps settings moreSettings, members ≠ [] → more ≠ [] →
      askedSteps ceilings (.obj members) = .ok steps →
      askedSteps ceilings (.obj more) = .ok moreSteps → steps ≤ moreSteps →
      cap ceilings (.obj members) = .ok settings → cap ceilings (.obj more) = .ok moreSettings →
      settings.maxSteps ≤ moreSettings.maxSteps := by
  refine ⟨?_, fun members hne hunknown => ?_, ofCeilings_eq_ofRaised_iff ceilings,
    fun asked settings h => cap_within h, ?_, ?_⟩
  · rintro asked (rfl | rfl) <;> exact cap_of_not_truthy rfl
  · rw [cap_of_unknown hne hunknown, clamp_self]
  · intro members steps timeout hne hsteps htimeout
    refine ⟨_, (cap_obj_eq_ok_iff hne).2 ⟨steps, timeout, hsteps, htimeout, rfl⟩,
      capSteps_nonneg _ _, fun hnan => ?_⟩
    rw [timeout_clamp, hnan, capTimeout_nan]
  · intro members more steps moreSteps settings moreSettings hne hne' hsteps hmore hle h h'
    obtain ⟨granted, timeout, hgranted, -, rfl⟩ := (cap_obj_eq_ok_iff hne).1 h
    obtain ⟨moreGranted, moreTimeout, hmoreGranted, -, rfl⟩ := (cap_obj_eq_ok_iff hne').1 h'
    obtain rfl := Except.ok.inj (hsteps.symm.trans hgranted)
    obtain rfl := Except.ok.inj (hmore.symm.trans hmoreGranted)
    exact capSteps_mono hle

/-- A ceiling that an environment may set by mistake. -/
def negativeCeilings : Ceilings where
  maxSteps := -5
  timeout := Ceilings.defaultTimeout

/-- Under a negative ceiling a client that sends empty settings gets a negative budget, while one
that sends a remark gets a budget of zero. -/
theorem not_cap_alike_negative :
    (Ceilings.ofEnvironment (some "-5") none).toOption = some negativeCeilings ∧
    (¬ ∀ (ceilings : Ceilings) (members : List (Text × Json)), members ≠ [] →
      (∀ name ∈ names, (Json.obj members).get? name = none) →
        cap ceilings (.obj []) = cap ceilings (.obj members)) ∧
    ¬ ∀ (ceilings : Ceilings) (members : List (Text × Json)) (settings : Settings),
      cap ceilings (.obj members) = .ok settings → 0 ≤ settings.maxSteps := by
  have hempty : cap negativeCeilings (.obj []) = .ok (ofCeilings negativeCeilings) :=
    cap_of_not_truthy rfl
  refine ⟨by decide +kernel, fun h => ?_, fun h => ?_⟩
  · have hunknown : ∀ name ∈ names, (Json.obj [("remark", .null)]).get? name = none := by
      decide
    have halike := h negativeCeilings _ (by simp) hunknown
    rw [hempty, cap_of_unknown (by simp) hunknown, clamp_self, Except.ok.injEq,
      ofCeilings_eq_ofRaised_iff] at halike
    exact absurd halike.1 (by decide)
  · exact absurd (h negativeCeilings [] _ hempty) (by decide)

end Settings

end CounterLang
