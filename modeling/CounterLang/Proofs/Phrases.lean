import CounterLang.Proofs.Blocks
import Mathlib.Data.List.Forall2

/-!
# Phrases

The phrases of a program are its statements that are not blank, each with its line. They are all
that the search for the end of a block looks at: the block can be cut out of the phrases alone.

## Main definitions

* `Program.phrases`: the statements that are not blank, with their lines.
* `Program.tokenLists`: the tokens of these statements.
* `Block.cut?`: a block cut out of phrases.

## Main statements

* `Block.cut?_phrases`: the phrases of a block are the block of the phrases.
* `Block.cut?_forall₂`: the same block is cut out of phrases of the same roles.
-/

namespace CounterLang

/-- A statement that is not blank, with its line. -/
abbrev Phrase := Int × Statement

namespace Program

/-- The statements that are not blank, with their lines, where the first statement is on `line`. -/
def phrases (line : Int) : Program → List Phrase
  | [] => []
  | statement :: rest =>
    if Statement.isBlank statement then phrases (line + 1) rest
    else (line, statement) :: phrases (line + 1) rest

/-- The tokens of the statements that are not blank. -/
def tokenLists (program : Program) : List (List Text) :=
  (program.map Statement.tokens).filter fun tokens => !tokens.isEmpty

variable {line : Int} {statement : Statement} {rest : Program}

@[simp] theorem phrases_nil : phrases line [] = [] := rfl

theorem phrases_cons_of_isBlank (h : Statement.isBlank statement = true) :
    phrases line (statement :: rest) = phrases (line + 1) rest := by
  rw [phrases, if_pos h]

theorem phrases_cons_of_not_isBlank (h : Statement.isBlank statement = false) :
    phrases line (statement :: rest) = (line, statement) :: phrases (line + 1) rest := by
  rw [phrases, if_neg (by simp [h])]

/-- Blank statements at the start are no phrases. -/
theorem phrases_dropWhile (line : Int) (program : Program) :
    phrases (line + (program.takeWhile Statement.isBlank).length)
      (program.dropWhile Statement.isBlank) = phrases line program := by
  induction program generalizing line with
  | nil => rfl
  | cons statement rest ih =>
    cases hblank : Statement.isBlank statement with
    | false => simp [hblank]
    | true =>
      rw [List.takeWhile_cons_of_pos hblank, List.dropWhile_cons_of_pos hblank,
        phrases_cons_of_isBlank hblank, ← ih (line + 1), List.length_cons]
      push_cast
      rw [show line + 1 + ((rest.takeWhile Statement.isBlank).length : Int) =
        line + ((rest.takeWhile Statement.isBlank).length + 1) by omega]

/-- The phrases have the tokens of the statements that are not blank. -/
theorem map_tokens_phrases (line : Int) (program : Program) :
    (phrases line program).map (fun phrase => Statement.tokens phrase.2) = tokenLists program := by
  induction program generalizing line with
  | nil => rfl
  | cons statement rest ih =>
    rw [tokenLists, List.map_cons, List.filter_cons, ← tokenLists, ← ih (line + 1)]
    cases hblank : Statement.isBlank statement with
    | true =>
      rw [phrases_cons_of_isBlank hblank, if_neg (by simpa [Statement.isBlank] using hblank)]
    | false =>
      rw [phrases_cons_of_not_isBlank hblank, if_pos (by simpa [Statement.isBlank] using hblank)]
      rfl

end Program

namespace Block

/-- Cuts phrases at the `end` that closes the block they start with, with `depth` inner blocks still
open: the phrases of the body, and those behind the `end`. -/
def cut? (depth : Nat) : List Phrase → Option (List Phrase × List Phrase)
  | [] => none
  | phrase :: rest =>
    match phrase.2.role.after? depth with
    | none => some ([], rest)
    | some next => (cut? next rest).map fun parts => (phrase :: parts.1, parts.2)

/-- A block is cut out of the phrases as it is cut out of the statements. -/
theorem cut?_phrases (depth : Nat) (line : Int) (program : Program) :
    cut? depth (program.phrases line) = (split? depth program).map fun block =>
      (block.body.phrases line, block.rest.phrases (line + block.body.length + 1)) := by
  induction program generalizing depth line with
  | nil => rfl
  | cons statement rest ih =>
    have hlines : ∀ body : Program, line + 1 + (body.length : Int) + 1 =
        line + ((statement :: body).length : Int) + 1 := by
      intro body
      rw [List.length_cons]
      push_cast
      omega
    rw [split?_cons]
    cases hblank : Statement.isBlank statement with
    | true =>
      have hrole : statement.role = .plain := by
        rw [Statement.role, List.isEmpty_iff.1 hblank]
        rfl
      rw [Program.phrases_cons_of_isBlank hblank, ih, hrole]
      simp only [Statement.Role.after?, Option.map_map]
      refine congrArg (Option.map · _) (funext fun block => ?_)
      simp only [Function.comp, body_cons, rest_cons, Program.phrases_cons_of_isBlank hblank,
        hlines block.body]
    | false =>
      rw [Program.phrases_cons_of_not_isBlank hblank, cut?]
      cases statement.role.after? depth with
      | none => simp
      | some next =>
        simp only [ih, Option.map_map]
        refine congrArg (Option.map · _) (funext fun block => ?_)
        simp only [Function.comp, body_cons, rest_cons,
          Program.phrases_cons_of_not_isBlank hblank, hlines block.body]

/-- Where the roles are the same, the same phrases are cut out. -/
theorem cut?_forall₂ {P : Phrase → Phrase → Prop}
    (hrole : ∀ phrase other, P phrase other → phrase.2.role = other.2.role) (depth : Nat)
    {phrases others : List Phrase} (h : List.Forall₂ P phrases others) :
    Option.Rel (fun parts other => List.Forall₂ P parts.1 other.1 ∧ List.Forall₂ P parts.2 other.2)
      (cut? depth phrases) (cut? depth others) := by
  induction h generalizing depth with
  | nil => exact .none
  | @cons phrase other phrases others hphrase hrest ih =>
    rw [cut?, cut?, hrole phrase other hphrase]
    cases other.2.role.after? depth with
    | none => exact .some ⟨.nil, hrest⟩
    | some next =>
      have hnext := ih next
      simp only
      generalize cut? next phrases = parts at hnext ⊢
      generalize cut? next others = otherParts at hnext ⊢
      cases hnext with
      | none => exact .none
      | some hparts => exact .some ⟨.cons hphrase hparts.1, hparts.2⟩

end Block

end CounterLang
