import CounterLang.Proofs.Failures
import CounterLang.Proofs.Texts
import CounterLang.Proofs.Words

/-!
# Printing and parsing

Lists of tokens are printed with blanks around and between the tokens and with a semicolon between
each two lists. However that is done, parsing gives the lists back; and each source text is one way
to print the lists that it is parsed to.

## Main definitions

* `Text.IsGap`: a run of blanks.
* `Statement.LaidOut`: a text is a way to print a list of tokens.

## Main statements

* `Statement.LaidOut.tokens_eq`: what is printed is parsed to what it was printed from.
* `Statement.laidOut_tokens`: a statement is one way to print its tokens.
* `Program.parse_print`: the same of whole sources.
-/

namespace CounterLang

namespace Text

/-- A run of blanks, which may be empty. -/
def IsGap (gap : Text) : Prop := ∀ point ∈ gap, point.isBlank = true

instance (gap : Text) : Decidable gap.IsGap :=
  inferInstanceAs (Decidable (∀ point ∈ gap, point.isBlank = true))

variable {text gap more : Text}

theorem IsGap.isCut_append (h : gap.IsGap) (hne : gap ≠ []) : IsCut (gap ++ more) := by
  obtain ⟨point, rest, rfl⟩ := List.exists_cons_of_ne_nil hne
  simpa [IsCut] using h point List.mem_cons_self

theorem IsGap.isCut (h : gap.IsGap) : IsCut gap :=
  fun point hpoint => h point (List.mem_of_mem_head? hpoint)

theorem IsGap.words_eq_nil (h : gap.IsGap) : words gap = [] := by
  have hwords := words_append_of_isBlank h []
  rwa [List.append_nil] at hwords

theorem isGap_indent (text : Text) : (indent text).IsGap :=
  fun _ hpoint => List.mem_takeWhile_imp hpoint

/-- No delimiter is a blank. -/
theorem IsGap.delimiter_notMem (h : gap.IsGap) : Program.delimiter ∉ gap :=
  fun hmem => absurd (h _ hmem) (by decide)

end Text

/-! ## Statements -/

namespace Statement

open Text (IsGap IsToken)

/-- The text is a way to print the tokens: there may be blanks before and behind them, and there are
some between each two. -/
inductive LaidOut : List Text → Text → Prop where
  | blank {gap : Text} (hgap : gap.IsGap) : LaidOut [] gap
  | last {before token behind : Text} (hbefore : before.IsGap) (hbehind : behind.IsGap) :
      LaidOut [token] (before ++ (token ++ behind))
  | cons {before token gap next : Text} {tokens : List Text} {more : Text}
      (hbefore : before.IsGap) (hgap : gap.IsGap) (hne : gap ≠ [])
      (hmore : LaidOut (next :: tokens) more) :
      LaidOut (token :: next :: tokens) (before ++ (token ++ (gap ++ more)))

variable {list : List Text} {statement : Text}

/-- What is printed is parsed to what it was printed from. -/
theorem LaidOut.tokens_eq (h : LaidOut list statement) (htokens : ∀ token ∈ list, token.IsToken) :
    tokens statement = list := by
  rw [tokens]
  induction h with
  | blank hgap => exact hgap.words_eq_nil
  | @last before token behind hbefore hbehind =>
    have htoken := htokens token List.mem_cons_self
    rw [Text.words_append_of_isBlank hbefore,
      Text.words_append htoken.ne_nil htoken.isBlank_eq_false hbehind.isCut, hbehind.words_eq_nil]
  | @cons before token gap next list more hbefore hgap hne hmore ih =>
    have htoken := htokens token List.mem_cons_self
    rw [Text.words_append_of_isBlank hbefore,
      Text.words_append htoken.ne_nil htoken.isBlank_eq_false (hgap.isCut_append hne),
      Text.words_append_of_isBlank hgap, ih fun token hmem =>
        htokens token (List.mem_cons_of_mem _ hmem)]

/-- No semicolon is printed. -/
theorem LaidOut.delimiter_notMem (h : LaidOut list statement)
    (htokens : ∀ token ∈ list, token.IsToken) : Program.delimiter ∉ statement := by
  induction h with
  | blank hgap => exact hgap.delimiter_notMem
  | @last before token behind hbefore hbehind =>
    have htoken := htokens token List.mem_cons_self
    simp [hbefore.delimiter_notMem, htoken.delimiter_notMem, hbehind.delimiter_notMem]
  | @cons before token gap next list more hbefore hgap hne hmore ih =>
    have htoken := htokens token List.mem_cons_self
    have hrest := ih fun token hmem => htokens token (List.mem_cons_of_mem _ hmem)
    simp [hbefore.delimiter_notMem, htoken.delimiter_notMem, hgap.delimiter_notMem, hrest]

/-- A statement is one way to print its tokens. -/
theorem laidOut_tokens (statement : Statement) : LaidOut (tokens statement) statement := by
  induction hlength : statement.length using Nat.strong_induction_on generalizing statement with
  | _ length ih =>
    subst hlength
    have hbefore := Text.isGap_indent statement
    have htext : Text.indent statement ++ (Text.firstWord statement ++ Text.behindWord statement) =
        statement := by
      rw [Text.firstWord_append_behindWord, Text.indent, List.takeWhile_append_dropWhile]
    rw [tokens, Text.words_eq]
    split
    · rename_i hnone
      rw [hnone, Text.behindWord_eq_nil hnone, List.append_nil, List.append_nil] at htext
      exact .blank (htext ▸ hbefore)
    · cases hbehind : Text.behindWord statement with
      | nil =>
        have hlast : LaidOut [Text.firstWord statement]
            (Text.indent statement ++ (Text.firstWord statement ++ [])) :=
          .last hbefore (by simp [Text.IsGap])
        rw [← hbehind, htext] at hlast
        exact hlast
      | cons point more =>
        have hpoint := Text.isCut_behindWord statement point (by rw [hbehind]; rfl)
        have hgap : Text.IsGap [point] := List.forall_mem_singleton.2 hpoint
        have hwords : Text.words (point :: more) = Text.words more :=
          Text.words_append_of_isBlank hgap more
        have hshort : more.length < statement.length := by
          rw [← htext, hbehind]
          simp only [List.length_append, List.length_cons]
          omega
        have hmore := ih more.length hshort more rfl
        rw [tokens] at hmore
        rw [hwords]
        rw [hbehind] at htext
        -- What is left is blank if it has no word, and starts the next layout otherwise.
        cases hnext : Text.words more with
        | nil =>
          rw [hnext] at hmore
          cases hmore with
          | blank hrest =>
            have hlast : LaidOut [Text.firstWord statement]
                (Text.indent statement ++ (Text.firstWord statement ++ point :: more)) :=
              .last hbefore (List.forall_mem_cons.2 ⟨hpoint, hrest⟩)
            rwa [htext] at hlast
        | cons next list =>
          rw [hnext] at hmore
          have hcons : LaidOut (Text.firstWord statement :: next :: list)
              (Text.indent statement ++ (Text.firstWord statement ++ ([point] ++ more))) :=
            .cons hbefore hgap (List.cons_ne_nil point []) hmore
          rwa [List.singleton_append, htext] at hcons

/-- A list of tokens is what a statement is parsed to exactly if the statement is a way to print
it. -/
theorem tokens_eq_iff (htokens : ∀ token ∈ list, token.IsToken) :
    tokens statement = list ↔ LaidOut list statement :=
  ⟨fun h => h ▸ laidOut_tokens statement, fun h => h.tokens_eq htokens⟩

end Statement

/-! ## Sources -/

namespace Program

/-- Statements that are printed have no semicolon, and the tokens that they were printed from. -/
theorem map_tokens_of_laidOut {lists : List (List Text)} {program : Program}
    (h : List.Forall₂ Statement.LaidOut lists program)
    (htokens : ∀ list ∈ lists, ∀ token ∈ list, token.IsToken) :
    (∀ statement ∈ program, delimiter ∉ statement) ∧ program.map Statement.tokens = lists := by
  induction h with
  | nil => simp
  | @cons list statement lists program hlaid h ih =>
    obtain ⟨hlist, hlists⟩ := List.forall_mem_cons.1 htokens
    obtain ⟨hdelimiter, hmap⟩ := ih hlists
    refine ⟨List.forall_mem_cons.2 ⟨hlaid.delimiter_notMem hlist, hdelimiter⟩, ?_⟩
    rw [List.map_cons, hlaid.tokens_eq hlist, hmap]

/-- Printing and parsing are inverse to each other. Lists of tokens, at least one list, may be
printed with any blanks around the tokens, at least one between each two, and a semicolon between
each two lists: the source is parsed to the same lists, also where some are empty. Conversely the
statements that a source is cut into make up the source again, there is one more of them than there
are semicolons, their tokens hold nothing that separates tokens or statements, and they are one way
to print their tokens. The line of the trace that shows a statement has the same tokens behind the
number. -/
theorem parse_print :
    (∀ (lists : List (List Text)) (program : Program), lists ≠ [] →
      (∀ list ∈ lists, ∀ token ∈ list, token.IsToken) →
      List.Forall₂ Statement.LaidOut lists program →
        (ofSource (toSource program)).map Statement.tokens = lists) ∧
    ∀ source, toSource (ofSource source) = source ∧
      (ofSource source).length = source.count delimiter + 1 ∧
      ∀ statement ∈ ofSource source,
        (∀ token ∈ Statement.tokens statement, token.IsToken) ∧
        Statement.LaidOut (Statement.tokens statement) statement ∧
        ∃ shown : Text, Statement.tokens shown = Statement.tokens statement ∧
          ∀ (m : Machine) (o : Options), o.trace = true →
            (m.arrive o statement).trace =
              m.trace ++ [m.store.render, Text.decimal m.line ++ " - " ++ shown] := by
  refine ⟨fun lists program hne htokens hlaid => ?_, fun source => ⟨toSource_ofSource source,
    length_ofSource source, fun statement hstatement => ⟨fun token htoken =>
      isToken_of_mem_ofSource hstatement htoken, Statement.laidOut_tokens statement,
      Text.trim statement, Text.words_trim statement, fun m o htrace => ?_⟩⟩⟩
  · have hprogram : program ≠ [] := by
      rintro rfl
      cases hlaid
      exact hne rfl
    obtain ⟨hdelimiter, hmap⟩ := map_tokens_of_laidOut hlaid htokens
    rw [ofSource_toSource hprogram hdelimiter, hmap]
  · rw [Machine.trace_arrive, if_pos htrace]

/-- A list is printed with blanks on all sides, and an empty one as a blank behind it. -/
theorem parse_print_increment : (ofSource "\tincr\u3000x ;\n").map Statement.tokens =
    ([["incr", "x"], []] : List (List Text)) := by
  have hsource : toSource ["\tincr\u3000x ", "\n"] = "\tincr\u3000x ;\n" := by decide +kernel
  have htext : ("\tincr\u3000x " : Text) =
      "\t" ++ ("incr" ++ ("\u3000" ++ ("" ++ ("x" ++ " ")))) := by
    decide +kernel
  have hlaid : Statement.LaidOut ["incr", "x"] "\tincr\u3000x " := by
    rw [htext]
    exact .cons (by decide) (by decide) (by decide) (.last (by decide) (by decide))
  rw [← hsource]
  exact parse_print.1 _ _ (List.cons_ne_nil _ _) (by decide +kernel)
    (.cons hlaid (.cons (.blank (by decide)) .nil))

end Program

end CounterLang
