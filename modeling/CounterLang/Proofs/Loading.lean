import CounterLang.Proofs.Decoding
import CounterLang.Proofs.Display

/-!
# Loading programs

A path gives a program exactly if it leads to a file that holds UTF-8 text. All else is reported by
a diagnostic of one kind, but for a path that the system refuses for its length: for this there is
no diagnostic, and the command is stopped without an exit status.

## Main definitions

* `Loading.Holds`: a path leads to a file that holds a text.
* `Loading.Refused`: the system refuses a path.

## Main statements

* `Loading.load_eq_ok_iff`: what is loaded is the text of a file, cut into statements.
* `Loading.exists_diagnostic`: what is not loaded and not refused has a diagnostic.
* `FileTree.find_ne_nameTooLong`: no path is refused that keeps to the limits on its length.
* `CommandLine.load_or_diagnose`: what the command makes of each case.
-/

namespace CounterLang

/-! ## Paths -/

namespace FileTree

variable {tree : FileTree} {place names : List Text} {path : Text}

theorem exists_name_of_walk (h : tree.walk place names = .nameTooLong) :
    ∃ name ∈ names, Path.maxNameLength < Text.Utf8.encodedLength name := by
  fun_induction walk tree place names with
  | case1 place =>
    rw [contents] at h
    split at h <;> cases h
  | case2 => cases h
  | case3 place rest _ ih =>
    obtain ⟨name, hname, hlong⟩ := ih h
    exact ⟨name, List.mem_cons_of_mem _ hname, hlong⟩
  | case4 place name rest _ _ hlong => exact ⟨name, List.mem_cons_self, hlong⟩
  | case5 place name rest _ _ _ next ih =>
    obtain ⟨name, hname, hlong⟩ := ih h
    exact ⟨name, List.mem_cons_of_mem _ hname, hlong⟩

/-- A path is only refused if it is too long as a whole, or a name in it is. -/
theorem find_ne_nameTooLong (hpath : Text.Utf8.encodedLength path ≤ Path.maxLength)
    (hnames : ∀ name ∈ Path.parts path, Text.Utf8.encodedLength name ≤ Path.maxNameLength) :
    tree.find path ≠ .nameTooLong := by
  intro h
  rw [find] at h
  split at h
  · cases h
  · rw [if_neg (Nat.not_lt.2 hpath)] at h
    obtain ⟨name, hname, hlong⟩ := exists_name_of_walk h
    exact absurd (hnames name hname) (Nat.not_le.2 hlong)

end FileTree

/-! ## Programs -/

namespace Loading

variable {find : Text → Lookup} {path : Option Text} {bytes : List UInt8} {program : Program}

/-- The path leads to a file that holds the text. -/
def Holds (find : Text → Lookup) (path : Option Text) (chars : List Char) : Prop :=
  ∃ name, path = some name ∧ name ≠ [] ∧
    find (Path.normalize name) = .file (Text.Utf8.encode chars)

/-- The system refuses the path for its length. -/
def Refused (find : Text → Lookup) (path : Option Text) : Prop :=
  ∃ name, path = some name ∧ name ≠ [] ∧ find (Path.normalize name) = .nameTooLong

/-- The text of a file as it is cut into statements, with all its line ends alike. -/
def source (chars : List Char) : Text := .ofChars (Text.unifyNewlines chars)

theorem decode_eq_ok_iff : decode bytes = .ok program ↔
    ∃ chars, bytes = Text.Utf8.encode chars ∧ program = .ofSource (source chars) := by
  simp only [decode, ← Text.Utf8.decode_eq_ok_iff]
  cases Text.Utf8.decode bytes with
  | error => simp [Except.map]
  | ok chars => simp [Except.map, source, eq_comm]

/-- What a path leads to decides what is loaded. -/
theorem load_some {name : Text} (hname : name ≠ []) : load find (some name) =
    match find (Path.normalize name) with
    | .file bytes => (decode bytes).mapError (.undecodable (Path.normalize name))
    | .noFile => .error (.notFound (Path.normalize name))
    | .nameTooLong => .error (.pathTooLong (Path.normalize name)) :=
  if_neg (by simpa using hname)

/-- What is loaded is the text of a file, cut into statements. -/
theorem load_eq_ok_iff : load find path = .ok program ↔
    ∃ chars, Holds find path chars ∧ program = .ofSource (source chars) := by
  cases path with
  | none => simp [load, Holds]
  | some name =>
    by_cases hname : name = []
    · simp [load, Holds, hname]
    · rw [load_some hname]
      simp only [Holds, Option.some.injEq, exists_eq_left', hname, not_false_eq_true, ne_eq,
        true_and]
      cases hfind : find (Path.normalize name) with
      | noFile | nameTooLong => simp
      | file bytes =>
        simp only [Lookup.file.injEq, ← decode_eq_ok_iff]
        cases decode bytes <;> simp [Except.mapError]

/-- A path that is refused has no diagnostic. -/
theorem load_of_refused (h : Refused find path) :
    ∃ failure, load find path = .error failure ∧ failure.diagnostic? = none := by
  obtain ⟨name, rfl, hname, hfind⟩ := h
  exact ⟨.pathTooLong (Path.normalize name), by rw [load_some hname, hfind], rfl⟩

/-- What is not loaded has a diagnostic, unless the path is refused. -/
theorem exists_diagnostic {failure : Failure} (h : load find path = .error failure)
    (hrefused : ¬ Refused find path) :
    failure.diagnostic? = some { kind := .configuration, message := failure.message } := by
  cases failure with
  | noPath | notFound | undecodable => rfl
  | pathTooLong long =>
    refine absurd ?_ hrefused
    cases path with
    | none => cases h
    | some name =>
      by_cases hname : name = []
      · rw [load, hname] at h
        cases h
      · rw [load_some hname] at h
        refine ⟨name, rfl, hname, ?_⟩
        split at h
        · rename_i bytes _
          cases hdecode : decode bytes <;> simp [hdecode, Except.mapError] at h
        · cases h
        · assumption

end Loading

/-! ## Invocations -/

namespace CommandLine

open Loading (Holds Refused load source)

variable {find : Text → Lookup} {arguments : List Text} {request : Request} {limit : Option Limit}
  {failure : Loading.Failure}

theorem invoke?_of_load_error (hrequest : Request.parse arguments = .ok request)
    (hlimit : request.budget.limit = .ok limit) (hload : load find request.program = .error failure)
    (fuel : Nat) : invoke? fuel find arguments = some
      (match failure.diagnostic? with
      | some d => diagnosed d
      | none => { exit := .error (.loading failure) }) := by
  rw [invoke?, prepare, hrequest]
  simp only [Request.prepare, hlimit, hload]
  cases failure.diagnostic? <;> rfl

/-- A program is loaded or there is a diagnostic, unless the system refuses the path. Let paths lead
to anything, and let no path, an empty one or any other be given. A program is loaded exactly if the
path leads to a file whose bytes are what some text is written as in UTF-8; the program is that text
with all its line ends alike, cut into statements, and its statements make up that text again. In
all other cases there is a diagnostic of one kind, and the command that is given the path writes it,
writes nothing else, and returns 1. Only for a path that the system refuses for its length there is
none, and the command is stopped without an exit status. In a tree of files no path is refused that
has at most 4095 bytes, and at most 255 bytes in each name. -/
theorem load_or_diagnose (find : Text → Lookup) (path : Option Text) :
    (∀ program, load find path = .ok program ↔
      ∃ chars, Holds find path chars ∧ program = .ofSource (source chars)) ∧
    (∀ chars, (Program.ofSource (source chars)).toSource = source chars) ∧
    ((∀ chars, ¬ Holds find path chars) → ¬ Refused find path → ∃ failure message,
      load find path = .error failure ∧
      failure.diagnostic? = some { kind := .configuration, message } ∧
      ∀ arguments request limit, Request.parse arguments = .ok request → request.program = path →
        request.budget.limit = .ok limit → ∀ fuel, invoke? fuel find arguments =
          some { exit := .ok 1, stdout := [], stderr := ["ConfigurationError: " ++ message] }) ∧
    (Refused find path → ∃ failure, load find path = .error failure ∧ failure.diagnostic? = none ∧
      ∀ arguments request limit, Request.parse arguments = .ok request → request.program = path →
        request.budget.limit = .ok limit → ∀ fuel, invoke? fuel find arguments =
          some { exit := .error (.loading failure) }) ∧
    ∀ tree : FileTree, find = tree.find →
      (∀ name, path = some name →
        Text.Utf8.encodedLength (Path.normalize name) ≤ Path.maxLength ∧
        ∀ part ∈ Path.parts (Path.normalize name),
          Text.Utf8.encodedLength part ≤ Path.maxNameLength) → ¬ Refused find path := by
  refine ⟨fun program => Loading.load_eq_ok_iff, fun chars => Program.toSource_ofSource _,
    fun hholds hrefused => ?_, fun hrefused => ?_, ?_⟩
  · cases hload : load find path with
    | ok program =>
      obtain ⟨chars, hchars, -⟩ := Loading.load_eq_ok_iff.1 hload
      exact absurd hchars (hholds chars)
    | error failure =>
      have hdiagnostic := Loading.exists_diagnostic hload hrefused
      refine ⟨failure, failure.message, rfl, hdiagnostic, ?_⟩
      rintro arguments request limit hrequest rfl hlimit fuel
      rw [invoke?_of_load_error hrequest hlimit hload fuel, hdiagnostic]
      rfl
  · obtain ⟨failure, hload, hdiagnostic⟩ := Loading.load_of_refused hrefused
    refine ⟨failure, hload, hdiagnostic, ?_⟩
    rintro arguments request limit hrequest rfl hlimit fuel
    rw [invoke?_of_load_error hrequest hlimit hload fuel, hdiagnostic]
  · rintro tree rfl hlimits ⟨name, rfl, -, hfind⟩
    obtain ⟨hpath, hparts⟩ := hlimits name rfl
    exact FileTree.find_ne_nameTooLong hpath hparts hfind

/-- A file that ends inside a character. -/
def truncatedTree : FileTree where
  files := [(["p.bb"], [0x63, 0x20, 0xc3])]

/-- A name with one letter too many for a file system. -/
def longName : Text := List.replicate 256 'a'

/-- The file has a diagnostic, and the long name has none. -/
theorem load_or_diagnose_truncated :
    (∃ message, invoke? 0 truncatedTree.find ["-v", "p.bb"] =
      some { exit := .ok 1, stdout := [], stderr := ["ConfigurationError: " ++ message] }) ∧
    ∃ failure, invoke? 0 truncatedTree.find [longName] =
      some { exit := .error (.loading failure) } := by
  constructor
  · have hbytes : truncatedTree.find (Path.normalize "p.bb") = .file [0x63, 0x20, 0xc3] := by
      decide +kernel
    have hdecode : Text.Utf8.decode [0x63, 0x20, 0xc3] =
        .error ⟨[0xc3], 2, .unexpectedEnd⟩ := by
      decide +kernel
    have hholds : ∀ chars, ¬ Holds truncatedTree.find (some "p.bb") chars := by
      rintro chars ⟨name, hname, -, hfind⟩
      cases hname
      rw [hbytes, Lookup.file.injEq, ← Text.Utf8.decode_eq_ok_iff, hdecode] at hfind
      cases hfind
    have hrefused : ¬ Refused truncatedTree.find (some "p.bb") := by
      rintro ⟨name, hname, -, hfind⟩
      cases hname
      rw [hbytes] at hfind
      cases hfind
    obtain ⟨-, -, hdiagnosed, -⟩ := load_or_diagnose truncatedTree.find (some "p.bb")
    obtain ⟨failure, message, -, -, hinvoke⟩ := hdiagnosed hholds hrefused
    have hrequest : (Request.parse ["-v", "p.bb"]).toOption =
        some { program := some "p.bb", verbose := true } := by
      decide +kernel
    exact ⟨message, hinvoke _ _ none (eq_ok_of_toOption hrequest) rfl rfl 0⟩
  · have hrefused : Refused truncatedTree.find (some longName) :=
      ⟨longName, rfl, by decide, by decide +kernel⟩
    obtain ⟨-, -, -, hstopped, -⟩ := load_or_diagnose truncatedTree.find (some longName)
    obtain ⟨failure, -, -, hinvoke⟩ := hstopped hrefused
    have hrequest : (Request.parse [longName]).toOption = some { program := some longName } := by
      decide +kernel
    exact ⟨failure, hinvoke _ _ none (eq_ok_of_toOption hrequest) rfl rfl 0⟩

/-- A long name gives neither a program nor a diagnostic, and the command that is given it does not
return. -/
theorem not_load_or_diagnose_longName :
    (¬ ∀ (tree : FileTree) (name : Text), (∃ program, load tree.find (some name) = .ok program) ∨
      ∃ failure d, load tree.find (some name) = .error failure ∧ failure.diagnostic? = some d) ∧
    ¬ ∀ (tree : FileTree) (name : Text) (invocation : Invocation),
      invoke? 0 tree.find [name] = some invocation → ∃ status, invocation.exit = .ok status := by
  have hrefused : Refused truncatedTree.find (some longName) :=
    ⟨longName, rfl, by decide, by decide +kernel⟩
  obtain ⟨failure, hload, hnone⟩ := Loading.load_of_refused hrefused
  constructor
  · intro h
    rcases h truncatedTree longName with ⟨program, hprogram⟩ | ⟨other, d, hother, hd⟩
    · rw [hload] at hprogram
      cases hprogram
    · rw [hload] at hother
      cases hother
      rw [hnone] at hd
      cases hd
  · intro h
    have hrequest : (Request.parse [longName]).toOption = some { program := some longName } := by
      decide +kernel
    have hinvoke := invoke?_of_load_error (eq_ok_of_toOption hrequest) rfl hload 0
    rw [hnone] at hinvoke
    obtain ⟨status, hstatus⟩ := h _ _ _ hinvoke
    cases hstatus

end CommandLine

end CounterLang
