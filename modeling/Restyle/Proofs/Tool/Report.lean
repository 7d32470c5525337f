import Restyle.Proofs.File.Path
import Restyle.Proofs.Text.Number
import Restyle.Proofs.Tool.Diagnostic

/-! # Errors as they are printed and as they are read

The tool prints an error as its place, the word `error` and a message, and may go on behind that line.
Whatever the path, the numbers, the message and the text behind them are, what is printed is read as that
error.  Conversely no error is read that is not written: its path, its line and its column stand in the
text, the numbers in ASCII digits, and a text in which no error is read is kept as a whole.
-/
namespace Restyle

namespace Text

theorem isDigit_of_ascii {c : Char} (h : c.isDigit = true) : isDigit c = true := by
  have hc : 0x30 ≤ c.toNat ∧ c.toNat ≤ 0x39 := by
    simpa [Char.isDigit, UInt32.le_iff_toNat_le] using h
  have hlow : c.toNat < 0x80 := by omega
  simp [isDigit, isAsciiDigit, hlow, hc]

theorem trimStart_cons_blank {c : Char} {cs : List Char} (h : isBlank c = true) :
    trimStart (c :: cs) = trimStart cs := by
  simp [trimStart, h]

theorem isEmpty_trimChars (cs : List Char) : (trimChars cs).isEmpty = cs.all isBlank := by
  by_cases h : ∀ c ∈ cs, isBlank c = true
  · have hs : trimStart cs = [] := List.dropWhile_eq_nil_iff.mpr h
    rw [trimChars, hs, List.all_eq_true.mpr h]
    rfl
  · -- The first character that stays when the front is trimmed is no blank, so trimming the end stops there.
    obtain ⟨c, rest, hs⟩ := List.exists_cons_of_ne_nil (mt List.dropWhile_eq_nil_iff.mp h)
    have hc : isBlank c = false := by
      have := List.head_dropWhile_not isBlank (l := cs) (by simp [hs])
      simpa [hs] using this
    have hne : trimChars cs ≠ [] := by
      rw [trimChars, trimStart, hs, trimEnd, ne_eq, List.reverse_eq_nil_iff, List.dropWhile_eq_nil_iff]
      intro hall
      simp [hall c] at hc
    rw [List.isEmpty_eq_false_iff.mpr hne, eq_comm, List.all_eq_false]
    simpa using h

end Text

namespace Path

/-- The last part of a path, or the whole path if it has none or ends on a part that leads upwards. -/
def baseName (path : String) : String :=
  match (key path).parts.getLast? with
  | none => path
  | some part => if part = ['.', '.'] then path else String.ofList part

theorem baseName_eq (path : String) : baseName path = (fileName? path).getD path := by
  rw [fileName?_eq, baseName]
  cases (key path).parts.getLast? with
  | none => rfl
  | some part => by_cases h : part = ['.', '.'] <;> simp [h]

def ofReported (cs : List Char) : String := String.ofList (cs.map fun c => if c = '\\' then '/' else c)

end Path

namespace Diagnostic

/-! ### Numbers -/

/-- Decimal digits that denote a number from 1 to the largest word. -/
def Denotes (digits : List Char) (n : Nat) : Prop :=
  Filled Char.isDigit digits ∧ Nat.ofDigitChars 10 digits 0 = n ∧ 0 < n ∧ n ≤ maxWord

theorem positive?_eq_some_iff {digits : List Char} {n : Nat} (h : Filled Text.isDigit digits) :
    positive? digits = some n ↔ Denotes digits n := by
  have hread : positive? digits = some n ↔ Text.IsWord digits n ∧ 0 < n := by
    rw [← Text.readWord_eq_ok_iff, positive?]
    cases Text.readWord digits with
    | error fault => simp
    | ok k => by_cases hk : k = 0 <;> simp [hk] <;> omega
  rw [hread]
  constructor
  · rintro ⟨⟨ds, hds, hne, hdigits, hvalue, hle⟩, hpos⟩
    -- A plus sign may stand before a number, but not among digits.
    rcases hds with rfl | rfl
    · exact ⟨⟨hne, hdigits⟩, hvalue, hpos, hle⟩
    · exact absurd (h.2 '+' List.mem_cons_self) (by decide +kernel)
  · rintro ⟨⟨hne, hdigits⟩, hvalue, hpos, hle⟩
    exact ⟨⟨digits, .inl rfl, hne, hdigits, hvalue, hle⟩, hpos⟩

theorem pos_of_positive? {digits : List Char} {n : Nat} (h : positive? digits = some n) : 0 < n := by
  unfold positive? at h
  split at h
  · split at h
    · cases h
    · cases h
      omega
  · cases h

theorem filled_toString (n : Nat) : Filled Char.isDigit (toString n).toList :=
  ⟨Text.toList_toString_ne_nil n, fun _ hc => Text.isDigit_of_mem_toString hc⟩

theorem Filled.isDigit_of_ascii {cs : List Char} (h : Filled Char.isDigit cs) : Filled Text.isDigit cs :=
  ⟨h.1, fun c hc => Text.isDigit_of_ascii (h.2 c hc)⟩

theorem denotes_toString {n : Nat} (h : 0 < n ∧ n ≤ maxWord) : Denotes (toString n).toList n := by
  refine ⟨filled_toString n, ?_, h⟩
  rw [Text.toList_toString, Nat.ofDigitChars_ten_toDigits]

/-! ### What an error is told as -/

def IsPath (cs : List Char) : Prop :=
  ∃ start name, cs = start ++ name ∧ IsStart start ∧ Filled isFileChar name

def describe (d : Diagnostic) (line column : Nat) (rest : List Char) : String :=
  let head := s!"{Path.baseName (Path.ofReported d.file)}:{line}:{column}: {String.ofList (Text.trimEnd d.message)}"
  if rest.all Text.isBlank then head else head ++ "\n" ++ String.ofList (Text.trimChars rest)

theorem validation?_eq_some {cs rest : List Char} {d : Diagnostic} {line column : Nat}
    (hfirst : first? cs = some (d, rest)) (hseverity : d.severity = "error".toList)
    (hline : positive? d.line = some line) (hcolumn : positive? d.column = some column) :
    validation? cs = some (.validation (d.describe line column rest)
      ⟨Path.ofReported d.file, line - 1, column - 1⟩) := by
  simp [validation?, hfirst, hseverity, hline, hcolumn, describe, Path.baseName_eq, Path.ofReported,
    Text.isEmpty_trimChars]

end Diagnostic

open Diagnostic

structure PrintedError where
  file : String
  line : Nat
  column : Nat
  message : String
  isPath : IsPath file.toList
  line_word : 0 < line ∧ line ≤ maxWord
  column_word : 0 < column ∧ column ≤ maxWord
  oneLine : '\n' ∉ message.toList
  starts : ∃ c cs, message.toList = c :: cs ∧ Text.isBlank c = false

namespace PrintedError

def text (e : PrintedError) (tail : Option String) : String :=
  e.file ++ ":" ++ toString e.line ++ ":" ++ toString e.column ++ ": error: " ++ e.message ++ tail.elim "" ("\n" ++ ·)

def path (e : PrintedError) : String := Path.ofReported e.file.toList

def description (e : PrintedError) (tail : Option String) : String :=
  let head := s!"{Path.baseName e.path}:{e.line}:{e.column}: {String.ofList (Text.trimEnd e.message.toList)}"
  let more := tail.getD ""
  if Text.isBlankText more then head else head ++ "\n" ++ Text.trim more

def behind (tail : Option String) : List Char := tail.elim [] ('\n' :: ·.toList)

theorem all_isBlank_behind (tail : Option String) :
    (behind tail).all Text.isBlank = Text.isBlankText (tail.getD "") := by
  have hbreak : Text.isBlank '\n' = true := by decide
  cases tail <;> simp [behind, Text.isBlankText, hbreak]

theorem trimChars_behind (tail : Option String) :
    String.ofList (Text.trimChars (behind tail)) = Text.trim (tail.getD "") := by
  have hbreak : Text.isBlank '\n' = true := by decide
  cases tail <;> simp [behind, Text.trim, Text.trimChars, Text.trimStart_cons_blank hbreak]

theorem takeWhile_message (e : PrintedError) (tail : Option String) :
    (e.message.toList ++ behind tail).takeWhile (· ≠ '\n') = e.message.toList ∧
      (e.message.toList ++ behind tail).dropWhile (· ≠ '\n') = behind tail := by
  have hmessage : ∀ c ∈ e.message.toList, decide (c ≠ '\n') = true := by
    intro c hc
    rw [decide_eq_true_eq]
    rintro rfl
    exact e.oneLine hc
  rw [List.takeWhile_append_of_pos hmessage, List.dropWhile_append_of_pos hmessage]
  cases tail <;> simp [behind]

theorem first?_text (e : PrintedError) (tail : Option String) :
    first? (e.text tail).toList = some (⟨e.file.toList, (toString e.line).toList, (toString e.column).toList,
      "error".toList, e.message.toList⟩, behind tail) := by
  obtain ⟨start, name, hfile, hstart, hname⟩ := e.isPath
  have hblank : Blanks [' '] := by simp [Blanks]; decide
  have herror : Filled Text.isWord "error".toList := by simp [Filled]; decide
  let head : Head := ⟨⟨start, name, _, _, hstart, hname, (filled_toString e.line).isDigit_of_ascii,
    (filled_toString e.column).isDigit_of_ascii⟩, [], [' '], _, by simp [Blanks], hblank, herror⟩
  have htext : (e.text tail).toList = head.text ++ ' ' :: (e.message.toList ++ behind tail) := by
    cases tail <;> simp [text, head, Head.text, Place.text, hfile, behind]
  -- The message starts with no blank, so only the blank after the colon is passed over.
  have htrim : Text.trimStart (' ' :: (e.message.toList ++ behind tail)) = e.message.toList ++ behind tail := by
    obtain ⟨c, cs, hmessage, hc⟩ := e.starts
    rw [Text.trimStart_cons_blank (by decide), Text.trimStart, hmessage]
    simp [hc]
  obtain ⟨htake, hdrop⟩ := e.takeWhile_message tail
  have hfront := atFront?_eq_some_iff.mpr ⟨head, ' ' :: (e.message.toList ++ behind tail), htext, rfl, rfl⟩
  rw [first?_eq_some_of_atFront? hfront, Head.diagnostic, htrim, htake, hdrop]
  simp [head, hfile]

theorem isPrefixOf_text (e : PrintedError) (tail : Option String) :
    missingLanguageMarker.isPrefixOf (e.text tail).toList = false := by
  obtain ⟨start, name, hfile, hstart, -⟩ := e.isPath
  obtain ⟨rest, htext⟩ : ∃ rest, (e.text tail).toList = start ++ rest := ⟨_, by simp [text, hfile]; rfl⟩
  -- The marker starts with a letter that no colon follows.
  obtain ⟨more, hmarker⟩ : ∃ more, missingLanguageMarker = 'C' :: 'o' :: more := ⟨_, rfl⟩
  rw [htext, hmarker]
  cases hstart with
  | root => rfl
  | drive hletter => simp [List.isPrefixOf]

end PrintedError

/-- What is printed for an error is read as that error. -/
theorem classify_printed (e : PrintedError) (tail : Option String) (exitCode : Int) (stdout invocation : String) :
    classify exitCode stdout (e.text tail) invocation =
      .validation (e.description tail) ⟨e.path, e.line - 1, e.column - 1⟩ := by
  have hline := (positive?_eq_some_iff (filled_toString e.line).isDigit_of_ascii).mpr (denotes_toString e.line_word)
  have hcolumn :=
    (positive?_eq_some_iff (filled_toString e.column).isDigit_of_ascii).mpr (denotes_toString e.column_word)
  have hread := validation?_eq_some (e.first?_text tail) rfl hline hcolumn
  have hdescribe : Diagnostic.describe ⟨e.file.toList, (toString e.line).toList, (toString e.column).toList,
      "error".toList, e.message.toList⟩ e.line e.column (PrintedError.behind tail) = e.description tail := by
    simp only [Diagnostic.describe, PrintedError.all_isBlank_behind, PrintedError.trimChars_behind]
    rfl
  rw [hdescribe] at hread
  simp only [classify, e.isPrefixOf_text tail, Bool.false_eq_true, if_false, hread]
  rfl

/-- An error on a drive, with blanks in its path and a message that looks like an error of its own. -/
def driveError : PrintedError where
  file := "C:\\my project\\.clang-format"
  line := 12
  column := 1
  message := "/tmp/x:9:9: error: unknown key "
  isPath := ⟨['C', ':'], "\\my project\\.clang-format".toList, rfl, .drive (by decide), by decide,
    List.all_eq_true.mp (by decide)⟩
  line_word := by decide
  column_word := by decide
  oneLine := by decide
  starts := ⟨'/', _, rfl, by decide⟩

theorem classify_printed_driveError :
    classify 1 "" (driveError.text (some "\nIndentWdth: 4\n^~~~\n")) "clang-format" =
      .validation ".clang-format:12:1: /tmp/x:9:9: error: unknown key\nIndentWdth: 4\n^~~~"
        ⟨"C:/my project/.clang-format", 11, 0⟩ :=
  (classify_printed driveError _ 1 "" "clang-format").trans (by decide +kernel)

/-! ### No error is read that is not written -/

namespace Diagnostic

def Written (cs : List Char) (p : Position) : Prop :=
  ∃ before path line column gap lead after,
    cs = before ++ (path ++ ':' :: (line ++ ':' :: (column ++ (gap ++ ':' :: (lead ++ ("error:".toList ++ after)))))) ∧
    IsPath path ∧ p.file = Path.ofReported path ∧ Denotes line (p.line + 1) ∧ Denotes column (p.column + 1) ∧
    Blanks gap ∧ Blanks lead

theorem position?_eq_some {d : Diagnostic} {p : Position} (h : d.position? = some p) :
    d.severity = "error".toList ∧ positive? d.line = some (p.line + 1) ∧ positive? d.column = some (p.column + 1) := by
  simp only [position?, Option.bind_eq_bind, Option.pure_def] at h
  split at h
  · cases h
  · rename_i hseverity
    simp only [Option.bind_eq_some_iff, Option.some.injEq] at h
    obtain ⟨line, hline, column, hcolumn, rfl⟩ := h
    have hl := pos_of_positive? hline
    have hc := pos_of_positive? hcolumn
    refine ⟨not_not.mp hseverity, ?_, ?_⟩
    · rw [hline, Nat.sub_add_cancel hl]
    · rw [hcolumn, Nat.sub_add_cancel hc]

theorem written_of_first? {cs rest : List Char} {d : Diagnostic} {p : Position} (hfirst : first? cs = some (d, rest))
    (hp : d.position? = some p) : Written cs p := by
  obtain ⟨before, s, rfl, hfront⟩ := exists_suffix_of_first? hfirst
  obtain ⟨head, tail, rfl, rfl, -⟩ := atFront?_eq_some_iff.mp hfront
  obtain ⟨hseverity, hline, hcolumn⟩ := position?_eq_some hp
  refine ⟨before, head.start ++ head.name, head.line, head.column, head.gap, head.lead, tail, ?_,
    ⟨_, _, rfl, head.isStart, head.filled_name⟩, file_of_position? hp, (positive?_eq_some_iff head.filled_line).mp hline,
    (positive?_eq_some_iff head.filled_column).mp hcolumn, head.blanks_gap, head.blanks_lead⟩
  simp [Head.text, Place.text, show head.severity = "error".toList from hseverity]

end Diagnostic

theorem exists_validation_of_validation? {cs : List Char} {failure : Failure} (h : validation? cs = some failure) :
    ∃ description p, failure = .validation description p := by
  simp only [validation?, Option.bind_eq_bind, Option.pure_def, Option.bind_eq_some_iff] at h
  obtain ⟨⟨d, rest⟩, -, h⟩ := h
  split at h
  · cases h
  · simp only [Option.bind_eq_some_iff, Option.some.injEq] at h
    obtain ⟨line, -, column, -, rfl⟩ := h
    exact ⟨_, _, rfl⟩

/-- A failed run is told apart by its error output: it starts with the marker, or an error is written in it at
the place that the failure names, or the failure keeps it whole. -/
theorem classify_cases (exitCode : Int) (stdout stderr invocation : String) :
    ((∃ text, classify exitCode stdout stderr invocation = .unsupportedLanguage text) ↔
      missingLanguageMarker <+: stderr.toList) ∧
    (classify exitCode stdout stderr invocation = .unsupportedLanguage (Text.trim stderr) ∨
      (∃ description p, classify exitCode stdout stderr invocation = .validation description p ∧
        Written stderr.toList p) ∨
      classify exitCode stdout stderr invocation = .toolFailure ("Exit code " ++ toString exitCode ++ " from " ++
        invocation ++ "\n" ++ if Text.isBlankText stderr then stdout else stderr)) := by
  by_cases hmarker : missingLanguageMarker.isPrefixOf stderr.toList = true
  · have hclassify : classify exitCode stdout stderr invocation = .unsupportedLanguage (Text.trim stderr) := by
      rw [classify, if_pos hmarker]
    exact ⟨⟨fun _ => List.isPrefixOf_iff_prefix.mp hmarker, fun _ => ⟨_, hclassify⟩⟩, .inl hclassify⟩
  · have hnot : ¬missingLanguageMarker <+: stderr.toList := fun h => hmarker (List.isPrefixOf_iff_prefix.mpr h)
    rw [classify, if_neg hmarker]
    cases hread : validation? stderr.toList with
    | none => exact ⟨by simp [hnot], .inr (.inr rfl)⟩
    | some failure =>
      obtain ⟨description, p, rfl⟩ := exists_validation_of_validation? hread
      have hposition := validation?_position? stderr.toList
      rw [hread] at hposition
      obtain ⟨⟨d, rest⟩, hfirst, hp⟩ := Option.bind_eq_some_iff.mp hposition.symm
      exact ⟨by simp [hnot], .inr (.inl ⟨description, p, rfl, written_of_first? hfirst hp⟩)⟩

/-- A digit of another script is a digit, but no number is read from it. -/
example : (classify 1 "" "/tmp/.clang-format:\u0664:2: error: unknown key" "clang-format").position? = none := by
  decide +kernel

end Restyle
