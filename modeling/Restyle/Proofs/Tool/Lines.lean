import Restyle.Proofs.Tool.Diagnostic

/-! # Diagnostics and lines

The reader knows nothing of lines: a path may hold a line break, and so may the blanks around the colon
after the column.  A line is `Settled` if no reading begins in it, neither one that ends there nor one that
is still open at its end.
-/
namespace Restyle
namespace Diagnostic

/-- A start and further characters of a file, up to the end of the text. -/
def OpenPath (s : List Char) : Prop :=
  ∃ start name, s = start ++ name ∧ IsStart start ∧ ∀ c ∈ name, isFileChar c = true

/-- Texts at whose end the reader waits for something that may come after a line break. -/
inductive RunsOn : List Char → Prop
  | path {s : List Char} : OpenPath s → RunsOn s
  | gap (p : Place) {gap : List Char} : Blanks gap → RunsOn (p.text ++ gap)
  | lead (p : Place) {gap lead : List Char} : Blanks gap → Blanks lead → RunsOn (p.text ++ (gap ++ ':' :: lead))

/-- No reading begins in the line that finds a diagnostic or goes on behind it. -/
def Settled (line : List Char) : Prop := ∀ s, s <:+ line → atFront? s = none ∧ ¬RunsOn s

theorem Settled.of_suffix {line s : List Char} (h : Settled line) (hs : s <:+ line) : Settled s :=
  fun t ht => h t (ht.trans hs)

/-! ### A line break in a head -/

section
variable {s rest p q : List Char}

/-- A line break after `s` lies behind `p`, or it lies in `p`. -/
theorem append_break_cases (h : s ++ '\n' :: rest = p ++ q) :
    (∃ s', s = p ++ s' ∧ s' ++ '\n' :: rest = q) ∨ ∃ p', p = s ++ '\n' :: p' ∧ rest = p' ++ q := by
  rcases List.append_eq_append_iff.mp h with ⟨more, rfl, hmore⟩ | ⟨s', rfl, rfl⟩
  · cases more with
    | nil => exact .inl ⟨[], by simp, by simpa using hmore⟩
    | cons c more =>
      obtain ⟨rfl, rfl⟩ := List.cons.inj hmore
      exact .inr ⟨more, rfl, rfl⟩
  · exact .inl ⟨s', rfl, rfl⟩

theorem append_break_of_not_mem (hp : '\n' ∉ p) (h : s ++ '\n' :: rest = p ++ q) :
    ∃ s', s = p ++ s' ∧ s' ++ '\n' :: rest = q := by
  rcases append_break_cases h with hs | ⟨p', rfl, -⟩
  · exact hs
  · simp at hp

theorem cons_of_append_break {c : Char} (hc : c ≠ '\n') (h : s ++ '\n' :: rest = c :: q) :
    ∃ s', s = c :: s' ∧ s' ++ '\n' :: rest = q := by
  obtain ⟨s', rfl, h'⟩ := append_break_of_not_mem (p := [c]) (by simpa using hc.symm) (by simpa using h)
  exact ⟨s', rfl, h'⟩

end

theorem IsStart.not_mem_break {start : List Char} (h : IsStart start) : '\n' ∉ start := by
  cases h with
  | root => decide
  | drive hc =>
    rintro hmem
    rcases List.mem_cons.mp hmem with rfl | hmem
    · exact absurd hc (by decide)
    · simp at hmem

theorem Filled.not_mem_break {kind : Char → Bool} {cs : List Char} (h : Filled kind cs) (hk : kind '\n' = false) :
    '\n' ∉ cs := by
  intro hmem
  have := h.2 _ hmem
  simp [hk] at this

theorem isDigit_break : Text.isDigit '\n' = false := by decide +kernel
theorem isWord_break : Text.isWord '\n' = false := by decide +kernel

/-- A head that a line break interrupts leaves a text that runs on. -/
theorem runsOn_of_head {s rest tail : List Char} (h : Head) (he : s ++ '\n' :: rest = h.text ++ tail) :
    RunsOn s ∨ ∃ tail', s = h.text ++ tail' := by
  simp only [Head.text, Place.text, List.append_assoc, List.cons_append, List.nil_append] at he
  obtain ⟨s₁, rfl, hname⟩ := append_break_of_not_mem h.isStart.not_mem_break he
  rcases append_break_cases hname with ⟨s₂, rfl, hcolon₁⟩ | ⟨name, hname, -⟩
  swap
  · refine .inl (.path ⟨h.start, s₁, rfl, h.isStart, fun c hc => h.filled_name.2 c ?_⟩)
    simp [hname, hc]
  obtain ⟨s₃, rfl, hline⟩ := cons_of_append_break (by decide) hcolon₁
  obtain ⟨s₄, rfl, hcolon₂⟩ := append_break_of_not_mem (h.filled_line.not_mem_break isDigit_break) hline
  obtain ⟨s₅, rfl, hcolumn⟩ := cons_of_append_break (by decide) hcolon₂
  obtain ⟨s₆, rfl, hgap⟩ := append_break_of_not_mem (h.filled_column.not_mem_break isDigit_break) hcolumn
  rcases append_break_cases hgap with ⟨s₇, rfl, hcolon₃⟩ | ⟨gap, hgap, -⟩
  swap
  · have hs₆ : Blanks s₆ := fun c hc => h.blanks_gap c (by simp [hgap, hc])
    simpa [Place.text] using Or.inl (RunsOn.gap h.toPlace hs₆)
  obtain ⟨s₈, rfl, hlead⟩ := cons_of_append_break (by decide) hcolon₃
  rcases append_break_cases hlead with ⟨s₉, rfl, hseverity⟩ | ⟨lead, hlead, -⟩
  swap
  · have hs₈ : Blanks s₈ := fun c hc => h.blanks_lead c (by simp [hlead, hc])
    simpa [Place.text] using Or.inl (RunsOn.lead h.toPlace h.blanks_gap hs₈)
  obtain ⟨s₁₀, rfl, hcolon₄⟩ := append_break_of_not_mem (h.filled_severity.not_mem_break isWord_break) hseverity
  obtain ⟨tail', rfl, -⟩ := cons_of_append_break (by decide) hcolon₄
  exact .inr ⟨tail', by simp [Head.text, Place.text]⟩

theorem atFront?_append_break {s : List Char} (rest : List Char) (hfront : atFront? s = none) (hs : ¬RunsOn s) :
    atFront? (s ++ '\n' :: rest) = none := by
  by_contra hsome
  obtain ⟨⟨d, more⟩, hfound⟩ := Option.ne_none_iff_exists'.mp hsome
  obtain ⟨h, tail, he, -⟩ := atFront?_eq_some_iff.mp hfound
  rcases runsOn_of_head h he with hruns | ⟨tail', rfl⟩
  · exact hs hruns
  · rw [atFront?_eq_some_iff.mpr ⟨h, tail', rfl, rfl, rfl⟩] at hfront
    cases hfront

theorem Settled.first?_append_break {line : List Char} (rest : List Char) (h : Settled line) :
    first? (line ++ '\n' :: rest) = first? rest := by
  obtain ⟨hfront, hruns⟩ := h line (List.suffix_refl _)
  have hnone := atFront?_append_break rest hfront hruns
  induction line with
  | nil => exact first?_cons_of_atFront? hnone
  | cons c line ih =>
    have hline := h.of_suffix (List.suffix_cons c line)
    obtain ⟨hfront, hruns⟩ := hline line (List.suffix_refl _)
    exact (first?_cons_of_atFront? hnone).trans (ih hline hfront hruns (atFront?_append_break rest hfront hruns))

theorem Settled.first? {line : List Char} (h : Settled line) : first? line = none := by
  by_contra hsome
  obtain ⟨found, hfound⟩ := Option.ne_none_iff_exists'.mp hsome
  obtain ⟨before, s, rfl, hfront⟩ := exists_suffix_of_first? hfound
  simp [(h s (List.suffix_append _ _)).1] at hfront

/-! ### A line with a diagnostic -/

theorem Filled.count_colon {kind : Char → Bool} {cs : List Char} (h : Filled kind cs) (hk : kind ':' = false) :
    cs.count ':' = 0 := by
  refine List.count_eq_zero.mpr fun hmem => ?_
  have := h.2 _ hmem
  simp [hk] at this

theorem Blanks.count_colon {cs : List Char} (h : Blanks cs) : cs.count ':' = 0 := by
  refine List.count_eq_zero.mpr fun hmem => ?_
  have := h _ hmem
  simp at this

theorem Head.four_le_count_colon (h : Head) : 4 ≤ h.text.count ':' := by
  simp [Head.text, Place.text]
  omega

/-- Behind its start, a text that runs on has too few colons for a diagnostic. -/
theorem RunsOn.exists_body {s : List Char} (h : RunsOn s) :
    ∃ start body, s = start ++ body ∧ IsStart start ∧ body.count ':' ≤ 3 := by
  have hplace (p : Place) : (p.name ++ ':' :: (p.line ++ ':' :: p.column)).count ':' = 2 := by
    simp [p.filled_name.count_colon isFileChar_colon, p.filled_line.count_colon isDigit_colon,
      p.filled_column.count_colon isDigit_colon]
  cases h with
  | path hs =>
    obtain ⟨start, name, rfl, hstart, hname⟩ := hs
    refine ⟨start, name, rfl, hstart, ?_⟩
    have hcolon : ':' ∉ name := fun hmem => by simpa using hname _ hmem
    simp [List.count_eq_zero.mpr hcolon]
  | gap p hgap =>
    refine ⟨p.start, _, by simp only [Place.text, List.append_assoc]; rfl, p.isStart, ?_⟩
    have := hplace p
    simp [hgap.count_colon] at this ⊢
    omega
  | lead p hgap hlead =>
    refine ⟨p.start, _, by simp only [Place.text, List.append_assoc]; rfl, p.isStart, ?_⟩
    have := hplace p
    simp [hgap.count_colon, hlead.count_colon] at this ⊢
    omega

theorem Head.count_colon_le {h : Head} {tail body : List Char} (hs : h.text ++ tail <:+ body) : 4 ≤ body.count ':' :=
  Nat.le_trans h.four_le_count_colon (((List.prefix_append _ _).sublist.trans hs.sublist).count_le ':')

theorem IsStart.append_ne_colon {start rest cs : List Char} (h : IsStart start) : start ++ rest ≠ ':' :: cs := by
  intro he
  cases h with
  | root => cases he
  | drive hletter =>
    obtain ⟨rfl, -⟩ := List.cons.inj he
    exact absurd hletter (by decide)

theorem RunsOn.first?_tail {c : Char} {s : List Char} (h : RunsOn (c :: s)) : first? s = none := by
  by_contra hsome
  obtain ⟨⟨d, more⟩, hfound⟩ := Option.ne_none_iff_exists'.mp hsome
  obtain ⟨before, t, hs, hfront⟩ := exists_suffix_of_first? hfound
  have ht : t <:+ s := ⟨before, hs.symm⟩
  obtain ⟨head, tail, rfl, -⟩ := atFront?_eq_some_iff.mp hfront
  obtain ⟨start, body, he, hstart, hcount⟩ := h.exists_body
  cases hstart with
  | root =>
    simp only [List.cons_append, List.nil_append, List.cons.injEq] at he
    obtain ⟨-, rfl⟩ := he
    have := head.count_colon_le ht
    omega
  | drive hletter =>
    simp only [List.cons_append, List.nil_append, List.cons.injEq] at he
    obtain ⟨-, rfl⟩ := he
    rcases List.suffix_cons_iff.mp ht with he | ht
    · exact head.isStart.append_ne_colon (by simpa [Head.text, Place.text] using he)
    · have := head.count_colon_le ht
      omega

/-- What comes after the line of the first diagnostic does not change its place. -/
theorem first?_append_break {line : List Char} {found : Diagnostic × List Char} (rest : List Char)
    (h : first? line = some found) :
    (first? (line ++ '\n' :: rest)).bind (·.1.position?) = found.1.position? := by
  induction line with
  | nil => cases h
  | cons c line ih =>
    cases hfront : atFront? (c :: line) with
    | none =>
      rw [first?_cons_of_atFront? hfront] at h
      have hruns : ¬RunsOn (c :: line) := fun hruns => by simp [hruns.first?_tail] at h
      have hrest := first?_cons_of_atFront? (atFront?_append_break rest hfront hruns)
      exact (congrArg (·.bind (·.1.position?)) hrest).trans (ih h)
    | some found' =>
      obtain rfl : found' = found := by simpa [first?_eq_some_of_atFront? hfront] using h
      obtain ⟨head, tail, he, hd, -⟩ := atFront?_eq_some_iff.mp hfront
      have hlonger := atFront?_eq_some_iff.mpr ⟨head, tail ++ '\n' :: rest, rfl, rfl, rfl⟩
      rw [he, List.append_assoc, first?_eq_some_of_atFront? hlonger, hd]
      rfl

/-! ### Many lines -/

theorem first?_lines {before after : List (List Char)} {line : List Char} (h : ∀ l ∈ before, Settled l) :
    first? (['\n'].intercalate (before ++ line :: after)) = first? (['\n'].intercalate (line :: after)) := by
  induction before with
  | nil => rfl
  | cons l before ih =>
    rw [List.cons_append, List.intercalate_cons_of_ne_nil (by simp), List.append_assoc]
    exact ((h l (by simp)).first?_append_break _).trans (ih fun l hl => h l (by simp [hl]))

theorem first?_line {after : List (List Char)} {line : List Char} {found : Diagnostic × List Char}
    (h : first? line = some found) :
    (first? (['\n'].intercalate (line :: after))).bind (·.1.position?) = found.1.position? := by
  cases after with
  | nil => simp [h]
  | cons next after => simpa [List.intercalate_cons_cons] using first?_append_break (['\n'].intercalate (next :: after)) h

theorem exists_line_of_suffix {s : List Char} (hs : '\n' ∉ s) (before : List Char) :
    ∃ line ∈ (before ++ s).splitOn '\n', s <:+ line := by
  induction before with
  | nil => simp [List.splitOn_eq_singleton hs]
  | cons c before ih =>
    obtain ⟨line, hline, hsuffix⟩ := ih
    rw [List.cons_append, List.splitOn_cons_eq_if_modifyHead]
    split
    · exact ⟨line, List.mem_cons_of_mem _ hline, hsuffix⟩
    · obtain ⟨first, others, he⟩ := List.exists_cons_of_ne_nil (List.splitOn_ne_nil '\n' (before ++ s))
      rw [he] at hline ⊢
      rcases List.mem_cons.mp hline with rfl | hline
      · exact ⟨c :: line, by simp, hsuffix.trans (List.suffix_cons c line)⟩
      · exact ⟨line, by simp [hline], hsuffix⟩

/-- A file with a line break begins with a path that is open at the end of its line. -/
theorem exists_openPath_of_first? {cs rest : List Char} {d : Diagnostic} (h : first? cs = some (d, rest))
    (hbreak : '\n' ∈ d.file) : ∃ line ∈ cs.splitOn '\n', ∃ s, s <:+ line ∧ OpenPath s := by
  obtain ⟨before, s, rfl, hfront⟩ := exists_suffix_of_first? h
  obtain ⟨head, tail, rfl, rfl, -⟩ := atFront?_eq_some_iff.mp hfront
  have hname : '\n' ∈ head.name := by simpa [Head.diagnostic, head.isStart.not_mem_break] using hbreak
  obtain ⟨name, more, he, hnot⟩ := List.eq_append_cons_of_mem hname
  have hopen : OpenPath (head.start ++ name) :=
    ⟨head.start, name, rfl, head.isStart, fun c hc => head.filled_name.2 c (by simp [he, hc])⟩
  obtain ⟨line, hline, hsuffix⟩ := exists_line_of_suffix (s := head.start ++ name)
    (by simp [head.isStart.not_mem_break, hnot]) before
  refine ⟨line, ?_, _, hsuffix, hopen⟩
  simp only [Head.text, Place.text, he, List.append_assoc, List.cons_append]
  rw [← List.append_assoc head.start, ← List.append_assoc before, List.splitOn_append_cons_self]
  exact List.mem_append_left _ hline

/-! ### Why lines have to be settled -/

def probes : List (List Char) := ["x:1:1:1:", ":1:", "1:"].map String.toList

theorem filled_one {kind : Char → Bool} {c : Char} (h : kind c = true) : Filled kind [c] := by simp [Filled, h]

theorem RunsOn.exists_probe {s : List Char} (h : RunsOn s) (blank : List Char) (hblank : Blanks blank)
    (hfile : ∀ c ∈ blank, isFileChar c = true) :
    ∃ probe ∈ probes, ∀ rest, (atFront? (s ++ (blank ++ (probe ++ rest)))).isSome := by
  have hone : Filled Text.isWord ['1'] := filled_one (by decide)
  cases h with
  | path hs =>
    obtain ⟨start, name, rfl, hstart, hname⟩ := hs
    have hlonger : Filled isFileChar (name ++ (blank ++ ['x'])) := by
      refine ⟨by simp, fun c hc => ?_⟩
      rcases List.mem_append.mp hc with hc | hc
      · exact hname c hc
      rcases List.mem_append.mp hc with hc | hc
      · exact hfile c hc
      · obtain rfl := List.mem_singleton.mp hc
        decide
    let head : Head := ⟨⟨start, _, ['1'], ['1'], hstart, hlonger, filled_one (by decide), filled_one (by decide)⟩,
      [], [], ['1'], by simp [Blanks], by simp [Blanks], hone⟩
    refine ⟨_, List.mem_cons_self, fun rest => ?_⟩
    exact Option.isSome_iff_exists.mpr ⟨_, atFront?_eq_some_iff.mpr ⟨head, rest, by simp [head, Head.text, Place.text], rfl, rfl⟩⟩
  | gap p hgap =>
    let head : Head := ⟨p, _ ++ blank, [], ['1'], fun c hc => (List.mem_append.mp hc).elim (hgap c) (hblank c),
      by simp [Blanks], hone⟩
    refine ⟨":1:".toList, by simp [probes], fun rest => ?_⟩
    exact Option.isSome_iff_exists.mpr ⟨_, atFront?_eq_some_iff.mpr ⟨head, rest, by simp [head, Head.text], rfl, rfl⟩⟩
  | lead p hgap hlead =>
    let head : Head := ⟨p, _, _ ++ blank, ['1'], hgap, fun c hc => (List.mem_append.mp hc).elim (hlead c) (hblank c), hone⟩
    refine ⟨"1:".toList, by simp [probes], fun rest => ?_⟩
    exact Option.isSome_iff_exists.mpr ⟨_, atFront?_eq_some_iff.mpr ⟨head, rest, by simp [head, Head.text], rfl, rfl⟩⟩

theorem settled_of_probes {line : List Char} (hline : first? line = none)
    (h : ∀ probe ∈ probes, first? (line ++ probe) = none) : Settled line := by
  intro s hs
  refine ⟨atFront?_eq_none_of_first? hline hs, fun hruns => ?_⟩
  obtain ⟨probe, hprobe, hsome⟩ := hruns.exists_probe [] (by simp [Blanks]) (by simp)
  obtain ⟨before, rfl⟩ := hs
  have hnone := atFront?_eq_none_of_first? (h probe hprobe) (s := s ++ probe) ⟨before, by simp⟩
  simpa [hnone] using hsome []

theorem exists_first?_append {line s rest : List Char} (hs : s <:+ line) (h : (atFront? (s ++ rest)).isSome) :
    ∃ t found, t <:+ line ∧ atFront? (t ++ rest) = some found ∧ first? (line ++ rest) = some found := by
  induction line with
  | nil =>
    obtain rfl := List.suffix_nil.mp hs
    obtain ⟨found, hfound⟩ := Option.isSome_iff_exists.mp h
    exact ⟨[], found, List.suffix_refl _, hfound, first?_eq_some_of_atFront? hfound⟩
  | cons c line ih =>
    cases hfront : atFront? (c :: line ++ rest) with
    | some found => exact ⟨c :: line, found, List.suffix_refl _, hfront, first?_eq_some_of_atFront? hfront⟩
    | none =>
      rcases List.suffix_cons_iff.mp hs with rfl | hs
      · rw [hfront] at h
        cases h
      · obtain ⟨t, found, ht, hfound, hfirst⟩ := ih hs
        exact ⟨t, found, ht.trans (List.suffix_cons c line), hfound, (first?_cons_of_atFront? hfront).trans hfirst⟩

def farError (n : Nat) : List Char := '/' :: (List.replicate (n + 1) 'x' ++ ":1:1: error:".toList)

theorem first?_farError (n : Nat) :
    (first? (farError n)).bind (·.1.position?) = some ⟨String.ofList ('/' :: List.replicate (n + 1) 'x'), 0, 0⟩ := by
  have hname : Filled isFileChar (List.replicate (n + 1) 'x') :=
    ⟨by simp, fun c hc => by rw [List.eq_of_mem_replicate hc]; rfl⟩
  let head : Head := ⟨⟨_, _, ['1'], ['1'], .root, hname, filled_one (by decide), filled_one (by decide)⟩,
    [], [' '], "error".toList, by simp [Blanks], by simp [Blanks]; decide, by simp [Filled]; decide⟩
  have hfront := atFront?_eq_some_iff.mpr ⟨head, [], rfl, rfl, rfl⟩
  have htext : head.text ++ [] = farError n := by simp [head, Head.text, Place.text, farError]
  rw [← htext, first?_eq_some_of_atFront? hfront]
  have hone : positive? ['1'] = some 1 := by decide
  simp only [Option.bind_some, head, Head.diagnostic, position?, hone]
  rw [if_neg (not_not.mpr rfl)]
  simp

theorem first?_probe {probe : List Char} (h : probe ∈ probes) (n : Nat) :
    first? (probe ++ farError n) = first? (farError n) := by
  simp only [probes, List.map_cons, List.map_nil, List.mem_cons, List.not_mem_nil, or_false] at h
  rcases h with rfl | rfl | rfl <;> rfl

/-- A line without a diagnostic that is not settled hides a diagnostic of some next line. -/
theorem settled_of_next {line : List Char} (hline : first? line = none)
    (h : ∀ next p, (first? next).bind (·.1.position?) = some p →
      (first? (line ++ '\n' :: next)).bind (·.1.position?) = some p) : Settled line := by
  intro s hs
  refine ⟨atFront?_eq_none_of_first? hline hs, fun hruns => ?_⟩
  obtain ⟨probe, hprobe, hsome⟩ := hruns.exists_probe ['\n'] (by simp [Blanks]; decide) (by simp; decide)
  obtain ⟨t, found, ht, hfound, hfirst⟩ := exists_first?_append hs (hsome (farError line.length))
  have hp := h (probe ++ farError line.length) _ (by rw [first?_probe hprobe]; exact first?_farError _)
  simp only [List.singleton_append] at hfirst hfound
  rw [hfirst] at hp
  have hfile := congrArg String.toList (file_of_position? hp)
  obtain ⟨head, tail, he, hd, -⟩ := atFront?_eq_some_iff.mp hfound
  simp only [hd, Head.diagnostic, String.toList_ofList] at hfile
  obtain ⟨q, hsplit⟩ : ∃ q, head.text ++ tail = (head.start ++ head.name) ++ q :=
    ⟨_, by simp only [Head.text, Place.text, List.append_assoc]; rfl⟩
  -- The file that is found either holds the line break or fits into the line; the next error's does neither.
  rcases append_break_cases (he.trans hsplit) with ⟨s', rfl, -⟩ | ⟨p', hp', -⟩
  · have hlength := congrArg List.length hfile
    have := ht.length_le
    simp at hlength this
    omega
  · have hmem : '\n' ∈ '/' :: List.replicate (line.length + 1) 'x' := by
      rw [hfile, hp', List.mem_map]
      exact ⟨'\n', by simp, by decide⟩
    simp at hmem

/-- Among the lines that are no error themselves, the settled ones are those behind which no error is lost. -/
theorem settled_iff {line : List Char} (hline : (first? line).bind (·.1.position?) = none) :
    Settled line ↔ ∀ next p, (first? next).bind (·.1.position?) = some p →
      (first? (line ++ '\n' :: next)).bind (·.1.position?) = some p := by
  constructor
  · intro h next p hp
    rwa [h.first?_append_break]
  · intro h
    cases hfirst : first? line with
    | none => exact settled_of_next hfirst h
    | some found =>
      have hfar := h (farError 0) _ (first?_farError 0)
      rw [first?_append_break _ hfirst] at hfar
      simp [hfirst, hfar] at hline

end Diagnostic

open Diagnostic

/-- A diagnostic is found in its line as long as the lines before it are settled, and only a path that is open at
the end of a line can bring a line break into a file. -/
theorem classify_line {exitCode : Int} {stdout stderr invocation : String}
    (hmarker : missingLanguageMarker.isPrefixOf stderr.toList = false) :
    (∀ before line after p, stderr.toList.splitOn '\n' = before ++ line :: after → (∀ l ∈ before, Settled l) →
      (classify exitCode stdout (String.ofList line) invocation).position? = some p →
      (classify exitCode stdout stderr invocation).position? = some p) ∧
    ∀ p, (classify exitCode stdout stderr invocation).position? = some p → '\n' ∈ p.file.toList →
      ∃ line ∈ stderr.toList.splitOn '\n', ∃ s, s <:+ line ∧ OpenPath s := by
  constructor
  · intro before line after p hlines hbefore halone
    have hline : missingLanguageMarker.isPrefixOf line = false := by
      by_contra hmarked
      rw [classify_position?_marker (by simpa using hmarked)] at halone
      cases halone
    rw [classify_position? (by simpa using hline)] at halone
    obtain ⟨found, hfound, hp⟩ := Option.bind_eq_some_iff.mp halone
    have hjoin : ['\n'].intercalate (stderr.toList.splitOn '\n') = stderr.toList := List.intercalate_splitOn '\n'
    rw [classify_position? hmarker, ← hp, ← hjoin, hlines, first?_lines hbefore, first?_line (by simpa using hfound)]
  · intro p hp hbreak
    rw [classify_position? hmarker] at hp
    obtain ⟨⟨d, rest⟩, hfound, hposition⟩ := Option.bind_eq_some_iff.mp hp
    refine exists_openPath_of_first? hfound ?_
    rw [file_of_position? hposition, String.toList_ofList, List.mem_map] at hbreak
    obtain ⟨c, hc, hslash⟩ := hbreak
    split at hslash
    · cases hslash
    · exact hslash ▸ hc

/-- An error behind two lines that a reader of lines would pass over, too. -/
def notedError : String :=
  "Is this key known?\nnote: see <https://clang.llvm.org/docs>\n/tmp/.clang-format:2:1: error: unknown key\n/tmp/x:9:9: error: x"

theorem classify_line_notedError :
    missingLanguageMarker.isPrefixOf notedError.toList = false ∧
      (classify 1 "" notedError "clang-format").position? = some ⟨"/tmp/.clang-format", 1, 0⟩ := by
  have hmarker : missingLanguageMarker.isPrefixOf notedError.toList = false := by decide +kernel
  refine ⟨hmarker, (classify_line hmarker).1
    ["Is this key known?".toList, "note: see <https://clang.llvm.org/docs>".toList]
    "/tmp/.clang-format:2:1: error: unknown key".toList ["/tmp/x:9:9: error: x".toList] _
    (by decide +kernel) ?_ (by decide +kernel)⟩
  intro l hl
  simp only [List.mem_cons, List.not_mem_nil, or_false] at hl
  rcases hl with rfl | rfl <;> exact settled_of_probes (by decide +kernel) (by decide +kernel)

/-- A path at the end of the line before joins the file of the error; a warning in the line before hides it. -/
theorem classify_across_lines :
    (classify 1 "" "/tmp/.clang-format:2:1: error: unknown key" "clang-format").position? =
        some ⟨"/tmp/.clang-format", 1, 0⟩ ∧
      (classify 1 "" "Reading /etc/clang\n/tmp/.clang-format:2:1: error: unknown key" "clang-format").position? =
        some ⟨"/etc/clang\n/tmp/.clang-format", 1, 0⟩ ∧
      (classify 1 "" "/tmp/.clang-format:1:1: warning: old key\n/tmp/.clang-format:2:1: error: unknown key"
        "clang-format").position? = none := by
  decide +kernel

end Restyle
