import Mathlib.Data.List.Nodup
import Restyle.Args.Request
import Restyle.Proofs.Text.Number

/-! # Command lines as they are written

A command, options with their values attached, and two hyphens before the files: such a command line is
read as just that command with those options, wherever the options stand and whatever the files are called.
-/
namespace Restyle.Args

/-! ### Commands and options -/

inductive Command where
  | format (files : List String)
  | check (files : List String)
  | style (file : String)
  | configPath (file : String)
  | validatePath (path : String)

namespace Command

def subcommand : Command → Subcommand
  | format _ => .fmt
  | check _ => .check
  | style _ => .style
  | configPath _ => .configPath
  | validatePath _ => .validatePath

def files : Command → List String
  | format files | check files => files
  | style file | configPath file | validatePath file => [file]

def action : Command → Action
  | format files => .format files
  | check files => .check files
  | style file => .style file
  | configPath file => .configPath file
  | validatePath path => .validatePath path

end Command

def ValueOption.name : ValueOption → String
  | config => "config"
  | clangFormat => "clang-format"
  | timeout => "timeout"
  | logLevel => "log-level"
  | stdin => "stdin"

inductive Setting where
  | value (o : ValueOption) (text : String)
  | verbose
deriving DecidableEq

namespace Setting

def word : Setting → String
  | value o text => "--" ++ o.name ++ "=" ++ text
  | verbose => "--verbose"

def option? : Setting → Option ValueOption
  | value o _ => some o
  | verbose => none

def pair? : Setting → Option (ValueOption × String)
  | value o text => some (o, text)
  | verbose => none

end Setting

inductive Logging where
  | level (l : LogLevel)
  | verbose

structure Choice where
  config : Option String := none
  clangFormat : Option String := none
  timeoutMillis : Option Nat := none
  logging : Option Logging := none

namespace Choice

def logLevel (c : Choice) : LogLevel :=
  match c.logging with
  | none => .info
  | some (.level l) => l
  | some .verbose => .debug

def isVerbose (c : Choice) : Bool :=
  match c.logging with
  | some .verbose => true
  | _ => false

def text? (c : Choice) : ValueOption → Option String
  | .config => c.config
  | .clangFormat => c.clangFormat
  | .timeout => c.timeoutMillis.map toString
  | .logLevel => match c.logging with
    | some (.level l) => some l.name
    | _ => none
  | .stdin => none

def settings (c : Choice) : List Setting :=
  ([.config, .clangFormat, .timeout, .logLevel].filterMap fun o => (c.text? o).map (.value o)) ++
    if c.isVerbose then [.verbose] else []

def request (c : Choice) (command : Command) : Request :=
  ⟨command.action, c.logLevel, c.config, c.clangFormat, c.timeoutMillis⟩

end Choice

/-- The words of a command line with options before and after the name of the subcommand. -/
def commandLine (before : List Setting) (command : Command) (after : List Setting) : List String :=
  before.map Setting.word ++ command.subcommand.name :: (after.map Setting.word ++ "--" :: command.files)

/-! ### Words of one level -/

structure Fit (settings : List Setting) : Prop where
  once : (settings.map Setting.option?).Nodup
  everywhere : ∀ text, .value .stdin text ∉ settings
  oneLogLevel : .verbose ∈ settings → ∀ text, .value .logLevel text ∉ settings

namespace Fit

variable {settings others : List Setting}

theorem of_perm (h : Fit others) (hp : settings.Perm others) : Fit settings where
  once := (hp.map _).nodup_iff.mpr h.once
  everywhere text hmem := h.everywhere text (hp.mem_iff.mp hmem)
  oneLogLevel hverbose text hmem := h.oneLogLevel (hp.mem_iff.mp hverbose) text (hp.mem_iff.mp hmem)

theorem of_sublist (h : Fit others) (hs : settings.Sublist others) : Fit settings where
  once := h.once.sublist (hs.map _)
  everywhere text hmem := h.everywhere text (hs.subset hmem)
  oneLogLevel hverbose text hmem := h.oneLogLevel (hs.subset hverbose) text (hs.subset hmem)

theorem head_new {done todo : List Setting} {s : Setting} (h : Fit (done ++ s :: todo)) :
    s.option? ∉ done.map Setting.option? := by
  have honce := h.once
  rw [List.map_append, List.nodup_append] at honce
  exact fun hmem => honce.2.2 _ hmem _ List.mem_cons_self rfl

end Fit

namespace Level

def ofSettings (settings : List Setting) : Level :=
  { values := settings.filterMap Setting.pair?, verbose := settings.contains .verbose }

theorem mem_pairs {settings : List Setting} {o : ValueOption} {text : String} :
    (o, text) ∈ settings.filterMap Setting.pair? ↔ .value o text ∈ settings := by
  rw [List.mem_filterMap]
  constructor
  · rintro ⟨s, hs, hpair⟩
    cases s with
    | value => cases hpair; exact hs
    | verbose => cases hpair
  · exact fun hs => ⟨_, hs, rfl⟩

theorem get?_ofSettings {settings : List Setting} (h : Fit settings) {o : ValueOption} {text : String} :
    (ofSettings settings).get? o = some text ↔ .value o text ∈ settings := by
  have hfind : ∀ pair, (settings.filterMap Setting.pair?).find? (·.1 = o) = some pair →
      pair.1 = o ∧ .value o pair.2 ∈ settings := by
    rintro ⟨o', text'⟩ hfound
    have ho : o' = o := by simpa using List.find?_some hfound
    subst ho
    exact ⟨rfl, mem_pairs.mp (List.mem_of_find?_eq_some hfound)⟩
  rw [get?, ofSettings, Option.map_eq_some_iff]
  constructor
  · rintro ⟨pair, hfound, rfl⟩
    exact (hfind pair hfound).2
  · intro hs
    have hsome : ((settings.filterMap Setting.pair?).find? (·.1 = o)).isSome :=
      List.find?_isSome.mpr ⟨_, mem_pairs.mpr hs, decide_eq_true rfl⟩
    obtain ⟨pair, hfound⟩ := Option.isSome_iff_exists.mp hsome
    -- No other value is given to the same option.
    have hsame := List.inj_on_of_nodup_map h.once (hfind pair hfound).2 hs rfl
    cases hsame
    exact ⟨pair, hfound, rfl⟩

theorem splitValue_append {name : List Char} (h : '=' ∉ name) (text : List Char) :
    splitValue (name ++ '=' :: text) = (String.ofList name, some (String.ofList text)) := by
  have hname : ∀ c ∈ name, decide (c ≠ '=') = true := by
    rintro c hc
    refine decide_eq_true fun hsame => h (hsame ▸ hc)
  rw [splitValue, List.dropWhile_append_of_pos hname, List.takeWhile_append_of_pos hname]
  simp

theorem step_long {p : Place} {l : Level} {word : String} {cs : List Char} (hword : word.toList = '-' :: '-' :: cs)
    (hcs : cs ≠ []) (hended : l.ended = false) : step p l word = l.long p cs := by
  obtain ⟨c, cs, rfl⟩ := List.exists_cons_of_ne_nil hcs
  rw [step, hended, hword]
  rfl

theorem name_cases (o : ValueOption) : o.name.toList ≠ [] ∧ '=' ∉ o.name.toList := by
  cases o <;> decide

theorem long?_name (p : Place) {o : ValueOption} (h : o ≠ .stdin) : p.long? o.name = some (.value o) := by
  cases o with
  | stdin => exact absurd rfl h
  | _ => rfl

/-- An option that is new to a level is taken in. -/
theorem step_setting (p : Place) {done todo : List Setting} {s : Setting} (h : Fit (done ++ s :: todo)) :
    step p (ofSettings done) s.word = .ok (ofSettings (done ++ [s])) := by
  have hnew := h.head_new
  cases s with
  | value o text =>
    have ho : o ≠ .stdin := by
      rintro rfl
      exact h.everywhere text (List.mem_append_right _ List.mem_cons_self)
    have hget : (ofSettings done).get? o = none := by
      have hdone : Fit done := h.of_sublist (List.sublist_append_left _ _)
      refine Option.eq_none_iff_forall_ne_some.mpr fun other hother => hnew ?_
      exact List.mem_map.mpr ⟨_, (get?_ofSettings hdone).mp hother, rfl⟩
    have hword : (Setting.value o text).word.toList = '-' :: '-' :: (o.name.toList ++ '=' :: text.toList) := by
      simp [Setting.word]
    have hgive : (ofSettings done).give o text = .ok (ofSettings (done ++ [.value o text])) := by
      rw [give, hget]
      simp [ofSettings, Setting.pair?]
    -- Nothing is pending, so the value in the word is given at once.
    rw [step_long hword (List.append_ne_nil_of_left_ne_nil (name_cases o).1 _) rfl, long,
      splitValue_append (name_cases o).2, String.ofList_toList, String.ofList_toList]
    simp only [long?_name p ho, named]
    exact hgive
  | verbose =>
    have hbefore : (ofSettings done).verbose = false := by
      simpa [ofSettings] using fun hmem => hnew (List.mem_map.mpr ⟨_, hmem, rfl⟩)
    have hsplit : splitValue "verbose".toList = ("verbose", none) := by decide
    have hlong : p.long? "verbose" = some .verbose := rfl
    have hafter : { ofSettings done with verbose := true } = ofSettings (done ++ [.verbose]) := by
      simp [ofSettings, Setting.pair?]
    have hword : Setting.verbose.word.toList = '-' :: '-' :: "verbose".toList := rfl
    rw [step_long hword (by decide) rfl, long, hsplit]
    simp only [hlong, named]
    change (if (ofSettings done).verbose then _ else Except.ok { ofSettings done with verbose := true }) = _
    rw [hbefore, hafter]
    rfl

theorem foldlM_settings (p : Place) {done todo : List Setting} (h : Fit (done ++ todo)) :
    (todo.map Setting.word).foldlM (step p) (ofSettings done) = .ok (ofSettings (done ++ todo)) := by
  induction todo generalizing done with
  | nil => rw [List.append_nil]; rfl
  | cons s todo ih =>
    rw [List.map_cons, List.foldlM_cons, step_setting p h]
    rw [List.append_cons done s todo] at h ⊢
    exact ih h

/-- After two hyphens every word is a file, as long as there is room. -/
theorem foldlM_files {s : Subcommand} {files : List String} {l : Level} (hended : l.ended = true)
    (hpending : l.pending = none) (hroom : ∀ n, s.capacity? = some n → l.files.length + files.length ≤ n) :
    files.foldlM (step (.under s)) l = .ok { l with files := l.files ++ files } := by
  induction files generalizing l with
  | nil => rw [List.append_nil]; rfl
  | cons word files ih =>
    have hone : s.capacity?.all (l.files.length < ·) := by
      rw [Option.all_eq_true]
      intro n hn
      have := hroom n hn
      exact decide_eq_true (by rw [List.length_cons] at this; omega)
    have hsettle : l.settle = .ok l := by rw [settle, hpending]
    have hstep : step (.under s) l word = .ok { l with files := l.files ++ [word] } := by
      rw [step, if_pos hended, plain, if_pos hone, hsettle]
      rfl
    have hrest : ∀ n, s.capacity? = some n → (l.files ++ [word]).length + files.length ≤ n := by
      intro n hn
      have := hroom n hn
      rw [List.length_cons] at this
      rw [List.length_append, List.length_singleton]
      omega
    rw [List.foldlM_cons, hstep, List.append_cons l.files word files]
    exact ih (l := { l with files := l.files ++ [word] }) hended hpending hrest

/-! ### Both levels -/

theorem ofName?_word (s : Setting) : s.word ≠ "help" ∧ Subcommand.ofName? s.word = none := by
  have hhead : s.word.toList.head? = some '-' := by
    cases s with
    | value o text => simp [Setting.word]
    | verbose => rfl
  have hother : ∀ word : String, word.toList.head? ≠ some '-' → s.word ≠ word := by
    rintro word hword rfl
    exact hword hhead
  refine ⟨hother _ (by decide), List.find?_eq_none.mpr ?_⟩
  intro sub _ hsub
  refine hother sub.name ?_ (of_decide_eq_true hsub).symm
  cases sub <;> decide

theorem ofName?_name (s : Subcommand) : s.name ≠ "help" ∧ Subcommand.ofName? s.name = some s := by
  cases s <;> decide

/-- Options before the name of the subcommand are taken in. -/
theorem readTop_settings {done todo : List Setting} (h : Fit (done ++ todo)) (words : List String) :
    readTop (ofSettings done) (todo.map Setting.word ++ words) = readTop (ofSettings (done ++ todo)) words := by
  induction todo generalizing done with
  | nil => rw [List.append_nil]; rfl
  | cons s todo ih =>
    have hopen : ((ofSettings done).ended || (ofSettings done).awaits) = false := rfl
    rw [List.map_cons, List.cons_append, readTop, hopen, if_neg Bool.false_ne_true, if_neg (ofName?_word s).1,
      (ofName?_word s).2, step_setting .top h]
    rw [List.append_cons done s todo] at h ⊢
    exact ih h

def withFiles (settings : List Setting) (files : List String) : Level :=
  { ofSettings settings with files, ended := true }

theorem no_conflict {settings : List Setting} (h : Fit settings) :
    ((ofSettings settings).verbose && ((ofSettings settings).get? .logLevel).isSome) = false := by
  rw [Bool.and_eq_false_iff]
  cases hget : (ofSettings settings).get? .logLevel with
  | none => exact .inr rfl
  | some text =>
    refine .inl ?_
    simpa [ofSettings] using fun hverbose => h.oneLogLevel hverbose text ((get?_ofSettings h).mp hget)

theorem readUnder_settings {settings : List Setting} (h : Fit settings) (command : Command) :
    readUnder command.subcommand (settings.map Setting.word ++ "--" :: command.files) =
      .ok (withFiles settings command.files) := by
  have hroom : ∀ n, command.subcommand.capacity? = some n → 0 + command.files.length ≤ n := by
    intro n hn
    cases command <;> cases hn <;> exact Nat.le_refl 1
  have hfile : ¬(command.subcommand.capacity? = some 1 ∧ command.files = []) := by
    cases command <;> simp [Command.subcommand, Subcommand.capacity?, Command.files]
  have hsettings : (settings.map Setting.word).foldlM (step (.under command.subcommand)) {} =
      .ok (ofSettings settings) := @foldlM_settings _ [] settings h
  have hfiles := foldlM_files (l := withFiles settings []) rfl rfl hroom
  have hcheck : check (.under command.subcommand) (withFiles settings command.files) =
      .ok (withFiles settings command.files) := by
    have hconflict : ((withFiles settings command.files).verbose &&
        ((withFiles settings command.files).get? .logLevel).isSome) = false := no_conflict h
    rw [check, hconflict, if_neg Bool.false_ne_true]
    exact if_neg hfile
  have hfold : (settings.map Setting.word ++ "--" :: command.files).foldlM (step (.under command.subcommand)) {} =
      .ok (withFiles settings command.files) := by
    rw [List.foldlM_append, hsettings]
    -- The two hyphens only end the options.
    exact hfiles
  rw [readUnder, hfold]
  exact hcheck

/-- A command line is taken apart into its options on both levels and its files. -/
theorem readTop_commandLine {before after : List Setting} (hbefore : Fit before) (hafter : Fit after)
    (command : Command) :
    readTop {} (commandLine before command after) =
      .ok (ofSettings before, command.subcommand, withFiles after command.files) := by
  have hopen : ((ofSettings before).ended || (ofSettings before).awaits) = false := rfl
  have hcheck : (ofSettings before).settle.bind (check .top) = .ok (ofSettings before) := by
    change check .top (ofSettings before) = _
    rw [check, no_conflict hbefore]
    rfl
  have hname := ofName?_name command.subcommand
  refine (@readTop_settings [] before hbefore _).trans ?_
  rw [List.nil_append, readTop, hopen, if_neg Bool.false_ne_true, if_neg hname.1, hname.2]
  simp only [readUnder_settings hafter, hcheck]
  rfl

/-! ### Values from both levels -/

theorem given?_eq {before after : List Setting} (h : Fit (before ++ after)) (files : List String)
    (o : ValueOption) : given? (ofSettings before) (withFiles after files) o = (ofSettings (before ++ after)).get? o := by
  have hbefore : Fit before := h.of_sublist (List.sublist_append_left _ _)
  have hafter : Fit after := h.of_sublist (List.sublist_append_right _ _)
  change ((ofSettings after).get? o).orElse (fun _ => (ofSettings before).get? o) = _
  cases hunder : (ofSettings after).get? o with
  | some text =>
    exact ((get?_ofSettings h).mpr (List.mem_append_right _ ((get?_ofSettings hafter).mp hunder))).symm
  | none =>
    ext text
    have hnone : .value o text ∉ after := fun hmem => by
      rw [(get?_ofSettings hafter).mpr hmem] at hunder
      cases hunder
    rw [get?_ofSettings h, List.mem_append, or_iff_left hnone]
    exact get?_ofSettings hbefore

end Level

namespace Choice

variable {c : Choice} {before after : List Setting}

theorem mem_settings {o : ValueOption} {text : String} : .value o text ∈ c.settings ↔ c.text? o = some text := by
  cases o <;> simp [settings, text?]

theorem verbose_mem_settings : .verbose ∈ c.settings ↔ c.isVerbose = true := by
  simp [settings]

theorem fit_settings (c : Choice) : Fit c.settings where
  once := by
    rcases c with ⟨_ | _, _ | _, _ | _, _ | _ | _⟩ <;> simp [settings, text?, isVerbose, Setting.option?]
  everywhere text hmem := nomatch mem_settings.mp hmem
  oneLogLevel hverbose text hmem := by
    have hverbose := verbose_mem_settings.mp hverbose
    have htext := mem_settings.mp hmem
    rw [isVerbose] at hverbose
    rw [text?] at htext
    split at hverbose <;> simp_all

theorem given?_ofPerm (hp : (before ++ after).Perm c.settings) (files : List String) (o : ValueOption) :
    given? (.ofSettings before) (.withFiles after files) o = c.text? o := by
  have hfit := c.fit_settings.of_perm hp
  ext text
  rw [Level.given?_eq hfit, Level.get?_ofSettings hfit, hp.mem_iff, mem_settings]

theorem verbose_ofPerm (hp : (before ++ after).Perm c.settings) (files : List String) :
    ((Level.ofSettings before).verbose || (Level.withFiles after files).verbose) = c.isVerbose := by
  change (before.contains .verbose || after.contains .verbose) = c.isVerbose
  rw [Bool.eq_iff_iff, ← verbose_mem_settings, ← hp.mem_iff]
  simp

theorem logLevelOf_ofPerm (hp : (before ++ after).Perm c.settings) (files : List String) :
    logLevelOf (.ofSettings before) (.withFiles after files) = .ok c.logLevel := by
  have hname : ∀ l : LogLevel, LogLevel.ofName? l.name = some l := by
    intro l
    cases l <;> decide
  rw [logLevelOf, verbose_ofPerm hp, given?_ofPerm hp, isVerbose, text?, logLevel]
  rcases c.logging with _ | l | _ <;> simp [hname]

theorem timeoutOf_ofPerm (hp : (before ++ after).Perm c.settings)
    (hsize : ∀ n, c.timeoutMillis = some n → n < UInt64.size) (files : List String) :
    timeoutOf (.ofSettings before) (.withFiles after files) = .ok c.timeoutMillis := by
  rw [timeoutOf, given?_ofPerm hp, text?]
  cases hn : c.timeoutMillis with
  | none => rfl
  | some n =>
    have hread : Text.readWord (toString n).toList = .ok n := by
      have hle : n ≤ maxWord := Nat.le_of_lt_succ (hsize n hn)
      rw [Text.readWord_toString, if_pos hle]
    simp only [Option.map_some, hread]

end Choice

theorem actionOf_withFiles (command : Command) (settings : List Setting) (hfit : Fit settings)
    (input : List UInt8) :
    actionOf command.subcommand (.withFiles settings command.files) input = .ok command.action := by
  have hstdin : (Level.withFiles settings command.files).get? .stdin = none := by
    refine Option.eq_none_iff_forall_ne_some.mpr fun text htext => ?_
    exact hfit.everywhere text ((Level.get?_ofSettings hfit).mp htext)
  cases command <;> simp only [Command.subcommand, actionOf, hstdin] <;> rfl

/-- A command with options in any order, each before or after the name of the subcommand, is read as that
command with those options. -/
theorem Request.read_commandLine (c : Choice) (command : Command) (before after : List Setting)
    (hp : (before ++ after).Perm c.settings) (hsize : ∀ n, c.timeoutMillis = some n → n < UInt64.size)
    (input : List UInt8) :
    Request.read (commandLine before command after) input = .ok (c.request command) := by
  have hfit := c.fit_settings.of_perm hp
  have hbefore : Fit before := hfit.of_sublist (List.sublist_append_left _ _)
  have hafter : Fit after := hfit.of_sublist (List.sublist_append_right _ _)
  -- The words that are read on their own do not count: there are always two.
  have hlength : 2 ≤ (commandLine before command after).length := by
    simp [commandLine]
    omega
  have hnone : commandLine before command after ≠ [] := by
    intro h
    simp [h] at hlength
  have hone : ∀ word, commandLine before command after ≠ [word] := by
    intro word h
    simp [h] at hlength
  have hlevels : Request.ofLevels (.ofSettings before) command.subcommand (.withFiles after command.files) input =
      .ok (c.request command) := by
    rw [ofLevels, actionOf_withFiles command after hafter, Choice.logLevelOf_ofPerm hp, Choice.timeoutOf_ofPerm hp hsize,
      Choice.given?_ofPerm hp, Choice.given?_ofPerm hp]
    rfl
  rw [Request.read, if_neg (by simp [hnone, hone]), if_neg (by simp [hone]),
    Level.readTop_commandLine hbefore hafter]
  exact hlevels

/-- Files named like a subcommand or a flag, after options on both levels. -/
theorem Request.read_commandLine_options :
    Request.read ["--verbose", "check", "--timeout=5000", "--config=a=b", "--", "--", "fmt", "--help"] [] =
      .ok ⟨.check ["--", "fmt", "--help"], .debug, some "a=b", none, some 5000⟩ :=
  Request.read_commandLine ⟨some "a=b", none, some 5000, some .verbose⟩ (.check ["--", "fmt", "--help"])
    [.verbose] [.value .timeout "5000", .value .config "a=b"]
    (by decide) (by rintro n ⟨⟩; decide) []

end Restyle.Args
