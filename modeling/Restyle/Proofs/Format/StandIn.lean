import Restyle.Proofs.Edit.Listing
import Restyle.Proofs.Format.Prepare
import Restyle.Proofs.Tool.Collapse

/-! # Formatting with the stand-in

A document that is formatted with the stand-in holds its text with every run of spaces made a single one, and
formatting it again changes nothing.  The stand-in may refuse a file because of its configuration; a file that
may be formatted is one that it does not refuse.
-/
namespace Restyle
open Work

namespace StandIn

def options (s : StandIn) (files : FileStore) (file : String) : Except ToolOutput (List (String × String)) :=
  optionsFor files file (s.language.getD (languageOf file))

/-! ### Answers -/

theorem optionsFrom_error {config : String} {number : Nat} {lines : List (List Char)} {run : ToolOutput}
    (h : optionsFrom config number lines = .error run) : run.success = false := by
  induction lines generalizing number with
  | nil => cases h
  | cons line lines ih =>
    rw [optionsFrom] at h
    split at h
    · exact ih h
    · cases h
      rfl
    · dsimp only at h
      split at h
      · cases h
        rfl
      · cases hrest : optionsFrom config (number + 1) lines with
        | error refused =>
          rw [hrest] at h
          cases h
          exact ih hrest
        | ok options =>
          rw [hrest] at h
          cases h

/-- A run that refuses a file has failed. -/
theorem options_error {s : StandIn} {files : FileStore} {file : String} {run : ToolOutput}
    (h : s.options files file = .error run) : run.success = false := by
  unfold options optionsFor at h
  split at h
  · cases h
  · rename_i config hconfig
    cases hoptions : optionsOf files config with
    | error refused =>
      rw [hoptions] at h
      cases h
      unfold optionsOf at hoptions
      split at hoptions
      · cases hoptions
        rfl
      · exact optionsFrom_error hoptions
    | ok options =>
      rw [hoptions] at h
      dsimp only [Except.bind] at h
      split at h
      · split at h
        · cases h
        · cases h
          rfl
      · cases h

theorem findSome?_lead {lead : String} {front : List String} (file : String)
    (h : ∀ a ∈ front, lead.toList.isPrefixOf a.toList = false) :
    (front ++ [lead ++ file]).findSome? (fun a => if lead.toList.isPrefixOf a.toList then
      some (String.ofList (a.toList.drop lead.length)) else none) = some file := by
  have hfront : front.findSome? (fun a => if lead.toList.isPrefixOf a.toList then
      some (String.ofList (a.toList.drop lead.length)) else none) = none := by
    refine List.findSome?_eq_none_iff.mpr fun a ha => ?_
    rw [h a ha]
    rfl
  have hname : lead.toList.isPrefixOf (lead ++ file).toList = true := by
    rw [String.toList_append]
    exact List.isPrefixOf_iff_prefix.mpr (List.prefix_append _ _)
  have hrest : (lead ++ file).toList.drop lead.length = file.toList := by
    rw [String.toList_append, ← String.length_toList, List.drop_left]
  rw [List.findSome?_append, hfront, Option.none_or, List.findSome?_cons, hname, if_pos rfl, hrest,
    String.ofList_toList]

theorem assumeFile_ne (file other : String) (h : other.toList[2]? ≠ some 'a') :
    Invocation.assumeFile file ≠ other := by
  intro heq
  have hthird : ("--assume-filename=".toList ++ file.toList)[2]? = other.toList[2]? := by
    rw [← String.toList_append, ← heq]
    rfl
  rw [List.getElem?_append_left (by decide)] at hthird
  exact h (hthird.symm.trans (by decide))

variable {s : StandIn} {h : Host} {file : String}

/-- A command about a file is refused, or run with the options of the file. -/
theorem answer_eq (ht : h.tool = some s.tool) {number : Nat} {c : Call} {front : List String}
    (hargs : c.invocation.args = front ++ [Invocation.assumeFile file]) (hversion : "--version" ∉ front)
    (hfront : ∀ a ∈ front, "--assume-filename=".toList.isPrefixOf a.toList = false) :
    (∀ run, s.options h.files file = .error run → h.answer number c = .ok run) ∧
      ∀ options, s.options h.files file = .ok options → h.answer number c =
        .ok (runFor c.invocation.args (c.input.getD []) (s.language.getD (languageOf file)) options) := by
  have hfile : fileOf? c.invocation.args = some file := by
    rw [hargs]
    exact findSome?_lead file hfront
  have hcontains : c.invocation.args.contains "--version" = false := by
    rw [hargs]
    simp [hversion, (assumeFile_ne file "--version" (by decide)).symm]
  rw [Host.answer, ht]
  dsimp only [tool]
  rw [hcontains, hfile]
  constructor
  · intro run hrun
    rw [options] at hrun
    dsimp only
    rw [hrun]
    rfl
  · intro options hoptions
    rw [StandIn.options] at hoptions
    dsimp only
    rw [hoptions]
    rfl

theorem dump_eq (ht : h.tool = some s.tool) {run : ToolOutput} (hrun : s.options h.files file = .error run)
    (number : Nat) (tool : String) : h.dump number file tool = .ok run := by
  have hargs : (h.placed file (Invocation.dumpConfig tool file false)).args =
      ["--fno-color-diagnostics", "--dump-config"] ++ [Invocation.assumeFile file] := rfl
  exact (answer_eq ht hargs (by decide) (by decide)).1 run hrun

theorem answer_format (ht : h.tool = some s.tool) {options : List (String × String)}
    (hoptions : s.options h.files file = .ok options) (number : Nat) (tool : String) (source : List UInt8) :
    h.answer number ⟨h.placed file (Invocation.format tool file false), some source⟩ =
      .ok (success (collapse (Utf8.decodeLossy source)).render) := by
  have hargs : (h.placed file (Invocation.format tool file false)).args =
      ["--fno-color-diagnostics", "--output-replacements-xml"] ++ [Invocation.assumeFile file] := rfl
  have hdump : (h.placed file (Invocation.format tool file false)).args.contains "--dump-config" = false := by
    rw [hargs]
    simp [(assumeFile_ne file "--dump-config" (by decide)).symm]
  have hformat : (h.placed file (Invocation.format tool file false)).args.contains "--output-replacements-xml" =
      true := by
    rw [hargs]
    simp
  refine ((answer_eq ht hargs (by decide) (by decide)).2 options hoptions).trans ?_
  rw [runFor, hdump, hformat]
  rfl

end StandIn

/-! ### Files that are not refused -/

namespace Engine

/-- What is remembered for a file, if its key holds, is what the tool would answer now. -/
def UpToDate (e : Engine) (file : String) : Prop :=
  ∀ result, e.styles.remembered? file (e.keyNow file) = some result →
    ∃ number, result = Style.ofKey file (e.keyNow file) (e.host.dump number file)

theorem upToDate_of_styles {e : Engine} (h : e.styles = {}) (file : String) : e.UpToDate file := by
  intro result hresult
  rw [h] at hresult
  cases hresult

/-- Along runs in which changes are announced, what is remembered stays up to date. -/
theorem Tracks.upToDate {answers : Answers} {hosts : List Host} {paths tools : List String} {e : Engine}
    (h : e.Tracks answers hosts paths tools) (hs : Steady answers hosts paths tools)
    (hc : e.styles.chains.Sound e.host.files.has) {file : String} (hp : file ∈ paths) : e.UpToDate file := by
  obtain ⟨-, -, hstyle⟩ := h.style_eq hs hc hp
  intro result hresult
  rw [← run_dependencyKey] at hresult ⊢
  exact ⟨0, (h.remembered_eq hs hc hp hresult).trans (hstyle 0).symm⟩

end Engine

/-- A style was found with a tool that ran, and ended well. -/
theorem Style.ofKey_eq_ok {path : String} {dependencies : DependencyKey}
    {answer : String → Except Failure ToolOutput} {style : Style} (h : ofKey path dependencies answer = .ok style) :
    ∃ tool stamp run, dependencies.tool = some (tool, stamp) ∧ answer tool = .ok run ∧ run.success = true := by
  unfold ofKey at h
  split at h
  · cases h
  split at h
  · cases h
  · rename_i tool stamp htool
    cases hanswer : answer tool with
    | error f =>
      rw [hanswer] at h
      cases h
    | ok run =>
      rw [hanswer] at h
      dsimp only [ofAnswer] at h
      split at h
      · cases h
      · rename_i hsuccess
        exact ⟨tool, stamp, run, htool, hanswer, by simpa using hsuccess⟩

namespace StandIn
open Engine

/-- The stand-in is in use, and formats the file. -/
structure Accepts (s : StandIn) (file : String) (e : Engine) : Prop where
  tool : e.host.tool = some s.tool
  located : ∃ tool, e.located = some tool
  options : ∃ options, s.options e.host.files file = .ok options
  reason : e.reasonNow file = .ok none

variable {s : StandIn} {file : String} {e : Engine}

/-- A file that may be formatted is one that the stand-in does not refuse. -/
theorem accepts_of_isFormattable (ht : e.host.tool = some s.tool) (hup : e.UpToDate file) {t : Token}
    (h : ((isFormattable file false t).run e).1 = true) : s.Accepts file e := by
  have hreason : e.reasonNow file = .ok none := by
    have hpermits : permits false ((reason? file t).run e).1 = true := by
      rw [run_isFormattable] at h
      exact h
    have hnone : ((reason? file t).run e).1 = .ok none := by
      cases hreason : ((reason? file t).run e).1 with
      | error f =>
        rw [hreason, permits, Bool.and_false] at hpermits
        cases hpermits
      | ok reason =>
        rw [hreason, permits, Option.isNone_iff_eq_none] at hpermits
        rw [hpermits]
    rcases reason?_eq file t e with heq | ⟨hcancelled, -⟩
    · exact heq.symm.trans hnone
    · rw [hnone] at hcancelled
      cases hcancelled
  obtain ⟨-, -, -, hofStyle⟩ := of_reasonNow hreason
  obtain ⟨style, hstyle⟩ := Reason.eq_ok_of_ofStyle hofStyle
  have hfresh : ∃ number, Style.ofKey file (e.keyNow file) (e.host.dump number file) = .ok style := by
    unfold styleNow at hstyle
    cases hremembered : e.styles.remembered? file (e.keyNow file) with
    | none =>
      rw [hremembered] at hstyle
      exact ⟨_, hstyle⟩
    | some result =>
      rw [hremembered] at hstyle
      obtain ⟨number, hresult⟩ := hup result hremembered
      exact ⟨number, hresult.symm.trans hstyle⟩
  obtain ⟨number, hfresh⟩ := hfresh
  obtain ⟨tool, stamp, run, htool, hanswer, hsuccess⟩ := Style.ofKey_eq_ok hfresh
  refine ⟨ht, ?_, ?_, hreason⟩
  · obtain ⟨place, hplace, -⟩ := Option.map_eq_some_iff.mp htool
    exact ⟨place, hplace⟩
  · cases hoptions : s.options e.host.files file with
    | ok options => exact ⟨options, rfl⟩
    | error refused =>
      have hrefused := dump_eq ht hoptions number tool
      rw [hanswer] at hrefused
      cases hrefused
      rw [options_error hoptions] at hsuccess
      cases hsuccess

/-! ### Formatting -/

theorem not_mayWait (ht : e.host.tool = some s.tool) : ¬e.MayWait := by
  rintro ⟨tool, htool, files, number, c, hwaits⟩
  rw [ht] at htool
  cases htool
  unfold StandIn.tool at hwaits
  dsimp only at hwaits
  split at hwaits
  · cases hwaits
  split at hwaits
  · cases hwaits
  split at hwaits <;> cases hwaits

theorem decode_render_collapse {cs : List Char} (hsize : Utf8.size cs ≤ maxWord) :
    Response.decode (success (collapse cs).render).text = .ok (collapse cs) := by
  obtain ⟨hfit, -, -, hchain⟩ := collapse_inOrder hsize
  rw [success, ToolOutput.text, Utf8.toText_encode]
  exact Response.decode_of_fits hfit hchain

variable {text : String} {after : Engine}

theorem Accepts.preparedNow (h : s.Accepts file e) (hsize : (Utf8.encode text).length ≤ maxWord) (number stamp : Nat) :
    e.preparedNow number file (Utf8.encode text) stamp =
      .ok (.edit ⟨Utf8.encode text, stamp, collapse text.toList⟩) := by
  obtain ⟨tool, htool⟩ := h.located
  obtain ⟨options, hoptions⟩ := h.options
  have htext : Utf8.decodeLossy (Utf8.encode text) = text.toList := Utf8.decodeLossy_flatMap_utf8EncodeChar _
  have hanswer := answer_format h.tool hoptions number tool (Utf8.encode text)
  rw [htext] at hanswer
  rw [Engine.preparedNow, h.reason]
  dsimp only
  rw [editNow, htool]
  dsimp only
  rw [hanswer, Prepared.ofAnswer, decode_render_collapse hsize]
  rfl

theorem Accepts.of_quiet (h : s.Accepts file e) (hq : after.quiet = e.quiet) : s.Accepts file after := by
  have hreason := congrArg (reasonNow · file) hq
  have hlocated := congrArg Engine.located hq
  obtain ⟨tool, htool⟩ := h.located
  obtain ⟨options, hoptions⟩ := h.options
  refine ⟨?_, ⟨tool, ?_⟩, ⟨options, ?_⟩, ?_⟩
  · exact (congrArg (·.host.tool) hq).trans h.tool
  · exact hlocated.trans htool
  · have hfiles : after.host.files = e.host.files := congrArg (·.host.files) hq
    rw [hfiles]
    exact hoptions
  · exact hreason.trans h.reason

/-- The stand-in is called with the bytes of the text, and the edit squeezes the text. -/
theorem Accepts.prepare (h : s.Accepts file e) (hsize : (Utf8.encode text).length ≤ maxWord) (stamp : Nat) {t : Token}
    (hlive : e.desk.isCancelled t = false) :
    let prepared := (Engine.prepare file (Utf8.encode text) stamp t).run e
    prepared.1 = .ok (.edit ⟨Utf8.encode text, stamp, collapse text.toList⟩) ∧ s.Accepts file prepared.2 ∧
      prepared.2.desk = e.desk ∧ ∃ tool, ∃ asked : List Call, (∀ c ∈ asked, c.input = none) ∧
        prepared.2.host.calls.toList = e.host.calls.toList ++ asked ++
          [⟨e.host.placed file (Invocation.format tool file false), some (Utf8.encode text)⟩] := by
  have hcases := prepare_cases file (Utf8.encode text) stamp t e
  have hprogress := acrossRequests_progress.moves_prepare file (Utf8.encode text) stamp t e
  have hbasis := acrossRequests_basis.moves_prepare file (Utf8.encode text) stamp t e
  have hdesk := (acrossRequests_desk.moves_prepare file (Utf8.encode text) stamp t e).2 (not_mayWait h.tool)
  have hstays : (((Engine.prepare file (Utf8.encode text) stamp t).run e).2).desk.isCancelled t = false := by
    rw [hdesk]
    exact hlive
  have hcleared := cleared_prepare h.reason hstays
  obtain ⟨tool, htool⟩ := h.located
  obtain ⟨options, hoptions⟩ := h.options
  dsimp only at hcases ⊢
  rcases hcases with ⟨-, hcancelled⟩ | ⟨⟨number, hresult⟩, hcalls⟩
  · rw [hstays] at hcancelled
    cases hcancelled
  · refine ⟨?_, ⟨?_, ⟨tool, ?_⟩, ⟨options, ?_⟩, hcleared.reasonNow⟩, hdesk, tool, hcalls tool h.reason htool⟩
    · rw [hresult]
      exact h.preparedNow hsize number stamp
    · rw [hprogress.tool]
      exact h.tool
    · exact (congrArg (·.2.1) hbasis).trans htool
    · rw [hprogress.files]
      exact hoptions

/-- The edit of the stand-in is applied as a whole, if there is something to change. -/
theorem apply_collapse {b : Buffer} (hb : b.units = Utf16.encode text)
    (hsize : (Utf8.encode text).length ≤ maxWord) :
    ∃ after : Buffer, after.units = Utf16.encode (String.ofList (squeezed text.toList)) ∧
      (longRuns text.toList = 0 → after = b) ∧
      PreparedEdit.apply ⟨Utf8.encode text, b.stamp, collapse text.toList⟩ b =
        (.ok (if longRuns text.toList = 0 then .noChanges else .applied (longRuns text.toList)), after) := by
  have hlength : (collapse text.toList).replacements.length = longRuns text.toList :=
    length_collapseFrom 0 0 text.toList
  obtain ⟨after, happly, hunits⟩ := applyReplacements_collapse hb hsize
  unfold PreparedEdit.apply
  dsimp only
  rw [if_neg (not_not.mpr rfl), Response.isEmpty, Response.size, hlength]
  by_cases hnone : longRuns text.toList = 0
  · have hnil : (collapse text.toList).replacements = [] := List.length_eq_zero_iff.mp (hlength.trans hnone)
    refine ⟨b, ?_, fun _ => rfl, ?_⟩
    · obtain ⟨updates, hall⟩ := applyReplacements_eq (Utf8.encode text) b (collapse text.toList)
      rw [happly, hnil] at hall
      rw [← hunits, (Prod.mk.inj hall).1]
      rfl
    · rw [hnil, if_pos hnone]
      rfl
  · have hne : (collapse text.toList).replacements ≠ [] := by
      intro hnil
      rw [hnil] at hlength
      exact hnone hlength.symm
    refine ⟨after, hunits, fun h => absurd h hnone, ?_⟩
    rw [if_neg (by simpa using hne), happly, if_neg hnone]

theorem Accepts.formatNow (h : s.Accepts file e) {b : Buffer} (hb : b.units = Utf16.encode text)
    (hsize : (Utf8.encode text).length ≤ maxWord) {t : Token} (hlive : e.desk.isCancelled t = false) :
    let formatted := (Engine.formatNow file b t).run e
    formatted.1.2.units = Utf16.encode (String.ofList (squeezed text.toList)) ∧
    formatted.1.1 = .ok (if longRuns text.toList = 0 then .noChanges else .applied (longRuns text.toList)) ∧
    (longRuns text.toList = 0 → formatted.1.2 = b) ∧
    (∃ tool, ∃ asked : List Call, (∀ c ∈ asked, c.input = none) ∧
      formatted.2.host.calls.toList = e.host.calls.toList ++ asked ++
        [⟨e.host.placed file (Invocation.format tool file false), some (Utf8.encode text)⟩]) ∧
    s.Accepts file formatted.2 ∧ formatted.2.desk = e.desk := by
  have htext : b.text = text := by rw [Buffer.text, hb, Utf16.toText_encode]
  have hquiet := unlogged_quiet.keeps_clearNotice e
  obtain ⟨-, -, hplaced, hcalls, hdesk⟩ := Engine.of_quiet hquiet
  rw [← hdesk] at hlive
  obtain ⟨hprepared, haccepts, hdesk', tool, asked, hinputs, hcalls'⟩ :=
    (h.of_quiet hquiet).prepare hsize b.stamp hlive
  rw [← htext] at hprepared
  obtain ⟨after, hunits, hsame, happly⟩ := apply_collapse hb hsize
  rw [← htext] at happly
  obtain ⟨hresult, hend⟩ := formatNow_of_edit hprepared happly
  rw [htext] at hresult hend
  obtain ⟨-, -, -, hcalls'', hdesk''⟩ := Engine.of_quiet hend
  dsimp only
  rw [hresult, hcalls'', hcalls', hdesk'', hdesk', hcalls, hplaced]
  exact ⟨hunits, rfl, hsame, ⟨tool, asked, hinputs, rfl⟩, haccepts.of_quiet hend, hdesk⟩

end StandIn

namespace Engine
open StandIn

/-- With the stand-in as the tool, a document whose file may be formatted comes out with each run of spaces made a
single one, and the outcome counts the runs that were longer.  The stand-in reads exactly the text.  Formatting
the document again leaves it as it is. -/
theorem formatNow_squeezes (s : StandIn) (e : Engine) (file text : String) (b : Buffer) (t t' : Token)
    (htool : e.host.tool = some s.tool) (hup : e.UpToDate file)
    (hformattable : ((isFormattable file false t).run e).1 = true)
    (hlive : e.desk.isCancelled t = false) (hlive' : e.desk.isCancelled t' = false)
    (hb : b.units = Utf16.encode text) (hsize : (Utf8.encode text).length ≤ maxWord) :
    let first := (formatNow file b t).run e
    let second := (formatNow file first.1.2 t').run first.2
    first.1.2.units = Utf16.encode (String.ofList (squeezed text.toList)) ∧
    first.1.1 = .ok (if longRuns text.toList = 0 then .noChanges else .applied (longRuns text.toList)) ∧
    (∃ tool, ∃ asked : List Call, (∀ c ∈ asked, c.input = none) ∧
      first.2.host.calls.toList = e.host.calls.toList ++ asked ++
        [⟨e.host.placed file (Invocation.format tool file false), some (Utf8.encode text)⟩]) ∧
    second.1 = (.ok .noChanges, first.1.2) := by
  have haccepts := accepts_of_isFormattable htool hup hformattable
  obtain ⟨hunits, houtcome, -, hcalls, haccepts', hdesk⟩ := haccepts.formatNow hb hsize hlive
  dsimp only at *
  rw [← hdesk] at hlive'
  have hnone : longRuns (String.ofList (squeezed text.toList)).toList = 0 := by
    rw [String.toList_ofList]
    exact longRuns_squeezed 0 text.toList
  have hshort : (Utf8.encode (String.ofList (squeezed text.toList))).length ≤ maxWord := by
    rw [Utf8.encode, String.toList_ofList]
    exact Nat.le_trans (size_squeezed_le text.toList) hsize
  obtain ⟨-, houtcome', hsame, -⟩ := haccepts'.formatNow hunits hshort hlive'
  refine ⟨hunits, houtcome, hcalls, ?_⟩
  rw [if_pos hnone] at houtcome'
  exact Prod.ext houtcome' (hsame hnone)

def standInHost : Host where
  files := (({} : FileStore).write installedAt []).write "/p/.clang-format" (Utf8.encode "IndentWidth: 4\n")
  executables := [("clang-format", installedAt)]
  tool := some (StandIn.tool {})

/-- Letters of two and of four bytes stand between the runs. -/
theorem formatNow_squeezes_letters :
    let first := (formatNow "/p/a.cpp" (Buffer.ofText "é  x   😀 y") 0).run { host := standInHost }
    first.1.2.units = Utf16.encode "é x 😀 y" ∧ first.1.1 = .ok (.applied 2) ∧
      ((formatNow "/p/a.cpp" first.1.2 0).run first.2).1 = (.ok .noChanges, first.1.2) := by
  have hruns : longRuns "é  x   😀 y".toList = 2 := by decide
  have hsqueezed : String.ofList (squeezed "é  x   😀 y".toList) = "é x 😀 y" := by decide
  obtain ⟨hunits, houtcome, -, hagain⟩ := formatNow_squeezes {} { host := standInHost } "/p/a.cpp" "é  x   😀 y"
    (Buffer.ofText "é  x   😀 y") 0 0 rfl (upToDate_of_styles rfl _) (by decide +kernel) rfl rfl rfl (by decide)
  dsimp only at *
  rw [hsqueezed] at hunits
  rw [hruns] at houtcome
  exact ⟨hunits, houtcome, hagain⟩

end Engine
end Restyle
