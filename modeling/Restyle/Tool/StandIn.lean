import Restyle.Edit.Listing
import Restyle.File.Kind
import Restyle.Tool.Reply

/-! # A stand-in for the tool

It reads the nearest configuration file, refuses keys that start with `BadKey`, and formats by
turning every run of spaces into a single space.
-/
namespace Restyle

structure StandIn where
  language : Option String := none
deriving Repr, DecidableEq, Inhabited

namespace StandIn

def installedAt : String := "/usr/bin/clang-format"

/-- The options that every style has, with the values they have unless a configuration sets them. -/
def defaults : List (String × String) :=
  [("ColumnLimit", "80"), ("IndentWidth", "2"), ("TabWidth", "8"), ("UseTab", "Never")]

def success (stdout : String) : ToolOutput := ⟨0, Utf8.encode stdout, []⟩

def failed (stderr : String) : ToolOutput := ⟨1, [], Utf8.encode stderr⟩

def languageOf (file : String) : String :=
  let extension := (Path.extension? file).map fun e => String.ofList (e.toList.map Char.toLower)
  match extension with
  | some "cs" => "CSharp"
  | some "java" => "Java"
  | some "js" | some "mjs" | some "ts" => "JavaScript"
  | some "proto" => "Proto"
  | some "m" | some "mm" => "ObjC"
  | _ => "Cpp"

def configOf? (files : FileStore) (file : String) : Option String :=
  (Path.parent? file).bind fun directory =>
    (FileStore.ancestors directory).findSome? fun d =>
      (configFileNames.map (Path.join d)).find? files.isFile

/-- The lines of a text.  A carriage return in front of the line feed does not belong to the line, and
after the last line feed there is no line. -/
def linesOf (cs : List Char) : List (List Char) :=
  let rec go (current : List Char) : List Char → List (List Char)
    | [] => if current.isEmpty then [] else [current.reverse]
    | '\n' :: cs => (match current with
      | '\r' :: rest => rest
      | line => line).reverse :: go [] cs
    | c :: cs => go (c :: current) cs
  go [] cs

inductive Line where
  | nothing
  | option (key value : List Char)
  | noMapping

def Line.read (line : List Char) : Line :=
  let trimmed := Text.trimChars line
  if trimmed.isEmpty || trimmed.head? = some '#' || trimmed = ['-', '-', '-'] || trimmed = ['.', '.', '.']
  then .nothing
  else match trimmed.dropWhile (· ≠ ':') with
    | _ :: value => .option (Text.trimChars (trimmed.takeWhile (· ≠ ':'))) (Text.trimChars value)
    | [] => .noMapping

def optionsFrom (config : String) (number : Nat) :
    List (List Char) → Except ToolOutput (List (String × String))
  | [] => .ok []
  | line :: lines => match Line.read line with
    | .nothing => optionsFrom config (number + 1) lines
    | .noMapping => .error (failed
        s!"{config}:{number}:1: error: not a mapping\n{String.ofList line}\n")
    | .option key value =>
      let name := String.ofList key
      if "BadKey".toList.isPrefixOf key then
        let marks := String.ofList (List.replicate (name.utf8ByteSize - 1) '~')
        .error (failed
          s!"{config}:{number}:1: error: unknown key '{name}'\n{String.ofList line}\n^{marks}\n")
      else (optionsFrom config (number + 1) lines).map ((name, String.ofList value) :: ·)

def optionsOf (files : FileStore) (config : String) : Except ToolOutput (List (String × String)) :=
  match files.read config with
  | .error fault => .error (failed fault.message)
  | .ok text => optionsFrom config 1 (linesOf text.toList)

def optionsFor (files : FileStore) (file language : String) :
    Except ToolOutput (List (String × String)) :=
  match configOf? files file with
  | none => .ok []
  | some config => (optionsOf files config).bind fun options =>
    match options.find? (·.1 = "Language") with
    | some (_, wanted) =>
      if wanted = language then .ok options
      else .error (failed s!"Configuration file(s) do(es) not support {language}: {config}\n")
    | none => .ok options

def dump (language : String) (options : List (String × String)) : String :=
  let line := fun (o : String × String) => s!"{o.1}: {o.2}\n"
  let own := (options.filter (·.1 ≠ "Language")).map line
  let rest := (defaults.filter fun d => !(options.any (·.1 = d.1))).map line
  s!"---\nLanguage: {language}\n" ++ String.join (own ++ rest) ++ "...\n"

/-- The replacements for the rest of a text; `run` spaces stand in front of it, and `offset` counts
the bytes before them. -/
def collapseFrom (offset run : Nat) : List Char → List Replacement
  | [] => if 1 < run then [⟨offset, run, " "⟩] else []
  | c :: cs =>
    if c = ' ' then collapseFrom offset (run + 1) cs
    else
      let next := collapseFrom (offset + run + c.utf8Size) 0 cs
      if 1 < run then ⟨offset, run, " "⟩ :: next else next

/-- The replacements that turn every run of spaces into a single space. -/
def collapse (text : List Char) : Response := ⟨collapseFrom 0 0 text, false⟩

def runFor (args : List String) (input : List UInt8) (language : String)
    (options : List (String × String)) : ToolOutput :=
  if args.contains "--dump-config" then success (dump language options)
  else if args.contains "--output-replacements-xml" then
    success (collapse (Utf8.decodeLossy input)).render
  else failed ("Unexpected arguments: " ++ " ".intercalate args ++ "\n")

def fileOf? (args : List String) : Option String :=
  args.findSome? fun a =>
    if "--assume-filename=".toList.isPrefixOf a.toList then
      some (String.ofList (a.toList.drop "--assume-filename=".length))
    else none

def tool (s : StandIn) : Tool := fun files _ call =>
  let args := call.invocation.args
  if args.contains "--version" then ⟨.ok (success "clang-format version 18.1.8\n"), false, true⟩
  else match fileOf? args with
    | none => ⟨.error (.process "Missing --assume-filename"), false, true⟩
    | some file =>
      let language := s.language.getD (languageOf file)
      match optionsFor files file language with
      | .error run => ⟨.ok run, false, true⟩
      | .ok options => ⟨.ok (runFor args (call.input.getD []) language options), false, true⟩

end StandIn
end Restyle
