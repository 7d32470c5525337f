/-! # Words of a command line

A command line has two levels: the words before the name of a subcommand, and those after it.  Each
level is read word by word.  An option takes its value from the same word, after an equals sign, or
else from the next word, unless that starts with a hyphen.  Two hyphens end the options.
-/
namespace Restyle.Args

inductive ValueOption where
  | config
  | clangFormat
  | timeout
  | logLevel
  | stdin
deriving Repr, DecidableEq

inductive Subcommand where
  | fmt
  | check
  | style
  | configPath
  | validatePath
  | version
deriving Repr, DecidableEq

namespace Subcommand

def all : List Subcommand := [fmt, check, style, configPath, validatePath, version]

def name : Subcommand → String
  | fmt => "fmt"
  | check => "check"
  | style => "style"
  | configPath => "config-path"
  | validatePath => "validate-path"
  | version => "version"

def ofName? (word : String) : Option Subcommand := all.find? (·.name = word)

/-- How many files a subcommand takes; none stands for any number. -/
def capacity? : Subcommand → Option Nat
  | fmt | check => none
  | style | configPath | validatePath => some 1
  | version => some 0

end Subcommand

/-- Why a command line is refused.  Requests for help or for the version end the reading, too. -/
inductive Fault where
  | displayHelp
  | displayVersion
  | invalidSubcommand
  | missingSubcommand
  | unknownArgument
  | invalidValue
  | missingRequiredArgument
  | argumentConflict
  | tooManyValues
deriving Repr, DecidableEq

/-- Where words stand: before the subcommand, or after it. -/
inductive Place where
  | top
  | under (s : Subcommand)
deriving Repr, DecidableEq

inductive Named where
  | value (o : ValueOption)
  | verbose
  | help
  | version
deriving Repr, DecidableEq

def Place.long? (p : Place) (name : String) : Option Named :=
  if name = "config" then some (.value .config)
  else if name = "clang-format" then some (.value .clangFormat)
  else if name = "timeout" then some (.value .timeout)
  else if name = "log-level" then some (.value .logLevel)
  else if name = "verbose" then some .verbose
  else if name = "help" then some .help
  else if name = "version" ∧ p = .top then some .version
  else if name = "stdin" ∧ p = .under .fmt then some (.value .stdin)
  else none

structure Level where
  values : List (ValueOption × String) := []
  verbose : Bool := false
  files : List String := []
  /-- The latest option that takes a value from a word of its own, with that word. -/
  pending : Option (ValueOption × Option String) := none
  ended : Bool := false
deriving Repr, DecidableEq

namespace Level

def get? (l : Level) (o : ValueOption) : Option String :=
  (l.values.find? (·.1 = o)).map (·.2)

def give (l : Level) (o : ValueOption) (value : String) : Except Fault Level :=
  if (l.get? o).isSome then .error .argumentConflict
  else .ok { l with values := l.values ++ [(o, value)] }

def settle (l : Level) : Except Fault Level :=
  match l.pending with
  | none => .ok l
  | some (_, none) => .error .invalidValue
  | some (o, some value) => { l with pending := none }.give o value

def awaits (l : Level) : Bool :=
  match l.pending with
  | some (_, none) => true
  | _ => false

def named (l : Level) (n : Named) (attached : Option String) : Except Fault Level :=
  match n, attached with
  | .value o, some value => l.settle.bind (·.give o value)
  | .value o, none => l.settle.map fun l => { l with pending := some (o, none) }
  | _, some _ => .error .tooManyValues
  | .verbose, none => l.settle.bind fun l =>
    if l.verbose then .error .argumentConflict else .ok { l with verbose := true }
  | .help, none => l.settle.bind fun _ => .error .displayHelp
  | .version, none => l.settle.bind fun _ => .error .displayVersion

def splitValue (cs : List Char) : String × Option String :=
  match cs.dropWhile (· ≠ '=') with
  | _ :: value => (String.ofList (cs.takeWhile (· ≠ '=')), some (String.ofList value))
  | [] => (String.ofList cs, none)

def long (l : Level) (p : Place) (cs : List Char) : Except Fault Level :=
  let (name, attached) := splitValue cs
  match p.long? name with
  | some n => l.named n attached
  | none => .error .unknownArgument

def short (l : Level) (p : Place) (letter : Char) (rest : List Char) : Except Fault Level :=
  if letter = 'c' then
    l.named (.value .config) (match rest with
      | [] => none
      | '=' :: value => some (String.ofList value)
      | value => some (String.ofList value))
  else if letter = 'h' then l.named .help none
  else if letter = 'V' ∧ p = .top then l.named .version none
  else .error .unknownArgument

def plain (l : Level) (p : Place) (word : String) : Except Fault Level :=
  match p with
  | .top =>
    let known := (Subcommand.ofName? word).isSome || word = "help"
    .error (if l.ended && known then .unknownArgument else .invalidSubcommand)
  | .under s =>
    if s.capacity?.all (l.files.length < ·) then
      l.settle.map fun l => { l with files := l.files ++ [word] }
    else .error .unknownArgument

def step (p : Place) (l : Level) (word : String) : Except Fault Level :=
  if l.ended then l.plain p word
  else match word.toList with
    | ['-', '-'] => .ok { l with ended := true }
    | '-' :: '-' :: cs => l.long p cs
    | '-' :: c :: cs => l.short p c cs
    | _ => match l.pending with
      | some (o, none) => .ok { l with pending := some (o, some word) }
      | _ => l.plain p word

/-- What a complete level must satisfy: a log level is given in one way only, and the one file that
a subcommand needs is there. -/
def check (p : Place) (l : Level) : Except Fault Level :=
  if l.verbose && (l.get? .logLevel).isSome then .error .argumentConflict
  else match p with
    | .under s =>
      if s.capacity? = some 1 ∧ l.files = [] then .error .missingRequiredArgument else .ok l
    | .top => .ok l

def readUnder (s : Subcommand) (words : List String) : Except Fault Level :=
  ((words.foldlM (step (.under s)) {}).bind settle).bind (check (.under s))

/-- The answer to the words after `help`: each must name a subcommand of the one before it. -/
def helpAbout (words : List String) : Fault :=
  match words with
  | [] => .displayHelp
  | [word] =>
    if (Subcommand.ofName? word).isSome || word = "help" then .displayHelp else .invalidSubcommand
  | _ => .invalidSubcommand

/-- Reads the words of a whole command line: the subcommand, the level before it and the one after
it.  Faults after the subcommand come first. -/
def readTop (l : Level) : List String → Except Fault (Level × Subcommand × Level)
  | [] => l.settle.bind fun _ => .error .missingSubcommand
  | word :: words =>
    if l.ended || l.awaits then (step .top l word).bind (readTop · words)
    else if word = "help" then .error (helpAbout words)
    else match Subcommand.ofName? word with
      | some s => do
        let under ← readUnder s words
        let top ← l.settle.bind (check .top)
        return (top, s, under)
      | none => (step .top l word).bind (readTop · words)

end Level
end Restyle.Args
