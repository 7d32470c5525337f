import Restyle.Yaml.Token

/-! # Nodes

The tree of one YAML document.  Reading follows the grammar of the token stream; a stream that
holds a second document is refused.
-/
namespace Restyle.Yaml

structure Properties where
  anchor : Option (List Char) := none
  tag : Option (List Char) := none
deriving Repr, DecidableEq

/-- A node of a document.  A lone exclamation mark on a scalar counts as no tag. -/
inductive Node where
  | alias (name : List Char)
  | scalar (p : Properties) (text : List Char) (plain : Bool)
  | sequence (p : Properties) (items : List Node)
  | mapping (p : Properties) (entries : List (Node × Node))
deriving Inhabited

def Node.missing : Node := .scalar {} [] true

/-- The full text of a tag.  An undeclared handle is a fault. -/
def resolveTag (handles : List (List Char × List Char)) (handle suffix : List Char) :
    Option (List Char) :=
  if handle.isEmpty then some suffix
  else (handles.find? (·.1 = handle)).map fun h => h.2 ++ suffix

def properties (handles : List (List Char × List Char)) (ts : List Token) : Option (Properties × List Token) :=
  match ts with
  | .anchor a :: .tag h x :: ts => do return (⟨some a, some (← resolveTag handles h x)⟩, ts)
  | .tag h x :: .anchor a :: ts => do return (⟨some a, some (← resolveTag handles h x)⟩, ts)
  | .anchor a :: ts => some (⟨some a, none⟩, ts)
  | .tag h x :: ts => do return (⟨none, some (← resolveTag handles h x)⟩, ts)
  | ts => some ({}, ts)

def endsBlockEntry : List Token → Bool
  | .key :: _ => true
  | .value :: _ => true
  | .blockEnd :: _ => true
  | _ => false

def endsFlowEntry (close : Token) : List Token → Bool
  | t :: _ => t = .flowEntry || t = close
  | [] => false

/-- Drops the separator in front of an entry of a flow collection; the first entry has none. -/
def afterSeparator (first : Bool) (ts : List Token) : Option (List Token) :=
  if first then some ts else match ts with
    | .flowEntry :: ts => some ts
    | _ => none

/-- Properties without content stand for an empty scalar. -/
def bareNode (p : Properties) (ts : List Token) : Option (Node × List Token) :=
  if p.anchor.isSome || p.tag.isSome then some (.scalar p [] true, ts) else none

mutual

/-- Reads a node.  Block collections are admitted in blocks only; entries without a collection start
are admitted only as a value or key of a block mapping. -/
def node (handles : List (List Char × List Char)) :
    Nat → (inBlock indentless : Bool) → List Token → Option (Node × List Token)
  | 0, _, _, _ => none
  | fuel + 1, inBlock, indentless, ts =>
    match ts with
    | .alias name :: ts => some (.alias name, ts)
    | _ => do
      let (p, ts) ← properties handles ts
      match ts with
      | .blockEntry :: _ =>
        if indentless then do
          let (items, ts) ← looseItems handles fuel ts
          return (.sequence p items, ts)
        else bareNode p ts
      | .scalar text plain :: ts =>
        return (.scalar { p with tag := p.tag.filter (· ≠ ['!']) } text plain, ts)
      | .flowSequenceStart :: ts => do
        let (items, ts) ← flowItems handles fuel true ts
        return (.sequence p items, ts)
      | .flowMappingStart :: ts => do
        let (entries, ts) ← flowEntries handles fuel true ts
        return (.mapping p entries, ts)
      | .blockSequenceStart :: rest =>
        if inBlock then do
          let (items, ts) ← blockItems handles fuel rest
          return (.sequence p items, ts)
        else bareNode p ts
      | .blockMappingStart :: rest =>
        if inBlock then do
          let (entries, ts) ← blockEntries handles fuel rest
          return (.mapping p entries, ts)
        else bareNode p ts
      | ts => bareNode p ts

def blockItems (handles : List (List Char × List Char)) : Nat → List Token → Option (List Node × List Token)
  | 0, _ => none
  | fuel + 1, ts => match ts with
    | .blockEnd :: ts => some ([], ts)
    | .blockEntry :: ts => do
      let ends := match ts with
        | .blockEntry :: _ => true
        | .blockEnd :: _ => true
        | _ => false
      let (item, ts) ← if ends then some (Node.missing, ts) else node handles fuel true false ts
      let (items, ts) ← blockItems handles fuel ts
      return (item :: items, ts)
    | _ => none

/-- Reads the entries of a sequence that has no start and no end of its own. -/
def looseItems (handles : List (List Char × List Char)) : Nat → List Token → Option (List Node × List Token)
  | 0, _ => none
  | fuel + 1, ts => match ts with
    | .blockEntry :: ts => do
      let ends := endsBlockEntry ts || match ts with
        | .blockEntry :: _ => true
        | _ => false
      let (item, ts) ← if ends then some (Node.missing, ts) else node handles fuel true false ts
      let (items, ts) ← looseItems handles fuel ts
      return (item :: items, ts)
    | ts => some ([], ts)

def blockEntries (handles : List (List Char × List Char)) :
    Nat → List Token → Option (List (Node × Node) × List Token)
  | 0, _ => none
  | fuel + 1, ts => match ts with
    | .blockEnd :: ts => some ([], ts)
    | .key :: ts => do
      let (k, ts) ← if endsBlockEntry ts then some (Node.missing, ts) else node handles fuel true true ts
      let (v, ts) ← match ts with
        | .value :: ts =>
          if endsBlockEntry ts then some (Node.missing, ts) else node handles fuel true true ts
        | ts => some (Node.missing, ts)
      let (entries, ts) ← blockEntries handles fuel ts
      return ((k, v) :: entries, ts)
    | _ => none

/-- Reads the entries of a flow sequence up to its end.  An entry that starts with a key is a mapping
of one entry; where its key is missing, the token after the key marker is lost. -/
def flowItems (handles : List (List Char × List Char)) :
    Nat → (first : Bool) → List Token → Option (List Node × List Token)
  | 0, _, _ => none
  | fuel + 1, first, ts => match ts with
    | .flowSequenceEnd :: ts => some ([], ts)
    | _ => do
      let ts ← afterSeparator first ts
      match ts with
      | .flowSequenceEnd :: ts => return ([], ts)
      | .key :: ts => do
        let missing := match ts with
          | .value :: _ => true
          | ts => endsFlowEntry .flowSequenceEnd ts
        let (k, ts) ←
          if missing then some (Node.missing, ts.drop 1) else node handles fuel false false ts
        let (v, ts) ← match ts with
          | .value :: ts =>
            if endsFlowEntry .flowSequenceEnd ts then some (Node.missing, ts)
            else node handles fuel false false ts
          | ts => some (Node.missing, ts)
        let (items, ts) ← flowItems handles fuel false ts
        return (.mapping {} [(k, v)] :: items, ts)
      | ts => do
        let (item, ts) ← node handles fuel false false ts
        let (items, ts) ← flowItems handles fuel false ts
        return (item :: items, ts)

def flowEntries (handles : List (List Char × List Char)) :
    Nat → (first : Bool) → List Token → Option (List (Node × Node) × List Token)
  | 0, _, _ => none
  | fuel + 1, first, ts => match ts with
    | .flowMappingEnd :: ts => some ([], ts)
    | _ => do
      let ts ← afterSeparator first ts
      match ts with
      | .flowMappingEnd :: ts => return ([], ts)
      | .key :: ts => do
        let missing := match ts with
          | .value :: _ => true
          | ts => endsFlowEntry .flowMappingEnd ts
        let (k, ts) ← if missing then some (Node.missing, ts) else node handles fuel false false ts
        let (v, ts) ← match ts with
          | .value :: ts =>
            if endsFlowEntry .flowMappingEnd ts then some (Node.missing, ts)
            else node handles fuel false false ts
          | ts => some (Node.missing, ts)
        let (entries, ts) ← flowEntries handles fuel false ts
        return ((k, v) :: entries, ts)
      | ts => do
        let (k, ts) ← node handles fuel false false ts
        let (entries, ts) ← flowEntries handles fuel false ts
        return ((k, Node.missing) :: entries, ts)

end

structure Prologue where
  version : Bool := false
  handles : List (List Char × List Char) := []
  any : Bool := false

/-- Reads directives.  A second version, another version than 1.1 or 1.2, and a handle that is
declared twice are faults. -/
def prologue (p : Prologue) : List Token → Option (Prologue × List Token)
  | .directive (.version major minor) :: ts =>
    if p.version || major ≠ 1 || (minor ≠ 1 && minor ≠ 2) then none
    else prologue { p with version := true, any := true } ts
  | .directive (.tag handle stem) :: ts =>
    if p.handles.any (·.1 = handle) then none
    else prologue { p with handles := p.handles ++ [(handle, stem)], any := true } ts
  | ts => some (p, ts)

def commonHandles : List (List Char × List Char) :=
  [(['!'], ['!']), (['!', '!'], "tag:yaml.org,2002:".toList)]

/-- Reads the one document of a stream; a stream without documents has no node. -/
def document? (ts : List Token) : Option (Option Node) := do
  let fuel := 4 * ts.length + 8
  let (p, rest) ← prologue {} ts
  let handles := p.handles ++ commonHandles
  let (root, rest) ← match rest with
    | .documentStart :: rest =>
      match rest with
      | .directive _ :: _ => some (some Node.missing, rest)
      | .documentStart :: _ => some (some Node.missing, rest)
      | .documentEnd :: _ => some (some Node.missing, rest)
      | .streamEnd :: _ => some (some Node.missing, rest)
      | _ => do
        let (n, rest) ← node handles fuel true false rest
        some (some n, rest)
    | .streamEnd :: _ => if p.any then none else some (none, rest)
    | _ =>
      if p.any then none
      else do
        let (n, rest) ← node handles fuel true false rest
        some (some n, rest)
  match rest.dropWhile (· = .documentEnd) with
  | [.streamEnd] => return root
  | _ => none

end Restyle.Yaml
