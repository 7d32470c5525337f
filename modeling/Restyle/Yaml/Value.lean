import Restyle.Text.Quoted
import Restyle.Yaml.Node
import Restyle.Yaml.Scalar

/-! # Values

What a document says: its nodes with scalars typed and aliases replaced by what they point to.
-/
namespace Restyle.Yaml

inductive Value where
  | null
  | bool (b : Bool)
  | number (n : Number)
  | string (s : String)
  | sequence (items : List Value)
  | mapping (entries : List (Value × Value))
  | tagged (tag : String) (value : Value)
deriving Inhabited

def Value.ofScalar : Scalar → Value
  | .null => .null
  | .bool b => .bool b
  | .number n => .number n
  | .string s => .string s

namespace Value

def height : Value → Nat
  | sequence items => heightOfItems items + 1
  | mapping entries => heightOfEntries entries + 1
  | tagged _ value => height value + 1
  | _ => 0
where
  heightOfItems : List Value → Nat
    | [] => 0
    | v :: vs => max (height v) (heightOfItems vs)
  heightOfEntries : List (Value × Value) → Nat
    | [] => 0
    | (k, v) :: es => max (max (height k) (height v)) (heightOfEntries es)

/-- Whether two values up to a height count as one key.  The order of entries does not matter. -/
def sameUpTo : Nat → Value → Value → Bool
  | _, null, null => true
  | _, bool a, bool b => a = b
  | _, number a, number b => a.same b
  | _, string a, string b => a = b
  | n + 1, sequence xs, sequence ys =>
    xs.length = ys.length && (xs.zip ys).all fun p => sameUpTo n p.1 p.2
  | n + 1, mapping xs, mapping ys =>
    xs.length = ys.length && xs.all fun x =>
      ys.any fun y => sameUpTo n x.1 y.1 && sameUpTo n x.2 y.2
  | n + 1, tagged s a, tagged t b => s = t && sameUpTo n a b
  | _, _, _ => false

def same (a b : Value) : Bool := sameUpTo (height a) a b

def listed (texts : List String) : String := ", ".intercalate texts

mutual

def describe : Value → String
  | null => "Null"
  | bool b => s!"Bool({b})"
  | number n => s!"Number({n.text})"
  | string s => s!"String({Text.quote s})"
  | sequence items => s!"Sequence [{listed (describeItems items)}]"
  | mapping entries => s!"Mapping \x7b{listed (describeEntries entries)}\x7d"
  | tagged tag value => s!"TaggedValue \x7b tag: !{tag}, value: {describe value} \x7d"

def describeItems : List Value → List String
  | [] => []
  | v :: vs => describe v :: describeItems vs

/-- The forms of the entries of a mapping; simple keys are shown bare. -/
def describeEntries : List (Value × Value) → List String
  | [] => []
  | (k, v) :: es =>
    let key := match k with
      | bool b => toString b
      | number n => n.text
      | string s => Text.quote s
      | k => describe k
    s!"{key}: {describe v}" :: describeEntries es

end

end Value

/-! ## Aliases -/

/-- The anchors of a document.  An anchor gets the number of names known before it, so that a name
that is used again may share its number with a later one; the latest node of a number counts. -/
structure Anchors where
  numbers : List (List Char × Nat) := []
  /-- Nodes by number, with the order in which they start. -/
  nodes : List (Nat × Nat × Node) := []
  started : Nat := 0

namespace Anchors

def declare (a : Anchors) (name : List Char) : Anchors :=
  let number := a.numbers.length
  let numbers :=
    if a.numbers.any (·.1 = name) then
      a.numbers.map fun e => if e.1 = name then (name, number) else e
    else a.numbers ++ [(name, number)]
  { a with numbers, started := a.started + 1 }

def number? (a : Anchors) (name : List Char) : Option Nat :=
  (a.numbers.find? (·.1 = name)).map (·.2)

def node? (a : Anchors) (number : Nat) : Option Node :=
  let found := a.nodes.filter (·.1 = number)
  (found.foldl (fun (best : Option (Nat × Node)) e => match best with
    | some b => if b.1 ≤ e.2.1 then some e.2 else some b
    | none => some e.2) none).map (·.2)

/-- Takes the properties of a node in; answers what to note about it. -/
def enter (a : Anchors) (p : Properties) : Anchors × Option (Nat × Nat) :=
  match p.anchor with
  | none => (a, none)
  | some name => (a.declare name, some (a.numbers.length, a.started))

def note (a : Anchors) (mark : Option (Nat × Nat)) (n : Node) : Anchors :=
  match mark with
  | none => a
  | some m => { a with nodes := (m.1, m.2, n) :: a.nodes }

end Anchors

mutual

/-- Replaces the names of aliases by numbers and collects the anchors, from the front of the
document; an alias to an unknown name is a fault. -/
def link (a : Anchors) : Node → Option (Anchors × Node)
  | .alias name => (a.number? name).map fun n => (a, .alias (toString n).toList)
  | .scalar p text plain =>
    let (a, mark) := a.enter p
    some (a.note mark (.scalar p text plain), .scalar p text plain)
  | .sequence p items =>
    let (a, mark) := a.enter p
    (linkItems a items).map fun r => (r.1.note mark (.sequence p r.2), .sequence p r.2)
  | .mapping p entries =>
    let (a, mark) := a.enter p
    (linkEntries a entries).map fun r => (r.1.note mark (.mapping p r.2), .mapping p r.2)

def linkItems (a : Anchors) : List Node → Option (Anchors × List Node)
  | [] => some (a, [])
  | n :: ns => do
    let (a, n) ← link a n
    let (a, ns) ← linkItems a ns
    return (a, n :: ns)

def linkEntries (a : Anchors) : List (Node × Node) → Option (Anchors × List (Node × Node))
  | [] => some (a, [])
  | (k, v) :: es => do
    let (a, k) ← link a k
    let (a, v) ← link a v
    let (a, es) ← linkEntries a es
    return (a, (k, v) :: es)

end

mutual

/-- How many events a node takes: one for a scalar or an alias, two around a collection. -/
def Node.events : Node → Nat
  | .sequence _ items => eventsOfItems items + 2
  | .mapping _ entries => eventsOfEntries entries + 2
  | _ => 1

def eventsOfItems : List Node → Nat
  | [] => 0
  | n :: ns => n.events + eventsOfItems ns

def eventsOfEntries : List (Node × Node) → Nat
  | [] => 0
  | (k, v) :: es => k.events + v.events + eventsOfEntries es

end

/-- Puts a value under the tag of its node; only tags that start with an exclamation mark show. -/
def underTag (tag : Option (List Char)) (v : Value) : Value :=
  match tag with
  | some ['!'] => .tagged "!" v
  | some ('!' :: name) => .tagged (String.ofList (match name with
    | '!' :: c :: rest => c :: rest
    | name => name)) v
  | _ => v

/-- What building a value needs of its document: the node of each number, and how many aliases may
be followed. -/
structure Links where
  node? : List Char → Option Node
  limit : Nat

def Links.follow (links : Links) (followed : Nat) : Node → Option (Nat × Node)
  | .alias name =>
    if links.limit ≤ followed then none else (links.node? name).map fun n => (followed + 1, n)
  | n => some (followed, n)

/-- The entries of a mapping from its keys and values; a key that occurs twice is a fault. -/
def distinctKeys : List (Value × Value) → Bool
  | [] => true
  | (k, _) :: es => !(es.any fun e => k.same e.1) && distinctKeys es

/-- Applies a step to each item while it counts. -/
def eachCounted {α β : Type} (step : Nat → α → Option (Nat × β)) (count : Nat) :
    List α → Option (Nat × List β)
  | [] => some (count, [])
  | x :: xs => do
    let (count, y) ← step count x
    let (count, ys) ← eachCounted step count xs
    return (count, y :: ys)

/-- The value of a node in at most `depth` nested collections, after `followed` aliases. -/
def valueOf (links : Links) (depth : Nat) (followed : Nat) (n : Node) : Option (Nat × Value) :=
  match links.follow followed n with
  | none => none
  | some (followed, .alias _) => some (followed, .null)
  | some (followed, .scalar p text plain) =>
    (scalarUnder p.tag text plain).map fun s => (followed, underTag p.tag (.ofScalar s))
  | some (followed, .sequence p items) => match depth with
    | 0 => none
    | depth + 1 => (eachCounted (valueOf links depth) followed items).map fun r =>
      (r.1, underTag p.tag (.sequence r.2))
  | some (followed, .mapping p entries) => match depth with
    | 0 => none
    | depth + 1 =>
      let pair := fun (followed : Nat) (e : Node × Node) =>
        (valueOf links depth followed e.1).bind fun k =>
          (valueOf links depth k.1 e.2).map fun v => (v.1, (k.2, v.2))
      (eachCounted pair followed entries).bind fun r =>
        if distinctKeys r.2 then some (r.1, underTag p.tag (.mapping r.2)) else none

def maxDepth : Nat := 128

def Node.value? (root : Node) : Option Value := do
  let (anchors, root) ← link {} root
  let node? := fun (name : List Char) => (String.ofList name).toNat?.bind anchors.node?
  let (_, v) ← valueOf ⟨node?, root.events * 100⟩ maxDepth 0 root
  return v

/-- Reads the value of a text; a text without a document is null. -/
def Value.read? (text : String) : Option Value := do
  match ← document? (← tokens? (match text.toList with
    | '\uFEFF' :: cs => cs
    | cs => cs)) with
  | none => some .null
  | some root => root.value?

end Restyle.Yaml
