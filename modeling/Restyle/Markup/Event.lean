/-! # Markup events

The reader turns a text into the sequence of its markup events, read from left to right without
any grammar for names or nesting of content.  The sequence ends in `eof`, or in `malformed` at the
first place where the text is no markup.  Ends must match the innermost open start.
-/
namespace Restyle.Markup

/-- A piece of markup.  Tags keep their name and, unread, the text after it. -/
inductive Event where
  | start (name attributes : List Char)
  | empty (name attributes : List Char)
  | stop (name : List Char)
  | text (raw : List Char)
  /-- A section of text that holds no references. -/
  | cdata (raw : List Char)
  /-- A comment, a processing instruction, a declaration or a document type. -/
  | aside
  | eof
  /-- The input goes on, but not as markup. -/
  | malformed
deriving Repr, DecidableEq

def isTagBlank (c : Char) : Bool := c == ' ' || c == '\t' || c == '\n' || c == '\r'

def cutAt (mark : List Char) : List Char → Option (List Char × List Char)
  | [] => none
  | c :: cs =>
    if mark.isPrefixOf (c :: cs) then some ([], (c :: cs).drop mark.length)
    else (cutAt mark cs).map fun p => (c :: p.1, p.2)

/-- Splits the text of a tag from what follows its `>`.  A `>` in quotes does not end the tag. -/
def cutTag (quote : Option Char) : List Char → Option (List Char × List Char)
  | [] => none
  | c :: cs =>
    if quote = none ∧ c = '>' then some ([], cs)
    else
      let quote := match quote with
        | none => if c = '"' ∨ c = '\x27' then some c else none
        | some q => if c = q then none else some q
      (cutTag quote cs).map fun p => (c :: p.1, p.2)

/-- Splits the text of a document type from what follows its `>`; `depth` counts open brackets. -/
def cutBalanced (depth : Nat) : List Char → Option (List Char × List Char)
  | [] => none
  | c :: cs =>
    if c = '>' ∧ depth = 0 then some ([], cs)
    else
      let depth := if c = '<' then depth + 1 else if c = '>' then depth - 1 else depth
      (cutBalanced depth cs).map fun p => (c :: p.1, p.2)

inductive Mark where
  | aside
  | cdata (raw : List Char)
  | opening (content : List Char)
  | closing (content : List Char)
deriving Repr, DecidableEq

/-- The keyword of a document type, in any case of letters, and after it more than blanks. -/
def isDoctype (content : List Char) : Bool :=
  (content.take 7).map Char.toUpper == ['D', 'O', 'C', 'T', 'Y', 'P', 'E'] &&
    (content.drop 7).any fun c => !isTagBlank c

/-- Reads what follows a `<`, up to its end, and answers the rest.  The `?` that opens an instruction
cannot be the one that closes it. -/
def mark? (cs : List Char) : Option (Mark × List Char) :=
  match cs with
  | '!' :: '-' :: '-' :: body => (cutAt ['-', '-', '>'] body).map fun p => (.aside, p.2)
  | '!' :: '[' :: 'C' :: 'D' :: 'A' :: 'T' :: 'A' :: '[' :: body =>
    (cutAt [']', ']', '>'] body).map fun p => (.cdata p.1, p.2)
  | '!' :: body => (cutBalanced 0 body).bind fun p =>
    if isDoctype p.1 then some (.aside, p.2) else none
  | '?' :: '>' :: _ => none
  | '?' :: body => (cutAt ['?', '>'] body).map fun p => (.aside, p.2)
  | '/' :: body => (cutTag none body).map fun p => (.closing p.1, p.2)
  | body => (cutTag none body).map fun p => (.opening p.1, p.2)

theorem cutAt_length {mark cs before after : List Char} (h : cutAt mark cs = some (before, after)) :
    after.length ≤ cs.length := by
  induction cs generalizing before with
  | nil => simp [cutAt] at h
  | cons c cs ih =>
    simp only [cutAt] at h
    split at h
    · cases h; simp
    · obtain ⟨p, hp, he⟩ := Option.map_eq_some_iff.1 h
      cases he
      have := ih hp
      simp only [List.length_cons]; omega

theorem cutTag_length {quote : Option Char} {cs before after : List Char}
    (h : cutTag quote cs = some (before, after)) : after.length ≤ cs.length := by
  induction cs generalizing quote before with
  | nil => simp [cutTag] at h
  | cons c cs ih =>
    simp only [cutTag] at h
    split at h
    · cases h; simp
    · obtain ⟨p, hp, he⟩ := Option.map_eq_some_iff.1 h
      cases he
      have := ih hp
      simp only [List.length_cons]; omega

theorem cutBalanced_length {depth : Nat} {cs before after : List Char}
    (h : cutBalanced depth cs = some (before, after)) : after.length ≤ cs.length := by
  induction cs generalizing depth before with
  | nil => simp [cutBalanced] at h
  | cons c cs ih =>
    simp only [cutBalanced] at h
    split at h
    · cases h; simp
    · obtain ⟨p, hp, he⟩ := Option.map_eq_some_iff.1 h
      cases he
      have := ih hp
      simp only [List.length_cons]; omega

theorem mark?_length {cs rest : List Char} {m : Mark} (h : mark? cs = some (m, rest)) :
    rest.length ≤ cs.length := by
  unfold mark? at h
  split at h
  · obtain ⟨p, hp, he⟩ := Option.map_eq_some_iff.1 h
    cases he; have := cutAt_length hp; simp only [List.length_cons]; omega
  · obtain ⟨p, hp, he⟩ := Option.map_eq_some_iff.1 h
    cases he; have := cutAt_length hp; simp only [List.length_cons]; omega
  · obtain ⟨p, hp, he⟩ := Option.bind_eq_some_iff.1 h
    by_cases hd : isDoctype p.1 = true
    · rw [if_pos hd] at he
      cases he; have := cutBalanced_length hp; simp only [List.length_cons]; omega
    · rw [if_neg hd] at he; cases he
  · cases h
  · obtain ⟨p, hp, he⟩ := Option.map_eq_some_iff.1 h
    cases he; have := cutAt_length hp; simp only [List.length_cons]; omega
  · obtain ⟨p, hp, he⟩ := Option.map_eq_some_iff.1 h
    cases he; have := cutTag_length hp; simp only [List.length_cons]; omega
  · obtain ⟨p, hp, he⟩ := Option.map_eq_some_iff.1 h
    cases he; exact cutTag_length hp

/-- The name of a closing tag; blanks after it do not count, unless there is nothing else. -/
def closingName (content : List Char) : List Char :=
  if content.all isTagBlank then content else (content.reverse.dropWhile isTagBlank).reverse

def openingName (content : List Char) : List Char × List Char :=
  (content.takeWhile fun c => !isTagBlank c, content.dropWhile fun c => !isTagBlank c)

def eventsIn (unclosed : List (List Char)) : List Char → List Event
  | [] => [.eof]
  | c :: cs =>
    if c = '<' then
      match _h : mark? cs with
      | none => [.malformed]
      | some (.aside, rest) => .aside :: eventsIn unclosed rest
      | some (.cdata raw, rest) => .cdata raw :: eventsIn unclosed rest
      | some (.opening content, rest) =>
        if content.getLast? = some '/' then
          let (name, attributes) := openingName content.dropLast
          .empty name attributes :: eventsIn unclosed rest
        else
          let (name, attributes) := openingName content
          .start name attributes :: eventsIn (name :: unclosed) rest
      | some (.closing content, rest) =>
        match unclosed with
        | [] => [.malformed]
        | name :: outer =>
          if closingName content = name then .stop name :: eventsIn outer rest else [.malformed]
    else
      .text (c :: cs.takeWhile (· ≠ '<')) :: eventsIn unclosed (cs.dropWhile (· ≠ '<'))
termination_by cs => cs.length
decreasing_by
  · exact Nat.lt_succ_of_le (mark?_length _h)
  · exact Nat.lt_succ_of_le (mark?_length _h)
  · exact Nat.lt_succ_of_le (mark?_length _h)
  · exact Nat.lt_succ_of_le (mark?_length _h)
  · exact Nat.lt_succ_of_le (mark?_length _h)
  · exact Nat.lt_succ_of_le (cs.dropWhile_suffix fun x => decide (x ≠ '<')).length_le

/-- The events of a whole text.  A byte order mark at the front is no part of it. -/
def events (cs : List Char) : List Event :=
  match cs with
  | '\uFEFF' :: rest => eventsIn [] rest
  | _ => eventsIn [] cs

end Restyle.Markup
