import Restyle.Markup.Event
import Restyle.Markup.Reference

/-! # Attributes

The attributes of a tag are read from left to right and only as far as needed: what follows the
wanted attribute is never looked at.
-/
namespace Restyle.Markup

inductive AttributeStep where
  | done
  /-- The text is no attribute, or repeats a key. -/
  | malformed
  /-- An attribute with its key and its unread value, and the text after it. -/
  | found (key value rest : List Char)
deriving Repr, DecidableEq

def quotedValue? (cs : List Char) : Option (List Char × List Char) :=
  match cs.dropWhile isTagBlank with
  | [] => none
  | q :: rest => if q = '"' ∨ q = '\x27' then cutAt [q] rest else none

def nextAttribute (seen : List (List Char)) (cs : List Char) : AttributeStep :=
  match cs.dropWhile isTagBlank with
  | [] => .done
  | k :: rest =>
    let key := k :: rest.takeWhile fun c => c ≠ '=' && !isTagBlank c
    match (rest.dropWhile fun c => c ≠ '=' && !isTagBlank c).dropWhile isTagBlank with
    | '=' :: rest =>
      if key ∈ seen then .malformed
      else match quotedValue? rest with
        | some (value, rest) => .found key value rest
        | none => .malformed
    | _ => .malformed

theorem quotedValue?_length {cs value rest : List Char} (h : quotedValue? cs = some (value, rest)) :
    rest.length ≤ cs.length := by
  unfold quotedValue? at h
  have h0 := (cs.dropWhile_suffix isTagBlank).length_le
  split at h
  · cases h
  · rename_i q r hq
    rw [hq] at h0
    by_cases hc : q = '"' ∨ q = '\x27'
    · rw [if_pos hc] at h
      have := cutAt_length h
      simp only [List.length_cons] at h0
      omega
    · rw [if_neg hc] at h; cases h

theorem nextAttribute_length {seen : List (List Char)} {cs key value rest : List Char}
    (h : nextAttribute seen cs = .found key value rest) : rest.length < cs.length := by
  unfold nextAttribute at h
  have h0 := (cs.dropWhile_suffix isTagBlank).length_le
  split at h
  · cases h
  · rename_i k r hr
    rw [hr] at h0
    have h1 := (r.dropWhile_suffix fun c => c ≠ '=' && !isTagBlank c).length_le
    have h2 := ((r.dropWhile fun c => c ≠ '=' && !isTagBlank c).dropWhile_suffix isTagBlank).length_le
    dsimp only at h
    split at h
    · rename_i r2 hr2
      rw [hr2] at h2
      by_cases hs : (k :: r.takeWhile fun c => c ≠ '=' && !isTagBlank c) ∈ seen
      · rw [if_pos hs] at h; cases h
      · rw [if_neg hs] at h
        split at h
        · rename_i hv
          cases h
          have := quotedValue?_length hv
          simp only [List.length_cons] at *
          omega
        · cases h
    · cases h

inductive AttributeFault where
  /-- An attribute on the way to the wanted one is malformed. -/
  | malformed
  | value
deriving Repr, DecidableEq

def findAttribute (wanted : List Char) (seen : List (List Char)) (cs : List Char) :
    Except AttributeFault (Option (List Char)) :=
  match _h : nextAttribute seen cs with
  | .done => .ok none
  | .malformed => .error .malformed
  | .found key value rest =>
    if key = wanted then
      match unescape value with
      | some value => .ok (some value)
      | none => .error .value
    else findAttribute wanted (key :: seen) rest
termination_by cs.length
decreasing_by exact nextAttribute_length _h

def attribute? (wanted : String) (attributes : List Char) :
    Except AttributeFault (Option (List Char)) :=
  findAttribute wanted.toList [] attributes

end Restyle.Markup
