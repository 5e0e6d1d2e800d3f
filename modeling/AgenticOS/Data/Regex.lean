import Mathlib.Data.List.Basic

/-!
# Regular expressions with backtracking

An expression is matched as backtracking engines do it: all ways to match at a place are listed in
the order in which they are tried, and the first one counts. Loops are greedy or lazy, groups
remember what they have taken, and back references take it again.

Word boundaries are asked for at the ends of a pattern only. So what a pattern may take depends on
its surroundings by the characters next to it alone.
-/

namespace AgenticOS

/-- A regular expression. -/
inductive Regex where
  | empty
  | one (accepts : Char → Bool)
  | seq (first second : Regex)
  | alt (first second : Regex)
  | many (greedy : Bool) (least : Nat) (most : Option Nat) (body : Regex)
  | group (number : Nat) (body : Regex)
  | again (number : Nat)

namespace Regex

/-- What the groups have taken, the latest first. -/
abbrev Groups :=
  List (Nat × List Char)

/-- One way to match at a place. -/
structure Outcome where
  taken : List Char
  rest : List Char
  groups : Groups

def Outcome.after (outcome : Outcome) (taken : List Char) : Outcome :=
  { outcome with taken := taken ++ outcome.taken }

/-- What a group has taken last. -/
def Groups.find (groups : Groups) (number : Nat) : Option (List Char) :=
  (groups.find? fun group => group.1 = number).map Prod.snd

def repeated (greedy : Bool) (step : Groups → List Char → List Outcome) :
    Nat → Nat → Option Nat → Groups → List Char → List Outcome
  | 0, least, _, groups, text => if least = 0 then [⟨[], text, groups⟩] else []
  | fuel + 1, least, most, groups, text =>
    let stop : List Outcome := if least = 0 then [⟨[], text, groups⟩] else []
    let more :=
      if most = some 0 then []
      else
        ((step groups text).filter fun outcome => outcome.taken ≠ []).flatMap fun outcome =>
          (repeated greedy step fuel (least - 1) (most.map (· - 1)) outcome.groups
            outcome.rest).map (·.after outcome.taken)
    if greedy then more ++ stop else stop ++ more

/-- All ways to match at a place, in the order in which they are tried. -/
def run : Regex → Groups → List Char → List Outcome
  | .empty, groups, text => [⟨[], text, groups⟩]
  | .one accepts, groups, text =>
    match text with
    | [] => []
    | char :: rest => if accepts char then [⟨[char], rest, groups⟩] else []
  | .seq first second, groups, text =>
    (run first groups text).flatMap fun outcome =>
      (run second outcome.groups outcome.rest).map (·.after outcome.taken)
  | .alt first second, groups, text => run first groups text ++ run second groups text
  | .many greedy least most body, groups, text =>
    repeated greedy (run body) text.length least most groups text
  | .group number body, groups, text =>
    (run body groups text).map fun outcome =>
      { outcome with groups := (number, outcome.taken) :: outcome.groups }
  | .again number, groups, text =>
    match groups.find number with
    | none => []
    | some taken => if taken.isPrefixOf text then [⟨taken, text.drop taken.length, groups⟩] else []

/-- A text, character by character. -/
def literal : List Char → Regex
  | [] => .empty
  | char :: rest => .seq (.one (· = char)) (literal rest)

/-- One after the other. -/
def sequence : List Regex → Regex
  | [] => .empty
  | [last] => last
  | first :: rest => .seq first (sequence rest)

/-- One of several, tried in their order. -/
def choice : List Regex → Regex
  | [] => .one fun _ => false
  | [last] => last
  | first :: rest => .alt first (choice rest)

def optional (body : Regex) : Regex :=
  .many true 0 (some 1) body

/-- Characters of a class, as many as possible. -/
def run1 (accepts : Char → Bool) : Regex :=
  .many true 1 none (.one accepts)

/-- Characters of a class, as many as possible or none. -/
def run0 (accepts : Char → Bool) : Regex :=
  .many true 0 none (.one accepts)

/-- What a character is compared as where case does not count, as far as the letters of ASCII are
concerned: four other characters are among their cases. -/
def foldCase (char : Char) : Char :=
  if char = 'İ' ∨ char = 'ı' then 'i'
  else if char = 'ſ' then 's'
  else if char = '\u212A' then 'k'
  else char.toLower

/-- A text in lower case, whose case does not count. -/
def literalNoCase : List Char → Regex
  | [] => .empty
  | char :: rest => .seq (.one fun other => foldCase other = char) (literalNoCase rest)

end Regex

/-- An expression that may have to begin and to end at a word boundary. -/
structure Pattern where
  startsWord : Bool := false
  body : Regex
  endsWord : Bool := false

namespace Pattern

open Regex

variable (isWord : Char → Bool)

/-- A word boundary between two characters, or the ends of the text. -/
def edge (before after : Option Char) : Bool :=
  before.any isWord ≠ after.any isWord

/-- The first way to match at a place behind a character. -/
def matchAt (pattern : Pattern) (before : Option Char) (text : List Char) : Option Outcome :=
  if pattern.startsWord && !edge isWord before text.head? then none
  else
    (pattern.body.run [] text).find? fun outcome =>
      !pattern.endsWord || edge isWord (outcome.taken.getLast?.or before) outcome.rest.head?

/-- A part of a text: a character outside the matches, or a match. -/
inductive Piece where
  | kept (char : Char)
  | found (outcome : Outcome)

/-- The matches of a text from left to right, and the characters between them. The number is that
of the characters that are left at most. -/
def pieces (pattern : Pattern) : Nat → Option Char → List Char → List Piece
  | 0, _, _ => []
  | _ + 1, _, [] => []
  | fuel + 1, before, char :: rest =>
    match pattern.matchAt isWord before (char :: rest) with
    | some outcome =>
      if outcome.taken = [] then .kept char :: pieces pattern fuel (some char) rest
      else .found outcome :: pieces pattern fuel outcome.taken.getLast? outcome.rest
    | none => .kept char :: pieces pattern fuel (some char) rest

/-- The matches of a text, as `finditer` yields them. -/
def findAll (pattern : Pattern) (text : List Char) : List Outcome :=
  (pattern.pieces isWord text.length none text).filterMap fun
    | .kept _ => none
    | .found outcome => some outcome

end Pattern

end AgenticOS
