import Mathlib.Data.List.Basic
import Mathlib.Tactic.NormNum

/-!
# String literals

A string literal of JSON in plain ASCII: everything outside the printable range is written
as an escape, and above the basic plane as a pair of them. A reader takes what it reads from
the front of a text and leaves the rest.

The reader accepts more than the writer writes, as the format does: letters may be escaped
that need not be, and printable characters outside ASCII may stand as they are.
-/

namespace AgenticOS.Json

open List Option

universe u

/-- What is read from the front of a text, and the rest of it. -/
abbrev Reader (α : Type u) := List Char → Option (α × List Char)

/-- The four hexadecimal digits of a code unit. -/
def hexDigits (unit : Nat) : List Char :=
  [Nat.digitChar (unit / 4096 % 16), Nat.digitChar (unit / 256 % 16),
    Nat.digitChar (unit / 16 % 16), Nat.digitChar (unit % 16)]

def hexValue (digit : Char) : Option Nat :=
  if '0' ≤ digit ∧ digit ≤ '9' then some (digit.toNat - '0'.toNat)
  else if 'a' ≤ digit ∧ digit ≤ 'f' then some (digit.toNat - 'a'.toNat + 10)
  else if 'A' ≤ digit ∧ digit ≤ 'F' then some (digit.toNat - 'A'.toNat + 10)
  else none

/-- A code unit of four digits. -/
def readUnit : Reader Nat
  | first :: second :: third :: fourth :: rest => do
      let high ← hexValue first
      let upper ← hexValue second
      let lower ← hexValue third
      let low ← hexValue fourth
      some (high * 4096 + upper * 256 + lower * 16 + low, rest)
  | _ => none

theorem hexValue_digitChar {digit : Nat} (small : digit < 16) :
    hexValue (Nat.digitChar digit) = some digit := by
  have all : ∀ digit < 16, hexValue (Nat.digitChar digit) = some digit := by decide
  exact all digit small

theorem readUnit_hexDigits {unit : Nat} (small : unit < 65536) (rest : List Char) :
    readUnit (hexDigits unit ++ rest) = some (unit, rest) := by
  have below (number : Nat) : number % 16 < 16 := Nat.mod_lt number (by decide)
  have whole : unit / 4096 % 16 * 4096 + unit / 256 % 16 * 256 + unit / 16 % 16 * 16 +
      unit % 16 = unit := by omega
  unfold hexDigits
  simp only [cons_append, nil_append, readUnit, hexValue_digitChar (below _),
    bind_eq_bind, bind_some, whole]

def shortEscapes : List (Char × Char) :=
  [('"', '"'), ('\\', '\\'), ('n', '\n'), ('r', '\r'), ('t', '\t'), ('f', '\x0c'),
    ('b', '\x08'), ('/', '/')]

/-- `ESCAPE_DCT`: the letter of the short escape of a character. -/
def shortEscape (char : Char) : Option Char :=
  (shortEscapes.dropLast.find? fun entry => entry.2 = char).map Prod.fst

/-- A character within a string literal. -/
def escape (char : Char) : List Char :=
  match shortEscape char with
  | some letter => ['\\', letter]
  | none =>
    if ' ' ≤ char ∧ char ≤ '~' then [char]
    else if char.toNat < 65536 then '\\' :: 'u' :: hexDigits char.toNat
    else
      '\\' :: 'u' :: hexDigits (55296 + (char.toNat - 65536) / 1024) ++
        '\\' :: 'u' :: hexDigits (56320 + (char.toNat - 65536) % 1024)

/-- What follows the letter `u` of an escape: a code unit, or two that form a pair. -/
def readEscaped : Reader Char := fun text => do
  let (unit, rest) ← readUnit text
  if 55296 ≤ unit ∧ unit < 56320 then
    match rest with
    | '\\' :: 'u' :: next => do
        let (low, after) ← readUnit next
        if 56320 ≤ low ∧ low < 57344 then
          some (Char.ofNat (65536 + (unit - 55296) * 1024 + (low - 56320)), after)
        else none
    | _ => none
  else if 56320 ≤ unit ∧ unit < 57344 then none
  else some (Char.ofNat unit, rest)

/-- A character of a string literal that does not end it. Half of a pair is no character
here. -/
def readCharacter : Reader Char
  | [] => none
  | '\\' :: [] => none
  | '\\' :: letter :: rest =>
    if letter = 'u' then readEscaped rest
    else (shortEscapes.lookup letter).map fun char => (char, rest)
  | char :: rest => if ' ' ≤ char then some (char, rest) else none

theorem readEscaped_unit {char : Char} (small : char.toNat < 65536) (rest : List Char) :
    readEscaped (hexDigits char.toNat ++ rest) = some (char, rest) := by
  have valid := char.valid
  have notHigh : ¬ (55296 ≤ char.toNat ∧ char.toNat < 56320) := by
    rcases valid with below | ⟨above, -⟩
    · exact fun both => absurd (lt_of_lt_of_le below both.1) (lt_irrefl _)
    · exact fun both => absurd (lt_trans above both.2) (by decide)
  have notLow : ¬ (56320 ≤ char.toNat ∧ char.toNat < 57344) := by
    rcases valid with below | ⟨above, -⟩
    · exact fun both => absurd (lt_of_lt_of_le below (le_trans (by decide) both.1)) (lt_irrefl _)
    · exact fun both => absurd (lt_of_lt_of_le both.2 above) (lt_irrefl _)
  unfold readEscaped
  rw [readUnit_hexDigits small]
  simp only [bind_eq_bind, bind_some, if_neg notHigh, if_neg notLow, Char.ofNat_toNat]

variable (char : Char)

theorem toNat_lt : char.toNat < 1114112 := by
  rcases char.valid with below | ⟨-, above⟩
  · exact lt_trans below (by decide)
  · exact above

theorem readEscaped_pair {high low : Nat} (isHigh : 55296 ≤ high ∧ high < 56320)
    (isLow : 56320 ≤ low ∧ low < 57344) (rest : List Char) :
    readEscaped (hexDigits high ++ '\\' :: 'u' :: hexDigits low ++ rest) =
      some (Char.ofNat (65536 + (high - 55296) * 1024 + (low - 56320)), rest) := by
  unfold readEscaped
  rw [append_assoc, readUnit_hexDigits (lt_trans isHigh.2 (by decide))]
  simp only [bind_eq_bind, bind_some, if_pos isHigh, cons_append,
    readUnit_hexDigits (lt_trans isLow.2 (by decide)), if_pos isLow]

theorem pair_of_large {number : Nat} (large : ¬ number < 65536) (bounded : number < 1114112) :
    (55296 ≤ 55296 + (number - 65536) / 1024 ∧ 55296 + (number - 65536) / 1024 < 56320) ∧
      (56320 ≤ 56320 + (number - 65536) % 1024 ∧ 56320 + (number - 65536) % 1024 < 57344) ∧
      65536 + (55296 + (number - 65536) / 1024 - 55296) * 1024 +
        (56320 + (number - 65536) % 1024 - 56320) = number := by
  omega

theorem lookup_shortEscape {char letter : Char} (short : shortEscape char = some letter) :
    letter ≠ 'u' ∧ shortEscapes.lookup letter = some char := by
  have all : ∀ entry ∈ shortEscapes.dropLast,
      entry.1 ≠ 'u' ∧ shortEscapes.lookup entry.1 = some entry.2 := by decide
  obtain ⟨entry, found, rfl⟩ := map_eq_some_iff.mp short
  have isCharacter := find?_some found
  rw [decide_eq_true_iff] at isCharacter
  rw [← isCharacter]
  exact all entry (mem_of_find?_eq_some found)

theorem readCharacter_escape (rest : List Char) :
    readCharacter (escape char ++ rest) = some (char, rest) := by
  unfold escape
  cases short : shortEscape char with
  | some letter =>
    obtain ⟨notUnit, found⟩ := lookup_shortEscape short
    change (if letter = 'u' then _ else _) = _
    rw [if_neg notUnit, found]
    rfl
  | none =>
    dsimp only
    split
    next plain =>
      have notSlash : char ≠ '\\' := by
        rintro rfl
        cases short
      simp [readCharacter, notSlash, plain.1]
    next =>
      split
      next small => exact readEscaped_unit small rest
      next large =>
        obtain ⟨isHigh, isLow, whole⟩ := pair_of_large large (toNat_lt char)
        have pair := readEscaped_pair isHigh isLow rest
        rw [whole, Char.ofNat_toNat] at pair
        exact pair

theorem escape_eq_cons : ∃ first rest, escape char = first :: rest ∧ first ≠ '"' := by
  unfold escape
  cases short : shortEscape char with
  | some letter => exact ⟨_, _, rfl, by decide⟩
  | none =>
    dsimp only
    split
    next =>
      refine ⟨_, _, rfl, ?_⟩
      rintro rfl
      cases short
    next =>
      split
      next => exact ⟨_, _, rfl, by decide⟩
      next => exact ⟨_, _, rfl, by decide⟩

/-! ## Literals -/

/-- The text of a string literal behind its opening quote. -/
def literal (text : List Char) : List Char :=
  text.flatMap escape ++ ['"']

/-- A string literal behind its opening quote; the count bounds the characters. -/
def readLiteral : Nat → Reader (List Char)
  | 0, _ => none
  | count + 1, text =>
    match text with
    | '"' :: rest => some ([], rest)
    | _ => do
        let (char, rest) ← readCharacter text
        let (characters, after) ← readLiteral count rest
        some (char :: characters, after)

theorem readLiteral_literal {count : Nat} {text : List Char} (enough : text.length < count)
    (rest : List Char) : readLiteral count (literal text ++ rest) = some (text, rest) := by
  induction text generalizing count with
  | nil =>
    cases count with
    | zero => cases enough
    | succ count => rfl
  | cons char text ih =>
    cases count with
    | zero => cases enough
    | succ count =>
      have split : literal (char :: text) ++ rest =
          escape char ++ (literal text ++ rest) := by
        simp [literal]
      obtain ⟨first, others, shape, notQuote⟩ := escape_eq_cons char
      have read := readCharacter_escape char (literal text ++ rest)
      have readRest := ih (Nat.lt_of_succ_lt_succ enough)
      rw [split]
      rw [shape, cons_append] at read ⊢
      unfold readLiteral
      split
      next same => exact absurd (cons.inj same).1 notQuote
      next => simp only [read, readRest, bind_eq_bind, bind_some]

theorem length_le_literal (text : List Char) : text.length < (literal text).length := by
  induction text with
  | nil => decide
  | cons char text ih =>
    obtain ⟨first, others, shape, -⟩ := escape_eq_cons char
    have split : literal (char :: text) = escape char ++ literal text := by simp [literal]
    rw [split, length_append, shape, length_cons, length_cons]
    omega

end AgenticOS.Json
