import Mathlib.Data.List.DropRight

/-!
# The authority of a URL

A URL names the host that a client connects to in its authority, which stands behind the scheme
and ends at the first slash, question mark or number sign. A text without a scheme is read as
beginning with the authority. Within it, what precedes the last `@` is about the user, and the
host, which may be a bracketed address, may be followed by a port.
-/

namespace AgenticOS.Authority

open List

def afterLast (separator : Char) (text : List Char) : List Char :=
  text.rtakeWhile (· ≠ separator)

def beforeLast (separator : Char) (text : List Char) : List Char :=
  (text.rdropWhile (· ≠ separator)).dropLast

section

variable {separator : Char} {first rest text : List Char}

theorem exists_last_of_mem (present : separator ∈ text) :
    ∃ first rest, text = first ++ separator :: rest ∧ separator ∉ rest := by
  obtain ⟨before, after, split, absent⟩ :=
    eq_append_cons_of_mem (mem_reverse.mpr present)
  refine ⟨after.reverse, before.reverse, ?_, by simpa using absent⟩
  rw [← reverse_reverse text, split]
  simp

theorem afterLast_append (absent : separator ∉ rest) :
    afterLast separator (first ++ rest) = afterLast separator first ++ rest := by
  have kept : ∀ char ∈ rest.reverse, decide (char ≠ separator) = true := by
    rintro char member
    rw [decide_eq_true_iff]
    rintro rfl
    exact absent (mem_reverse.mp member)
  unfold afterLast List.rtakeWhile
  rw [reverse_append, takeWhile_append_of_pos kept, reverse_append, reverse_reverse]

theorem afterLast_of_not_mem (absent : separator ∉ text) : afterLast separator text = text := by
  simpa [afterLast] using @afterLast_append separator [] text absent

theorem beforeLast_split (absent : separator ∉ rest) :
    beforeLast separator (first ++ separator :: rest) = first := by
  have dropped : ∀ char ∈ rest.reverse, decide (char ≠ separator) = true := by
    rintro char member
    rw [decide_eq_true_iff]
    rintro rfl
    exact absent (mem_reverse.mp member)
  have last : (first ++ separator :: rest).rdropWhile (· ≠ separator) = first ++ [separator] := by
    unfold List.rdropWhile
    rw [reverse_append, reverse_cons, append_assoc, dropWhile_append_of_pos dropped]
    simp
  rw [beforeLast, last, dropLast_concat]

theorem afterLast_subset (separator : Char) (text : List Char) : afterLast separator text ⊆ text :=
  (rtakeWhile_suffix _ _).subset

end

/-- The characters that end an authority. -/
def isEnd (char : Char) : Bool :=
  char = '/' ∨ char = '?' ∨ char = '#'

/-- What precedes the end of an authority. -/
def untilEnd (text : List Char) : List Char :=
  text.takeWhile fun char => !isEnd char

/-- What begins with the end of an authority. -/
def sinceEnd (text : List Char) : List Char :=
  text.dropWhile fun char => !isEnd char

theorem untilEnd_append_sinceEnd (text : List Char) : untilEnd text ++ sinceEnd text = text :=
  takeWhile_append_dropWhile

variable {char : Char}

theorem isEnd_of_mem_untilEnd {text : List Char} (member : char ∈ untilEnd text) :
    isEnd char = false := by
  simpa using mem_takeWhile_imp member

theorem isEnd_of_head?_sinceEnd {text : List Char} :
    ∀ char ∈ (sinceEnd text).head?, isEnd char = true := by
  intro char head
  have first := head?_dropWhile_not (fun char => !isEnd char) text
  unfold sinceEnd at head
  rw [head] at first
  simpa using first

def isSchemeCharacter (char : Char) : Bool :=
  char.isAlphanum ∨ char = '+' ∨ char = '.' ∨ char = '-'

/-- What stands behind the scheme and `://`. -/
def afterScheme : List Char → Option (List Char)
  | [] => none
  | first :: rest =>
    if first.isAlpha then
      match rest.dropWhile isSchemeCharacter with
      | ':' :: '/' :: '/' :: after => some after
      | _ => none
    else none

/-- A text without a scheme begins with the authority, or with two slashes before it. -/
def withoutScheme : List Char → List Char
  | '/' :: '/' :: after => after
  | url => url

def authority (url : List Char) : List Char :=
  untilEnd ((afterScheme url).getD (withoutScheme url))

/-- What precedes the first separator. -/
def upTo (separator : Char) (text : List Char) : List Char :=
  text.takeWhile (· ≠ separator)

/-- What begins with the first separator. -/
def startingAt (separator : Char) (text : List Char) : List Char :=
  text.dropWhile (· ≠ separator)

/-- The host before an optional port, if both are well formed. -/
def splitPort : List Char → Option (List Char)
  | '[' :: inside =>
    match startingAt ']' inside with
    | [']'] => if ':' ∈ upTo ']' inside then some (upTo ']' inside) else none
    | ']' :: ':' :: port =>
      if ':' ∈ upTo ']' inside ∧ port.all Char.isDigit then some (upTo ']' inside) else none
    | _ => none
  | hostport =>
    if upTo ':' hostport ≠ [] ∧ ((startingAt ':' hostport).drop 1).all Char.isDigit then
      some (upTo ':' hostport)
    else none

/-- A host in a text: the text itself, what precedes a port, or what stands in brackets. The port
may be any text without a colon, and anything may follow the brackets. -/
inductive Offers : List Char → List Char → Prop
  | plain {host : List Char} (bare : host.head? ≠ some '[') (whole : ':' ∉ host) :
      Offers host host
  | withPort {host port : List Char} (bare : host.head? ≠ some '[') (last : ':' ∉ port) :
      Offers (host ++ ':' :: port) host
  | bracketed {address rest : List Char} (first : ']' ∉ address) :
      Offers ('[' :: (address ++ ']' :: rest)) address

theorem upTo_append_startingAt (separator : Char) (text : List Char) :
    upTo separator text ++ startingAt separator text = text :=
  takeWhile_append_dropWhile

theorem not_mem_upTo (separator : Char) (text : List Char) : separator ∉ upTo separator text := by
  intro member
  simpa using mem_takeWhile_imp member

theorem offers_bracketed {inside rest : List Char} (closed : startingAt ']' inside = ']' :: rest) :
    Offers ('[' :: inside) (upTo ']' inside) := by
  have whole := upTo_append_startingAt ']' inside
  have offered := @Offers.bracketed _ rest (not_mem_upTo ']' inside)
  rw [← closed, whole] at offered
  exact offered

theorem offers_upTo {hostport : List Char} (bare : ∀ inside, hostport ≠ '[' :: inside)
    (digits : ((startingAt ':' hostport).drop 1).all Char.isDigit = true) :
    Offers hostport (upTo ':' hostport) := by
  have whole := upTo_append_startingAt ':' hostport
  have bareHost : (upTo ':' hostport).head? ≠ some '[' := by
    intro bracket
    obtain ⟨inside, starts⟩ := head?_eq_some_iff.mp bracket
    rw [starts] at whole
    exact bare _ whole.symm
  cases ported : startingAt ':' hostport with
  | nil =>
    have same : upTo ':' hostport = hostport := by
      rw [ported, append_nil] at whole
      exact whole
    have plain := Offers.plain bareHost (not_mem_upTo ':' hostport)
    rw [same] at plain ⊢
    exact plain
  | cons separator port =>
    have colon : separator = ':' := by
      have first := head?_dropWhile_not (· ≠ ':') hostport
      unfold startingAt at ported
      rw [ported] at first
      simpa using first
    have last : ':' ∉ port := by
      rw [ported, drop_one, tail_cons, all_eq_true] at digits
      intro member
      exact absurd (digits ':' member) (by decide)
    subst colon
    have offered := Offers.withPort bareHost last
    rw [← ported, whole] at offered
    exact offered

theorem offers_of_splitPort {hostport host : List Char} (split : splitPort hostport = some host) :
    Offers hostport host := by
  unfold splitPort at split
  split at split
  · next inside =>
      split at split
      · next closed =>
          split at split
          · cases split
            exact offers_bracketed closed
          · cases split
      · next closed =>
          split at split
          · cases split
            exact offers_bracketed closed
          · cases split
      · cases split
  · next unbracketed =>
      split at split
      · next formed =>
          cases split
          exact offers_upTo (fun inside bracket => unbracketed inside bracket) formed.2
      · cases split

def host (url : String) : Option String :=
  (splitPort (afterLast '@' (authority url.toList))).map String.ofList

/-! ## Loopback -/

def asciiLower (text : String) : String :=
  String.ofList (text.toList.map Char.toLower)

theorem toLower_inj {other : Char} (small : char.toLower = other)
    (notLower : other.isLower = false) : char = other := by
  unfold Char.toLower at small
  split at small
  · next upper =>
      obtain ⟨above, below⟩ := upper
      rw [← small] at notLower
      change (decide (_ ≥ 'a'.val) && decide (_ ≤ 'z'.val)) = false at notLower
      simp only [ge_iff_le, Bool.and_eq_false_iff, decide_eq_false_iff_not,
        UInt32.le_iff_toNat_le, UInt32.toNat_add] at notLower above below
      have offset : ('a'.val - 'A'.val).toNat = 32 := rfl
      have first : 'A'.val.toNat = 65 := rfl
      have last : 'Z'.val.toNat = 90 := rfl
      have firstLower : 'a'.val.toNat = 97 := rfl
      have lastLower : 'z'.val.toNat = 122 := rfl
      omega
  · exact small

theorem mem_of_mem_asciiLower {text : String} (member : char ∈ (asciiLower text).toList)
    (notLower : char.isLower = false) : char ∈ text.toList := by
  rw [asciiLower, String.toList_ofList] at member
  obtain ⟨original, inside, small⟩ := mem_map.mp member
  rw [← toLower_inj small notLower]
  exact inside

def isOctet (part : List Char) : Bool :=
  part ≠ [] ∧ part.all Char.isDigit ∧
    part.foldl (fun value digit => 10 * value + (digit.toNat - '0'.toNat)) 0 ≤ 255

/-- An address 127.x.y.z. -/
def isLoopbackAddress (host : List Char) : Bool :=
  match host.splitOn '.' with
  | [first, second, third, fourth] =>
    first = "127".toList ∧ isOctet second ∧ isOctet third ∧ isOctet fourth
  | _ => false

/-- The hosts that lead back to the machine: `localhost`, the addresses 127.x.y.z and `::1`. -/
def IsLoopback (host : String) : Prop :=
  asciiLower host = "localhost" ∨ asciiLower host = "::1" ∨
    isLoopbackAddress (asciiLower host).toList
deriving Decidable

end AgenticOS.Authority
