import AgenticOS.Data.Json.Strings
import Mathlib.Data.List.TakeWhile

/-!
# JSON texts

JSON values and the text they are written as, on one line, with a blank behind each comma
and each colon. A number is known by its numeral, so that whole numbers and fractions of any
precision are kept apart; the words for numbers without a numeral are those that Python adds
to the format.

The members of an object are a list here; `Distinct` says that no key comes twice.
-/

namespace AgenticOS

open List

namespace Json

def inNumeral (char : Char) : Bool :=
  char.isDigit || ['-', '+', '.', 'e', 'E'].contains char

def isExponent : List Char → Bool
  | [] => true
  | [_] => false
  | mark :: sign :: digits =>
    ['e', 'E'].contains mark &&
      if ['+', '-'].contains sign then !digits.isEmpty && digits.all Char.isDigit
      else (sign :: digits).all Char.isDigit

def isFraction : List Char → Bool
  | '.' :: digit :: rest => digit.isDigit && isExponent (rest.dropWhile Char.isDigit)
  | text => isExponent text

/-- A number without its sign. No other digit follows a leading zero. -/
def isUnsigned : List Char → Bool
  | [] => false
  | digit :: rest =>
    if digit = '0' then isFraction rest
    else digit.isDigit && isFraction (rest.dropWhile Char.isDigit)

/-- `NUMBER_RE`. -/
def isNumber (text : List Char) : Bool :=
  match text with
  | '-' :: rest => isUnsigned rest
  | _ => isUnsigned text

structure Numeral where
  text : List Char
  within : text.all inNumeral = true
  valid : isNumber text = true

theorem inNumeral_of_isDigit {char : Char} (digit : char.isDigit = true) :
    inNumeral char = true := by
  unfold inNumeral
  rw [digit, Bool.true_or]

theorem toDigits_eq_zero_cons {number : Nat} {rest : List Char}
    (zero : Nat.toDigits 10 number = '0' :: rest) : rest = [] := by
  induction number using Nat.strong_induction_on generalizing rest with
  | _ number ih =>
    by_cases small : number < 10
    · rw [Nat.toDigits_of_lt_base small] at zero
      exact (cons.inj zero).2.symm
    · have large : 10 ≤ number := Nat.le_of_not_lt small
      rw [Nat.toDigits_of_base_le (by decide) large] at zero
      cases higher : Nat.toDigits 10 (number / 10) with
      | nil => exact absurd higher Nat.toDigits_ne_nil
      | cons first digits =>
        rw [higher, cons_append] at zero
        obtain ⟨rfl, -⟩ := cons.inj zero
        have fewer : number / 10 < number := Nat.div_lt_self (by omega) (by decide)
        have none := ih _ fewer higher
        have single : Nat.ofDigitChars 10 (Nat.toDigits 10 (number / 10)) 0 = 0 := by
          rw [higher, none]
          rfl
        rw [Nat.ofDigitChars_ten_toDigits] at single
        omega

theorem isNumber_toDigits (number : Nat) : isNumber (Nat.toDigits 10 number) = true := by
  have digits : ∀ char ∈ Nat.toDigits 10 number, char.isDigit = true :=
    fun char member => Nat.isDigit_of_mem_toDigits (by decide) (by decide) member
  cases shape : Nat.toDigits 10 number with
  | nil => exact absurd shape Nat.toDigits_ne_nil
  | cons first rest =>
    rw [shape] at digits
    have isDigit := digits first mem_cons_self
    have unsigned : isUnsigned (first :: rest) = true := by
      rw [isUnsigned]
      split
      next zero =>
        rw [zero] at shape
        rw [toDigits_eq_zero_cons shape]
        rfl
      next =>
        have none : rest.dropWhile Char.isDigit = [] :=
          dropWhile_eq_nil_iff.mpr fun char member =>
            digits char (mem_cons_of_mem _ member)
        rw [isDigit, none]
        rfl
    unfold isNumber
    split
    next same =>
      rw [(cons.inj same).1] at isDigit
      exact absurd isDigit (by decide)
    next => exact unsigned

def Numeral.ofNat (number : Nat) : Numeral where
  text := Nat.toDigits 10 number
  within := all_eq_true.mpr fun _ member =>
    inNumeral_of_isDigit (Nat.isDigit_of_mem_toDigits (by decide) (by decide) member)
  valid := isNumber_toDigits number

theorem Numeral.ofNat_injective {first second : Nat} (same : ofNat first = ofNat second) :
    first = second := by
  have digits : Nat.toDigits 10 first = Nat.toDigits 10 second := congrArg text same
  have values := congrArg (fun digits => Nat.ofDigitChars 10 digits 0) digits
  simpa only [Nat.ofDigitChars_ten_toDigits] using values

/-- The words of JSON, and those for numbers without a numeral. -/
inductive Word where
  | null
  | true
  | false
  | nan
  | infinity
  | minusInfinity
deriving DecidableEq

def Word.all : List Word :=
  [.null, .true, .false, .nan, .infinity, .minusInfinity]

def Word.text : Word → List Char
  | .null => ['n', 'u', 'l', 'l']
  | .true => ['t', 'r', 'u', 'e']
  | .false => ['f', 'a', 'l', 's', 'e']
  | .nan => ['N', 'a', 'N']
  | .infinity => ['I', 'n', 'f', 'i', 'n', 'i', 't', 'y']
  | .minusInfinity => ['-', 'I', 'n', 'f', 'i', 'n', 'i', 't', 'y']

end Json

inductive Json where
  | word (word : Json.Word)
  | number (numeral : Json.Numeral)
  | string (text : String)
  | array (elements : List Json)
  | object (members : List (String × Json))

namespace Json

@[elab_as_elim]
theorem induction {motive : Json → Prop} (value : Json) (word : ∀ special, motive (.word special))
    (number : ∀ numeral, motive (.number numeral)) (string : ∀ text, motive (.string text))
    (array : ∀ elements, (∀ element ∈ elements, motive element) → motive (.array elements))
    (object : ∀ members : List (String × Json), (∀ member ∈ members, motive member.2) →
      motive (.object members)) : motive value :=
  @Json.rec motive (fun elements => ∀ element ∈ elements, motive element)
    (fun members => ∀ member ∈ members, motive member.2) (fun member => motive member.2)
    word number string array object
    (fun _ member => absurd member not_mem_nil)
    (fun _ _ head tail => forall_mem_cons.mpr ⟨head, tail⟩)
    (fun _ member => absurd member not_mem_nil)
    (fun _ _ head tail => forall_mem_cons.mpr ⟨head, tail⟩) (fun _ _ value => value) value

/-- The name and the colon of a member. -/
def writeKey (key : String) : List Char :=
  '"' :: literal key.toList ++ [':', ' ']

mutual

/-- `json.dumps` of a value. -/
def write : Json → List Char
  | .word special => special.text
  | .number numeral => numeral.text
  | .string text => '"' :: literal text.toList
  | .array [] => ['[', ']']
  | .array (element :: elements) => '[' :: (write element ++ writeElements elements)
  | .object [] => ['{', '}']
  | .object ((key, value) :: members) =>
    '{' :: (writeKey key ++ write value ++ writeMembers members)

/-- The elements behind the first one, and the bracket. -/
def writeElements : List Json → List Char
  | [] => [']']
  | element :: elements => ',' :: ' ' :: (write element ++ writeElements elements)

/-- The members behind the first one, and the brace. -/
def writeMembers : List (String × Json) → List Char
  | [] => ['}']
  | (key, value) :: members => ',' :: ' ' :: (writeKey key ++ write value ++ writeMembers members)

end

def writeMember (member : String × Json) : List Char :=
  writeKey member.1 ++ write member.2

/-- What follows the first item of a sequence, and the character that closes it. -/
def separated {α : Type} (close : Char) (item : α → List Char) (items : List α) : List Char :=
  items.flatMap (fun value => ',' :: ' ' :: item value) ++ [close]

theorem writeElements_eq (elements : List Json) :
    writeElements elements = separated ']' write elements := by
  induction elements with
  | nil => rfl
  | cons element elements ih =>
    rw [writeElements, ih]
    simp [separated]

theorem writeMembers_eq (members : List (String × Json)) :
    writeMembers members = separated '}' writeMember members := by
  induction members with
  | nil => rfl
  | cons member members ih =>
    rw [writeMembers, ih]
    simp [separated, writeMember]

mutual

/-- No object within the value has a key twice. -/
def Distinct : Json → Prop
  | .array elements => DistinctElements elements
  | .object members => (members.map Prod.fst).Nodup ∧ DistinctMembers members
  | _ => True

def DistinctElements : List Json → Prop
  | [] => True
  | element :: elements => Distinct element ∧ DistinctElements elements

def DistinctMembers : List (String × Json) → Prop
  | [] => True
  | (_, value) :: members => Distinct value ∧ DistinctMembers members

end

theorem distinctElements_iff {elements : List Json} :
    DistinctElements elements ↔ ∀ element ∈ elements, element.Distinct := by
  induction elements with
  | nil => simp [DistinctElements]
  | cons element elements ih => rw [DistinctElements, ih, forall_mem_cons]

theorem distinctMembers_iff {members : List (String × Json)} :
    DistinctMembers members ↔ ∀ member ∈ members, member.2.Distinct := by
  induction members with
  | nil => simp [DistinctMembers]
  | cons member members ih => rw [DistinctMembers, ih, forall_mem_cons]

end Json

end AgenticOS
