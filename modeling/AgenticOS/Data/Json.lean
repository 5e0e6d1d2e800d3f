import AgenticOS.Data.Json.Reading
import Mathlib.Data.List.Sort

/-!
# JSON values without repeated keys

What Python has for a JSON value: no object has a key twice, so that objects are
dictionaries. Such a value is what its text is read as, and every text that is read gives
such a value.
-/

namespace AgenticOS

open List

/-- A JSON value in which no object has a key twice. -/
@[ext]
structure JsonValue where
  json : Json
  distinct : json.Distinct

namespace JsonValue

open Json

def dumps (value : JsonValue) : String :=
  String.ofList value.json.write

/-- `json.loads`, where it does not raise. -/
def loads (text : String) : Option JsonValue :=
  match read : parse text.toList with
  | some json => some ⟨json, distinct_parse read⟩
  | none => none

theorem loads_dumps (value : JsonValue) : loads value.dumps = some value := by
  have read : parse (dumps value).toList = some value.json := by
    unfold dumps
    rw [String.toList_ofList]
    exact parse_write value.distinct
  unfold loads
  split
  next json found =>
    cases read.symm.trans found
    rfl
  next none =>
    rw [read] at none
    cases none

theorem dumps_injective {first second : JsonValue} (same : first.dumps = second.dumps) :
    first = second := by
  have both := loads_dumps first
  rw [same, loads_dumps] at both
  exact (Option.some.inj both).symm

instance : DecidableEq JsonValue := fun first second =>
  decidable_of_iff (first.dumps = second.dumps) ⟨dumps_injective, congrArg dumps⟩

theorem dumps_ne_empty (value : JsonValue) : value.dumps ≠ "" := by
  intro empty
  obtain ⟨first, rest, shape, -⟩ := solid_write value.json
  have none := congrArg String.toList empty
  rw [dumps, String.toList_ofList, shape] at none
  cases none

def null : JsonValue :=
  ⟨.word .null, trivial⟩

def bool (truth : Bool) : JsonValue :=
  ⟨.word (if truth then .true else .false), trivial⟩

def number (numeral : Numeral) : JsonValue :=
  ⟨.number numeral, trivial⟩

def string (text : String) : JsonValue :=
  ⟨.string text, trivial⟩

def array (elements : List JsonValue) : JsonValue where
  json := .array (elements.map json)
  distinct := distinctElements_iff.mpr (forall_mem_map.mpr fun element _ => element.distinct)

def object (members : Dict String JsonValue) : JsonValue where
  json := .object (members.entries.map fun member => (member.1, member.2.json))
  distinct := by
    refine ⟨?_, distinctMembers_iff.mpr (forall_mem_map.mpr fun member _ =>
      member.2.distinct)⟩
    rw [map_map]
    exact members.nodupKeys

def text? (value : JsonValue) : Option String :=
  match value.json with
  | .string text => some text
  | _ => none

def members? : JsonValue → Option (Dict String JsonValue)
  | ⟨.object members, distinct⟩ =>
    some {
      entries := members.pmap (fun member distinct => (member.1, ⟨member.2, distinct⟩))
        (distinctMembers_iff.mp distinct.2)
      nodupKeys := by
        rw [map_pmap, pmap_eq_map]
        exact distinct.1 }
  | _ => none

def elements? : JsonValue → Option (List JsonValue)
  | ⟨.array elements, distinct⟩ =>
    some (elements.pmap (fun element distinct => ⟨element, distinct⟩)
      (distinctElements_iff.mp distinct))
  | _ => none

@[simp]
theorem text?_string (text : String) : (string text).text? = some text :=
  rfl

@[simp]
theorem members?_object (members : Dict String JsonValue) :
    (object members).members? = some members := by
  obtain ⟨entries, nodupKeys⟩ := members
  unfold object members?
  simp only [Option.some.injEq, Dict.mk.injEq, pmap_map]
  exact (pmap_eq_map ..).trans (map_id' entries)

@[simp]
theorem elements?_array (elements : List JsonValue) :
    (array elements).elements? = some elements := by
  unfold array elements?
  simp only [Option.some.injEq, pmap_map]
  exact (pmap_eq_map ..).trans (map_id' elements)

theorem text?_eq_some_iff {value : JsonValue} {text : String} :
    value.text? = some text ↔ value = string text := by
  constructor
  · intro found
    unfold text? at found
    split at found
    next content same =>
      cases found
      exact JsonValue.ext same
    next => cases found
  · rintro rfl
    rfl

theorem members?_eq_some_iff {value : JsonValue} {members : Dict String JsonValue} :
    value.members? = some members ↔ value = object members := by
  constructor
  · intro found
    unfold members? at found
    split at found
    next pairs distinct =>
      cases found
      apply JsonValue.ext
      unfold object
      simp only [Json.object.injEq, map_pmap]
      exact ((pmap_eq_map ..).trans (map_id' pairs)).symm
    next => cases found
  · rintro rfl
    exact members?_object members

end JsonValue

end AgenticOS

/-!
## JSON values with their members in order

`json.dumps` can write the members of every object in the order of their keys. Values are then
compared by their texts, whatever the order of their members was; and with one value for each
number the texts tell which values Python takes for equal.
-/

namespace AgenticOS.Json

mutual

/-- Put the members of all objects in order, and change what is neither array nor object. -/
def arrange (leaf : Json → Json) : Json → Json
  | .array elements => .array (arrangeElements leaf elements)
  | .object members =>
    .object ((arrangeMembers leaf members).insertionSort fun first second =>
      first.1 ≤ second.1)
  | .word special => leaf (.word special)
  | .number numeral => leaf (.number numeral)
  | .string text => leaf (.string text)

def arrangeElements (leaf : Json → Json) : List Json → List Json
  | [] => []
  | element :: elements => arrange leaf element :: arrangeElements leaf elements

def arrangeMembers (leaf : Json → Json) : List (String × Json) → List (String × Json)
  | [] => []
  | (key, value) :: members => (key, arrange leaf value) :: arrangeMembers leaf members

end

mutual

/-- Somewhere in the value is what is not a number. -/
def hasNan : Json → Bool
  | .word special => special = .nan
  | .array elements => hasNanElements elements
  | .object members => hasNanMembers members
  | _ => false

def hasNanElements : List Json → Bool
  | [] => false
  | element :: elements => hasNan element || hasNanElements elements

def hasNanMembers : List (String × Json) → Bool
  | [] => false
  | (_, value) :: members => hasNan value || hasNanMembers members

end

/-- `True` and `False` are numbers. -/
def asNumber (normal : Numeral → Json) : Json → Json
  | .word .true => normal (.ofNat 1)
  | .word .false => normal (.ofNat 0)
  | .number numeral => normal numeral
  | other => other

end AgenticOS.Json

namespace AgenticOS.JsonValue

open Json

/-- `json.dumps(value, sort_keys=True)`. -/
def sortedDumps (value : JsonValue) : String :=
  String.ofList (write (arrange id value.json))

/-- `first == second`, for values that were read apart; `normal` gives every number one value. -/
def equal (normal : Numeral → Json) (first second : JsonValue) : Bool :=
  write (arrange (asNumber normal) first.json) = write (arrange (asNumber normal) second.json) ∧
    !hasNan first.json ∧ !hasNan second.json

theorem equal_comm (normal : Numeral → Json) (first second : JsonValue) :
    equal normal first second = equal normal second first := by
  unfold equal
  rw [decide_eq_decide]
  constructor
  · rintro ⟨same, number, otherNumber⟩
    exact ⟨same.symm, otherNumber, number⟩
  · rintro ⟨same, number, otherNumber⟩
    exact ⟨same.symm, otherNumber, number⟩

end AgenticOS.JsonValue
