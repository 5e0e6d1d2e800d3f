import AgenticOS.Data.Dict
import AgenticOS.Data.Json.Syntax

/-!
# Reading JSON

A reader for JSON texts by recursive descent, and that it gives back what was written. White
space may stand around every token, and of the members with one key the last one counts.

The fuel of the reader bounds how deep the values are nested and how many items a sequence
has; the length of the text is more than enough, since every item takes a character.
-/

namespace AgenticOS.Json

open List Option

universe u

def skipSpace (text : List Char) : List Char :=
  text.dropWhile fun char => [' ', '\t', '\n', '\r'].contains char

def readWord (text : List Char) : Option (Word × List Char) :=
  Word.all.findSome? fun special =>
    if special.text <+: text then some (special, text.drop special.text.length) else none

def readNumeral (text : List Char) : Option (Numeral × List Char) :=
  let characters := text.takeWhile inNumeral
  if h : characters.all inNumeral = true ∧ isNumber characters = true then
    some (⟨characters, h.1, h.2⟩, text.dropWhile inNumeral)
  else none

/-- The items behind the first one, up to the character that closes the sequence. -/
def readMore {α : Type u} (close : Char) (read : Reader α) : Nat → Reader (List α)
  | 0, _ => none
  | count + 1, text =>
    match skipSpace text with
    | [] => none
    | first :: rest =>
      if first = close then some ([], rest)
      else if first = ',' then do
        let (value, after) ← read (skipSpace rest)
        let (values, remaining) ← readMore close read count after
        some (value :: values, remaining)
      else none

/-- The items of a sequence, up to the character that closes it. -/
def readSequence {α : Type u} (close : Char) (read : Reader α) (count : Nat) :
    Reader (List α) := fun text =>
  match skipSpace text with
  | [] => none
  | first :: rest =>
    if first = close then some ([], rest)
    else do
      let (value, after) ← read (first :: rest)
      let (values, remaining) ← readMore close read count after
      some (value :: values, remaining)

/-- A string behind its opening quote. -/
def readString : Reader String := fun text => do
  let (characters, after) ← readLiteral (text.length + 1) text
  some (String.ofList characters, after)

def readMember (read : Reader Json) : Reader (String × Json)
  | '"' :: rest => do
      let (key, after) ← readString rest
      match skipSpace after with
      | ':' :: next => do
          let (value, remaining) ← read (skipSpace next)
          some ((key, value), remaining)
      | _ => none
  | _ => none

/-- A value that is no string and no sequence. -/
def readAtom : Reader Json := fun text =>
  match readWord text with
  | some (special, rest) => some (.word special, rest)
  | none => (readNumeral text).map fun (numeral, rest) => (.number numeral, rest)

def readValue : Nat → Reader Json
  | 0, _ => none
  | fuel + 1, text =>
    match text with
    | '"' :: rest => (readString rest).map fun (content, after) => (.string content, after)
    | '[' :: rest =>
      (readSequence ']' (readValue fuel) fuel rest).map fun (elements, after) =>
        (.array elements, after)
    | '{' :: rest =>
      (readSequence '}' (readMember (readValue fuel)) fuel rest).map fun (members, after) =>
        (.object (Dict.ofList members).entries, after)
    | _ => readAtom text

/-- `json.loads`: the value of a whole text. -/
def parse (text : List Char) : Option Json := do
  let (value, rest) ← readValue (text.length + 1) (skipSpace text)
  if skipSpace rest = [] then some value else none

/-- No number goes on with the text. -/
def Stops (rest : List Char) : Prop :=
  ∀ char ∈ rest.head?, inNumeral char = false

theorem stops_nil : Stops [] := by
  intro char member
  cases member

theorem stops_cons {first : Char} {rest : List Char} :
    Stops (first :: rest) ↔ inNumeral first = false := by
  simp [Stops]

/-- A text that starts with no white space. -/
def Solid (text : List Char) : Prop :=
  ∃ first rest, text = first :: rest ∧ [' ', '\t', '\n', '\r', ']', '}', ','].contains first = false

theorem skipSpace_of_solid {text : List Char} (solid : Solid text) (rest : List Char) :
    skipSpace (text ++ rest) = text ++ rest := by
  obtain ⟨first, others, rfl, notSpace⟩ := solid
  unfold skipSpace
  simp_all

structure Readable {α : Type} (read : Reader α) (item : α → List Char) (value : α) : Prop where
  solid : Solid (item value)
  reads : ∀ rest, Stops rest → read (item value ++ rest) = some (value, rest)

section

variable {α : Type} {close : Char} {read : Reader α} {item : α → List Char}

/-- A character that closes a sequence. -/
def Closes (close : Char) : Prop :=
  close = ']' ∨ close = '}'

theorem Closes.stops (closes : Closes close) (items : List α) (rest : List Char) :
    Stops (separated close item items ++ rest) := by
  cases items with
  | nil =>
    rcases closes with rfl | rfl
    · exact stops_cons.mpr (by decide)
    · exact stops_cons.mpr (by decide)
  | cons value items => exact stops_cons.mpr (by decide)

theorem readMore_separated (closes : Closes close) {items : List α}
    (readable : ∀ value ∈ items, Readable read item value) {count : Nat}
    (enough : items.length < count) (rest : List Char) :
    readMore close read count (separated close item items ++ rest) = some (items, rest) := by
  have notSpace : skipSpace (close :: rest) = close :: rest := by
    rcases closes with rfl | rfl
    · rfl
    · rfl
  induction items generalizing count with
  | nil =>
    cases count with
    | zero => cases enough
    | succ count =>
      change (match skipSpace (close :: rest) with | [] => _ | first :: rest => _) = _
      rw [notSpace]
      exact if_pos rfl
  | cons value items ih =>
    cases count with
    | zero => cases enough
    | succ count =>
      have notComma : ¬ ',' = close := by
        rcases closes with rfl | rfl
        · decide
        · decide
      have split : separated close item (value :: items) ++ rest =
          ',' :: ' ' :: (item value ++ (separated close item items ++ rest)) := by
        simp [separated]
      have here := readable value mem_cons_self
      have reads := here.reads (separated close item items ++ rest) (closes.stops items rest)
      have readsMore := ih
        (fun other member => readable other (mem_cons_of_mem _ member))
        (Nat.lt_of_succ_lt_succ enough)
      rw [split]
      change (if ',' = close then _ else if ',' = ',' then _ else _) = _
      rw [if_neg notComma, if_pos rfl]
      change (read (skipSpace (item value ++ _)) >>= _) = _
      simp only [skipSpace_of_solid here.solid, reads, readsMore, bind_eq_bind,
        bind_some]

theorem readSequence_separated (closes : Closes close) {value : α} {items : List α}
    (readable : ∀ other ∈ value :: items, Readable read item other) {count : Nat}
    (enough : items.length < count) (rest : List Char) :
    readSequence close read count (item value ++ (separated close item items ++ rest)) =
      some (value :: items, rest) := by
  have here := readable value mem_cons_self
  have reads := here.reads (separated close item items ++ rest) (closes.stops items rest)
  have readsMore := readMore_separated closes
    (fun other member => readable other (mem_cons_of_mem _ member)) enough rest
  unfold readSequence
  rw [skipSpace_of_solid here.solid]
  obtain ⟨first, others, shape, solid⟩ := here.solid
  rw [shape, cons_append] at reads ⊢
  have notClose : ¬ first = close := by
    rintro rfl
    rcases closes with rfl | rfl
    · cases solid
    · cases solid
  dsimp only
  rw [if_neg notClose]
  simp only [reads, readsMore, bind_eq_bind, bind_some]

end

/-! ### Atoms -/

theorem readWord_text (special : Word) (rest : List Char) :
    readWord (special.text ++ rest) = some (special, rest) := by
  cases special with
  | _ => rfl

variable (numeral : Numeral)

theorem Numeral.shape : (∃ first rest, numeral.text = first :: rest ∧ first.isDigit = true) ∨
      ∃ first rest, numeral.text = '-' :: first :: rest ∧ first.isDigit = true := by
  have unsigned {text : List Char} (valid : isUnsigned text = true) :
      ∃ first rest, text = first :: rest ∧ first.isDigit = true := by
    cases text with
    | nil => cases valid
    | cons first rest =>
      refine ⟨first, rest, rfl, ?_⟩
      rw [isUnsigned] at valid
      split at valid
      next zero => rw [zero]; rfl
      next => exact (Bool.and_eq_true_iff.mp valid).1
  have valid := numeral.valid
  unfold isNumber at valid
  split at valid
  next rest shape =>
    obtain ⟨first, others, rfl, digit⟩ := unsigned valid
    exact .inr ⟨first, others, shape, digit⟩
  next => exact .inl (unsigned valid)

theorem Numeral.solid : Solid numeral.text := by
  have digits (char : Char) (digit : char.isDigit = true) :
      [' ', '\t', '\n', '\r', ']', '}', ','].contains char = false := by
    by_contra space
    rw [Bool.not_eq_false, contains_iff_mem] at space
    have none : ∀ other ∈ [' ', '\t', '\n', '\r', ']', '}', ','], other.isDigit = false := by
      intro other member
      simp only [mem_cons, not_mem_nil, or_false] at member
      rcases member with rfl | rfl | rfl | rfl | rfl | rfl | rfl
      all_goals rfl
    rw [none char space] at digit
    cases digit
  rcases numeral.shape with ⟨first, rest, shape, digit⟩ | ⟨first, rest, shape, digit⟩
  · exact ⟨first, rest, shape, digits first digit⟩
  · exact ⟨'-', first :: rest, shape, by decide⟩

theorem Numeral.text_ne (rest : List Char) {first : Char} (noDigit : first.isDigit = false)
    (noMinus : first ≠ '-') (others : List Char) :
    numeral.text ++ rest = first :: others → False := by
  intro same
  rcases numeral.shape with ⟨digit, after, shape, isDigit⟩ | ⟨digit, after, shape, -⟩
  · rw [shape] at same
    obtain ⟨rfl, -⟩ := List.cons.inj same
    rw [noDigit] at isDigit
    cases isDigit
  · rw [shape] at same
    exact noMinus (List.cons.inj same).1.symm

theorem readWord_numeral (rest : List Char) : readWord (numeral.text ++ rest) = none := by
  have noWord (special : Word) : ¬ special.text <+: numeral.text ++ rest := by
    intro before
    rcases numeral.shape with ⟨first, others, shape, digit⟩ | ⟨first, others, shape, digit⟩
    · rw [shape] at before
      cases special
      all_goals
        obtain ⟨rfl, -⟩ := cons_prefix_cons.mp before
        cases digit
    · rw [shape] at before
      cases special
      all_goals
        have below := (cons_prefix_cons.mp before).2
        obtain ⟨rfl, -⟩ := cons_prefix_cons.mp below
        cases digit
  unfold readWord
  rw [findSome?_eq_none_iff]
  exact fun special _ => if_neg (noWord special)

theorem readNumeral_text {rest : List Char} (stops : Stops rest) :
    readNumeral (numeral.text ++ rest) = some (numeral, rest) := by
  have within := all_eq_true.mp numeral.within
  have taken : (numeral.text ++ rest).takeWhile inNumeral = numeral.text := by
    rw [takeWhile_append_of_pos within]
    cases rest with
    | nil => exact append_nil _
    | cons first rest => simp [stops_cons.mp stops]
  have dropped : (numeral.text ++ rest).dropWhile inNumeral = rest := by
    rw [dropWhile_append_of_pos within]
    cases rest with
    | nil => rfl
    | cons first rest => simp [stops_cons.mp stops]
  unfold readNumeral
  simp only [taken, dropped, numeral.within, numeral.valid, and_self, dite_true]

theorem readString_literal (text : String) (rest : List Char) :
    readString (literal text.toList ++ rest) = some (text, rest) := by
  have enough : text.toList.length < (literal text.toList ++ rest).length + 1 := by
    rw [length_append]
    have shorter := length_le_literal text.toList
    omega
  unfold readString
  simp only [readLiteral_literal enough, bind_eq_bind, bind_some,
    String.ofList_toList]

theorem readMember_writeMember {read : Reader Json} {member : String × Json}
    (readable : Readable read write member.2) : Readable (readMember read) writeMember member := by
  obtain ⟨key, value⟩ := member
  refine ⟨⟨'"', _, rfl, by decide⟩, fun rest stops => ?_⟩
  have split : writeMember (key, value) ++ rest =
      '"' :: (literal key.toList ++ (':' :: ' ' :: (write value ++ rest))) := by
    simp [writeMember, writeKey]
  rw [split]
  simp only [readMember, readString_literal, bind_eq_bind, bind_some]
  change (read (skipSpace (write value ++ rest)) >>= _) = _
  simp only [skipSpace_of_solid readable.solid, readable.reads rest stops, bind_eq_bind,
    bind_some]

/-! ### Values -/

theorem solid_write (value : Json) : Solid (write value) := by
  cases value with
  | word special =>
    cases special
    all_goals exact ⟨_, _, rfl, by decide⟩
  | number numeral => exact numeral.solid
  | string text => exact ⟨'"', _, rfl, by decide⟩
  | array elements => cases elements <;> exact ⟨'[', _, rfl, by decide⟩
  | object members => cases members <;> exact ⟨'{', _, rfl, by decide⟩

section

variable {α : Type} (close : Char) (item : α → List Char)

theorem length_item_lt {items : List α} {value : α} (member : value ∈ items) :
    (item value).length < (separated close item items).length := by
  induction items with
  | nil => cases member
  | cons other items ih =>
    have split : separated close item (other :: items) =
        ',' :: ' ' :: (item other ++ separated close item items) := by
      simp [separated]
    rw [split, length_cons, length_cons, length_append]
    rcases mem_cons.mp member with rfl | later
    · omega
    · have shorter := ih later
      omega

theorem length_lt_separated (items : List α) :
    items.length < (separated close item items).length := by
  induction items with
  | nil => exact Nat.one_pos
  | cons other items ih =>
    have split : separated close item (other :: items) =
        ',' :: ' ' :: (item other ++ separated close item items) := by
      simp [separated]
    rw [split, length_cons, length_cons, length_cons, length_append]
    omega

end

def Returns (value : Json) : Prop :=
  value.Distinct → ∀ fuel, (write value).length < fuel → Readable (readValue fuel) write value

theorem returns_array {elements : List Json} (all : ∀ element ∈ elements, Returns element) :
    Returns (.array elements) := by
  intro distinct fuel enough
  refine ⟨solid_write _, fun rest _ => ?_⟩
  cases fuel with
  | zero => cases enough
  | succ fuel =>
    cases elements with
    | nil => rfl
    | cons element elements =>
      have each := distinctElements_iff.mp distinct
      rw [write, writeElements_eq, length_cons, length_append] at enough
      have readable : ∀ other ∈ element :: elements,
          Readable (readValue fuel) write other := by
        intro other member
        apply all other member (each other member)
        rcases mem_cons.mp member with rfl | later
        · omega
        · have shorter := length_item_lt ']' write later
          omega
      have few := length_lt_separated ']' write elements
      rw [write, writeElements_eq, cons_append, append_assoc]
      simp only [readValue]
      rw [readSequence_separated (.inl rfl) readable (by omega)]
      rfl

theorem returns_object {members : List (String × Json)}
    (all : ∀ member ∈ members, Returns member.2) : Returns (.object members) := by
  intro distinct fuel enough
  refine ⟨solid_write _, fun rest _ => ?_⟩
  cases fuel with
  | zero => cases enough
  | succ fuel =>
    cases members with
    | nil => rfl
    | cons member members =>
      obtain ⟨key, value⟩ := member
      obtain ⟨nodup, distinctMembers⟩ := distinct
      have each := distinctMembers_iff.mp distinctMembers
      have split : write (.object ((key, value) :: members)) =
          '{' :: (writeMember (key, value) ++ separated '}' writeMember members) := by
        rw [write, writeMembers_eq]
        rfl
      rw [split, length_cons, length_append] at enough
      have value_lt (other : String × Json) :
          (write other.2).length < (writeMember other).length := by
        simp [writeMember, writeKey]
        omega
      have readable : ∀ other ∈ (key, value) :: members,
          Readable (readMember (readValue fuel)) writeMember other := by
        intro other member
        apply readMember_writeMember
        apply all other member (each other member)
        have shorter := value_lt other
        rcases mem_cons.mp member with rfl | later
        · omega
        · have within := length_item_lt '}' writeMember later
          omega
      have few := length_lt_separated '}' writeMember members
      rw [split, cons_append, append_assoc]
      simp only [readValue]
      rw [readSequence_separated (.inr rfl) readable (by omega)]
      simp only [map_some, Dict.entries_ofList nodup]

theorem returns (value : Json) : Returns value := by
  induction value using Json.induction with
  | word special =>
    intro _ fuel enough
    refine ⟨solid_write _, fun rest _ => ?_⟩
    cases fuel with
    | zero => cases enough
    | succ fuel =>
      have atom : readAtom (special.text ++ rest) = some (.word special, rest) := by
        unfold readAtom
        rw [readWord_text]
      cases special
      all_goals exact atom
  | number numeral =>
    intro _ fuel enough
    refine ⟨solid_write _, fun rest stops => ?_⟩
    cases fuel with
    | zero => cases enough
    | succ fuel =>
      have atom : readAtom (numeral.text ++ rest) = some (.number numeral, rest) := by
        unfold readAtom
        rw [readWord_numeral, readNumeral_text numeral stops]
        rfl
      rw [write, readValue]
      · exact atom
      · exact numeral.text_ne rest (by decide) (by decide)
      · exact numeral.text_ne rest (by decide) (by decide)
      · exact numeral.text_ne rest (by decide) (by decide)
  | string text =>
    intro _ fuel enough
    refine ⟨solid_write _, fun rest _ => ?_⟩
    cases fuel with
    | zero => cases enough
    | succ fuel =>
      rw [write, cons_append]
      simp only [readValue, readString_literal, map_some]
  | array elements all => exact returns_array all
  | object members all => exact returns_object all

theorem parse_write {value : Json} (distinct : value.Distinct) :
    parse (write value) = some value := by
  have readable := returns value distinct _ (Nat.lt_succ_self _)
  have front := skipSpace_of_solid readable.solid []
  have reads := readable.reads [] stops_nil
  rw [append_nil] at front reads
  unfold parse
  simp only [front, reads, bind_eq_bind, bind_some]
  rfl

/-! ## No key is read twice -/

def Yields {α : Type} (read : Reader α) (property : α → Prop) : Prop :=
  ∀ text value rest, read text = some (value, rest) → property value

section

variable {α : Type} {read : Reader α} {property : α → Prop}

theorem yields_readMore (yields : Yields read property) (close : Char) (count : Nat) :
    Yields (readMore close read count) fun values => ∀ value ∈ values, property value := by
  induction count with
  | zero => exact fun _ _ _ result => absurd result nofun
  | succ count ih =>
    intro text values rest result
    rw [readMore] at result
    split at result
    next => cases result
    next first others _ =>
      split at result
      next =>
        cases result
        exact fun _ member => absurd member not_mem_nil
      next =>
        split at result
        next =>
          obtain ⟨⟨value, after⟩, here, result⟩ := bind_eq_some_iff.mp result
          obtain ⟨⟨more, remaining⟩, there, result⟩ := bind_eq_some_iff.mp result
          cases result
          exact forall_mem_cons.mpr ⟨yields _ _ _ here, ih _ _ _ there⟩
        next => cases result

theorem yields_readSequence (yields : Yields read property) (close : Char) (count : Nat) :
    Yields (readSequence close read count) fun values => ∀ value ∈ values, property value := by
  intro text values rest result
  unfold readSequence at result
  split at result
  next => cases result
  next first others _ =>
    split at result
    next =>
      cases result
      exact fun _ member => absurd member not_mem_nil
    next =>
      obtain ⟨⟨value, after⟩, here, result⟩ := bind_eq_some_iff.mp result
      obtain ⟨⟨more, remaining⟩, there, result⟩ := bind_eq_some_iff.mp result
      cases result
      exact forall_mem_cons.mpr ⟨yields _ _ _ here, yields_readMore yields close count _ _ _ there⟩

theorem yields_readMember {read : Reader Json} (yields : Yields read Distinct) :
    Yields (readMember read) fun member => member.2.Distinct := by
  intro text member rest result
  unfold readMember at result
  split at result
  next =>
    obtain ⟨⟨key, after⟩, -, result⟩ := bind_eq_some_iff.mp result
    dsimp only at result
    split at result
    next =>
      obtain ⟨⟨value, remaining⟩, here, result⟩ := bind_eq_some_iff.mp result
      cases result
      exact yields _ _ _ here
    next => cases result
  next => cases result

end

theorem distinct_readAtom : Yields readAtom Distinct := by
  intro text value rest result
  unfold readAtom at result
  split at result
  next =>
    cases result
    trivial
  next =>
    obtain ⟨_, -, same⟩ := map_eq_some_iff.mp result
    cases same
    trivial

theorem distinct_readValue (fuel : Nat) : Yields (readValue fuel) Distinct := by
  induction fuel with
  | zero => exact fun _ _ _ result => absurd result nofun
  | succ fuel ih =>
    intro text value rest result
    rw [readValue.eq_def] at result
    dsimp only at result
    split at result
    next =>
      obtain ⟨_, -, same⟩ := map_eq_some_iff.mp result
      cases same
      trivial
    next =>
      obtain ⟨⟨elements, after⟩, read, same⟩ := map_eq_some_iff.mp result
      cases same
      exact distinctElements_iff.mpr (yields_readSequence ih ']' fuel _ _ _ read)
    next =>
      obtain ⟨⟨members, after⟩, read, same⟩ := map_eq_some_iff.mp result
      cases same
      have each := yields_readSequence (yields_readMember ih) '}' fuel _ _ _ read
      refine ⟨(Dict.ofList members).nodupKeys, distinctMembers_iff.mpr fun member within => ?_⟩
      have found := Dict.get?_eq_some_iff.mpr within
      exact each _ (Dict.mem_of_get?_ofList found)
    next => exact distinct_readAtom _ _ _ result

theorem distinct_parse {text : List Char} {value : Json} (read : parse text = some value) :
    value.Distinct := by
  obtain ⟨⟨found, rest⟩, here, result⟩ := bind_eq_some_iff.mp read
  dsimp only at result
  split at result
  next =>
    cases result
    exact distinct_readValue _ _ _ _ here
  next => cases result

end AgenticOS.Json
