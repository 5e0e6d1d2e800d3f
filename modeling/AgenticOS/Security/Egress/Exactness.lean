import AgenticOS.Security.Egress.Remains

/-!
# Redaction and its report

A redacted payload should contain no match of an enabled pattern, and the report should count the
markers put in.

For the secrets and the personal data both hold. But the keys of a payload are not looked at, the
markers of card numbers are not counted, and a card number within a longer number without a
checksum stays. The redactions of the operator may do anything.
-/

namespace AgenticOS.Security

open Regex Pattern List

/-- A string is a value somewhere in a payload. -/
inductive HasText (text : String) : Json → Prop
  | here : HasText text (.string text)
  | element {elements : List Json} {element : Json} (member : element ∈ elements)
      (inside : HasText text element) : HasText text (.array elements)
  | member {members : List (String × Json)} {entry : String × Json} (member : entry ∈ members)
      (inside : HasText text entry.2) : HasText text (.object members)

inductive HasKey (key : String) : Json → Prop
  | here {members : List (String × Json)} {value : Json} (member : (key, value) ∈ members) :
      HasKey key (.object members)
  | element {elements : List Json} {element : Json} (member : element ∈ elements)
      (inside : HasKey key element) : HasKey key (.array elements)
  | member {members : List (String × Json)} {entry : String × Json} (member : entry ∈ members)
      (inside : HasKey key entry.2) : HasKey key (.object members)

section

variable (tables : CharacterTables) (compile : String → Option Substitution) (policy : EgressPolicy)

def ContainsCard (text : List Char) : Prop :=
  ∃ before inside after, text = before ++ inside ++ after ∧
    (cardNumber tables).Matches tables.isWord before inside after ∧
    isCardNumber tables inside = true

def Leaks (text : List Char) : Prop :=
  (∃ entry ∈ enabledPatterns tables policy, Contains tables.isWord entry.2 text) ∨
    policy.redactPii = true ∧ ContainsCard tables text

/-- The report counts the markers of each class. -/
def Account.Exact (account : Account) : Prop :=
  (∀ cls, account.report.count cls = account.inserted.count cls) ∧
    account.report.replacements = account.inserted.length

/-- Nothing is left in a payload, and the report counts what was put in. -/
structure RedactsExactly (payload : Json) : Prop where
  clean : ∀ text, HasText text (redactPayload tables compile policy payload {}).1 ∨
      HasKey text (redactPayload tables compile policy payload {}).1 →
    ¬ Leaks tables policy text.toList
  exact : (redactPayload tables compile policy payload {}).2.Exact

/-- What is left of a text when the secrets and the personal data but card numbers are replaced. -/
def leftOf (text : List Char) : List Char :=
  (redactPatterns tables policy text {}).1

def customized (text : List Char) : List Char :=
  (policy.customRedactions.entries.foldl (redactCustom compile) (text, {})).1

/-- There is no card number to replace in a text or to be left. With redactions of the operator
there is none to replace, and what they make of the text contains no match. -/
def Untroubled (text : List Char) : Prop :=
  if policy.customRedactions.entries = [] then
    policy.redactPii = true → ¬ ContainsCard tables (leftOf tables policy text)
  else
    (policy.redactPii = true → cardsIn tables (leftOf tables policy text) = []) ∧
      ¬ Leaks tables policy (customized compile policy (leftOf tables policy text))

end

variable {tables : CharacterTables} {compile : String → Option Substitution}
  {policy : EgressPolicy} {account : Account} {text : List Char}

def Account.Lags (account : Account) (number : Nat) : Prop :=
  (∀ cls, account.inserted.count cls =
      account.report.count cls + if cls = "card-number" then number else 0) ∧
    account.inserted.length = account.report.replacements + number

theorem Account.lags_empty : Account.Lags {} 0 := by
  refine ⟨fun cls => ?_, rfl⟩
  rw [ite_self]
  rfl

variable {number : Nat}

theorem Account.Lags.exact_iff (lags : account.Lags number) : account.Exact ↔ number = 0 := by
  constructor
  · intro exact
    have lengths := lags.2
    rw [exact.2] at lengths
    omega
  · rintro rfl
    refine ⟨fun cls => ?_, lags.2.symm⟩
    rw [lags.1 cls, ite_self, Nat.add_zero]

theorem RedactionReport.count_record (report : RedactionReport) (cls other : String)
    (count : Nat) : (report.record cls count).count other =
      report.count other + if other = cls then count else 0 := by
  unfold RedactionReport.record
  rw [RedactionReport.count]
  rw [Dict.get?_set]
  split
  · next same =>
      rw [same]
      rfl
  · rfl

theorem count_replicate (cls other : String) (number : Nat) :
    (List.replicate number cls).count other = if other = cls then number else 0 := by
  by_cases same : other = cls
  · rw [if_pos same, same, count_replicate_self]
  · rw [if_neg same, count_eq_zero]
    exact fun member => same (eq_of_mem_replicate member)

theorem Account.Lags.record (lags : account.Lags number) (cls : String) (count : Nat) :
    (account.record cls count).Lags number := by
  have counted (other : String) : (account.record cls count).report.count other =
      account.report.count other + if other = cls then count else 0 := by
    unfold Account.record
    split
    · next none => simp [none]
    · exact RedactionReport.count_record ..
  have total : (account.record cls count).report.replacements =
      account.report.replacements + count := by
    unfold Account.record
    split
    · next none => rw [none, Nat.add_zero]
    · rfl
  refine ⟨fun other => ?_, ?_⟩
  · rw [counted, Account.record, count_append, lags.1 other, count_replicate]
    omega
  · rw [total, Account.record, length_append, lags.2, length_replicate]
    omega

theorem Account.Lags.cards (lags : account.Lags number) (count : Nat) : Account.Lags { account with
      inserted := account.inserted ++ List.replicate count "card-number" } (number + count) := by
  refine ⟨fun other => ?_, ?_⟩
  · rw [count_append, lags.1 other, count_replicate]
    dsimp only
    split <;> omega
  · rw [length_append, lags.2, length_replicate]
    exact Nat.add_assoc ..

theorem Account.Lags.redactPatterns (lags : account.Lags number) (tables : CharacterTables)
    (policy : EgressPolicy) (text : List Char) :
    (redactPatterns tables policy text account).2.Lags number := by
  unfold Security.redactPatterns
  induction enabledPatterns tables policy generalizing text account with
  | nil => exact lags
  | cons entry rest ih => exact ih (lags.record entry.1 _) _

theorem Account.Lags.redactCustom {redacted : List Char × Account} (lags : redacted.2.Lags number)
    (compile : String → Option Substitution) (entries : List (String × String)) :
    (entries.foldl (redactCustom compile) redacted).2.Lags number := by
  induction entries generalizing redacted with
  | nil => exact lags
  | cons entry rest ih =>
    rw [foldl_cons, Security.redactCustom]
    split
    · exact ih lags
    · exact ih (lags.record entry.1 _)

theorem redactPatterns_text (tables : CharacterTables) (policy : EgressPolicy) (text : List Char)
    (account : Account) :
    (redactPatterns tables policy text account).1 = leftOf tables policy text := by
  unfold leftOf redactPatterns
  generalize ({} : Account) = other
  induction enabledPatterns tables policy generalizing text account other with
  | nil => rfl
  | cons entry rest ih => exact ih _ _ _

theorem redactCustom_text (compile : String → Option Substitution) (policy : EgressPolicy)
    (redacted : List Char × Account) :
    (policy.customRedactions.entries.foldl (redactCustom compile) redacted).1 =
      customized compile policy redacted.1 := by
  obtain ⟨text, account⟩ := redacted
  unfold customized
  generalize ({} : Account) = other
  induction policy.customRedactions.entries generalizing text account other with
  | nil => rfl
  | cons entry rest ih =>
    rw [foldl_cons, foldl_cons, redactCustom, redactCustom]
    cases compile entry.2 with
    | none => exact ih text account other
    | some subn => exact ih _ _ _

def replacedCards (tables : CharacterTables) (policy : EgressPolicy) (text : List Char) :
    List Outcome :=
  if policy.redactPii then cardsIn tables (leftOf tables policy text) else []

def scrubbed (tables : CharacterTables) (compile : String → Option Substitution)
    (policy : EgressPolicy) (text : List Char) : List Char :=
  customized compile policy
    (if policy.redactPii then
      (cardNumber tables).sub tables.isWord (cardSub tables) (leftOf tables policy text)
    else leftOf tables policy text)

theorem redactText_text (text : List Char) (account : Account) :
    (redactText tables compile policy text account).1 = scrubbed tables compile policy text := by
  unfold redactText scrubbed
  rw [redactCustom_text]
  split
  · rw [redactCards, redactPatterns_text]
  · rw [redactPatterns_text]

theorem Account.Lags.redactText (lags : account.Lags number) (text : List Char) :
    (redactText tables compile policy text account).2.Lags
      (number + (replacedCards tables policy text).length) := by
  apply Account.Lags.redactCustom
  have before := lags.redactPatterns tables policy text
  unfold replacedCards
  split
  · rw [← redactPatterns_text tables policy text account]
    exact before.cards _
  · exact before

theorem sub_eq_self_of_cardsIn (none : cardsIn tables text = []) :
    (cardNumber tables).sub tables.isWord (cardSub tables) text = text := by
  apply sub_eq_self rfl
  intro outcome member
  have refused := filter_eq_nil_iff.mp none outcome member
  rw [cardSub, if_neg refused]

theorem cardsIn_eq_nil (clean : ¬ ContainsCard tables text) : cardsIn tables text = [] := by
  apply filter_eq_nil_iff.mpr
  intro outcome member accepted
  obtain ⟨before, after, shape, found⟩ := exists_match_of_mem_findAll rfl member
  exact clean ⟨before, outcome.taken, after, shape, found, accepted⟩

theorem leaks_leftOf_iff : Leaks tables policy (leftOf tables policy text) ↔
    policy.redactPii = true ∧ ContainsCard tables (leftOf tables policy text) := by
  constructor
  · rintro (⟨entry, member, contains⟩ | card)
    · exact absurd contains (not_contains_redactPatterns policy text {} entry member)
    · exact card
  · exact .inr

/-- A text is cleaned and counted exactly if it is untroubled. -/
theorem scrubbed_iff : replacedCards tables policy text = [] ∧
      ¬ Leaks tables policy (scrubbed tables compile policy text) ↔
    Untroubled tables compile policy text := by
  have settled (none : replacedCards tables policy text = []) :
      scrubbed tables compile policy text =
        customized compile policy (leftOf tables policy text) := by
    unfold scrubbed
    split
    · next pii =>
        rw [replacedCards, if_pos pii] at none
        rw [sub_eq_self_of_cardsIn none]
    · rfl
  have none_iff : replacedCards tables policy text = [] ↔
      (policy.redactPii = true → cardsIn tables (leftOf tables policy text) = []) := by
    unfold replacedCards
    cases policy.redactPii <;> simp
  unfold Untroubled
  split
  · next nothing =>
      have same : customized compile policy (leftOf tables policy text) =
          leftOf tables policy text := by
        rw [customized, nothing, foldl_nil]
      constructor
      · rintro ⟨none, clean⟩ pii card
        rw [settled none, same, leaks_leftOf_iff] at clean
        exact clean ⟨pii, card⟩
      · intro clean
        have none := none_iff.mpr fun pii => cardsIn_eq_nil (clean pii)
        refine ⟨none, fun leaks => ?_⟩
        rw [settled none, same, leaks_leftOf_iff] at leaks
        exact clean leaks.1 leaks.2
  · rw [← none_iff]
    constructor
    · rintro ⟨none, clean⟩
      exact ⟨none, settled none ▸ clean⟩
    · rintro ⟨none, clean⟩
      exact ⟨none, (settled none).symm ▸ clean⟩

/-! ## Payloads -/

theorem hasText_string {string text : String} : HasText string (.string text) ↔ string = text := by
  constructor
  · rintro ⟨⟩
    rfl
  · rintro rfl
    exact .here

variable {elements : List Json}

theorem hasText_array {string : String} :
    HasText string (.array elements) ↔ ∃ element ∈ elements, HasText string element := by
  constructor
  · rintro (_ | ⟨member, inside⟩)
    exact ⟨_, member, inside⟩
  · rintro ⟨element, member, inside⟩
    exact .element member inside

variable {members : List (String × Json)}

theorem hasText_object {string : String} :
    HasText string (.object members) ↔ ∃ entry ∈ members, HasText string entry.2 := by
  constructor
  · rintro (_ | _ | ⟨member, inside⟩)
    exact ⟨_, member, inside⟩
  · rintro ⟨entry, member, inside⟩
    exact .member member inside

theorem hasKey_array {key : String} :
    HasKey key (.array elements) ↔ ∃ element ∈ elements, HasKey key element := by
  constructor
  · rintro (_ | ⟨member, inside⟩)
    exact ⟨_, member, inside⟩
  · rintro ⟨element, member, inside⟩
    exact .element member inside

theorem hasKey_object {key : String} :
    HasKey key (.object members) ↔ ∃ entry ∈ members, entry.1 = key ∨ HasKey key entry.2 := by
  constructor
  · rintro (member | _ | ⟨member, inside⟩)
    · exact ⟨_, member, .inl rfl⟩
    · exact ⟨_, member, .inr inside⟩
  · rintro ⟨⟨_, value⟩, member, rfl | inside⟩
    · exact .here member
    · exact .member member inside

/-- Some strings become others, some keys stay, and the account goes on. -/
structure Redacts (tables : CharacterTables) (compile : String → Option Substitution)
    (policy : EgressPolicy) (texts keys texts' keys' : String → Prop)
    (before after : Account) : Prop where
  text_iff (string : String) : texts' string ↔
    ∃ text, texts text ∧ string = String.ofList (scrubbed tables compile policy text.toList)
  key_iff (key : String) : keys' key ↔ keys key
  lags (number : Nat) (lags : before.Lags number) : ∃ more, after.Lags (number + more) ∧
    (more = 0 ↔ ∀ text, texts text → replacedCards tables policy text.toList = [])

theorem Redacts.nothing (account : Account) : Redacts tables compile policy (fun _ => False)
    (fun _ => False) (fun _ => False) (fun _ => False) account account where
  text_iff _ := by simp
  key_iff _ := .rfl
  lags number lags := ⟨0, lags, by simp⟩

theorem Redacts.append {texts₁ keys₁ texts₁' keys₁' texts₂ keys₂ texts₂' keys₂' : String → Prop}
    {before middle after : Account}
    (first : Redacts tables compile policy texts₁ keys₁ texts₁' keys₁' before middle)
    (second : Redacts tables compile policy texts₂ keys₂ texts₂' keys₂' middle after) :
    Redacts tables compile policy (fun text => texts₁ text ∨ texts₂ text)
      (fun key => keys₁ key ∨ keys₂ key) (fun text => texts₁' text ∨ texts₂' text)
      (fun key => keys₁' key ∨ keys₂' key) before after where
  text_iff string := by simp only [first.text_iff, second.text_iff, or_and_right, exists_or]
  key_iff key := by rw [first.key_iff, second.key_iff]
  lags number lags := by
    obtain ⟨more, lagging, none⟩ := first.lags number lags
    obtain ⟨further, later, noneLater⟩ := second.lags _ lagging
    refine ⟨more + further, Nat.add_assoc .. ▸ later, ?_⟩
    simp only [Nat.add_eq_zero_iff, none, noneLater, or_imp, forall_and]

theorem Redacts.congr {texts keys texts' keys' texts₁ keys₁ texts₁' keys₁' : String → Prop}
    {before after : Account}
    (redacts : Redacts tables compile policy texts keys texts' keys' before after)
    (sameTexts : ∀ text, texts₁ text ↔ texts text) (sameKeys : ∀ key, keys₁ key ↔ keys key)
    (sameTexts' : ∀ text, texts₁' text ↔ texts' text) (sameKeys' : ∀ key, keys₁' key ↔ keys' key) :
    Redacts tables compile policy texts₁ keys₁ texts₁' keys₁' before after where
  text_iff string := by simp only [sameTexts', redacts.text_iff, sameTexts]
  key_iff key := by rw [sameKeys', redacts.key_iff, sameKeys]
  lags number lags := by simpa only [sameTexts] using redacts.lags number lags

variable (tables compile policy) in
/-- The redaction of a payload redacts what it contains, whatever has been counted before. -/
def Scrubs (payload : Json) : Prop :=
  ∀ account, Redacts tables compile policy (HasText · payload) (HasKey · payload)
    (HasText · (redactPayload tables compile policy payload account).1)
    (HasKey · (redactPayload tables compile policy payload account).1) account
    (redactPayload tables compile policy payload account).2

theorem scrubs_string (text : String) : Scrubs tables compile policy (.string text) := by
  intro account
  refine ⟨fun string => by simp [redactPayload, hasText_string, redactText_text], ?_, ?_⟩
  · intro key
    exact ⟨nofun, nofun⟩
  · intro number lags
    refine ⟨_, lags.redactText text.toList, ?_⟩
    simp [hasText_string]

theorem redacts_elements (each : ∀ element ∈ elements, Scrubs tables compile policy element)
    (account : Account) :
    Redacts tables compile policy (fun text => ∃ element ∈ elements, HasText text element)
      (fun key => ∃ element ∈ elements, HasKey key element)
      (fun text => ∃ element ∈ (redactElements tables compile policy elements account).1,
        HasText text element)
      (fun key => ∃ element ∈ (redactElements tables compile policy elements account).1,
        HasKey key element) account (redactElements tables compile policy elements account).2 := by
  induction elements generalizing account with
  | nil => apply (Redacts.nothing account).congr <;> simp [redactElements]
  | cons element rest ih =>
    rw [forall_mem_cons] at each
    have whole := (each.1 account).append (ih each.2 _)
    apply whole.congr <;> simp [redactElements]

theorem redacts_members (each : ∀ entry ∈ members, Scrubs tables compile policy entry.2)
    (account : Account) :
    Redacts tables compile policy (fun text => ∃ entry ∈ members, HasText text entry.2)
      (fun key => ∃ entry ∈ members, entry.1 = key ∨ HasKey key entry.2)
      (fun text => ∃ entry ∈ (redactMembers tables compile policy members account).1,
        HasText text entry.2)
      (fun key => ∃ entry ∈ (redactMembers tables compile policy members account).1,
        entry.1 = key ∨ HasKey key entry.2) account
      (redactMembers tables compile policy members account).2 := by
  induction members generalizing account with
  | nil => apply (Redacts.nothing account).congr <;> simp [redactMembers]
  | cons entry rest ih =>
    rw [forall_mem_cons] at each
    have value := each.1 account
    have named := Redacts.mk value.text_iff
      (fun key => or_congr_right (a := entry.1 = key) (value.key_iff key)) value.lags
    have whole := named.append (ih each.2 _)
    apply whole.congr <;> simp [redactMembers]

theorem scrubs (payload : Json) : Scrubs tables compile policy payload := by
  have nothing : ∀ word : Json, (∀ string, ¬ HasText string word) → (∀ key, ¬ HasKey key word) →
      (∀ account, redactPayload tables compile policy word account = (word, account)) →
      Scrubs tables compile policy word := by
    intro word noText noKey same account
    rw [same]
    exact (Redacts.nothing account).congr (fun _ => iff_of_false (noText _) id)
      (fun _ => iff_of_false (noKey _) id) (fun _ => iff_of_false (noText _) id)
      (fun _ => iff_of_false (noKey _) id)
  induction payload using Json.induction with
  | word | number => exact nothing _ nofun nofun fun _ => by simp [redactPayload]
  | string text => exact scrubs_string text
  | array elements ih =>
    intro account
    exact (redacts_elements ih account).congr (fun _ => hasText_array)
      (fun _ => hasKey_array) (fun _ => hasText_array) (fun _ => hasKey_array)
  | object members ih =>
    intro account
    exact (redacts_members ih account).congr (fun _ => hasText_object)
      (fun _ => hasKey_object) (fun _ => hasText_object) (fun _ => hasKey_object)

/-- A payload is redacted exactly if no key contains a match and every text is untroubled. -/
theorem redactsExactly_iff (tables : CharacterTables) (compile : String → Option Substitution)
    (policy : EgressPolicy) (payload : Json) : RedactsExactly tables compile policy payload ↔
      (∀ key, HasKey key payload → ¬ Leaks tables policy key.toList) ∧
        ∀ text, HasText text payload → Untroubled tables compile policy text.toList := by
  have redacts := @scrubs tables compile policy payload {}
  obtain ⟨number, lags, none⟩ := redacts.lags 0 Account.lags_empty
  rw [Nat.zero_add] at lags
  constructor
  · rintro ⟨clean, exact⟩
    rw [lags.exact_iff, none] at exact
    constructor
    · exact fun key inside => clean key (.inr ((redacts.key_iff key).mpr inside))
    · intro text inside
      rw [← scrubbed_iff]
      refine ⟨exact text inside, ?_⟩
      have scrubbedText := clean _ (.inl ((redacts.text_iff _).mpr ⟨text, inside, rfl⟩))
      rwa [String.toList_ofList] at scrubbedText
  · rintro ⟨keys, texts⟩
    simp only [← scrubbed_iff] at texts
    constructor
    · rintro string (inside | inside)
      · obtain ⟨text, original, rfl⟩ := (redacts.text_iff string).mp inside
        rw [String.toList_ofList]
        exact (texts text original).2
      · exact keys string ((redacts.key_iff string).mp inside)
    · rw [lags.exact_iff, none]
      exact fun text inside => (texts text inside).1

def asciiTables : CharacterTables where
  isWord char := char.isAlphanum || char = '_'
  isDecimal := Char.isDigit
  isWord_ascii _ _ := rfl
  isDecimal_ascii _ _ := rfl

theorem card_not_redactsExactly :
    ¬ RedactsExactly asciiTables (fun _ => none) {} (.string "4111111111111111") := by
  intro exactly
  have lengths := exactly.exact.2
  revert lengths
  decide +kernel

end AgenticOS.Security
