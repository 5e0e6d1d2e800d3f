import AgenticOS.Data.Dict
import AgenticOS.Data.Json.Syntax
import AgenticOS.Data.Regex.Substitution
import AgenticOS.Orchestrator.Guards

/-!
# Redaction

Before a text leaves the machine its secrets and personal data are replaced by markers, one class
after the other, and a report counts what was found. Card numbers are checked before they are
replaced. Redactions of the operator come last. In a payload the strings are redacted wherever they
are, except for the keys.

The report is not all that is known of a run here: the classes of the markers that are put in are
kept beside it.

Which characters are letters or digits outside ASCII is a parameter, and so is the compiler of the
operator's patterns.
-/

namespace AgenticOS.Security

open Regex Orchestrator

/-- What the patterns ask of the Unicode tables. -/
structure CharacterTables where
  isWord : Char → Bool
  isDecimal : Char → Bool
  isWord_ascii : ∀ char, char.toNat < 128 → isWord char = (char.isAlphanum || char = '_')
  isDecimal_ascii : ∀ char, char.toNat < 128 → isDecimal char = char.isDigit

def bounded (parts : List Regex) : Pattern where
  startsWord := true
  body := sequence parts
  endsWord := true

/-- So many characters of a kind, or more. -/
def atLeast (least : Nat) (accepts : Char → Bool) : Regex :=
  .many true least none (.one accepts)

/-- So many characters of a kind. -/
def exactly (number : Nat) (accepts : Char → Bool) : Regex :=
  .many true number (some number) (.one accepts)

def oneOf (characters : String) : Char → Bool :=
  fun char => char ∈ characters.toList

/-- `[A-Za-z0-9._~+/=-]`. -/
def isTokenCharacter (char : Char) : Bool :=
  char.isAlphanum || oneOf "._~+/=-" char

def openaiKey : Pattern :=
  bounded [literal "sk-".toList, atLeast 16 fun char => char.isAlphanum || oneOf "_-" char]

def githubToken : Pattern :=
  bounded [choice (["ghp", "gho", "ghu", "ghs"].map fun word => literal word.toList),
    literal ['_'], atLeast 20 Char.isAlphanum]

def githubFinegrained : Pattern :=
  bounded [literal "github_pat_".toList, atLeast 20 fun char => char.isAlphanum || char = '_']

def awsAccessKey : Pattern :=
  bounded [literal "AKIA".toList, exactly 16 fun char => char.isDigit || char.isUpper]

def slackToken : Pattern :=
  bounded [literal "xox".toList, .one (oneOf "baprs"), literal ['-'],
    atLeast 10 fun char => char.isAlphanum || char = '-']

/-- The first or the last line of a key block. -/
def keyLine (word : String) : List Regex :=
  [literal ("-----" ++ word ++ " ").toList,
    run0 fun char => char.isUpper || char = ' ',
    literal "PRIVATE KEY-----".toList]

def privateKeyBlock : Pattern where
  body := sequence (keyLine "BEGIN" ++ [.many false 0 none (.one fun _ => true)] ++ keyLine "END")

/-- Case does not count. -/
def bearerHeader : Pattern where
  startsWord := true
  body := sequence [literalNoCase "bearer".toList, run1 isSpace,
    atLeast 16 (isTokenCharacter ∘ foldCase)]

/-- What secrets are assigned to. Case does not count. -/
def keyword : Regex :=
  choice
    (sequence [literalNoCase "api".toList, optional (.one (oneOf "_-")),
        literalNoCase "key".toList] ::
      ["apikey", "secret", "token", "password", "passwd", "credential"].map fun word =>
        literalNoCase word.toList)

/-- Case does not count. -/
def keyAssignment : Pattern where
  startsWord := true
  body := sequence
    [keyword,
      .group 1 (sequence [run0 isSpace, .one (oneOf "=:"), run0 isSpace]),
      .group 2 (optional (.one (oneOf "'\""))),
      atLeast 8 (isTokenCharacter ∘ foldCase),
      .again 2]

/-- `SECRET_PATTERNS`. -/
def secretPatterns : List (String × Pattern) :=
  [("openai-key", openaiKey), ("github-token", githubToken),
    ("github-finegrained", githubFinegrained), ("aws-access-key", awsAccessKey),
    ("slack-token", slackToken), ("private-key-block", privateKeyBlock),
    ("bearer-header", bearerHeader), ("key-assignment", keyAssignment)]

def email : Pattern :=
  bounded [run1 fun char => char.isAlphanum || oneOf "._%+-" char, literal ['@'],
    run1 fun char => char.isAlphanum || oneOf ".-" char, literal ['.'],
    atLeast 2 Char.isAlpha]

section

variable (tables : CharacterTables)

def ssn : Pattern :=
  bounded [exactly 3 tables.isDecimal, literal ['-'], exactly 2 tables.isDecimal, literal ['-'],
    exactly 4 tables.isDecimal]

def phone : Pattern :=
  bounded
    [optional (sequence
      [optional (literal ['+']), literal ['1'], optional (.one (oneOf "-. ("))]),
      exactly 3 tables.isDecimal, optional (.one (oneOf "-. )")),
      exactly 3 tables.isDecimal, optional (.one (oneOf "-.")),
      exactly 4 tables.isDecimal]

/-- `PII_PATTERNS`. -/
def piiPatterns : List (String × Pattern) :=
  [("email", email), ("ssn", ssn tables), ("phone", phone tables)]

/-- `CARD_RE`. -/
def cardNumber : Pattern :=
  bounded [.many true 13 (some 16) (.seq (.one tables.isDecimal) (optional (.one (oneOf " -"))))]

end

def luhnOk (digits : List Char) : Bool :=
  let parity := digits.length % 2
  (digits.mapIdx fun i char =>
    let d := char.toNat - 48
    if i % 2 = parity then if 9 < d * 2 then d * 2 - 9 else d * 2 else d).sum % 10 = 0

def isCardNumber (tables : CharacterTables) (candidate : List Char) : Bool :=
  let digits := candidate.filter tables.isDecimal
  13 ≤ digits.length && digits.length ≤ 16 && luhnOk digits

/-- A marker, in place of whatever was found. -/
def replacement (cls : String) : List Char → List Char :=
  Pattern.marked '[' ']' ("REDACTED:" ++ cls).toList

def cardSub (tables : CharacterTables) (candidate : List Char) : List Char :=
  if isCardNumber tables candidate then replacement "card-number" candidate else candidate

structure RedactionReport where
  replacements : Nat := 0
  byClass : Dict String Nat := .empty

def RedactionReport.count (report : RedactionReport) (cls : String) : Nat :=
  (report.byClass.get? cls).getD 0

def RedactionReport.record (report : RedactionReport) (cls : String) (count : Nat) :
    RedactionReport where
  replacements := report.replacements + count
  byClass := report.byClass.set cls (report.count cls + count)

/-- The report, and the classes of the markers put in so far. -/
structure Account where
  report : RedactionReport := {}
  inserted : List String := []

/-- Some markers of a class are put in and counted. -/
def Account.record (account : Account) (cls : String) (count : Nat) : Account where
  report := if count = 0 then account.report else account.report.record cls count
  inserted := account.inserted ++ List.replicate count cls

/-- `EgressPolicy`, as far as redaction reads it. -/
structure EgressPolicy where
  redactSecrets : Bool := true
  redactPii : Bool := true
  customRedactions : Dict String String := .empty

/-- What `subn` of a compiled pattern returns for a marker and a text. -/
abbrev Substitution :=
  List Char → List Char → List Char × Nat

section

variable (tables : CharacterTables) (compile : String → Option Substitution) (policy : EgressPolicy)

/-- The matches of one pattern are replaced. -/
def redactClass (redacted : List Char × Account) (entry : String × Pattern) : List Char × Account :=
  (entry.2.sub tables.isWord (replacement entry.1) redacted.1,
    redacted.2.record entry.1 (entry.2.findAll tables.isWord redacted.1).length)

def cardsIn (text : List Char) : List Outcome :=
  ((cardNumber tables).findAll tables.isWord text).filter fun found =>
    isCardNumber tables found.taken

/-- The card numbers are replaced; nothing is counted. -/
def redactCards (redacted : List Char × Account) : List Char × Account :=
  ((cardNumber tables).sub tables.isWord (cardSub tables) redacted.1,
    { redacted.2 with
      inserted := redacted.2.inserted ++
        List.replicate (cardsIn tables redacted.1).length "card-number" })

/-- One redaction of the operator. -/
def redactCustom (redacted : List Char × Account) (entry : String × String) : List Char × Account :=
  match compile entry.2 with
  | none => redacted
  | some subn =>
    ((subn (replacement entry.1 []) redacted.1).1,
      redacted.2.record entry.1 (subn (replacement entry.1 []) redacted.1).2)

def enabledPatterns : List (String × Pattern) :=
  (if policy.redactSecrets then secretPatterns else []) ++
    if policy.redactPii then piiPatterns tables else []

/-- The secrets and the personal data, except for card numbers. -/
def redactPatterns (text : List Char) (account : Account) : List Char × Account :=
  (enabledPatterns tables policy).foldl (redactClass tables) (text, account)

def redactText (text : List Char) (account : Account) : List Char × Account :=
  let redacted := redactPatterns tables policy text account
  policy.customRedactions.entries.foldl (redactCustom compile)
    (if policy.redactPii then redactCards tables redacted else redacted)

end

section

variable (tables : CharacterTables) (compile : String → Option Substitution) (policy : EgressPolicy)

mutual

def redactPayload : Json → Account → Json × Account
  | .string text, account =>
    let redacted := redactText tables compile policy text.toList account
    (.string (String.ofList redacted.1), redacted.2)
  | .array elements, account =>
    let redacted := redactElements elements account
    (.array redacted.1, redacted.2)
  | .object members, account =>
    let redacted := redactMembers members account
    (.object redacted.1, redacted.2)
  | payload, account => (payload, account)

def redactElements : List Json → Account → List Json × Account
  | [], account => ([], account)
  | element :: elements, account =>
    let redacted := redactPayload element account
    let others := redactElements elements redacted.2
    (redacted.1 :: others.1, others.2)

def redactMembers : List (String × Json) → Account → List (String × Json) × Account
  | [], account => ([], account)
  | (key, value) :: members, account =>
    let redacted := redactPayload value account
    let others := redactMembers members redacted.2
    ((key, redacted.1) :: others.1, others.2)

end

end

end AgenticOS.Security
