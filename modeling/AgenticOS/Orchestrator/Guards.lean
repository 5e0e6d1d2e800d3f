import Mathlib.Data.List.Infix
import Mathlib.Algebra.Order.Ring.Rat

/-!
# The output guards

What a provider returns is no proof of work: two guards look at the text before an attempt
may count. One refuses empty answers, failure reports and the diagnostics of a crashed
agent, the other binary data and echoes of the prompt.

`str.lower` depends on the Unicode tables and is a parameter.
-/

namespace AgenticOS.Orchestrator

/-- The characters that `str.strip` removes. -/
def isSpace (char : Char) : Bool :=
  let code := char.toNat
  (9 ≤ code ∧ code ≤ 13) ∨ (28 ≤ code ∧ code ≤ 32) ∨ code = 0x85 ∨ code = 0xA0 ∨
    code = 0x1680 ∨ (0x2000 ≤ code ∧ code ≤ 0x200A) ∨ code = 0x2028 ∨ code = 0x2029 ∨
    code = 0x202F ∨ code = 0x205F ∨ code = 0x3000

/-- `text.strip()`. -/
def strip (text : String) : String :=
  String.ofList (((text.toList.dropWhile isSpace).reverse.dropWhile isSpace).reverse)

/-- `part in text`. -/
def contains (text part : String) : Bool :=
  part.toList <:+: text.toList

/-- `text.split("\n")[0]`. -/
def firstLine (text : String) : String :=
  String.ofList (text.toList.takeWhile (· ≠ '\n'))

/-- `text[:length]`. -/
def truncate (text : String) (length : Nat) : String :=
  String.ofList (text.toList.take length)

def failureMarker : String := "[AGENTICOS_EXECUTION_FAILED]"

/-- What agent CLIs return when nothing was executed. -/
def errorSignatures : List String :=
  ["http 401", "401 unauthorized", "403 forbidden", "http 403", "model not found",
    "authentication failed", "exited 1:", "exited 2:", "timed out after",
    "cannot connect to api", "unable to connect", "traceback (most recent call last)",
    "command not found", "not recognized as an internal or external command",
    "stray separator"]

def firstLineSignatures : List String :=
  ["fatal error:", "command not found", "traceback (most recent", "unauthorized", "http 401"]

/-- Whether a text is an error or a diagnostic rather than the output of an execution. -/
def isErrorOutput (lower : String → String) (text : Option String) : Bool :=
  match text with
  | none => true
  | some text =>
    if text = "" ∨ strip text = "" then true
    else if contains text failureMarker then true
    else if 250 < (strip text).length ∧
        (contains text "```" ∨ contains text "\n## " ∨ contains text "\n# ") then
      firstLineSignatures.any (contains (lower (firstLine (strip text))))
    else errorSignatures.any (contains (lower text))

/-- The headings of the prompt wrapper. -/
def wrapperMarkers : List String :=
  ["CRITICAL INSTRUCTION FOR FILE CREATION", "Mission Request", "Assigned Task", "Task Title"]

/-- A control character other than tab and line ends. -/
def isControl (char : Char) : Bool :=
  char.toNat < 32 ∧ char ∉ ['\t', '\n', '\r']

/-- Whether a text is binary data or an echo of the prompt. -/
def isUnusableOutput (text : Option String) : Bool :=
  match text with
  | none => false
  | some text =>
    if text = "" then false
    else
      let sample := max 1 text.length
      let replacement := text.toList.count '\uFFFD'
      let control := text.toList.countP isControl
      if (replacement : ℚ) / sample > 1 / 10 ∨ (control : ℚ) / sample > 5 / 100 then true
      else decide (2 ≤ wrapperMarkers.countP (contains text) ∧ 200 < text.length)

def PassesGuards (lower : String → String) (text : String) : Prop :=
  isErrorOutput lower (some text) = false ∧ isUnusableOutput (some text) = false
deriving Decidable

variable {lower : String → String} {text : String}

end AgenticOS.Orchestrator
