import AgenticOS.Data.DayFiles
import AgenticOS.Data.Json
import AgenticOS.Data.SetOrder
import Mathlib.Data.Rat.Floor
import Mathlib.Data.String.Basic

/-!
# The counterfactual engine

A recorded run is what the journal holds under a correlation id. It can be forked: a prefix of it
is copied, with mutations, under a new id into the same journal. And two runs can be compared
position by position.

The journal is a file a day, of which at most 5000 entries are read. An entry is kept as it was
written, since its JSON text is read as the same values. Values are copied where Python shares
them: a mutation inside of a value that an earlier mutation has put in does not change the record
of the earlier one.

What the timestamps mean, `repr` and `str` of JSON values and the values of numerals are
parameters. The rounding of floats is not modelled.
-/

namespace AgenticOS.Swarm.Counterfactual

open JsonValue

structure EventJournalEntry where
  id : String
  eventType : String := ""
  source : String := ""
  topic : String := ""
  payload : Dict String JsonValue := .empty
  correlationId : String := ""
  sessionId : String := ""
  timestamp : String

/-- `EventEnvelope`, as far as the fork fills it in. -/
structure EventEnvelope where
  type : String
  source : String
  topic : String
  payload : Dict String JsonValue

abbrev Journal :=
  DayFiles EventJournalEntry

/-- What the code does not decide: the meaning of timestamps, texts of values, and when two
numbers are equal. -/
structure Reading where
  parseTs : String → ℚ
  repr : JsonValue → String
  str : JsonValue → String
  normal : Json.Numeral → Json

variable (reading : Reading)

/-- The order of `events.sort(key=lambda e: _parse_ts(e.get("timestamp")))`. -/
def NotLater (first second : EventJournalEntry) : Prop :=
  reading.parseTs first.timestamp ≤ reading.parseTs second.timestamp
deriving Decidable

def loadStream (journal : Journal) (correlationId : String) : List EventJournalEntry :=
  ((journal.read 5000).filter fun entry => entry.correlationId = correlationId).insertionSort
    (NotLater reading)

def integer? (numeral : Json.Numeral) : Option Int :=
  match numeral.text with
  | '-' :: digits =>
    if digits.all Char.isDigit then some (-(Nat.ofDigitChars 10 digits 0 : Int)) else none
  | digits => if digits.all Char.isDigit then some (Nat.ofDigitChars 10 digits 0 : Int) else none

/-- The value of an `int`; booleans are integers. -/
def int? (value : JsonValue) : Option Int :=
  match value.json with
  | .number numeral => integer? numeral
  | .word .true => some 1
  | .word .false => some 0
  | _ => none

/-- `bool(value)`. -/
def truthy (value : JsonValue) : Bool :=
  match value.json with
  | .word special => special ≠ .null ∧ special ≠ .false
  | .number numeral =>
    (numeral.text.takeWhile fun char => char ≠ 'e' ∧ char ≠ 'E').any
      fun char => char.isDigit ∧ char ≠ '0'
  | .string text => text ≠ ""
  | .array elements => !elements.isEmpty
  | .object members => !members.isEmpty

/-- `str(value or "")`. -/
def textOr (value : JsonValue) : String :=
  if truthy value then value.text?.getD (reading.str value) else ""

/-- `m.get(key)`. -/
def get (members : Dict String JsonValue) (key : String) : JsonValue :=
  (members.get? key).getD null

/-- `_set_nested` behind the check of the path. -/
def setNested (value : JsonValue) : List String → Dict String JsonValue → Dict String JsonValue
  | [], node => node
  | [last], node => node.set last value
  | segment :: rest, node =>
    node.set segment (object (setNested value rest ((get node segment).members?.getD .empty)))

/-- `[p for p in dotted_path.split(".") if p]`. -/
def segments (path : String) : List String :=
  ((path.toList.splitOn '.').map String.ofList).filter (· ≠ "")

def mutationOps : List String :=
  ["replace_field", "drop_event", "replace_payload"]

/-- A mutation that has passed the checks. -/
structure Mutation where
  op : String
  index : Nat
  members : Dict String JsonValue

def opMessage (mutation : JsonValue) : String :=
  "mutation op must be one of ['replace_field', 'drop_event', 'replace_payload']; got " ++
    reading.repr mutation

def indexMessage (forkAt : Int) : String :=
  s!"mutation index must be an integer in [0, {forkAt}) " ++
    "(mutations apply to the retained prefix only)"

/-- The checks that every mutation must pass first. -/
def checkMutation (forkAt : Int) (mutation : JsonValue) : Except String Mutation :=
  match mutation.members? with
  | none => .error (opMessage reading mutation)
  | some members =>
    match (get members "op").text? with
    | none => .error (opMessage reading mutation)
    | some op =>
      if op ∉ mutationOps then .error (opMessage reading mutation)
      else
        match int? (get members "index") with
        | none => .error (indexMessage forkAt)
        | some index =>
          if 0 ≤ index ∧ index < forkAt then .ok ⟨op, index.toNat, members⟩
          else .error (indexMessage forkAt)

/-- The events that are left, with their original places, and the mutations that were applied. -/
structure Prefix where
  slots : List (Nat × EventJournalEntry)
  applied : List JsonValue

def Prefix.replace (kept : Prefix) (index : Nat) (payload : Dict String JsonValue)
    (record : Dict String JsonValue) : Prefix where
  slots := kept.slots.map fun slot =>
    if slot.1 = index then (slot.1, { slot.2 with payload }) else slot
  applied := kept.applied ++ [object record]

def applyMutation (kept : Prefix) (mutation : Mutation) : Except String Prefix :=
  let index := get mutation.members "index"
  match kept.slots.find? fun slot => slot.1 = mutation.index with
  | none =>
    .error (s!"mutation {mutation.op} targets original event index " ++
      index.text?.getD (reading.str index) ++
      ", which is not part of the retained prefix (dropped or out of range)")
  | some (_, target) =>
    if mutation.op = "drop_event" then
      .ok {
        slots := kept.slots.filter fun slot => slot.1 ≠ mutation.index
        applied := kept.applied ++ [object (.ofList [("op", string mutation.op),
          ("index", index), ("dropped_event_id", string target.id)])] }
    else if mutation.op = "replace_field" then
      let path := textOr reading (get mutation.members "field_path")
      if path = "" then .error "replace_field requires field_path"
      else if segments path = [] then .error "field_path must contain at least one segment"
      else
        .ok (kept.replace mutation.index
          (setNested (get mutation.members "value") (segments path) target.payload)
          (.ofList [("op", string mutation.op), ("index", index), ("field_path", string path),
            ("value", get mutation.members "value")]))
    else
      match (get mutation.members "payload").members? with
      | none => .error "replace_payload requires a payload object"
      | some payload =>
        .ok (kept.replace mutation.index payload
          (.ofList [("op", string mutation.op), ("index", index)]))

/-- What `fork` does before it writes: the prefix of a run, mutated. -/
def prepare (correlationId : String) (events : List EventJournalEntry)
    (forkAt : Int) (mutations : List JsonValue) : Except String Prefix := do
  if events = [] then
    throw ("no recorded events for correlation_id " ++ reading.repr (string correlationId))
  if ¬ (0 ≤ forkAt ∧ forkAt ≤ events.length) then
    throw (s!"fork_at must be an integer in [0, {events.length}] " ++
      s!"(the source stream has {events.length} events)")
  let checked ← mutations.mapM (checkMutation reading forkAt)
  let retained := events.take forkAt.toNat
  checked.foldlM (applyMutation reading) ⟨retained.zipIdx.map Prod.swap, []⟩

/-! ## Forks -/

structure ForkRecord where
  forkId : String
  lineage : JsonValue
  replayed : Nat
  createdAt : ℚ

structure CounterfactualEngine where
  journal : Journal
  hasBus : Bool
  published : List EventEnvelope := []
  forks : Dict String ForkRecord := .empty

/-- What happens around a call: the ids that `uuid4` gives, the days and failures of the appends
and of the publications, what others journal before an append and after the last one, and the
time at the end. -/
structure Surroundings where
  forkId : String
  eventId : Nat → String
  day : Nat → Nat
  appendFails : Nat → Option String
  publishFails : Nat → Option String
  meanwhile : Nat → List (Nat × EventJournalEntry)
  now : ℚ

def lineage (source : String) (forkAt : Int) (events : List EventJournalEntry) (kept : Prefix) :
    JsonValue :=
  object (.ofList [
    ("source", string source),
    ("fork_at", number (.ofNat forkAt.toNat)),
    ("source_event_count", number (.ofNat events.length)),
    ("retained_prefix", number (.ofNat kept.slots.length)),
    ("mutations", array kept.applied)])

def withLineage (lineage : JsonValue) (event : EventJournalEntry) : Dict String JsonValue :=
  (event.payload.set "fork_lineage" lineage).set "fork_source_event_id" (string event.id)

def forkEntry (env : Surroundings) (lineage : JsonValue) (number : Nat)
    (event : EventJournalEntry) : EventJournalEntry where
  id := env.eventId number
  eventType := if event.eventType = "" then "unknown" else event.eventType
  source := "counterfactual-fork"
  topic := event.topic
  payload := withLineage lineage event
  correlationId := env.forkId
  sessionId := event.sessionId
  timestamp := event.timestamp

def envelope (entry : EventJournalEntry) : EventEnvelope where
  type := entry.eventType
  source := entry.source
  topic := if entry.topic = "" then "system" else entry.topic
  payload := entry.payload

variable (engine : CounterfactualEngine)

/-- `PersistenceLayer.append_journal` on the day of an append. -/
def CounterfactualEngine.append (day : Nat) (entry : EventJournalEntry) : CounterfactualEngine :=
  { engine with journal := engine.journal.append (day, entry) }

def CounterfactualEngine.others (written : List (Nat × EventJournalEntry)) : CounterfactualEngine :=
  { engine with journal := engine.journal.appendAll written }

/-- A publication on the bus. -/
def CounterfactualEngine.publish (event : EventEnvelope) : CounterfactualEngine :=
  { engine with published := engine.published ++ [event] }

/-- The loop of `fork` over the retained events, from one number on. -/
def writeAll (env : Surroundings) (lineage : JsonValue) (replays : Bool) :
    Nat → List EventJournalEntry → CounterfactualEngine → Except String Nat × CounterfactualEngine
  | number, [], engine => (.ok 0, engine.others (env.meanwhile number))
  | number, event :: events, engine =>
    match env.appendFails number with
    | some message => (.error message, engine.others (env.meanwhile number))
    | none =>
      let entry := forkEntry env lineage number event
      let written := (engine.others (env.meanwhile number)).append
        (env.day number) entry
      if replays then
        match env.publishFails number with
        | some message => (.error message, written)
        | none =>
          let rest := writeAll env lineage replays (number + 1) events
            (written.publish (envelope entry))
          (rest.1.map (· + 1), rest.2)
      else writeAll env lineage replays (number + 1) events written

def CounterfactualEngine.fork (env : Surroundings)
    (engine : CounterfactualEngine) (source : String) (forkAt : Int) (mutations : List JsonValue)
    (replay : Bool) : Except String ForkRecord × CounterfactualEngine :=
  let events := loadStream reading engine.journal source
  match prepare reading source events forkAt mutations with
  | .error message => (.error message, engine)
  | .ok kept =>
    let lineage := lineage source forkAt events kept
    match writeAll env lineage (replay && engine.hasBus) 0
        (kept.slots.map Prod.snd) engine with
    | (.error message, after) => (.error message, after)
    | (.ok replayed, after) =>
      let record : ForkRecord := ⟨env.forkId, lineage, replayed, env.now⟩
      (.ok record, { after with forks := after.forks.set record.forkId record })

structure Brief where
  index : Nat
  eventType : String
  eventId : String
  timestamp : String

def brief (index : Nat) (entry : EventJournalEntry) : Brief :=
  ⟨index, entry.eventType, entry.id, entry.timestamp⟩

structure Change where
  index : Nat
  eventType : String
  differingFields : List String
  payloadA : Dict String JsonValue
  payloadB : Dict String JsonValue

/-- What has been found at the positions so far. -/
structure Deltas where
  matched : List (Nat × String) := []
  changed : List Change := []
  onlyInA : List Brief := []
  onlyInB : List Brief := []

def differingFields (first second : Dict String JsonValue) : List String :=
  (SetOrder.sorted (first.keys ++ second.keys).toFinset).filter fun key =>
    !JsonValue.equal reading.normal (get first key) (get second key)

/-- The body of the loop of `diff`. -/
def compareAt (a b : List EventJournalEntry) (deltas : Deltas) (index : Nat) : Deltas :=
  match a[index]?, b[index]? with
  | none, none => deltas
  | none, some eventB => { deltas with onlyInB := deltas.onlyInB ++ [brief index eventB] }
  | some eventA, none => { deltas with onlyInA := deltas.onlyInA ++ [brief index eventA] }
  | some eventA, some eventB =>
    if eventA.eventType ≠ eventB.eventType then
      { deltas with
        onlyInA := deltas.onlyInA ++ [brief index eventA]
        onlyInB := deltas.onlyInB ++ [brief index eventB] }
    else if (object eventA.payload).sortedDumps = (object eventB.payload).sortedDumps then
      { deltas with matched := deltas.matched ++ [(index, eventA.eventType)] }
    else
      { deltas with changed := deltas.changed ++ [{
          index := index
          eventType := eventA.eventType
          differingFields := differingFields reading eventA.payload eventB.payload
          payloadA := eventA.payload
          payloadB := eventB.payload }] }

/-- The loop of `diff`. -/
def compareAll (a b : List EventJournalEntry) : Deltas :=
  (List.range (max a.length b.length)).foldl (compareAt reading a b) {}

def spanMs (events : List EventJournalEntry) : Option Int :=
  match events.head?, events.getLast? with
  | some first, some last =>
    let started := reading.parseTs first.timestamp
    let ended := reading.parseTs last.timestamp
    if started = 0 ∧ ended = 0 then none else some ⌊max 0 ((ended - started) * 1000)⌋
  | _, _ => none

structure Side where
  correlationId : String
  eventCount : Nat
  span : Option Int

/-- The result of `diff`; the counts of its summary are the lengths of the lists. -/
structure Diff where
  a : Side
  b : Side
  deltas : Deltas
  spanDelta : Option Int

def CounterfactualEngine.diff (idA idB : String) : Except String Diff :=
  let a := loadStream reading engine.journal idA
  let b := loadStream reading engine.journal idB
  if a = [] then .error ("no recorded events for correlation_id " ++ reading.repr (string idA))
  else if b = [] then
    .error ("no recorded events for correlation_id " ++ reading.repr (string idB))
  else
    .ok {
      a := ⟨idA, a.length, spanMs reading a⟩
      b := ⟨idB, b.length, spanMs reading b⟩
      deltas := compareAll reading a b
      spanDelta := do return (← spanMs reading b) - (← spanMs reading a) }

end AgenticOS.Swarm.Counterfactual
