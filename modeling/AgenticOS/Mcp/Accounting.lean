import AgenticOS.Mcp.Custody

/-!
# The accounts of the connection pool

No connection has two holders and no list outgrows the pool, in any run. The other promises
of the operations are not kept in every run: a release raises before it removes the record
of the connection; to close the connections of a server is to go through a list that shrinks
on the way, so that every other one is skipped; and a connection that is idle and unhealthy
takes up room, so that a call may give up while fewer connections are held than the pool
allows. They are kept in the runs in which none of this happens.
-/

namespace AgenticOS.Mcp

open Transition List Pool

/-- A connection is held by at most one caller at a time. -/
def Exclusive (system : System) : Prop :=
  ∀ conn, system.count (holds conn) ≤ 1

variable (config : MCPPoolConfig)

variable (system : System)

/-- The list of a server never exceeds `max_connections`. -/
def Bounded : Prop :=
  ∀ serverId, (system.store.poolOf serverId).length ≤ config.maxConnections

/-- Whoever waits for a lock waits for a process that is under it. -/
def Attended : Prop :=
  ∀ serverId, system.store.locked serverId →
    ∃ stage ∈ system.processes, lockOf stage = some serverId

def Returned : Prop :=
  (∀ conn error, Stage.released conn (.error error) ∉ system.processes) ∧
    ∀ conn ∈ system.store.acquireTimes.keys, system.store.inUse conn

/-- What has become of a call: who closed the connections of a server has disconnected all
of them, and who gave up did so when as many connections to the server were held as the pool
allows. -/
def Stage.Settled (store : Store) : Stage → Prop
  | .closed _ pooled _ => ∀ conn ∈ pooled, store.gone conn
  | .timedOut _ _ held => config.maxConnections ≤ held
  | _ => True

instance (store : Store) (stage : Stage) : Decidable (stage.Settled config store) :=
  match stage with
  | .closed _ pooled _ => inferInstanceAs (Decidable (∀ conn ∈ pooled, store.gone conn))
  | .timedOut _ _ held => inferInstanceAs (Decidable (config.maxConnections ≤ held))
  | .seeking _ | .expiring _ _ _ | .expired _ _ | .connecting _ | .waiting _ | .holding _
  | .released _ _ | .closing _ | .dropping _ _ _ _ | .dropped _ _ _ | .maintaining _ _
  | .sweeping _ _ | .swept _ | .maintained _ => .isTrue trivial

def Settled : Prop :=
  ∀ stage ∈ system.processes, stage.Settled config system.store

instance : Decidable (Settled config system) :=
  inferInstanceAs (Decidable (∀ stage ∈ system.processes, _))

def Unreleased : Action → Prop
  | .releaseConnection index => ∀ conn, system.processes[index]? ≠ some (.holding conn)
  | _ => True

def Serviceable (store : Store) (serverId : String) : Prop :=
  (∃ conn ∈ store.poolOf serverId, available store conn) ∨
    ∀ conn ∈ store.poolOf serverId, store.inUse conn
deriving Decidable

/-- A call does not begin to close two connections, and does not give up because of a
connection that is idle and unhealthy. -/
def Stage.Allowed (store : Store) : Stage → Prop
  | .closing serverId => store.locked serverId ∨ (store.poolOf serverId).length ≤ 1
  | .seeking request =>
    store.locked request.serverConfig.id ∨ 0 < config.acquireTimeoutSeconds ∨
      (store.poolOf request.serverConfig.id).length < config.maxConnections ∨
      Serviceable store request.serverConfig.id
  | .waiting request =>
    store.loopTime - request.startTime < config.acquireTimeoutSeconds ∨
      Serviceable store request.serverConfig.id
  | _ => True

instance (store : Store) (stage : Stage) : Decidable (stage.Allowed config store) :=
  match stage with
  | .closing serverId =>
    inferInstanceAs (Decidable (store.locked serverId ∨ (store.poolOf serverId).length ≤ 1))
  | .seeking _ => inferInstanceAs (Decidable (_ ∨ _ ∨ _ ∨ _))
  | .waiting _ => inferInstanceAs (Decidable (_ ∨ _))
  | .expiring _ _ _ | .expired _ _ | .connecting _ | .holding _ | .timedOut _ _ _
  | .released _ _ | .dropping _ _ _ _ | .dropped _ _ _ | .closed _ _ _ | .maintaining _ _
  | .sweeping _ _ | .swept _ | .maintained _ => .isTrue trivial

/-- The calls that go on are allowed to. -/
def Allowed : Action → Prop
  | .resume index => ∀ stage ∈ system.processes[index]?, stage.Allowed config system.store
  | _ => True

instance (action : Action) : Decidable (Allowed config system action) :=
  match action with
  | .resume index => inferInstanceAs (Decidable (∀ stage ∈ system.processes[index]?, _))
  | .getConnection _ | .releaseConnection _ | .closeServerConnections _ | .maintainPool
  | .recordError _ | .setConnected _ _ | .setClocks _ _ => .isTrue trivial

section

variable {config : MCPPoolConfig} {store : Store} {stage : Stage}

/-- What holds of a call that has done nothing but what it is allowed to. -/
def Stage.Regular (config : MCPPoolConfig) (store : Store) : Stage → Prop
  | .expired request _ => (store.poolOf request.serverConfig.id).length < config.maxConnections
  | .dropping serverId pooled index conn =>
    index = 0 ∧ pooled = [conn] ∧ store.poolOf serverId = [conn]
  | .dropped serverId pooled index =>
    index = 0 ∧ store.poolOf serverId = [] ∧ ∀ conn ∈ pooled, store.gone conn
  | stage => stage.Settled config store

theorem Stage.Regular.settled (regular : stage.Regular config store) :
    stage.Settled config store := by
  cases stage with
  | expired | dropping | dropped => trivial
  | _ => exact regular

theorem Stage.Regular.frame {new : Store} (regular : stage.Regular config store)
    (extension : store.Extends new) (same : ∀ serverId, lockOf stage = some serverId →
      new.poolOf serverId = store.poolOf serverId) : stage.Regular config new := by
  cases stage with
  | expired | dropping =>
    have pool := same _ rfl
    simpa only [Stage.Regular, pool] using regular
  | dropped serverId pooled index =>
    have pool := same _ rfl
    exact ⟨regular.1, pool.trans regular.2.1, fun conn member =>
      extension.gone conn (regular.2.2 conn member)⟩
  | closed serverId pooled closedCount =>
    exact fun conn member => extension.gone conn (regular conn member)
  | _ => exact regular

variable {serverId : String}

/-- Where a call gives up although it would have taken any available connection, all
connections of a full pool are in use. -/
theorem max_le_held (wellFormed : store.WellFormed config)
    (full : config.maxConnections ≤ (store.poolOf serverId).length)
    (none : ∀ conn ∈ store.poolOf serverId, available store conn = false)
    (serviceable : Serviceable store serverId) : config.maxConnections ≤ store.held serverId := by
  rcases serviceable with ⟨conn, member, isAvailable⟩ | used
  · rw [none conn member] at isAvailable
    cases isAvailable
  · exact Nat.le_trans full (Store.length_le_held (wellFormed.distinct_poolOf serverId)
      (fun _ => wellFormed.serves_of_mem) used)

theorem firstAvailable_eq_none {pool : List Nat} {start : Nat}
    (nothing : firstAvailable store pool start = none) :
    ∀ conn ∈ pool, available store conn = false := by
  induction pool generalizing start with
  | nil => simp
  | cons head pool ih =>
    unfold firstAvailable at nothing
    split at nothing
    case isTrue => cases nothing
    case isFalse unavailable =>
      intro conn member
      rcases mem_cons.mp member with rfl | later
      · exact Bool.eq_false_iff.mpr unavailable
      · exact ih nothing conn later

theorem regular_seek {request : Request} {index : Nat} (wellFormed : store.WellFormed config)
    (allowed : index = 0 ∧ (0 < config.acquireTimeoutSeconds ∨
        Serviceable store request.serverConfig.id) ∨
      (store.poolOf request.serverConfig.id).length < config.maxConnections) :
    (seek config store request index).2.Regular config (seek config store request index).1 := by
  unfold seek
  dsimp only
  split
  case h_1 =>
    split
    · trivial
    · trivial
  case h_2 nothing =>
    split
    case isTrue => trivial
    case isFalse full =>
      split
      case isTrue => trivial
      case isFalse atOnce =>
        obtain ⟨rfl, serviceable⟩ := allowed.resolve_right full
        exact max_le_held wellFormed (Nat.le_of_not_lt full)
          (firstAvailable_eq_none nothing) (serviceable.resolve_left atOnce)

theorem regular_poll {request : Request} (wellFormed : store.WellFormed config)
    (relies : Relies config store (.waiting request))
    (allowed : (Stage.waiting request).Allowed config store) :
    (poll config store request).2.Regular config (poll config store request).1 := by
  unfold poll
  dsimp only
  split
  case h_1 => trivial
  case h_2 nothing =>
    split
    case isTrue => trivial
    case isFalse late =>
      apply max_le_held wellFormed relies _ (allowed.resolve_left late)
      simpa using nothing

theorem regular_closeFrom_zero (few : (store.poolOf serverId).length ≤ 1) :
    (closeFrom store serverId (store.poolOf serverId) 0).2.Regular config
      (closeFrom store serverId (store.poolOf serverId) 0).1 := by
  unfold closeFrom
  cases pool : store.poolOf serverId with
  | nil => exact fun conn member => absurd member not_mem_nil
  | cons conn pooled =>
    rw [pool, length_cons] at few
    obtain rfl : pooled = [] := length_eq_zero_iff.mp (by omega)
    exact ⟨rfl, rfl, pool⟩

theorem regular_closeFrom_of_nil {pooled : List Nat} (index : Nat)
    (nothing : store.poolOf serverId = []) (gone : ∀ conn ∈ pooled, store.gone conn) :
    (closeFrom store serverId pooled index).2.Regular config
      (closeFrom store serverId pooled index).1 := by
  unfold closeFrom
  rw [nothing]
  exact gone

theorem regular_sweepOn (sweep : Sweep) :
    (sweepOn store sweep).2.Regular config (sweepOn store sweep).1 := by
  unfold sweepOn
  split <;> trivial

theorem regular_next (wellFormed : store.WellFormed config)
    (relies : Relies config store stage) (allowed : stage.Allowed config store)
    (regular : stage.Regular config store) :
    (next config store stage).2.Regular config (next config store stage).1 := by
  have locked {serverId : String} : store.Extends (store.lock serverId) := .of_connections rfl
  cases stage with
  | seeking request =>
    unfold next
    dsimp only
    split
    case isTrue => trivial
    case isFalse free =>
      apply regular_seek (wellFormed.of_lists locked rfl rfl)
      rcases allowed.resolve_left free with later | room | serviceable
      · exact .inl ⟨rfl, .inl later⟩
      · exact .inr room
      · exact .inl ⟨rfl, .inr serviceable⟩
  | expiring request index conn =>
    have serves := wellFormed.serves_of_mem relies
    have pool := poolOf_removeConnection serves request.serverConfig.id
    have bounded := wellFormed.bounded request.serverConfig.id
    have some : 0 < (store.poolOf request.serverConfig.id).length := length_pos_of_mem relies
    show ((removeConnection store conn).poolOf request.serverConfig.id).length < _
    rw [pool, if_pos rfl, length_erase_of_mem relies]
    omega
  | expired request index => exact regular_seek wellFormed (.inr regular)
  | connecting | sweeping => trivial
  | waiting request => exact regular_poll wellFormed relies allowed
  | closing serverId =>
    unfold next
    dsimp only
    split
    case isTrue => trivial
    case isFalse free =>
      have few : ((store.lock serverId).poolOf serverId).length ≤ 1 := allowed.resolve_left free
      exact regular_closeFrom_zero few
  | dropping serverId pooled index conn =>
    obtain ⟨rfl, rfl, only⟩ := regular
    refine ⟨rfl, ?_, ?_⟩
    · show (removeConnection store conn).poolOf serverId = []
      rw [poolOf_removeConnection relies, if_pos rfl, only]
      simp
    · intro other member
      obtain rfl := mem_singleton.mp member
      exact gone_removeConnection relies
  | dropped serverId pooled index =>
    exact regular_closeFrom_of_nil (index + 1) regular.2.1 regular.2.2
  | maintaining remaining closed =>
    cases remaining with
    | nil => trivial
    | cons entry remaining =>
      unfold next
      dsimp only
      split
      case isTrue => trivial
      case isFalse => exact regular_sweepOn _
  | swept sweep => exact regular_sweepOn sweep
  | _ => exact regular

/-- The only record that a continuation adds is the one of a connection it takes, and it
releases none. -/
structure Recording (store : Store) (after : Store × Stage) : Prop where
  records : ∀ conn ∈ after.1.acquireTimes.keys, conn ∈ store.acquireTimes.keys ∨ holds conn after.2
  unreleased : ∀ conn outcome, after.2 ≠ .released conn outcome

theorem Recording.of_same {after : Store × Stage} (same : after.1.acquireTimes = store.acquireTimes)
    (unreleased : ∀ conn outcome, after.2 ≠ .released conn outcome) : Recording store after where
  records conn member := by
    rw [same] at member
    exact .inl member
  unreleased := unreleased

theorem Recording.after {new : Store} {after : Store × Stage} (recording : Recording new after)
    (same : new.acquireTimes = store.acquireTimes) : Recording store after where
  records conn member := by
    rw [← same]
    exact recording.records conn member
  unreleased := recording.unreleased

section

variable (store : Store)

theorem recording_take (request : Request) (conn : Nat) :
    Recording store (take store request conn) where
  records other member := by
    rcases Dict.mem_keys_set.mp member with rfl | old
    · exact .inr (by simp [take, holds])
    · exact .inl old
  unreleased := nofun

theorem recording_seek (request : Request) (index : Nat) :
    Recording store (seek config store request index) := by
  unfold seek
  dsimp only
  split
  case h_1 =>
    split
    · exact .of_same rfl nofun
    · exact recording_take store request _
  case h_2 =>
    split
    · exact .of_same rfl nofun
    · split
      · exact .of_same rfl nofun
      · exact .of_same rfl nofun

theorem recording_poll (request : Request) : Recording store (poll config store request) := by
  unfold poll
  dsimp only
  split
  · exact recording_take store request _
  · split
    · exact .of_same rfl nofun
    · exact .of_same rfl nofun

theorem recording_closeFrom (serverId : String) (pooled : List Nat) (index : Nat) :
    Recording store (closeFrom store serverId pooled index) := by
  unfold closeFrom
  split
  · exact .of_same rfl nofun
  · exact .of_same rfl nofun

theorem recording_sweepOn (sweep : Sweep) : Recording store (sweepOn store sweep) := by
  unfold sweepOn
  split
  · exact .of_same rfl nofun
  · exact .of_same rfl nofun

theorem acquireTimes_removeConnection (conn : Nat) :
    (removeConnection store conn).acquireTimes = store.acquireTimes := by
  unfold removeConnection
  split
  · rfl
  · rfl

end

theorem recording_next (unreleased : ∀ conn outcome, stage ≠ .released conn outcome) :
    Recording store (next config store stage) := by
  cases stage with
  | seeking request =>
    unfold next
    dsimp only
    split
    · exact .of_same rfl nofun
    · exact (recording_seek (store.lock request.serverConfig.id) request 0).after rfl
  | expiring request index conn => exact .of_same (acquireTimes_removeConnection store conn) nofun
  | expired request index => exact recording_seek store request (index + 1)
  | connecting request => exact (recording_take _ request store.connections.length).after rfl
  | waiting request => exact recording_poll store request
  | closing serverId =>
    unfold next
    dsimp only
    split
    · exact .of_same rfl nofun
    · exact (recording_closeFrom (store.lock serverId) serverId _ 0).after rfl
  | dropping serverId pooled index conn =>
    exact .of_same (acquireTimes_removeConnection store conn) nofun
  | dropped serverId pooled index => exact recording_closeFrom store serverId pooled (index + 1)
  | maintaining remaining closed =>
    cases remaining with
    | nil => exact .of_same rfl nofun
    | cons entry remaining =>
      unfold next
      dsimp only
      split
      · exact .of_same rfl nofun
      · exact (recording_sweepOn (store.lock entry.1) _).after rfl
  | sweeping sweep conn => exact .of_same (acquireTimes_removeConnection store conn) nofun
  | swept sweep => exact recording_sweepOn store sweep
  | released conn outcome => exact absurd rfl (unreleased conn outcome)
  | _ => exact .of_same rfl nofun

theorem inUse_next {conn : Nat} (continues : Continues config store stage (next config store stage))
    (own : holds conn stage → store.inUse conn)
    (used : store.inUse conn ∨ holds conn (next config store stage).2) :
    (next config store stage).1.inUse conn := by
  have usage := continues.usage conn
  have keeps : holds conn stage → holds conn (next config store stage).2 := by
    intro holding
    cases stage with
    | holding held => exact holding
    | _ => simp [holds] at holding
  by_contra idle
  rw [if_neg idle] at usage
  by_cases holding : holds conn stage
  · rw [if_pos holding, if_pos (keeps holding), if_pos (own holding)] at usage
    omega
  · rcases used with inUse | taken
    · rw [if_neg holding, if_pos inUse] at usage
      omega
    · rw [if_neg holding, if_pos taken] at usage
      omega

end

/-! ## Runs -/

section

variable {config : MCPPoolConfig} {system : System}

theorem Custody.exclusive (custody : Custody config system) : Exclusive system := by
  intro conn
  rw [custody.usage conn]
  split <;> simp

theorem Custody.attended (custody : Custody config system) : Attended system := by
  intro serverId taken
  have one := custody.locking serverId
  rw [if_pos taken] at one
  have some : 0 < system.processes.countP fun stage => lockOf stage = some serverId :=
    Nat.lt_of_lt_of_eq Nat.zero_lt_one one.symm
  obtain ⟨stage, member, under⟩ := countP_pos_iff.mp some
  exact ⟨stage, member, of_decide_eq_true under⟩

/-- The calls have only done what they are allowed to. -/
structure Regular (config : MCPPoolConfig) (system : System) : Prop where
  custody : Custody config system
  stages : ∀ stage ∈ system.processes, stage.Regular config system.store

theorem Regular.settled (regular : Regular config system) : Settled config system :=
  fun stage member => (regular.stages stage member).settled

theorem regular_begin (config : MCPPoolConfig) : Regular config begin where
  custody := custody_begin config
  stages _ member := absurd member not_mem_nil

section

variable (regular : Regular config system)
include regular

theorem Regular.resume {next : Store → Stage → Store × Stage} (index : Nat)
    (continues : ∀ stage ∈ system.processes,
      Continues config system.store stage (next system.store stage))
    (stays : ∀ stage, system.processes[index]? = some stage →
      stage.Regular config system.store →
      (next system.store stage).2.Regular config (next system.store stage).1) :
    Regular config (system.resume next index) where
  custody := regular.custody.resume index continues
  stages := by
    have frame : ∀ position stage other, system.processes[index]? = some stage →
        system.processes[position]? = some other → index ≠ position →
        other.Regular config system.store →
        other.Regular config (next system.store stage).1 := by
      intro position stage other atIndex atPosition distinct holds
      have effect := continues stage (mem_of_getElem? atIndex)
      exact holds.frame effect.extension (regular.custody.frame effect atIndex atPosition distinct)
    exact resume_framed index stays frame regular.stages

theorem Regular.spawn {stage : Stage} (custody : Custody config (system.spawn system.store stage))
    (called : stage.Regular config system.store) :
    Regular config (system.spawn system.store stage) where
  custody := custody
  stages := spawn_invariant system.store regular.stages called

theorem Regular.outside {store : Store} (custody : Custody config { system with store })
    (extension : system.store.Extends store) (pools : store.poolOf = system.store.poolOf) :
    Regular config { system with store } where
  custody := custody
  stages stage member :=
    (regular.stages stage member).frame extension fun serverId _ => congrFun pools serverId

theorem Regular.step (action : Action) (allowed : Allowed config system action) :
    Regular config (step config system action) := by
  have custody := regular.custody.step action
  cases action with
  | releaseConnection index =>
    apply regular.resume index fun stage => regular.custody.continuesRelease
    intro stage _ holds
    cases stage with
    | holding conn => trivial
    | _ => exact holds
  | resume index =>
    apply regular.resume index fun stage => regular.custody.continues
    intro stage atIndex
    exact regular_next regular.custody.wellFormed
      (regular.custody.relies stage (mem_of_getElem? atIndex)) (allowed stage atIndex)
  | recordError conn =>
    exact regular.outside custody (system.store.extends_modify conn (fun _ => rfl) fun _ => id) rfl
  | setConnected conn isConnected =>
    exact regular.outside custody (system.store.extends_modify conn (fun _ => rfl) fun _ => id) rfl
  | setClocks now loopTime => exact regular.outside custody (.of_connections rfl) rfl
  | _ => exact regular.spawn custody trivial

end

/-! ### Releases -/

theorem Returned.resume (returned : Returned system) (custody : Custody config system)
    (index : Nat) : Returned (system.resume (next config) index) := by
  cases lookup : system.processes[index]? with
  | none =>
    rw [resume_of_none lookup]
    exact returned
  | some stage =>
    by_cases isReleased : ∃ conn outcome, stage = .released conn outcome
    · obtain ⟨conn, outcome, rfl⟩ := isReleased
      rw [resume_of_over]
      · exact returned
      · intro stage atIndex
        cases lookup.symm.trans atIndex
        rfl
    · have recording : Recording system.store (next config system.store stage) :=
        recording_next fun conn outcome same => isReleased ⟨conn, outcome, same⟩
      have present := mem_of_getElem? lookup
      rw [resume_of_some lookup]
      constructor
      · intro conn error member
        rcases mem_or_eq_of_mem_set member with old | new
        · exact returned.1 conn error old
        · exact recording.unreleased conn _ new.symm
      · intro conn member
        apply inUse_next (custody.continues present) (custody.used present)
        exact (recording.records conn member).imp_left (returned.2 conn)

theorem Returned.spawn (returned : Returned system) {stage : Stage}
    (called : ∀ conn error, stage ≠ .released conn (.error error)) :
    Returned (system.spawn system.store stage) := by
  constructor
  · intro conn error member
    rcases mem_append.mp member with old | new
    · exact returned.1 conn error old
    · exact called conn error (mem_singleton.mp new).symm
  · exact returned.2

theorem returned_step_iff (custody : Custody config system) (returned : Returned system)
    (action : Action) : Returned (step config system action) ↔ Unreleased system action := by
  cases action with
  | releaseConnection index =>
    constructor
    · rintro returned conn holding
      have raised : .released conn (.error "unhashable type: 'MCPConnection'") ∈
          (system.resume release index).processes := by
        rw [resume_of_some holding]
        exact mem_set (List.getElem?_eq_some_iff.mp holding).1 _
      exact returned.1 conn _ raised
    · intro unreleased
      have idle : system.resume release index = system := by
        apply resume_of_over
        intro stage atIndex
        cases stage with
        | holding conn => exact absurd atIndex (unreleased conn)
        | _ => rfl
      show Returned (system.resume release index)
      rw [idle]
      exact returned
  | resume index => exact iff_of_true (returned.resume custody index) trivial
  | recordError conn =>
    refine iff_of_true ⟨returned.1, fun other member => ?_⟩ trivial
    rw [← returned.2 other member]
    exact system.store.has_modify_of_comp rfl conn other
  | setConnected conn isConnected =>
    refine iff_of_true ⟨returned.1, fun other member => ?_⟩ trivial
    rw [← returned.2 other member]
    exact system.store.has_modify_of_comp rfl conn other
  | setClocks now loopTime => exact iff_of_true returned trivial
  | _ => exact iff_of_true (returned.spawn nofun) trivial

/-- In every run each connection has at most one holder, each list is within the pool, and
each lock that is taken belongs to a process. All releases return if and only if there are
none. In a run in which no call begins to close two connections and none gives up because of
a connection that is idle and unhealthy, who closes disconnects all connections, and who
gives up does so when as many are held as the pool allows. -/
theorem pool_accounting (config : MCPPoolConfig) (actions : List Action) :
    Always (step config) (fun system =>
      Exclusive system ∧ Bounded config system ∧ Attended system) begin actions ∧
    (Always (step config) Returned begin actions ↔ Along (step config) Unreleased begin actions) ∧
    (Along (step config) (Allowed config) begin actions →
      Always (step config) (Settled config) begin actions) := by
  refine ⟨?_, ?_, ?_⟩
  · intro done _
    have custody : Custody config (run (step config) begin done) :=
      run_invariant (Custody config) (fun _ action custody => custody.step action)
        (custody_begin config) done
    exact ⟨custody.exclusive, custody.wellFormed.bounded, custody.attended⟩
  · apply always_iff_along (Custody config)
    · exact fun _ action custody _ _ => custody.step action
    · exact fun _ action custody returned => returned_step_iff custody returned action
    · exact custody_begin config
    · exact ⟨fun _ _ => not_mem_nil, fun _ member => absurd member not_mem_nil⟩
  · intro along done earlier
    have regular : Regular config (run (step config) begin done) :=
      (along.of_prefix earlier).invariant (fun _ action regular => regular.step action)
        (regular_begin config)
    exact regular.settled

end

def sampleServer : MCPServerConfig where
  id := "files"
  name := "File server"

def releasing : List Action :=
  [.getConnection sampleServer, .resume 0, .resume 0, .releaseConnection 0]

def closingTwo : List Action :=
  [.getConnection sampleServer, .resume 0, .resume 0,
    .getConnection sampleServer, .resume 1, .resume 1,
    .closeServerConnections "files", .resume 2, .resume 2, .resume 2]

/-- The only connection is released and loses its client; the next call gives up. -/
def givingUp : List Action :=
  releasing ++ [.setConnected 0 false, .getConnection sampleServer, .resume 1,
    .setClocks 31 31, .resume 1]

/-- A call gives up while the only connection is held, and then it is closed. -/
def closingOne : List Action :=
  [.getConnection sampleServer, .resume 0, .resume 0,
    .getConnection sampleServer, .resume 1, .setClocks 31 31, .resume 1,
    .closeServerConnections "files", .resume 2, .resume 2, .resume 2]

theorem closingOne_settled :
    Along (step { maxConnections := 1 }) (Allowed { maxConnections := 1 }) begin closingOne ∧
    Always (step { maxConnections := 1 }) (Settled { maxConnections := 1 }) begin closingOne := by
  have allowed : Along (step { maxConnections := 1 }) (Allowed { maxConnections := 1 }) begin
      closingOne := by decide +kernel
  exact ⟨allowed, (pool_accounting { maxConnections := 1 } closingOne).2.2 allowed⟩

/-- A release raises, a connection remains when those of its server have been closed, and a
call gives up although no connection is held. -/
theorem accounts_wrong :
    ¬ Always (step {}) Returned begin releasing ∧
    ¬ Always (step {}) (Settled {}) begin closingTwo ∧
    ¬ Always (step { maxConnections := 1 }) (Settled { maxConnections := 1 }) begin
      givingUp := by
  refine ⟨?_, ?_, ?_⟩
  · intro always
    have raised : .released 0 (.error "unhashable type: 'MCPConnection'") ∈
        (run (step {}) begin releasing).processes := mem_singleton.mpr rfl
    exact always.last.1 0 _ raised
  · intro always
    have settled := always.last
    revert settled
    decide +kernel
  · intro always
    have settled := always.last
    revert settled
    decide +kernel

end AgenticOS.Mcp
