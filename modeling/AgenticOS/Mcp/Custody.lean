import AgenticOS.Mcp.Pool

/-!
# Who holds a connection, and who holds a lock

In every run a connection is in use exactly if one caller holds it, and a lock is taken
exactly if one process is under it. So what a process under a lock knows of the list of its
server, no other process changes, and no list outgrows the pool.

One continuation is described once, by what it does to the store and to the lock of its
process; the invariants of runs follow from this description.
-/

namespace AgenticOS.Mcp

open Transition List Pool

theorem countP_eq_length_positions {α : Type} (property : α → Bool) (items : List α) :
    items.countP property =
      ((List.range items.length).filter fun index => (items[index]?).any property).length := by
  induction items using List.reverseRecOn with
  | nil => rfl
  | append_singleton items last ih =>
    have earlier : (List.range items.length).filter (fun index =>
        ((items ++ [last])[index]?).any property) =
        (List.range items.length).filter fun index => (items[index]?).any property := by
      apply filter_congr
      intro index member
      rw [getElem?_append_left (mem_range.mp member)]
    rw [countP_append, length_append, length_singleton, range_succ,
      filter_append, length_append, earlier, ih]
    by_cases holds : property last <;> simp [holds]

namespace Store

@[simp]
theorem poolOf_modify (store : Store) (conn : Nat) (change : MCPConnection → MCPConnection) :
    (store.modify conn change).poolOf = store.poolOf :=
  rfl

section

variable (store : Store) (serverId : String)

@[simp]
theorem poolOf_lock : (store.lock serverId).poolOf = store.poolOf :=
  rfl

@[simp]
theorem poolOf_unlock : (store.unlock serverId).poolOf = store.poolOf :=
  rfl

theorem poolOf_setPool (pool : List Nat) (other : String) :
    (store.setPool serverId pool).poolOf other =
      if other = serverId then pool else store.poolOf other := by
  by_cases same : other = serverId
  · simp [poolOf, setPool, same]
  · simp [poolOf, setPool, same, Dict.get?_set_ne _ same]

theorem poolOf_resetPool (other : String) : (store.resetPool serverId).poolOf other =
      if other = serverId then [] else store.poolOf other := by
  by_cases same : other = serverId
  · simp [poolOf, resetPool, same]
  · simp [poolOf, resetPool, same, Dict.get?_set_ne _ same]

end

theorem has_modify (store : Store) (conn other : Nat)
    (change : MCPConnection → MCPConnection) (property : MCPConnection → Bool) :
    (store.modify conn change).has other property =
      store.has other (if conn = other then property ∘ change else property) := by
  unfold has modify
  rw [getElem?_modify]
  by_cases same : conn = other
  · cases store.connections[other]? <;> simp [same]
  · simp [same]

variable {change : MCPConnection → MCPConnection}

theorem has_modify_of_comp {property : MCPConnection → Bool}
    (untouched : property ∘ change = property) (store : Store) (conn other : Nat) :
    (store.modify conn change).has other property = store.has other property := by
  rw [has_modify, untouched, ite_self]

theorem has_of_imp {store : Store} {conn : Nat} {property implied : MCPConnection → Bool}
    (implies : ∀ connection, property connection → implied connection)
    (holds : store.has conn property) : store.has conn implied := by
  obtain ⟨connection, lookup, holds⟩ := (Option.any_eq_true _ _).mp holds
  exact (Option.any_eq_true _ _).mpr ⟨connection, lookup, implies connection holds⟩

abbrev inUse (store : Store) (conn : Nat) : Bool :=
  store.has conn MCPConnection.inUse

abbrev serves (store : Store) (serverId : String) (conn : Nat) : Bool :=
  store.has conn fun connection => connection.serverId = serverId

abbrev gone (store : Store) (conn : Nat) : Bool :=
  store.has conn MCPConnection.disconnected

/-- Connections stay connections to their servers, and disconnected. -/
structure Extends (old new : Store) : Prop where
  serves : ∀ serverId conn, old.serves serverId conn → new.serves serverId conn
  gone : ∀ conn, old.gone conn → new.gone conn

theorem Extends.refl (store : Store) : store.Extends store where
  serves _ _ := id
  gone _ := id

theorem Extends.trans {first second third : Store} (left : first.Extends second)
    (right : second.Extends third) : first.Extends third where
  serves serverId conn holds := right.serves serverId conn (left.serves serverId conn holds)
  gone conn holds := right.gone conn (left.gone conn holds)

theorem Extends.of_connections {old new : Store} (same : new.connections = old.connections) :
    old.Extends new where
  serves serverId conn holds := by
    unfold Store.serves has at holds ⊢
    rw [same]
    exact holds
  gone conn holds := by
    unfold Store.gone has at holds ⊢
    rw [same]
    exact holds

section

variable (store : Store)

theorem extends_modify (conn : Nat)
    (keepsServer : ∀ connection, (change connection).serverId = connection.serverId)
    (keepsGone : ∀ connection, connection.disconnected → (change connection).disconnected) :
    store.Extends (store.modify conn change) where
  serves serverId other holds := by
    unfold Store.serves at holds ⊢
    rw [has_modify]
    split
    · exact has_of_imp (fun connection => by simp [keepsServer]) holds
    · exact holds
  gone other holds := by
    unfold Store.gone at holds ⊢
    rw [has_modify]
    split
    · exact has_of_imp keepsGone holds
    · exact holds

theorem has_add (connection : MCPConnection) (property : MCPConnection → Bool) (other : Nat) :
    (store.add connection).has other property =
      if other = store.connections.length then property connection
      else store.has other property := by
  unfold has add
  split
  case isTrue new => simp [new]
  case isFalse old =>
    rcases Nat.lt_or_gt_of_ne old with inside | outside
    · rw [getElem?_append_left inside]
    · have beyond : (store.connections ++ [connection]).length ≤ other := by
        rw [length_append, length_singleton]
        exact outside
      rw [getElem?_eq_none beyond, getElem?_eq_none (Nat.le_of_lt outside)]

theorem has_length (property : MCPConnection → Bool) :
    store.has store.connections.length property = false := by
  simp [has]

theorem extends_add (connection : MCPConnection) : store.Extends (store.add connection) where
  serves serverId conn holds := by
    unfold Store.serves at holds ⊢
    rw [has_add, if_neg, holds]
    rintro rfl
    simp [has_length] at holds
  gone conn holds := by
    unfold Store.gone at holds ⊢
    rw [has_add, if_neg, holds]
    rintro rfl
    simp [has_length] at holds

theorem inUse_add {connection : MCPConnection} (idle : connection.inUse = false) (other : Nat) :
    (store.add connection).inUse other = store.inUse other := by
  unfold Store.inUse
  rw [has_add]
  split
  case isTrue new => rw [new, has_length, idle]
  case isFalse => rfl

end

variable {serverId : String}

theorem length_le_held {store : Store} {pool : List Nat} (distinct : pool.Nodup)
    (serving : ∀ conn ∈ pool, store.serves serverId conn) (used : ∀ conn ∈ pool, store.inUse conn) :
    pool.length ≤ store.held serverId := by
  unfold held
  rw [countP_eq_length_positions]
  apply distinct.length_le_of_subset
  intro conn member
  have serves := serving conn member
  have inUse := used conn member
  unfold Store.serves Store.inUse has at *
  cases lookup : store.connections[conn]? with
  | none => simp [lookup] at inUse
  | some connection =>
    have inside := (List.getElem?_eq_some_iff.mp lookup).1
    simp_all

/-- The lists have distinct connections, each to the server of its list, and the current
ones are within the pool. -/
structure WellFormed (config : MCPPoolConfig) (store : Store) : Prop where
  distinct : ∀ serverId number, (store.lists serverId number).Nodup
  serving : ∀ serverId number, ∀ conn ∈ store.lists serverId number, store.serves serverId conn
  bounded : ∀ serverId, (store.poolOf serverId).length ≤ config.maxConnections

variable {config : MCPPoolConfig} {store : Store}

section

variable (wellFormed : store.WellFormed config)
include wellFormed

theorem WellFormed.distinct_poolOf (serverId : String) : (store.poolOf serverId).Nodup := by
  unfold poolOf
  cases store.pools.get? serverId with
  | none => exact nodup_nil
  | some number => exact wellFormed.distinct serverId number

theorem WellFormed.serves_of_mem {conn : Nat} (member : conn ∈ store.poolOf serverId) :
    store.serves serverId conn := by
  unfold poolOf at member
  cases current : store.pools.get? serverId with
  | none => simp [current] at member
  | some number =>
    rw [current] at member
    exact wellFormed.serving serverId number conn member

theorem WellFormed.of_lists {new : Store} (extension : store.Extends new)
    (lists : new.lists = store.lists) (pools : new.poolOf = store.poolOf) :
    new.WellFormed config where
  distinct serverId number := by
    rw [lists]
    exact wellFormed.distinct serverId number
  serving serverId number conn member := by
    rw [lists] at member
    exact extension.serves serverId conn (wellFormed.serving serverId number conn member)
  bounded serverId := by
    rw [pools]
    exact wellFormed.bounded serverId

theorem WellFormed.update {new : Store} {number : Nat} {pool : List Nat}
    (extension : store.Extends new) (lists : new.lists = fun server other =>
      if server = serverId ∧ other = number then pool else store.lists server other)
    (pools : ∀ server, new.poolOf server =
      if server = serverId then pool else store.poolOf server) (distinct : pool.Nodup)
    (serving : ∀ conn ∈ pool, store.serves serverId conn)
    (bounded : pool.length ≤ config.maxConnections) : new.WellFormed config where
  distinct server other := by
    rw [lists]
    dsimp only
    split
    · exact distinct
    · exact wellFormed.distinct server other
  serving server other conn member := by
    apply extension.serves
    rw [lists] at member
    dsimp only at member
    split at member
    case isTrue same =>
      rw [same.1]
      exact serving conn member
    case isFalse => exact wellFormed.serving server other conn member
  bounded server := by
    rw [pools]
    split
    · exact bounded
    · exact wellFormed.bounded server

theorem WellFormed.setPool {pool : List Nat} (distinct : pool.Nodup)
    (serving : ∀ conn ∈ pool, store.serves serverId conn)
    (bounded : pool.length ≤ config.maxConnections) :
    (store.setPool serverId pool).WellFormed config :=
  wellFormed.update (.of_connections rfl) rfl (store.poolOf_setPool serverId pool) distinct
    serving bounded

theorem WellFormed.resetPool (serverId : String) : (store.resetPool serverId).WellFormed config :=
  wellFormed.update (.of_connections rfl) rfl (store.poolOf_resetPool serverId) nodup_nil
    (by simp) (Nat.zero_le _)

end

end Store

/-! ## What a process knows -/

/-- The lock that a process is under. -/
def lockOf : Stage → Option String
  | .expiring request _ _ | .expired request _ | .connecting request | .waiting request =>
    some request.serverConfig.id
  | .dropping serverId _ _ _ | .dropped serverId _ _ => some serverId
  | .sweeping sweep _ | .swept sweep => some sweep.serverId
  | _ => none

/-- A process holds a connection. -/
def holds (conn : Nat) : Stage → Bool
  | .holding held => held = conn
  | _ => false

/-- What a process relies on while it is suspended. -/
def Relies (config : MCPPoolConfig) (store : Store) : Stage → Prop
  | .expiring request _ conn => conn ∈ store.poolOf request.serverConfig.id
  | .connecting request => (store.poolOf request.serverConfig.id).length < config.maxConnections
  | .waiting request => config.maxConnections ≤ (store.poolOf request.serverConfig.id).length
  | .dropping serverId _ _ conn => store.serves serverId conn
  | .sweeping sweep conn =>
    store.serves sweep.serverId conn ∧ ∀ conn ∈ sweep.toClose, store.serves sweep.serverId conn
  | .swept sweep => ∀ conn ∈ sweep.toClose, store.serves sweep.serverId conn
  | _ => True

/-- What a continuation does. Connections stay what they are; the lists under the locks of
other processes stay as well, and all lists remain well formed; a lock is taken or left and
a connection taken into use as the suspended process shows, and what that process relies on
is so. -/
structure Effect (config : MCPPoolConfig) (store : Store) (lock : Option String)
    (after : Store × Stage) : Prop where
  extension : store.Extends after.1
  frame : ∀ serverId, store.locked serverId → lock ≠ some serverId →
    after.1.poolOf serverId = store.poolOf serverId
  wellFormed : after.1.WellFormed config
  locking : ∀ serverId, (if after.1.locked serverId then 1 else 0) +
    (if lock = some serverId then 1 else 0) = (if store.locked serverId then 1 else 0) +
      if lockOf after.2 = some serverId then 1 else 0
  usage : ∀ conn, (if after.1.inUse conn then 1 else 0) =
    (if store.inUse conn then 1 else 0) + if holds conn after.2 then 1 else 0
  relies : Relies config after.1 after.2

namespace Effect

variable {config : MCPPoolConfig} {store new : Store} {serverId : String} {stage : Stage}

theorem of_kept {lock : Option String} (extension : store.Extends new)
    (frame : ∀ server, lock ≠ some server → new.poolOf server = store.poolOf server)
    (wellFormed : new.WellFormed config) (locked : new.locked = store.locked)
    (under : lockOf stage = lock) (used : ∀ conn, new.inUse conn = store.inUse conn)
    (holdsNone : ∀ conn, holds conn stage = false) (relies : Relies config new stage) :
    Effect config store lock (new, stage) where
  extension := extension
  frame server _ other := frame server other
  wellFormed := wellFormed
  locking server := by rw [locked, under]
  usage conn := by simp [used, holdsNone]
  relies := relies

theorem of_left (taken : store.locked serverId) (extension : store.Extends new)
    (frame : ∀ server, some serverId ≠ some server → new.poolOf server = store.poolOf server)
    (wellFormed : new.WellFormed config) (locked : new.locked = (store.unlock serverId).locked)
    (free : lockOf stage = none) (usage : ∀ conn, (if new.inUse conn then 1 else 0) =
      (if store.inUse conn then 1 else 0) + if holds conn stage then 1 else 0)
    (relies : Relies config new stage) : Effect config store (some serverId) (new, stage) where
  extension := extension
  frame server _ other := frame server other
  wellFormed := wellFormed
  locking server := by
    rw [locked, free]
    by_cases same : server = serverId
    · simp [Store.unlock, same, taken]
    · simp [Store.unlock, same, Ne.symm same]
  usage := usage
  relies := relies

theorem of_lock {after : Store × Stage} (free : store.locked serverId = false)
    (effect : Effect config (store.lock serverId) (some serverId) after) :
    Effect config store none after where
  extension := by
    have locked : store.Extends (store.lock serverId) := .of_connections rfl
    exact locked.trans effect.extension
  frame server taken _ := by
    have other : server ≠ serverId := by
      rintro rfl
      simp [free] at taken
    exact effect.frame server (by simp [Store.lock, taken]) (by simp [Ne.symm other])
  wellFormed := effect.wellFormed
  locking server := by
    have balance := effect.locking server
    by_cases same : server = serverId
    · subst same
      simp only [Store.lock, ↓reduceIte, free] at balance ⊢
      simp only [reduceCtorEq, Bool.false_eq_true, ↓reduceIte]
      omega
    · simpa [Store.lock, same, Ne.symm same] using balance
  usage := effect.usage
  relies := effect.relies

theorem after {after : Store × Stage} (extension : store.Extends new)
    (frame : ∀ server, some serverId ≠ some server → new.poolOf server = store.poolOf server)
    (locked : new.locked = store.locked) (used : ∀ conn, new.inUse conn = store.inUse conn)
    (effect : Effect config new (some serverId) after) :
    Effect config store (some serverId) after where
  extension := extension.trans effect.extension
  frame server taken other := by
    rw [effect.frame server (by rw [locked]; exact taken) other, frame server other]
  wellFormed := effect.wellFormed
  locking server := by
    rw [effect.locking server, locked]
  usage conn := by
    rw [effect.usage conn, used conn]
  relies := effect.relies

end Effect

section

variable {config : MCPPoolConfig} {store : Store}

theorem extends_disconnect (store : Store) (conn : Nat) : store.Extends (disconnect store conn) :=
  store.extends_modify conn (fun _ => rfl) fun _ => id

theorem inUse_disconnect (store : Store) (conn other : Nat) :
    (disconnect store conn).inUse other = store.inUse other :=
  store.has_modify_of_comp rfl conn other

variable {conn : Nat}

theorem effect_disconnect {lock : Option String} {stage : Stage}
    (wellFormed : store.WellFormed config) (under : lockOf stage = lock)
    (holdsNone : ∀ conn, holds conn stage = false)
    (relies : Relies config (disconnect store conn) stage) :
    Effect config store lock (disconnect store conn, stage) :=
  .of_kept (extends_disconnect store conn) (fun _ _ => rfl)
    (wellFormed.of_lists (extends_disconnect store conn) rfl rfl) rfl under
    (inUse_disconnect store conn) holdsNone relies

theorem extends_markGone (store : Store) (conn : Nat) :
    store.Extends (store.modify conn fun connection =>
      { connection with disconnected := true }) :=
  store.extends_modify conn (fun _ => rfl) fun _ _ => rfl

theorem extends_removeConnection (store : Store) (conn : Nat) :
    store.Extends (removeConnection store conn) := by
  unfold removeConnection
  split
  · exact .refl store
  · exact (extends_markGone store conn).trans (.of_connections rfl)

theorem wellFormed_removeConnection (wellFormed : store.WellFormed config) (conn : Nat) :
    (removeConnection store conn).WellFormed config := by
  unfold removeConnection
  split
  · exact wellFormed
  · next connection _ =>
      have marked := wellFormed.of_lists (extends_markGone store conn) rfl rfl
      apply marked.setPool
      · exact (wellFormed.distinct_poolOf connection.serverId).erase conn
      · intro other member
        exact marked.serves_of_mem (mem_of_mem_erase member)
      · exact Nat.le_trans length_erase_le (wellFormed.bounded connection.serverId)

variable {serverId : String}

theorem gone_removeConnection (serves : store.serves serverId conn) :
    (removeConnection store conn).gone conn := by
  unfold removeConnection
  unfold Store.serves Store.has at serves
  cases lookup : store.connections[conn]? with
  | none => simp [lookup] at serves
  | some connection => simp [Store.gone, Store.has, Store.setPool, Store.modify, lookup]

theorem poolOf_removeConnection (serves : store.serves serverId conn) (other : String) :
    (removeConnection store conn).poolOf other =
      if other = serverId then (store.poolOf serverId).erase conn else store.poolOf other := by
  unfold removeConnection
  unfold Store.serves Store.has at serves
  cases lookup : store.connections[conn]? with
  | none => simp [lookup] at serves
  | some connection =>
    obtain rfl : connection.serverId = serverId := by simpa [lookup] using serves
    rw [Store.poolOf_setPool, Store.poolOf_modify]

theorem effect_removeConnection {stage : Stage} (wellFormed : store.WellFormed config)
    (serves : store.serves serverId conn) (under : lockOf stage = some serverId)
    (holdsNone : ∀ conn, holds conn stage = false)
    (relies : Relies config (removeConnection store conn) stage) :
    Effect config store (some serverId) (removeConnection store conn, stage) := by
  apply Effect.of_kept (extends_removeConnection store conn) _
    (wellFormed_removeConnection wellFormed conn) _ under _ holdsNone relies
  · intro server other
    rw [poolOf_removeConnection serves, if_neg]
    rintro rfl
    exact other rfl
  · unfold removeConnection
    split <;> rfl
  · intro other
    unfold removeConnection
    split
    · rfl
    · exact store.has_modify_of_comp rfl conn other

theorem extends_acquire (store : Store) (conn : Nat) : store.Extends (acquire store conn) := by
  have marked : store.Extends (store.modify conn fun connection =>
      { connection with inUse := true }) :=
    store.extends_modify conn (fun _ => rfl) fun _ => id
  exact marked.trans (.of_connections rfl)

theorem inUse_acquire (idle : available store conn) (other : Nat) :
    (if (acquire store conn).inUse other then 1 else 0) =
      (if store.inUse other then 1 else 0) + if conn = other then 1 else 0 := by
  have same : (acquire store conn).inUse other =
      (store.modify conn fun connection => { connection with inUse := true }).inUse other := rfl
  rw [same, Store.inUse, Store.has_modify]
  by_cases taken : conn = other
  · subst taken
    unfold available at idle
    unfold Store.inUse Store.has at *
    cases lookup : store.connections[conn]? with
    | none => simp [lookup] at idle
    | some connection =>
      have free : connection.inUse = false := by
        simp [lookup] at idle
        exact idle.1
      simp [free]
  · simp [taken]

variable {request : Request}

section

variable (wellFormed : store.WellFormed config) (taken : store.locked request.serverConfig.id)
include wellFormed taken

theorem effect_take (idle : available store conn) :
    Effect config store (some request.serverConfig.id) (take store request conn) := by
  have extension : store.Extends ((acquire store conn).unlock request.serverConfig.id) :=
    (extends_acquire store conn).trans (.of_connections rfl)
  have usage : ∀ other, (if ((acquire store conn).unlock request.serverConfig.id).inUse other
      then 1 else 0) =
      (if store.inUse other then 1 else 0) + if holds other (.holding conn) then 1 else 0 := by
    intro other
    have usage := inUse_acquire idle other
    simp only [holds, decide_eq_true_eq]
    exact usage
  exact .of_left taken extension (fun _ _ => rfl) (wellFormed.of_lists extension rfl rfl) rfl
    rfl usage trivial

theorem effect_giveUp : Effect config store (some request.serverConfig.id) (giveUp store request) :=
  .of_left taken (.of_connections rfl) (fun _ _ => rfl)
    (wellFormed.of_lists (.of_connections rfl) rfl rfl) rfl rfl (fun _ => rfl) trivial

end

theorem firstAvailable_eq_some {pool : List Nat} {start index : Nat}
    (found : firstAvailable store pool start = some (index, conn)) :
    conn ∈ pool ∧ available store conn := by
  induction pool generalizing start with
  | nil => simp [firstAvailable] at found
  | cons head pool ih =>
    unfold firstAvailable at found
    split at found
    case isTrue isAvailable =>
      cases found
      exact ⟨mem_cons_self, isAvailable⟩
    case isFalse =>
      have later := ih found
      exact ⟨mem_cons_of_mem head later.1, later.2⟩

theorem effect_seek (index : Nat) (wellFormed : store.WellFormed config)
    (taken : store.locked request.serverConfig.id) :
    Effect config store (some request.serverConfig.id) (seek config store request index) := by
  have stays {stage : Stage} (under : lockOf stage = some request.serverConfig.id)
      (holdsNone : ∀ conn, holds conn stage = false) (relies : Relies config store stage) :
      Effect config store (some request.serverConfig.id) (store, stage) :=
    .of_kept (.refl store) (fun _ _ => rfl) wellFormed rfl under (fun _ => rfl) holdsNone relies
  unfold seek
  dsimp only
  split
  case h_1 index conn found =>
    obtain ⟨member, isAvailable⟩ := firstAvailable_eq_some found
    split
    · exact effect_disconnect wellFormed rfl (fun _ => rfl) (mem_of_mem_drop member)
    · exact effect_take wellFormed taken isAvailable
  case h_2 =>
    split
    case isTrue room => exact stays rfl (fun _ => rfl) room
    case isFalse full =>
      split
      · exact stays rfl (fun _ => rfl) (Nat.le_of_not_lt full)
      · exact effect_giveUp wellFormed taken

theorem effect_poll (wellFormed : store.WellFormed config)
    (taken : store.locked request.serverConfig.id)
    (relies : Relies config store (.waiting request)) :
    Effect config store (some request.serverConfig.id) (poll config store request) := by
  unfold poll
  dsimp only
  split
  case h_1 conn found => exact effect_take wellFormed taken (find?_some found)
  case h_2 =>
    split
    · exact .of_kept (.refl store) (fun _ _ => rfl) wellFormed rfl rfl (fun _ => rfl)
        (fun _ => rfl) relies
    · exact effect_giveUp wellFormed taken

theorem effect_closeFrom (pooled : List Nat) (index : Nat) (wellFormed : store.WellFormed config)
    (taken : store.locked serverId) :
    Effect config store (some serverId) (closeFrom store serverId pooled index) := by
  unfold closeFrom
  split
  case h_1 conn found =>
    have serves := wellFormed.serves_of_mem (mem_of_getElem? found)
    exact effect_disconnect wellFormed rfl (fun _ => rfl)
      ((extends_disconnect store conn).serves serverId conn serves)
  case h_2 =>
    have frame : ∀ server, some serverId ≠ some server →
        ((store.resetPool serverId).unlock serverId).poolOf server = store.poolOf server := by
      intro server other
      rw [Store.poolOf_unlock, Store.poolOf_resetPool, if_neg]
      rintro rfl
      exact other rfl
    exact .of_left taken (.of_connections rfl) frame
      ((wellFormed.resetPool serverId).of_lists (.of_connections rfl) rfl rfl) rfl rfl
      (fun _ => rfl) trivial

section

variable (wellFormed : store.WellFormed config)
include wellFormed

theorem effect_sweepOn {sweep : Sweep} (taken : store.locked sweep.serverId)
    (serving : ∀ conn ∈ sweep.toClose, store.serves sweep.serverId conn) :
    Effect config store (some sweep.serverId) (sweepOn store sweep) := by
  unfold sweepOn
  split
  case h_1 conn toClose split =>
    rw [split] at serving
    have extension := extends_disconnect store conn
    have relies : Relies config (disconnect store conn)
        (.sweeping { sweep with toClose } conn) := by
      constructor
      · exact extension.serves _ conn (serving conn mem_cons_self)
      · intro other member
        exact extension.serves _ other (serving other (mem_cons_of_mem conn member))
    exact effect_disconnect wellFormed rfl (fun _ => rfl) relies
  case h_2 =>
    exact .of_left taken (.of_connections rfl) (fun _ _ => rfl)
      (wellFormed.of_lists (.of_connections rfl) rfl rfl) rfl rfl (fun _ => rfl) trivial

theorem effect_connect (taken : store.locked request.serverConfig.id)
    (room : (store.poolOf request.serverConfig.id).length < config.maxConnections) :
    Effect config store (some request.serverConfig.id) (connect store request) := by
  let connection : MCPConnection :=
    { serverId := request.serverConfig.id, createdAt := store.now, lastUsedAt := store.now }
  let conn := store.connections.length
  let pooled := (store.add connection).setPool request.serverConfig.id
    (store.poolOf request.serverConfig.id ++ [conn])
  have extension := store.extends_add connection
  have serves : (store.add connection).serves request.serverConfig.id conn := by
    simp [Store.serves, Store.has_add, conn, connection]
  have wellFormedPooled : pooled.WellFormed config := by
    apply (wellFormed.of_lists extension rfl rfl).setPool
    · apply nodup_append.mpr
      refine ⟨wellFormed.distinct_poolOf _, nodup_singleton conn, ?_⟩
      intro old oldMember new newMember same
      obtain rfl := mem_singleton.mp newMember
      have present := wellFormed.serves_of_mem oldMember
      simp [Store.serves, same, conn, Store.has_length] at present
    · intro other member
      rcases mem_append.mp member with old | new
      · exact extension.serves _ other (wellFormed.serves_of_mem old)
      · obtain rfl := mem_singleton.mp new
        exact serves
    · rw [length_append, length_singleton]
      exact room
  have idle : available pooled conn := by
    have isAvailable : available (store.add connection) conn := by
      simp [available, Store.has_add, conn, connection, isConnectionHealthy]
    exact isAvailable
  have frame : ∀ server, some request.serverConfig.id ≠ some server →
      pooled.poolOf server = store.poolOf server := by
    intro server other
    have distinct : server ≠ request.serverConfig.id := by
      rintro rfl
      exact other rfl
    rw [Store.poolOf_setPool, if_neg distinct]
    rfl
  have grown : store.Extends pooled := extension.trans (.of_connections rfl)
  exact .after grown frame rfl (store.inUse_add rfl) (effect_take wellFormedPooled taken idle)

theorem effect_next {stage : Stage}
    (taken : ∀ serverId, lockOf stage = some serverId → store.locked serverId)
    (relies : Relies config store stage) (working : ∀ conn, holds conn stage = false) :
    Effect config store (lockOf stage) (next config store stage) := by
  have locked {serverId : String} : store.Extends (store.lock serverId) := .of_connections rfl
  have stays : lockOf stage = none → Effect config store (lockOf stage) (store, stage) :=
    fun _ => .of_kept (.refl store) (fun _ _ => rfl) wellFormed rfl rfl (fun _ => rfl) working
      relies
  cases stage with
  | seeking request =>
    unfold next
    dsimp only
    split
    case isTrue => exact stays rfl
    case isFalse free =>
      apply Effect.of_lock (Bool.eq_false_iff.mpr free)
      exact effect_seek 0 (wellFormed.of_lists locked rfl rfl) (by simp [Store.lock])
  | expiring request index conn =>
    exact effect_removeConnection wellFormed (wellFormed.serves_of_mem relies) rfl
      (fun _ => rfl) trivial
  | expired request index => exact effect_seek (index + 1) wellFormed (taken _ rfl)
  | connecting request => exact effect_connect wellFormed (taken _ rfl) relies
  | waiting request => exact effect_poll wellFormed (taken _ rfl) relies
  | holding conn => simpa [holds] using working conn
  | closing serverId =>
    unfold next
    dsimp only
    split
    case isTrue => exact stays rfl
    case isFalse free =>
      apply Effect.of_lock (Bool.eq_false_iff.mpr free)
      exact effect_closeFrom _ 0 (wellFormed.of_lists locked rfl rfl) (by simp [Store.lock])
  | dropping serverId pooled index conn =>
    exact effect_removeConnection wellFormed relies rfl (fun _ => rfl) trivial
  | dropped serverId pooled index =>
    exact effect_closeFrom pooled (index + 1) wellFormed (taken _ rfl)
  | maintaining remaining closed =>
    cases remaining with
    | nil =>
      exact .of_kept (.refl store) (fun _ _ => rfl) wellFormed rfl rfl (fun _ => rfl)
        (fun _ => rfl) trivial
    | cons entry remaining =>
      unfold next
      dsimp only
      split
      case isTrue => exact stays rfl
      case isFalse free =>
        apply Effect.of_lock (Bool.eq_false_iff.mpr free)
        let sweep : Sweep :=
          { serverId := entry.1
            toClose := (store.lists entry.1 entry.2).filter fun conn =>
              store.has conn (toClose config store.now)
            remaining
            closed }
        have serving : ∀ conn ∈ sweep.toClose, store.serves sweep.serverId conn :=
          fun conn member =>
            wellFormed.serving entry.1 entry.2 conn (mem_of_mem_filter member)
        have taken : (store.lock entry.1).locked sweep.serverId := by simp [Store.lock, sweep]
        exact effect_sweepOn (wellFormed.of_lists locked rfl rfl) taken serving
  | sweeping sweep conn =>
    have extension := extends_removeConnection store conn
    exact effect_removeConnection wellFormed relies.1 rfl (fun _ => rfl) fun other member =>
      extension.serves _ other (relies.2 other member)
  | swept sweep => exact effect_sweepOn wellFormed (taken _ rfl) relies
  | _ => exact stays rfl

end

end

/-! ## Runs -/

section

variable {config : MCPPoolConfig} {store : Store} {stage : Stage} {system : System}

theorem Relies.frame {new : Store} (relies : Relies config store stage)
    (extension : store.Extends new) (same : ∀ serverId, lockOf stage = some serverId →
      new.poolOf serverId = store.poolOf serverId) : Relies config new stage := by
  cases stage with
  | expiring | connecting | waiting =>
    have pool := same _ rfl
    simpa only [Relies, pool] using relies
  | dropping serverId pooled index conn => exact extension.serves serverId conn relies
  | sweeping sweep conn =>
    exact ⟨extension.serves _ conn relies.1, fun other member =>
      extension.serves _ other (relies.2 other member)⟩
  | swept sweep => exact fun other member => extension.serves _ other (relies other member)
  | _ => trivial

/-- What a step of a process does, where a connection may also be given back. -/
structure Continues (config : MCPPoolConfig) (store : Store) (stage : Stage)
    (after : Store × Stage) : Prop where
  extension : store.Extends after.1
  frame : ∀ serverId, store.locked serverId → lockOf stage ≠ some serverId →
    after.1.poolOf serverId = store.poolOf serverId
  wellFormed : after.1.WellFormed config
  locking : ∀ serverId, (if after.1.locked serverId then 1 else 0) +
    (if lockOf stage = some serverId then 1 else 0) = (if store.locked serverId then 1 else 0) +
      if lockOf after.2 = some serverId then 1 else 0
  usage : ∀ conn, (if after.1.inUse conn then 1 else 0) + (if holds conn stage then 1 else 0) =
    (if store.inUse conn then 1 else 0) + if holds conn after.2 then 1 else 0
  relies : Relies config after.1 after.2

section

variable (wellFormed : store.WellFormed config)
include wellFormed

theorem Continues.refl (relies : Relies config store stage) :
    Continues config store stage (store, stage) where
  extension := .refl store
  frame _ _ _ := rfl
  wellFormed := wellFormed
  locking _ := rfl
  usage _ := rfl
  relies := relies

theorem continues_next (taken : ∀ serverId, lockOf stage = some serverId → store.locked serverId)
    (relies : Relies config store stage) :
    Continues config store stage (next config store stage) := by
  by_cases holding : ∃ conn, stage = .holding conn
  · obtain ⟨conn, rfl⟩ := holding
    exact .refl wellFormed relies
  · have working : ∀ conn, holds conn stage = false := by
      intro conn
      cases stage with
      | holding held => exact absurd ⟨held, rfl⟩ holding
      | _ => rfl
    have effect := effect_next wellFormed taken relies working
    exact {
      extension := effect.extension
      frame := effect.frame
      wellFormed := effect.wellFormed
      locking := effect.locking
      usage := fun conn => by
        rw [effect.usage conn, working conn]
        rfl
      relies := effect.relies }

theorem continues_release (used : ∀ conn, holds conn stage → store.inUse conn)
    (relies : Relies config store stage) : Continues config store stage (release store stage) := by
  cases stage with
  | holding conn =>
    have extension : store.Extends (store.modify conn fun connection =>
        { connection with inUse := false, lastUsedAt := store.now }) :=
      store.extends_modify conn (fun _ => rfl) fun _ => id
    exact {
      extension := extension
      frame := fun _ _ _ => rfl
      wellFormed := wellFormed.of_lists extension rfl rfl
      locking := fun _ => rfl
      usage := fun other => by
        have inUse := used other
        have same : (release store (.holding conn)).1.inUse other =
            (store.modify conn fun connection =>
              { connection with inUse := false, lastUsedAt := store.now }).inUse other := rfl
        rw [same, Store.inUse, Store.has_modify]
        by_cases given : conn = other
        · subst given
          have unused : store.has conn (MCPConnection.inUse ∘ fun connection =>
              { connection with inUse := false, lastUsedAt := store.now }) = false := by
            simp [Store.has, Option.any_eq_false]
          rw [if_pos rfl, unused, inUse (by simp [holds])]
          simp [holds, release]
        · simp [holds, given, release]
      relies := trivial }
  | _ => exact .refl wellFormed relies

end

/-- The lists are well formed, a lock is taken if and only if one process is under it, a
connection is in use if and only if one process holds it, and each process can rely on what
it relies on. -/
structure Custody (config : MCPPoolConfig) (system : System) : Prop where
  wellFormed : system.store.WellFormed config
  locking : ∀ serverId, system.count (fun stage => lockOf stage = some serverId) =
    if system.store.locked serverId then 1 else 0
  usage : ∀ conn, system.count (holds conn) = if system.store.inUse conn then 1 else 0
  relies : ∀ stage ∈ system.processes, Relies config system.store stage

section

variable (custody : Custody config system)
include custody

theorem Custody.taken (member : stage ∈ system.processes) {serverId : String}
    (under : lockOf stage = some serverId) : system.store.locked serverId := by
  by_contra free
  have none := custody.locking serverId
  rw [if_neg free] at none
  exact countP_eq_zero.mp none stage member (decide_eq_true under)

theorem Custody.used (member : stage ∈ system.processes) {conn : Nat} (holding : holds conn stage) :
    system.store.inUse conn := by
  by_contra idle
  have none := custody.usage conn
  rw [if_neg idle] at none
  exact countP_eq_zero.mp none stage member holding

theorem Custody.frame {index position : Nat} {other : Stage} {after : Store × Stage}
    (continues : Continues config system.store stage after)
    (atIndex : system.processes[index]? = some stage)
    (atPosition : system.processes[position]? = some other) (distinct : index ≠ position)
    (serverId : String) (under : lockOf other = some serverId) :
    after.1.poolOf serverId = system.store.poolOf serverId := by
  apply continues.frame serverId (custody.taken (mem_of_getElem? atPosition) under)
  -- Two processes are not under one lock.
  intro alsoUnder
  have one : system.count (fun stage => lockOf stage = some serverId) ≤ 1 := by
    rw [custody.locking serverId]
    split <;> simp
  exact distinct (eq_of_count_le_one one atIndex atPosition
    (decide_eq_true alsoUnder) (decide_eq_true under))

theorem Custody.resume {next : Store → Stage → Store × Stage} (index : Nat)
    (continues : ∀ stage ∈ system.processes,
      Continues config system.store stage (next system.store stage)) :
    Custody config (system.resume next index) where
  wellFormed := by
    cases lookup : system.processes[index]? with
    | none =>
      rw [resume_of_none lookup]
      exact custody.wellFormed
    | some stage =>
      rw [resume_of_some lookup]
      exact (continues stage (mem_of_getElem? lookup)).wellFormed
  locking serverId := by
    let measure (store : Store) : Nat := if store.locked serverId then 1 else 0
    have balanced : ∀ stage ∈ system.processes,
        measure (next system.store stage).1 +
            (if decide (lockOf stage = some serverId) then 1 else 0) =
          measure system.store +
            if decide (lockOf (next system.store stage).2 = some serverId) then 1 else 0 := by
      intro stage member
      have locking := (continues stage member).locking serverId
      simpa only [decide_eq_true_eq] using locking
    exact count_resume index balanced (custody.locking serverId)
  usage conn := by
    let measure (store : Store) : Nat := if store.inUse conn then 1 else 0
    have balanced : ∀ stage ∈ system.processes,
        measure (next system.store stage).1 + (if holds conn stage then 1 else 0) =
          measure system.store + if holds conn (next system.store stage).2 then 1 else 0 :=
      fun stage member => (continues stage member).usage conn
    exact count_resume index balanced (custody.usage conn)
  relies := by
    have preserved : ∀ stage, system.processes[index]? = some stage →
        Relies config system.store stage →
        Relies config (next system.store stage).1 (next system.store stage).2 :=
      fun stage atIndex _ => (continues stage (mem_of_getElem? atIndex)).relies
    have frame : ∀ position stage other, system.processes[index]? = some stage →
        system.processes[position]? = some other → index ≠ position →
        Relies config system.store other → Relies config (next system.store stage).1 other := by
      intro position stage other atIndex atPosition distinct relies
      have effect := continues stage (mem_of_getElem? atIndex)
      exact relies.frame effect.extension (custody.frame effect atIndex atPosition distinct)
    exact resume_framed index preserved frame custody.relies

/-- A call is made: it is neither under a lock nor holds anything. -/
theorem Custody.spawn (free : lockOf stage = none) (holdsNone : ∀ conn, holds conn stage = false)
    (relies : Relies config system.store stage) :
    Custody config (system.spawn system.store stage) where
  wellFormed := custody.wellFormed
  locking serverId := by
    rw [count_spawn, custody.locking serverId, free]
    rfl
  usage conn := by
    rw [count_spawn, custody.usage conn, holdsNone conn]
    rfl
  relies := spawn_invariant system.store custody.relies relies

theorem Custody.outside (extension : system.store.Extends store)
    (lists : store.lists = system.store.lists) (pools : store.poolOf = system.store.poolOf)
    (locked : store.locked = system.store.locked)
    (used : ∀ conn, store.inUse conn = system.store.inUse conn) :
    Custody config { system with store } where
  wellFormed := custody.wellFormed.of_lists extension lists pools
  locking serverId := by
    rw [locked]
    exact custody.locking serverId
  usage conn := by
    rw [used conn]
    exact custody.usage conn
  relies stage member :=
    (custody.relies stage member).frame extension fun serverId _ => congrFun pools serverId

end

theorem custody_begin (config : MCPPoolConfig) : Custody config begin where
  wellFormed := {
    distinct := fun _ _ => nodup_nil
    serving := fun _ _ _ member => absurd member not_mem_nil
    bounded := fun _ => Nat.zero_le _ }
  locking _ := rfl
  usage _ := rfl
  relies _ member := absurd member not_mem_nil

section

variable (custody : Custody config system)
include custody

theorem Custody.continues (member : stage ∈ system.processes) :
    Continues config system.store stage (next config system.store stage) :=
  continues_next custody.wellFormed (fun _ => custody.taken member) (custody.relies stage member)

theorem Custody.continuesRelease (member : stage ∈ system.processes) :
    Continues config system.store stage (release system.store stage) :=
  continues_release custody.wellFormed (fun _ => custody.used member) (custody.relies stage member)

theorem Custody.step (action : Action) : Custody config (step config system action) := by
  cases action with
  | releaseConnection index => exact custody.resume index fun stage => custody.continuesRelease
  | resume index => exact custody.resume index fun stage => custody.continues
  | recordError conn =>
    exact custody.outside (system.store.extends_modify conn (fun _ => rfl) fun _ => id) rfl rfl
      rfl (system.store.has_modify_of_comp rfl conn)
  | setConnected conn isConnected =>
    exact custody.outside (system.store.extends_modify conn (fun _ => rfl) fun _ => id) rfl rfl
      rfl (system.store.has_modify_of_comp rfl conn)
  | setClocks now loopTime => exact custody.outside (.of_connections rfl) rfl rfl rfl fun _ => rfl
  | _ => exact custody.spawn rfl (fun _ => rfl) trivial

end

end

end AgenticOS.Mcp
