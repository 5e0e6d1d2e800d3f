import AgenticOS.Data.Dict
import AgenticOS.Transition.Pool
import AgenticOS.Transition.Run
import Mathlib.Algebra.Order.Ring.Rat

/-!
# The pool of MCP connections

The pool keeps a list of connections for each server. A call to `get_connection`, to
`close_server_connections` or to `maintain_pool` is a process that works under the lock of a
server and is suspended whenever it talks to a client, publishes or sleeps. A caller who has
got a connection is a process that holds it until it is released.

Connecting succeeds, what is published is taken, and no call is cancelled. Whether a client
is connected and what the clocks say is up to the outside.
-/

namespace AgenticOS.Mcp

open Transition

structure MCPPoolConfig where
  maxConnections : Nat := 10
  maxIdleTimeSeconds : Int := 300
  maxLifetimeSeconds : Int := 3600
  acquireTimeoutSeconds : Int := 30

structure MCPServerConfig where
  id : String
  name : String

/-- A connection together with what the pool knows of its client. -/
structure MCPConnection where
  serverId : String
  createdAt : ℚ
  lastUsedAt : ℚ
  inUse : Bool := false
  errorCount : Nat := 0
  isConnected : Bool := true
  /-- The client has been told to disconnect, and has done so. -/
  disconnected : Bool := false

def isConnectionHealthy (connection : MCPConnection) : Bool :=
  if 5 ≤ connection.errorCount then false else connection.isConnected

def isConnectionExpired (config : MCPPoolConfig) (now : ℚ) (connection : MCPConnection) : Bool :=
  config.maxLifetimeSeconds ≤ now - connection.createdAt

def isConnectionIdleTooLong (config : MCPPoolConfig) (now : ℚ) (connection : MCPConnection) :
    Bool :=
  config.maxIdleTimeSeconds ≤ now - connection.lastUsedAt

/-- Connections are named by their positions, which serve as their ids. The lists of a server
are objects, too, and are numbered: who captured one keeps it when the server gets another. -/
structure Store where
  connections : List MCPConnection := []
  lists : String → Nat → List Nat := fun _ _ => []
  pools : Dict String Nat := .empty
  locked : String → Bool := fun _ => false
  acquireTimes : Dict Nat ℚ := .empty
  now : ℚ := 0
  loopTime : ℚ := 0

namespace Store

variable (store : Store)

variable (serverId : String)

/-- `self._pools.get(server_id, [])`. -/
def poolOf : List Nat :=
  match store.pools.get? serverId with
  | none => []
  | some number => store.lists serverId number

def has (conn : Nat) (property : MCPConnection → Bool) : Bool :=
  (store.connections[conn]?).any property

def modify (conn : Nat) (change : MCPConnection → MCPConnection) : Store :=
  { store with connections := store.connections.modify conn change }

def add (connection : MCPConnection) : Store :=
  { store with connections := store.connections ++ [connection] }

def setPool (pool : List Nat) : Store :=
  let current := (store.pools.get? serverId).getD 0
  { store with
    lists := fun server number =>
      if server = serverId ∧ number = current then pool else store.lists server number
    pools := store.pools.set serverId current }

/-- Give a server another list, without connections. -/
def resetPool : Store :=
  let fresh := match store.pools.get? serverId with
    | none => 0
    | some number => number + 1
  { store with
    lists := fun server number =>
      if server = serverId ∧ number = fresh then [] else store.lists server number
    pools := store.pools.set serverId fresh }

def lock : Store :=
  { store with locked := fun server => if server = serverId then true else store.locked server }

def unlock : Store :=
  { store with locked := fun server => if server = serverId then false else store.locked server }

def held : Nat :=
  store.connections.countP fun connection => connection.inUse ∧ connection.serverId = serverId

end Store

/-- A call to `get_connection` and when it began. -/
structure Request where
  serverConfig : MCPServerConfig
  startTime : ℚ

/-- The connections that are still to be closed for one server, the lists that are still to
be looked at, and the number of connections closed so far. -/
structure Sweep where
  serverId : String
  toClose : List Nat := []
  remaining : List (String × Nat) := []
  closed : Nat := 0

/-- Where a process is suspended. A call that gave up records how many connections to the
server were held then, and one that closes the connections of a server records which these
were when it began. -/
inductive Stage where
  /-- Before the lock is acquired. -/
  | seeking (request : Request)
  /-- Disconnecting an expired connection, found at an index of the list. -/
  | expiring (request : Request) (index conn : Nat)
  /-- Publishing that it has been closed. -/
  | expired (request : Request) (index : Nat)
  | connecting (request : Request)
  | waiting (request : Request)
  | holding (conn : Nat)
  | timedOut (request : Request) (error : String) (held : Nat)
  | released (conn : Nat) (outcome : Except String Unit)
  /-- Before the lock is acquired. -/
  | closing (serverId : String)
  | dropping (serverId : String) (pooled : List Nat) (index conn : Nat)
  | dropped (serverId : String) (pooled : List Nat) (index : Nat)
  | closed (serverId : String) (pooled : List Nat) (closedCount : Nat)
  /-- Before the lock for the first of the remaining lists is acquired. -/
  | maintaining (remaining : List (String × Nat)) (closed : Nat)
  | sweeping (sweep : Sweep) (conn : Nat)
  | swept (sweep : Sweep)
  | maintained (closed : Nat)

variable (store : Store)

/-- Begin to close a connection: its client counts as disconnected at once. -/
def disconnect (conn : Nat) : Store :=
  store.modify conn fun connection => { connection with isConnected := false }

/-- `_close_connection`, when the client has disconnected: the connection leaves the list of
its server. -/
def removeConnection (conn : Nat) : Store :=
  match store.connections[conn]? with
  | none => store
  | some connection =>
    (store.modify conn fun connection => { connection with disconnected := true }).setPool
      connection.serverId ((store.poolOf connection.serverId).erase conn)

/-- Mark a connection as used, and when. -/
def acquire (conn : Nat) : Store :=
  { store.modify conn fun connection => { connection with inUse := true } with
    acquireTimes := store.acquireTimes.set conn store.now }

def available (conn : Nat) : Bool :=
  store.has conn fun connection => !connection.inUse && isConnectionHealthy connection

/-- The first of the connections that is idle and healthy, with its index. -/
def firstAvailable (store : Store) : List Nat → Nat → Option (Nat × Nat)
  | [], _ => none
  | conn :: pool, index =>
    if available store conn then some (index, conn) else firstAvailable store pool (index + 1)

/-- Leave the lock with a connection. -/
def take (request : Request) (conn : Nat) : Store × Stage :=
  ((acquire store conn).unlock request.serverConfig.id, .holding conn)

/-- Leave the lock with an error. -/
def giveUp (request : Request) : Store × Stage :=
  (store.unlock request.serverConfig.id,
    .timedOut request ("Timeout waiting for connection to " ++ request.serverConfig.name)
      (store.held request.serverConfig.id))

variable (config : MCPPoolConfig)

/-- Look through the list of the server from an index on. It is looked at as it is now, and
is the same object as at the beginning of the call, which has had the lock since. -/
def seek (store : Store) (request : Request) (index : Nat) : Store × Stage :=
  let pool := store.poolOf request.serverConfig.id
  match firstAvailable store (pool.drop index) index with
  | some (index, conn) =>
    if store.has conn (isConnectionExpired config store.now) then
      (disconnect store conn, .expiring request index conn)
    else take store request conn
  | none =>
    if pool.length < config.maxConnections then (store, .connecting request)
    else if 0 < config.acquireTimeoutSeconds then (store, .waiting request)
    else giveUp store request

/-- `_create_connection`, and what is done with the connection. -/
def connect (request : Request) : Store × Stage :=
  let serverId := request.serverConfig.id
  let conn := store.connections.length
  let store := store.add { serverId, createdAt := store.now, lastUsedAt := store.now }
  take (store.setPool serverId (store.poolOf serverId ++ [conn])) request conn

/-- One round of `_wait_for_connection`. -/
def poll (store : Store) (request : Request) : Store × Stage :=
  let elapsed := store.loopTime - request.startTime
  match (store.poolOf request.serverConfig.id).find? (available store) with
  | some conn => take store request conn
  | none =>
    if elapsed < config.acquireTimeoutSeconds then (store, .waiting request)
    else giveUp store request

/-- The hash of a connection: a data class with an equality has none. -/
def hash (_ : Nat) : Except String Nat :=
  .error "unhashable type: 'MCPConnection'"

/-- `connection in self._acquire_times`: the keys are ids, and a connection is no id. -/
def inAcquireTimes (_ : Store) (conn : Nat) : Except String Bool := do
  let _ ← hash conn
  return false

/-- `release_connection`, up to its first suspension, behind which it changes nothing. -/
def releaseConnection (conn : Nat) : Store × Except String Unit :=
  let store := store.modify conn fun connection =>
    { connection with inUse := false, lastUsedAt := store.now }
  match inAcquireTimes store conn with
  | .error error => (store, .error error)
  | .ok false => (store, .ok ())
  | .ok true => ({ store with acquireTimes := store.acquireTimes.erase conn }, .ok ())

/-- The loop of `close_server_connections`, from an index of the list on. -/
def closeFrom (serverId : String) (pooled : List Nat) (index : Nat) : Store × Stage :=
  match (store.poolOf serverId)[index]? with
  | some conn => (disconnect store conn, .dropping serverId pooled index conn)
  | none => ((store.resetPool serverId).unlock serverId, .closed serverId pooled index)

def toClose (now : ℚ) (connection : MCPConnection) : Bool :=
  !connection.inUse && (isConnectionExpired config now connection || !connection.isConnected ||
    isConnectionIdleTooLong config now connection)

/-- Close the next connection of a server, or leave its lock. -/
def sweepOn (sweep : Sweep) : Store × Stage :=
  match sweep.toClose with
  | conn :: toClose => (disconnect store conn, .sweeping { sweep with toClose } conn)
  | [] => (store.unlock sweep.serverId, .maintaining sweep.remaining sweep.closed)

/-- Continue a process up to its next suspension. -/
def next (store : Store) (stage : Stage) : Store × Stage :=
  match stage with
  | .seeking request =>
    if store.locked request.serverConfig.id then (store, stage)
    else seek config (store.lock request.serverConfig.id) request 0
  | .expiring request index conn => (removeConnection store conn, .expired request index)
  | .expired request index => seek config store request (index + 1)
  | .connecting request => connect store request
  | .waiting request => poll config store request
  | .closing serverId =>
    if store.locked serverId then (store, stage)
    else closeFrom (store.lock serverId) serverId (store.poolOf serverId) 0
  | .dropping serverId pooled index conn =>
    (removeConnection store conn, .dropped serverId pooled index)
  | .dropped serverId pooled index => closeFrom store serverId pooled (index + 1)
  | .maintaining [] closed => (store, .maintained closed)
  | .maintaining ((serverId, number) :: remaining) closed =>
    if store.locked serverId then (store, stage)
    else
      let toClose := (store.lists serverId number).filter fun conn =>
        store.has conn (toClose config store.now)
      sweepOn (store.lock serverId) { serverId, toClose, remaining, closed }
  | .sweeping sweep conn =>
    (removeConnection store conn, .swept { sweep with closed := sweep.closed + 1 })
  | .swept sweep => sweepOn store sweep
  | .holding _ | .timedOut _ _ _ | .released _ _ | .closed _ _ _ | .maintained _ => (store, stage)

/-! ## The system -/

/-- The pools with the calls that are on their way or over. -/
abbrev System := Pool Store Stage

/-- An operation is called, where only the holder of a connection releases it; a suspended
call goes on; or something happens outside. -/
inductive Action where
  | getConnection (serverConfig : MCPServerConfig)
  | releaseConnection (index : Nat)
  | closeServerConnections (serverId : String)
  | maintainPool
  | resume (index : Nat)
  | recordError (conn : Nat)
  | setConnected (conn : Nat) (isConnected : Bool)
  | setClocks (now loopTime : ℚ)

def release : Stage → Store × Stage
  | .holding conn =>
    let (store, outcome) := releaseConnection store conn
    (store, .released conn outcome)
  | stage => (store, stage)

/-- One step, without a suspension. -/
def step (system : System) : Action → System
  | .getConnection serverConfig =>
    system.spawn system.store
      (.seeking { serverConfig, startTime := system.store.loopTime })
  | .releaseConnection index => system.resume release index
  | .closeServerConnections serverId => system.spawn system.store (.closing serverId)
  | .maintainPool => system.spawn system.store (.maintaining system.store.pools.entries 0)
  | .resume index => system.resume (next config) index
  | .recordError conn =>
    { system with
      store := system.store.modify conn fun connection =>
        { connection with errorCount := connection.errorCount + 1 } }
  | .setConnected conn isConnected =>
    { system with
      store := system.store.modify conn fun connection => { connection with isConnected } }
  | .setClocks now loopTime => { system with store := { system.store with now, loopTime } }

/-- No connections and no calls yet. -/
def begin : System where
  store := {}
  processes := []

end AgenticOS.Mcp
