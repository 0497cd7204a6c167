import SocialNetwork.Foundation.Runs
import SocialNetwork.Foundation.Bytes

/-!
# `ConnectionPool` and `ScopedConnection`

The model of `app_connection_pool.h`. A pool keeps, for each node type, a vector of nodes, and
for each node a FIFO queue of idle connections. `getConnection` picks a node by round robin
(never looking at how many connections it has left) and pops the front of its queue;
`releaseConnection` pushes a connection back on the queue of the node its tuple names.

Two points of the embedding:

* the constructor creates both keys of the `std::map` and nothing erases one, so the map is a
  total function and `pool_.count(node_type)` is always 1;
* the two round-robin counters are function-local statics of `get_connection`. An `App` builds one
  pool, so they are fields of it here.

`PoolSystem` is the pool shared by clients that create and destroy `ScopedConnection`s in any
order. Each member function runs under `pool_mtx_`, so it is one step.
-/

namespace SocialNetwork.Pool

open Foundation

/-- `ConnectionPool::NodeType`. -/
inductive NodeType
  | master
  | replica
  deriving DecidableEq, Repr

/-- A `pqxx::connection` object made by the constructor: the `serial`-th one of the inner loop for
the node `(nodeType, nodeNum)`, opened with that node's connection string. -/
structure Connection where
  nodeType : NodeType
  nodeNum : Nat
  serial : Nat
  connStr : Bytes
  deriving DecidableEq, Repr

/-- `ConnectionPool::node_s`; the front of the queue is the head of the list. -/
structure Node where
  nodeTag : Bytes
  connStr : Bytes
  connPool : List Connection
  deriving DecidableEq, Repr

/-- `TypeNumTagConnection`: `<node_type, node_num, node_tag, conn>`. -/
structure TypeNumTagConnection where
  nodeType : NodeType
  nodeNum : Nat
  nodeTag : Bytes
  conn : Connection
  deriving DecidableEq, Repr

/-- `ConnStrCollection`: a vector of `<conn_str, node_tag>`. -/
abbrev ConnectionStrCollection := List (Bytes × Bytes)

/-- The state of a `ConnectionPool`, with the two function-local statics of `get_connection`. -/
structure ConnectionPool where
  pool : NodeType → List Node
  lastUsedReplicaNum : Nat
  lastUsedMasterNum : Nat

/-- The only exception `get_connection` throws: `std::runtime_error("No connections available")`. -/
def noConnections : Bytes := str "No connections available"

/-! ## The constructor -/

/-- The inner loop of the constructor: `pool_size` connections opened from one connection string. -/
def openConnections (t : NodeType) (num : Nat) (connStr : Bytes) (poolSize : Nat) :
    List Connection :=
  (List.range poolSize).map fun i => ⟨t, num, i, connStr⟩

/-- One turn of the outer loop: the entry of the node number `num`. -/
def openNode (t : NodeType) (poolSize num : Nat) (entry : Bytes × Bytes) : Node where
  nodeTag := entry.2
  connStr := entry.1
  connPool := openConnections t num entry.1 poolSize

/-- `ConnectionPool::ConnectionPool`, when every connection could be opened (if one throws there is
no pool). -/
def ConnectionPool.new (masters replicas : ConnectionStrCollection) (poolSize : Nat) :
    ConnectionPool where
  pool
    | .master => masters.mapIdx (openNode .master poolSize)
    | .replica => replicas.mapIdx (openNode .replica poolSize)
  lastUsedReplicaNum := 0
  lastUsedMasterNum := 0

namespace ConnectionPool

/-! ## The member functions -/

/-- `pool_[t][num].conn_pool = queue`. -/
def setQueue (p : ConnectionPool) (t : NodeType) (num : Nat) (queue : List Connection) :
    ConnectionPool :=
  { p with pool := fun t' =>
      if t' = t then (p.pool t).modify num fun entry => { entry with connPool := queue }
      else p.pool t' }

/-- The idle connections of a node. -/
def queue (p : ConnectionPool) (t : NodeType) (num : Nat) : List Connection :=
  ((p.pool t)[num]?.map Node.connPool).getD []

/-- The common tail of both branches of `get_connection`: pop the front of the selected node's
queue, or throw. (`num` is in range for both callers, see `select_spec`.) -/
def popFront (p : ConnectionPool) (t : NodeType) (num : Nat) :
    ConnectionPool × Except Bytes TypeNumTagConnection :=
  match (p.pool t)[num]? with
  | none => (p, .error noConnections)
  | some entry =>
      match entry.connPool with
      | [] => (p, .error noConnections)
      | conn :: rest => (p.setQueue t num rest, .ok ⟨t, num, entry.nodeTag, conn⟩)

/-- `ConnectionPool::get_connection`. The counter has moved also when the call throws. -/
def getConnection (p : ConnectionPool) (preferred : NodeType) :
    ConnectionPool × Except Bytes TypeNumTagConnection :=
  if !(p.pool .replica).isEmpty && preferred = .replica then
    let num := (p.lastUsedReplicaNum + 1) % (p.pool .replica).length
    popFront { p with lastUsedReplicaNum := num } .replica num
  else if !(p.pool .master).isEmpty then
    let num := (p.lastUsedMasterNum + 1) % (p.pool .master).length
    popFront { p with lastUsedMasterNum := num } .master num
  else
    (p, .error noConnections)

/-- `ConnectionPool::release_connection`. A tuple whose number is out of range is dropped. -/
def releaseConnection (p : ConnectionPool) (tntc : TypeNumTagConnection) : ConnectionPool :=
  if tntc.nodeNum < (p.pool tntc.nodeType).length then
    p.setQueue tntc.nodeType tntc.nodeNum (p.queue tntc.nodeType tntc.nodeNum ++ [tntc.conn])
  else
    p

end ConnectionPool

/-! ## Clients holding `ScopedConnection`s -/

/-- `ScopedConnection`: the members its constructor fills from the tuple. -/
structure ScopedConnection where
  conn : Connection
  nodeType : NodeType
  nodeNum : Nat
  nodeTag : Bytes
  deriving DecidableEq, Repr

/-- The constructor `ScopedConnection(p, t)`; no object comes to exist when `get_connection`
throws. -/
def ScopedConnection.new (p : ConnectionPool) (t : NodeType) :
    ConnectionPool × Except Bytes ScopedConnection :=
  match p.getConnection t with
  | (p', .error e) => (p', .error e)
  | (p', .ok tntc) => (p', .ok ⟨tntc.conn, tntc.nodeType, tntc.nodeNum, tntc.nodeTag⟩)

/-- The destructor `~ScopedConnection()`. -/
def ScopedConnection.destroy (p : ConnectionPool) (sc : ScopedConnection) : ConnectionPool :=
  p.releaseConnection ⟨sc.nodeType, sc.nodeNum, sc.nodeTag, sc.conn⟩

/-- A pool and the live `ScopedConnection`s, each with the client that created it. -/
structure PoolState where
  pool : ConnectionPool
  live : List (Nat × ScopedConnection)

/-- What clients do: create a `ScopedConnection`, or destroy the `i`-th live one. -/
inductive PoolAction
  | construct (client : Nat) (preferred : NodeType)
  | destroy (i : Nat)
  deriving DecidableEq, Repr

/-- One step of one client. -/
def PoolState.next (s : PoolState) : PoolAction → Option PoolState
  | .construct client preferred =>
      match ScopedConnection.new s.pool preferred with
      | (p, .ok sc) => some ⟨p, s.live ++ [(client, sc)]⟩
      | (p, .error _) => some ⟨p, s.live⟩
  | .destroy i => (s.live[i]?).map fun entry => ⟨entry.2.destroy s.pool, s.live.eraseIdx i⟩

/-- The constructor's arguments. -/
structure PoolConfig where
  masters : ConnectionStrCollection
  replicas : ConnectionStrCollection
  poolSize : Nat

/-- The pool just after construction, with no client yet. -/
def PoolConfig.start (cfg : PoolConfig) : PoolState :=
  ⟨ConnectionPool.new cfg.masters cfg.replicas cfg.poolSize, []⟩

/-- One pool and any number of clients. -/
def PoolSystem (cfg : PoolConfig) : System PoolState PoolAction :=
  System.ofNext (· = cfg.start) PoolState.next

end SocialNetwork.Pool
