import SocialNetwork.Pool.ConnectionPool
import Mathlib.Data.List.Perm.Basic
import Mathlib.Data.List.Perm.Subperm
import Mathlib.Data.Finset.Card

/-!
# Connections are conserved, and a pool as large as its clients never runs dry

The run invariant of `PoolSystem` is `Conserved`: the nodes keep the tags and connection strings
they were built with, every live `ScopedConnection` names a node in range and carries its tag, and
for every node the idle queue together with the handles naming that node is a permutation of the
connections the constructor opened for it. It follows that

* `connections_conserved`: no connection is lost, duplicated, shared or returned to the wrong
  node, and the branch of `release_connection` that drops a connection is never taken;
* `getConnection_available`: with at most as many clients as connections per node, each holding
  at most one, `get_connection` does not throw, whichever node the round robin lands on.
-/

namespace SocialNetwork.Pool

open Foundation

/-! ## What the member functions do to a queue -/

namespace ConnectionPool

variable (p : ConnectionPool) (t : NodeType) (num : Nat)

/-- The part of a pool that no member function changes: `<conn_str, node_tag>` per node. -/
def shape : ConnectionStrCollection := (p.pool t).map fun entry => (entry.connStr, entry.nodeTag)

/-- The shape of a pool has its nodes. -/
theorem length_shape : (p.shape t).length = (p.pool t).length := List.length_map _

/-- Replacing a queue changes neither tags nor connection strings. -/
@[simp] theorem shape_setQueue (q : List Connection) (t' : NodeType) :
    (p.setQueue t num q).shape t' = p.shape t' := by
  unfold shape setQueue
  by_cases ht : t' = t
  · subst ht
    apply List.ext_getElem?
    intro i
    simp only [if_true, List.getElem?_map, List.getElem?_modify]
    by_cases hi : num = i <;> cases (p.pool t')[i]? <;> simp [hi]
  · simp [ht]

/-- Reading back the queue that was written. -/
theorem queue_setQueue_self (q : List Connection) (h : num < (p.pool t).length) :
    (p.setQueue t num q).queue t num = q := by
  simp [queue, setQueue, List.getElem?_eq_getElem h]

/-- Writing one queue leaves the others alone. -/
theorem queue_setQueue_of_ne (q : List Connection) {t' : NodeType} {num' : Nat}
    (h : ¬(t' = t ∧ num' = num)) : (p.setQueue t num q).queue t' num' = p.queue t' num' := by
  unfold queue setQueue
  by_cases ht : t' = t
  · subst ht
    have hne : num ≠ num' := fun e => h ⟨rfl, e.symm⟩
    simp [hne]
  · simp [ht]

/-- The two outcomes of the tail of `get_connection` at a node in range. -/
theorem popFront_cases (h : num < (p.pool t).length) :
    (p.queue t num = [] ∧ p.popFront t num = (p, .error noConnections)) ∨
      ∃ conn rest, p.queue t num = conn :: rest ∧
        p.popFront t num =
          (p.setQueue t num rest, .ok ⟨t, num, ((p.pool t)[num]).nodeTag, conn⟩) := by
  unfold popFront queue
  rw [List.getElem?_eq_getElem h]
  rcases hq : ((p.pool t)[num]).connPool with _ | ⟨conn, rest⟩
  · exact .inl (by simp [hq])
  · exact .inr ⟨conn, rest, by simp [hq]⟩

/-- The node `get_connection` selects, if there is one: the type and number of the branch taken,
with the round-robin counter already moved. -/
def select (preferred : NodeType) : Option (ConnectionPool × NodeType × Nat) :=
  if !(p.pool .replica).isEmpty && preferred = .replica then
    let num := (p.lastUsedReplicaNum + 1) % (p.pool .replica).length
    some ({ p with lastUsedReplicaNum := num }, .replica, num)
  else if !(p.pool .master).isEmpty then
    let num := (p.lastUsedMasterNum + 1) % (p.pool .master).length
    some ({ p with lastUsedMasterNum := num }, .master, num)
  else
    none

/-- `get_connection` is the selection followed by the pop. -/
theorem getConnection_eq (preferred : NodeType) :
    p.getConnection preferred =
      match p.select preferred with
      | none => (p, .error noConnections)
      | some (p', t, num) => p'.popFront t num := by
  unfold getConnection select
  split
  · rfl
  · split <;> rfl

/-- The selected node exists, and only a counter has moved. -/
theorem select_spec {preferred : NodeType} {p' : ConnectionPool} {t : NodeType} {num : Nat}
    (h : p.select preferred = some (p', t, num)) :
    p'.pool = p.pool ∧ num < (p.pool t).length ∧ (preferred = .master → t = .master) := by
  unfold select at h
  split at h
  · rename_i hr
    simp only [Bool.and_eq_true, Bool.not_eq_true', List.isEmpty_eq_false_iff,
      decide_eq_true_eq] at hr
    simp only [Option.some.injEq, Prod.mk.injEq] at h
    obtain ⟨rfl, rfl, rfl⟩ := h
    refine ⟨rfl, Nat.mod_lt _ (List.length_pos_iff.mpr hr.1), fun hm => ?_⟩
    rw [hm] at hr
    exact absurd hr.2 (by decide)
  · split at h
    · rename_i hm
      simp only [Bool.not_eq_true', List.isEmpty_eq_false_iff] at hm
      simp only [Option.some.injEq, Prod.mk.injEq] at h
      obtain ⟨rfl, rfl, rfl⟩ := h
      exact ⟨rfl, Nat.mod_lt _ (List.length_pos_iff.mpr hm), fun _ => rfl⟩
    · cases h

/-- A node is selected as soon as there is a master. -/
theorem select_isSome (preferred : NodeType) (h : p.pool .master ≠ []) :
    ∃ p' t num, p.select preferred = some (p', t, num) := by
  unfold select
  split
  · exact ⟨_, _, _, rfl⟩
  · rw [if_pos (by simpa using h)]
    exact ⟨_, _, _, rfl⟩

end ConnectionPool

/-- What `ScopedConnection(p, t)` can do: throw and leave all queues as they were, or take the
front of one node's queue. -/
theorem ScopedConnection.new_cases (p : ConnectionPool) (preferred : NodeType) :
    (∃ p' e, ScopedConnection.new p preferred = (p', .error e) ∧ p'.pool = p.pool) ∨
      ∃ p' sc rest, ScopedConnection.new p preferred = (p', .ok sc) ∧
        p.queue sc.nodeType sc.nodeNum = sc.conn :: rest ∧
        sc.nodeNum < (p.pool sc.nodeType).length ∧
        (p.shape sc.nodeType)[sc.nodeNum]?.map Prod.snd = some sc.nodeTag ∧
        (preferred = .master → sc.nodeType = .master) ∧
        p'.pool = (p.setQueue sc.nodeType sc.nodeNum rest).pool := by
  unfold ScopedConnection.new
  rw [p.getConnection_eq]
  rcases hsel : p.select preferred with _ | ⟨p₁, t, num⟩
  · exact .inl ⟨p, _, rfl, rfl⟩
  · obtain ⟨hpool, hnum, hmaster⟩ := p.select_spec hsel
    have hqueue : p₁.queue t num = p.queue t num := by simp only [ConnectionPool.queue, hpool]
    rcases p₁.popFront_cases t num (hpool ▸ hnum) with ⟨_, hpop⟩ | ⟨conn, rest, hq, hpop⟩
    · exact .inl ⟨p₁, noConnections, by simp only [hpop], hpool⟩
    · refine .inr ⟨_, _, rest, by simp only [hpop]; rfl, hqueue ▸ hq, hnum, ?_, hmaster, ?_⟩
      · simp only [ConnectionPool.shape, hpool, List.getElem?_map, List.getElem?_eq_getElem hnum,
          Option.map_some]
      · simp only [ConnectionPool.setQueue, hpool]

/-! ## The invariant -/

namespace PoolConfig

/-- The arguments of the constructor for one node type. -/
def nodes (cfg : PoolConfig) : NodeType → ConnectionStrCollection
  | .master => cfg.masters
  | .replica => cfg.replicas

/-- The connections the constructor opened for a node. -/
def opened (cfg : PoolConfig) (t : NodeType) (num : Nat) : List Connection :=
  match (cfg.nodes t)[num]? with
  | none => []
  | some entry => openConnections t num entry.1 cfg.poolSize

end PoolConfig

/-- The opened connections of a node are distinct. -/
theorem nodup_openConnections (t : NodeType) (num : Nat) (connStr : Bytes) (poolSize : Nat) :
    (openConnections t num connStr poolSize).Nodup :=
  List.Nodup.map (fun _ _ h => congrArg Connection.serial h) List.nodup_range

/-- A node opens as many connections as it is told to. -/
theorem length_openConnections (t : NodeType) (num : Nat) (connStr : Bytes) (poolSize : Nat) :
    (openConnections t num connStr poolSize).length = poolSize := by
  simp [openConnections]

/-- An opened connection belongs to the node it was opened for, through its string. -/
theorem mem_openConnections {t : NodeType} {num poolSize : Nat} {connStr : Bytes}
    {conn : Connection} (h : conn ∈ openConnections t num connStr poolSize) :
    conn.nodeType = t ∧ conn.nodeNum = num ∧ conn.connStr = connStr := by
  simp only [openConnections, List.mem_map] at h
  obtain ⟨i, _, rfl⟩ := h
  exact ⟨rfl, rfl, rfl⟩

/-- A connection belongs to the node that opened it. -/
theorem mem_opened {cfg : PoolConfig} {t : NodeType} {num : Nat} {conn : Connection}
    (h : conn ∈ cfg.opened t num) : conn.nodeType = t ∧ conn.nodeNum = num := by
  unfold PoolConfig.opened at h
  split at h
  · cases h
  · exact ⟨(mem_openConnections h).1, (mem_openConnections h).2.1⟩

/-- A node opens different connections. -/
theorem nodup_opened (cfg : PoolConfig) (t : NodeType) (num : Nat) :
    (cfg.opened t num).Nodup := by
  unfold PoolConfig.opened
  split
  · exact List.nodup_nil
  · exact nodup_openConnections _ _ _ _

/-- `e` is a live handle that names the node `(t, num)`. -/
def names (t : NodeType) (num : Nat) (e : Nat × ScopedConnection) : Bool :=
  e.2.nodeType = t && e.2.nodeNum = num

/-- The connections held by live `ScopedConnection`s that name the node. -/
def PoolState.held (s : PoolState) (t : NodeType) (num : Nat) : List Connection :=
  (s.live.filter (names t num)).map fun e => e.2.conn

/-- The invariant of every run of `PoolSystem`. -/
structure Conserved (cfg : PoolConfig) (s : PoolState) : Prop where
  /-- No node is added, removed or renamed. -/
  shape : ∀ t, s.pool.shape t = cfg.nodes t
  /-- A live handle names a node in range and carries its tag. -/
  handle : ∀ e ∈ s.live, ((cfg.nodes e.2.nodeType)[e.2.nodeNum]?).map Prod.snd = some e.2.nodeTag
  /-- Idle plus held is what the constructor opened. -/
  balance : ∀ t num, (s.pool.queue t num ++ s.held t num).Perm (cfg.opened t num)

/-- The constructor's loops, for either node type. -/
theorem new_pool (cfg : PoolConfig) (t : NodeType) :
    cfg.start.pool.pool t = (cfg.nodes t).mapIdx (openNode t cfg.poolSize) := by
  cases t <;> rfl

/-- A new pool has all its connections. -/
theorem conserved_start (cfg : PoolConfig) : Conserved cfg cfg.start where
  shape t := by
    unfold ConnectionPool.shape
    rw [new_pool]
    apply List.ext_getElem?
    intro i
    rw [List.getElem?_map, List.getElem?_mapIdx]
    cases (cfg.nodes t)[i]? <;> rfl
  handle e he := by cases he
  balance t num := by
    unfold ConnectionPool.queue PoolConfig.opened
    rw [new_pool, List.getElem?_mapIdx]
    cases (cfg.nodes t)[num]? with
    | none => exact .refl _
    | some entry =>
        show (openConnections t num entry.1 cfg.poolSize ++ []).Perm _
        rw [List.append_nil]

section step

variable {cfg : PoolConfig} {s : PoolState}

/-- A number in range of the configuration is in range of the pool. -/
theorem Conserved.length_pool (h : Conserved cfg s) (t : NodeType) :
    (s.pool.pool t).length = (cfg.nodes t).length := by
  rw [← ConnectionPool.length_shape, h.shape]

/-- The node a live handle names exists. -/
theorem Conserved.inRange (h : Conserved cfg s) {e : Nat × ScopedConnection} (he : e ∈ s.live) :
    e.2.nodeNum < (s.pool.pool e.2.nodeType).length := by
  rw [h.length_pool]
  have htag := h.handle e he
  by_contra hlt
  rw [List.getElem?_eq_none (not_lt.mp hlt)] at htag
  cases htag

/-- The connection of a live handle was opened for the node the handle names. -/
theorem Conserved.conn_mem_opened (h : Conserved cfg s) {e : Nat × ScopedConnection}
    (he : e ∈ s.live) : e.2.conn ∈ cfg.opened e.2.nodeType e.2.nodeNum := by
  refine (h.balance _ _).subset (List.mem_append_right _ ?_)
  exact List.mem_map.mpr ⟨e, List.mem_filter.mpr ⟨he, by simp [names]⟩, rfl⟩

/-- Moving a round-robin counter is invisible to the invariant. -/
theorem Conserved.of_pool_eq (h : Conserved cfg s) {p : ConnectionPool}
    (hp : p.pool = s.pool.pool) : Conserved cfg ⟨p, s.live⟩ where
  shape t := by simpa only [ConnectionPool.shape, hp] using h.shape t
  handle := h.handle
  balance t num := by
    simpa only [ConnectionPool.queue, PoolState.held, hp] using h.balance t num

/-- Taking the front of a queue into a new handle that names the queue's node. -/
theorem Conserved.take (h : Conserved cfg s) (client : Nat) {sc : ScopedConnection}
    {rest : List Connection} (hq : s.pool.queue sc.nodeType sc.nodeNum = sc.conn :: rest)
    (hnum : sc.nodeNum < (s.pool.pool sc.nodeType).length)
    (htag : (s.pool.shape sc.nodeType)[sc.nodeNum]?.map Prod.snd = some sc.nodeTag) :
    Conserved cfg ⟨s.pool.setQueue sc.nodeType sc.nodeNum rest, s.live ++ [(client, sc)]⟩ where
  shape t := by rw [ConnectionPool.shape_setQueue, h.shape]
  handle e he := by
    rcases List.mem_append.mp he with he | he
    · exact h.handle e he
    · rw [List.mem_singleton.mp he, ← h.shape]
      exact htag
  balance t num := by
    have hheld : PoolState.held ⟨s.pool.setQueue sc.nodeType sc.nodeNum rest,
        s.live ++ [(client, sc)]⟩ t num =
          s.held t num ++ if sc.nodeType = t ∧ sc.nodeNum = num then [sc.conn] else [] := by
      simp only [PoolState.held, List.filter_append, List.map_append]
      by_cases hn : sc.nodeType = t ∧ sc.nodeNum = num <;> simp [names, hn]
    rw [hheld]
    refine .trans ?_ (h.balance t num)
    by_cases hn : sc.nodeType = t ∧ sc.nodeNum = num
    · obtain ⟨rfl, rfl⟩ := hn
      rw [ConnectionPool.queue_setQueue_self _ _ _ _ hnum, hq, if_pos ⟨rfl, rfl⟩,
        ← List.append_assoc]
      exact List.perm_append_comm
    · rw [ConnectionPool.queue_setQueue_of_ne _ _ _ _ fun e => hn ⟨e.1.symm, e.2.symm⟩,
        if_neg hn, List.append_nil]

/-- Destroying a live handle returns its connection to the queue it came from. -/
theorem Conserved.giveBack (h : Conserved cfg s) {i : Nat} {e : Nat × ScopedConnection}
    (hi : s.live[i]? = some e) :
    Conserved cfg ⟨e.2.destroy s.pool, s.live.eraseIdx i⟩ := by
  obtain ⟨hlt, hget⟩ := List.getElem?_eq_some_iff.mp hi
  have hmem : e ∈ s.live := hget ▸ List.getElem_mem hlt
  have hrange := h.inRange hmem
  have hdestroy : e.2.destroy s.pool = s.pool.setQueue e.2.nodeType e.2.nodeNum
      (s.pool.queue e.2.nodeType e.2.nodeNum ++ [e.2.conn]) := by
    unfold ScopedConnection.destroy ConnectionPool.releaseConnection
    rw [if_pos hrange]
  rw [hdestroy]
  refine ⟨fun t => by rw [ConnectionPool.shape_setQueue, h.shape],
    fun e' he' => h.handle e' (List.mem_of_mem_eraseIdx he'), fun t num => ?_⟩
  have hperm : (e :: s.live.eraseIdx i).Perm s.live :=
    hget ▸ List.getElem_cons_eraseIdx_perm hlt
  have hheld : ((if names t num e then [e.2.conn] else []) ++
      PoolState.held ⟨s.pool, s.live.eraseIdx i⟩ t num).Perm (s.held t num) := by
    have := (hperm.filter (names t num)).map fun e => e.2.conn
    refine .trans (.of_eq ?_) this
    by_cases hn : names t num e <;> simp [PoolState.held, hn]
  refine .trans ?_ (h.balance t num)
  refine .trans ?_ (hheld.append_left _)
  by_cases hn : e.2.nodeType = t ∧ e.2.nodeNum = num
  · obtain ⟨rfl, rfl⟩ := hn
    rw [ConnectionPool.queue_setQueue_self _ _ _ _ hrange, if_pos (by simp [names]),
      List.append_assoc]
    exact .refl _
  · rw [ConnectionPool.queue_setQueue_of_ne _ _ _ _ fun e => hn ⟨e.1.symm, e.2.symm⟩,
      if_neg (by simpa [names] using hn), List.nil_append]
    exact .refl _

/-- Every step of every client keeps the invariant. -/
theorem Conserved.next (h : Conserved cfg s) {a : PoolAction} {s' : PoolState}
    (hs : s.next a = some s') : Conserved cfg s' := by
  cases a with
  | construct client preferred =>
      rcases ScopedConnection.new_cases s.pool preferred with
        ⟨p', e, hnew, hpool⟩ | ⟨p', sc, rest, hnew, hq, hnum, htag, -, hpool⟩
      · simp only [PoolState.next, hnew, Option.some.injEq] at hs
        exact hs ▸ h.of_pool_eq hpool
      · simp only [PoolState.next, hnew, Option.some.injEq] at hs
        exact hs ▸ (h.take client hq hnum htag).of_pool_eq hpool
  | destroy i =>
      simp only [PoolState.next, Option.map_eq_some_iff] at hs
      obtain ⟨e, hi, rfl⟩ := hs
      exact h.giveBack hi

end step

/-- `Conserved` holds in every reachable state. -/
theorem conserved_invariant (cfg : PoolConfig) : (PoolSystem cfg).Invariant (Conserved cfg) where
  init _ hs := hs ▸ conserved_start cfg
  step _ _ _ _ h hstep := h.next hstep

/-! ## Conservation -/

/-- What conservation means for the clients of a pool. -/
structure Conservation (cfg : PoolConfig) (s : PoolState) : Prop where
  /-- Idle plus held is what the constructor opened from the node's connection string. -/
  balance : ∀ t num entry, (cfg.nodes t)[num]? = some entry →
    (s.pool.queue t num ++ s.held t num).Perm (openConnections t num entry.1 cfg.poolSize)
  /-- Those are `pool_size` connections without repetition. -/
  distinct : ∀ t num entry, (cfg.nodes t)[num]? = some entry →
    (s.pool.queue t num ++ s.held t num).Nodup ∧
      (s.pool.queue t num ++ s.held t num).length = cfg.poolSize
  /-- No connection is held by two live `ScopedConnection`s. -/
  exclusive : (s.live.map fun e => e.2.conn).Nodup
  /-- A handle names the node its connection was opened for, and carries that node's tag. -/
  tag : ∀ e ∈ s.live, e.2.conn.nodeType = e.2.nodeType ∧ e.2.conn.nodeNum = e.2.nodeNum ∧
    ((cfg.nodes e.2.conn.nodeType)[e.2.conn.nodeNum]?).map Prod.snd = some e.2.nodeTag
  /-- The destructor of a live handle never drops its connection. -/
  inRange : ∀ e ∈ s.live, e.2.nodeNum < (s.pool.pool e.2.nodeType).length

/-- The held connections of one node are distinct. -/
theorem Conserved.nodup_held {cfg : PoolConfig} {s : PoolState} (h : Conserved cfg s)
    (t : NodeType) (num : Nat) : (s.held t num).Nodup :=
  (List.nodup_append.mp ((h.balance t num).nodup_iff.mpr (nodup_opened cfg t num))).2.1

/-- The held connections of all nodes together are distinct: a connection names its node. -/
theorem Conserved.nodup_live {cfg : PoolConfig} {s : PoolState} (h : Conserved cfg s) :
    (s.live.map fun e => e.2.conn).Nodup := by
  rw [List.nodup_iff_count_le_one]
  intro conn
  -- only the handles that name `conn`'s own node can hold `conn`
  have hcount : (s.live.map fun e => e.2.conn).count conn =
      (s.held conn.nodeType conn.nodeNum).count conn := by
    unfold PoolState.held
    rw [List.count_eq_countP, List.count_eq_countP, List.countP_map, List.countP_map, List.countP_filter]
    refine List.countP_congr fun e he => ?_
    have hconn := mem_opened (h.conn_mem_opened he)
    simp only [Function.comp_apply, beq_iff_eq, names, Bool.and_eq_true, decide_eq_true_eq]
    exact ⟨fun hc => ⟨hc, by rw [← hc]; exact ⟨hconn.1.symm, hconn.2.symm⟩⟩, fun hc => hc.1⟩
  rw [hcount]
  exact List.nodup_iff_count_le_one.mp (h.nodup_held _ _) conn

/-- **Connection conservation.** In every reachable state of a pool with any configuration, used
by any clients in any interleaving, no connection is lost, duplicated, shared or misplaced.
Source: `app_connection_pool.h`, `ConnectionPool`, `ScopedConnection` -/
theorem connections_conserved (cfg : PoolConfig) {s : PoolState}
    (hs : (PoolSystem cfg).Reachable s) : Conservation cfg s := by
  have h := (conserved_invariant cfg).reachable hs
  have hbalance : ∀ t num entry, (cfg.nodes t)[num]? = some entry →
      (s.pool.queue t num ++ s.held t num).Perm (openConnections t num entry.1 cfg.poolSize) := by
    intro t num entry hentry
    simpa only [PoolConfig.opened, hentry] using h.balance t num
  refine ⟨hbalance, fun t num entry hentry => ⟨?_, ?_⟩, h.nodup_live, fun e he => ?_,
    fun e he => h.inRange he⟩
  · exact (hbalance t num entry hentry).nodup_iff.mpr (nodup_openConnections _ _ _ _)
  · rw [(hbalance t num entry hentry).length_eq, length_openConnections]
  · have hconn := mem_opened (h.conn_mem_opened he)
    refine ⟨hconn.1, hconn.2, ?_⟩
    rw [hconn.1, hconn.2]
    exact h.handle e he

/-- One master and one replica, with two connections each. -/
def sampleConfig : PoolConfig where
  masters := [(str "host=m", str "m:5432")]
  replicas := [(str "host=r", str "r:5432")]
  poolSize := 2

/-- Three clients: a read, a write, a second read, and the end of the first read. -/
def sampleRun : List PoolAction :=
  [.construct 0 .replica, .construct 1 .master, .construct 2 .replica, .destroy 0]

/-- The state `sampleRun` leads to. -/
def sampleState : PoolState :=
  (System.runFrom PoolState.next sampleConfig.start sampleRun).getD sampleConfig.start

/-- A run in which two clients take a connection and one gives it back. -/
theorem sampleState_reachable : (PoolSystem sampleConfig).Reachable sampleState :=
  System.Reachable.runFrom sampleRun (.init rfl) rfl

/-- The connections are conserved in that run. -/
theorem connections_conserved_sampleState : Conservation sampleConfig sampleState :=
  connections_conserved sampleConfig sampleState_reachable

/-! ## Availability -/

/-- The clients are among `clients`, and none creates a `ScopedConnection` while it has one. -/
def OnePerClient (clients : Finset Nat) (s : PoolState) : PoolAction → Prop
  | .construct client _ => client ∈ clients ∧ ∀ e ∈ s.live, e.1 ≠ client
  | .destroy _ => True

/-- Under `OnePerClient`, the live handles have distinct owners from `clients`. -/
theorem onePerClient_invariant (cfg : PoolConfig) (clients : Finset Nat) :
    ((PoolSystem cfg).guarded (OnePerClient clients)).Invariant fun s =>
      (s.live.map Prod.fst).Nodup ∧ ∀ e ∈ s.live, e.1 ∈ clients where
  init s hs := by
    rw [show s = cfg.start from hs]
    exact ⟨List.nodup_nil, fun e he => by cases he⟩
  step s a s' _ h hstep := by
    obtain ⟨hguard, hstep⟩ := hstep
    change s.next a = some s' at hstep
    cases a with
    | construct client preferred =>
        obtain ⟨hclient, hfree⟩ := hguard
        rcases ScopedConnection.new_cases s.pool preferred with
          ⟨p', e, hnew, -⟩ | ⟨p', sc, rest, hnew, -⟩
        · simp only [PoolState.next, hnew, Option.some.injEq] at hstep
          exact hstep ▸ h
        · simp only [PoolState.next, hnew, Option.some.injEq] at hstep
          subst hstep
          refine ⟨?_, fun e he => ?_⟩
          · rw [List.map_append, List.nodup_append]
            refine ⟨h.1, List.nodup_singleton _, fun x hx y hy => ?_⟩
            obtain ⟨e, he, rfl⟩ := List.mem_map.mp hx
            rw [show y = client by simpa using hy]
            exact hfree e he
          · rcases List.mem_append.mp he with he | he
            · exact h.2 e he
            · rw [List.mem_singleton.mp he]
              exact hclient
    | destroy i =>
        simp only [PoolState.next, Option.map_eq_some_iff] at hstep
        obtain ⟨e, -, rfl⟩ := hstep
        refine ⟨?_, fun e he => h.2 e (List.mem_of_mem_eraseIdx he)⟩
        exact h.1.sublist ((List.eraseIdx_sublist _ _).map _)

/-- A client without a handle leaves room: fewer handles than clients are out. -/
theorem live_length_lt {clients : Finset Nat} {live : List (Nat × ScopedConnection)}
    (hnodup : (live.map Prod.fst).Nodup) (hmem : ∀ e ∈ live, e.1 ∈ clients) {client : Nat}
    (hclient : client ∈ clients) (hfree : ∀ e ∈ live, e.1 ≠ client) :
    live.length < clients.card := by
  have hsub : (live.map Prod.fst).toFinset ⊆ clients.erase client := by
    intro x hx
    obtain ⟨e, he, rfl⟩ := List.mem_map.mp (List.mem_toFinset.mp hx)
    exact Finset.mem_erase.mpr ⟨hfree e he, hmem e he⟩
  calc live.length = (live.map Prod.fst).toFinset.card := by
        rw [List.toFinset_card_of_nodup hnodup, List.length_map]
    _ ≤ (clients.erase client).card := Finset.card_le_card hsub
    _ < clients.card := Finset.card_erase_lt_of_mem hclient

/-- `get_connection` throws only when all `pool_size` connections of the selected node are out.
(There is a master, so some node is selected.) -/
theorem Conserved.exhausted {cfg : PoolConfig} {s : PoolState} (h : Conserved cfg s)
    (hmaster : cfg.masters ≠ []) {preferred : NodeType} {p' : ConnectionPool} {e : Bytes}
    (hget : s.pool.getConnection preferred = (p', .error e)) :
    cfg.poolSize ≤ s.live.length := by
  have hpool : s.pool.pool .master ≠ [] := by
    have hlen := h.length_pool .master
    rw [← List.length_pos_iff, hlen]
    exact List.length_pos_iff.mpr hmaster
  obtain ⟨p₁, t, num, hsel⟩ := s.pool.select_isSome preferred hpool
  obtain ⟨hpool₁, hnum, -⟩ := s.pool.select_spec hsel
  rw [s.pool.getConnection_eq, hsel] at hget
  rcases p₁.popFront_cases t num (hpool₁ ▸ hnum) with ⟨hempty, -⟩ | ⟨conn, rest, -, hpop⟩
  · have hqueue : s.pool.queue t num = [] := by
      simpa only [ConnectionPool.queue, hpool₁] using hempty
    rw [h.length_pool] at hnum
    have hlen := (h.balance t num).length_eq
    simp only [hqueue, List.nil_append, PoolConfig.opened, List.getElem?_eq_getElem hnum,
      length_openConnections] at hlen
    calc cfg.poolSize = (s.held t num).length := hlen.symm
      _ ≤ s.live.length := by
        unfold PoolState.held
        rw [List.length_map]
        exact List.length_filter_le _ _
  · simp only [hpop, Prod.mk.injEq, reduceCtorEq, and_false] at hget

/-- The constructor of `ScopedConnection` throws only when `get_connection` does. -/
theorem ScopedConnection.new_error {p p' : ConnectionPool} {preferred : NodeType} {e : Bytes}
    (h : ScopedConnection.new p preferred = (p', .error e)) :
    p.getConnection preferred = (p', .error e) := by
  unfold ScopedConnection.new at h
  rcases hget : p.getConnection preferred with ⟨p₁, e₁ | tntc⟩
  · rw [hget] at h
    cases h
    rfl
  · rw [hget] at h
    cases h

/-- A `ScopedConnection` names the node its connection was opened for. -/
theorem Conserved.new_ok {cfg : PoolConfig} {s : PoolState} (h : Conserved cfg s)
    {preferred : NodeType} {p' : ConnectionPool} {sc : ScopedConnection}
    (hnew : ScopedConnection.new s.pool preferred = (p', .ok sc)) :
    sc.conn.nodeType = sc.nodeType ∧ sc.nodeNum < (cfg.nodes sc.nodeType).length ∧
      (preferred = .master → sc.nodeType = .master) := by
  rcases ScopedConnection.new_cases s.pool preferred with
    ⟨_, _, hnew', -⟩ | ⟨_, sc', rest, hnew', hq, hnum, -, hmaster, -⟩
  · rw [hnew'] at hnew
    cases hnew
  · rw [hnew'] at hnew
    cases hnew
    have hmem : sc.conn ∈ cfg.opened sc.nodeType sc.nodeNum := by
      refine (h.balance _ _).subset (List.mem_append_left _ ?_)
      rw [hq]
      exact List.mem_cons_self
    rw [h.length_pool] at hnum
    exact ⟨(mem_opened hmem).1, hnum, hmaster⟩

/-- **A request never fails for lack of a pooled connection.** With at least one master, at most
`pool_size` clients and at most one connection each, a client that holds none gets one, for either
preferred type and whatever the round robin selects.
Source: `app_connection_pool.h`, `ConnectionPool::get_connection`; `app.cpp`, `App::db_start`,
`App::http_start` -/
theorem getConnection_available (cfg : PoolConfig) (clients : Finset Nat)
    (hmaster : cfg.masters ≠ []) (hsize : clients.card ≤ cfg.poolSize) {s : PoolState}
    (hs : ((PoolSystem cfg).guarded (OnePerClient clients)).Reachable s) (client : Nat)
    (hclient : client ∈ clients) (hfree : ∀ e ∈ s.live, e.1 ≠ client) (preferred : NodeType) :
    ∃ p' tntc, s.pool.getConnection preferred = (p', .ok tntc) := by
  have hcons := (conserved_invariant cfg).reachable hs.of_guarded
  obtain ⟨hnodup, hmem⟩ := (onePerClient_invariant cfg clients).reachable hs
  rcases hget : s.pool.getConnection preferred with ⟨p', e | tntc⟩
  · -- an exception would mean that `pool_size` connections are out, one for each client
    have hsize' := hcons.exhausted hmaster hget
    have hlive := live_length_lt hnodup hmem hclient hfree
    omega
  · exact ⟨p', tntc, rfl⟩

/-- `sampleConfig` after the client 9 has got a connection to the replica. -/
def heldState : PoolState :=
  (sampleConfig.start.next (.construct 9 .replica)).getD sampleConfig.start

/-- A guarded run after which one client holds a connection. -/
theorem heldState_reachable :
    ((PoolSystem sampleConfig).guarded (OnePerClient {7, 9})).Reachable heldState :=
  .step (a := .construct 9 .replica) (.init rfl) ⟨⟨by decide, fun _ he => by cases he⟩, rfl⟩

/-- While the client 9 holds one, the client 7 gets a connection. -/
theorem getConnection_available_held :
    heldState.live.map Prod.fst = [9] ∧
      ∃ p' tntc, heldState.pool.getConnection .replica = (p', .ok tntc) :=
  ⟨rfl, getConnection_available sampleConfig {7, 9} (by decide) (by decide) heldState_reachable 7
    (by decide) (by decide) .replica⟩

end SocialNetwork.Pool
