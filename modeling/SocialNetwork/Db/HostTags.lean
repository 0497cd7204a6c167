import SocialNetwork.Db.DbStart
import SocialNetwork.Net.Duplicates

/-!
# The tags that `db_start` collects

`db_start` again, with `db_host_tags`: the `std::set` takes the tag of a node as soon as its URL is
parsed, and keeps it also when the rest of the node throws. Where `db_start` succeeds it gives what
`dbStart` gives, and the set holds the tags of exactly the nodes of the pool (`mem_dbHostTags`), each
once however many nodes share it.
-/

namespace SocialNetwork.Db

open Foundation Helpers Config

/-! ## The model -/

/-- A piece of `db_start`: it inserts into `db_host_tags`, and may throw. -/
abbrev StartM := EStateM Bytes (List Bytes)

/-- `db_host_tags.insert(tag)`. -/
def insertTag (tag : Bytes) (tags : List Bytes) : List Bytes :=
  (OrderedSet.insert Net.stringLess tag tags).2

/-- What `db_start` does with a node. -/
def startNode (node : Pgsql) : StartM (Bytes × Bytes) := do
  let url ← MonadExcept.ofExcept (Url.parse node.url)
  let tag := url.host ++ str ":" ++ decimal url.getPort.toNat
  modify (insertTag tag)
  let dbname ← MonadExcept.ofExcept (substr url.path 1)
  return (connStr node.login node.password url.host url.getPort dbname, tag)

/-- `App::db_start` on `db_host_tags`, up to the arguments of the `ConnectionPool`. -/
def startNodes (cfg : ConfigS) : StartM (List (Bytes × Bytes) × List (Bytes × Bytes) × Int) := do
  let master ← startNode cfg.pgsqlMaster
  let replicas ← cfg.pgsqlReplica.mapM startNode
  return ([master], replicas, cfg.httpThreadsCount)

/-- The set after the tags of these nodes. -/
def insertTags (tags : List Bytes) (conns : List (Bytes × Bytes)) : List Bytes :=
  conns.foldl (fun tags conn => insertTag conn.2 tags) tags

/-! ## What it computes -/

/-- A node that is started adds its tag. -/
theorem startNode_run_iff {node : Pgsql} {conn : Bytes × Bytes} {tags tags' : List Bytes} :
    (startNode node).run tags = .ok conn tags' ↔
      nodeConnection node = .ok conn ∧ tags' = insertTag conn.2 tags := by
  simp only [startNode, nodeConnection, run_bind_eq_ok, bind_eq_ok, run_ofExcept_eq_ok,
    run_modify_eq_ok, run_pure_eq_ok, pure_eq_ok]
  constructor
  · rintro ⟨url, _, ⟨hurl, rfl⟩, _, _, rfl, dbname, _, ⟨hdb, rfl⟩, rfl, rfl⟩
    exact ⟨⟨url, hurl, dbname, hdb, rfl⟩, rfl⟩
  · rintro ⟨⟨url, hurl, dbname, hdb, rfl⟩, rfl⟩
    exact ⟨url, _, ⟨hurl, rfl⟩, (), _, rfl, dbname, _, ⟨hdb, rfl⟩, rfl, rfl⟩

/-- The nodes that are started add their tags. -/
theorem startNode_mapM_run_iff {nodes : List Pgsql} {conns : List (Bytes × Bytes)}
    {tags tags' : List Bytes} :
    (nodes.mapM startNode).run tags = .ok conns tags' ↔
      nodes.mapM nodeConnection = .ok conns ∧ tags' = insertTags tags conns := by
  induction nodes generalizing conns tags tags' with
  | nil =>
      rw [List.mapM_nil, List.mapM_nil, run_pure_eq_ok, pure_eq_ok]
      constructor
      · rintro ⟨rfl, rfl⟩
        exact ⟨rfl, rfl⟩
      · rintro ⟨rfl, rfl⟩
        exact ⟨rfl, rfl⟩
  | cons node nodes ih =>
      simp only [List.mapM_cons, run_bind_eq_ok, bind_eq_ok, startNode_run_iff, ih, run_pure_eq_ok,
        pure_eq_ok]
      constructor
      · rintro ⟨conn, _, ⟨hconn, rfl⟩, conns, _, ⟨hconns, rfl⟩, rfl, rfl⟩
        exact ⟨⟨conn, hconn, conns, hconns, rfl⟩, rfl⟩
      · rintro ⟨⟨conn, hconn, conns, hconns, rfl⟩, rfl⟩
        exact ⟨conn, _, ⟨hconn, rfl⟩, conns, _, ⟨hconns, rfl⟩, rfl, rfl⟩

/-- **`db_start` with its tags.** It succeeds where `dbStart` does, with the same arguments of the
pool, and the set then holds the tags of all nodes. -/
theorem startNodes_run_iff {cfg : ConfigS} {masters replicas : List (Bytes × Bytes)} {n : Int}
    {tags : List Bytes} :
    (startNodes cfg).run [] = .ok (masters, replicas, n) tags ↔
      dbStart cfg = .ok (masters, replicas, n) ∧ tags = insertTags [] (masters ++ replicas) := by
  simp only [startNodes, dbStart, run_bind_eq_ok, bind_eq_ok, startNode_run_iff,
    startNode_mapM_run_iff, run_pure_eq_ok, pure_eq_ok]
  constructor
  · rintro ⟨master, _, ⟨hmaster, rfl⟩, conns, _, ⟨hconns, rfl⟩, h, rfl⟩
    cases h
    exact ⟨⟨master, hmaster, replicas, hconns, rfl⟩, rfl⟩
  · rintro ⟨⟨master, hmaster, conns, hconns, h⟩, rfl⟩
    cases h
    exact ⟨master, _, ⟨hmaster, rfl⟩, replicas, _, ⟨hconns, rfl⟩, rfl, rfl⟩

/-! ## The set -/

/-- One tag more. -/
theorem mem_insertTag {tag x : Bytes} {tags : List Bytes} :
    x ∈ insertTag tag tags ↔ x = tag ∨ x ∈ tags :=
  OrderedSet.mem_insert Net.stringLess_keyed fun _ _ h => map_toNat_inj.mp h

/-- The tags of the nodes more. -/
theorem mem_insertTags {tags : List Bytes} {conns : List (Bytes × Bytes)} {x : Bytes} :
    x ∈ insertTags tags conns ↔ x ∈ tags ∨ ∃ conn ∈ conns, conn.2 = x := by
  induction conns generalizing tags with
  | nil => simp [insertTags]
  | cons conn conns ih =>
      change x ∈ insertTags (insertTag conn.2 tags) conns ↔ _
      rw [ih, mem_insertTag, List.exists_mem_cons_iff, eq_comm, or_assoc, or_left_comm]

/-- However many nodes share a tag, the set holds it once. -/
theorem nodup_insertTags (conns : List (Bytes × Bytes)) : (insertTags [] conns).Nodup := by
  have hsorted : ∀ tags, OrderedSet.Sorted (fun s : Bytes => s.map UInt8.toNat) tags →
      OrderedSet.Sorted (fun s : Bytes => s.map UInt8.toNat) (insertTags tags conns) := by
    induction conns with
    | nil => exact fun tags h => h
    | cons conn conns ih => exact fun tags h => ih _ (h.insert Net.stringLess_keyed conn.2)
  exact (hsorted [] .nil).nodup

end SocialNetwork.Db
