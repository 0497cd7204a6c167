import SocialNetwork.Pool.Conservation
import SocialNetwork.Foundation.Cycles

/-!
# Round robin is fair

The calls of `get_connection` in a run of `PoolSystem` are recorded in a history variable
(`recordCall`): what was asked for, which node the round robin landed on (also when its queue was
empty and the call threw), and which node the returned connection is from.

Each of the two counters moves with one kind of call only (`counterOf`, `drives`), so the nodes
selected by the calls that drive a counter go round the nodes of its type (`Tallied`). The claims
about single calls and the fairness over every window are read off that invariant in
`getConnection_fair`.
-/

namespace SocialNetwork.Pool

open Foundation

/-! ## Recorded calls -/

/-- One call of `get_connection`. -/
structure Call where
  /-- The argument. -/
  preferred : NodeType
  /-- The node whose queue was looked at, also when it was empty: `get_connection` is this selection
  followed by the pop (`ConnectionPool.getConnection_eq`). -/
  selected : Option (NodeType × Nat)
  /-- The node in the returned tuple; `none` when the call threw. -/
  served : Option (NodeType × Nat)
  deriving DecidableEq, Repr

/-- The call `get_connection(preferred)` on a pool. -/
def ConnectionPool.call (p : ConnectionPool) (preferred : NodeType) : Call where
  preferred := preferred
  selected := (p.select preferred).map fun r => (r.2.1, r.2.2)
  served :=
    match (p.getConnection preferred).2 with
    | .ok tntc => some (tntc.nodeType, tntc.nodeNum)
    | .error _ => none

/-- The history of a run: the calls of `get_connection`, oldest first. -/
def recordCall (log : List Call) (s : PoolState) : PoolAction → PoolState → List Call
  | .construct _ preferred, _ => log ++ [s.pool.call preferred]
  | .destroy _, _ => log

/-- The pool, its clients, and the calls so far. -/
def RecordedSystem (cfg : PoolConfig) : System (PoolState × List Call) PoolAction :=
  (PoolSystem cfg).withHistory [] recordCall

/-! ## The counters -/

/-- The static counter of a node type. -/
def ConnectionPool.counterOf (p : ConnectionPool) : NodeType → Nat
  | .replica => p.lastUsedReplicaNum
  | .master => p.lastUsedMasterNum

namespace PoolConfig

/-- The calls that are routed to nodes of type `t`: to the replicas those that ask for one, to the
masters those that ask for one, and all calls when there is no replica. -/
def drives (cfg : PoolConfig) : NodeType → NodeType → Bool
  | .replica, preferred => preferred = .replica
  | .master, preferred => preferred = .master || cfg.replicas.isEmpty

/-- The recorded calls that are routed to nodes of type `t`. -/
def routed (cfg : PoolConfig) (t : NodeType) (log : List Call) : List Call :=
  log.filter fun c => cfg.drives t c.preferred

end PoolConfig

/-- What a call selects, and where it leaves the counters: either a node type that has nodes and
is driven by the call moves on by one, or the call selects nothing. -/
theorem ConnectionPool.select_cases {cfg : PoolConfig} {p : ConnectionPool}
    (hp : ∀ t, (p.pool t).length = (cfg.nodes t).length) (preferred : NodeType) :
    (∃ t p', p.select preferred = some (p', t, (p.counterOf t + 1) % (cfg.nodes t).length) ∧
        0 < (cfg.nodes t).length ∧ cfg.drives t preferred = true ∧
        p'.counterOf t = (p.counterOf t + 1) % (cfg.nodes t).length ∧
        ∀ t', t' ≠ t → p'.counterOf t' = p.counterOf t' ∧
          (0 < (cfg.nodes t').length → cfg.drives t' preferred = false)) ∨
      p.select preferred = none ∧
        ∀ t, 0 < (cfg.nodes t).length → cfg.drives t preferred = false := by
  have hr := hp .replica
  have hm := hp .master
  simp only [PoolConfig.nodes] at hr hm
  unfold ConnectionPool.select
  by_cases hrep : !(p.pool .replica).isEmpty && preferred = .replica
  · rw [if_pos hrep]
    simp only [Bool.and_eq_true, Bool.not_eq_true', List.isEmpty_eq_false_iff,
      decide_eq_true_eq] at hrep
    obtain ⟨hne, hpref⟩ := hrep
    have hpos : 0 < cfg.replicas.length := hr ▸ List.length_pos_iff.mpr hne
    refine .inl ⟨.replica, _, by rw [hr]; rfl, hpos, by simp [PoolConfig.drives, hpref],
      by simp [counterOf, PoolConfig.nodes], ?_⟩
    intro t' ht'
    cases t' with
    | replica => exact absurd rfl ht'
    | master =>
        refine ⟨rfl, fun _ => ?_⟩
        simp [PoolConfig.drives, hpref, List.length_pos_iff.mp hpos]
  · rw [if_neg hrep]
    have hrep' : 0 < cfg.replicas.length → preferred ≠ .replica := by
      intro hpos hpref
      apply hrep
      simp only [Bool.and_eq_true, Bool.not_eq_true', List.isEmpty_eq_false_iff,
        decide_eq_true_eq]
      exact ⟨List.length_pos_iff.mp (hr.symm ▸ hpos), hpref⟩
    have hdrives : cfg.drives .master preferred = true := by
      unfold PoolConfig.drives
      cases hpref : preferred with
      | master => rfl
      | replica =>
          have hzero : ¬0 < cfg.replicas.length := fun h => hrep' h hpref
          simpa using hzero
    by_cases hmas : !(p.pool .master).isEmpty
    · rw [if_pos hmas]
      have hne : p.pool .master ≠ [] := by simpa using hmas
      have hpos : 0 < cfg.masters.length := hm ▸ List.length_pos_iff.mpr hne
      refine .inl ⟨.master, _, by rw [hm]; rfl, hpos, hdrives,
        by simp [counterOf, PoolConfig.nodes], ?_⟩
      intro t' ht'
      cases t' with
      | master => exact absurd rfl ht'
      | replica =>
          refine ⟨rfl, fun hpos' => ?_⟩
          simpa [PoolConfig.drives] using hrep' hpos'
    · rw [if_neg hmas]
      refine .inr ⟨rfl, ?_⟩
      intro t ht
      cases t with
      | replica => simpa [PoolConfig.drives] using hrep' ht
      | master =>
          have hnil : p.pool .master = [] := by simpa using hmas
          rw [PoolConfig.nodes, ← hm, hnil] at ht
          exact absurd ht (Nat.lt_irrefl 0)

/-! ## The invariant -/

/-- What holds of every single call: it is served by the node it selected or throws, a `MASTER`
call never goes to a replica, a `REPLICA` call goes to a master only if there is no replica, and
the index is in range. -/
structure Call.Proper (cfg : PoolConfig) (c : Call) : Prop where
  served : c.served = none ∨ c.served = c.selected
  master : c.preferred = .master → ∀ num, c.selected ≠ some (.replica, num)
  replica : ∀ num, c.preferred = .replica → c.selected = some (.master, num) → cfg.replicas = []
  range : ∀ t num, c.selected = some (t, num) → num < (cfg.nodes t).length

/-- The state of the pool matches the calls so far. -/
structure Tallied (cfg : PoolConfig) (s : PoolState × List Call) : Prop where
  /-- A counter has moved once for each call routed to its type. -/
  counter : ∀ t, 0 < (cfg.nodes t).length →
    s.1.pool.counterOf t = (cfg.routed t s.2).length % (cfg.nodes t).length
  /-- The calls routed to a type select its nodes in turn, from the node 1 on. -/
  selected : ∀ t, 0 < (cfg.nodes t).length → ∀ k (h : k < (cfg.routed t s.2).length),
    ((cfg.routed t s.2)[k]).selected = some (t, (k + 1) % (cfg.nodes t).length)
  /-- Each call is as it should be. -/
  proper : ∀ c ∈ s.2, c.Proper cfg

/-- A call is served from the node it selects, and the counters are where the selection left
them. -/
theorem ConnectionPool.getConnection_outcome (p : ConnectionPool) (preferred : NodeType) :
    ((p.call preferred).served = none ∨
        (p.call preferred).served = (p.call preferred).selected) ∧
      ∀ t, (p.getConnection preferred).1.counterOf t =
        ((p.select preferred).elim p Prod.fst).counterOf t := by
  unfold call
  rw [p.getConnection_eq]
  rcases hsel : p.select preferred with _ | ⟨p', t, num⟩
  · exact ⟨.inl rfl, fun _ => rfl⟩
  · obtain ⟨hpool, hnum, -⟩ := p.select_spec hsel
    rcases p'.popFront_cases t num (hpool ▸ hnum) with ⟨-, hpop⟩ | ⟨conn, rest, -, hpop⟩
    · simp only [hpop]
      exact ⟨.inl trivial, fun _ => rfl⟩
    · simp only [hpop]
      exact ⟨.inr rfl, fun t' => by cases t' <;> rfl⟩

section step

variable {cfg : PoolConfig}

/-- A recorded call is proper. -/
theorem ConnectionPool.proper_call {p : ConnectionPool}
    (hp : ∀ t, (p.pool t).length = (cfg.nodes t).length) (preferred : NodeType) :
    (p.call preferred).Proper cfg := by
  refine ⟨(p.getConnection_outcome preferred).1, ?_, ?_, ?_⟩
  all_goals
    rcases p.select_cases hp preferred with ⟨t, p', hsel, hpos, hdrives, -⟩ | ⟨hsel, -⟩
  · intro hmaster num heq
    simp only [call, hsel, Option.map_some, Option.some.injEq, Prod.mk.injEq] at heq hmaster
    obtain ⟨rfl, -⟩ := heq
    rw [hmaster] at hdrives
    cases hdrives
  · intro _ num heq
    simp only [call, hsel, Option.map_none] at heq
    cases heq
  · intro num hreplica heq
    simp only [call, hsel, Option.map_some, Option.some.injEq, Prod.mk.injEq] at heq hreplica
    obtain ⟨rfl, -⟩ := heq
    rw [hreplica] at hdrives
    simpa [PoolConfig.drives] using hdrives
  · intro num _ heq
    simp only [call, hsel, Option.map_none] at heq
    cases heq
  · intro t' num heq
    simp only [call, hsel, Option.map_some, Option.some.injEq, Prod.mk.injEq] at heq
    obtain ⟨rfl, rfl⟩ := heq
    exact Nat.mod_lt _ hpos
  · intro t' num heq
    simp only [call, hsel, Option.map_none] at heq
    cases heq

/-- Recording one more call. -/
theorem PoolConfig.routed_append (t : NodeType) (log : List Call) (c : Call) :
    cfg.routed t (log ++ [c]) =
      cfg.routed t log ++ if cfg.drives t c.preferred then [c] else [] := by
  unfold routed
  rw [List.filter_append, List.filter_singleton]
  cases cfg.drives t c.preferred <;> rfl

/-- A call of `get_connection` keeps the tally. -/
theorem Tallied.construct {s : PoolState} {log : List Call} (h : Tallied cfg (s, log))
    (hp : ∀ t, (s.pool.pool t).length = (cfg.nodes t).length) {preferred : NodeType}
    {s' : PoolState}
    (hs' : ∀ t, s'.pool.counterOf t = (s.pool.getConnection preferred).1.counterOf t) :
    Tallied cfg (s', log ++ [s.pool.call preferred]) := by
  have houtcome := (s.pool.getConnection_outcome preferred).2
  -- what the call does to the tally of a type that has nodes
  have hcall : ∀ t, 0 < (cfg.nodes t).length →
      cfg.drives t preferred = true ∧
          (s.pool.call preferred).selected =
            some (t, (s.pool.counterOf t + 1) % (cfg.nodes t).length) ∧
          s'.pool.counterOf t = (s.pool.counterOf t + 1) % (cfg.nodes t).length ∨
        cfg.drives t preferred = false ∧ s'.pool.counterOf t = s.pool.counterOf t := by
    intro t ht
    rw [hs', houtcome]
    rcases s.pool.select_cases hp preferred with
      ⟨t₁, p', hsel, hpos, hdrives, hcounter, hother⟩ | ⟨hsel, hnone⟩
    · by_cases htt : t = t₁
      · subst htt
        refine .inl ⟨hdrives, ?_, ?_⟩
        · simp only [ConnectionPool.call, hsel, Option.map_some]
        · rw [hsel]
          exact hcounter
      · rw [hsel]
        exact .inr ⟨(hother t htt).2 ht, (hother t htt).1⟩
    · rw [hsel]
      exact .inr ⟨hnone t ht, rfl⟩
  have hpref : (s.pool.call preferred).preferred = preferred := rfl
  constructor
  · intro t ht
    have hcount : s.pool.counterOf t = (cfg.routed t log).length % (cfg.nodes t).length :=
      h.counter t ht
    simp only [PoolConfig.routed_append, hpref]
    rcases hcall t ht with ⟨hdrives, -, hmoved⟩ | ⟨hdrives, hkept⟩
    · rw [hmoved, hcount, hdrives, if_pos rfl, List.length_append, List.length_singleton,
        Nat.mod_add_mod]
    · rw [hkept, hcount, hdrives, if_neg Bool.false_ne_true, List.append_nil]
  · intro t ht k hk
    have hcount : s.pool.counterOf t = (cfg.routed t log).length % (cfg.nodes t).length :=
      h.counter t ht
    simp only [PoolConfig.routed_append, hpref] at hk ⊢
    rcases hcall t ht with ⟨hdrives, hselected, -⟩ | ⟨hdrives, -⟩
    · simp only [hdrives, if_true] at hk ⊢
      by_cases hlt : k < (cfg.routed t log).length
      · rw [List.getElem_append_left hlt]
        exact h.selected t ht k hlt
      · have hk' : k = (cfg.routed t log).length := by
          rw [List.length_append, List.length_singleton] at hk
          omega
        subst hk'
        rw [List.getElem_append_right le_rfl]
        simp only [Nat.sub_self, List.getElem_cons_zero]
        rw [hselected, hcount, Nat.mod_add_mod]
    · simp only [hdrives, Bool.false_eq_true, if_false, List.append_nil] at hk ⊢
      exact h.selected t ht k hk
  · intro c hc
    rcases List.mem_append.mp hc with hc | hc
    · exact h.proper c hc
    · rw [List.mem_singleton.mp hc]
      exact ConnectionPool.proper_call hp preferred

/-- Returning a connection keeps the tally: no counter moves. -/
theorem counterOf_releaseConnection (p : ConnectionPool) (tntc : TypeNumTagConnection)
    (t : NodeType) : (p.releaseConnection tntc).counterOf t = p.counterOf t := by
  unfold ConnectionPool.releaseConnection
  split
  · cases t <;> rfl
  · rfl

end step

/-- `Tallied` holds in every reachable state. -/
theorem tallied_invariant (cfg : PoolConfig) :
    (RecordedSystem cfg).Invariant (Tallied cfg) where
  init s hs := by
    obtain ⟨hstart, hlog⟩ := hs
    obtain ⟨s, log⟩ := s
    simp only at hstart hlog
    subst hlog
    constructor
    · intro t _
      rw [show s = cfg.start from hstart]
      cases t <;> simp [PoolConfig.routed, PoolConfig.start, ConnectionPool.new,
        ConnectionPool.counterOf]
    · intro t _ k hk
      simp [PoolConfig.routed] at hk
    · intro c hc
      cases hc
  step s a s' hs h hstep := by
    obtain ⟨s, log⟩ := s
    obtain ⟨s', log'⟩ := s'
    obtain ⟨hnext, hlog⟩ := hstep
    simp only at hnext hlog
    subst hlog
    have hlen := ((conserved_invariant cfg).reachable (System.Reachable.of_withHistory hs)).length_pool
    cases a with
    | construct client preferred =>
        refine h.construct hlen fun t => ?_
        simp only [PoolSystem, System.ofNext, PoolState.next, ScopedConnection.new] at hnext
        rcases hget : s.pool.getConnection preferred with ⟨p', e | tntc⟩
        · simp only [hget, Option.some.injEq] at hnext
          rw [← hnext]
        · simp only [hget, Option.some.injEq] at hnext
          rw [← hnext]
    | destroy i =>
        simp only [PoolSystem, System.ofNext, PoolState.next, Option.map_eq_some_iff] at hnext
        obtain ⟨e, -, rfl⟩ := hnext
        refine ⟨fun t ht => ?_, h.selected, h.proper⟩
        rw [ScopedConnection.destroy, counterOf_releaseConnection]
        exact h.counter t ht

/-! ## Fairness -/

/-- How many of the calls select the node. -/
def selections (calls : List Call) (t : NodeType) (num : Nat) : Nat :=
  calls.countP fun c => c.selected = some (t, num)

/-- What the round robin promises about the calls of a run. The node that a call has selected is the
one that `get_connection` pops from (`ConnectionPool.getConnection_eq`), so it is also the one that
serves the call, if the call does not throw (`Call.Proper`). -/
structure Fairness (cfg : PoolConfig) (log : List Call) : Prop where
  /-- Each call respects the node type it asked for, and its index is in range. -/
  proper : ∀ c ∈ log, c.Proper cfg
  /-- The `k`-th call routed to a type selects its node `k mod N`, counting from 1 and counting
  the calls that throw. -/
  order : ∀ t, 0 < (cfg.nodes t).length → ∀ k (h : k < (cfg.routed t log).length),
    ((cfg.routed t log)[k]).selected = some (t, (k + 1) % (cfg.nodes t).length)
  /-- In a window of `n` consecutive calls routed to a type, each of its nodes is selected
  `⌊n / N⌋` or `⌈n / N⌉` times. -/
  window : ∀ t, 0 < (cfg.nodes t).length → ∀ a n, a + n ≤ (cfg.routed t log).length →
    ∀ num < (cfg.nodes t).length,
      selections (((cfg.routed t log).drop a).take n) t num = n / (cfg.nodes t).length ∨
        selections (((cfg.routed t log).drop a).take n) t num = n ⌈/⌉ (cfg.nodes t).length

/-- The numbers of the nodes that calls of type `t` select. -/
def selectedNums (calls : List Call) : List Nat :=
  calls.map fun c => (c.selected.map Prod.snd).getD 0

/-- **Round robin is fair and respects node types**, in every run of a pool with any number of
masters and replicas, whatever its clients ask for and give back in between.
Source: `app_connection_pool.h`, `ConnectionPool::get_connection` -/
theorem getConnection_fair (cfg : PoolConfig) {s : PoolState × List Call}
    (hs : (RecordedSystem cfg).Reachable s) : Fairness cfg s.2 := by
  have h := (tallied_invariant cfg).reachable hs
  refine ⟨h.proper, h.selected, fun t ht a n han num hnum => ?_⟩
  have hcyclic : CyclesFrom (cfg.nodes t).length 1 (selectedNums (cfg.routed t s.2)) := by
    intro k hk
    have hk' : k < (cfg.routed t s.2).length := by simpa [selectedNums] using hk
    simp [selectedNums, h.selected t ht k hk', Nat.add_comm]
  have hwindow : selectedNums (((cfg.routed t s.2).drop a).take n) =
      ((selectedNums (cfg.routed t s.2)).drop a).take n := by
    simp [selectedNums, List.map_take, List.map_drop]
  have hlen : (selectedNums (((cfg.routed t s.2).drop a).take n)).length = n := by
    simp only [selectedNums, List.length_map, List.length_take, List.length_drop]
    omega
  have hcount : selections (((cfg.routed t s.2).drop a).take n) t num =
      (selectedNums (((cfg.routed t s.2).drop a).take n)).count num := by
    unfold selections selectedNums
    rw [List.count_eq_countP, List.countP_map]
    refine List.countP_congr fun c hc => ?_
    have hmem : c ∈ cfg.routed t s.2 := List.mem_of_mem_drop (List.mem_of_mem_take hc)
    obtain ⟨k, hk, rfl⟩ := List.getElem_of_mem hmem
    simp [h.selected t ht k hk]
  have hfair := (hcyclic.window a n).count_eq hnum
  rw [← hwindow, hlen] at hfair
  rw [hcount]
  exact hfair

/-- Two masters and three replicas with one connection each. -/
def fiveNodes : PoolConfig where
  masters := [(str "host=m0", str "m0:5432"), (str "host=m1", str "m1:5432")]
  replicas := [(str "host=r0", str "r0:5432"), (str "host=r1", str "r1:5432"),
    (str "host=r2", str "r2:5432")]
  poolSize := 1

/-- A run whose fourth `REPLICA` call finds its node without a connection and throws. -/
def mixedRun : List PoolAction :=
  [.construct 0 .replica, .construct 1 .master, .construct 2 .replica, .construct 3 .replica,
    .construct 4 .replica, .destroy 0, .construct 5 .master]

/-- The state and the calls `mixedRun` leads to. -/
def mixedState : PoolState × List Call :=
  (System.runRecorded PoolState.next recordCall (fiveNodes.start, []) mixedRun).getD
    (fiveNodes.start, [])

theorem mixedState_reachable : (RecordedSystem fiveNodes).Reachable mixedState := by
  have hinit : (RecordedSystem fiveNodes).Reachable (fiveNodes.start, []) := .init ⟨rfl, rfl⟩
  exact System.Reachable.runRecorded mixedRun hinit rfl

theorem getConnection_fair_mixedState : Fairness fiveNodes mixedState.2 :=
  getConnection_fair fiveNodes mixedState_reachable

/-- The three replicas in turn, from the second on; the fourth call throws. -/
example : (fiveNodes.routed .replica mixedState.2).map Call.served =
    [some (.replica, 1), some (.replica, 2), some (.replica, 0), none] := by decide

end SocialNetwork.Pool
