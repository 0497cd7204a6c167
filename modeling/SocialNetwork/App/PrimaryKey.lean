import SocialNetwork.App.SearchDatabase

/-!
# `id` is a primary key

No two rows of the master's table have one id, nor do two rows of the transactions in progress, and
a row that is committed leaves its transaction. `RowsOnce` says so of the world; every call keeps it,
and so it holds at every moment of every run of the server.
-/

namespace SocialNetwork.App

open Foundation Helpers Pool

/-- The ids of the rows are distinct, and of rows that were inserted. -/
structure RowsOnce (w : World) : Prop where
  log : ∀ row ∈ w.log, row ∈ w.inserted
  tx : ∀ i, ∀ row ∈ w.tx i, row ∈ w.inserted
  logOnce : (w.log.map UserRow.id).Nodup
  txOnce : ∀ i, ((w.tx i).map UserRow.id).Nodup
  /-- A row of a transaction is not in the table. -/
  apart : ∀ i, ∀ row ∈ w.tx i, ∀ row' ∈ w.log, row.id ≠ row'.id
  /-- It is in one transaction only. -/
  alone : ∀ i j, i ≠ j → ∀ row ∈ w.tx i, ∀ row' ∈ w.tx j, row.id ≠ row'.id

namespace RowsOnce

variable {w w' : World} {i : Nat}

/-- A call that moves no row. -/
theorem frame (h : RowsOnce w) (hlog : w'.log = w.log) (htx : w'.tx = w.tx)
    (hinserted : w'.inserted = w.inserted) : RowsOnce w' := by
  obtain ⟨h1, h2, h3, h4, h5, h6⟩ := h
  exact ⟨by rwa [hlog, hinserted], by rwa [htx, hinserted], by rwa [hlog], by rwa [htx],
    by rwa [hlog, htx], by rwa [htx]⟩

/-- The rows of a transaction, after that of the `i`-th request has ended. -/
theorem mem_endTx {j : Nat} {row : UserRow} (h : row ∈ (w.setTx i []).tx j) :
    j ≠ i ∧ row ∈ w.tx j := by
  simp only [World.setTx] at h
  by_cases hj : j = i
  · subst hj
    rw [Function.update_self] at h
    cases h
  · rw [Function.update_of_ne hj] at h
    exact ⟨hj, h⟩

/-- A transaction ends. -/
theorem endTx (h : RowsOnce w) : RowsOnce (w.setTx i []) where
  log := h.log
  tx j row hrow := h.tx j row (mem_endTx hrow).2
  logOnce := h.logOnce
  txOnce j := by
    simp only [World.setTx]
    by_cases hj : j = i
    · subst hj
      rw [Function.update_self]
      exact List.nodup_nil
    · rw [Function.update_of_ne hj]
      exact h.txOnce j
  apart j row hrow := h.apart j row (mem_endTx hrow).2
  alone j k hjk row hrow row' hrow' :=
    h.alone j k hjk row (mem_endTx hrow).2 row' (mem_endTx hrow').2

/-- A transaction is committed. -/
theorem publish (h : RowsOnce w) : RowsOnce (w.publish i) where
  log row hrow := by
    rcases List.mem_append.mp hrow with hrow | hrow
    · exact h.log row hrow
    · exact h.tx i row hrow
  tx j row hrow := h.tx j row (mem_endTx hrow).2
  logOnce := by
    simp only [World.publish, List.map_append]
    refine List.nodup_append.mpr ⟨h.logOnce, h.txOnce i, fun id hid id' hid' heq => ?_⟩
    obtain ⟨row, hrow, rfl⟩ := List.mem_map.mp hid
    obtain ⟨row', hrow', rfl⟩ := List.mem_map.mp hid'
    exact h.apart i row' hrow' row hrow heq.symm
  txOnce := (h.endTx (i := i)).txOnce
  apart j row hrow row' hrow' := by
    obtain ⟨hj, hrow⟩ := mem_endTx hrow
    rcases List.mem_append.mp hrow' with hrow' | hrow'
    · exact h.apart j row hrow row' hrow'
    · exact h.alone j i hj row hrow row' hrow'
  alone := (h.endTx (i := i)).alone

/-- The rows of a transaction, after a row was added to that of the `i`-th request. -/
theorem mem_addRow {j : Nat} {new row : UserRow} (h : row ∈ (w.addRow i new).tx j) :
    row ∈ w.tx j ∨ (j = i ∧ row = new) := by
  simp only [World.addRow, World.setTx] at h
  by_cases hj : j = i
  · subst hj
    rw [Function.update_self] at h
    rcases List.mem_append.mp h with h | h
    · exact .inl h
    · exact .inr ⟨rfl, List.mem_singleton.mp h⟩
  · rw [Function.update_of_ne hj] at h
    exact .inl h

/-- A row is inserted, with a fresh id. -/
theorem addRow (h : RowsOnce w) {new : UserRow} (hfresh : w.FreshId new.id) :
    RowsOnce (w.addRow i new) where
  log row hrow := List.mem_append_left _ (h.log row hrow)
  tx j row hrow := by
    rcases mem_addRow hrow with hrow | ⟨-, rfl⟩
    · exact List.mem_append_left _ (h.tx j row hrow)
    · exact List.mem_append_right _ (List.mem_singleton_self row)
  logOnce := h.logOnce
  txOnce j := by
    simp only [World.addRow, World.setTx]
    by_cases hj : j = i
    · subst hj
      rw [Function.update_self, List.map_append]
      refine List.nodup_append.mpr ⟨h.txOnce j, List.nodup_singleton _, fun id hid id' hid' => ?_⟩
      obtain ⟨row, hrow, rfl⟩ := List.mem_map.mp hid
      rw [List.mem_singleton.mp hid']
      exact hfresh.2.2 row (h.tx j row hrow)
    · rw [Function.update_of_ne hj]
      exact h.txOnce j
  apart j row hrow row' hrow' := by
    rcases mem_addRow hrow with hrow | ⟨-, rfl⟩
    · exact h.apart j row hrow row' hrow'
    · exact (hfresh.2.2 row' (h.log row' hrow')).symm
  alone j k hjk row hrow row' hrow' := by
    rcases mem_addRow hrow with hrow | ⟨rfl, rfl⟩ <;>
      rcases mem_addRow hrow' with hrow' | ⟨hk, hrow'⟩
    · exact h.alone j k hjk row hrow row' hrow'
    · rw [hrow']
      exact hfresh.2.2 row (h.tx j row hrow)
    · exact (hfresh.2.2 row' (h.tx k row' hrow')).symm
    · exact absurd hk.symm hjk

/-- Every call keeps the ids distinct. -/
theorem perform {X : Externals} {e : Op} {choice : Choice} {r : e.Result} (h : RowsOnce w)
    (hperf : App.perform X i w e choice = some (r, w')) : RowsOnce w' := by
  cases e with
  | generateHash pwd workload =>
      obtain ⟨salt, -, rfl⟩ | ⟨what, -, rfl⟩ := perform_generateHash hperf
      · exact h
      · exact h.frame rfl rfl rfl
  | getConnection preferred =>
      obtain ⟨p, sc, -, -, rfl⟩ | ⟨p, what, -, -, rfl⟩ := perform_getConnection hperf
      · exact h.frame rfl rfl rfl
      · exact h.frame rfl rfl rfl
  | beginWork sc =>
      obtain ⟨-, rfl⟩ | ⟨what, -, rfl⟩ := perform_beginWork hperf
      · exact h.endTx
      · exact h.frame rfl rfl rfl
  | insert sc columns =>
      obtain ⟨id, birthdate, hfresh, -, rfl⟩ | ⟨what, -, rfl⟩ := perform_insert hperf
      · have hsent : RowsOnce (w.send .insert sc.conn) := h.frame rfl rfl rfl
        exact hsent.addRow hfresh
      · exact h.frame rfl rfl rfl
  | select sc id =>
      obtain ⟨-, rfl⟩ | ⟨what, -, rfl⟩ := perform_select hperf
      · exact h.frame rfl rfl rfl
      · exact h.frame rfl rfl rfl
  | commit =>
      obtain ⟨-, rfl⟩ | ⟨what, -, rfl⟩ | ⟨what, -, rfl⟩ := perform_commit hperf
      · exact h.publish
      · exact (h.publish (i := i)).frame rfl rfl rfl
      · exact (h.endTx (i := i)).frame rfl rfl rfl
  | endWork =>
      obtain rfl := perform_endWork hperf
      exact h.endTx
  | release sc =>
      obtain rfl := perform_release hperf
      exact h.frame rfl rfl rfl

end RowsOnce

end SocialNetwork.App
