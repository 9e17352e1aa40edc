/-
The key-value store as the database layer uses it: a transaction sees named databases of records.
-/
import Mathlib.Data.List.AList
import Ptarmigan.Tx

namespace Ptarmigan

/-- `MDB_dbi`: the records of a named database. -/
abbrev MdbDbi := AList fun _ : Bytes => Bytes

/-- `MDB_txn`: the named databases. -/
abbrev MdbTxn := AList fun _ : Bytes => MdbDbi

/-- `mdb_put` of one record after the other, until one cannot be put. -/
def mdbPuts (fails : Bytes → Bool) : List (Bytes × Bytes) → MdbDbi → Bool × MdbDbi
  | [], dbi => (true, dbi)
  | (key, data) :: records, dbi =>
      if fails key then (false, dbi) else mdbPuts fails records (dbi.insert key data)

theorem mdbPuts_other (fails : Bytes → Bool) {records : List (Bytes × Bytes)} {key : Bytes}
    (hother : key ∉ records.map Prod.fst) (dbi : MdbDbi) :
    (mdbPuts fails records dbi).2.lookup key = dbi.lookup key := by
  induction records generalizing dbi with
  | nil => rfl
  | cons record records ih =>
      simp only [List.map_cons, List.mem_cons, not_or] at hother
      by_cases hfails : fails record.1 = true
      · rw [mdbPuts, if_pos hfails]
      · rw [mdbPuts, if_neg hfails, ih hother.2, AList.lookup_insert_ne hother.1]

/-- Records under different keys that could all be put are found. -/
theorem mdbPuts_lookup {fails : Bytes → Bool} {records : List (Bytes × Bytes)}
    (hkeys : (records.map Prod.fst).Nodup) {dbi : MdbDbi}
    (hput : (mdbPuts fails records dbi).1 = true) {record : Bytes × Bytes}
    (hrecord : record ∈ records) :
    (mdbPuts fails records dbi).2.lookup record.1 = some record.2 := by
  induction records generalizing dbi with
  | nil => exact absurd hrecord (List.not_mem_nil)
  | cons first records ih =>
      rw [List.map_cons, List.nodup_cons] at hkeys
      by_cases hfails : fails first.1 = true
      · rw [mdbPuts, if_pos hfails] at hput
        exact absurd hput Bool.false_ne_true
      · rw [mdbPuts, if_neg hfails] at hput ⊢
        rcases List.mem_cons.mp hrecord with rfl | hlater
        · rw [mdbPuts_other fails hkeys.1, AList.lookup_insert]
        · exact ih hkeys.2 hput hlater

/-- The records in the order of a cursor (`MDB_NEXT_NODUP`). -/
def mdbRecords (dbi : MdbDbi) : List (Sigma fun _ : Bytes => Bytes) :=
  dbi.entries.mergeSort fun record next => !memcmpGt record.1 next.1

section HandOver

variable {α : Type} {read : Bytes → Bytes → α} {stops : Bytes → α → Bool}

/-- A callback gets what is read of each record, until it stops the search. -/
def handOver (read : Bytes → Bytes → α) (stops : Bytes → α → Bool) :
    List (Sigma fun _ : Bytes => Bytes) → List (Bytes × α)
  | [] => []
  | ⟨key, data⟩ :: records =>
      (key, read key data) ::
        if stops key (read key data) then [] else handOver read stops records

theorem handOver_filter_of_notMem {key : Bytes} {records : List (Sigma fun _ : Bytes => Bytes)}
    (habsent : key ∉ records.keys) :
    (handOver read stops records).filter (fun entry => entry.1 == key) = [] := by
  induction records with
  | nil => rfl
  | cons record records ih =>
      rw [List.keys_cons, List.mem_cons, not_or] at habsent
      have hother : (record.1 == key) = false := beq_eq_false_iff_ne.mpr (Ne.symm habsent.1)
      rw [handOver, List.filter_cons_of_neg (by simp [hother])]
      split
      · rfl
      · exact ih habsent.2

/-- When it goes on at the others, it gets the record once. -/
theorem handOver_filter {key data : Bytes} {records : List (Sigma fun _ : Bytes => Bytes)}
    (hnodup : records.NodupKeys) (hrecord : ⟨key, data⟩ ∈ records)
    (hgoes : ∀ other value, other ≠ key → stops other value = false) :
    (handOver read stops records).filter (fun entry => entry.1 == key) =
      [(key, read key data)] := by
  induction records with
  | nil => exact absurd hrecord List.not_mem_nil
  | cons record records ih =>
      rw [List.nodupKeys_cons] at hnodup
      rcases List.mem_cons.mp hrecord with rfl | hlater
      · have hself : (((key, read key data) : Bytes × α).1 == key) = true := beq_self_eq_true key
        rw [handOver, List.filter_cons, if_pos hself]
        split
        · rfl
        · rw [handOver_filter_of_notMem hnodup.1]
      · have hne : record.1 ≠ key := by
          rintro rfl
          exact hnodup.1 (List.mem_keys.mpr ⟨data, hlater⟩)
        have hother : (record.1 == key) = false := beq_eq_false_iff_ne.mpr hne
        rw [handOver, hgoes _ _ hne, List.filter_cons_of_neg (by simp [hother])]
        exact ih hnodup.2 hlater

/-- A record that was put is handed over once. -/
theorem handOver_insert (dbi : MdbDbi) {key data : Bytes}
    (hgoes : ∀ other value, other ≠ key → stops other value = false) :
    (handOver read stops (mdbRecords (dbi.insert key data))).filter (fun entry => entry.1 == key) =
      [(key, read key data)] := by
  have hperm : (mdbRecords (dbi.insert key data)).Perm (dbi.insert key data).entries :=
    List.mergeSort_perm _ _
  have hrecord : (⟨key, data⟩ : Sigma fun _ : Bytes => Bytes) ∈ mdbRecords (dbi.insert key data) :=
    hperm.mem_iff.mpr (AList.mem_lookup_iff.mp (AList.lookup_insert dbi))
  exact handOver_filter ((List.perm_nodupKeys hperm).mpr (dbi.insert key data).nodupKeys) hrecord
    hgoes

end HandOver

end Ptarmigan
