import RedisToAerospike.L2Read.Scan

/-!
# A scan of a live keyspace

Other clients may do anything between two commands.

* `isolated_iff`: a scan returns, with every key that stays as it is, exactly
  when no key is found with another type than it was last seen with.
* `one_race_ends_the_scan`: where one is, the exception ends the scan for all
  keys.
-/
namespace RedisToAerospike.L2
open L1

section
variable {F : Type}

/-- One key does not get in the way of the others: the scan does not raise,
and a key that stays as it is yields a record for each of its occurrences. -/
structure Isolated (h : History F) (t : Nat) (batches : List (List ByteArray)) : Prop where
  returns : (iterRecords h t batches).2 = none
  others : ∀ key e, (∀ i, (h i).keyspace key = some e) →
    ((iterRecords h t batches).1.filter fun r => r.key = decodeKey key).map
        (fun r => (r.type, r.value)) =
      List.replicate (batches.flatten.countP (· = key)) (e.data.typeName, e.data.read)

/-- What one key yields in a batch: its records are told by their key. -/
theorem filter_records {h : History F} {t : Nat} {keys : List ByteArray} {key : ByteArray}
    {e : Stored F} (hstays : ∀ i, (h i).keyspace key = some e) {ks : List ByteArray}
    (hks : ∀ k ∈ ks, k ∈ keys) :
    ((ks.filterMap (recordAt h t keys)).filter fun r => r.key = decodeKey key).map
        (fun r => (r.type, r.value)) =
      List.replicate (ks.countP (· = key)) (e.data.typeName, e.data.read) := by
  induction ks with
  | nil => rfl
  | cons k ks ih =>
    obtain ⟨hk, hks⟩ := List.forall_mem_cons.1 hks
    by_cases hkey : k = key
    · subst hkey
      obtain ⟨i, -, -, hrec⟩ := recordAt_of_stays (h := h) (t := t) hk (e := e)
        fun i _ _ => hstays i
      rw [List.filterMap_cons_some hrec, List.filter_cons_of_pos (by simp), List.map_cons, ih hks,
        List.countP_cons_of_pos (by simp), List.replicate_succ]
    · rw [List.countP_cons_of_neg (by simpa using hkey)]
      cases hrec : recordAt h t keys k with
      | none => rw [List.filterMap_cons_none hrec, ih hks]
      | some r =>
        have hname : r.key ≠ decodeKey key := by
          rw [(recordAt_some hk hrec).1]
          exact fun he => hkey (decodeKey_inj he)
        rw [List.filterMap_cons_some hrec, List.filter_cons_of_neg (by simpa using hname), ih hks]

theorem filter_yielded {h : History F} {key : ByteArray} {e : Stored F}
    (hstays : ∀ i, (h i).keyspace key = some e) (t : Nat) (batches : List (List ByteArray)) :
    ((yielded h t batches).filter fun r => r.key = decodeKey key).map
        (fun r => (r.type, r.value)) =
      List.replicate (batches.flatten.countP (· = key)) (e.data.typeName, e.data.read) := by
  induction batches generalizing t with
  | nil => rfl
  | cons keys batches ih =>
    have hyield : yielded h t (keys :: batches) =
        keys.filterMap (recordAt h t keys) ++ yielded h (finish h t keys) batches := rfl
    rw [hyield, List.filter_append, List.map_append, ih, filter_records hstays fun k hk => hk,
      List.flatten_cons, List.countP_append, List.replicate_add]

/-- **Isolation**, exactly when no key is caught between two types. -/
theorem isolated_iff (h : History F) (t : Nat) (batches : List (List ByteArray)) :
    Isolated h t batches ↔ NoRaces h t batches := by
  refine ⟨fun hi => ?_, fun hno => ?_⟩
  · by_contra hr
    exact iterRecords_raises hr hi.returns
  · refine ⟨by rw [iterRecords_eq hno], fun key e hstays => ?_⟩
    rw [iterRecords_eq hno]
    exact filter_yielded hstays t batches

end

/-- A string `b` that stays, and a string `k` that is deleted and made a list
when its type has been read. -/
def retyped : History String := fun i =>
  { now := i
    keyspace := fun key =>
      if key = "b".toByteArray then some ⟨.string "x".toByteArray, none⟩
      else if key = "k".toByteArray then
        if i < 4 then some ⟨.string "x".toByteArray, none⟩ else some ⟨oneElement, none⟩
      else none }

/-- What `GET k`, the first command for the values, raises. -/
def raceError : Exn :=
  .other "ResponseError" ("Command # 1 (GET k) of pipeline caused error: " ++ WRONGTYPE)

/-- `b` is lost, in the batch of `k` and in the next. -/
theorem one_race_ends_the_scan :
    (∀ i, (retyped i).keyspace "b".toByteArray = some ⟨.string "x".toByteArray, none⟩) ∧
    iterRecords retyped 0 [["k".toByteArray, "b".toByteArray], ["b".toByteArray]] =
      ([], some raceError) ∧
    ¬ Isolated retyped 0 [["k".toByteArray, "b".toByteArray], ["b".toByteArray]] := by
  have hraises : iterRecords retyped 0 [["k".toByteArray, "b".toByteArray], ["b".toByteArray]] =
      ([], some raceError) := by
    decide +kernel
  refine ⟨fun i => rfl, hraises, fun h => ?_⟩
  have hnone := h.returns
  rw [hraises] at hnone
  cases hnone

end RedisToAerospike.L2
