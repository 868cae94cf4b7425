import RedisToAerospike.L3Sink.AerospikeSink

/-!
# Batches (`AerospikeSink.write_many`)

Oversized records are left out; of the others the last one under each key is
sent, and its reply goes to every position of the key.

* `winner_eq`: the record sent for a key is the last one that carries it.
* `writeMany_store`, `writeMany_results`: what one call does to the store and
  reports, position by position.
-/
namespace RedisToAerospike.L3
open L1

/-- A sub-command of `batch_write`. -/
structure Write (F : Type) where
  key : AerospikeKey
  ops : List (Op F)
  policy : WritePolicy

/-- The reply to a sub-command. -/
structure Reply where
  result : Int
  inDoubt : Bool := false
  deriving DecidableEq

/-- mirrors src/redis_to_aerospike/aerospike_sink.py:449-466 -/
def batchReason (config : AerospikeConfig) (reply : Reply) : Option String :=
  if reply.result = RESULT_OK then none
  else if config.recordExistsPolicy = .createOnly ∧ reply.result ∈ recordExistsErrorCodes then
    some BATCH_RECORD_EXISTS_OUTCOME
  else some ("BatchError:" ++ toString reply.result ++ if reply.inDoubt then ":in_doubt" else "")

section
variable {F : Type}

/-- `key_of[i]`: the key of a record that is not oversized. -/
def keyOf (config : AerospikeConfig) (record : AerospikeRecord F) : Option AerospikeKey :=
  match tooLargeReason config record with
  | some _ => none
  | none => some (sinkKey config record)

/-- The keys with the positions that carry them. -/
def slots (config : AerospikeConfig) (records : List (AerospikeRecord F)) :
    List (AerospikeKey × Nat) :=
  records.zipIdx.filterMap fun p => (keyOf config p.1).map fun key => (key, p.2)

def lastSlotForKey (config : AerospikeConfig) (records : List (AerospikeRecord F)) :
    Dict AerospikeKey Nat :=
  Dict.ofPairs (slots config records)

def batchCommand (config : AerospikeConfig) (key : AerospikeKey) (record : AerospikeRecord F) :
    Write F :=
  ⟨key, opsFor record, batchPolicy config record⟩

/-- The sub-commands of the batch, one for each key. -/
def batchWrites (config : AerospikeConfig) (records : List (AerospikeRecord F)) : List (Write F) :=
  (lastSlotForKey config records).entries.filterMap fun p =>
    records[p.2]?.map (batchCommand config p.1)

/-- The outcome list, from the replies in the order of the sub-commands. -/
def batchResults (config : AerospikeConfig) (records : List (AerospikeRecord F))
    (replies : List Reply) : List (Option String) :=
  let reasonForKey :=
    Dict.ofPairs ((lastSlotForKey config records).keys.zip (replies.map (batchReason config)))
  records.map fun record =>
    match keyOf config record with
    | none => some "RecordTooLargeError"
    | some key => (reasonForKey.get? key).join

/-- `client.batch_write`: the sub-commands one after another. -/
def batchWrite [OrderedLists F] (S : Store F) : List (Write F) → Store F × List Reply
  | [] => (S, [])
  | w :: ws =>
    let call := operate S w.key w.ops w.policy
    let rest := batchWrite call.1 ws
    (rest.1, ⟨call.2, false⟩ :: rest.2)

/-- mirrors src/redis_to_aerospike/aerospike_sink.py:388-447 -/
def writeMany [OrderedLists F] (config : AerospikeConfig) (S : Store F)
    (records : List (AerospikeRecord F)) : Store F × List (Option String) :=
  if (lastSlotForKey config records).entries = [] then (S, batchResults config records [])
  else
    let call := batchWrite S (batchWrites config records)
    (call.1, batchResults config records call.2)

/-! ## The records sent -/

/-- The records a key is carried by, in order. -/
def occurrences (config : AerospikeConfig) (records : List (AerospikeRecord F)) (k : AerospikeKey) :
    List (AerospikeRecord F) :=
  records.filter fun r => keyOf config r = some k

/-- The record sent for a key. -/
def winner (config : AerospikeConfig) (records : List (AerospikeRecord F)) (k : AerospikeKey) :
    Option (AerospikeRecord F) :=
  ((lastSlotForKey config records).get? k).bind fun slot => records[slot]?

theorem keyOf_eq_some {config : AerospikeConfig} {r : AerospikeRecord F} {k : AerospikeKey}
    (h : keyOf config r = some k) : tooLargeReason config r = none ∧ sinkKey config r = k := by
  unfold keyOf at h
  split at h
  · cases h
  · rename_i ht; cases h; exact ⟨ht, rfl⟩

theorem mem_occurrences {config : AerospikeConfig} {records : List (AerospikeRecord F)}
    {k : AerospikeKey} {r : AerospikeRecord F} :
    r ∈ occurrences config records k ↔ r ∈ records ∧ keyOf config r = some k := by
  simp [occurrences]

/-- The positions of a key. -/
theorem filter_slots (config : AerospikeConfig) (records : List (AerospikeRecord F))
    (k : AerospikeKey) :
    (slots config records).filter (fun p => p.1 = k) =
      (records.zipIdx.filter fun p => keyOf config p.1 = some k).map fun p => (k, p.2) := by
  unfold slots
  induction records.zipIdx with
  | nil => rfl
  | cons p ps ih =>
    cases hk : keyOf config p.1 with
    | none => simpa [hk] using ih
    | some k' =>
      by_cases he : k' = k
      · simpa [hk, he] using ih
      · simpa [hk, he] using ih

theorem winner_eq (config : AerospikeConfig) (records : List (AerospikeRecord F))
    (k : AerospikeKey) :
    winner config records k = (occurrences config records k).getLast? := by
  have hocc : occurrences config records k =
      (records.zipIdx.filter fun p => keyOf config p.1 = some k).map Prod.fst := by
    have h := List.filter_map (p := fun r => decide (keyOf config r = some k)) (f := Prod.fst)
      (l := records.zipIdx)
    rw [List.zipIdx_map_fst] at h
    exact h
  rw [winner, lastSlotForKey, Dict.get?_ofPairs_getLast?, filter_slots, hocc, List.getLast?_map,
    List.getLast?_map]
  cases hl : (records.zipIdx.filter fun p => keyOf config p.1 = some k).getLast? with
  | none => rfl
  | some p =>
    have hm := (List.mem_filter.1 (List.mem_of_getLast? hl)).1
    simpa using List.mem_zipIdx_iff_getElem?.1 hm

theorem mem_sentKeys_iff {config : AerospikeConfig} {records : List (AerospikeRecord F)}
    {k : AerospikeKey} :
    k ∈ (lastSlotForKey config records).keys ↔ ∃ r ∈ records, keyOf config r = some k := by
  rw [lastSlotForKey, Dict.mem_keys_ofPairs, slots]
  refine ⟨fun h => ?_, fun h => ?_⟩
  · obtain ⟨q, hq, rfl⟩ := List.mem_map.1 h
    obtain ⟨p, hp, he⟩ := List.mem_filterMap.1 hq
    obtain ⟨k', hk', rfl⟩ := Option.map_eq_some_iff.1 he
    exact ⟨p.1, List.mem_of_getElem? (List.mem_zipIdx_iff_getElem?.1 hp), hk'⟩
  · obtain ⟨r, hr, hk⟩ := h
    obtain ⟨i, hi⟩ := List.mem_iff_getElem?.1 hr
    refine List.mem_map.2 ⟨(k, i), List.mem_filterMap.2 ⟨(r, i), ?_, by simp [hk]⟩, rfl⟩
    exact List.mem_zipIdx_iff_getElem?.2 hi

/-- The records sent, in the order of their sub-commands. -/
def winners (config : AerospikeConfig) (records : List (AerospikeRecord F)) :
    List (AerospikeRecord F) :=
  (lastSlotForKey config records).keys.filterMap (winner config records)

/-- Every key that is sent has a record, which carries it. -/
theorem winner_of_mem {config : AerospikeConfig} {records : List (AerospikeRecord F)}
    {k : AerospikeKey} (h : k ∈ (lastSlotForKey config records).keys) :
    ∃ r, winner config records k = some r ∧ sinkKey config r = k := by
  obtain ⟨r, hr, hk⟩ := mem_sentKeys_iff.1 h
  have hne : occurrences config records k ≠ [] := List.ne_nil_of_mem (mem_occurrences.2 ⟨hr, hk⟩)
  obtain ⟨w, hw⟩ := Option.isSome_iff_exists.1 (List.getLast?_isSome.2 hne)
  refine ⟨w, by rw [winner_eq, hw], ?_⟩
  exact (keyOf_eq_some (mem_occurrences.1 (List.mem_of_getLast? hw)).2).2

theorem keys_winners (config : AerospikeConfig) (records : List (AerospikeRecord F)) :
    (winners config records).map (sinkKey config) = (lastSlotForKey config records).keys := by
  have hall : ∀ ks : List AerospikeKey, (∀ k ∈ ks, k ∈ (lastSlotForKey config records).keys) →
      (ks.filterMap (winner config records)).map (sinkKey config) = ks := by
    intro ks hks
    induction ks with
    | nil => rfl
    | cons k ks ih =>
      obtain ⟨r, hr, hk⟩ := winner_of_mem (hks k List.mem_cons_self)
      rw [List.filterMap_cons_some hr, List.map_cons, hk,
        ih fun k' hk' => hks k' (List.mem_cons_of_mem _ hk')]
  exact hall _ fun k hk => hk

theorem batchWrites_eq (config : AerospikeConfig) (records : List (AerospikeRecord F)) :
    batchWrites config records =
      (winners config records).map fun r => batchCommand config (sinkKey config r) r := by
  unfold batchWrites winners Dict.keys
  rw [List.filterMap_map, List.map_filterMap]
  refine List.filterMap_congr fun p hp => ?_
  have hget := Dict.get?_eq_some_iff.2 hp
  have hw : winner config records p.1 = records[p.2]? := by rw [winner, hget]; rfl
  obtain ⟨r, hr, hk⟩ := winner_of_mem (List.mem_map_of_mem (f := Prod.fst) hp)
  rw [Function.comp_apply, hr, ← hw, hr, Option.map_some, Option.map_some, hk]

section
variable [OrderedLists F]

/-- A batch of sub-commands to distinct keys. -/
theorem batchWrite_eq (config : AerospikeConfig) {rs : List (AerospikeRecord F)}
    (hn : (rs.map (sinkKey config)).Nodup) (S : Store F) :
    batchWrite S (rs.map fun r => batchCommand config (sinkKey config r) r) =
      (Replay.replay (sinkKey config) (act config) S rs,
        rs.map fun r => ⟨actCode config (S (sinkKey config r)), false⟩) := by
  induction rs generalizing S with
  | nil => rfl
  | cons r rs ih =>
    rw [List.map_cons, List.nodup_cons] at hn
    have hop : operate S (sinkKey config r) (opsFor r) (batchPolicy config r) =
        (Replay.apply (sinkKey config) (act config) S r, actCode config (S (sinkKey config r))) :=
      operate_opsFor config r rfl rfl S _
    rw [List.map_cons, batchWrite]
    simp only [batchCommand] at ih ⊢
    have hcodes : (rs.map fun r' => (⟨actCode config
        (Replay.apply (sinkKey config) (act config) S r (sinkKey config r')), false⟩ : Reply)) =
        rs.map fun r' => ⟨actCode config (S (sinkKey config r')), false⟩ := by
      refine List.map_congr_left fun r' hr' => ?_
      have hne : sinkKey config r ≠ sinkKey config r' := fun e =>
        hn.1 (e ▸ List.mem_map_of_mem hr')
      rw [Replay.apply_of_ne hne]
    rw [hop, ih hn.2, hcodes]
    rfl

omit [OrderedLists F] in
theorem nodup_winners (config : AerospikeConfig) (records : List (AerospikeRecord F)) :
    ((winners config records).map (sinkKey config)).Nodup := by
  rw [keys_winners]; exact (lastSlotForKey config records).nodup

/-- The empty batch is not sent, which makes no difference. -/
theorem writeMany_eq (config : AerospikeConfig) (S : Store F) (records : List (AerospikeRecord F)) :
    writeMany config S records =
      (Replay.replay (sinkKey config) (act config) S (winners config records),
        batchResults config records
          ((winners config records).map fun r => ⟨actCode config (S (sinkKey config r)), false⟩)) := by
  unfold writeMany
  split
  · rename_i h
    have hw : winners config records = [] := by
      rw [winners, Dict.keys, h]; rfl
    rw [hw]; rfl
  · rw [batchWrites_eq, batchWrite_eq config (nodup_winners config records)]

/-- What one call leaves under a key. -/
theorem writeMany_store (config : AerospikeConfig) (S : Store F)
    (records : List (AerospikeRecord F)) (k : AerospikeKey) :
    (writeMany config S records).1 k =
      match (occurrences config records k).getLast? with
      | none => S k
      | some r => act config r (S k) := by
  rw [writeMany_eq, ← winner_eq]
  dsimp only
  by_cases hk : k ∈ (lastSlotForKey config records).keys
  · obtain ⟨r, hr, rfl⟩ := winner_of_mem hk
    have hm : r ∈ winners config records := List.mem_filterMap.2 ⟨_, hk, hr⟩
    rw [hr, Replay.replay_at_mem (nodup_winners config records) hm]
  · have hnone : winner config records k = none := by
      rw [winner, Dict.get?_eq_none_iff.2 hk]; rfl
    rw [hnone, Replay.replay_at_not_mem]
    rw [keys_winners]; exact hk

omit [OrderedLists F] in
theorem batchReason_actCode (config : AerospikeConfig) (old : Option (Entry F)) :
    batchReason config ⟨actCode config old, false⟩ =
      if config.recordExistsPolicy = .createOnly ∧ old.isSome then some BATCH_RECORD_EXISTS_OUTCOME
      else none := by
  unfold batchReason actCode
  by_cases h : config.recordExistsPolicy = .createOnly ∧ old.isSome = true
  · simp [h, RESULT_RECORD_EXISTS, RESULT_OK, recordExistsErrorCodes]
  · simp [h, RESULT_OK]

omit [OrderedLists F] in
/-- The outcome list, if the reply to the sub-command for `k` has the code
`code k`. -/
theorem batchResults_eq (config : AerospikeConfig) (records : List (AerospikeRecord F))
    (reply : AerospikeKey → Reply) :
    batchResults config records ((lastSlotForKey config records).keys.map reply) =
      records.map fun r =>
        match keyOf config r with
        | none => some "RecordTooLargeError"
        | some k => batchReason config (reply k) := by
  unfold batchResults
  refine List.map_congr_left fun r hr => ?_
  cases hk : keyOf config r with
  | none => rfl
  | some k =>
    have hmem := mem_sentKeys_iff.2 ⟨r, hr, hk⟩
    have hzip : (lastSlotForKey config records).keys.zip
        (((lastSlotForKey config records).keys.map reply).map (batchReason config)) =
        (lastSlotForKey config records).keys.map fun k => (k, batchReason config (reply k)) := by
      rw [List.map_map, ← List.map_prod_left_eq_zip]
      rfl
    have hn : (((lastSlotForKey config records).keys.map fun k =>
        (k, batchReason config (reply k))).map Prod.fst).Nodup := by
      rw [List.map_map, Function.comp_def, List.map_id']
      exact (lastSlotForKey config records).nodup
    have hget : (Dict.ofPairs ((lastSlotForKey config records).keys.map fun k =>
        (k, batchReason config (reply k)))).get? k = some (batchReason config (reply k)) := by
      rw [Dict.get?_eq_some_iff, Dict.entries_ofPairs hn]
      exact List.mem_map.2 ⟨k, hmem, rfl⟩
    simp only [hzip, hget, Option.join_some]

/-- What one call reports at each position. -/
theorem writeMany_results (config : AerospikeConfig) (S : Store F)
    (records : List (AerospikeRecord F)) :
    (writeMany config S records).2 =
      records.map fun r =>
        match keyOf config r with
        | none => some "RecordTooLargeError"
        | some k =>
          if config.recordExistsPolicy = .createOnly ∧ (S k).isSome then
            some BATCH_RECORD_EXISTS_OUTCOME
          else none := by
  have hreplies : ((winners config records).map fun r =>
      (⟨actCode config (S (sinkKey config r)), false⟩ : Reply)) =
      (lastSlotForKey config records).keys.map fun k => ⟨actCode config (S k), false⟩ := by
    rw [← keys_winners, List.map_map]; rfl
  rw [writeMany_eq, hreplies, batchResults_eq]
  simp only [batchReason_actCode]

end

end

end RedisToAerospike.L3
