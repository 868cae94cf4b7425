import RedisToAerospike.L3Sink.WriteMany

/-!
# The lists of `write_many`, position by position

`write_many` fills `results` and `key_of` in place while it collects the last
slot of each key, sends one sub-write for each key and writes the replies back
into `results`. Here these are the source's own loops, over a client that
answers every sub-write of a batch; `batchWrites` and `batchResults` are what
they compute.

* `collect_append`: one record more for the first loop.
* `propagate_eq`: the last loop, over the positions that are left.
* `writeManyLoop_eq`, `writeMany_eq_loop`: the loops are `write_many`.
* `alignment`: each position has the outcome of its own record.
-/
namespace RedisToAerospike.L3
open L1

/-- A client that fills in one reply for each sub-write, in order. -/
structure BatchClient (F : Type) where
  replies : List (Write F) → List Reply
  length_replies (writes : List (Write F)) : (replies writes).length = writes.length

/-- The lists of the first loop. -/
@[ext] structure Slots where
  results : List (Option String)
  keyOf : List (Option AerospikeKey)
  lastSlotForKey : Dict AerospikeKey Nat

section
variable {F : Type}

/-- `[None] * len(records)`, twice, and `{}`. -/
def Slots.init (records : List (AerospikeRecord F)) : Slots :=
  ⟨List.replicate records.length none, List.replicate records.length none, Dict.empty⟩

/-- mirrors src/redis_to_aerospike/aerospike_sink.py:414-421 -/
def collectOne (config : AerospikeConfig) (i : Nat) (record : AerospikeRecord F) (t : Slots) :
    Slots :=
  match tooLargeReason config record with
  | some _ => { t with results := t.results.set i (some "RecordTooLargeError") }
  | none =>
    let key := sinkKey config record
    { t with
      keyOf := t.keyOf.set i (some key)
      lastSlotForKey := t.lastSlotForKey.set key i }

/-- The loop over `enumerate(records)`, from index `i` on. -/
def collect (config : AerospikeConfig) : Nat → List (AerospikeRecord F) → Slots → Slots
  | _, [], t => t
  | i, record :: records, t => collect config (i + 1) records (collectOne config i record t)

/-- mirrors src/redis_to_aerospike/aerospike_sink.py:444-446 -/
def propagate (reasonForKey : Dict AerospikeKey (Option String)) :
    Nat → List (Option AerospikeKey) → List (Option String) → List (Option String)
  | _, [], results => results
  | i, none :: keyOf, results => propagate reasonForKey (i + 1) keyOf results
  | i, some key :: keyOf, results =>
    propagate reasonForKey (i + 1) keyOf (results.set i (reasonForKey.get? key).join)

/-- The batches handed to the client, and the outcome list. -/
structure BatchRun (F : Type) where
  calls : List (List (Write F))
  results : List (Option String)

/-- mirrors src/redis_to_aerospike/aerospike_sink.py:388-447 -/
def writeManyLoop (config : AerospikeConfig) (client : BatchClient F)
    (records : List (AerospikeRecord F)) : BatchRun F :=
  let t := collect config 0 records (Slots.init records)
  if t.lastSlotForKey.entries = [] then ⟨[], t.results⟩
  else
    let writes := t.lastSlotForKey.entries.filterMap fun p =>
      records[p.2]?.map (batchCommand config p.1)
    let sentKeys := t.lastSlotForKey.keys
    let reasonForKey := Dict.ofPairs
      (sentKeys.zip ((client.replies writes).map (batchReason config)))
    ⟨[writes], propagate reasonForKey 0 t.keyOf t.results⟩

/-! ## What the loops compute -/

/-- The lists once the records `done` are behind and `left` positions ahead. -/
def slotsAt (config : AerospikeConfig) (done : List (AerospikeRecord F)) (left : Nat) : Slots where
  results := (done.map fun r =>
    if (keyOf config r).isNone then some "RecordTooLargeError" else none) ++
      List.replicate left none
  keyOf := done.map (keyOf config) ++ List.replicate left none
  lastSlotForKey := lastSlotForKey config done

theorem set_length_append {α : Type} (done : List α) (a b : α) (rest : List α) :
    (done ++ a :: rest).set done.length b = done ++ b :: rest := by
  rw [List.set_append_right _ _ (Nat.le_refl _), Nat.sub_self, List.set_cons_zero]

theorem slots_concat (config : AerospikeConfig) (done : List (AerospikeRecord F))
    (r : AerospikeRecord F) :
    slots config (done ++ [r]) =
      slots config done ++ ((keyOf config r).map fun key => (key, done.length)).toList := by
  unfold slots
  rw [List.zipIdx_append, List.filterMap_append]
  cases h : keyOf config r <;> simp [h]

theorem collectOne_slotsAt (config : AerospikeConfig) (done : List (AerospikeRecord F))
    (r : AerospikeRecord F) (left : Nat) :
    collectOne config done.length r (slotsAt config done (left + 1)) =
      slotsAt config (done ++ [r]) left := by
  have hslots := slots_concat config done r
  cases ht : tooLargeReason config r with
  | some reason =>
    have hk : keyOf config r = none := by rw [keyOf, ht]
    rw [hk] at hslots
    simp only [collectOne, slotsAt, ht, lastSlotForKey, hslots, List.map_append,
      List.replicate_succ]
    simp [hk]
  | none =>
    have hk : keyOf config r = some (sinkKey config r) := by rw [keyOf, ht]
    rw [hk] at hslots
    simp only [collectOne, slotsAt, ht, lastSlotForKey, hslots, List.map_append,
      List.replicate_succ]
    simp [hk, Dict.ofPairs_append]

/-- The first loop, by induction over the records ahead. -/
theorem collect_append (config : AerospikeConfig) (done ahead : List (AerospikeRecord F)) :
    collect config done.length ahead (slotsAt config done ahead.length) =
      slotsAt config (done ++ ahead) 0 := by
  induction ahead generalizing done with
  | nil => rw [List.append_nil]; rfl
  | cons r ahead ih =>
    have h := ih (done ++ [r])
    rw [List.length_append, List.length_singleton, List.append_assoc] at h
    rw [List.length_cons, collect, collectOne_slotsAt, h]
    rfl

theorem collect_init (config : AerospikeConfig) (records : List (AerospikeRecord F)) :
    collect config 0 records (Slots.init records) = slotsAt config records 0 :=
  collect_append config [] records

/-- The last loop writes where there is a key and nowhere else. -/
theorem propagate_eq (reasonForKey : Dict AerospikeKey (Option String))
    (done : List (Option String)) (ahead : List (AerospikeRecord F))
    (key : AerospikeRecord F → Option AerospikeKey) (old : AerospikeRecord F → Option String) :
    propagate reasonForKey done.length (ahead.map key) (done ++ ahead.map old) =
      done ++ ahead.map fun r =>
        match key r with
        | none => old r
        | some k => (reasonForKey.get? k).join := by
  induction ahead generalizing done with
  | nil => rfl
  | cons r ahead ih =>
    rw [List.map_cons, List.map_cons, List.map_cons]
    cases hk : key r with
    | none =>
      have h := ih (done ++ [old r])
      rw [List.length_append, List.length_singleton, List.append_assoc, List.append_assoc] at h
      exact h
    | some k =>
      have h := ih (done ++ [(reasonForKey.get? k).join])
      rw [List.length_append, List.length_singleton, List.append_assoc, List.append_assoc] at h
      rw [propagate, set_length_append]
      exact h

/-- Where nothing is to be sent every record is oversized. -/
theorem keyOf_eq_none_of_empty {config : AerospikeConfig} {records : List (AerospikeRecord F)}
    (h : (lastSlotForKey config records).entries = []) {r : AerospikeRecord F} (hr : r ∈ records) :
    keyOf config r = none := by
  cases hk : keyOf config r with
  | none => rfl
  | some k =>
    have hmem := mem_sentKeys_iff.2 ⟨r, hr, hk⟩
    rw [Dict.keys, h] at hmem
    cases hmem

theorem writeManyLoop_eq (config : AerospikeConfig) (client : BatchClient F)
    (records : List (AerospikeRecord F)) :
    writeManyLoop config client records =
      if (lastSlotForKey config records).entries = [] then ⟨[], batchResults config records []⟩
      else ⟨[batchWrites config records],
        batchResults config records (client.replies (batchWrites config records))⟩ := by
  unfold writeManyLoop
  rw [collect_init]
  simp only [slotsAt, List.replicate_zero, List.append_nil]
  split
  · rename_i h
    congr 1
    refine List.map_congr_left fun r hr => ?_
    rw [keyOf_eq_none_of_empty h hr]
    rfl
  · congr 1
    have h := propagate_eq (Dict.ofPairs ((lastSlotForKey config records).keys.zip
      ((client.replies (batchWrites config records)).map (batchReason config)))) [] records
      (keyOf config) fun r => if (keyOf config r).isNone then some "RecordTooLargeError" else none
    rw [List.nil_append, List.nil_append] at h
    refine h.trans (List.map_congr_left fun r _ => ?_)
    cases keyOf config r <;> rfl

/-- The server of the model, seen by the loops as a client. -/
def serverClient [OrderedLists F] (S : Store F) : BatchClient F where
  replies writes := (batchWrite S writes).2
  length_replies writes := by
    induction writes generalizing S with
    | nil => rfl
    | cons w ws ih => rw [batchWrite, List.length_cons, ih, List.length_cons]

/-- `writeMany` is the loops over the model of the server. -/
theorem writeMany_eq_loop [OrderedLists F] (config : AerospikeConfig) (S : Store F)
    (records : List (AerospikeRecord F)) :
    (writeMany config S records).2 = (writeManyLoop config (serverClient S) records).results := by
  rw [writeManyLoop_eq, writeMany]
  split <;> rfl

/-! ## Alignment -/

/-- The record is not oversized. -/
def Fits (config : AerospikeConfig) (record : AerospikeRecord F) : Prop :=
  recordSize record ≤ config.maxRecordSize

instance (config : AerospikeConfig) (record : AerospikeRecord F) :
    Decidable (Fits config record) :=
  inferInstanceAs (Decidable (_ ≤ _))

theorem keyOf_of_fits {config : AerospikeConfig} {record : AerospikeRecord F}
    (h : Fits config record) : keyOf config record = some (sinkKey config record) := by
  have ht : tooLargeReason config record = none := if_neg (Int.not_lt.2 h)
  rw [keyOf, ht]

theorem keyOf_of_not_fits {config : AerospikeConfig} {record : AerospikeRecord F}
    (h : ¬Fits config record) : keyOf config record = none := by
  have hlt : config.maxRecordSize < recordSize record := Int.not_le.1 h
  unfold keyOf tooLargeReason
  rw [if_pos hlt]

theorem keyOf_eq_some_iff {config : AerospikeConfig} {record : AerospikeRecord F}
    {k : AerospikeKey} :
    keyOf config record = some k ↔ Fits config record ∧ sinkKey config record = k := by
  by_cases h : Fits config record
  · simp [keyOf_of_fits h, h]
  · simp [keyOf_of_not_fits h, h]

theorem occurrences_eq (config : AerospikeConfig) (records : List (AerospikeRecord F))
    (k : AerospikeKey) :
    occurrences config records k =
      records.filter fun r => Fits config r ∧ sinkKey config r = k := by
  unfold occurrences
  simp only [keyOf_eq_some_iff]

/-- No reply reads as an oversized record. -/
theorem batchReason_ne_tooLarge (config : AerospikeConfig) (reply : Reply) :
    batchReason config reply ≠ some "RecordTooLargeError" := by
  have hfirst : ∀ s : String, "BatchError:" ++ s ≠ "RecordTooLargeError" := by
    intro s h
    have h' := congrArg (fun t : String => t.toList.head?) h
    simp at h'
  unfold batchReason
  split
  · simp
  · split
    · decide
    · intro h
      rw [String.append_assoc] at h
      exact hfirst _ (Option.some.inj h)

/-- The reply to a sub-write, found by its key. -/
def replyFor (keys : List AerospikeKey) (replies : List Reply) (k : AerospikeKey) : Reply :=
  (replies[keys.idxOf k]?).getD ⟨RESULT_OK, false⟩

theorem map_replyFor {keys : List AerospikeKey} {replies : List Reply} (hn : keys.Nodup)
    (hlen : replies.length = keys.length) : keys.map (replyFor keys replies) = replies := by
  refine List.ext_getElem (by rw [List.length_map, hlen]) fun j hj hj' => ?_
  rw [List.getElem_map, replyFor, hn.idxOf_getElem, List.getElem?_eq_getElem hj', Option.getD_some]

theorem batchResults_getElem? {config : AerospikeConfig} {records : List (AerospikeRecord F)}
    {replies : List Reply} (hlen : replies.length = (lastSlotForKey config records).keys.length)
    {i : Nat} {r : AerospikeRecord F} (hr : records[i]? = some r) :
    (batchResults config records replies)[i]? =
      some (if Fits config r then
        batchReason config
          (replyFor (lastSlotForKey config records).keys replies (sinkKey config r))
      else some "RecordTooLargeError") := by
  have h := batchResults_eq config records
    (replyFor (lastSlotForKey config records).keys replies)
  have hnodup : (lastSlotForKey config records).keys.Nodup := (lastSlotForKey config records).nodup
  rw [map_replyFor hnodup hlen] at h
  rw [h, List.getElem?_map, hr, Option.map_some]
  by_cases hfit : Fits config r
  · rw [keyOf_of_fits hfit, if_pos hfit]
  · rw [keyOf_of_not_fits hfit, if_neg hfit]

/-- What `write_many` owes its caller, `writes` being the sub-writes it sends. -/
structure Report (config : AerospikeConfig) (records : List (AerospikeRecord F))
    (writes : List (Write F)) (replies : List Reply) (run : BatchRun F) : Prop where
  calls_eq : run.calls = if writes = [] then [] else [writes]
  keys_nodup : (writes.map Write.key).Nodup
  mem_keys_iff (k : AerospikeKey) :
    k ∈ writes.map Write.key ↔ ∃ r ∈ records, Fits config r ∧ sinkKey config r = k
  last_sent (w : Write F) : w ∈ writes →
    ∃ r, (records.filter fun r => Fits config r ∧ sinkKey config r = w.key).getLast? = some r ∧
      w.ops = opsFor r ∧ w.policy = batchPolicy config r
  length_results : run.results.length = records.length
  tooLarge_iff (i : Nat) (r : AerospikeRecord F) : records[i]? = some r →
    (run.results[i]? = some (some "RecordTooLargeError") ↔ ¬Fits config r)
  reply_reported (i : Nat) (r : AerospikeRecord F) : records[i]? = some r → Fits config r →
    ∃ (j : Nat) (w : Write F) (reply : Reply), writes[j]? = some w ∧ w.key = sinkKey config r ∧
      replies[j]? = some reply ∧ run.results[i]? = some (batchReason config reply)

theorem keys_batchWrites (config : AerospikeConfig) (records : List (AerospikeRecord F)) :
    (batchWrites config records).map Write.key = (lastSlotForKey config records).keys := by
  rw [batchWrites_eq, List.map_map, ← keys_winners]
  rfl

theorem batchWrites_eq_nil_iff {config : AerospikeConfig} {records : List (AerospikeRecord F)} :
    batchWrites config records = [] ↔ (lastSlotForKey config records).entries = [] := by
  rw [← List.map_eq_nil_iff (f := Write.key), keys_batchWrites, Dict.keys, List.map_eq_nil_iff]

theorem last_of_mem_batchWrites {config : AerospikeConfig} {records : List (AerospikeRecord F)}
    {w : Write F} (hw : w ∈ batchWrites config records) :
    ∃ r, winner config records w.key = some r ∧ w = batchCommand config w.key r := by
  rw [batchWrites_eq] at hw
  obtain ⟨r, hr, rfl⟩ := List.mem_map.1 hw
  obtain ⟨k, hk, hrk⟩ := List.mem_filterMap.1 hr
  obtain ⟨r', hr', rfl⟩ := winner_of_mem hk
  cases hrk.symm.trans hr'
  exact ⟨r, hrk, rfl⟩

theorem length_writeManyLoop (config : AerospikeConfig) (client : BatchClient F)
    (records : List (AerospikeRecord F)) :
    (writeManyLoop config client records).results.length = records.length := by
  rw [writeManyLoop_eq]
  split
  · exact List.length_map _
  · exact List.length_map _

/-- The outcome list is aligned with the records, whatever the client
answers. -/
theorem alignment (config : AerospikeConfig) (client : BatchClient F)
    (records : List (AerospikeRecord F)) :
    ∃ writes, Report config records writes (client.replies writes)
      (writeManyLoop config client records) := by
  let writes := batchWrites config records
  have hlen : (client.replies writes).length = (lastSlotForKey config records).keys.length := by
    rw [client.length_replies, ← keys_batchWrites, List.length_map]
  have hrun : writeManyLoop config client records =
      ⟨if writes = [] then [] else [writes],
        batchResults config records (client.replies writes)⟩ := by
    rw [writeManyLoop_eq]
    by_cases h : (lastSlotForKey config records).entries = []
    · have hnil : client.replies writes = [] := by
        rw [← List.length_eq_zero_iff, hlen, Dict.keys, h]; rfl
      rw [if_pos h, if_pos (batchWrites_eq_nil_iff.2 h), hnil]
    · rw [if_neg h, if_neg (mt batchWrites_eq_nil_iff.1 h)]
  refine ⟨writes, ?_⟩
  rw [hrun]
  constructor
  case calls_eq => rfl
  case keys_nodup =>
    rw [keys_batchWrites]
    exact (lastSlotForKey config records).nodup
  case mem_keys_iff =>
    intro k
    rw [keys_batchWrites, mem_sentKeys_iff]
    simp only [keyOf_eq_some_iff]
  case last_sent =>
    intro w hw
    obtain ⟨r, hr, he⟩ := last_of_mem_batchWrites hw
    rw [winner_eq, occurrences_eq] at hr
    exact ⟨r, hr, congrArg Write.ops he, congrArg Write.policy he⟩
  case length_results => exact List.length_map _
  case tooLarge_iff =>
    intro i r hr
    rw [batchResults_getElem? hlen hr]
    by_cases hfit : Fits config r
    · simpa [hfit] using batchReason_ne_tooLarge config _
    · simp [hfit]
  case reply_reported =>
    intro i r hr hfit
    have hmem : sinkKey config r ∈ (lastSlotForKey config records).keys :=
      mem_sentKeys_iff.2 ⟨r, List.mem_of_getElem? hr, keyOf_of_fits hfit⟩
    rw [← keys_batchWrites] at hmem
    have hj := List.idxOf_lt_length_iff.2 hmem
    have hjw : ((batchWrites config records).map Write.key).idxOf (sinkKey config r) <
        writes.length := by rwa [List.length_map] at hj
    have hjr := hjw.trans_eq (client.length_replies writes).symm
    refine ⟨_, _, _, List.getElem?_eq_getElem hjw, ?_, List.getElem?_eq_getElem hjr, ?_⟩
    · have hkey := List.getElem_idxOf hj
      rwa [List.getElem_map] at hkey
    · rw [batchResults_getElem? hlen hr, if_pos hfit, replyFor, ← keys_batchWrites,
        List.getElem?_eq_getElem hjr, Option.getD_some]

end

end RedisToAerospike.L3
