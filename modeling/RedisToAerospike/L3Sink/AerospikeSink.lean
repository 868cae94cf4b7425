import RedisToAerospike.L1Data.Config
import RedisToAerospike.L2Convert.Converters
import RedisToAerospike.L3Sink.Server
import RedisToAerospike.Core.Replay

/-!
# The sink (`aerospike_sink.py`)

`write` sends one record, `write_many` one sub-write for each distinct key of
a batch. Exceptions are told apart by class; the connection, the server
information and the logging are not modelled.

* `applyOps_opsFor`: what the operations built for a record leave in its bins;
  they never fail.
* `operate_opsFor`: one write changes the record under its key by `act`, and
  fails only where the policy is to create and there is a record.
* `write_eq`: the single path in these terms.
-/
namespace RedisToAerospike.L3
open L1

/-- mirrors src/redis_to_aerospike/aerospike_sink.py:25-26 -/
def BATCH_RECORD_EXISTS_OUTCOME : String := "RecordExists"

/-- What `write` raises. -/
inductive WriteError where
  | recordTooLarge (msg : String)
  | recordAlreadyExists
  | client (code : Int)
  deriving DecidableEq

/-- `type(exc).__name__`, the client's classes by their codes. -/
def WriteError.name : WriteError → String
  | .recordTooLarge _ => "RecordTooLargeError"
  | .recordAlreadyExists => "RecordAlreadyExists"
  | .client code =>
    if code = RESULT_RECORD_EXISTS then "RecordExistsError"
    else if code = RESULT_BIN_TYPE then "BinIncompatibleType" else "ServerError"

section
variable {F : Type}

/-- mirrors src/redis_to_aerospike/aerospike_sink.py:236-238 -/
def sinkKey (config : AerospikeConfig) (record : AerospikeRecord F) : AerospikeKey :=
  let setName := match record.setName with
    | some s => if s = "" then config.setName else s
    | none => config.setName
  (config.namespace_, setName, record.key)

/-- mirrors src/redis_to_aerospike/aerospike_sink.py:240-254 -/
def encodeBinValueForWrite : Value F → Value F
  | .dict false es => .dict true es
  | v => v

/-- mirrors src/redis_to_aerospike/aerospike_sink.py:256-257 -/
def encodeBinsForWrite (bins : Dict String (Value F)) : Dict String (Value F) :=
  bins.mapVals fun _ v => encodeBinValueForWrite v

/-- The `ttl` of the policy; 0 is the default of the namespace. -/
def policyTtl (record : AerospikeRecord F) : Int := record.ttlS.getD 0

/-- mirrors src/redis_to_aerospike/aerospike_sink.py:259-272 -/
def writePolicy (config : AerospikeConfig) (record : AerospikeRecord F) : WritePolicy :=
  { ttl := policyTtl record
    exists_ := match config.recordExistsPolicy with
      | .update => .ignore
      | .replace => .createOrReplace
      | .createOnly => .create }

/-- mirrors src/redis_to_aerospike/aerospike_sink.py:274-290 -/
def recordExistsErrorCodes : List Int := [RESULT_RECORD_EXISTS]

mutual

/-- mirrors src/redis_to_aerospike/aerospike_sink.py:309-332 -/
def estimateSize : Value F → Nat
  | .none => 1
  | .bool _ => 1
  | .int _ => 8
  | .float _ => 8
  | .bytes b => b.size
  | .str s => s.toByteArray.size
  | .list xs => estimateList xs
  | .dict _ es => estimatePairs es

def estimateList : List (Value F) → Nat
  | [] => 0
  | x :: xs => estimateSize x + estimateList xs

def estimatePairs : List (Value F × Value F) → Nat
  | [] => 0
  | (k, v) :: es => estimateSize k + estimateSize v + estimatePairs es

end

/-- mirrors src/redis_to_aerospike/aerospike_sink.py:334-338 -/
def recordSize (record : AerospikeRecord F) : Nat :=
  (record.bins.entries.map fun p => p.1.toByteArray.size + estimateSize p.2).sum

/-- `str(key)` -/
def keyText : Key → String
  | .str s => s
  | .bytes b => L2.bytesRepr b

/-- mirrors src/redis_to_aerospike/aerospike_sink.py:340-349 -/
def tooLargeReason (config : AerospikeConfig) (record : AerospikeRecord F) : Option String :=
  let limit := config.maxRecordSize
  let size := recordSize record
  if limit < size then
    some ("record '" ++ keyText record.key ++ "' is ~" ++ toString size ++
      " bytes, exceeding the " ++ toString limit ++ " byte (" ++ toString (limit / (1024 * 1024)) ++
      " MiB) Aerospike limit; skipping")
  else none

/-- The bins with the `UNIQUE_LIST` policy. -/
def uniqueBins (record : AerospikeRecord F) : List (String × Value F) :=
  record.bins.entries.filter fun p => record.policyFor p.1 = .uniqueList

/-- `list(value)` of a unique-list bin. -/
def listOf : Value F → List (Value F)
  | .list xs => xs
  | _ => []

/-- The operations for one bin. -/
def binOps (record : AerospikeRecord F) (p : String × Value F) : List (Op F) :=
  if p.1 ∈ (uniqueBins record).map Prod.fst then
    [.write p.1 (.list []), .listAppendItems p.1 (listOf p.2)]
  else [.write p.1 (encodeBinValueForWrite p.2)]

/-- mirrors src/redis_to_aerospike/aerospike_sink.py:501-525 -/
def buildOps (record : AerospikeRecord F) : List (Op F) :=
  record.bins.entries.flatMap (binOps record)

/-- mirrors src/redis_to_aerospike/aerospike_sink.py:481-499 -/
def opsFor (record : AerospikeRecord F) : List (Op F) :=
  if uniqueBins record = [] then
    record.bins.entries.map fun p => .write p.1 (encodeBinValueForWrite p.2)
  else buildOps record

/-- mirrors src/redis_to_aerospike/aerospike_sink.py:468-479 -/
def batchPolicy (config : AerospikeConfig) (record : AerospikeRecord F) : WritePolicy :=
  { writePolicy config record with sendKey := config.sendKey }

section
variable [OrderedLists F]

/-- The call of `write`.
mirrors src/redis_to_aerospike/aerospike_sink.py:360-379 -/
def singleCall (config : AerospikeConfig) (S : Store F) (record : AerospikeRecord F) :
    Store F × Int :=
  if uniqueBins record = [] then
    put S (sinkKey config record) (encodeBinsForWrite record.bins) (writePolicy config record)
  else operate S (sinkKey config record) (buildOps record) (writePolicy config record)

/-- mirrors src/redis_to_aerospike/aerospike_sink.py:351-386 -/
def write (config : AerospikeConfig) (S : Store F) (record : AerospikeRecord F) :
    Store F × Except WriteError Unit :=
  match tooLargeReason config record with
  | some reason => (S, .error (.recordTooLarge reason))
  | none =>
    let call := singleCall config S record
    if call.2 = RESULT_OK then (call.1, .ok ())
    else if config.recordExistsPolicy = .createOnly ∧ call.2 ∈ recordExistsErrorCodes then
      (call.1, .error .recordAlreadyExists)
    else (call.1, .error (.client call.2))

/-! ## What a write leaves -/

/-- What the record puts into a bin. -/
def written (record : AerospikeRecord F) (b : String) : Option (Value F) :=
  (record.bins.get? b).map fun v =>
    if record.policyFor b = .uniqueList then .list (OrderedLists.appendUnique [] (listOf v))
    else encodeBinValueForWrite v

/-- What one write makes of the record under its key. -/
def act (config : AerospikeConfig) (record : AerospikeRecord F) :
    Option (Entry F) → Option (Entry F)
  | none => some ⟨written record, policyTtl record⟩
  | some e =>
    match config.recordExistsPolicy with
    | .update => some ⟨fun b => (written record b).or (e.bins b), policyTtl record⟩
    | .replace => some ⟨written record, policyTtl record⟩
    | .createOnly => some e

/-- The result code of one write. -/
def actCode (config : AerospikeConfig) (old : Option (Entry F)) : Int :=
  if config.recordExistsPolicy = .createOnly ∧ old.isSome then RESULT_RECORD_EXISTS else RESULT_OK

end

theorem mem_uniqueBins_iff {record : AerospikeRecord F} {p : String × Value F}
    (hp : p ∈ record.bins.entries) :
    p.1 ∈ (uniqueBins record).map Prod.fst ↔ record.policyFor p.1 = .uniqueList := by
  unfold uniqueBins
  constructor
  · intro h
    obtain ⟨q, hq, he⟩ := List.mem_map.1 h
    rw [← he]
    simpa using (List.mem_filter.1 hq).2
  · intro h
    exact List.mem_map.2 ⟨p, List.mem_filter.2 ⟨hp, by simpa using h⟩, rfl⟩

/-- Both lists of operations are built bin by bin. -/
theorem opsFor_eq (record : AerospikeRecord F) : opsFor record = buildOps record := by
  unfold opsFor
  split
  · rename_i h
    rw [buildOps, List.map_eq_flatMap]
    refine List.flatMap_congr fun p _ => ?_
    simp [binOps, h]
  · rfl

variable [OrderedLists F]

theorem applyOps_binOps (record : AerospikeRecord F) {p : String × Value F}
    (hp : p ∈ record.bins.entries) (bins : Bins F) :
    applyOps bins (binOps record p) = .ok (Function.update bins p.1 (written record p.1)) := by
  have hget : record.bins.get? p.1 = some p.2 := Dict.get?_eq_some_iff.2 hp
  unfold binOps written
  simp only [mem_uniqueBins_iff hp, hget]
  by_cases h : record.policyFor p.1 = .uniqueList
  · simp [h, applyOps, applyOp]
  · simp [h, applyOps, applyOp]

/-- The operations of some of the bins, over whatever was there. -/
theorem applyOps_flatMap (record : AerospikeRecord F) {es : List (String × Value F)}
    (hes : ∀ p ∈ es, p ∈ record.bins.entries) (bins : Bins F) :
    applyOps bins (es.flatMap (binOps record)) =
      .ok fun b => if b ∈ es.map Prod.fst then written record b else bins b := by
  induction es generalizing bins with
  | nil => simp [applyOps]
  | cons p es ih =>
    rw [List.flatMap_cons, applyOps_append, applyOps_binOps record (hes p List.mem_cons_self)]
    dsimp only
    rw [ih fun q hq => hes q (List.mem_cons_of_mem _ hq)]
    congr 1
    funext b
    by_cases hb : b = p.1
    · subst hb; simp
    · have hmem : b ∈ (p :: es).map Prod.fst ↔ b ∈ es.map Prod.fst := by
        rw [List.map_cons, List.mem_cons]
        exact ⟨fun h => h.resolve_left hb, .inr⟩
      simp only [hmem, Function.update_of_ne hb]

theorem applyOps_opsFor (record : AerospikeRecord F) (bins : Bins F) :
    applyOps bins (opsFor record) = .ok fun b => (written record b).or (bins b) := by
  rw [opsFor_eq, buildOps, applyOps_flatMap record fun p hp => hp]
  congr 1
  funext b
  by_cases hb : b ∈ record.bins.entries.map Prod.fst
  · obtain ⟨v, hv⟩ := Option.isSome_iff_exists.1 (Dict.get?_isSome_iff.2 hb)
    simp [hb, written, hv]
  · have hnone : record.bins.get? b = none := Dict.get?_eq_none_iff.2 hb
    simp [hb, written, hnone]

theorem operate_opsFor (config : AerospikeConfig) (record : AerospikeRecord F)
    {policy : WritePolicy} (hexists : policy.exists_ = (writePolicy config record).exists_)
    (httl : policy.ttl = policyTtl record) (S : Store F) (k : AerospikeKey) :
    operate S k (opsFor record) policy =
      (Function.update S k (act config record (S k)), actCode config (S k)) := by
  unfold operate
  cases hS : S k with
  | none =>
    simp only [startBins, applyOps_opsFor, httl, act, actCode]
    simp
  | some e =>
    simp only [startBins, hexists, writePolicy]
    cases hp : config.recordExistsPolicy with
    | update => simp [applyOps_opsFor, httl, act, actCode, hp]
    | replace => simp [applyOps_opsFor, httl, act, actCode, hp]
    | createOnly =>
      have hself : Function.update S k (some e) = S := by rw [← hS, Function.update_eq_self]
      simp [act, actCode, hp, hself]

/-- `put` and `operate` have one effect. -/
theorem singleCall_eq (config : AerospikeConfig) (S : Store F) (record : AerospikeRecord F) :
    singleCall config S record =
      (Replay.apply (sinkKey config) (act config) S record,
        actCode config (S (sinkKey config record))) := by
  have hcall : singleCall config S record =
      operate S (sinkKey config record) (opsFor record) (writePolicy config record) := by
    unfold singleCall opsFor
    split
    · simp [put, encodeBinsForWrite, Dict.mapVals, Function.comp_def]
    · rfl
  rw [hcall, operate_opsFor config record rfl rfl]
  rfl

/-- The single path: nothing for an oversized record, else one `act`. -/
theorem write_eq (config : AerospikeConfig) (S : Store F) (record : AerospikeRecord F) :
    write config S record =
      match tooLargeReason config record with
      | some reason => (S, .error (.recordTooLarge reason))
      | none =>
        (Replay.apply (sinkKey config) (act config) S record,
          if config.recordExistsPolicy = .createOnly ∧ (S (sinkKey config record)).isSome then
            .error .recordAlreadyExists
          else .ok ()) := by
  unfold write
  cases tooLargeReason config record with
  | some reason => rfl
  | none =>
    dsimp only
    rw [singleCall_eq]
    unfold actCode
    by_cases hc : config.recordExistsPolicy = .createOnly ∧ (S (sinkKey config record)).isSome = true
    · simp [hc, RESULT_RECORD_EXISTS, RESULT_OK, recordExistsErrorCodes]
    · simp [hc, RESULT_OK]

end

end RedisToAerospike.L3
