import RedisToAerospike.Core.Fallible
import RedisToAerospike.L2Convert.Converters
import RedisToAerospike.L2Read.RedisServer

/-!
# Reading from Redis (`redis_source.py`)

The keys come in batches: the pages of a `SCAN`, or, on a cluster, chunks of
one flat stream. Each batch is read by two pipelines. `iterRecords` is a
generator: it says what is yielded, and the exception that ends it, if any.
-/
namespace RedisToAerospike.L2
open L1

/-! ## Keys -/

/-- mirrors src/redis_to_aerospike/redis_source.py:298-302 -/
def decodeType (raw : ByteArray) : String := Utf8.decodeReplace raw

/-- mirrors src/redis_to_aerospike/redis_source.py:304-314 -/
def decodeKey (key : ByteArray) : Key :=
  match Utf8.decodeStrict key with
  | some s => .str s
  | none => .bytes key

theorem decodeKey_str_iff {key : ByteArray} {s : String} :
    decodeKey key = .str s ↔ s.toByteArray = key := by
  rw [← Utf8.decodeStrict_eq_some_iff]
  unfold decodeKey
  cases Utf8.decodeStrict key <;> simp

/-- No two keys are decoded to one. -/
theorem decodeKey_inj {a b : ByteArray} (h : decodeKey a = decodeKey b) : a = b := by
  cases hb : decodeKey b with
  | str s =>
    rw [← decodeKey_str_iff.1 hb, ← decodeKey_str_iff.1 (h.trans hb)]
  | bytes c =>
    have hself : ∀ x, decodeKey x = .bytes c → x = c := fun x hx => by
      unfold decodeKey at hx
      split at hx <;> cases hx
      rfl
    rw [hself a (h.trans hb), hself b hb]

/-! ## Batches of keys -/

/-- Where a cursor `SCAN` goes on: `(cursor, keys)` replies up to cursor 0.
mirrors src/redis_to_aerospike/redis_source.py:224-239 -/
def scanBatches : List (Nat × List ByteArray) → List (List ByteArray)
  | [] => []
  | (cursor, keys) :: pages =>
    (if keys = [] then [] else [keys]) ++ if cursor = 0 then [] else scanBatches pages

theorem flatten_page (keys : List ByteArray) :
    (if keys = [] then [] else [keys]).flatten = keys := by
  by_cases h : keys = []
  · rw [if_pos h, h]; rfl
  · rw [if_neg h, List.flatten_singleton]

/-- While the cursor is not 0, the scan goes on. -/
theorem scanBatches_append {before : List (Nat × List ByteArray)} (h : ∀ p ∈ before, p.1 ≠ 0)
    (pages : List (Nat × List ByteArray)) :
    (scanBatches (before ++ pages)).flatten =
      before.flatMap Prod.snd ++ (scanBatches pages).flatten := by
  induction before with
  | nil => rfl
  | cons p before ih =>
    obtain ⟨hp, hrest⟩ := List.forall_mem_cons.1 h
    rw [List.cons_append, scanBatches, if_neg hp, List.flatten_append, flatten_page, ih hrest,
      List.flatMap_cons, List.append_assoc]

/-- It delivers the keys of the pages up to the first with cursor 0, which is
the last it reads. -/
theorem scanBatches_flatten {before : List (Nat × List ByteArray)} (h : ∀ p ∈ before, p.1 ≠ 0)
    (last : List ByteArray) (after : List (Nat × List ByteArray)) :
    (scanBatches (before ++ (0, last) :: after)).flatten = before.flatMap Prod.snd ++ last := by
  rw [scanBatches_append h, scanBatches, if_pos rfl, List.append_nil, flatten_page]

/-- No batch is empty, and each is a page. -/
theorem mem_scanBatches {pages : List (Nat × List ByteArray)} {batch : List ByteArray}
    (h : batch ∈ scanBatches pages) : batch ≠ [] ∧ ∃ cursor, (cursor, batch) ∈ pages := by
  induction pages with
  | nil => cases h
  | cons p pages ih =>
    rw [scanBatches, List.mem_append] at h
    rcases h with h | h
    · by_cases hk : p.2 = []
      · rw [if_pos hk] at h; cases h
      · rw [if_neg hk, List.mem_singleton] at h
        rw [h]
        exact ⟨hk, p.1, List.mem_cons_self⟩
    · by_cases hc : p.1 = 0
      · rw [if_pos hc] at h; cases h
      · rw [if_neg hc] at h
        obtain ⟨hne, cursor, hmem⟩ := ih h
        exact ⟨hne, cursor, List.mem_cons_of_mem _ hmem⟩

/-- mirrors src/redis_to_aerospike/redis_source.py:241-252 -/
def clusterBatches (batchSize : Int) : List ByteArray → List ByteArray → List (List ByteArray)
  | batch, [] => if batch = [] then [] else [batch]
  | batch, key :: keys =>
    if batchSize ≤ (batch ++ [key]).length then (batch ++ [key]) :: clusterBatches batchSize [] keys
    else clusterBatches batchSize (batch ++ [key]) keys

/-- Chunks lose nothing, and keep the order. -/
theorem clusterBatches_flatten (batchSize : Int) (batch keys : List ByteArray) :
    (clusterBatches batchSize batch keys).flatten = batch ++ keys := by
  induction keys generalizing batch with
  | nil =>
    unfold clusterBatches
    split
    · rename_i h; simp [h]
    · simp
  | cons key keys ih =>
    rw [clusterBatches]
    split
    · rw [List.flatten_cons, ih, List.nil_append, List.append_assoc]; rfl
    · rw [ih, List.append_assoc]; rfl

/-- A chunk is cut as soon as it has `batchSize` keys. -/
theorem clusterBatches_length {batchSize : Int} {batch keys : List ByteArray}
    (h : (batch.length : Int) < max 1 batchSize) :
    ∀ chunk ∈ clusterBatches batchSize batch keys,
      chunk ≠ [] ∧ (chunk.length : Int) ≤ max 1 batchSize := by
  induction keys generalizing batch with
  | nil =>
    intro chunk hc
    unfold clusterBatches at hc
    by_cases hb : batch = []
    · rw [if_pos hb] at hc; cases hc
    · rw [if_neg hb, List.mem_singleton] at hc
      rw [hc]
      exact ⟨hb, h.le⟩
  | cons key keys ih =>
    have hlen : ((batch ++ [key]).length : Int) = batch.length + 1 := by simp
    intro chunk hc
    rw [clusterBatches] at hc
    by_cases hfull : batchSize ≤ (batch ++ [key]).length
    · rw [if_pos hfull, List.mem_cons] at hc
      rcases hc with rfl | hc
      · exact ⟨List.append_ne_nil_of_right_ne_nil _ (List.cons_ne_nil _ _), by omega⟩
      · exact ih (by rw [List.length_nil]; omega) chunk hc
    · rw [if_neg hfull] at hc
      exact ih (by omega) chunk hc

/-! ## One batch -/

section
variable {F : Type}

/-- `_decode` of a reply to `TYPE`, which is a status. -/
def typeOf : Answer F → String
  | .status raw => decodeType raw
  | _ => ""

/-- `pttl if isinstance(pttl, int) and pttl >= 0 else None` -/
def ttlOf : Answer F → Option Int
  | .int n => if 0 ≤ n then some n else none
  | _ => none

/-- A reply in the place of a value. -/
def valueOf : Answer F → RedisValue F
  | .value v => v
  | .int n => .exists n
  | _ => .none

/-- `xs[i]` -/
def item {α : Type} (xs : List α) (i : Nat) : Except Exn α :=
  match xs[i]? with
  | some x => .ok x
  | none => .error (.other "IndexError" "list index out of range")

/-- `d[key]` -/
def subscript {α : Type} (d : Dict ByteArray α) (key : ByteArray) : Except Exn α :=
  match d.get? key with
  | some v => .ok v
  | none => .error (.other "KeyError" (bytesRepr key))

/-- The body of the loop over the replies: a key with its type and TTL. -/
def typeAndTtl (results : List (Answer F)) (p : ByteArray × Nat) :
    Except Exn (ByteArray × String × Option Int) := do
  let rawType ← item results (p.2 * 2)
  let pttl ← item results (p.2 * 2 + 1)
  pure (p.1, typeOf rawType, ttlOf pttl)

/-- mirrors src/redis_to_aerospike/redis_source.py:254-270 -/
def fetchTypesAndTtls (h : History F) (t : Nat) (keys : List ByteArray) :
    Except Exn (Dict ByteArray String × Dict ByteArray (Option Int)) := do
  let results ← execute h t (keys.flatMap fun key => [⟨.type, key⟩, ⟨.pttl, key⟩])
  let rows ← keys.zipIdx.mapM (typeAndTtl results)
  pure (Dict.ofPairs (rows.map fun r => (r.1, r.2.1)), Dict.ofPairs (rows.map fun r => (r.1, r.2.2)))

/-- The command for a type; `EXISTS` for a type that is not supported. -/
def readVerb (keyType : String) : Verb :=
  if keyType = "string" then .get
  else if keyType = "hash" then .hgetall
  else if keyType = "list" then .lrange
  else if keyType = "set" then .smembers
  else if keyType = "zset" then .zrange
  else .exists_

/-- A key with its type. -/
def typedKey (types : Dict ByteArray String) (key : ByteArray) : Except Exn (ByteArray × String) := do
  let keyType ← subscript types key
  pure (key, keyType)

/-- The values, and the number of commands sent for them.
mirrors src/redis_to_aerospike/redis_source.py:272-296 -/
def fetchValues (h : History F) (t : Nat) (keys : List ByteArray) (types : Dict ByteArray String) :
    Except Exn (Dict ByteArray (RedisValue F) × Nat) := do
  let typed ← keys.mapM (typedKey types)
  let ordered := typed.filter fun p => p.2 ≠ "none"
  let results ← execute h t (ordered.map fun p => ⟨readVerb p.2, p.1⟩)
  pure (Dict.ofPairs ((ordered.map Prod.fst).zip (results.map valueOf)), ordered.length)

/-- `not value` -/
def isEmptyValue : RedisValue F → Bool
  | .none => true
  | .string b => b.size = 0
  | .hash h => h.size = 0
  | .list xs => xs = []
  | .set s => s.elems = []
  | .zset xs => xs.isEmpty
  | .exists n => n = 0

/-- `value is None` -/
def isNone : RedisValue F → Bool
  | .none => true
  | _ => false

/-- mirrors src/redis_to_aerospike/redis_source.py:209-218 -/
def isVanished (keyType : String) (value : RedisValue F) : Bool :=
  if keyType = "string" then isNone value
  else if keyType ∈ ["hash", "list", "set", "zset"] then isEmptyValue value
  else false

/-- The body of the loop over a batch. -/
def yieldOne (types : Dict ByteArray String) (ttls : Dict ByteArray (Option Int))
    (values : Dict ByteArray (RedisValue F)) (key : ByteArray) :
    Except Exn (Option (RedisRecord F)) := do
  let keyType ← subscript types key
  match if keyType = "none" then none else values.get? key with
  | none => pure none
  | some value =>
    if isVanished keyType value then pure none
    else do
      let ttlMs ← subscript ttls key
      pure (some { key := decodeKey key, type := keyType, value, ttlMs })

/-- Both pipelines and the records of one batch, and the tick after its last
command. -/
def readBatch (h : History F) (t : Nat) (keys : List ByteArray) :
    Except Exn (List (RedisRecord F) × Nat) := do
  let (types, ttls) ← fetchTypesAndTtls h t keys
  let (values, sent) ← fetchValues h (t + 2 * keys.length) keys types
  let records ← keys.mapM (yieldOne types ttls values)
  pure (records.filterMap id, t + 2 * keys.length + sent)

/-- The records yielded, and the exception that ends the generator.
mirrors src/redis_to_aerospike/redis_source.py:184-207 -/
def iterRecords (h : History F) : Nat → List (List ByteArray) → List (RedisRecord F) × Option Exn
  | _, [] => ([], none)
  | t, keys :: batches =>
    if keys = [] then iterRecords h t batches
    else
      match readBatch h t keys with
      | .error exc => ([], some exc)
      | .ok (records, t') =>
        let rest := iterRecords h t' batches
        (records ++ rest.1, rest.2)

end

end RedisToAerospike.L2
