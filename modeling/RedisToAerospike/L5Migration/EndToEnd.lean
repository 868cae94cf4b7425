import RedisToAerospike.L2Read.Scan
import RedisToAerospike.L3Place.Supported
import RedisToAerospike.L3Sink.Readings
import RedisToAerospike.L4Pipeline.Termination
import RedisToAerospike.L5Migration.LastWrite

/-!
# From keyspace to keyspace

The program as the command line builds it: what a scan of Redis yields goes
through the pipeline into Aerospike. Keys may disappear while the scan runs,
a key may come twice, and the TTLs count down.

* `reading`: what the reader makes of a key at one moment.
* `end_to_end`: what is under an Aerospike key afterwards is what a reading of
  one Redis key makes of what was there; a key that outlives its batch is
  carried over, and nothing else is touched.
-/
namespace RedisToAerospike.L5
open L1 L2 L3 L4

section
variable {F : Type}

/-! ## What the scan hands over -/

/-- The record of a key whose entry is `e`, read at a moment. -/
def reading (m : Moment F) (key : ByteArray) (e : Stored F) : RedisRecord F :=
  { key := decodeKey key, type := e.data.typeName, value := e.data.read, ttlMs := m.ttl key }

/-- What a batch yields for a key of a supported type is a reading. -/
theorem reading_of_recordAt {h : History F} {base : Keyspace F} (hv : Vanishing h base) {t : Nat}
    {keys : List ByteArray} {key : ByteArray} (hkey : key ∈ keys) {a : RedisRecord F}
    (ha : recordAt h t keys key = some a) (hty : a.type ∈ supportedTypes) :
    ∃ e i, base key = some e ∧ (h i).keyspace key = some e ∧ a = reading (h i) key e := by
  obtain ⟨hname, -, -, ⟨i, -, hi, httl⟩, j, hj, -, hown, -⟩ := recordAt_some hkey ha
  obtain ⟨e, he, htype, hvalue⟩ := hown hty
  -- there at the value read, so also at the `PTTL` before
  refine ⟨e, i, hv.kept j key e he, hv.before (by omega) he, ?_⟩
  cases a
  simp_all [reading]

theorem mem_yielded {h : History F} {t : Nat} {batches : List (List ByteArray)}
    {a : RedisRecord F} :
    a ∈ yielded h t batches ↔
      ∃ s ∈ starts h t batches, ∃ key ∈ s.2, recordAt h s.1 s.2 key = some a := by
  simp only [yielded, List.mem_flatMap, List.mem_filterMap]

theorem mem_flatten_of_starts {h : History F} {t : Nat} {batches : List (List ByteArray)}
    {s : Nat × List ByteArray} (hs : s ∈ starts h t batches) {key : ByteArray} (hkey : key ∈ s.2) :
    key ∈ batches.flatten := by
  induction batches generalizing t with
  | nil => cases hs
  | cons keys batches ih =>
    rw [List.flatten_cons]
    rcases List.mem_cons.1 hs with rfl | hs
    · exact List.mem_append_left _ hkey
    · exact List.mem_append_right _ (ih hs)

/-! ## The program -/

variable [PyFloat F]

/-- The migrator of the command line: the built-in converters, no transforms.
mirrors src/redis_to_aerospike/cli.py:665, 698 -/
def Migrator.ofConfig (config : MigrationConfig) : Migrator F := ⟨config, .fromConfig config, []⟩

/-- The Aerospike key that a Redis key goes to. -/
def destination (config : AerospikeConfig) (key : ByteArray) : AerospikeKey :=
  let resolution := resolve config.setRoutes config.setName (decodeKey key)
  (config.namespace_, if resolution.setName = "" then config.setName else resolution.setName,
    resolution.key)

theorem transformsReturn_ofConfig (config : MigrationConfig) :
    TransformsReturn (Migrator.ofConfig config : Migrator F) := fun _ ht => by cases ht

/-- Only records of the five types are prepared. -/
theorem supported_of_recordOf {config : MigrationConfig} {a : RedisRecord F} {r : AerospikeRecord F}
    (hr : (Migrator.ofConfig config).recordOf a = some r) : a.type ∈ supportedTypes := by
  by_contra ht
  have hprep : (Migrator.ofConfig config).prepare a = .record r := recordOf_eq_some.1 hr
  have hskip : (Migrator.ofConfig config).prepare a = .skipped a.type := prepare_unsupported ht
  rw [hskip] at hprep
  cases hprep

theorem keyOf_reading {config : MigrationConfig} {m : Moment F} {key : ByteArray} {e : Stored F}
    {r : AerospikeRecord F} (hr : (Migrator.ofConfig config).recordOf (reading m key e) = some r)
    {k : AerospikeKey} (hk : keyOf config.aerospike r = some k) :
    k = destination config.aerospike key := by
  have hreg := ConverterRegistry.fromConfig_keepsPlace (F := F) config
  rw [← (keyOf_eq_some hk).2]
  exact sinkKey_resolved hreg (recordOf_eq_some.1 hr)

variable [OrderedLists F]

/-- `k` holds what a reading of `key` makes of what it held before. -/
def Carried (config : MigrationConfig) (h : History F) (S₀ S : Store F) (k : AerospikeKey)
    (key : ByteArray) (e : Stored F) : Prop :=
  ∃ i r, (h i).keyspace key = some e ∧
    (Migrator.ofConfig config).recordOf (reading (h i) key e) = some r ∧
    keyOf config.aerospike r = some k ∧ S k = act config.aerospike r (S₀ k)

/-- The keys of the scan go to different places. -/
def Apart (config : AerospikeConfig) (keys : List ByteArray) : Prop :=
  ∀ a ∈ keys, ∀ b ∈ keys, destination config a = destination config b → a = b

/-- What reaches the server under a key are readings of one Redis key. -/
theorem reading_of_log {config : MigrationConfig} {h : History F} {base : Keyspace F}
    (hv : Vanishing h base) {t : Nat} {batches : List (List ByteArray)} {S₀ : Store F}
    {x : Sys F} (hx : (migration (.ofConfig config) S₀ (yielded h t batches)).Reachable x)
    {k : AerospikeKey} {r : AerospikeRecord F}
    (hr : r ∈ occurrences config.aerospike (x.log.map Prod.snd) k) :
    ∃ key ∈ batches.flatten, ∃ e i, base key = some e ∧ (h i).keyspace key = some e ∧
      (Migrator.ofConfig config).recordOf (reading (h i) key e) = some r ∧
      keyOf config.aerospike r = some k := by
  obtain ⟨hmem, hk⟩ := mem_occurrences.1 (mem_source hx hr)
  obtain ⟨a, ha, hra⟩ := List.mem_filterMap.1 hmem
  obtain ⟨s, hs, key, hkey, hrec⟩ := mem_yielded.1 ha
  obtain ⟨e, i, hbase, halive, rfl⟩ :=
    reading_of_recordAt hv hkey hrec (supported_of_recordOf hra)
  exact ⟨key, mem_flatten_of_starts hs hkey, e, i, hbase, halive, hra, hk⟩

/-- What has been written to, has been carried over from one Redis key. -/
theorem carried_of_log {config : MigrationConfig} {h : History F} {base : Keyspace F}
    (hv : Vanishing h base) {t : Nat} {batches : List (List ByteArray)}
    (hapart : Apart config.aerospike batches.flatten) {S₀ : Store F}
    {x : Sys F} (hx : (migration (.ofConfig config) S₀ (yielded h t batches)).Reachable x)
    {k : AerospikeKey} (hne : occurrences config.aerospike (x.log.map Prod.snd) k ≠ []) :
    ∃ key ∈ batches.flatten, ∃ e, base key = some e ∧ Carried config h S₀ x.store k key e := by
  have hread := fun {r} => reading_of_log hv hx (k := k) (r := r)
  -- any two of them are readings of one entry, so they differ in the TTL alone
  have hpair : ∀ r ∈ occurrences config.aerospike (x.log.map Prod.snd) k,
      ∀ s ∈ occurrences config.aerospike (x.log.map Prod.snd) k, Retimed r s := by
    intro r hr s hs
    obtain ⟨a, ha, e, i, hae, -, hra, hrk⟩ := hread hr
    obtain ⟨b, hb, f, j, hbf, -, hsb, hsk⟩ := hread hs
    obtain rfl : a = b :=
      hapart a ha b hb ((keyOf_reading hra hrk).symm.trans (keyOf_reading hsb hsk))
    rw [hae] at hbf
    cases hbf
    have hfirst : prepare config (.fromConfig config) [] (reading (h i) a e) = .record r :=
      recordOf_eq_some.1 hra
    exact prepare_retimed hfirst (recordOf_eq_some.1 hsb)
  have hstore := store_at hx k
  obtain ⟨r, hr, hfold⟩ := Replay.foldl_absorb hne
    (fun r hr s hs v => act_absorbs config.aerospike (hpair r hr s hs) v) (S₀ k)
  obtain ⟨key, hkey, e, i, hbase, halive, hra, hk⟩ := hread hr
  exact ⟨key, hkey, e, hbase, i, r, halive, hra, hk, hstore.trans hfold⟩

/-- **End to end.** Keys only disappear while the scan runs, and no two of
them go to one place. Then the scan does not raise, and after a full run over
what it yielded every Aerospike key that has changed holds a reading of some
Redis key, and every Redis key that outlives a batch it is in, and fits, is
carried over. -/
theorem end_to_end {config : MigrationConfig} {h : History F} {base : Keyspace F}
    (hv : Vanishing h base) {t : Nat} {batches : List (List ByteArray)}
    (hapart : Apart config.aerospike batches.flatten) {S₀ S : Store F}
    (hfull : (Migrator.ofConfig config).Leaves S₀ (iterRecords h t batches).1 S) :
    (iterRecords h t batches).2 = none ∧
    (∀ k, S k ≠ S₀ k →
      ∃ key ∈ batches.flatten, ∃ e, base key = some e ∧ Carried config h S₀ S k key e) ∧
    ∀ s ∈ starts h t batches, ∀ key ∈ s.2, ∀ e,
      (h (finish h s.1 s.2 - 1)).keyspace key = some e → ∀ k,
        (∀ i, (h i).keyspace key = some e →
          GoesTo (.ofConfig config) k (reading (h i) key e)) → Carried config h S₀ S k key e := by
  have hscan := iterRecords_eq (hv.noRaces t batches)
  rw [hscan] at hfull
  dsimp only at hfull
  obtain ⟨x, hx, hd, hraised, rfl⟩ := hfull
  refine ⟨by rw [hscan], fun k hne => ?_, fun s hs key hkey e halive k hgoes => ?_⟩
  · refine carried_of_log hv hapart hx fun hnil => hne ?_
    rw [store_at hx k]
    exact congrArg (List.foldl _ (S₀ k)) hnil
  · -- the scan has yielded a reading of the key, and it has been dequeued
    obtain ⟨i, -, hi, hrec⟩ := recordAt_of_stays (h := h) (t := s.1) hkey (e := e)
      fun j _ hj => hv.before (by omega) halive
    obtain ⟨r, hra, hk⟩ := hgoes i (hv.before (by omega) halive)
    have hmem : reading (h i) key e ∈ yielded h t batches :=
      mem_yielded.2 ⟨s, hs, key, hkey, hrec⟩
    rw [← seen_of_full (pipe_reachable hx).of_restrict hd hraised,
      ← taken_of_done (transformsReturn_ofConfig config) hx hd] at hmem
    have hne := log_ne_nil hx hd
      (mem_occurrences.2 ⟨List.mem_filterMap.2 ⟨_, hmem, hra⟩, hk⟩)
    obtain ⟨key', hkey', e', hbase', hcarried⟩ := carried_of_log hv hapart hx hne
    -- what was carried over to `k` was this key
    obtain ⟨j, r', -, hra', hk', -⟩ := id hcarried
    obtain rfl : key' = key := hapart key' hkey' key (mem_flatten_of_starts hs hkey)
      ((keyOf_reading hra' hk').symm.trans (keyOf_reading hra hk))
    rw [hv.kept _ _ _ halive] at hbase'
    cases hbase'
    exact hcarried

end

/-- The string `a` of `expiring`, as it is read. -/
def readA : RedisRecord String :=
  { key := .str "a", type := "string", value := .string "x".toByteArray }

/-- One worker, single writes. -/
def singleConfig : MigrationConfig := { workers := 1, queueSize := 0, writeBatchSize := 1 }

/-- While `b` expires, `a` is carried over, though it comes twice. -/
theorem end_to_end_expiring :
    ∃ S, (Migrator.ofConfig singleConfig).Leaves (fun _ => none)
        (iterRecords expiring 0 [["a".toByteArray, "b".toByteArray, "a".toByteArray]]).1 S ∧
      Carried singleConfig expiring (fun _ => none) S ("test", "redis", .str "a") "a".toByteArray
        ⟨.string "x".toByteArray, none⟩ := by
  have hscan : (iterRecords expiring 0
      [["a".toByteArray, "b".toByteArray, "a".toByteArray]]).1 = [readA, readA] := by
    decide +kernel
  have hapart : Apart singleConfig.aerospike
      [["a".toByteArray, "b".toByteArray, "a".toByteArray]].flatten := by
    unfold Apart
    decide +kernel
  obtain ⟨x, hx, hd, hr⟩ : ∃ x, (migration (.ofConfig singleConfig) (fun _ => none)
      [readA, readA]).Reachable x ∧ x.pipe.main = .done ∧ x.pipe.raised = false := by
    apply Exists.intro
    refine ⟨⟨_, [.pipe .scan, .pipe .put, .pipe .scan, .pipe .put, .pipe .sourceEnd,
      .pipe (.get 0), .prepare 0, .write 0, .pipe (.count 0), .pipe (.get 0), .prepare 0,
      .write 0, .pipe (.count 0), .pipe .putStop, .pipe (.get 0), .pipe .join], rfl,
      LTS.run_of_exec (fun _ _ _ h => h) rfl⟩, rfl, rfl⟩
  have hfull : (Migrator.ofConfig singleConfig).Leaves (fun _ => none)
      (iterRecords expiring 0 [["a".toByteArray, "b".toByteArray, "a".toByteArray]]).1 x.store := by
    rw [hscan]
    exact ⟨x, hx, hd, hr, rfl⟩
  refine ⟨x.store, hfull, (end_to_end expiring_vanishing hapart hfull).2.2 _
    List.mem_cons_self _ List.mem_cons_self _ rfl _ fun i _ => ?_⟩
  exact ⟨_, rfl, rfl⟩

end RedisToAerospike.L5
