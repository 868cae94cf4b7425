import RedisToAerospike.L2Convert.Registry
import RedisToAerospike.L3Place.SetRouting

/-!
# Preparing a record (`Migrator._prepare`, `transforms.py`)

Convert, run the transforms, place. A transform is any function of the
record that may raise; it is called outside the handler of the conversion.

* `prepare_place`: without transforms a record that is prepared goes to the
  set and key its Redis key resolves to.
-/
namespace RedisToAerospike.L3
open L1 L2

/-- What `_prepare` does with a record: hand it on, count it as skipped or
failed under a reason, or let an exception out. -/
inductive Prepared (R : Type) where
  | record (r : R)
  | skipped (reason : String)
  | failed (reason : String)
  | raised (exc : Exn)

section
variable {F : Type} [PyFloat F]

/-- mirrors src/redis_to_aerospike/transforms.py:21-26 -/
abbrev Transform (F : Type) := AerospikeRecord F → Except Exn (AerospikeRecord F)

omit [PyFloat F] in
/-- mirrors src/redis_to_aerospike/transforms.py:36-40 -/
def applyAll (record : AerospikeRecord F) : List (Transform F) → Except Exn (AerospikeRecord F)
  | [] => .ok record
  | transform :: transforms =>
    match transform record with
    | .ok record' => applyAll record' transforms
    | .error exc => .error exc

/-- mirrors src/redis_to_aerospike/migrator.py:147-160 -/
def effectiveHash (config : MigrationConfig) (resolution : RouteResolution) : HashStrategy :=
  resolution.hashStrategy.getD config.hashStrategy

def effectiveValueBin (config : MigrationConfig) (resolution : RouteResolution) : Option String :=
  match effectiveHash config resolution with
  | .mapBin => some (resolution.valueBin.getD config.aerospike.valueBin)
  | .fieldBins => none

omit [PyFloat F] in
/-- mirrors src/redis_to_aerospike/migrator.py:181-184 -/
def place (config : MigrationConfig) (resolution : RouteResolution) (record : RedisRecord F)
    (r : AerospikeRecord F) : AerospikeRecord F :=
  { r with
    setName :=
      if resolution.setName ≠ config.aerospike.setName then some resolution.setName else r.setName
    key := if resolution.key ≠ record.key then resolution.key else r.key }

/-- The conversion, a hash under the overrides of its route.
mirrors src/redis_to_aerospike/migrator.py:162-170 -/
def conversion (config : MigrationConfig) (registry : ConverterRegistry F)
    (record : RedisRecord F) : Except Exn (AerospikeRecord F) :=
  let resolution := resolve config.aerospike.setRoutes config.aerospike.setName record.key
  if record.type = "hash" then
    registry.convert record (some (effectiveHash config resolution))
      (effectiveValueBin config resolution)
  else registry.convert record none none

omit [PyFloat F] in
/-- What becomes of a conversion.
mirrors src/redis_to_aerospike/migrator.py:171-185 -/
def prepareConverted (config : MigrationConfig) (transforms : List (Transform F))
    (record : RedisRecord F) : Except Exn (AerospikeRecord F) → Prepared (AerospikeRecord F)
  | .error (.unsupportedType _) => .skipped record.type
  | .error exc => .failed ("convert:" ++ exc.name)
  | .ok aerospikeRecord =>
    match applyAll aerospikeRecord transforms with
    | .error exc => .raised exc
    | .ok r =>
      .record (place config
        (resolve config.aerospike.setRoutes config.aerospike.setName record.key) record r)

/-- mirrors src/redis_to_aerospike/migrator.py:145-185 -/
def prepare (config : MigrationConfig) (registry : ConverterRegistry F)
    (transforms : List (Transform F)) (record : RedisRecord F) : Prepared (AerospikeRecord F) :=
  prepareConverted config transforms record (conversion config registry record)

/-- A prepared record is a converted one, transformed and placed. -/
theorem prepare_record {config : MigrationConfig} {registry : ConverterRegistry F}
    {transforms : List (Transform F)} {record : RedisRecord F} {r : AerospikeRecord F}
    (h : prepare config registry transforms record = .record r) :
    ∃ hashStrategy valueBin c t, registry.convert record hashStrategy valueBin = .ok c ∧
      applyAll c transforms = .ok t ∧
      r = place config (resolve config.aerospike.setRoutes config.aerospike.setName record.key)
        record t := by
  unfold prepare prepareConverted at h
  split at h
  · cases h
  · cases h
  · rename_i c hc
    split at h
    · cases h
    · rename_i t ht
      cases h
      unfold conversion at hc
      dsimp only at hc
      split at hc
      · exact ⟨_, _, c, t, hc, ht, rfl⟩
      · exact ⟨_, _, c, t, hc, ht, rfl⟩

/-- Only a transform lets an exception out. -/
theorem prepare_raised {config : MigrationConfig} {registry : ConverterRegistry F}
    {transforms : List (Transform F)} {record : RedisRecord F} {exc : Exn}
    (h : prepare config registry transforms record = .raised exc) :
    ∃ c, applyAll c transforms = .error exc := by
  unfold prepare prepareConverted at h
  split at h
  · cases h
  · cases h
  · rename_i c _
    split at h
    · rename_i e he; cases h; exact ⟨c, he⟩
    · cases h

omit [PyFloat F] in
theorem applyAll_ok {transforms : List (Transform F)}
    (h : ∀ t ∈ transforms, ∀ r, ∃ r', t r = .ok r') (r : AerospikeRecord F) :
    ∃ r', applyAll r transforms = .ok r' := by
  induction transforms generalizing r with
  | nil => exact ⟨r, rfl⟩
  | cons t ts ih =>
    obtain ⟨r', hr'⟩ := h t List.mem_cons_self r
    rw [applyAll, hr']
    exact ih (fun t' ht' => h t' (List.mem_cons_of_mem _ ht')) r'

/-- Without transforms the place is the one resolved. -/
theorem prepare_place {config : MigrationConfig} {registry : ConverterRegistry F}
    (hreg : registry.AllKeepPlace) {record : RedisRecord F} {r : AerospikeRecord F}
    (h : prepare config registry [] record = .record r) :
    let resolution := resolve config.aerospike.setRoutes config.aerospike.setName record.key
    r.key = resolution.key ∧
      r.setName =
        if resolution.setName ≠ config.aerospike.setName then some resolution.setName else none := by
  obtain ⟨hashStrategy, valueBin, c, t, hc, ht, rfl⟩ := prepare_record h
  obtain ⟨hkey, hset⟩ := hreg hashStrategy valueBin record c hc
  cases ht
  simp only [place, hkey, hset, ne_eq, and_true]
  split
  · rfl
  · rename_i e; exact (not_not.1 e).symm

end

end RedisToAerospike.L3
