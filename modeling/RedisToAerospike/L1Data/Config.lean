import Mathlib.Init

/-!
# Configuration (`config.py`)

The settings the pipeline reads. Limits and sizes are Python integers: the
configuration checks no range.
-/
namespace RedisToAerospike.L1

/-- mirrors src/redis_to_aerospike/config.py:81-89 -/
inductive HashStrategy where
  | mapBin
  | fieldBins
  deriving DecidableEq

/-- `HashStrategy.….value` -/
def HashStrategy.value : HashStrategy → String
  | .mapBin => "map_bin"
  | .fieldBins => "field_bins"

/-- mirrors src/redis_to_aerospike/config.py:92-93 -/
def DEFAULT_MAX_TTL_S : Int := 315360000

/-- mirrors src/redis_to_aerospike/config.py:96-106 -/
inductive TtlOverflowPolicy where
  | reject
  | clamp
  | neverExpire
  deriving DecidableEq

/-- mirrors src/redis_to_aerospike/config.py:109-119 -/
inductive RecordExistsPolicy where
  | update
  | replace
  | createOnly
  deriving DecidableEq

/-- mirrors src/redis_to_aerospike/config.py:122-134 -/
structure AerospikeSetRoute where
  pattern : String
  destination : String
  hashStrategy : Option HashStrategy := none
  valueBin : Option String := none
  deriving DecidableEq

/-- mirrors src/redis_to_aerospike/config.py:269-321 -/
structure AerospikeConfig where
  namespace_ : String := "test"
  setName : String := "redis"
  setRoutes : List AerospikeSetRoute := []
  valueBin : String := "value"
  sendKey : Bool := false
  recordExistsPolicy : RecordExistsPolicy := .update
  maxRecordSize : Int := 8 * 1024 * 1024
  maxTtl : Int := DEFAULT_MAX_TTL_S
  deriving DecidableEq

/-- mirrors src/redis_to_aerospike/config.py:386-411 -/
structure MigrationConfig where
  aerospike : AerospikeConfig := {}
  workers : Int := 8
  queueSize : Int := 10000
  writeBatchSize : Int := 1
  hashStrategy : HashStrategy := .mapBin
  ttlOverflowPolicy : TtlOverflowPolicy := .reject
  deriving DecidableEq

end RedisToAerospike.L1
