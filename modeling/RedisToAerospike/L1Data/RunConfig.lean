import RedisToAerospike.L1Data.PyVal

/-!
# The configuration of a run (`config.py`)

The dataclasses with the types they are annotated with, and what a run reads
next to the pipeline's settings: both connections and the numbers that the
preview shows.
-/
namespace RedisToAerospike.L1

/-- mirrors src/redis_to_aerospike/config.py:187-223 -/
structure RedisConfig (F : Type) where
  host : String := "localhost"
  port : Int := 6379
  db : Int := 0
  url : Option String := none
  cluster : Bool := false
  username : Option String := none
  password : Option String := none
  ssl : Bool := false
  sslCaCerts : Option String := none
  sslCertfile : Option String := none
  sslKeyfile : Option String := none
  sslCertReqs : Option String := none
  socketTimeout : Option F := none
  socketConnectTimeout : Option F := none
  scanMatch : String := "*"

/-- The fields of `AerospikeConfig` that make the connection.
mirrors src/redis_to_aerospike/config.py:269-299 -/
structure AerospikeConnection where
  hosts : List (String × Int) := [("localhost", 3000)]
  useServicesAlternate : Bool := false
  username : Option String := none
  password : Option String := none
  authMode : Option String := none
  tlsEnable : Bool := false
  tlsName : Option String := none
  tlsCafile : Option String := none
  tlsCertfile : Option String := none
  tlsKeyfile : Option String := none
  tlsKeyfilePw : Option String := none
  socketTimeoutMs : Int := 0
  totalTimeoutMs : Int := 0
  connectTimeoutMs : Int := 1000
  loginTimeoutMs : Int := 5000
  deriving DecidableEq

/-- `MigrationConfig` with all its fields.
mirrors src/redis_to_aerospike/config.py:386-411 -/
structure RunConfig (F : Type) [PyNumber F] extends MigrationConfig where
  redis : RedisConfig F := {}
  connection : AerospikeConnection := {}
  scanBatch : Int := 500
  scanRateLimit : F := PyNumber.ofInt 0
  writeRateLimit : F := PyNumber.ofInt 0
  progressInterval : F := PyFloat.ofText "10.0"

/-- `bool(s)` of an optional text. -/
def nonEmpty (s : Option String) : Bool := s.any (· ≠ "")

end RedisToAerospike.L1
