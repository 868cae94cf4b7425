import RedisToAerospike.Core.Partition
import RedisToAerospike.L1Data.RunConfig
import RedisToAerospike.L6Cli.Config

/-!
# What the servers say before a run

`RedisSource.server_info` and `AerospikeServerInfo.parse`: facts read from two
loosely shaped replies. A reply is a Python value; a tuple is a list here.
`INFO` prints whole counts, so a float count is not modelled.

* `connectedDb_eq`: the database that the scanning client is connected to.
-/
namespace RedisToAerospike.L6
open L1 Partition

section
variable {F : Type} [PyNumber F]

/-! ## The client of the scan -/

/-- `d[key] = v` for the options that are set. -/
def setSome (d : Attrs F) (key : String) : Option (PyVal F) → Attrs F
  | none => d
  | some v => d.set key v

omit [PyNumber F] in
/-- mirrors src/redis_to_aerospike/redis_source.py:59-68 -/
def sslParams (config : RedisConfig F) (kwargs : Attrs F) : Attrs F :=
  if config.ssl then
    let kwargs := kwargs.set "ssl" (.bool true)
    let kwargs := setSome kwargs "ssl_ca_certs" (config.sslCaCerts.map .str)
    let kwargs := setSome kwargs "ssl_certfile" (config.sslCertfile.map .str)
    let kwargs := setSome kwargs "ssl_keyfile" (config.sslKeyfile.map .str)
    setSome kwargs "ssl_cert_reqs" (config.sslCertReqs.map .str)
  else kwargs

omit [PyNumber F] in
/-- mirrors src/redis_to_aerospike/redis_source.py:27-70 -/
def redisClientParams (config : RedisConfig F) : Bool × Option String × Attrs F :=
  let kwargs : Attrs F := .ofPairs [("decode_responses", .bool false)]
  let kwargs := setSome kwargs "socket_timeout" (config.socketTimeout.map .float)
  let kwargs := setSome kwargs "socket_connect_timeout" (config.socketConnectTimeout.map .float)
  if nonEmpty config.url then (config.cluster, config.url, kwargs)
  else
    let kwargs := kwargs.set "host" (.str config.host)
    let kwargs := kwargs.set "port" (.int config.port)
    let kwargs := setSome kwargs "username" ((config.username.filter (· ≠ "")).map .str)
    let kwargs := setSome kwargs "password" ((config.password.filter (· ≠ "")).map .str)
    let kwargs := if config.cluster then kwargs else kwargs.set "db" (.int config.db)
    (config.cluster, none, sslParams config kwargs)

omit [PyNumber F] in
/-- The database of a client with these parameters; `urlDb` is the client's
reading of a URL. -/
def connectedDb (urlDb : String → Int) : Bool × Option String × Attrs F → Int
  | (true, _, _) => 0
  | (false, some url, _) => urlDb url
  | (false, none, kwargs) =>
    match kwargs.get? "db" with
    | some (.int n) => n
    | _ => 0

omit [PyNumber F] in
theorem get?_setSome {d : Attrs F} {key k : String} (h : key ≠ k) (o : Option (PyVal F)) :
    (setSome d key o).get? k = d.get? k := by
  cases o with
  | none => rfl
  | some v => rw [setSome, Dict.get?_set, if_neg h]

omit [PyNumber F] in
theorem get?_sslParams (config : RedisConfig F) (d : Attrs F) :
    (sslParams config d).get? "db" = d.get? "db" := by
  unfold sslParams
  by_cases hs : config.ssl = true
  · rw [if_pos hs]
    simp [get?_setSome, Dict.get?_set]
  · rw [if_neg hs]

omit [PyNumber F] in
theorem connectedDb_eq (urlDb : String → Int) (config : RedisConfig F) :
    connectedDb urlDb (redisClientParams config) =
      if config.cluster then 0
      else if nonEmpty config.url then urlDb (config.url.getD "") else config.db := by
  unfold redisClientParams
  by_cases hu : nonEmpty config.url = true
  · obtain ⟨url, hurl⟩ : ∃ url, config.url = some url := by
      cases h : config.url with
      | none => simp [h, nonEmpty] at hu
      | some url => exact ⟨url, rfl⟩
    rw [if_pos hu, if_pos hu, hurl]
    cases config.cluster <;> rfl
  · rw [if_neg hu, if_neg hu]
    cases config.cluster with
    | true => rfl
    | false => simp [connectedDb, get?_sslParams, Dict.get?_set]

/-! ## Aerospike -/

/-- mirrors src/redis_to_aerospike/aerospike_sink.py:41-60 -/
structure AerospikeServerInfo where
  namespace_ : String
  nsupPeriod : Option Int := none
  maxRecordSize : Option Int := none
  stopWritesPct : Option Int := none
  memorySize : Option Int := none
  deviceTotalBytes : Option Int := none
  raw : Dict String String := .empty

/-- The first `str` of a node's answer, if it says anything.
mirrors src/redis_to_aerospike/aerospike_sink.py:79-85 -/
def responseOf (value : PyVal F) : Option String :=
  let response :=
    match value with
    | .list items => items.findSome? asStr
    | value => asStr value
  response.filter (· ≠ "")

/-- mirrors src/redis_to_aerospike/aerospike_sink.py:62-86 -/
def extractResponse : PyVal F → Option String
  | .none => none
  | .str s => some s
  | .dict es => (es.map Prod.snd).findSome? responseOf
  | v => responseOf v

/-- mirrors src/redis_to_aerospike/aerospike_sink.py:91-96 -/
def infoPairs (text : String) : Dict String String :=
  .ofPairs <| (text.toList.splitOn ';').filterMap fun pair =>
    (cut ['='] pair).map fun p => (stripText (.ofList p.1), stripText (.ofList p.2))

/-- mirrors src/redis_to_aerospike/aerospike_sink.py:98-105 -/
def asInt (raw : Dict String String) (names : List String) : Option Int :=
  (names.findSome? raw.get?).bind fun s => Decimal.parseInt s.toList

/-- mirrors src/redis_to_aerospike/aerospike_sink.py:88-117 -/
def AerospikeServerInfo.parse (infoResult : PyVal F) (namespace_ : String) :
    AerospikeServerInfo :=
  let raw := infoPairs ((extractResponse infoResult).getD "")
  { namespace_
    nsupPeriod := asInt raw ["nsup-period"]
    maxRecordSize := asInt raw ["max-record-size", "write-block-size"]
    stopWritesPct := asInt raw ["stop-writes-pct"]
    memorySize := asInt raw ["memory-size"]
    deviceTotalBytes := asInt raw ["device_total_bytes"]
    raw }

/-! ## Redis -/

/-- The replies of the client; either call may raise. -/
structure InfoClient (F : Type) where
  dbsize : Except PyErr (PyVal F)
  info : String → Except PyErr (PyVal F)

/-- `isinstance(v, int)` -/
def intOf : PyVal F → Option Int
  | .int n => some n
  | .bool b => some (if b then 1 else 0)
  | _ => none

def dictOf : PyVal F → Option (Attrs F)
  | .dict es => some (.ofPairs es)
  | _ => none

/-- mirrors src/redis_to_aerospike/redis_source.py:158-176 -/
def infoNodes (cluster : Bool) : PyVal F → List (Attrs F)
  | .dict es =>
    if cluster && !es.isEmpty && es.all fun p => (dictOf p.2).isSome then
      es.filterMap fun p => dictOf p.2
    else [.ofPairs es]
  | _ => []

/-- One node of the loop over the keyspace.
mirrors src/redis_to_aerospike/redis_source.py:147-150 -/
def countNode (db : String) (found : Option Int) (node : Attrs F) : Except PyErr (Option Int) :=
  match node.get? db with
  | some (.dict stats) =>
    match (Dict.ofPairs stats).get? "expires" with
    | none | some .none => .ok found
    | some v => (intOf v).elim (.error ⟨"TypeError", none⟩) fun n => .ok (some (found.getD 0 + n))
  | _ => .ok found

/-- The keys that expire, if a node reports them.
mirrors src/redis_to_aerospike/redis_source.py:143-152 -/
def expiresIn (db : String) (nodes : List (Attrs F)) : Except PyErr (Option Int) :=
  nodes.foldlM (countNode db) none

/-- mirrors src/redis_to_aerospike/redis_source.py:107-114 -/
def readKeys (dbsize : Except PyErr (PyVal F)) (info : Attrs F) : Attrs F :=
  match dbsize with
  | .error _ => info
  | .ok (.dict es) => info.set "keys" (.int (es.filterMap fun p => intOf p.2).sum)
  | .ok dbsize => info.set "keys" dbsize

/-- mirrors src/redis_to_aerospike/redis_source.py:116-131 -/
def readMemory (nodes : Except PyErr (List (Attrs F))) (info : Attrs F) : Attrs F :=
  match nodes with
  | .error _ => info
  | .ok nodes =>
    let used := nodes.filterMap fun n => intOf (PyVal.get n "used_memory")
    if used.isEmpty then info
    else
      let human :=
        match nodes with
        | [node] => PyVal.get node "used_memory_human"
        | _ => .str (toString used.sum ++ "B")
      (info.set "used_memory" (.int used.sum)).set "used_memory_human" human

/-- mirrors src/redis_to_aerospike/redis_source.py:133-140 -/
def readVersion (nodes : Except PyErr (List (Attrs F))) (info : Attrs F) : Attrs F :=
  match nodes with
  | .error _ => info
  | .ok nodes =>
    match nodes.find? fun n => (PyVal.get n "redis_version").truthy with
    | none => info
    | some node => info.set "redis_version" (PyVal.get node "redis_version")

/-- mirrors src/redis_to_aerospike/redis_source.py:142-154 -/
def readExpires (db : Int) (nodes : Except PyErr (List (Attrs F))) (info : Attrs F) : Attrs F :=
  match nodes >>= expiresIn ("db" ++ toString db) with
  | .error _ | .ok none => info
  | .ok (some n) => info.set "expires" (.int n)

/-- mirrors src/redis_to_aerospike/redis_source.py:98-156 -/
def serverInfo (config : RedisConfig F) (client : InfoClient F) : Attrs F :=
  let nodesOf (section_ : String) := infoNodes config.cluster <$> client.info section_
  let info := readKeys client.dbsize .empty
  let info := readMemory (nodesOf "memory") info
  let info := readVersion (nodesOf "server") info
  readExpires config.db (nodesOf "keyspace") info

omit [PyNumber F] in
theorem get?_readKeys (dbsize : Except PyErr (PyVal F)) (info : Attrs F) :
    (readKeys dbsize info).get? "expires" = info.get? "expires" := by
  unfold readKeys
  split
  · rfl
  · simp [Dict.get?_set]
  · simp [Dict.get?_set]

omit [PyNumber F] in
theorem get?_readMemory (nodes : Except PyErr (List (Attrs F))) (info : Attrs F) :
    (readMemory nodes info).get? "expires" = info.get? "expires" := by
  unfold readMemory
  split
  · rfl
  · dsimp only
    split
    · rfl
    · simp [Dict.get?_set]

theorem get?_readVersion (nodes : Except PyErr (List (Attrs F))) (info : Attrs F) :
    (readVersion nodes info).get? "expires" = info.get? "expires" := by
  unfold readVersion
  split
  · rfl
  · split
    · rfl
    · simp [Dict.get?_set]

/-- The `expires` of the facts, where the keyspace was read. -/
theorem expires_serverInfo {config : RedisConfig F} {client : InfoClient F} {raw : PyVal F}
    {o : Option Int} (hraw : client.info "keyspace" = .ok raw)
    (ho : expiresIn ("db" ++ toString config.db) (infoNodes config.cluster raw) = .ok o) :
    PyVal.get (serverInfo config client) "expires" = o.elim .none .int := by
  have hnodes : ((infoNodes config.cluster <$> client.info "keyspace") >>=
      expiresIn ("db" ++ toString config.db)) = .ok o := by
    rw [hraw]
    exact ho
  unfold serverInfo readExpires PyVal.get
  dsimp only
  rw [hnodes]
  cases o with
  | none =>
    rw [get?_readVersion, get?_readMemory, get?_readKeys]
    rfl
  | some n =>
    dsimp only
    rw [Dict.get?_set, if_pos rfl]
    rfl

end

end RedisToAerospike.L6
