import RedisToAerospike.Core.Fallible
import RedisToAerospike.L1Data.PyVal

/-!
# Configuration objects (`config.py`)

The dataclasses with their attributes as Python has them: a value is whatever
the document or the flag held. `hosts` and `set_routes` are built by the code
alone, so they are typed. `hasattr` is taken for the attributes that are
fields; a document over the documented keys names no other, and its sections
are mappings.

* `ConfigObj.Whole`: every attribute is there, and no other.
* `ConfigObj.ext_attr`: a configuration is its attributes, hosts and routes.
-/
namespace RedisToAerospike.L6
open L1

/-- The sub-sections of a document and of `MigrationConfig`. -/
inductive Section where
  | redis
  | aerospike
  deriving DecidableEq

def Section.name : Section → String
  | .redis => "redis"
  | .aerospike => "aerospike"

section
variable {F : Type} [PyNumber F]

abbrev Attrs (F : Type) := Dict String (PyVal F)

/-- mirrors src/redis_to_aerospike/config.py:187-223 -/
def redisDefaults : Attrs F := .ofPairs [
  ("host", .str "localhost"),
  ("port", .int 6379),
  ("db", .int 0),
  ("url", .none),
  ("cluster", .bool false),
  ("username", .none),
  ("password", .none),
  ("ssl", .bool false),
  ("ssl_ca_certs", .none),
  ("ssl_certfile", .none),
  ("ssl_keyfile", .none),
  ("ssl_cert_reqs", .none),
  ("socket_timeout", .none),
  ("socket_connect_timeout", .none),
  ("scan_match", .str "*")]

/-- The fields of `AerospikeConfig` but `hosts` and `set_routes`.
mirrors src/redis_to_aerospike/config.py:269-321 -/
def aerospikeDefaults : Attrs F := .ofPairs [
  ("use_services_alternate", .bool false),
  ("username", .none),
  ("password", .none),
  ("auth_mode", .none),
  ("tls_enable", .bool false),
  ("tls_name", .none),
  ("tls_cafile", .none),
  ("tls_certfile", .none),
  ("tls_keyfile", .none),
  ("tls_keyfile_pw", .none),
  ("socket_timeout_ms", .int 0),
  ("total_timeout_ms", .int 0),
  ("connect_timeout_ms", .int 1000),
  ("login_timeout_ms", .int 5000),
  ("namespace", .str "test"),
  ("set_name", .str "redis"),
  ("value_bin", .str "value"),
  ("send_key", .bool false),
  ("record_exists_policy", .recordExistsPolicy .update),
  ("max_record_size", .int (8 * 1024 * 1024)),
  ("max_ttl", .int DEFAULT_MAX_TTL_S)]

/-- mirrors src/redis_to_aerospike/config.py:386-411 -/
def topDefaults : Attrs F := .ofPairs [
  ("workers", .int 8),
  ("scan_batch", .int 500),
  ("queue_size", .int 10000),
  ("scan_rate_limit", .int 0),
  ("write_rate_limit", .int 0),
  ("write_batch_size", .int 1),
  ("hash_strategy", .hashStrategy .mapBin),
  ("ttl_overflow_policy", .ttlOverflowPolicy .reject),
  ("progress_interval", .float (PyFloat.ofText "10.0"))]

structure AerospikeObj (F : Type) [PyNumber F] where
  hosts : List (PyVal F × PyVal F) := [(.str "localhost", .int 3000)]
  setRoutes : List AerospikeSetRoute := []
  attrs : Attrs F := aerospikeDefaults

structure ConfigObj (F : Type) [PyNumber F] where
  redis : Attrs F := redisDefaults
  aerospike : AerospikeObj F := {}
  top : Attrs F := topDefaults

def ConfigObj.attrs (cfg : ConfigObj F) : Option Section → Attrs F
  | some .redis => cfg.redis
  | some .aerospike => cfg.aerospike.attrs
  | none => cfg.top

/-- `getattr` -/
def ConfigObj.attr (cfg : ConfigObj F) (s : Option Section) (field : String) : Option (PyVal F) :=
  (cfg.attrs s).get? field

/-- `setattr` -/
def ConfigObj.setAttr (cfg : ConfigObj F) (s : Option Section) (field : String) (v : PyVal F) :
    ConfigObj F :=
  match s with
  | some .redis => { cfg with redis := cfg.redis.set field v }
  | some .aerospike =>
    { cfg with aerospike := { cfg.aerospike with attrs := cfg.aerospike.attrs.set field v } }
  | none => { cfg with top := cfg.top.set field v }

/-! ## Attributes -/

/-- The fields that are attributes, by section. -/
def fieldNames : Option Section → List String
  | some .redis => ["host", "port", "db", "url", "cluster", "username", "password", "ssl",
      "ssl_ca_certs", "ssl_certfile", "ssl_keyfile", "ssl_cert_reqs", "socket_timeout",
      "socket_connect_timeout", "scan_match"]
  | some .aerospike => ["use_services_alternate", "username", "password", "auth_mode",
      "tls_enable", "tls_name", "tls_cafile", "tls_certfile", "tls_keyfile", "tls_keyfile_pw",
      "socket_timeout_ms", "total_timeout_ms", "connect_timeout_ms", "login_timeout_ms",
      "namespace", "set_name", "value_bin", "send_key", "record_exists_policy",
      "max_record_size", "max_ttl"]
  | none => ["workers", "scan_batch", "queue_size", "scan_rate_limit", "write_rate_limit",
      "write_batch_size", "hash_strategy", "ttl_overflow_policy", "progress_interval"]

/-- Every attribute is there, and no other. -/
def ConfigObj.Whole (cfg : ConfigObj F) : Prop := ∀ s, (cfg.attrs s).keys = fieldNames s

theorem whole_default : ({} : ConfigObj F).Whole := by
  intro s
  rcases s with _ | _ | _
  · exact Dict.keys_ofPairs (by simp only [List.map_cons, List.map_nil]; decide)
  · exact Dict.keys_ofPairs (by simp only [List.map_cons, List.map_nil]; decide)
  · exact Dict.keys_ofPairs (by simp only [List.map_cons, List.map_nil]; decide)

theorem ConfigObj.Whole.attr_isSome {cfg : ConfigObj F} (h : cfg.Whole) {s : Option Section}
    {field : String} (hf : field ∈ fieldNames s) : ∃ v, cfg.attr s field = some v := by
  rw [← h s] at hf
  exact Option.isSome_iff_exists.1 (Dict.get?_isSome_iff.2 hf)

theorem attr_setAttr (cfg : ConfigObj F) (s s' : Option Section) (field field' : String)
    (v : PyVal F) :
    (cfg.setAttr s field v).attr s' field' =
      if s = s' ∧ field = field' then some v else cfg.attr s' field' := by
  rcases s with _ | _ | _ <;> rcases s' with _ | _ | _ <;>
    simp [ConfigObj.setAttr, ConfigObj.attr, ConfigObj.attrs, Dict.get?_set]

theorem keys_setAttr {cfg : ConfigObj F} {s : Option Section} {field : String}
    (h : field ∈ (cfg.attrs s).keys) (v : PyVal F) (s' : Option Section) :
    ((cfg.setAttr s field v).attrs s').keys = (cfg.attrs s').keys := by
  rcases s with _ | _ | _ <;> rcases s' with _ | _ | _ <;>
    simp only [ConfigObj.setAttr, ConfigObj.attrs] at h ⊢
  all_goals exact Dict.keys_set_of_mem h v

theorem hosts_setAttr (cfg : ConfigObj F) (s : Option Section) (field : String) (v : PyVal F) :
    (cfg.setAttr s field v).aerospike.hosts = cfg.aerospike.hosts := by
  rcases s with _ | _ | _ <;> rfl

theorem setRoutes_setAttr (cfg : ConfigObj F) (s : Option Section) (field : String) (v : PyVal F) :
    (cfg.setAttr s field v).aerospike.setRoutes = cfg.aerospike.setRoutes := by
  rcases s with _ | _ | _ <;> rfl

/-- Two configurations with the same attributes, in the same order. -/
theorem ConfigObj.ext_attr {a b : ConfigObj F} (hk : ∀ s, (a.attrs s).keys = (b.attrs s).keys)
    (h : ∀ s field, a.attr s field = b.attr s field) (hh : a.aerospike.hosts = b.aerospike.hosts)
    (hr : a.aerospike.setRoutes = b.aerospike.setRoutes) : a = b := by
  have hattrs : ∀ s, a.attrs s = b.attrs s := fun s => Dict.ext_get? (hk s) (h s)
  obtain ⟨ra, ⟨ha, sa, aa⟩, ta⟩ := a
  obtain ⟨rb, ⟨hb, sb, ab⟩, tb⟩ := b
  have h1 : ra = rb := hattrs (some .redis)
  have h2 : aa = ab := hattrs (some .aerospike)
  have h3 : ta = tb := hattrs none
  simp only at hh hr
  subst h1 h2 h3 hh hr
  rfl

/-! ## Set routes -/

/-- `str.strip()` -/
def stripText (s : String) : String :=
  let blank (c : Char) : Bool := Decimal.isSpace c || (0x1C ≤ c.toNat && c.toNat ≤ 0x1F)
  String.ofList ((s.toList.dropWhile blank).reverse.dropWhile blank).reverse

def maxAerospikeSetNameLen : Nat := 128

/-- mirrors src/redis_to_aerospike/config.py:23-37 -/
def validateAerospikeSetLabel (name field : String) : Except PyErr String :=
  let s := stripText name
  if s = "" then .error (.valueError (field ++ " must be non-empty"))
  else if '\x00' ∈ s.toList then .error (.valueError (field ++ " must not contain NUL bytes"))
  else if maxAerospikeSetNameLen < s.length then
    .error (.valueError (field ++ " exceeds " ++ toString maxAerospikeSetNameLen ++
      " characters (got " ++ toString s.length ++ ")"))
  else .ok s

omit [PyNumber F] in
/-- `v` as a `str`, which the enumerations are too. -/
def asStr : PyVal F → Option String
  | .str s => some s
  | .hashStrategy h => some h.value
  | .ttlOverflowPolicy p => some p.value
  | .recordExistsPolicy p => some p.value
  | _ => none

omit [PyNumber F] in
/-- mirrors src/redis_to_aerospike/config.py:144-183 -/
def parseSetRoute (i : Nat) (item : PyVal F) : Except PyErr AerospikeSetRoute := do
  let at_ := "set_routes[" ++ toString i ++ "]"
  match item with
  | .dict es =>
    let item : Attrs F := .ofPairs es
    match PyVal.get item "pattern", PyVal.get item "destination" with
    | .none, _ | _, .none =>
      .error (.valueError (at_ ++ " requires 'pattern' and 'destination' keys"))
    | pattern, destination =>
      match asStr pattern, asStr destination with
      | some pattern, some destination =>
        let hashStrategy ← match PyVal.get item "hash_strategy" with
          | .none | .str "" => pure none
          | raw => some <$> raw.toHashStrategy
        let valueBin ← match PyVal.get item "value_bin" with
          | .none | .str "" => pure none
          | raw => match asStr raw with
            | none => .error (.typeError (at_ ++ ".value_bin must be a string"))
            | some s => pure (if stripText s = "" then none else some (stripText s))
        let pattern ← validateAerospikeSetLabel pattern (at_ ++ ".pattern")
        let destination ← validateAerospikeSetLabel destination (at_ ++ ".destination")
        return ⟨pattern, destination, hashStrategy, valueBin⟩
      | _, _ => .error (.typeError (at_ ++ " pattern and destination must be strings"))
  | _ => .error (.valueError (at_ ++ " must be a mapping"))

omit [PyNumber F] in
/-- mirrors src/redis_to_aerospike/config.py:137-184 -/
def parseSetRoutes : PyVal F → Except PyErr (List AerospikeSetRoute)
  | .none => .ok []
  | .list raw => raw.zipIdx.mapM fun p => parseSetRoute p.2 p.1
  | _ => .error (.valueError "set_routes must be a list of mappings")

/-! ## Hosts -/

/-- One entry of a `hosts` list. -/
def normalizeHost (entry : PyVal F) : Except PyErr (PyVal F × PyVal F) := do
  match entry with
  | .dict es =>
    let entry : Attrs F := .ofPairs es
    match entry.get? "host" with
    | none => .error ⟨"KeyError", none⟩
    | some host =>
      let port ← ((entry.get? "port").getD (.int 3000)).toInt
      return (host, .int port)
  | entry =>
    let (addr, p) ← entry.unpack
    let port ← p.toInt
    return (addr, .int port)

def portOr3000 : PyVal F → Except PyErr Int
  | .none => .ok 3000
  | port => port.toInt

/-- The scalar pair.
mirrors src/redis_to_aerospike/config.py:76-78 -/
def normalizePair (port : PyVal F) : PyVal F → Except PyErr (Option (List (PyVal F × PyVal F)))
  | .none => .ok none
  | host => do
    let port ← portOr3000 port
    return some [(host, .int port)]

/-- mirrors src/redis_to_aerospike/config.py:60-78 -/
def normalizeHosts (hosts host port : PyVal F) :
    Except PyErr (Option (List (PyVal F × PyVal F))) := do
  if hosts.truthy then
    let entries ← hosts.iter
    some <$> entries.mapM normalizeHost
  else normalizePair port host

theorem portOr3000_of_ne {port : PyVal F} (h : port ≠ .none) : portOr3000 port = port.toInt := by
  cases port <;> first | exact absurd rfl h | rfl

theorem normalizePair_of_ne {port host : PyVal F} (h : host ≠ .none) :
    normalizePair port host =
      (portOr3000 port >>= fun port => .ok (some [(host, .int port)])) := by
  cases host <;> first | exact absurd rfl h | rfl

/-! ## Documents -/

/-- The alias of `scan_match`. -/
def resolveAlias (data : Attrs F) : Attrs F :=
  match data.get? "key_pattern" with
  | none => data
  | some v =>
    if "scan_match" ∈ data.keys then data.erase "key_pattern"
    else (data.erase "key_pattern").set "scan_match" v

/-- mirrors src/redis_to_aerospike/config.py:251-266 -/
def redisFromDict : Option (Attrs F) → Attrs F
  | none => redisDefaults
  | some data => redisDefaults.overlay (resolveAlias data)

omit [PyNumber F] in
/-- A key that is read by itself; the default stays where it is absent. -/
def readOr {α : Type} (default : α) (read : PyVal F → Except PyErr α) :
    Option (PyVal F) → Except PyErr α
  | none => .ok default
  | some v => read v

/-- mirrors src/redis_to_aerospike/config.py:357-383 -/
def aerospikeFromDict : Option (Attrs F) → Except PyErr (AerospikeObj F)
  | none => .ok {}
  | some data => do
    let hosts ← normalizeHosts (PyVal.get data "hosts") (PyVal.get data "host") (PyVal.get data "port")
    let data := ((data.erase "hosts").erase "host").erase "port"
    let setRoutes ← readOr [] parseSetRoutes (data.get? "set_routes")
    let data := data.erase "set_routes"
    let policy ← readOr .update PyVal.toRecordExistsPolicy (data.get? "record_exists_policy")
    let data := data.erase "record_exists_policy"
    return {
      hosts := hosts.getD [(.str "localhost", .int 3000)]
      setRoutes
      attrs := (aerospikeDefaults.set "record_exists_policy" (.recordExistsPolicy policy)).overlay
        data }

/-- A sub-section: nothing where the value is false, else a mapping. -/
def section_ (v : PyVal F) : Except PyErr (Option (Attrs F)) :=
  if v.truthy then
    match v with
    | .dict es => .ok (some (.ofPairs es))
    | _ => .error ⟨"TypeError", none⟩
  else .ok none

/-- mirrors src/redis_to_aerospike/config.py:442-467 -/
def fromDict (data : Attrs F) : Except PyErr (ConfigObj F) := do
  let redis ← section_ (PyVal.get data "redis")
  let aerospike ← section_ (PyVal.get data "aerospike")
  let aerospike ← aerospikeFromDict aerospike
  let data := (data.erase "redis").erase "aerospike"
  let hash ← readOr .mapBin PyVal.toHashStrategy (data.get? "hash_strategy")
  let data := data.erase "hash_strategy"
  let overflow ← readOr .reject PyVal.toTtlOverflowPolicy (data.get? "ttl_overflow_policy")
  let data := data.erase "ttl_overflow_policy"
  return {
    redis := redisFromDict redis
    aerospike
    top := ((topDefaults.set "hash_strategy" (.hashStrategy hash)).set "ttl_overflow_policy"
      (.ttlOverflowPolicy overflow)).overlay data }

/-- The loaded document of `--config`.
mirrors src/redis_to_aerospike/config.py:485-489 -/
def fromYaml : PyVal F → Except PyErr (ConfigObj F)
  | .none => .ok {}
  | .dict es => fromDict (.ofPairs es)
  | _ => .error ⟨"ValueError", none⟩

end

end RedisToAerospike.L6
