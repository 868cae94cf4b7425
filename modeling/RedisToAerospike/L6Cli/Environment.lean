import RedisToAerospike.L6Cli.BuildConfig

/-!
# The environment as a base

`from_env` builds a configuration of its own from variables; the CLI never
calls it.

* `envTable_fields`: the readers cover the fields, in order.
* `envRead`: what `from_env` makes of each attribute.
* `value_unset`: a variable that is not set leaves the default.
* `environment_iff`: the result of the CLI is `from_env` with the flags over it
  exactly where no variable says anything that a flag does not hide.
* `workers_ignored`: `MIGRATION_WORKERS=16`.
-/
namespace RedisToAerospike.L6
open L1 Fallible

/-! ## Readers -/

/-- How `from_env` reads one variable. -/
inductive Reader where
  | text
  | int
  | orNone
  | bool
  | optFloat
  | float
  | hashStrategy
  | ttlOverflowPolicy
  | recordExistsPolicy
  deriving DecidableEq

/-- `_as_bool` of a variable. `lower` is taken for ASCII: no other character
becomes a letter of the six words.
mirrors src/redis_to_aerospike/config.py:40-57 -/
def asBool (value : Option String) (default : Bool) : Bool :=
  match value with
  | none => default
  | some value =>
    let text := (stripText value).toLower
    if text = "" then default
    else if text ∈ ["1", "true", "yes", "on"] then true
    else if text ∈ ["0", "false", "no", "off"] then false
    else default

section
variable {F : Type} [PyNumber F]

/-- `float(v)` -/
def toFloat : PyVal F → Except PyErr F
  | .bool b => .ok (PyNumber.ofInt (if b then 1 else 0))
  | .int n => .ok (PyNumber.ofInt n)
  | .float x => .ok x
  | .str s => (PyNumber.parse s).elim (.error ⟨"ValueError", none⟩) .ok
  | _ => .error ⟨"TypeError", none⟩

/-- A variable, or the default of its field. -/
def Reader.read (reader : Reader) (value : Option String) (default : PyVal F) :
    Except PyErr (PyVal F) :=
  let found : PyVal F := value.elim default .str
  match reader with
  | .text => .ok found
  | .int => .int <$> found.toInt
  | .orNone =>
    match value with
    | none | some "" => .ok .none
    | some s => .ok (.str s)
  | .bool => .ok (.bool (asBool value default.truthy))
  | .optFloat =>
    match value with
    | none | some "" => .ok .none
    | some s => .float <$> toFloat (.str s)
  | .float => .float <$> toFloat found
  | .hashStrategy => .hashStrategy <$> found.toHashStrategy
  | .ttlOverflowPolicy => .ttlOverflowPolicy <$> found.toTtlOverflowPolicy
  | .recordExistsPolicy => .recordExistsPolicy <$> found.toRecordExistsPolicy

structure EnvBinding where
  field : String
  var : String
  reader : Reader
  deriving DecidableEq

/-- The variables by section, but the host and port of Aerospike.
mirrors src/redis_to_aerospike/config.py:233-249, 328-355, 416-440 -/
def envTable : Option Section → List EnvBinding
  | some .redis => [
    ⟨"host", "REDIS_HOST", .text⟩,
    ⟨"port", "REDIS_PORT", .int⟩,
    ⟨"db", "REDIS_DB", .int⟩,
    ⟨"url", "REDIS_URL", .orNone⟩,
    ⟨"cluster", "REDIS_CLUSTER", .bool⟩,
    ⟨"username", "REDIS_USERNAME", .orNone⟩,
    ⟨"password", "REDIS_PASSWORD", .orNone⟩,
    ⟨"ssl", "REDIS_SSL", .bool⟩,
    ⟨"ssl_ca_certs", "REDIS_SSL_CA_CERTS", .orNone⟩,
    ⟨"ssl_certfile", "REDIS_SSL_CERTFILE", .orNone⟩,
    ⟨"ssl_keyfile", "REDIS_SSL_KEYFILE", .orNone⟩,
    ⟨"ssl_cert_reqs", "REDIS_SSL_CERT_REQS", .orNone⟩,
    ⟨"socket_timeout", "REDIS_SOCKET_TIMEOUT", .optFloat⟩,
    ⟨"socket_connect_timeout", "REDIS_SOCKET_CONNECT_TIMEOUT", .optFloat⟩,
    ⟨"scan_match", "REDIS_SCAN_MATCH", .text⟩]
  | some .aerospike => [
    ⟨"use_services_alternate", "AEROSPIKE_USE_SERVICES_ALTERNATE", .bool⟩,
    ⟨"username", "AEROSPIKE_USERNAME", .orNone⟩,
    ⟨"password", "AEROSPIKE_PASSWORD", .orNone⟩,
    ⟨"auth_mode", "AEROSPIKE_AUTH_MODE", .orNone⟩,
    ⟨"tls_enable", "AEROSPIKE_TLS_ENABLE", .bool⟩,
    ⟨"tls_name", "AEROSPIKE_TLS_NAME", .orNone⟩,
    ⟨"tls_cafile", "AEROSPIKE_TLS_CAFILE", .orNone⟩,
    ⟨"tls_certfile", "AEROSPIKE_TLS_CERTFILE", .orNone⟩,
    ⟨"tls_keyfile", "AEROSPIKE_TLS_KEYFILE", .orNone⟩,
    ⟨"tls_keyfile_pw", "AEROSPIKE_TLS_KEYFILE_PW", .orNone⟩,
    ⟨"socket_timeout_ms", "AEROSPIKE_SOCKET_TIMEOUT_MS", .int⟩,
    ⟨"total_timeout_ms", "AEROSPIKE_TOTAL_TIMEOUT_MS", .int⟩,
    ⟨"connect_timeout_ms", "AEROSPIKE_CONNECT_TIMEOUT_MS", .int⟩,
    ⟨"login_timeout_ms", "AEROSPIKE_LOGIN_TIMEOUT_MS", .int⟩,
    ⟨"namespace", "AEROSPIKE_NAMESPACE", .text⟩,
    ⟨"set_name", "AEROSPIKE_SET", .text⟩,
    ⟨"value_bin", "AEROSPIKE_VALUE_BIN", .text⟩,
    ⟨"send_key", "AEROSPIKE_SEND_KEY", .bool⟩,
    ⟨"record_exists_policy", "AEROSPIKE_RECORD_EXISTS_POLICY", .recordExistsPolicy⟩,
    ⟨"max_record_size", "AEROSPIKE_MAX_RECORD_SIZE", .int⟩,
    ⟨"max_ttl", "AEROSPIKE_MAX_TTL", .int⟩]
  | none => [
    ⟨"workers", "MIGRATION_WORKERS", .int⟩,
    ⟨"scan_batch", "MIGRATION_SCAN_BATCH", .int⟩,
    ⟨"queue_size", "MIGRATION_QUEUE_SIZE", .int⟩,
    ⟨"scan_rate_limit", "MIGRATION_SCAN_RATE_LIMIT", .float⟩,
    ⟨"write_rate_limit", "MIGRATION_WRITE_RATE_LIMIT", .float⟩,
    ⟨"write_batch_size", "MIGRATION_WRITE_BATCH_SIZE", .int⟩,
    ⟨"hash_strategy", "MIGRATION_HASH_STRATEGY", .hashStrategy⟩,
    ⟨"ttl_overflow_policy", "MIGRATION_TTL_OVERFLOW_POLICY", .ttlOverflowPolicy⟩,
    ⟨"progress_interval", "MIGRATION_PROGRESS_INTERVAL", .float⟩]

/-! ## `from_env` -/

def EnvBinding.value (env : Dict String String) (s : Option Section) (b : EnvBinding) :
    Except PyErr (PyVal F) :=
  b.reader.read (env.get? b.var) (PyVal.get (({} : ConfigObj F).attrs s) b.field)

def readTable (env : Dict String String) (s : Option Section) : Except PyErr (Attrs F) :=
  Dict.ofPairs <$> (envTable s).mapM fun b => (b.field, ·) <$> b.value env s

def envHost (env : Dict String String) : String := (env.get? "AEROSPIKE_HOST").getD "localhost"

def envPort (env : Dict String String) : Except PyErr Int :=
  match env.get? "AEROSPIKE_PORT" with
  | none => .ok 3000
  | some s => (Decimal.parseInt s.toList).elim (.error ⟨"ValueError", none⟩) .ok

/-- mirrors src/redis_to_aerospike/config.py:324-355 -/
def aerospikeFromEnv (env : Dict String String) : Except PyErr (AerospikeObj F) := do
  let port ← envPort env
  let attrs ← readTable env (some .aerospike)
  return { hosts := [(.str (envHost env), .int port)], attrs }

/-- mirrors src/redis_to_aerospike/config.py:414-440 -/
def fromEnv (env : Dict String String) : Except PyErr (ConfigObj F) := do
  let redis ← readTable env (some .redis)
  let aerospike ← aerospikeFromEnv env
  let top ← readTable env none
  return { redis, aerospike, top }

theorem envTable_fields (s : Option Section) :
    (envTable s).map (·.field) = fieldNames s := by
  rcases s with _ | _ | _ <;> rfl

theorem fieldNames_nodup (s : Option Section) : (fieldNames s).Nodup := by
  rcases s with _ | _ | _ <;> decide

/-- A table is read variable by variable. -/
theorem readTable_ok {env : Dict String String} {s : Option Section} {attrs : Attrs F}
    (h : readTable env s = .ok attrs) :
    attrs.keys = fieldNames s ∧
      ∀ b ∈ envTable s, ∃ v, b.value env s = .ok v ∧ attrs.get? b.field = some v := by
  obtain ⟨es, hes, rfl⟩ := map_ok_iff.1 h
  have hfields : es.map Prod.fst = fieldNames s := by
    rw [← envTable_fields, eq_comm, ← List.forall₂_eq_eq_eq, List.forall₂_map_left_iff,
      List.forall₂_map_right_iff]
    refine (mapM_ok_iff.1 hes).imp fun b p hp => ?_
    obtain ⟨v, -, rfl⟩ := map_ok_iff.1 hp
    rfl
  have hn : (es.map Prod.fst).Nodup := hfields ▸ fieldNames_nodup s
  refine ⟨(Dict.keys_ofPairs hn).trans hfields, fun b hb => ?_⟩
  obtain ⟨p, hp, hread⟩ := mem_of_mapM_ok hes hb
  obtain ⟨v, hv, rfl⟩ := map_ok_iff.1 hread
  exact ⟨v, hv, Dict.get?_ofPairs_eq_some hn hp⟩

theorem readTable_returns {env : Dict String String} {s : Option Section}
    (h : ∀ b ∈ envTable s, ∃ v : PyVal F, b.value env s = .ok v) :
    ∃ attrs : Attrs F, readTable env s = .ok attrs :=
  map_returns_iff.2 (mapM_ok_of fun b hb => map_returns_iff.2 (h b hb))

/-- What `from_env` makes of the variables. -/
structure EnvRead (env : Dict String String) (base : ConfigObj F) : Prop where
  attr : ∀ s, ∀ b ∈ envTable s, ∃ v, b.value env s = .ok v ∧ base.attr s b.field = some v
  setRoutes : base.aerospike.setRoutes = []
  hosts : ∃ port, envPort env = .ok port ∧
    base.aerospike.hosts = [(.str (envHost env), .int port)]

theorem envRead {env : Dict String String} {base : ConfigObj F} (h : fromEnv env = .ok base) :
    EnvRead env base := by
  simp only [fromEnv, aerospikeFromEnv, bind_ok_iff] at h
  obtain ⟨redis, hredis, aero, ⟨port, hport, attrs, hattrs, haero⟩, top, htop, hbase⟩ := h
  have hobj := Except.ok.inj haero
  have hcfg := Except.ok.inj hbase
  subst hobj hcfg
  refine ⟨fun s => ?_, rfl, port, hport, rfl⟩
  match s with
  | some .redis => exact (readTable_ok hredis).2
  | some .aerospike => exact (readTable_ok hattrs).2
  | none => exact (readTable_ok htop).2

theorem fromEnv_returns {env : Dict String String}
    (h : ∀ s, ∀ b ∈ envTable s, ∃ v : PyVal F, b.value env s = .ok v) {port : Int}
    (hport : envPort env = .ok port) : ∃ base : ConfigObj F, fromEnv env = .ok base := by
  obtain ⟨redis, hredis⟩ := readTable_returns (h (some .redis))
  obtain ⟨attrs, hattrs⟩ := readTable_returns (h (some .aerospike))
  obtain ⟨top, htop⟩ := readTable_returns (h none)
  refine ⟨{ redis, aerospike := { hosts := [(.str (envHost env), .int port)], attrs }, top }, ?_⟩
  simp only [fromEnv, aerospikeFromEnv, bind_ok_iff]
  exact ⟨redis, hredis, _, ⟨port, hport, attrs, hattrs, rfl⟩, top, htop, rfl⟩

/-! ## Variables that are not set -/

omit [PyNumber F] in
/-- The defaults that a reader leaves as they are. -/
def Reader.fits : Reader → PyVal F → Bool
  | .text, .str _ | .int, .int _ | .orNone, .none | .bool, .bool _ | .optFloat, .none
  | .float, .int 0 | .float, .float _ | .hashStrategy, .hashStrategy _
  | .ttlOverflowPolicy, .ttlOverflowPolicy _ | .recordExistsPolicy, .recordExistsPolicy _ => true
  | _, _ => false

theorem defaults_fit (s : Option Section) :
    List.Forall₂ (fun b p => b.field = p.1 ∧ b.reader.fits p.2 = true) (envTable s)
      (({} : ConfigObj F).attrs s).entries := by
  rcases s with _ | _ | _ <;>
    simp only [ConfigObj.attrs, topDefaults, redisDefaults, aerospikeDefaults]
  all_goals
    rw [Dict.entries_ofPairs (by simp only [List.map_cons, List.map_nil]; decide)]
    simp [envTable, Reader.fits]

/-- The default of a reader, up to `int` and `float`. -/
theorem Reader.read_default (reader : Reader) {d : PyVal F} (h : reader.fits d = true) :
    ∃ v, reader.read none d = .ok v ∧ d.Same v := by
  unfold Reader.fits at h
  split at h
  case h_6 => exact ⟨_, rfl, .inr ⟨0, _, PyNumber.eqInt_ofInt_zero, .inl ⟨rfl, rfl⟩⟩⟩
  case h_11 => cases h
  all_goals exact ⟨_, rfl, .refl _⟩

theorem value_unset {env : Dict String String} {s : Option Section} {b : EnvBinding}
    (hb : b ∈ envTable s) (h : env.get? b.var = none) :
    ∃ v, b.value env s = .ok v ∧ (PyVal.get (({} : ConfigObj F).attrs s) b.field).Same v := by
  obtain ⟨i, hi, rfl⟩ := List.getElem_of_mem hb
  have hfit := defaults_fit (F := F) s
  have hi' := hfit.length_eq ▸ hi
  obtain ⟨hfield, hfits⟩ := hfit.get hi hi'
  obtain ⟨v, hv, hsame⟩ := Reader.read_default _ hfits
  have hget : PyVal.get (({} : ConfigObj F).attrs s) (envTable s)[i].field =
      ((({} : ConfigObj F).attrs s).entries.get ⟨i, hi'⟩).2 := by
    unfold PyVal.get
    rw [Dict.get?_eq_some_iff.2 (show ((envTable s)[i].field, _) ∈ _ from ?_)]
    · rfl
    · exact hfield ▸ List.get_mem _ _
  refine ⟨v, ?_, hget ▸ hsame⟩
  unfold EnvBinding.value
  rw [h, hget]
  exact hv

/-! ## The CLI against `from_env` -/

/-- `a == b` -/
structure ConfigObj.Same (a b : ConfigObj F) : Prop where
  attr : ∀ s, ∀ field ∈ fieldNames s, ∃ v w,
    a.attr s field = some v ∧ b.attr s field = some w ∧ v.Same w
  setRoutes : a.aerospike.setRoutes = b.aerospike.setRoutes
  hosts : a.aerospike.hosts = b.aerospike.hosts

/-- Every variable that is set can be read, and reads as the default of its
field unless a flag of the field was passed. -/
structure EnvIdle (env : Dict String String) (provided : Provided F) : Prop where
  attr : ∀ s, ∀ b ∈ envTable s, ∃ v, b.value env s = .ok v ∧
    ((flagValue provided s b.field).isSome ∨
      (PyVal.get (({} : ConfigObj F).attrs s) b.field).Same v)
  host : (provided.values.get? "aerospike_host").isSome ∨ envHost env = "localhost"
  port : ∃ port, envPort env = .ok port ∧
    ((provided.values.get? "aerospike_port").isSome ∨ port = 3000)

theorem same_overlaid (flag : Option (PyVal F)) (d v : PyVal F) :
    (flag.getD d).Same (flag.getD v) ↔ flag.isSome ∨ d.Same v := by
  cases flag with
  | none => simp
  | some w => simp [PyVal.Same.refl]

theorem default_get {s : Option Section} {b : EnvBinding} (hb : b ∈ envTable s) :
    (({} : ConfigObj F)).attr s b.field =
      some (PyVal.get (({} : ConfigObj F).attrs s) b.field) := by
  have hf : b.field ∈ fieldNames s := by
    rw [← envTable_fields]
    exact List.mem_map_of_mem hb
  obtain ⟨d, hd⟩ := whole_default.attr_isSome (F := F) hf
  unfold PyVal.get
  rw [show (({} : ConfigObj F).attrs s).get? b.field = some d from hd]
  exact hd

/-- The flags over a base whose attribute is known. -/
theorem attr_overlaid_some {base : ConfigObj F} {s : Option Section} {field : String} {v : PyVal F}
    (h : base.attr s field = some v) (provided : Provided F) :
    (base.overlaid provided).attr s field = some ((flagValue provided s field).getD v) := by
  rw [attr_overlaid, h]
  rfl

theorem flaggedHosts_iff {base : ConfigObj F} {host : String} {port : Int} (provided : Provided F)
    (hb : base.aerospike.hosts = [(.str host, .int port)]) :
    flaggedHosts ({} : ConfigObj F).aerospike.hosts provided =
        flaggedHosts base.aerospike.hosts provided ↔
      ((provided.values.get? "aerospike_host").isSome ∨ host = "localhost") ∧
        ((provided.values.get? "aerospike_port").isSome ∨ port = 3000) := by
  rw [hb, flaggedHosts_single, flaggedHosts_single]
  cases provided.values.get? "aerospike_host" <;>
    cases provided.values.get? "aerospike_port" <;> simp [eq_comm]

/-- Without a document the result is `from_env` with the flags over it exactly
where the environment is idle. -/
theorem environment_iff {env : Dict String String} {provided : Provided F} {cfg : ConfigObj F}
    (h : buildConfig none provided = .ok cfg) :
    (∃ base, fromEnv env = .ok base ∧ cfg.Same (base.overlaid provided)) ↔
      EnvIdle env provided := by
  have hcfg : cfg = ({} : ConfigObj F).overlaid provided := applyFlags_eq whole_default h
  subst hcfg
  constructor
  · rintro ⟨base, hbase, hsame⟩
    have hread := envRead hbase
    obtain ⟨port, hport, hhosts⟩ := hread.hosts
    have hseed := (flaggedHosts_iff provided hhosts).1 hsame.hosts
    refine ⟨fun s b hb => ?_, hseed.1, port, hport, hseed.2⟩
    obtain ⟨v, hv, hattr⟩ := hread.attr s b hb
    have hf : b.field ∈ fieldNames s := by
      rw [← envTable_fields]
      exact List.mem_map_of_mem hb
    obtain ⟨x, y, hx, hy, hxy⟩ := hsame.attr s b.field hf
    rw [attr_overlaid_some (default_get hb)] at hx
    rw [attr_overlaid_some hattr] at hy
    cases hx
    cases hy
    exact ⟨v, hv, (same_overlaid _ _ _).1 hxy⟩
  · rintro ⟨hidle, hhost, port, hport, hp⟩
    obtain ⟨base, hbase⟩ := fromEnv_returns
      (fun s b hb => (hidle s b hb).imp fun v hv => hv.1) hport
    have hread := envRead hbase
    refine ⟨base, hbase, fun s field hf => ?_, ?_, ?_⟩
    · rw [← envTable_fields] at hf
      obtain ⟨b, hb, rfl⟩ := List.mem_map.1 hf
      obtain ⟨v, hv, hattr⟩ := hread.attr s b hb
      obtain ⟨w, hw, hsame⟩ := hidle s b hb
      rw [hv] at hw
      cases hw
      exact ⟨_, _, attr_overlaid_some (default_get hb) _, attr_overlaid_some hattr _,
        (same_overlaid _ _ _).2 hsame⟩
    · show [] ++ _ = base.aerospike.setRoutes ++ _
      rw [hread.setRoutes]
    · obtain ⟨port', hport', hhosts⟩ := hread.hosts
      rw [hport] at hport'
      cases hport'
      exact (flaggedHosts_iff provided hhosts).2 ⟨hhost, hp⟩

end

/-- `MIGRATION_WORKERS=16` under `--workers 4`. -/
theorem environment_hidden :
    let env : Dict String String := .ofPairs [("MIGRATION_WORKERS", "16")]
    let provided : Provided String := { values := .ofPairs [("workers", .int 4)] }
    ∃ cfg, buildConfig none provided = .ok cfg ∧
      ∃ base, fromEnv env = .ok base ∧ cfg.Same (base.overlaid provided) := by
  intro env provided
  have hbuild : ∃ cfg, buildConfig none provided = .ok cfg := ⟨_, rfl⟩
  obtain ⟨cfg, h⟩ := hbuild
  refine ⟨cfg, h, (environment_iff h).2 ⟨fun s b hb => ?_, .inr rfl, 3000, rfl, .inr rfl⟩⟩
  by_cases hvar : b.var = "MIGRATION_WORKERS"
  · have hworkers : ∀ s, ∀ b ∈ envTable s, b.var = "MIGRATION_WORKERS" →
        s = none ∧ b = ⟨"workers", "MIGRATION_WORKERS", .int⟩ := by
      intro s
      rcases s with _ | _ | _ <;> decide
    obtain ⟨rfl, rfl⟩ := hworkers s b hb hvar
    exact ⟨.int 16, rfl, .inl rfl⟩
  · have hunset : env.get? b.var = none := by
      rw [Dict.get?_eq_none_iff, Dict.mem_keys_ofPairs]
      simpa using hvar
    exact (value_unset hb hunset).imp fun v hv => ⟨hv.1, .inr hv.2⟩

/-- `MIGRATION_WORKERS=16` without flags: eight workers. -/
theorem workers_ignored :
    let env : Dict String String := .ofPairs [("MIGRATION_WORKERS", "16")]
    let provided : Provided String := {}
    ∃ cfg base, buildConfig none provided = .ok cfg ∧ fromEnv env = .ok base ∧
      cfg.attr none "workers" = some (.int 8) ∧ base.attr none "workers" = some (.int 16) ∧
        ¬cfg.Same (base.overlaid provided) := by
  intro env provided
  have hbuild : ∃ cfg, buildConfig none provided = .ok cfg ∧
      cfg.attr none "workers" = some (.int 8) := ⟨_, rfl, rfl⟩
  have henv : ∃ base : ConfigObj String, fromEnv env = .ok base ∧
      base.attr none "workers" = some (.int 16) := ⟨_, rfl, rfl⟩
  obtain ⟨cfg, h, h8⟩ := hbuild
  obtain ⟨base, hbase, h16⟩ := henv
  refine ⟨cfg, base, h, hbase, h8, h16, fun hsame => ?_⟩
  obtain ⟨v, w, hv, hw, hvw⟩ := hsame.attr none "workers" (by decide)
  rw [h8] at hv
  rw [attr_overlaid_some h16] at hw
  cases hv
  have hw16 : w = .int 16 := (Option.some.inj hw).symm
  subst hw16
  rcases hvw with h | ⟨n, x, -, ⟨-, h⟩ | ⟨h, -⟩⟩ <;> cases h

end RedisToAerospike.L6
