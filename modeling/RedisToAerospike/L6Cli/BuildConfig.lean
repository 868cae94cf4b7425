import RedisToAerospike.L6Cli.Config

/-!
# Flags over a base (`cli.py`)

`_ARG_MAP` binds flags to attributes; `build_config` applies the ones that were
passed to a base. A flag that was not passed is not in `provided`.

* `argMap_flagOf`: the table binds each attribute to the flag declared for it.
* `applyFlags_eq`: the loop over `_ARG_MAP` is an overlay field by field.
-/
namespace RedisToAerospike.L6
open L1

/-- The third component of a binding. -/
inductive Coerce where
  | keep
  | recordExistsPolicy
  | hashStrategy
  | ttlOverflowPolicy
  deriving DecidableEq

structure ArgBinding where
  dest : String
  section_ : Option Section
  field : String
  coerce : Coerce := .keep
  deriving DecidableEq

/-- mirrors src/redis_to_aerospike/cli.py:28-77 -/
def argMap : List ArgBinding := [
  ⟨"redis_host", some .redis, "host", .keep⟩,
  ⟨"redis_port", some .redis, "port", .keep⟩,
  ⟨"redis_db", some .redis, "db", .keep⟩,
  ⟨"redis_url", some .redis, "url", .keep⟩,
  ⟨"redis_cluster", some .redis, "cluster", .keep⟩,
  ⟨"redis_username", some .redis, "username", .keep⟩,
  ⟨"redis_password", some .redis, "password", .keep⟩,
  ⟨"redis_ssl", some .redis, "ssl", .keep⟩,
  ⟨"redis_ssl_ca_certs", some .redis, "ssl_ca_certs", .keep⟩,
  ⟨"redis_ssl_certfile", some .redis, "ssl_certfile", .keep⟩,
  ⟨"redis_ssl_keyfile", some .redis, "ssl_keyfile", .keep⟩,
  ⟨"redis_ssl_cert_reqs", some .redis, "ssl_cert_reqs", .keep⟩,
  ⟨"redis_socket_timeout", some .redis, "socket_timeout", .keep⟩,
  ⟨"redis_socket_connect_timeout", some .redis, "socket_connect_timeout", .keep⟩,
  ⟨"redis_match", some .redis, "scan_match", .keep⟩,
  ⟨"aerospike_use_services_alternate", some .aerospike, "use_services_alternate", .keep⟩,
  ⟨"aerospike_username", some .aerospike, "username", .keep⟩,
  ⟨"aerospike_password", some .aerospike, "password", .keep⟩,
  ⟨"aerospike_auth_mode", some .aerospike, "auth_mode", .keep⟩,
  ⟨"aerospike_tls_enable", some .aerospike, "tls_enable", .keep⟩,
  ⟨"aerospike_tls_name", some .aerospike, "tls_name", .keep⟩,
  ⟨"aerospike_tls_cafile", some .aerospike, "tls_cafile", .keep⟩,
  ⟨"aerospike_tls_certfile", some .aerospike, "tls_certfile", .keep⟩,
  ⟨"aerospike_tls_keyfile", some .aerospike, "tls_keyfile", .keep⟩,
  ⟨"aerospike_tls_keyfile_pw", some .aerospike, "tls_keyfile_pw", .keep⟩,
  ⟨"aerospike_socket_timeout_ms", some .aerospike, "socket_timeout_ms", .keep⟩,
  ⟨"aerospike_total_timeout_ms", some .aerospike, "total_timeout_ms", .keep⟩,
  ⟨"aerospike_connect_timeout_ms", some .aerospike, "connect_timeout_ms", .keep⟩,
  ⟨"aerospike_login_timeout_ms", some .aerospike, "login_timeout_ms", .keep⟩,
  ⟨"aerospike_namespace", some .aerospike, "namespace", .keep⟩,
  ⟨"aerospike_set", some .aerospike, "set_name", .keep⟩,
  ⟨"value_bin", some .aerospike, "value_bin", .keep⟩,
  ⟨"aerospike_send_key", some .aerospike, "send_key", .keep⟩,
  ⟨"aerospike_record_exists_policy", some .aerospike, "record_exists_policy",
    .recordExistsPolicy⟩,
  ⟨"max_ttl", some .aerospike, "max_ttl", .keep⟩,
  ⟨"workers", none, "workers", .keep⟩,
  ⟨"scan_batch", none, "scan_batch", .keep⟩,
  ⟨"queue_size", none, "queue_size", .keep⟩,
  ⟨"scan_rate_limit", none, "scan_rate_limit", .keep⟩,
  ⟨"write_rate_limit", none, "write_rate_limit", .keep⟩,
  ⟨"write_batch_size", none, "write_batch_size", .keep⟩,
  ⟨"hash_strategy", none, "hash_strategy", .hashStrategy⟩,
  ⟨"ttl_overflow_policy", none, "ttl_overflow_policy", .ttlOverflowPolicy⟩,
  ⟨"progress_interval", none, "progress_interval", .keep⟩]

section
variable {F : Type} [PyNumber F]

omit [PyNumber F] in
def Coerce.run : Coerce → PyVal F → Except PyErr (PyVal F)
  | .keep, v => .ok v
  | .recordExistsPolicy, v => .recordExistsPolicy <$> v.toRecordExistsPolicy
  | .hashStrategy, v => .hashStrategy <$> v.toHashStrategy
  | .ttlOverflowPolicy, v => .ttlOverflowPolicy <$> v.toTtlOverflowPolicy

/-- `vars(args)`, with the tokens of `--set-route` as `argparse` has parsed
them. -/
structure Provided (F : Type) where
  values : Attrs F := .empty
  setRoute : Option (List AerospikeSetRoute) := none

/-- mirrors src/redis_to_aerospike/cli.py:93-101 -/
def seedHosts (base : ConfigObj F) (provided : Provided F) : List (PyVal F × PyVal F) :=
  let cur := base.aerospike.hosts.headD (.str "localhost", .int 3000)
  match provided.values.get? "aerospike_host", provided.values.get? "aerospike_port" with
  | none, none => base.aerospike.hosts
  | host, port => [(host.getD cur.1, port.getD cur.2)]

/-- mirrors src/redis_to_aerospike/cli.py:103-110 -/
def applyBinding (provided : Provided F) (cfg : ConfigObj F) (b : ArgBinding) :
    Except PyErr (ConfigObj F) := do
  match provided.values.get? b.dest with
  | none => return cfg
  | some value =>
    let value ← b.coerce.run value
    return cfg.setAttr b.section_ b.field value

def reseed (provided : Provided F) (base : ConfigObj F) : ConfigObj F :=
  { base with aerospike := { base.aerospike with hosts := seedHosts base provided } }

/-- mirrors src/redis_to_aerospike/cli.py:112-113 -/
def addRoutes (provided : Provided F) (cfg : ConfigObj F) : ConfigObj F :=
  match provided.setRoute with
  | none => cfg
  | some routes =>
    { cfg with
      aerospike := { cfg.aerospike with setRoutes := cfg.aerospike.setRoutes ++ routes } }

/-- mirrors src/redis_to_aerospike/cli.py:115-116 -/
def applyAlias (provided : Provided F) (cfg : ConfigObj F) : ConfigObj F :=
  match provided.values.get? "redis_key_pattern", provided.values.get? "redis_match" with
  | some pattern, none => cfg.setAttr (some .redis) "scan_match" pattern
  | _, _ => cfg

/-- `build_config` once it has its base.
mirrors src/redis_to_aerospike/cli.py:93-118 -/
def applyFlags (base : ConfigObj F) (provided : Provided F) : Except PyErr (ConfigObj F) := do
  let cfg ← argMap.foldlM (applyBinding provided) (reseed provided base)
  return applyAlias provided (addRoutes provided cfg)

/-- `build_config`; `file` is the document of `--config`.
mirrors src/redis_to_aerospike/cli.py:80-118 -/
def buildConfig (file : Option (PyVal F)) (provided : Provided F) : Except PyErr (ConfigObj F) := do
  let base ← match file with
    | none => pure {}
    | some data => fromYaml data
  applyFlags base provided

/-! ## Field by field -/

/-- The name under which the flag of an attribute is passed, as `build_parser`
declares them; the `max_record_size` of the guard has none.
mirrors src/redis_to_aerospike/cli.py:182-365 -/
def flagOf : Option Section → String → Option String
  | some .redis, "scan_match" => some "redis_match"
  | some .redis, field => some ("redis_" ++ field)
  | some .aerospike, "max_record_size" => none
  | some .aerospike, "set_name" => some "aerospike_set"
  | some .aerospike, "value_bin" => some "value_bin"
  | some .aerospike, "max_ttl" => some "max_ttl"
  | some .aerospike, field => some ("aerospike_" ++ field)
  | none, field => some field

/-- The fields whose values are coerced. -/
def fieldCoerce (s : Option Section) (field : String) : Coerce :=
  if s = some .aerospike ∧ field = "record_exists_policy" then .recordExistsPolicy
  else if s = none ∧ field = "hash_strategy" then .hashStrategy
  else if s = none ∧ field = "ttl_overflow_policy" then .ttlOverflowPolicy
  else .keep

/-- The value that the flags give an attribute, if one of its flags was
passed. -/
def flagValue (provided : Provided F) (s : Option Section) (field : String) : Option (PyVal F) :=
  if s = some .redis ∧ field = "scan_match" then
    (provided.values.get? "redis_match").or (provided.values.get? "redis_key_pattern")
  else
    (flagOf s field).bind fun flag =>
      (provided.values.get? flag).bind fun v => ((fieldCoerce s field).run v).toOption

/-- Hosts with the flags laid over them: either flag leaves one seed, whose
other half is the first host's. -/
def flaggedHosts (hosts : List (PyVal F × PyVal F)) (provided : Provided F) :
    List (PyVal F × PyVal F) :=
  match provided.values.get? "aerospike_host", provided.values.get? "aerospike_port", hosts with
  | none, none, hosts => hosts
  | some host, some port, _ => [(host, port)]
  | some host, none, (_, port) :: _ => [(host, port)]
  | some host, none, [] => [(host, .int 3000)]
  | none, some port, (host, _) :: _ => [(host, port)]
  | none, some port, [] => [(.str "localhost", port)]

/-- A configuration with the flags laid over it, field by field. -/
def ConfigObj.overlaid (base : ConfigObj F) (provided : Provided F) : ConfigObj F where
  redis := base.redis.mapVals fun field v => (flagValue provided (some .redis) field).getD v
  aerospike :=
    { hosts := flaggedHosts base.aerospike.hosts provided
      setRoutes := base.aerospike.setRoutes ++ provided.setRoute.getD []
      attrs := base.aerospike.attrs.mapVals fun field v =>
        (flagValue provided (some .aerospike) field).getD v }
  top := base.top.mapVals fun field v => (flagValue provided none field).getD v

theorem seedHosts_eq (base : ConfigObj F) (provided : Provided F) :
    seedHosts base provided = flaggedHosts base.aerospike.hosts provided := by
  unfold seedHosts flaggedHosts
  cases provided.values.get? "aerospike_host" <;>
    cases provided.values.get? "aerospike_port" <;> cases base.aerospike.hosts <;> rfl

omit [PyNumber F] in
theorem flaggedHosts_single (h p : PyVal F) (provided : Provided F) :
    flaggedHosts [(h, p)] provided =
      [((provided.values.get? "aerospike_host").getD h,
        (provided.values.get? "aerospike_port").getD p)] := by
  unfold flaggedHosts
  cases provided.values.get? "aerospike_host" <;>
    cases provided.values.get? "aerospike_port" <;> rfl

/-! ## The loop over `_ARG_MAP` -/

/-- The value a table of bindings gives an attribute. -/
def boundValue (provided : Provided F) (table : List ArgBinding) (s : Option Section)
    (field : String) : Option (PyVal F) :=
  (table.find? fun b => b.section_ = s ∧ b.field = field).bind fun b =>
    (provided.values.get? b.dest).bind fun v => (b.coerce.run v).toOption

omit [PyNumber F] in
theorem boundValue_cons (provided : Provided F) (b : ArgBinding) (table : List ArgBinding)
    (s : Option Section) (field : String) :
    boundValue provided (b :: table) s field =
      if b.section_ = s ∧ b.field = field then
        (provided.values.get? b.dest).bind fun v => (b.coerce.run v).toOption
      else boundValue provided table s field := by
  unfold boundValue
  rw [List.find?_cons]
  by_cases he : b.section_ = s ∧ b.field = field
  · rw [if_pos he, decide_eq_true he]
    rfl
  · rw [if_neg he, decide_eq_false he]

omit [PyNumber F] in
theorem boundValue_fresh {provided : Provided F} {table : List ArgBinding} {s : Option Section}
    {field : String} (h : (s, field) ∉ table.map fun b => (b.section_, b.field)) :
    boundValue provided table s field = none := by
  have hnone : table.find? (fun b => b.section_ = s ∧ b.field = field) = none := by
    rw [List.find?_eq_none]
    intro b hb he
    simp only [decide_eq_true_eq] at he
    exact h (List.mem_map.2 ⟨b, hb, Prod.ext he.1 he.2⟩)
  rw [boundValue, hnone]
  rfl

/-- One binding of the loop. -/
theorem applyBinding_ok {provided : Provided F} {cfg cfg' : ConfigObj F} {b : ArgBinding}
    (h : applyBinding provided cfg b = .ok cfg') :
    (provided.values.get? b.dest = none ∧ cfg' = cfg) ∨
      ∃ v w, provided.values.get? b.dest = some v ∧ b.coerce.run v = .ok w ∧
        cfg' = cfg.setAttr b.section_ b.field w := by
  unfold applyBinding at h
  cases hv : provided.values.get? b.dest with
  | none =>
    rw [hv] at h
    cases h
    exact .inl ⟨rfl, rfl⟩
  | some v =>
    rw [hv] at h
    cases hw : b.coerce.run v with
    | error e => simp [hw, bind, Except.bind] at h
    | ok w =>
      simp only [hw, bind, Except.bind, pure, Except.pure, Except.ok.injEq] at h
      exact .inr ⟨v, w, rfl, hw, h.symm⟩

/-- What the loop leaves, over a table that binds no attribute twice. -/
structure Bound (provided : Provided F) (table : List ArgBinding) (base cfg : ConfigObj F) :
    Prop where
  keys : ∀ s, (cfg.attrs s).keys = (base.attrs s).keys
  attr : ∀ s field, cfg.attr s field =
    ((boundValue provided table s field).or (base.attr s field))
  hosts : cfg.aerospike.hosts = base.aerospike.hosts
  setRoutes : cfg.aerospike.setRoutes = base.aerospike.setRoutes

theorem foldlM_applyBinding {provided : Provided F} {table : List ArgBinding}
    (hn : (table.map fun b => (b.section_, b.field)).Nodup) {base cfg : ConfigObj F}
    (hmem : ∀ b ∈ table, b.field ∈ (base.attrs b.section_).keys)
    (h : table.foldlM (applyBinding provided) base = .ok cfg) : Bound provided table base cfg := by
  induction table generalizing base with
  | nil =>
    cases h
    exact ⟨fun _ => rfl, fun _ _ => rfl, rfl, rfl⟩
  | cons b table ih =>
    rw [List.map_cons, List.nodup_cons] at hn
    rw [List.foldlM_cons] at h
    cases hb : applyBinding provided base b with
    | error e => simp [hb, bind, Except.bind] at h
    | ok base' =>
      simp only [hb, bind, Except.bind] at h
      have hfresh : boundValue provided table b.section_ b.field = none := boundValue_fresh hn.1
      rcases applyBinding_ok hb with ⟨hv, rfl⟩ | ⟨v, w, hv, hw, rfl⟩
      · -- not passed
        obtain ⟨hk, ha, hh, hr⟩ := ih hn.2 (fun b' hb' => hmem b' (List.mem_cons_of_mem _ hb')) h
        refine ⟨hk, fun s field => ?_, hh, hr⟩
        rw [ha, boundValue_cons]
        by_cases he : b.section_ = s ∧ b.field = field
        · obtain ⟨rfl, rfl⟩ := he
          rw [hfresh, if_pos ⟨rfl, rfl⟩, hv]
          rfl
        · rw [if_neg he]
      · -- passed: later bindings are of other attributes
        have hset := keys_setAttr (hmem b List.mem_cons_self) w
        obtain ⟨hk, ha, hh, hr⟩ := ih hn.2
          (fun b' hb' => by rw [hset]; exact hmem b' (List.mem_cons_of_mem _ hb')) h
        refine ⟨fun s => (hk s).trans (hset s), fun s field => ?_, hh.trans (hosts_setAttr _ _ _ _),
          hr.trans (setRoutes_setAttr _ _ _ _)⟩
        rw [ha, attr_setAttr, boundValue_cons]
        by_cases he : b.section_ = s ∧ b.field = field
        · obtain ⟨rfl, rfl⟩ := he
          rw [hfresh, if_pos ⟨rfl, rfl⟩, if_pos ⟨rfl, rfl⟩, hv, Option.bind_some, hw]
          rfl
        · rw [if_neg he, if_neg he]

theorem argMap_targets : (argMap.map fun b => (b.section_, b.field)).Nodup := by decide

theorem argMap_fields : ∀ b ∈ argMap, b.field ∈ fieldNames b.section_ := by decide

/-- The table binds each attribute to its flag, and no attribute to another
one's. -/
theorem argMap_flagOf (s : Option Section) : ∀ field ∈ fieldNames s,
    ((argMap.find? fun b => b.section_ = s ∧ b.field = field).map fun b => (b.dest, b.coerce)) =
      (flagOf s field).map fun flag => (flag, fieldCoerce s field) := by
  rcases s with _ | _ | _ <;> decide

omit [PyNumber F] in
theorem boundValue_mem {provided : Provided F} {s : Option Section} {field : String} {v : PyVal F}
    (h : boundValue provided argMap s field = some v) : field ∈ fieldNames s := by
  unfold boundValue at h
  obtain ⟨b, hb, -⟩ := Option.bind_eq_some_iff.1 h
  have htarget := List.find?_some hb
  simp only [decide_eq_true_eq] at htarget
  rw [← htarget.1, ← htarget.2]
  exact argMap_fields b (List.mem_of_find?_eq_some hb)

omit [PyNumber F] in
theorem boundValue_eq_none {provided : Provided F} {s : Option Section} {field : String}
    (h : field ∉ fieldNames s) : boundValue provided argMap s field = none := by
  by_contra hb
  obtain ⟨v, hv⟩ := Option.ne_none_iff_exists'.1 hb
  exact h (boundValue_mem hv)

theorem attrs_overlaid (base : ConfigObj F) (provided : Provided F) (s : Option Section) :
    (base.overlaid provided).attrs s =
      (base.attrs s).mapVals fun field v => (flagValue provided s field).getD v := by
  rcases s with _ | _ | _ <;> rfl

theorem keys_overlaid (base : ConfigObj F) (provided : Provided F) (s : Option Section) :
    ((base.overlaid provided).attrs s).keys = (base.attrs s).keys := by
  rw [attrs_overlaid, Dict.keys_mapVals]

theorem attr_overlaid (base : ConfigObj F) (provided : Provided F) (s : Option Section)
    (field : String) :
    (base.overlaid provided).attr s field =
      (base.attr s field).map fun v => (flagValue provided s field).getD v := by
  rw [ConfigObj.attr, attrs_overlaid, Dict.get?_mapVals]
  rfl

omit [PyNumber F] in
theorem boundValue_scan_match (provided : Provided F) :
    boundValue provided argMap (some .redis) "scan_match" = provided.values.get? "redis_match" := by
  have hfind : argMap.find? (fun b => b.section_ = some .redis ∧ b.field = "scan_match") =
      some ⟨"redis_match", some .redis, "scan_match", .keep⟩ := by decide
  rw [boundValue, hfind, Option.bind_some]
  cases provided.values.get? "redis_match" <;> rfl

omit [PyNumber F] in
theorem boundValue_eq_flagValue (provided : Provided F) {s : Option Section} {field : String}
    (hf : field ∈ fieldNames s) (h : ¬(s = some .redis ∧ field = "scan_match")) :
    boundValue provided argMap s field = flagValue provided s field := by
  have hflag := argMap_flagOf s field hf
  rw [flagValue, if_neg h, boundValue]
  cases hb : argMap.find? fun b => b.section_ = s ∧ b.field = field with
  | none =>
    rw [hb, Option.map_none, eq_comm, Option.map_eq_none_iff] at hflag
    rw [hflag]
    rfl
  | some b =>
    rw [hb, Option.map_some, eq_comm, Option.map_eq_some_iff] at hflag
    obtain ⟨flag, hflag, hpair⟩ := hflag
    obtain ⟨rfl, hcoerce⟩ := Prod.mk.inj hpair
    rw [hflag, hcoerce, Option.bind_some, Option.bind_some]

theorem attr_applyAlias (provided : Provided F) (cfg : ConfigObj F) (s : Option Section)
    (field : String) :
    (applyAlias provided cfg).attr s field =
      if (s = some .redis ∧ field = "scan_match") ∧ provided.values.get? "redis_match" = none then
        (provided.values.get? "redis_key_pattern").or (cfg.attr s field)
      else cfg.attr s field := by
  unfold applyAlias
  cases hp : provided.values.get? "redis_key_pattern" with
  | none => simp
  | some pattern =>
    cases hm : provided.values.get? "redis_match" with
    | none =>
      dsimp only
      rw [attr_setAttr]
      by_cases h : s = some .redis ∧ field = "scan_match"
      · simp [h]
      · have h' : ¬(some Section.redis = s ∧ "scan_match" = field) :=
          fun he => h ⟨he.1.symm, he.2.symm⟩
        rw [if_neg h', if_neg fun he => h he.1]
    | some m => simp

theorem attrs_reseed (provided : Provided F) (base : ConfigObj F) (s : Option Section) :
    (reseed provided base).attrs s = base.attrs s := by
  rcases s with _ | _ | _ <;> rfl

theorem attrs_addRoutes (provided : Provided F) (cfg : ConfigObj F) (s : Option Section) :
    (addRoutes provided cfg).attrs s = cfg.attrs s := by
  unfold addRoutes
  split
  · rfl
  · rcases s with _ | _ | _ <;> rfl

theorem hosts_addRoutes (provided : Provided F) (cfg : ConfigObj F) :
    (addRoutes provided cfg).aerospike.hosts = cfg.aerospike.hosts := by
  unfold addRoutes
  split <;> rfl

theorem setRoutes_addRoutes (provided : Provided F) (cfg : ConfigObj F) :
    (addRoutes provided cfg).aerospike.setRoutes =
      cfg.aerospike.setRoutes ++ provided.setRoute.getD [] := by
  unfold addRoutes
  cases provided.setRoute with
  | none => exact (List.append_nil _).symm
  | some routes => rfl

theorem hosts_applyAlias (provided : Provided F) (cfg : ConfigObj F) :
    (applyAlias provided cfg).aerospike.hosts = cfg.aerospike.hosts := by
  unfold applyAlias
  split
  · exact hosts_setAttr _ _ _ _
  · rfl

theorem setRoutes_applyAlias (provided : Provided F) (cfg : ConfigObj F) :
    (applyAlias provided cfg).aerospike.setRoutes = cfg.aerospike.setRoutes := by
  unfold applyAlias
  split
  · exact setRoutes_setAttr _ _ _ _
  · rfl

theorem keys_applyAlias (provided : Provided F) {cfg : ConfigObj F}
    (h : "scan_match" ∈ (cfg.attrs (some .redis)).keys) (s : Option Section) :
    ((applyAlias provided cfg).attrs s).keys = (cfg.attrs s).keys := by
  unfold applyAlias
  split
  · exact keys_setAttr h _ s
  · rfl

/-- What the table and the alias give an attribute is what its flags do. -/
theorem boundValue_overlaid {base : ConfigObj F} (hw : base.Whole) (provided : Provided F)
    (s : Option Section) (field : String) :
    (if (s = some .redis ∧ field = "scan_match") ∧ provided.values.get? "redis_match" = none then
        (provided.values.get? "redis_key_pattern").or
          ((boundValue provided argMap s field).or (base.attr s field))
      else (boundValue provided argMap s field).or (base.attr s field)) =
      (base.overlaid provided).attr s field := by
  rw [attr_overlaid]
  by_cases h : s = some .redis ∧ field = "scan_match"
  · obtain ⟨rfl, rfl⟩ := h
    obtain ⟨v, hv⟩ := hw.attr_isSome (show "scan_match" ∈ fieldNames (some .redis) by decide)
    have hflag : flagValue provided (some .redis) "scan_match" =
        (provided.values.get? "redis_match").or (provided.values.get? "redis_key_pattern") :=
      if_pos ⟨rfl, rfl⟩
    rw [boundValue_scan_match, hflag, hv]
    cases provided.values.get? "redis_match" with
    | none => cases provided.values.get? "redis_key_pattern" <;> simp
    | some m => simp
  · rw [if_neg fun he => h he.1]
    by_cases hf : field ∈ fieldNames s
    · obtain ⟨v, hv⟩ := hw.attr_isSome hf
      rw [boundValue_eq_flagValue provided hf h, hv]
      cases flagValue provided s field <;> rfl
    · -- no attribute
      have hbase : base.attr s field = none := Dict.get?_eq_none_iff.2 (by rw [hw]; exact hf)
      rw [hbase, boundValue_eq_none hf]
      rfl

/-- The loop over `_ARG_MAP` and what surrounds it is an overlay, field by
field. -/
theorem applyFlags_eq {base cfg : ConfigObj F} {provided : Provided F} (hw : base.Whole)
    (h : applyFlags base provided = .ok cfg) : cfg = base.overlaid provided := by
  unfold applyFlags at h
  obtain ⟨looped, hloop, h⟩ := Fallible.bind_ok_iff.1 h
  have hcfg := Except.ok.inj h
  subst hcfg
  have hbound : Bound provided argMap (reseed provided base) looped := by
    refine foldlM_applyBinding argMap_targets (fun b hb => ?_) hloop
    rw [attrs_reseed, hw]
    exact argMap_fields b hb
  have hkeys : ∀ s, ((addRoutes provided looped).attrs s).keys = (base.attrs s).keys := by
    intro s
    rw [attrs_addRoutes, hbound.keys, attrs_reseed]
  have hattr : ∀ s field, (addRoutes provided looped).attr s field =
      (boundValue provided argMap s field).or (base.attr s field) := by
    intro s field
    rw [ConfigObj.attr, attrs_addRoutes]
    refine (hbound.attr s field).trans ?_
    rw [ConfigObj.attr, attrs_reseed]
    rfl
  have hfield : "scan_match" ∈ ((addRoutes provided looped).attrs (some .redis)).keys := by
    rw [hkeys, hw]
    decide
  refine ConfigObj.ext_attr (fun s => ?_) (fun s field => ?_) ?_ ?_
  · rw [keys_overlaid, keys_applyAlias provided hfield, hkeys]
  · rw [attr_applyAlias, hattr, boundValue_overlaid hw]
  · rw [hosts_applyAlias, hosts_addRoutes, hbound.hosts]
    exact seedHosts_eq base provided
  · rw [setRoutes_applyAlias, setRoutes_addRoutes, hbound.setRoutes]
    rfl

end

end RedisToAerospike.L6
