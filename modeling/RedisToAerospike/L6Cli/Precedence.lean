import RedisToAerospike.L6Cli.BuildConfig
import RedisToAerospike.L6Cli.SetRouteCli

/-!
# Precedence: flag, document, default

* `documentRead`: a document is an overlay of the defaults.
* `FieldWise`: every field has the flag's value if the flag was passed, else
  the document's if it has the key, else the default. The lists of hosts and of
  routes are read entry by entry (`EntryReads`, `RouteReads`).
* `precedence_iff`: the attributes and routes always are; the seed host and
  port are exactly where neither hides the other.
* `port_alone_ignored`: a document with a port and no host.
-/
namespace RedisToAerospike.L6
open L1 Fallible

section
variable {F : Type} [PyNumber F]

/-! ## The document -/

/-- A section of a document; what is no mapping has no keys. -/
def mappingOf : Option (PyVal F) → Attrs F
  | some (.dict es) => .ofPairs es
  | _ => .empty

def fileSection (file : Option (PyVal F)) : Option Section → Attrs F
  | none => mappingOf file
  | some s => mappingOf ((mappingOf file).get? s.name)

/-- The value that the document gives an attribute, if it has its key. -/
def yamlValue (file : Option (PyVal F)) (s : Option Section) (field : String) : Option (PyVal F) :=
  if s = some .redis ∧ field = "scan_match" then
    ((fileSection file s).get? "scan_match").or ((fileSection file s).get? "key_pattern")
  else
    ((fileSection file s).get? field).bind fun v => ((fieldCoerce s field).run v).toOption

/-- The base of `build_config`. -/
def baseOf : Option (PyVal F) → Except PyErr (ConfigObj F)
  | none => .ok {}
  | some data => fromYaml data

omit [PyNumber F] in
theorem get?_resolveAlias (data : Attrs F) {field : String} (h : field ≠ "key_pattern") :
    (resolveAlias data).get? field =
      if field = "scan_match" then (data.get? "scan_match").or (data.get? "key_pattern")
      else data.get? field := by
  unfold resolveAlias
  cases hp : data.get? "key_pattern" with
  | none =>
    dsimp only
    by_cases he : field = "scan_match"
    · subst he; simp
    · rw [if_neg he]
  | some v =>
    dsimp only
    by_cases hm : "scan_match" ∈ data.keys
    · obtain ⟨m, hm'⟩ := Option.isSome_iff_exists.1 (Dict.get?_isSome_iff.2 hm)
      rw [if_pos hm, Dict.get?_erase, if_neg h]
      by_cases he : field = "scan_match"
      · subst he; simp [hm']
      · rw [if_neg he]
    · rw [if_neg hm, Dict.get?_set, Dict.get?_erase, if_neg h]
      by_cases he : field = "scan_match"
      · subst he
        simp [Dict.get?_eq_none_iff.2 hm]
      · have he' : ¬"scan_match" = field := fun e => he e.symm
        rw [if_neg he', if_neg he]

/-- A section that is read is its mapping, or has no keys. -/
theorem mappingOf_of_section {v : PyVal F} {o : Option (Attrs F)} (h : section_ v = .ok o) :
    mappingOf (some v) = o.getD .empty := by
  unfold section_ at h
  by_cases ht : v.truthy = true
  · rw [if_pos ht] at h
    cases v <;> cases h
    rfl
  · rw [if_neg ht] at h
    cases h
    cases v with
    | dict es =>
      have hnil : es = [] := by simpa [PyVal.truthy] using ht
      subst hnil
      rfl
    | _ => rfl

omit [PyNumber F] in
theorem mappingOf_get (data : Attrs F) (k : String) :
    mappingOf (some (PyVal.get data k)) = mappingOf (data.get? k) := by
  unfold PyVal.get
  cases data.get? k <;> rfl

theorem keys_redisFromDict (data : Option (Attrs F)) :
    (redisFromDict data).keys = fieldNames (some .redis) := by
  have hdefault : (redisDefaults : Attrs F).keys = fieldNames (some .redis) :=
    whole_default (some .redis)
  cases data with
  | none => exact hdefault
  | some data => exact (Dict.keys_overlay _ _).trans hdefault

omit [PyNumber F] in
/-- A key that is read by itself, as `yamlValue` has it. -/
theorem getD_of_readOr {α : Type} {d a : α} {read : PyVal F → Except PyErr α}
    {o : Option (PyVal F)} (wrap : α → PyVal F) (h : readOr d read o = .ok a) :
    (o.bind fun v => (wrap <$> read v).toOption).getD (wrap d) = wrap a := by
  cases o with
  | none =>
    cases h
    rfl
  | some v =>
    have hread : read v = .ok a := h
    rw [Option.bind_some, hread]
    rfl

omit [PyNumber F] in
/-- What a document leaves of the attributes of `RedisConfig`. -/
theorem attr_redisFromDict (data : Option (Attrs F)) {field : String} (h : field ≠ "key_pattern") :
    (redisFromDict data).get? field = ((redisDefaults : Attrs F).get? field).map fun v =>
      (if field = "scan_match" then
        ((data.getD .empty).get? "scan_match").or ((data.getD .empty).get? "key_pattern")
      else (data.getD .empty).get? field).getD v := by
  cases data with
  | none =>
    have hget : ∀ k, (Dict.empty : Attrs F).get? k = none := fun _ => rfl
    simp [redisFromDict, hget]
  | some d => rw [redisFromDict, Dict.get?_overlay, get?_resolveAlias d h, Option.getD_some]

omit [PyNumber F] in
theorem bind_keep {coerce : Coerce} (h : coerce = .keep) (o : Option (PyVal F)) :
    (o.bind fun v => (coerce.run v).toOption) = o := by
  subst h
  cases o <;> rfl

omit [PyNumber F] in
/-- The attributes that `AerospikeConfig.from_dict` leaves to its loop. -/
theorem attr_of_erased (data : Attrs F) {field : String} (h : field ∈ fieldNames (some .aerospike))
    (hp : field ≠ "record_exists_policy") :
    (((((data.erase "hosts").erase "host").erase "port").erase "set_routes").erase
      "record_exists_policy").get? field = data.get? field := by
  have hne : ∀ f ∈ fieldNames (some .aerospike),
      f ≠ "hosts" ∧ f ≠ "host" ∧ f ≠ "port" ∧ f ≠ "set_routes" := by decide
  obtain ⟨h1, h2, h3, h4⟩ := hne field h
  rw [Dict.get?_erase, if_neg hp, Dict.get?_erase, if_neg h4, Dict.get?_erase, if_neg h3,
    Dict.get?_erase, if_neg h2, Dict.get?_erase, if_neg h1]

/-- What a mapping leaves of `AerospikeConfig`. -/
structure AerospikeRead (data : Attrs F) (obj : AerospikeObj F) : Prop where
  keys : obj.attrs.keys = fieldNames (some .aerospike)
  attr : ∀ field ∈ fieldNames (some .aerospike),
    obj.attrs.get? field = ((aerospikeDefaults : Attrs F).get? field).map fun v =>
      ((data.get? field).bind fun v =>
        ((fieldCoerce (some .aerospike) field).run v).toOption).getD v
  setRoutes : parseSetRoutes (PyVal.get data "set_routes") = .ok obj.setRoutes
  hosts : ∃ hosts,
    normalizeHosts (PyVal.get data "hosts") (PyVal.get data "host") (PyVal.get data "port") =
      .ok hosts ∧ obj.hosts = hosts.getD [(.str "localhost", .int 3000)]

theorem aerospikeRead_empty : AerospikeRead (.empty : Attrs F) ({} : AerospikeObj F) where
  keys := whole_default (some .aerospike)
  attr field _ := by
    have hget : (Dict.empty : Attrs F).get? field = none := rfl
    simp [hget]
  setRoutes := rfl
  hosts := ⟨none, rfl, rfl⟩

theorem aerospikeRead_some {data : Attrs F} {obj : AerospikeObj F}
    (h : aerospikeFromDict (some data) = .ok obj) : AerospikeRead data obj := by
  simp only [aerospikeFromDict, bind_ok_iff] at h
  obtain ⟨hosts, hhosts, routes, hroutes, policy, hpolicy, h⟩ := h
  have hobj := Except.ok.inj h
  subst hobj
  have hdefault : (aerospikeDefaults : Attrs F).keys = fieldNames (some .aerospike) :=
    whole_default (some .aerospike)
  have hpolicyDefault : (aerospikeDefaults : Attrs F).get? "record_exists_policy" =
      some (.recordExistsPolicy .update) :=
    Dict.get?_ofPairs_eq_some (by simp only [List.map_cons, List.map_nil]; decide) (by simp)
  refine ⟨?_, fun field hf => ?_, ?_, hosts, hhosts, rfl⟩
  · rw [Dict.keys_overlay, Dict.keys_set_of_mem (by rw [hdefault]; decide), hdefault]
  · rw [Dict.get?_overlay, Dict.get?_set]
    by_cases hp : field = "record_exists_policy"
    · subst hp
      rw [if_pos rfl, Dict.get?_erase, if_pos rfl, hpolicyDefault, Option.map_some,
        Option.map_some]
      have hdata : ((((data.erase "hosts").erase "host").erase "port").erase "set_routes").get?
          "record_exists_policy" = data.get? "record_exists_policy" := by
        simp [Dict.get?_erase]
      rw [hdata] at hpolicy
      exact congrArg some (getD_of_readOr .recordExistsPolicy hpolicy).symm
    · have hkeep : fieldCoerce (some .aerospike) field = .keep := by
        simp [fieldCoerce, hp]
      rw [if_neg fun he => hp he.symm, attr_of_erased data hf hp, bind_keep hkeep]
  · have hdata : (((data.erase "hosts").erase "host").erase "port").get? "set_routes" =
        data.get? "set_routes" := by
      simp [Dict.get?_erase]
    rw [hdata] at hroutes
    unfold PyVal.get
    cases hr : data.get? "set_routes" with
    | none =>
      rw [hr] at hroutes
      cases hroutes
      rfl
    | some raw =>
      rw [hr] at hroutes
      exact hroutes

theorem aerospikeRead {section_ : Option (Attrs F)} {obj : AerospikeObj F}
    (h : aerospikeFromDict section_ = .ok obj) : AerospikeRead (section_.getD .empty) obj := by
  cases section_ with
  | none =>
    cases h
    exact aerospikeRead_empty
  | some data => exact aerospikeRead_some h

/-- What a document leaves of the configuration. -/
structure DocumentRead (file : Option (PyVal F)) (base : ConfigObj F) : Prop where
  whole : base.Whole
  attr : ∀ s, ∀ field ∈ fieldNames s, base.attr s field =
    (({} : ConfigObj F).attr s field).map fun v => (yamlValue file s field).getD v
  setRoutes : parseSetRoutes (PyVal.get (fileSection file (some .aerospike)) "set_routes") =
    .ok base.aerospike.setRoutes
  hosts : ∃ hosts,
    normalizeHosts (PyVal.get (fileSection file (some .aerospike)) "hosts")
        (PyVal.get (fileSection file (some .aerospike)) "host")
        (PyVal.get (fileSection file (some .aerospike)) "port") = .ok hosts ∧
      base.aerospike.hosts = hosts.getD [(.str "localhost", .int 3000)]

/-- The top-level attributes, which are overlaid last. -/
theorem attr_top {data : Attrs F} {hash : HashStrategy} {overflow : TtlOverflowPolicy}
    (hhash : readOr .mapBin PyVal.toHashStrategy (data.get? "hash_strategy") = .ok hash)
    (hoverflow : readOr .reject PyVal.toTtlOverflowPolicy (data.get? "ttl_overflow_policy") =
      .ok overflow) {field : String} (hf : field ∈ fieldNames none) :
    (((topDefaults.set "hash_strategy" (.hashStrategy hash)).set "ttl_overflow_policy"
        (.ttlOverflowPolicy overflow)).overlay
      ((((data.erase "redis").erase "aerospike").erase "hash_strategy").erase
        "ttl_overflow_policy")).get? field =
      ((topDefaults : Attrs F).get? field).map fun v =>
        ((data.get? field).bind fun v => ((fieldCoerce none field).run v).toOption).getD v := by
  have hne : ∀ f ∈ fieldNames none, f ≠ "redis" ∧ f ≠ "aerospike" := by decide
  obtain ⟨hr, ha⟩ := hne field hf
  have hdata : ((data.erase "redis").erase "aerospike").get? field = data.get? field := by
    rw [Dict.get?_erase, if_neg ha, Dict.get?_erase, if_neg hr]
  rw [Dict.get?_overlay, Dict.get?_set, Dict.get?_set, Dict.get?_erase, Dict.get?_erase, hdata]
  by_cases ho : field = "ttl_overflow_policy"
  · subst ho
    have hdefault : (topDefaults : Attrs F).get? "ttl_overflow_policy" =
        some (.ttlOverflowPolicy .reject) :=
      Dict.get?_ofPairs_eq_some (by simp only [List.map_cons, List.map_nil]; decide) (by simp)
    rw [if_pos rfl, if_pos rfl, hdefault]
    exact congrArg some (getD_of_readOr .ttlOverflowPolicy hoverflow).symm
  · rw [if_neg ho, if_neg (Ne.symm ho)]
    by_cases hh : field = "hash_strategy"
    · subst hh
      have hdefault : (topDefaults : Attrs F).get? "hash_strategy" = some (.hashStrategy .mapBin) :=
        Dict.get?_ofPairs_eq_some (by simp only [List.map_cons, List.map_nil]; decide) (by simp)
      rw [if_pos rfl, if_pos rfl, hdefault]
      exact congrArg some (getD_of_readOr .hashStrategy hhash).symm
    · have hkeep : fieldCoerce none field = .keep := by
        simp [fieldCoerce, ho, hh]
      rw [if_neg hh, if_neg (Ne.symm hh), bind_keep hkeep]

/-- `from_dict` is an overlay of the defaults, field by field. -/
theorem documentRead_dict {es : List (String × PyVal F)} {base : ConfigObj F}
    (h : fromDict (.ofPairs es) = .ok base) : DocumentRead (some (.dict es)) base := by
  simp only [fromDict, bind_ok_iff] at h
  obtain ⟨redis, hredis, aero, haero, aerospike, hobj, hash, hhash, overflow, hoverflow, h⟩ := h
  have hbase := Except.ok.inj h
  subst hbase
  have hsection : ∀ {s : Section} {o : Option (Attrs F)},
      section_ (PyVal.get (.ofPairs es) s.name) = .ok o →
        fileSection (some (.dict es)) (some s) = o.getD .empty := by
    intro s o ho
    rw [← mappingOf_of_section ho, mappingOf_get]
    rfl
  have hread := aerospikeRead hobj
  have hredisSection := hsection (s := .redis) hredis
  have haeroSection := hsection (s := .aerospike) haero
  have htop : (topDefaults : Attrs F).keys = fieldNames none := whole_default none
  have hhash' : readOr .mapBin PyVal.toHashStrategy ((Dict.ofPairs es).get? "hash_strategy") =
      .ok hash := by
    simpa [Dict.get?_erase] using hhash
  have hoverflow' : readOr .reject PyVal.toTtlOverflowPolicy
      ((Dict.ofPairs es).get? "ttl_overflow_policy") = .ok overflow := by
    simpa [Dict.get?_erase] using hoverflow
  refine ⟨fun s => ?_, fun s field hf => ?_, ?_, ?_⟩
  · rcases s with _ | ⟨_ | _⟩
    · -- the top level
      show ((((topDefaults : Attrs F).set _ _).set _ _).overlay _).keys = _
      have hset : ((topDefaults : Attrs F).set "hash_strategy" (.hashStrategy hash)).keys =
          fieldNames none := by
        rw [Dict.keys_set_of_mem (by rw [htop]; decide), htop]
      rw [Dict.keys_overlay, Dict.keys_set_of_mem (by rw [hset]; decide), hset]
    · exact keys_redisFromDict redis
    · exact hread.keys
  · rcases s with _ | ⟨_ | _⟩
    · -- the top level
      refine (attr_top hhash' hoverflow' hf).trans ?_
      rw [yamlValue, if_neg (by simp)]
      rfl
    · -- the section of Redis
      have hne : field ≠ "key_pattern" := by
        have h : ∀ f ∈ fieldNames (some .redis), f ≠ "key_pattern" := by decide
        exact h field hf
      refine (attr_redisFromDict redis hne).trans ?_
      rw [← hredisSection]
      refine congrArg (fun f => Option.map f ((redisDefaults : Attrs F).get? field))
        (funext fun v => ?_)
      unfold yamlValue
      by_cases hm : field = "scan_match"
      · rw [if_pos hm, if_pos ⟨rfl, hm⟩]
      · rw [if_neg hm, if_neg fun he => hm he.2]
        have hkeep : fieldCoerce (some .redis) field = .keep := by simp [fieldCoerce]
        rw [bind_keep hkeep]
    · -- the section of Aerospike
      refine (hread.attr field hf).trans ?_
      rw [← haeroSection, yamlValue, if_neg (by simp)]
      rfl
  · rw [haeroSection]
    exact hread.setRoutes
  · rw [haeroSection]
    exact hread.hosts

/-- Without a document, or with an empty one, the defaults stay. -/
theorem documentRead_default {file : Option (PyVal F)} (h : mappingOf file = .empty) :
    DocumentRead file ({} : ConfigObj F) := by
  have hget : ∀ k, (Dict.empty : Attrs F).get? k = none := fun _ => rfl
  have hsection : ∀ s, fileSection file s = .empty := by
    intro s
    cases s with
    | none => exact h
    | some s =>
      show mappingOf ((mappingOf file).get? s.name) = .empty
      rw [h, hget]
      rfl
  have hvalue : ∀ s field, yamlValue file s field = none := by
    intro s field
    unfold yamlValue
    rw [hsection]
    split <;> rfl
  refine ⟨whole_default, fun s field _ => ?_, ?_, none, ?_, rfl⟩
  · rw [hvalue]
    exact Option.map_id'.symm
  · rw [hsection]
    rfl
  · rw [hsection]
    rfl

theorem documentRead {file : Option (PyVal F)} {base : ConfigObj F} (h : baseOf file = .ok base) :
    DocumentRead file base := by
  match file, h with
  | none, h =>
    have hbase : ({} : ConfigObj F) = base := Except.ok.inj h
    exact hbase ▸ documentRead_default rfl
  | some .none, h =>
    have hbase : ({} : ConfigObj F) = base := Except.ok.inj h
    exact hbase ▸ documentRead_default rfl
  | some (.dict es), h => exact documentRead_dict h

/-! ## Field by field -/

def aerospikeKey (file : Option (PyVal F)) (k : String) : Option (PyVal F) :=
  (fileSection file (some .aerospike)).get? k

/-- The seed host as a field of its own. -/
def seedHost (file : Option (PyVal F)) (provided : Provided F) : PyVal F :=
  (provided.values.get? "aerospike_host").getD
    ((aerospikeKey file "host").getD (.str "localhost"))

/-- The seed port as a field of its own; `none` where the document's is no
number. -/
def seedPort (file : Option (PyVal F)) (provided : Provided F) : Option (PyVal F) :=
  match provided.values.get? "aerospike_port", aerospikeKey file "port" with
  | some port, _ => some port
  | none, none => some (.int 3000)
  | none, some port => port.toInt.toOption.map .int

/-- A `hosts` list is given. -/
def ListGiven (file : Option (PyVal F)) : Prop :=
  (PyVal.get (fileSection file (some .aerospike)) "hosts").truthy = true

/-- The host and port that an entry of a `hosts` list stands for. -/
inductive EntryReads : PyVal F → PyVal F × PyVal F → Prop
  | mapping {es : List (String × PyVal F)} {host port : PyVal F} {n : Int}
      (hhost : (Dict.ofPairs es).get? "host" = some host)
      (hport : (Dict.ofPairs es).get? "port" = some port) (hint : port.toInt = .ok n) :
      EntryReads (.dict es) (host, .int n)
  | portless {es : List (String × PyVal F)} {host : PyVal F}
      (hhost : (Dict.ofPairs es).get? "host" = some host)
      (hport : (Dict.ofPairs es).get? "port" = none) : EntryReads (.dict es) (host, .int 3000)
  | pair {entry host port : PyVal F} {n : Int} (hdict : ∀ es, entry ≠ .dict es)
      (hpair : entry.iter = .ok [host, port]) (hint : port.toInt = .ok n) :
      EntryReads entry (host, .int n)

omit [PyNumber F] in
/-- The route that an entry of a `set_routes` list stands for: its names are
stripped, and what is blank is left out. -/
def RouteReads (item : PyVal F) (route : AerospikeSetRoute) : Prop :=
  ∃ es, item = .dict es ∧
    (asStr (PyVal.get (.ofPairs es) "pattern")).map stripText = some route.pattern ∧
    (asStr (PyVal.get (.ofPairs es) "destination")).map stripText = some route.destination ∧
    (route.hashStrategy = none ∧ (PyVal.get (.ofPairs es) "hash_strategy" = .none ∨
        PyVal.get (.ofPairs es) "hash_strategy" = .str "") ∨
      ∃ hs, (PyVal.get (.ofPairs es) "hash_strategy").toHashStrategy = .ok hs ∧
        route.hashStrategy = some hs) ∧
    route.valueBin =
      ((asStr (PyVal.get (.ofPairs es) "value_bin")).map stripText).filter (· ≠ "")

/-- The routes of a document, if it has any. -/
def RoutesRead (raw : PyVal F) (routes : List AerospikeSetRoute) : Prop :=
  raw = .none ∧ routes = [] ∨ ∃ items, raw = .list items ∧ List.Forall₂ RouteReads items routes

/-- Flag over document over default, for each field by itself. -/
structure FieldWise (file : Option (PyVal F)) (provided : Provided F) (cfg : ConfigObj F) :
    Prop where
  attr : ∀ s, ∀ field ∈ fieldNames s, cfg.attr s field =
    (flagValue provided s field).or
      ((yamlValue file s field).or (({} : ConfigObj F).attr s field))
  setRoutes : ∃ routes,
    RoutesRead (PyVal.get (fileSection file (some .aerospike)) "set_routes") routes ∧
      cfg.aerospike.setRoutes = routes ++ provided.setRoute.getD []
  list : ListGiven file → ∃ entries hosts,
    (PyVal.get (fileSection file (some .aerospike)) "hosts").iter = .ok entries ∧
      List.Forall₂ EntryReads entries hosts ∧ cfg.aerospike.hosts = flaggedHosts hosts provided
  seeds : ¬ListGiven file → ∃ port, seedPort file provided = some port ∧
    cfg.aerospike.hosts = [(seedHost file provided, port)]

/-- The key of the document is there and not null. -/
def Given (file : Option (PyVal F)) (k : String) : Prop :=
  ∃ v, aerospikeKey file k = some v ∧ v ≠ .none

/-- Neither seed field hides the other: the document gives a list, or each of
the two is passed as a flag, left out, or given by the document, the port next
to a host or with the default's value. -/
def SeedsApart (file : Option (PyVal F)) (provided : Provided F) : Prop :=
  ListGiven file ∨
    ((provided.values.get? "aerospike_host").isSome ∨ aerospikeKey file "host" = none ∨
        Given file "host") ∧
      ((provided.values.get? "aerospike_port").isSome ∨ aerospikeKey file "port" = none ∨
        Given file "port" ∧
          (Given file "host" ∨
            (PyVal.get (fileSection file (some .aerospike)) "port").toInt = .ok 3000))

theorem buildConfig_eq {file : Option (PyVal F)} {provided : Provided F} {cfg : ConfigObj F}
    (h : buildConfig file provided = .ok cfg) :
    ∃ base, DocumentRead file base ∧ cfg = base.overlaid provided := by
  have hbind : (baseOf file >>= fun base => applyFlags base provided) = .ok cfg := by
    cases file <;> exact h
  obtain ⟨base, hbase, happly⟩ := bind_ok_iff.1 hbind
  have hread := documentRead hbase
  exact ⟨base, hread, applyFlags_eq hread.whole happly⟩

theorem attr_fieldWise {file : Option (PyVal F)} {provided : Provided F} {base : ConfigObj F}
    (h : DocumentRead file base) {s : Option Section} {field : String} (hf : field ∈ fieldNames s) :
    (base.overlaid provided).attr s field = (flagValue provided s field).or
      ((yamlValue file s field).or (({} : ConfigObj F).attr s field)) := by
  obtain ⟨v, hv⟩ := whole_default.attr_isSome (F := F) hf
  rw [attr_overlaid, h.attr s field hf, hv, Option.map_some, Option.map_some]
  cases flagValue provided s field with
  | some w => rfl
  | none => cases yamlValue file s field <;> rfl

/-! ## The seed -/

omit [PyNumber F] in
theorem get_eq_none {file : Option (PyVal F)} {k : String} (h : ¬Given file k) :
    PyVal.get (fileSection file (some .aerospike)) k = .none := by
  unfold PyVal.get
  cases hk : (fileSection file (some .aerospike)).get? k with
  | none => rfl
  | some v =>
    by_contra hv
    exact h ⟨v, hk, hv⟩

omit [PyNumber F] in
theorem get_eq_some {file : Option (PyVal F)} {k : String} {v : PyVal F}
    (h : aerospikeKey file k = some v) :
    PyVal.get (fileSection file (some .aerospike)) k = v := by
  unfold PyVal.get
  rw [show (fileSection file (some .aerospike)).get? k = some v from h]
  rfl

/-- The seed that a document without a list leaves. -/
theorem hosts_read {file : Option (PyVal F)} {base : ConfigObj F} (h : DocumentRead file base)
    (hl : ¬ListGiven file) :
    (¬Given file "host" ∧ base.aerospike.hosts = [(.str "localhost", .int 3000)]) ∨
      ∃ host p, aerospikeKey file "host" = some host ∧ host ≠ .none ∧
        base.aerospike.hosts = [(host, .int p)] ∧
          (¬Given file "port" ∧ p = 3000 ∨ ∃ v, aerospikeKey file "port" = some v ∧
            v ≠ .none ∧ v.toInt = .ok p) := by
  obtain ⟨hosts, hnormal, hbase⟩ := h.hosts
  have hpair : normalizePair (PyVal.get (fileSection file (some .aerospike)) "port")
      (PyVal.get (fileSection file (some .aerospike)) "host") = .ok hosts := by
    rw [← hnormal]
    exact (if_neg hl).symm
  by_cases hhost : Given file "host"
  · obtain ⟨host, hkey, hne⟩ := hhost
    rw [get_eq_some hkey, normalizePair_of_ne hne] at hpair
    obtain ⟨p, hp, hret⟩ := bind_ok_iff.1 hpair
    have hhosts := Except.ok.inj hret
    subst hhosts
    refine .inr ⟨host, p, hkey, hne, hbase, ?_⟩
    by_cases hport : Given file "port"
    · obtain ⟨v, hv, hvne⟩ := hport
      rw [get_eq_some hv, portOr3000_of_ne hvne] at hp
      exact .inr ⟨v, hv, hvne, hp⟩
    · rw [get_eq_none hport] at hp
      exact .inl ⟨hport, (Except.ok.inj hp).symm⟩
  · rw [get_eq_none hhost] at hpair
    have hhosts := Except.ok.inj hpair
    subst hhosts
    exact .inl ⟨hhost, hbase⟩

omit [PyNumber F] in
/-- The host half, over what the document left. -/
theorem seedHost_iff {file : Option (PyVal F)} (provided : Provided F) {h : PyVal F}
    (hh : ¬Given file "host" ∧ h = .str "localhost" ∨
      aerospikeKey file "host" = some h ∧ h ≠ .none) :
    (provided.values.get? "aerospike_host").getD h = seedHost file provided ↔
      (provided.values.get? "aerospike_host").isSome ∨ aerospikeKey file "host" = none ∨
        Given file "host" := by
  unfold seedHost
  cases provided.values.get? "aerospike_host" with
  | some flag => simp
  | none =>
    rcases hh with ⟨hg, rfl⟩ | ⟨hk, hne⟩
    · cases hk : aerospikeKey file "host" with
      | none => simp
      | some v =>
        -- a null host
        have hv : v = .none := by
          by_contra hv
          exact hg ⟨v, hk, hv⟩
        subst hv
        simp [hg]
    · have hg : Given file "host" := ⟨h, hk, hne⟩
      simp [hk, hg]

/-- The port half. -/
theorem seedPort_iff {file : Option (PyVal F)} (provided : Provided F) {p : Int}
    (hp : ¬Given file "host" ∧ p = 3000 ∨ Given file "host" ∧ (¬Given file "port" ∧ p = 3000 ∨
      ∃ v, aerospikeKey file "port" = some v ∧ v ≠ .none ∧ v.toInt = .ok p)) :
    seedPort file provided = some ((provided.values.get? "aerospike_port").getD (.int p)) ↔
      (provided.values.get? "aerospike_port").isSome ∨ aerospikeKey file "port" = none ∨
        Given file "port" ∧ (Given file "host" ∨
          (PyVal.get (fileSection file (some .aerospike)) "port").toInt = .ok 3000) := by
  unfold seedPort
  cases provided.values.get? "aerospike_port" with
  | some flag => simp
  | none =>
    cases hk : aerospikeKey file "port" with
    | none =>
      have h3000 : p = 3000 := by
        rcases hp with ⟨-, rfl⟩ | ⟨-, ⟨-, rfl⟩ | ⟨v, hv, -⟩⟩
        · rfl
        · rfl
        · rw [hk] at hv
          cases hv
      simp [h3000]
    | some v =>
      have hport : v.toInt.toOption.map PyVal.int = some (.int p : PyVal F) ↔ v.toInt = .ok p := by
        cases v.toInt <;> simp [Except.toOption]
      have hread : PyVal.get (fileSection file (some .aerospike)) "port" = v := get_eq_some hk
      rw [Option.getD_none, hread]
      refine hport.trans ?_
      by_cases hv : v = .none
      · -- a null port
        subst hv
        have hg : ¬Given file "port" := by
          rintro ⟨w, hw, hne⟩
          rw [hk] at hw
          exact hne (Option.some.inj hw).symm
        simp [PyVal.toInt, hg]
      · have hg : Given file "port" := ⟨v, hk, hv⟩
        rcases hp with ⟨hh, rfl⟩ | ⟨hh, ⟨hn, -⟩ | ⟨w, hw, -, hint⟩⟩
        · simp [hg, hh]
        · exact absurd hg hn
        · rw [hk] at hw
          cases hw
          simp [hg, hh, hint]

omit [PyNumber F] in
theorem strategy_reads {v : PyVal F} {hs : Option HashStrategy} (h : readStrategy v = .ok hs) :
    hs = none ∧ (v = .none ∨ v = .str "") ∨ ∃ s, v.toHashStrategy = .ok s ∧ hs = some s := by
  by_cases hn : v = .none
  · subst hn
    cases h
    exact .inl ⟨rfl, .inl rfl⟩
  · by_cases hb : v = .str ""
    · subst hb
      cases h
      exact .inl ⟨rfl, .inr rfl⟩
    · rw [readStrategy_text hn hb] at h
      obtain ⟨s, hs, rfl⟩ := map_ok_iff.1 h
      exact .inr ⟨s, hs, rfl⟩

omit [PyNumber F] in
theorem valueBin_reads {at_ : String} {v : PyVal F} {vb : Option String}
    (h : readValueBin at_ v = .ok vb) : vb = ((asStr v).map stripText).filter (· ≠ "") := by
  by_cases hn : v = .none
  · subst hn
    cases h
    rfl
  · by_cases hb : v = .str ""
    · subst hb
      cases h
      have hblank : stripText "" = "" := by decide
      simp [asStr, hblank, Option.filter]
    · rw [readValueBin_text hn hb] at h
      cases hs : asStr v with
      | none =>
        rw [hs] at h
        cases h
      | some s =>
        rw [hs] at h
        cases h
        by_cases hblank : stripText s = "" <;> simp [Option.filter, hblank]

omit [PyNumber F] in
theorem routeReads_of_ok {i : Nat} {item : PyVal F} {route : AerospikeSetRoute}
    (h : parseSetRoute i item = .ok route) : RouteReads item route := by
  obtain ⟨es, pattern, destination, rfl, hpattern, hdestination⟩ := mapping_of_parseSetRoute h
  rw [parseSetRoute_mapping hpattern hdestination] at h
  obtain ⟨hs, hstrategy, h⟩ := bind_ok_iff.1 h
  obtain ⟨vb, hbin, h⟩ := bind_ok_iff.1 h
  obtain ⟨p, hp, h⟩ := bind_ok_iff.1 h
  obtain ⟨d, hd, h⟩ := bind_ok_iff.1 h
  cases h
  refine ⟨es, rfl, ?_, ?_, ?_, valueBin_reads hbin⟩
  · rw [hpattern, Option.map_some, (label_of_validate hp).2]
  · rw [hdestination, Option.map_some, (label_of_validate hd).2]
  · exact strategy_reads hstrategy

omit [PyNumber F] in
theorem routesRead_of_ok {raw : PyVal F} {routes : List AerospikeSetRoute}
    (h : parseSetRoutes raw = .ok routes) : RoutesRead raw routes := by
  cases raw with
  | none =>
    cases h
    exact .inl ⟨rfl, rfl⟩
  | list items =>
    refine .inr ⟨items, rfl, ?_⟩
    have hall := mapM_ok_iff.1 h
    rw [List.forall₂_iff_get] at hall ⊢
    obtain ⟨hlen, hall⟩ := hall
    rw [List.length_zipIdx] at hlen
    refine ⟨hlen, fun i hi hi' => ?_⟩
    have hi0 := hall i (by rw [List.length_zipIdx]; exact hi) hi'
    simp only [List.get_eq_getElem, List.getElem_zipIdx] at hi0
    exact routeReads_of_ok hi0
  | _ => cases h

/-- An entry that is no mapping. -/
theorem entryReads_of_unpack {entry : PyVal F} {a : PyVal F × PyVal F}
    (hdict : ∀ es, entry ≠ .dict es)
    (h : (entry.unpack >>= fun pair => pair.2.toInt >>= fun port => .ok (pair.1, .int port)) =
      .ok a) : EntryReads entry a := by
  obtain ⟨⟨host, port⟩, hunpack, h⟩ := bind_ok_iff.1 h
  obtain ⟨n, hint, h⟩ := bind_ok_iff.1 h
  cases h
  unfold PyVal.unpack at hunpack
  obtain ⟨xs, hiter, hunpack⟩ := bind_ok_iff.1 hunpack
  refine .pair hdict ?_ hint
  rw [hiter]
  rcases xs with _ | ⟨x, _ | ⟨y, _ | ⟨z, xs⟩⟩⟩ <;> cases hunpack
  rfl

theorem entryReads_of_ok {entry : PyVal F} {a : PyVal F × PyVal F}
    (h : normalizeHost entry = .ok a) : EntryReads entry a := by
  cases entry with
  | dict es =>
    cases hhost : (Dict.ofPairs es).get? "host" with
    | none =>
      simp only [normalizeHost, hhost] at h
      cases h
    | some host =>
      simp only [normalizeHost, hhost] at h
      obtain ⟨n, hint, h⟩ := bind_ok_iff.1 h
      cases h
      cases hport : (Dict.ofPairs es).get? "port" with
      | none =>
        rw [hport] at hint
        cases hint
        exact .portless hhost hport
      | some port =>
        rw [hport] at hint
        exact .mapping hhost hport hint
  | _ => exact entryReads_of_unpack (fun _ he => by cases he) h

/-- A list is read whatever host and port stand next to it. -/
theorem list_read {file : Option (PyVal F)} {base : ConfigObj F} (h : DocumentRead file base)
    (hl : ListGiven file) : ∃ entries,
      (PyVal.get (fileSection file (some .aerospike)) "hosts").iter = .ok entries ∧
        List.Forall₂ EntryReads entries base.aerospike.hosts := by
  obtain ⟨read, hnormal, hbase⟩ := h.hosts
  have hloop : ((PyVal.get (fileSection file (some .aerospike)) "hosts").iter >>= fun entries =>
      some <$> entries.mapM normalizeHost) = .ok read := by
    rw [← hnormal]
    exact (if_pos hl).symm
  obtain ⟨entries, hiter, hmap⟩ := bind_ok_iff.1 hloop
  obtain ⟨hosts, hmapM, rfl⟩ := map_ok_iff.1 hmap
  rw [hbase]
  exact ⟨entries, hiter, (mapM_ok_iff.1 hmapM).imp fun _ _ => entryReads_of_ok⟩

/-- Without one, the two halves of the seed are decided apart. -/
theorem seeds_iff {file : Option (PyVal F)} {base : ConfigObj F} (h : DocumentRead file base)
    (hl : ¬ListGiven file) (provided : Provided F) :
    (∃ port, seedPort file provided = some port ∧
        flaggedHosts base.aerospike.hosts provided = [(seedHost file provided, port)]) ↔
      SeedsApart file provided := by
  have hread : ∃ host p, base.aerospike.hosts = [(host, .int p)] ∧
      (¬Given file "host" ∧ host = .str "localhost" ∨
        aerospikeKey file "host" = some host ∧ host ≠ .none) ∧
      (¬Given file "host" ∧ p = 3000 ∨ Given file "host" ∧ (¬Given file "port" ∧ p = 3000 ∨
        ∃ v, aerospikeKey file "port" = some v ∧ v ≠ .none ∧ v.toInt = .ok p)) := by
    rcases hosts_read h hl with ⟨hg, hb⟩ | ⟨host, p, hk, hne, hb, hp⟩
    · exact ⟨_, _, hb, .inl ⟨hg, rfl⟩, .inl ⟨hg, rfl⟩⟩
    · exact ⟨host, p, hb, .inr ⟨hk, hne⟩, .inr ⟨⟨host, hk, hne⟩, hp⟩⟩
  obtain ⟨host, p, hb, hhost, hport⟩ := hread
  rw [hb, flaggedHosts_single, SeedsApart, or_iff_right hl, ← seedHost_iff provided hhost,
    ← seedPort_iff provided hport]
  constructor
  · rintro ⟨port, hp, hlist⟩
    have hpair := List.singleton_inj.1 hlist
    rw [hp, ← (Prod.mk.inj hpair).2]
    exact ⟨(Prod.mk.inj hpair).1, rfl⟩
  · rintro ⟨hh, hp⟩
    exact ⟨_, hp, by rw [hh]⟩

/-! ## Precedence -/

/-- Every field of the result is the flag's, else the document's, else the
default, exactly where the seed host and port are apart. -/
theorem precedence_iff {file : Option (PyVal F)} {provided : Provided F} {cfg : ConfigObj F}
    (h : buildConfig file provided = .ok cfg) :
    FieldWise file provided cfg ↔ SeedsApart file provided := by
  obtain ⟨base, hread, rfl⟩ := buildConfig_eq h
  have hattr : ∀ s, ∀ field ∈ fieldNames s, (base.overlaid provided).attr s field =
      (flagValue provided s field).or
        ((yamlValue file s field).or (({} : ConfigObj F).attr s field)) :=
    fun s field hf => attr_fieldWise hread hf
  have hroutes : ∃ routes,
      RoutesRead (PyVal.get (fileSection file (some .aerospike)) "set_routes") routes ∧
        (base.overlaid provided).aerospike.setRoutes = routes ++ provided.setRoute.getD [] :=
    ⟨_, routesRead_of_ok hread.setRoutes, rfl⟩
  by_cases hl : ListGiven file
  · obtain ⟨entries, hiter, hentries⟩ := list_read hread hl
    exact ⟨fun _ => .inl hl, fun _ =>
      ⟨hattr, hroutes, fun _ => ⟨entries, _, hiter, hentries, rfl⟩, fun hn => absurd hl hn⟩⟩
  · exact ⟨fun hw => (seeds_iff hread hl provided).1 (hw.seeds hl),
      fun ha => ⟨hattr, hroutes, fun hl' => absurd hl' hl,
        fun _ => (seeds_iff hread hl provided).2 ha⟩⟩

end

/-- `aerospike: {host: as1, port: 4000}` with `--aerospike-port 3010` and
`--workers 16`. -/
theorem precedence_flags :
    let file : PyVal String :=
      .dict [("aerospike", .dict [("host", .str "as1"), ("port", .int 4000)]), ("workers", .int 4)]
    let provided : Provided String :=
      { values := .ofPairs [("aerospike_port", .int 3010), ("workers", .int 16)] }
    ∃ cfg, buildConfig (some file) provided = .ok cfg ∧ FieldWise (some file) provided cfg := by
  intro file provided
  have hbuild : ∃ cfg, buildConfig (some file) provided = .ok cfg := ⟨_, rfl⟩
  obtain ⟨cfg, h⟩ := hbuild
  have hhost : Given (some file) "host" := ⟨.str "as1", rfl, by simp⟩
  exact ⟨cfg, h, (precedence_iff h).2 (.inr ⟨.inr (.inr hhost), .inl rfl⟩)⟩

/-- `aerospike: {port: 4000}`: the seed port stays 3000. -/
theorem port_alone_ignored :
    let file : PyVal String := .dict [("aerospike", .dict [("port", .int 4000)])]
    ∃ cfg, buildConfig (some file) {} = .ok cfg ∧
      cfg.aerospike.hosts = [(.str "localhost", .int 3000)] ∧ ¬FieldWise (some file) {} cfg := by
  intro file
  have hbuild : ∃ cfg, buildConfig (some file) {} = .ok cfg ∧
      cfg.aerospike.hosts = [(.str "localhost", .int 3000)] := ⟨_, rfl, rfl⟩
  obtain ⟨cfg, h, hosts⟩ := hbuild
  refine ⟨cfg, h, hosts, fun hw => ?_⟩
  have hlist : ¬ListGiven (some file) := by
    intro hl
    cases hl
  obtain ⟨port, hport, hseed⟩ := hw.seeds hlist
  have h4000 : seedPort (some file) {} = some (.int 4000) := rfl
  rw [h4000] at hport
  cases hport
  rw [hosts] at hseed
  cases hseed

end RedisToAerospike.L6
