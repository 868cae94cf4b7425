import RedisToAerospike.L2Convert.Failures
import RedisToAerospike.L3Sink.KeyCollisions

/-!
# Placement and layout by the first matching route

The decision is spread over `SetRouter.resolve`, `Migrator._prepare`, the
converter of the type and `AerospikeSink._key`, which each write "no override"
in a way of their own. Here it is made once, from the route that matches.

* `Routed`: the reference; which route places a key, if any.
* `placed_by_first_match`: the key a record is written under and the layout of
  its bins are those of that route.
* `empty_destination`: an empty destination is no set, `_key` falls back.
-/
namespace RedisToAerospike.L3
open L1 L2

/-! ## The reference -/

/-- The first route in list order that matches the key. A binary key has none. -/
def Routed (routes : List AerospikeSetRoute) (key : Key) : Option AerospikeSetRoute → Prop
  | some route => ∃ text before after, key = .str text ∧ routes = before ++ route :: after ∧
      fnmatch text route.pattern = true ∧ ∀ r ∈ before, fnmatch text r.pattern = false
  | none => ∀ text, key = .str text → ∀ r ∈ routes, fnmatch text r.pattern = false

def routedSet (config : AerospikeConfig) : Option AerospikeSetRoute → String
  | some route => if route.destination = "" then config.setName else route.destination
  | none => config.setName

def routedKey (route : Option AerospikeSetRoute) : Key → Key
  | .str text => .str ((route.map fun r => aerospikeKeyFromRoute text r.pattern).getD text)
  | .bytes b => .bytes b

def routedStrategy (config : MigrationConfig) (route : Option AerospikeSetRoute) : HashStrategy :=
  (route.bind (·.hashStrategy)).getD config.hashStrategy

def routedBin (config : MigrationConfig) (route : Option AerospikeSetRoute) : String :=
  (route.bind (·.valueBin)).getD config.aerospike.valueBin

section
variable {F : Type} [PyFloat F]

/-- The bins of a record that this route places. -/
def LaidOut (config : MigrationConfig) (route : Option AerospikeSetRoute) (record : RedisRecord F)
    (bins : Dict String (Value F)) : Prop :=
  if record.type = "hash" then
    ∃ raw, hashValue record.value = .ok raw ∧
      match routedStrategy config route with
      | .fieldBins => HashConverter.toFieldBins raw = .ok bins
      | .mapBin => ∃ m, HashConverter.toMap raw = .ok m ∧
          bins = singleBin (routedBin config route) (HashConverter.mapValue m)
  else ∃ v, bins = singleBin config.aerospike.valueBin v

/-! ## The route that is resolved -/

theorem exists_routed (routes : List AerospikeSetRoute) (key : Key) :
    ∃ route, Routed routes key route := by
  cases key with
  | bytes b => exact ⟨none, nofun⟩
  | str text =>
    cases hf : routes.find? fun r => fnmatch text r.pattern with
    | none =>
      refine ⟨none, fun t ht r hr => ?_⟩
      cases ht
      simpa using List.find?_eq_none.1 hf r hr
    | some route =>
      obtain ⟨hm, before, after, he, hb⟩ := List.find?_eq_some_iff_append.1 hf
      exact ⟨some route, text, before, after, rfl, he, hm, fun r hr => by simpa using hb r hr⟩

/-- What `resolve` makes of the route. -/
theorem resolve_routed {routes : List AerospikeSetRoute} {key : Key}
    {route : Option AerospikeSetRoute} (h : Routed routes key route) (default_ : String) :
    resolve routes default_ key =
      ⟨(route.map (·.destination)).getD default_, routedKey route key,
        route.bind (·.hashStrategy), route.bind (·.valueBin)⟩ := by
  cases route with
  | none =>
    cases key with
    | bytes b => rfl
    | str text =>
      have hf : routes.find? (fun r => fnmatch text r.pattern) = none :=
        List.find?_eq_none.2 fun r hr => by simp [h text rfl r hr]
      simp only [resolve, hf]
      rfl
  | some route =>
    obtain ⟨text, before, after, rfl, he, hm, hb⟩ := h
    have hf : routes.find? (fun r => fnmatch text r.pattern) = some route :=
      List.find?_eq_some_iff_append.2 ⟨hm, before, after, he, fun r hr => by simp [hb r hr]⟩
    simp only [resolve, hf]
    rfl

/-! ## The bins of a conversion -/

theorem hash_bins {c : HashConverter} {record : RedisRecord F} {strategy : Option HashStrategy}
    {valueBin : Option String} {r : AerospikeRecord F}
    (h : c.convert record strategy valueBin = .ok r) :
    ∃ raw, hashValue record.value = .ok raw ∧
      match strategy.getD c.strategy with
      | .fieldBins => HashConverter.toFieldBins raw = .ok r.bins
      | .mapBin => ∃ m, HashConverter.toMap raw = .ok m ∧
          r.bins = singleBin (valueBin.getD c.valueBin) (HashConverter.mapValue m) := by
  obtain ⟨raw, hraw, h⟩ := Fallible.bind_ok_iff.1 h
  refine ⟨raw, hraw, ?_⟩
  cases hs : strategy.getD c.strategy with
  | fieldBins =>
    rw [hs] at h
    obtain ⟨bins, hbins, h⟩ := Fallible.bind_ok_iff.1 h
    exact build_bins h ▸ hbins
  | mapBin =>
    rw [hs] at h
    obtain ⟨m, hm, h⟩ := Fallible.bind_ok_iff.1 h
    exact ⟨m, hm, build_bins h⟩

/-- The built-in converters of the other types write the global bin. -/
theorem other_bins {valueBin : String} {strategy : HashStrategy} {ttlPolicy : TtlPolicy}
    {record : RedisRecord F} (hne : record.type ≠ "hash") {r : AerospikeRecord F}
    (h : (ConverterRegistry.new valueBin strategy ttlPolicy).convert record none none = .ok r) :
    ∃ v, r.bins = singleBin valueBin v := by
  simp only [convert_new, if_neg hne] at h
  split at h
  · obtain ⟨raw, -, h⟩ := Fallible.bind_ok_iff.1 h
    obtain ⟨v, -, h⟩ := Fallible.bind_ok_iff.1 h
    exact ⟨_, build_bins h⟩
  · split at h
    · obtain ⟨raw, -, h⟩ := Fallible.bind_ok_iff.1 h
      obtain ⟨v, -, h⟩ := Fallible.bind_ok_iff.1 h
      exact ⟨_, build_bins h⟩
    · split at h
      · obtain ⟨raw, -, h⟩ := Fallible.bind_ok_iff.1 h
        exact ⟨_, build_bins h⟩
      · split at h
        · obtain ⟨raw, -, h⟩ := Fallible.bind_ok_iff.1 h
          exact ⟨_, build_bins h⟩
        · cases h

/-! ## The prepared record -/

/-- Without transforms a prepared record is a conversion under the resolved
overrides, placed. -/
theorem prepare_converted {config : MigrationConfig} {registry : ConverterRegistry F}
    {record : RedisRecord F} {r : AerospikeRecord F}
    (h : prepare config registry [] record = .record r) :
    let resolution := resolve config.aerospike.setRoutes config.aerospike.setName record.key
    ∃ c, (if record.type = "hash" then
        registry.convert record (some (effectiveHash config resolution))
          (effectiveValueBin config resolution)
      else registry.convert record none none) = .ok c ∧ r = place config resolution record c := by
  unfold prepare prepareConverted at h
  split at h
  · cases h
  · cases h
  · rename_i c hc
    cases h
    exact ⟨c, hc, rfl⟩

theorem effectiveHash_routed {config : MigrationConfig} {key : Key}
    {route : Option AerospikeSetRoute} (h : Routed config.aerospike.setRoutes key route) :
    effectiveHash config (resolve config.aerospike.setRoutes config.aerospike.setName key) =
      routedStrategy config route := by
  rw [resolve_routed h, effectiveHash, routedStrategy]

/-- No bin is handed over under `FIELD_BINS`. -/
theorem effectiveValueBin_routed {config : MigrationConfig} {key : Key}
    {route : Option AerospikeSetRoute} (h : Routed config.aerospike.setRoutes key route) :
    effectiveValueBin config (resolve config.aerospike.setRoutes config.aerospike.setName key) =
      match routedStrategy config route with
      | .mapBin => some (routedBin config route)
      | .fieldBins => none := by
  have hstrategy := effectiveHash_routed h
  cases hs : routedStrategy config route with
  | mapBin =>
    have hbin : (resolve config.aerospike.setRoutes config.aerospike.setName key).valueBin =
        route.bind (·.valueBin) := by rw [resolve_routed h]
    simp [effectiveValueBin, hstrategy, hs, hbin, routedBin]
  | fieldBins => simp [effectiveValueBin, hstrategy, hs]

theorem laidOut_of_prepare {config : MigrationConfig} {record : RedisRecord F}
    {r : AerospikeRecord F} (h : prepare config (.fromConfig config) [] record = .record r)
    {route : Option AerospikeSetRoute} (hr : Routed config.aerospike.setRoutes record.key route) :
    LaidOut config route record r.bins := by
  obtain ⟨c, hc, rfl⟩ := prepare_converted h
  change LaidOut config route record c.bins
  unfold LaidOut
  by_cases hhash : record.type = "hash"
  · have hget : (ConverterRegistry.fromConfig config : ConverterRegistry F).get "hash" =
        .ok (.hash ⟨config.aerospike.valueBin, config.hashStrategy,
          ⟨config.ttlOverflowPolicy, config.aerospike.maxTtl⟩⟩) := get_new _ _ _ _
    rw [if_pos hhash, ConverterRegistry.convert, if_pos hhash, hget, effectiveHash_routed hr,
      effectiveValueBin_routed hr] at hc
    rw [if_pos hhash]
    obtain ⟨raw, hraw, hbins⟩ := hash_bins hc
    refine ⟨raw, hraw, ?_⟩
    rw [Option.getD_some] at hbins
    cases hs : routedStrategy config route with
    | fieldBins => simpa only [hs] using hbins
    | mapBin => simpa only [hs, Option.getD_some] using hbins
  · rw [if_neg hhash] at hc ⊢
    exact other_bins hhash hc

theorem sinkKey_of_prepare {config : MigrationConfig} {record : RedisRecord F}
    {r : AerospikeRecord F} (h : prepare config (.fromConfig config) [] record = .record r)
    {route : Option AerospikeSetRoute} (hr : Routed config.aerospike.setRoutes record.key route) :
    sinkKey config.aerospike r =
      (config.aerospike.namespace_, routedSet config.aerospike route,
        routedKey route record.key) := by
  rw [sinkKey_resolved (ConverterRegistry.fromConfig_keepsPlace config) h, resolve_routed hr]
  cases route with
  | none => simp [routedSet]
  | some route => rfl

/-- **Placement.** A record goes where its first matching route sends it, laid
out as that route says, the configuration filling in what it leaves open. -/
theorem placed_by_first_match {config : MigrationConfig} {record : RedisRecord F}
    {r : AerospikeRecord F} (h : prepare config (.fromConfig config) [] record = .record r) :
    (∃ route, Routed config.aerospike.setRoutes record.key route) ∧
    ∀ route, Routed config.aerospike.setRoutes record.key route →
      sinkKey config.aerospike r =
        (config.aerospike.namespace_, routedSet config.aerospike route,
          routedKey route record.key) ∧
      LaidOut config route record r.bins :=
  ⟨exists_routed _ _, fun _ hr => ⟨sinkKey_of_prepare h hr, laidOut_of_prepare h hr⟩⟩

end

/-- A hash under a key, with one field. -/
def hashRecord (key : String) : RedisRecord String :=
  { key := .str key, type := "hash",
    value := .hash (Dict.ofPairs [("f".toByteArray, "1".toByteArray)]) }

/-- A route of its own for the hashes `u:*`, into a bin of its own. -/
def userRoute : AerospikeSetRoute :=
  { pattern := "u:*", destination := "users", hashStrategy := some .mapBin,
    valueBin := some "profile" }

def userConfig : MigrationConfig :=
  { aerospike := { setRoutes := [userRoute] }, hashStrategy := .fieldBins }

theorem routed_user : Routed userConfig.aerospike.setRoutes (.str "u:7") (some userRoute) :=
  ⟨"u:7", [], [], rfl, rfl, by decide, nofun⟩

theorem placed_user :
    ∃ r, prepare userConfig (.fromConfig userConfig) [] (hashRecord "u:7") = .record r ∧
      sinkKey userConfig.aerospike r = ("test", "users", .str "7") ∧
      LaidOut userConfig (some userRoute) (hashRecord "u:7") r.bins := by
  obtain ⟨r, h⟩ : ∃ r, prepare userConfig (.fromConfig userConfig) [] (hashRecord "u:7") =
      .record r := ⟨_, rfl⟩
  have hplaced := (placed_by_first_match h).2 _ routed_user
  exact ⟨r, h, hplaced⟩

/-- A route to the empty set name leaves its records in the default set. -/
theorem empty_destination :
    ∃ r, prepare (oneRoute "a*" "") (.fromConfig (oneRoute "a*" "")) [] (stringRecord "ab") =
        .record r ∧
      Routed (oneRoute "a*" "").aerospike.setRoutes (stringRecord "ab").key
        (some { pattern := "a*", destination := "" }) ∧
      sinkKey (oneRoute "a*" "").aerospike r = ("test", "redis", .str "b") ∧
      sinkKey (oneRoute "a*" "").aerospike r ≠ ("test", "", .str "b") :=
  ⟨_, rfl, ⟨"ab", [], [], by decide, rfl, by decide, nofun⟩, by decide, by decide⟩

end RedisToAerospike.L3
