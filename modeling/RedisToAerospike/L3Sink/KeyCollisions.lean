import RedisToAerospike.L2Read.RedisSource
import RedisToAerospike.L3Place.Prepare
import RedisToAerospike.L3Sink.AerospikeSink

/-!
# Which Redis keys share an Aerospike key

Decoding, routing and placing a key are injective together, except that a
stripped key that would be empty is kept whole: under `foo*` the keys `foo`
and `foofoo` both become `foo`.

* `sinkKey_eq_iff`: with distinct destinations, these pairs are all there is.
* `full_key_collides`: such a pair, and why destinations must not be empty.
-/
namespace RedisToAerospike.L3
open L1 L2

section
variable {F : Type} [PyFloat F]

/-- The destinations tell the routes and the default set apart. -/
structure DistinctSets (config : AerospikeConfig) : Prop where
  pairwise : (config.setRoutes.map (·.destination)).Nodup
  notDefault : ∀ r ∈ config.setRoutes, r.destination ≠ config.setName

/-- `short` is what the pattern of its route strips, and `long` has it once
more under the star. -/
def KeptWhole (routes : List AerospikeSetRoute) (short long : String) : Prop :=
  ∃ route left right, FirstMatch routes short route ∧ FirstMatch routes long route ∧
    Strips route.pattern left right ∧ left ++ right ≠ [] ∧
    short.toList = left ++ right ∧ long.toList = left ++ (left ++ right) ++ right

/-- The Aerospike key a Redis key is written under. -/
def placedKey (config : AerospikeConfig) (key : Key) : AerospikeKey :=
  let resolution := resolve config.setRoutes config.setName key
  (config.namespace_, resolution.setName, resolution.key)

/-- The key a prepared record is written under; an empty destination falls
back to the default set. -/
theorem sinkKey_resolved {config : MigrationConfig} {registry : ConverterRegistry F}
    (hreg : registry.AllKeepPlace) {record : RedisRecord F} {r : AerospikeRecord F}
    (h : prepare config registry [] record = .record r) :
    let resolution := resolve config.aerospike.setRoutes config.aerospike.setName record.key
    sinkKey config.aerospike r =
      (config.aerospike.namespace_,
        if resolution.setName = "" then config.aerospike.setName else resolution.setName,
        resolution.key) := by
  obtain ⟨hkey, hset⟩ := prepare_place hreg h
  dsimp only
  unfold sinkKey
  rw [hkey, hset]
  by_cases he : (resolve config.aerospike.setRoutes config.aerospike.setName record.key).setName =
      config.aerospike.setName
  · simp [he]
  · simp [he]

theorem sinkKey_prepare {config : MigrationConfig} {registry : ConverterRegistry F}
    (hreg : registry.AllKeepPlace)
    (hne : ∀ r ∈ config.aerospike.setRoutes, r.destination ≠ "") {record : RedisRecord F}
    {r : AerospikeRecord F} (h : prepare config registry [] record = .record r) :
    sinkKey config.aerospike r = placedKey config.aerospike record.key := by
  rw [sinkKey_resolved hreg h, placedKey]
  rcases resolve_setName config.aerospike.setRoutes config.aerospike.setName record.key with
    hdefault | ⟨route, hroute, hdest⟩
  · simp [hdefault]
  · rw [hdest, if_neg (hne route hroute)]

theorem placedKey_bytes (config : AerospikeConfig) (b : ByteArray) :
    placedKey config (.bytes b) = (config.namespace_, config.setName, .bytes b) := rfl

theorem placedKey_unmatched {config : AerospikeConfig} {s : String}
    (h : ∀ route, ¬ FirstMatch config.setRoutes s route) :
    placedKey config (.str s) = (config.namespace_, config.setName, .str s) := by
  have hf : config.setRoutes.find? (fun r => fnmatch s r.pattern) = none := by
    cases hf : config.setRoutes.find? (fun r => fnmatch s r.pattern) with
    | none => rfl
    | some route => exact absurd hf (h route)
  simp only [placedKey, resolve, hf]

theorem placedKey_matched {config : AerospikeConfig} {s : String} {route : AerospikeSetRoute}
    (h : FirstMatch config.setRoutes s route) :
    placedKey config (.str s) =
      (config.namespace_, route.destination, .str (aerospikeKeyFromRoute s route.pattern)) := by
  unfold FirstMatch at h
  simp only [placedKey, resolve, h]

/-- A key is placed by a route, or stays what it is in the default set. -/
theorem placedKey_cases (config : AerospikeConfig) (key : Key) :
    (∃ s route, key = .str s ∧ FirstMatch config.setRoutes s route) ∨
      placedKey config key = (config.namespace_, config.setName, key) := by
  cases key with
  | bytes b => exact .inr (placedKey_bytes config b)
  | str s =>
    by_cases h : ∃ route, FirstMatch config.setRoutes s route
    · obtain ⟨route, hr⟩ := h
      exact .inl ⟨s, route, rfl, hr⟩
    · exact .inr (placedKey_unmatched fun route hr => h ⟨route, hr⟩)

theorem DistinctSets.route_eq {config : AerospikeConfig} (h : DistinctSets config)
    {r r' : AerospikeSetRoute} (hr : r ∈ config.setRoutes) (hr' : r' ∈ config.setRoutes)
    (he : r.destination = r'.destination) : r = r' :=
  List.inj_on_of_nodup_map h.pairwise hr hr' he

/-- Two matches of one route that end up under one key. -/
theorem stripped_eq_iff {routes : List AerospikeSetRoute} {route : AerospikeSetRoute} {s t : String}
    (hst : s ≠ t) (hs : FirstMatch routes s route) (ht : FirstMatch routes t route) :
    aerospikeKeyFromRoute s route.pattern = aerospikeKeyFromRoute t route.pattern ↔
      KeptWhole routes s t ∨ KeptWhole routes t s := by
  constructor
  · intro he
    by_cases hstrips : ∃ left right, Strips route.pattern left right
    · obtain ⟨left, right, hp⟩ := hstrips
      obtain ⟨bs, hbs⟩ := (hp.match_iff s).1 hs.matches_
      obtain ⟨bt, hbt⟩ := (hp.match_iff t).1 ht.matches_
      rw [key_of_strips hp hbs, key_of_strips hp hbt] at he
      unfold bodyOr at he
      have hne : bs ≠ bt := fun e => hst (String.toList_inj.1 (by rw [hbs, hbt, e]))
      by_cases h1 : bs = []
      · -- `s` is kept whole, so the body of `t` is `s`
        have h2 : bt ≠ [] := fun e => hne (h1.trans e.symm)
        subst h1
        rw [if_neg (by simp), if_pos h2] at he
        rw [List.append_nil] at hbs
        have hbt' : bt = left ++ right := by rw [← hbs, he, String.toList_ofList]
        exact .inl ⟨route, left, right, hs, ht, hp, hbt' ▸ h2, hbs, by rw [hbt, hbt']⟩
      · by_cases h2 : bt = []
        · subst h2
          rw [if_pos h1, if_neg (by simp)] at he
          rw [List.append_nil] at hbt
          have hbs' : bs = left ++ right := by rw [← hbt, ← he, String.toList_ofList]
          exact .inr ⟨route, left, right, ht, hs, hp, hbs' ▸ h1, hbt, by rw [hbs, hbs']⟩
        · rw [if_pos h1, if_pos h2] at he
          exact absurd (String.ofList_injective he) hne
    · rw [key_of_not_strips hstrips, key_of_not_strips hstrips] at he
      exact absurd he hst
  · have hmeet : ∀ {s t : String}, FirstMatch routes s route → KeptWhole routes s t →
        aerospikeKeyFromRoute s route.pattern = aerospikeKeyFromRoute t route.pattern := by
      intro s t hs hx
      obtain ⟨route', left, right, hs', ht', hp, hne, hls, hlt⟩ := hx
      obtain rfl : route = route' := Option.some.inj (hs.symm.trans hs')
      have hbs : s.toList = left ++ [] ++ right := by rw [List.append_nil]; exact hls
      rw [key_of_strips hp hbs, key_of_strips hp hlt, bodyOr, bodyOr, if_neg (by simp),
        if_pos hne, ← hls, String.ofList_toList]
    intro hx
    rcases hx with h | h
    · exact hmeet hs h
    · exact (hmeet ht h).symm

theorem placedKey_eq_iff {config : AerospikeConfig} (h : DistinctSets config) {k l : Key}
    (hkl : k ≠ l) :
    placedKey config k = placedKey config l ↔
      ∃ s t, k = .str s ∧ l = .str t ∧
        (KeptWhole config.setRoutes s t ∨ KeptWhole config.setRoutes t s) := by
  constructor
  · intro he
    rcases placedKey_cases config k with ⟨s, r, rfl, hs⟩ | hk
    · rcases placedKey_cases config l with ⟨t, r', rfl, ht⟩ | hl
      · rw [placedKey_matched hs, placedKey_matched ht] at he
        simp only [Prod.mk.injEq, Key.str.injEq, true_and] at he
        obtain rfl := h.route_eq hs.mem ht.mem he.1
        exact ⟨s, t, rfl, rfl, (stripped_eq_iff (fun e => hkl (congrArg Key.str e)) hs ht).1 he.2⟩
      · rw [placedKey_matched hs, hl] at he
        simp only [Prod.mk.injEq, true_and] at he
        exact absurd he.1 (h.notDefault r hs.mem)
    · rcases placedKey_cases config l with ⟨t, r', rfl, ht⟩ | hl
      · rw [hk, placedKey_matched ht] at he
        simp only [Prod.mk.injEq, true_and] at he
        exact absurd he.1.symm (h.notDefault r' ht.mem)
      · rw [hk, hl] at he
        simp only [Prod.mk.injEq, true_and] at he
        exact absurd he hkl
  · intro hx
    obtain ⟨s, t, rfl, rfl, hw⟩ := hx
    have hst : s ≠ t := fun e => hkl (congrArg Key.str e)
    obtain ⟨route, hs, ht⟩ : ∃ route, FirstMatch config.setRoutes s route ∧
        FirstMatch config.setRoutes t route := by
      rcases hw with ⟨route, _, _, hs, ht, _⟩ | ⟨route, _, _, ht, hs, _⟩
      · exact ⟨route, hs, ht⟩
      · exact ⟨route, hs, ht⟩
    rw [placedKey_matched hs, placedKey_matched ht, (stripped_eq_iff hst hs ht).2 hw]

/-- **Key collisions.** Two Redis keys are written under one Aerospike key
exactly when one of them is kept whole and the other strips to it. -/
theorem sinkKey_eq_iff {config : MigrationConfig} (hsets : DistinctSets config.aerospike)
    (hne : ∀ r ∈ config.aerospike.setRoutes, r.destination ≠ "") {k l : ByteArray} (hkl : k ≠ l)
    {a b : RedisRecord F} (ha : a.key = decodeKey k) (hb : b.key = decodeKey l)
    {p q : AerospikeRecord F}
    (hp : prepare config (.fromConfig config) [] a = .record p)
    (hq : prepare config (.fromConfig config) [] b = .record q) :
    sinkKey config.aerospike p = sinkKey config.aerospike q ↔
      ∃ s t, s.toByteArray = k ∧ t.toByteArray = l ∧
        (KeptWhole config.aerospike.setRoutes s t ∨ KeptWhole config.aerospike.setRoutes t s) := by
  have hreg := ConverterRegistry.fromConfig_keepsPlace (F := F) config
  rw [sinkKey_prepare hreg hne hp, sinkKey_prepare hreg hne hq, ha, hb,
    placedKey_eq_iff hsets fun e => hkl (decodeKey_inj e)]
  simp only [decodeKey_str_iff]

end

/-- A configuration with one route. -/
def oneRoute (pattern destination : String) : MigrationConfig :=
  { aerospike := { setRoutes := [{ pattern, destination }] } }

/-- A string record under a key. -/
def stringRecord (key : String) : RedisRecord String :=
  { key := decodeKey key.toByteArray, type := "string", value := .string "v".toByteArray }

theorem distinctSets_oneRoute {pattern destination : String} (h : destination ≠ "redis") :
    DistinctSets (oneRoute pattern destination).aerospike where
  pairwise := List.nodup_singleton _
  notDefault r hr := by rw [List.mem_singleton.1 hr]; exact h

/-- The keys of two records of one route, prepared. -/
theorem sinkKey_eq_iff_foo :
    ∃ p q, prepare (oneRoute "foo:*" "foos") (.fromConfig (oneRoute "foo:*" "foos")) []
        (stringRecord "foo:1") = .record p ∧
      prepare (oneRoute "foo:*" "foos") (.fromConfig (oneRoute "foo:*" "foos")) []
        (stringRecord "foo:2") = .record q ∧
      (sinkKey (oneRoute "foo:*" "foos").aerospike p =
          sinkKey (oneRoute "foo:*" "foos").aerospike q ↔
        ∃ s t, s.toByteArray = "foo:1".toByteArray ∧ t.toByteArray = "foo:2".toByteArray ∧
          (KeptWhole (oneRoute "foo:*" "foos").aerospike.setRoutes s t ∨
            KeptWhole (oneRoute "foo:*" "foos").aerospike.setRoutes t s)) :=
  ⟨_, _, rfl, rfl, sinkKey_eq_iff (a := stringRecord "foo:1") (b := stringRecord "foo:2")
    (distinctSets_oneRoute (by decide)) (fun r hr => by rw [List.mem_singleton.1 hr]; decide)
    (by decide) rfl rfl rfl rfl⟩

/-- Under `foo*` the keys `foo` and `foofoo` meet; and a route to the empty
set name falls back to the default set, where its keys meet unrouted ones. -/
theorem full_key_collides :
    (DistinctSets (oneRoute "foo*" "foos").aerospike ∧
      "foo".toByteArray ≠ "foofoo".toByteArray ∧
      ∃ p q, prepare (oneRoute "foo*" "foos") (.fromConfig (oneRoute "foo*" "foos")) []
          (stringRecord "foo") = .record p ∧
        prepare (oneRoute "foo*" "foos") (.fromConfig (oneRoute "foo*" "foos")) []
          (stringRecord "foofoo") = .record q ∧
        sinkKey (oneRoute "foo*" "foos").aerospike p =
          sinkKey (oneRoute "foo*" "foos").aerospike q) ∧
    (DistinctSets (oneRoute "a*" "").aerospike ∧ "ab".toByteArray ≠ "b".toByteArray ∧
      ∃ p q, prepare (oneRoute "a*" "") (.fromConfig (oneRoute "a*" "")) []
          (stringRecord "ab") = .record p ∧
        prepare (oneRoute "a*" "") (.fromConfig (oneRoute "a*" "")) []
          (stringRecord "b") = .record q ∧
        sinkKey (oneRoute "a*" "").aerospike p = sinkKey (oneRoute "a*" "").aerospike q) :=
  ⟨⟨distinctSets_oneRoute (by decide), by decide, _, _, rfl, rfl, rfl⟩,
    distinctSets_oneRoute (by decide), by decide, _, _, rfl, rfl, rfl⟩

end RedisToAerospike.L3
