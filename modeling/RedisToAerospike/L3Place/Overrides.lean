import RedisToAerospike.L3Place.Prepare

/-!
# Overriding a converter (`converters/registry.py`, `Migrator._prepare`)

A converter is any object of a subclass of `Converter`: what counts is the type
it declares, whether it is a `HashConverter`, and what its `convert` takes.
For the type `hash` the registry asserts a `HashConverter` and hands over two
keywords.

* `dispatch_registry`, `prepareAny_registry`: on the converters of
  `ConverterRegistry` this is its `convert`, and what `prepare` makes of it.
* `overriding_iff`: an override decides what a record becomes, unless it is one
  for hashes that is no `HashConverter` or takes no keywords.
-/
namespace RedisToAerospike.L3
open L1 L2

section
variable {F : Type}

/-- An object of a subclass of `Converter`. `convertWith` is `convert` with the
two keywords, where it takes them. -/
structure AnyConverter (F : Type) where
  redisType : String
  isHashConverter : Bool
  convert : RedisRecord F → Except Exn (AerospikeRecord F)
  convertWith : Option (Option HashStrategy → Option String → RedisRecord F →
    Except Exn (AerospikeRecord F))

/-- What becomes of a call of `ConverterRegistry.convert`: an exception of its
own, or whatever the method of a converter returns or raises. -/
inductive Dispatched (F : Type) where
  | unsupported (redisType : String)
  | assertion
  | unexpectedKeyword
  | method (result : Except Exn (AerospikeRecord F))

/-- The same, with the exceptions let out. -/
def Dispatched.result : Dispatched F → Except Exn (AerospikeRecord F)
  | .unsupported t => .error (.unsupportedType t)
  | .assertion => .error .assertionError
  | .unexpectedKeyword => .error (.other "TypeError" "unexpected keyword argument")
  | .method result => result

abbrev AnyRegistry (F : Type) := Dict String (AnyConverter F)

/-- mirrors src/redis_to_aerospike/converters/registry.py:54-58 -/
def AnyRegistry.register (r : AnyRegistry F) (c : AnyConverter F) : Except Exn (AnyRegistry F) :=
  if c.redisType = "" then .error (.valueError "converter must declare a non-empty redis_type")
  else .ok (r.set c.redisType c)

/-- A sequence of `register` calls. -/
def AnyRegistry.registerAll (r : AnyRegistry F) : List (AnyConverter F) → Except Exn (AnyRegistry F)
  | [] => .ok r
  | c :: cs =>
    match r.register c with
    | .error exc => .error exc
    | .ok r' => registerAll r' cs

/-- mirrors src/redis_to_aerospike/converters/registry.py:69-82 -/
def AnyRegistry.dispatch (r : AnyRegistry F) (record : RedisRecord F)
    (hashStrategy : Option HashStrategy) (valueBin : Option String) : Dispatched F :=
  if record.type = "hash" then
    match r.get? "hash" with
    | none => .unsupported "hash"
    | some c =>
      if c.isHashConverter then
        match c.convertWith with
        | none => .unexpectedKeyword
        | some convert => .method (convert hashStrategy valueBin record)
      else .assertion
  else
    match r.get? record.type with
    | none => .unsupported record.type
    | some c => .method (c.convert record)

/-- The call in `_prepare`.
mirrors src/redis_to_aerospike/migrator.py:162-170 -/
def prepareDispatch (config : MigrationConfig) (r : AnyRegistry F) (record : RedisRecord F) :
    Dispatched F :=
  let resolution := resolve config.aerospike.setRoutes config.aerospike.setName record.key
  if record.type = "hash" then
    r.dispatch record (some (effectiveHash config resolution)) (effectiveValueBin config resolution)
  else r.dispatch record none none

/-- `_prepare` on such a registry.
mirrors src/redis_to_aerospike/migrator.py:145-185 -/
def prepareAny (config : MigrationConfig) (r : AnyRegistry F) (transforms : List (Transform F))
    (record : RedisRecord F) : Prepared (AerospikeRecord F) :=
  prepareConverted config transforms record (prepareDispatch config r record).result

/-! ## The built-in converters -/

variable [PyFloat F]

def AnyConverter.ofConverter : Converter F → AnyConverter F
  | .hash c =>
    { redisType := "hash"
      isHashConverter := true
      convert := fun record => c.convert record none none
      convertWith := some fun hashStrategy valueBin record => c.convert record hashStrategy valueBin }
  | .other t convert =>
    { redisType := t, isHashConverter := false, convert, convertWith := none }

/-- What `__init__` registers. -/
def builtinConverters (valueBin : String) (hashStrategy : HashStrategy) (ttlPolicy : TtlPolicy) :
    List (AnyConverter F) :=
  (ConverterRegistry.builtins valueBin hashStrategy ttlPolicy).map .ofConverter

end

/-! ## The registry after a history -/

section
variable {F : Type}

/-- The registry of a history of `register` calls, none of them refused. -/
def registered (history : List (AnyConverter F)) : AnyRegistry F :=
  history.foldl (fun r c => r.set c.redisType c) Dict.empty

/-- The last converter registered for a type. -/
def lastFor (history : List (AnyConverter F)) (redisType : String) : Option (AnyConverter F) :=
  (history.filter fun c => c.redisType = redisType).getLast?

theorem registerAll_eq {cs : List (AnyConverter F)} (h : ∀ c ∈ cs, c.redisType ≠ "") :
    ∀ r : AnyRegistry F, r.registerAll cs = .ok (cs.foldl (fun r c => r.set c.redisType c) r) := by
  induction cs with
  | nil => exact fun _ => rfl
  | cons c cs ih =>
    intro r
    have hc : r.register c = .ok (r.set c.redisType c) := if_neg (h c List.mem_cons_self)
    rw [AnyRegistry.registerAll, hc]
    exact ih (fun c' hc' => h c' (List.mem_cons_of_mem _ hc')) _

theorem get?_registered (history : List (AnyConverter F)) (t : String) :
    (registered history).get? t = lastFor history t := by
  have hpairs : registered history = Dict.ofPairs (history.map fun c => (c.redisType, c)) := by
    rw [registered, Dict.ofPairs, List.foldl_map]
  rw [hpairs, Dict.get?_ofPairs_getLast?, List.filter_map, List.getLast?_map, Option.map_map,
    lastFor]
  simp [Function.comp_def]

/-- The `convert` method of a converter, with the keywords it is to be handed:
overrides are for hashes, and for those that take them. -/
def AnyConverter.convertRecord (c : AnyConverter F) (record : RedisRecord F)
    (hashStrategy : Option HashStrategy) (valueBin : Option String) :
    Except Exn (AerospikeRecord F) :=
  if record.type = "hash" then
    match c.convertWith with
    | some convert => convert hashStrategy valueBin record
    | none => c.convert record
  else c.convert record

/-- A hash converter as the registry wants one. -/
def AnyConverter.TakesHashes (c : AnyConverter F) : Prop :=
  c.isHashConverter = true ∧ c.convertWith ≠ none

/-- What is dispatched for a type that has a converter. -/
theorem dispatch_lastFor {history : List (AnyConverter F)} {record : RedisRecord F}
    {c : AnyConverter F} (h : lastFor history record.type = some c)
    (hashStrategy : Option HashStrategy) (valueBin : Option String) :
    (registered history).dispatch record hashStrategy valueBin =
        .method (c.convertRecord record hashStrategy valueBin) ↔
      (record.type = "hash" → c.TakesHashes) := by
  unfold AnyRegistry.dispatch AnyConverter.convertRecord AnyConverter.TakesHashes
  by_cases hhash : record.type = "hash"
  · rw [hhash] at h
    rw [if_pos hhash, if_pos hhash, get?_registered, h]
    dsimp only
    cases c.isHashConverter with
    | false => simp [hhash]
    | true => cases c.convertWith <;> simp [hhash]
  · rw [if_neg hhash, if_neg hhash, get?_registered, h]
    simp [hhash]

theorem dispatch_unsupported {history : List (AnyConverter F)} {record : RedisRecord F}
    (hashStrategy : Option HashStrategy) (valueBin : Option String) :
    (∃ t, (registered history).dispatch record hashStrategy valueBin = .unsupported t) ↔
      lastFor history record.type = none := by
  unfold AnyRegistry.dispatch
  by_cases hhash : record.type = "hash"
  · rw [if_pos hhash, get?_registered, hhash]
    cases lastFor history "hash" with
    | none => simp
    | some c =>
      dsimp only
      cases c.isHashConverter with
      | false => simp
      | true => cases c.convertWith <;> simp
  · rw [if_neg hhash, get?_registered]
    cases lastFor history record.type <;> simp

/-- `UnsupportedTypeError` is raised for a type without a converter, or by the
converter of the type. -/
theorem result_unsupported_iff {history : List (AnyConverter F)} {record : RedisRecord F}
    {hashStrategy : Option HashStrategy} {valueBin : Option String}
    (htakes : ∀ c, lastFor history record.type = some c → record.type = "hash" → c.TakesHashes)
    (t : String) :
    ((registered history).dispatch record hashStrategy valueBin).result =
        .error (.unsupportedType t) ↔
      (lastFor history record.type = none ∧ t = record.type) ∨
        ∃ c, lastFor history record.type = some c ∧
          c.convertRecord record hashStrategy valueBin = .error (.unsupportedType t) := by
  cases hlast : lastFor history record.type with
  | some c =>
    rw [(dispatch_lastFor hlast hashStrategy valueBin).2 (htakes c hlast)]
    simp [Dispatched.result]
  | none =>
    obtain ⟨t', hdispatch⟩ := (dispatch_unsupported hashStrategy valueBin).2 hlast
    have htype : t' = record.type := by
      unfold AnyRegistry.dispatch at hdispatch
      by_cases hhash : record.type = "hash"
      · rw [if_pos hhash, get?_registered, ← hhash, hlast] at hdispatch
        cases hdispatch
        rfl
      · rw [if_neg hhash, get?_registered, hlast] at hdispatch
        cases hdispatch
        rfl
    rw [hdispatch, htype]
    simp [Dispatched.result, eq_comm]

/-- The call of `_prepare` is one under the effective overrides. -/
theorem prepareDispatch_iff {history : List (AnyConverter F)} {record : RedisRecord F}
    {c : AnyConverter F} (h : lastFor history record.type = some c) (config : MigrationConfig) :
    let resolution := resolve config.aerospike.setRoutes config.aerospike.setName record.key
    prepareDispatch config (registered history) record =
        .method (c.convertRecord record (some (effectiveHash config resolution))
          (effectiveValueBin config resolution)) ↔
      (record.type = "hash" → c.TakesHashes) := by
  dsimp only
  unfold prepareDispatch
  by_cases hhash : record.type = "hash"
  · rw [if_pos hhash]
    exact dispatch_lastFor h _ _
  · have hnone : c.convertRecord record (some (effectiveHash config (resolve
        config.aerospike.setRoutes config.aerospike.setName record.key))) (effectiveValueBin config
        (resolve config.aerospike.setRoutes config.aerospike.setName record.key)) =
        c.convertRecord record none none := by
      rw [AnyConverter.convertRecord, AnyConverter.convertRecord, if_neg hhash, if_neg hhash]
    rw [if_neg hhash, hnone]
    exact dispatch_lastFor h none none

/-- The registry `r` goes by the last converter that was registered, called by
itself and from `_prepare`. -/
structure GoesByLast (r : AnyRegistry F) (history : List (AnyConverter F))
    (record : RedisRecord F) : Prop where
  result : ∀ c, lastFor history record.type = some c → ∀ hashStrategy valueBin,
    r.dispatch record hashStrategy valueBin =
      .method (c.convertRecord record hashStrategy valueBin)
  prepared : ∀ c, lastFor history record.type = some c → ∀ config : MigrationConfig,
    let resolution := resolve config.aerospike.setRoutes config.aerospike.setName record.key
    prepareDispatch config r record =
      .method (c.convertRecord record (some (effectiveHash config resolution))
        (effectiveValueBin config resolution))
  outcome : ∀ c, lastFor history record.type = some c → ∀ (config : MigrationConfig) transforms,
    let resolution := resolve config.aerospike.setRoutes config.aerospike.setName record.key
    prepareAny config r transforms record =
      prepareConverted config transforms record
        (c.convertRecord record (some (effectiveHash config resolution))
          (effectiveValueBin config resolution))
  unsupported : ∀ hashStrategy valueBin,
    (∃ t, r.dispatch record hashStrategy valueBin = .unsupported t) ↔
      lastFor history record.type = none
  raised : ∀ hashStrategy valueBin t,
    (r.dispatch record hashStrategy valueBin).result = .error (.unsupportedType t) ↔
      (lastFor history record.type = none ∧ t = record.type) ∨
        ∃ c, lastFor history record.type = some c ∧
          c.convertRecord record hashStrategy valueBin = .error (.unsupportedType t)

theorem goesByLast_iff (history : List (AnyConverter F)) (record : RedisRecord F) :
    GoesByLast (registered history) history record ↔
      (record.type = "hash" → ∀ c, lastFor history "hash" = some c → c.TakesHashes) := by
  constructor
  · intro h hhash c hc
    rw [← hhash] at hc
    exact (dispatch_lastFor hc none none).1 (h.result c hc none none) hhash
  · intro h
    have htakes : ∀ c, lastFor history record.type = some c →
        record.type = "hash" → c.TakesHashes := fun c hc hhash => h hhash c (hhash ▸ hc)
    have hprepared := fun c hc config => (prepareDispatch_iff hc config).2 (htakes c hc)
    refine ⟨fun c hc hs vb => (dispatch_lastFor hc hs vb).2 (htakes c hc), hprepared,
      fun c hc config transforms => ?_, dispatch_unsupported,
      fun _ _ => result_unsupported_iff htakes⟩
    rw [prepareAny, hprepared c hc config]
    rfl

end

section
variable {F : Type} [PyFloat F]

theorem builtinConverters_named (valueBin : String) (hashStrategy : HashStrategy)
    (ttlPolicy : TtlPolicy) :
    ∀ c ∈ (builtinConverters valueBin hashStrategy ttlPolicy : List (AnyConverter F)),
      c.redisType ≠ "" := by
  simp [builtinConverters, ConverterRegistry.builtins, AnyConverter.ofConverter]

/-- **Overrides.** After any sequence of `register` calls a record becomes what
the last converter for its type makes of it exactly when it is no hash, or that
converter is a hash converter that takes the keywords. -/
theorem overriding_iff (valueBin : String) (hashStrategy : HashStrategy) (ttlPolicy : TtlPolicy)
    {cs : List (AnyConverter F)} (hnamed : ∀ c ∈ cs, c.redisType ≠ "") (record : RedisRecord F) :
    let history := builtinConverters valueBin hashStrategy ttlPolicy ++ cs
    ∃ r, AnyRegistry.registerAll Dict.empty history = .ok r ∧
      (GoesByLast r history record ↔
        (record.type = "hash" → ∀ c, lastFor history "hash" = some c → c.TakesHashes)) := by
  intro history
  have hall : ∀ c ∈ history, c.redisType ≠ "" := fun c hc =>
    (List.mem_append.1 hc).elim (builtinConverters_named _ _ _ c) (hnamed c)
  exact ⟨registered history, registerAll_eq hall _, goesByLast_iff history record⟩

/-! ## The registry of the built-in converters -/

theorem get?_converters (cs : List (Converter F)) :
    ∀ {d : AnyRegistry F} {r : ConverterRegistry F},
      (∀ t, d.get? t = (r.converters.get? t).map .ofConverter) →
      ∀ t, ((cs.map AnyConverter.ofConverter).foldl (fun r c => r.set c.redisType c) d).get? t =
        ((cs.foldl ConverterRegistry.insert r).converters.get? t).map .ofConverter := by
  induction cs with
  | nil => exact fun h => h
  | cons c cs ih =>
    intro d r h
    refine ih fun t => ?_
    have htype : (AnyConverter.ofConverter c).redisType = c.redisType := by cases c <;> rfl
    rw [ConverterRegistry.insert, Dict.get?_set, Dict.get?_set, htype]
    split
    · rfl
    · exact h t

/-- On built-in converters `dispatch` is `ConverterRegistry.convert`. -/
theorem dispatch_registry (cs : List (Converter F)) (record : RedisRecord F)
    (hashStrategy : Option HashStrategy) (valueBin : Option String) :
    ((registered (cs.map AnyConverter.ofConverter)).dispatch record hashStrategy valueBin).result =
      (cs.foldl ConverterRegistry.insert ⟨Dict.empty, nofun⟩).convert record hashStrategy
        valueBin := by
  have hempty : ∀ t c, (Dict.empty : Dict String (Converter F)).get? t = some c →
      c.redisType = t := by
    intro _ _ h
    cases h
  have hget := get?_converters cs (d := Dict.empty) (r := ⟨Dict.empty, hempty⟩) fun _ => rfl
  unfold AnyRegistry.dispatch ConverterRegistry.convert ConverterRegistry.get
  rw [registered]
  simp only [hget]
  by_cases hhash : record.type = "hash"
  · rw [if_pos hhash, if_pos hhash]
    cases (cs.foldl ConverterRegistry.insert ⟨Dict.empty, hempty⟩).converters.get? "hash" with
    | none => rfl
    | some c => cases c <;> rfl
  · rw [if_neg hhash, if_neg hhash]
    cases (cs.foldl ConverterRegistry.insert ⟨Dict.empty, hempty⟩).converters.get? record.type with
    | none => rfl
    | some c => cases c <;> rfl

/-- And `prepareAny` is `prepare`. -/
theorem prepareAny_registry (cs : List (Converter F)) (config : MigrationConfig)
    (transforms : List (Transform F)) (record : RedisRecord F) :
    prepareAny config (registered (cs.map AnyConverter.ofConverter)) transforms record =
      prepare config (cs.foldl ConverterRegistry.insert ⟨Dict.empty, nofun⟩) transforms record := by
  refine congrArg (prepareConverted config transforms record) ?_
  unfold prepareDispatch conversion
  by_cases hhash : record.type = "hash"
  · exact (congrArg Dispatched.result (if_pos hhash)).trans
      ((dispatch_registry cs record _ _).trans (if_pos hhash).symm)
  · exact (congrArg Dispatched.result (if_neg hhash)).trans
      ((dispatch_registry cs record _ _).trans (if_neg hhash).symm)

end

/-- A converter of its own for a type: one bin that names the type. -/
def labelConverter (redisType : String) : AnyConverter String where
  redisType := redisType
  isHashConverter := false
  convert record := .ok
    { key := record.key, bins := singleBin "type" (.str redisType), ttlS := none
      unique_isList := uniqueAreLists_empty _ }
  convertWith := none

/-- A string converter is replaced as the docstring says. -/
theorem string_overridden :
    ∃ r, AnyRegistry.registerAll Dict.empty
        (builtinConverters "value" .mapBin {} ++ [labelConverter "string"]) = .ok r ∧
      GoesByLast r (builtinConverters "value" .mapBin {} ++ [labelConverter "string"])
        { key := .str "k", type := "string", value := .none } := by
  have hnamed : ∀ c ∈ [labelConverter "string"], c.redisType ≠ "" := fun c hc => by
    rw [List.mem_singleton.1 hc]
    decide
  obtain ⟨r, hr, h⟩ := overriding_iff "value" .mapBin {} hnamed
    { key := .str "k", type := "string", value := .none }
  exact ⟨r, hr, h.2 nofun⟩

/-- A hash converter that is not a `HashConverter` is registered, and every
hash raises `AssertionError`. -/
theorem hash_override_asserts :
    let record : RedisRecord String := { key := .str "k", type := "hash", value := .none }
    let history := builtinConverters "value" .mapBin {} ++ [labelConverter "hash"]
    lastFor history "hash" = some (labelConverter "hash") ∧
      (∃ a, (labelConverter "hash").convert record = .ok a) ∧
      ∃ r, AnyRegistry.registerAll Dict.empty history = .ok r ∧
        r.dispatch record none none = .assertion ∧
        prepareDispatch {} r record = .assertion ∧ ¬ GoesByLast r history record := by
  intro record history
  have hlast : lastFor history "hash" = some (labelConverter "hash") := rfl
  refine ⟨hlast, ⟨_, rfl⟩, registered history, rfl, rfl, rfl, fun h => ?_⟩
  obtain ⟨hhash, -⟩ := (goesByLast_iff history record).1 h rfl _ hlast
  cases hhash

end RedisToAerospike.L3
