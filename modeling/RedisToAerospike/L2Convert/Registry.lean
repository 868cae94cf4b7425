import RedisToAerospike.L2Convert.HashConverter

/-!
# The converter registry (`converters/registry.py`)

A registry maps a Redis type to the converter that declared it. The five
built-in converters are registered first; `register` adds or overrides.

* `fromConfig_keepsPlace`: none of its converters renames a record or puts
  it in a set.
-/
namespace RedisToAerospike.L2
open L1

section
variable {F : Type} [PyFloat F]

/-- A converter: a `HashConverter`, which takes the overrides of a route, or
any other function of the record. -/
inductive Converter (F : Type) where
  | hash (c : HashConverter)
  | other (redisType : String) (convert : RedisRecord F → Except Exn (AerospikeRecord F))

namespace Converter

omit [PyFloat F] in
def redisType : Converter F → String
  | .hash _ => "hash"
  | .other t _ => t

def convert : Converter F → RedisRecord F → Except Exn (AerospikeRecord F)
  | .hash c, record => c.convert record none none
  | .other _ f, record => f record

end Converter

/-- mirrors src/redis_to_aerospike/converters/registry.py:26-41; every
converter sits under the type it declares. -/
structure ConverterRegistry (F : Type) where
  converters : Dict String (Converter F)
  keyed : ∀ t c, converters.get? t = some c → c.redisType = t

namespace ConverterRegistry

omit [PyFloat F] in
theorem keyed_set {d : Dict String (Converter F)} {c : Converter F}
    (h : ∀ t c', d.get? t = some c' → c'.redisType = t) :
    ∀ t c', (d.set c.redisType c).get? t = some c' → c'.redisType = t := by
  intro t c' hget
  rw [Dict.get?_set] at hget
  split at hget
  · rename_i e; cases hget; exact e
  · exact h t c' hget

/-- `self._converters[converter.redis_type] = converter` -/
def insert (r : ConverterRegistry F) (c : Converter F) : ConverterRegistry F :=
  ⟨r.converters.set c.redisType c, keyed_set r.keyed⟩

/-- mirrors src/redis_to_aerospike/converters/registry.py:54-58 -/
def register (r : ConverterRegistry F) (c : Converter F) : Except Exn (ConverterRegistry F) :=
  if c.redisType = "" then .error (.valueError "converter must declare a non-empty redis_type")
  else .ok (r.insert c)

/-- The built-in converters, in the order of their registration. -/
def builtins (valueBin : String) (hashStrategy : HashStrategy) (ttlPolicy : TtlPolicy) :
    List (Converter F) :=
  [.other "string" (StringConverter.convert valueBin ttlPolicy),
   .hash ⟨valueBin, hashStrategy, ttlPolicy⟩,
   .other "list" (ListConverter.convert valueBin ttlPolicy),
   .other "set" (SetConverter.convert valueBin ttlPolicy),
   .other "zset" (ZSetConverter.convert valueBin ttlPolicy)]

/-- mirrors src/redis_to_aerospike/converters/registry.py:27-41 -/
def new (valueBin : String) (hashStrategy : HashStrategy) (ttlPolicy : TtlPolicy) :
    ConverterRegistry F :=
  (builtins valueBin hashStrategy ttlPolicy).foldl insert ⟨Dict.empty, nofun⟩

/-- mirrors src/redis_to_aerospike/converters/registry.py:43-52 -/
def fromConfig (config : MigrationConfig) : ConverterRegistry F :=
  new config.aerospike.valueBin config.hashStrategy
    ⟨config.ttlOverflowPolicy, config.aerospike.maxTtl⟩

/-- mirrors src/redis_to_aerospike/converters/registry.py:60-64 -/
def get (r : ConverterRegistry F) (redisType : String) : Except Exn (Converter F) :=
  match r.converters.get? redisType with
  | some c => .ok c
  | none => .error (.unsupportedType redisType)

/-- mirrors src/redis_to_aerospike/converters/registry.py:69-82 -/
def convert (r : ConverterRegistry F) (record : RedisRecord F)
    (hashStrategy : Option HashStrategy) (valueBin : Option String) :
    Except Exn (AerospikeRecord F) :=
  if record.type = "hash" then
    match r.get "hash" with
    | .ok (.hash hc) => hc.convert record hashStrategy valueBin
    | .ok (.other _ _) => .error .assertionError
    | .error exc => .error exc
  else
    match r.get record.type with
    | .ok c => c.convert record
    | .error exc => .error exc

omit [PyFloat F] in
theorem get_insert (r : ConverterRegistry F) (c : Converter F) (t : String) :
    (r.insert c).get t = if c.redisType = t then .ok c else r.get t := by
  rw [get, get, insert, Dict.get?_set]
  by_cases h : c.redisType = t
  · rw [if_pos h, if_pos h]
  · rw [if_neg h, if_neg h]

omit [PyFloat F] in
/-- A registered converter is one of the list or was there before. -/
theorem get_foldl_insert {cs : List (Converter F)} {r : ConverterRegistry F} {t : String}
    {c : Converter F} (h : (cs.foldl insert r).get t = .ok c) : c ∈ cs ∨ r.get t = .ok c := by
  induction cs generalizing r with
  | nil => exact .inr h
  | cons d cs ih =>
    rcases ih h with hm | hr
    · exact .inl (List.mem_cons_of_mem _ hm)
    · rw [get_insert] at hr
      split at hr
      · cases hr; exact .inl List.mem_cons_self
      · exact .inr hr

/-! ## Converters leave the place of a record alone -/

/-- The result goes by the key of the input, and to no set of its own. -/
def KeepsPlace (f : RedisRecord F → Except Exn (AerospikeRecord F)) : Prop :=
  ∀ record r, f record = .ok r → r.key = record.key ∧ r.setName = none

theorem build_keepsPlace {ttlPolicy : TtlPolicy} {record : RedisRecord F}
    {bins : Dict String (Value F)} {policies : Dict String BinWritePolicy}
    {h : UniqueAreLists bins policies} {r : AerospikeRecord F}
    (hb : build ttlPolicy record bins policies h = .ok r) :
    r.key = record.key ∧ r.setName = none := by
  unfold build at hb
  cases ht : ttlPolicy.toTtl F record.ttlMs with
  | error exc => rw [ht] at hb; cases hb
  | ok ttlS => rw [ht] at hb; cases hb; exact ⟨rfl, rfl⟩

omit [PyFloat F] in
/-- A conversion that ends in `build`, whatever it computes before. -/
theorem bind_keepsPlace {α : Type} {x : Except Exn α} {k : α → Except Exn (AerospikeRecord F)}
    {record : RedisRecord F}
    (hk : ∀ a r, k a = .ok r → r.key = record.key ∧ r.setName = none) :
    ∀ r, (x >>= k) = .ok r → r.key = record.key ∧ r.setName = none := by
  intro r hr
  cases x with
  | error exc => cases hr
  | ok a => exact hk a r hr

theorem string_keepsPlace (valueBin : String) (ttlPolicy : TtlPolicy) :
    KeepsPlace (F := F) (StringConverter.convert valueBin ttlPolicy) := fun _ =>
  bind_keepsPlace fun _ => bind_keepsPlace fun _ _ => build_keepsPlace

theorem list_keepsPlace (valueBin : String) (ttlPolicy : TtlPolicy) :
    KeepsPlace (F := F) (ListConverter.convert valueBin ttlPolicy) := fun _ =>
  bind_keepsPlace fun _ => bind_keepsPlace fun _ _ => build_keepsPlace

theorem set_keepsPlace (valueBin : String) (ttlPolicy : TtlPolicy) :
    KeepsPlace (F := F) (SetConverter.convert valueBin ttlPolicy) := fun _ =>
  bind_keepsPlace fun _ _ => build_keepsPlace

theorem zset_keepsPlace (valueBin : String) (ttlPolicy : TtlPolicy) :
    KeepsPlace (F := F) (ZSetConverter.convert valueBin ttlPolicy) := fun _ =>
  bind_keepsPlace fun _ _ => build_keepsPlace

theorem hash_keepsPlace (c : HashConverter) (strategy : Option HashStrategy)
    (valueBin : Option String) : KeepsPlace (F := F) (c.convert · strategy valueBin) := by
  intro record
  refine bind_keepsPlace (x := hashValue record.value) fun raw => ?_
  cases strategy.getD c.strategy with
  | fieldBins => exact bind_keepsPlace fun _ _ => build_keepsPlace
  | mapBin => exact bind_keepsPlace fun _ _ => build_keepsPlace

/-- Every conversion of the registry, under any overrides. -/
def AllKeepPlace (reg : ConverterRegistry F) : Prop :=
  ∀ hashStrategy valueBin, KeepsPlace (reg.convert · hashStrategy valueBin)

theorem builtins_keepsPlace {valueBin : String} {hashStrategy : HashStrategy}
    {ttlPolicy : TtlPolicy} {c : Converter F} (h : c ∈ builtins valueBin hashStrategy ttlPolicy) :
    KeepsPlace c.convert := by
  simp only [builtins, List.mem_cons, List.not_mem_nil, or_false] at h
  rcases h with rfl | rfl | rfl | rfl | rfl
  · exact string_keepsPlace _ _
  · exact hash_keepsPlace _ none none
  · exact list_keepsPlace _ _
  · exact set_keepsPlace _ _
  · exact zset_keepsPlace _ _

theorem fromConfig_keepsPlace (config : MigrationConfig) :
    (fromConfig config : ConverterRegistry F).AllKeepPlace := by
  intro hashStrategy valueBin record r hr
  simp only [convert] at hr
  split at hr
  · split at hr
    · exact hash_keepsPlace _ hashStrategy valueBin record r hr
    · cases hr
    · cases hr
  · split at hr
    · rename_i c hc
      rcases get_foldl_insert hc with hm | hm
      · exact builtins_keepsPlace hm record r hr
      · cases hm
    · cases hr

end ConverterRegistry

end

end RedisToAerospike.L2
