import RedisToAerospike.L2Convert.Failures
import RedisToAerospike.L2Read.RedisServer
import RedisToAerospike.L3Place.Prepare

/-!
# What is skipped and what fails

`_prepare` counts a record as skipped on an `UnsupportedTypeError` and as
failed on any other exception.

* `fromConfig_failsWith`: the built-in converters raise no
  `UnsupportedTypeError` of their own.
* `prepare_supported`, `prepare_unsupported`: so what is skipped are the
  records of other types.
-/
namespace RedisToAerospike.L3
open L1 L2 Fallible

/-- An exception that a record is not skipped for. -/
def Failure (exc : Exn) : Prop := ∀ t, exc ≠ .unsupportedType t

section
variable {F : Type} [PyFloat F]

omit [PyFloat F] in
theorem misshapen_failsWith {α : Type} : FailsWith Failure (misshapen : Except Exn α) :=
  .error fun _ he => by cases he

theorem toTtl_failsWith (p : TtlPolicy) (ttlMs : Option Int) :
    FailsWith Failure (p.toTtl F ttlMs) := by
  cases ttlMs with
  | none => exact .ok _
  | some ms =>
    by_cases hf : BeyondFloat F ms
    · rw [TtlPolicy.toTtl_beyond F hf]
      exact .error fun _ he => by cases he
    · by_cases h : p.Overflows F ms
      · rw [TtlPolicy.toTtl_overflow F hf h, TtlPolicy.handleOverflow]
        cases p.mode with
        | reject => exact .error fun _ he => by cases he
        | clamp => exact .ok _
        | neverExpire => exact .ok _
      · rw [TtlPolicy.toTtl_within F hf h]
        exact .ok _

theorem build_failsWith {ttlPolicy : TtlPolicy} {record : RedisRecord F}
    {bins : Dict String (Value F)} {policies : Dict String BinWritePolicy}
    (h : UniqueAreLists bins policies) :
    FailsWith Failure (build ttlPolicy record bins policies h) :=
  (toTtl_failsWith ttlPolicy record.ttlMs).bind fun _ => .ok _

theorem coerceText_failsWith (text : String) :
    FailsWith Failure (coerceText text : Except Exn (Value F)) := by
  unfold coerceText pyInt
  split
  · cases Decimal.parseInt text.toList with
    | none => exact .error fun _ he => by cases he
    | some n =>
      dsimp only
      split
      · exact .ok _
      · exact .ok _
  · split
    · dsimp only
      split
      · exact .ok _
      · exact .ok _
    · exact .ok _

theorem coerceScalar_failsWith (v : Value F) : FailsWith Failure (coerceScalar v) := by
  unfold coerceScalar
  split
  · split
    · exact .ok _
    · exact coerceText_failsWith _
  · exact coerceText_failsWith _
  · exact .ok _

/-! ## The five converters -/

theorem string_failsWith (valueBin : String) (ttlPolicy : TtlPolicy) (record : RedisRecord F) :
    FailsWith Failure (StringConverter.convert valueBin ttlPolicy record) := by
  refine FailsWith.bind ?_ fun raw => (coerceScalar_failsWith raw).bind fun _ => build_failsWith _
  unfold stringValue
  split
  · exact .ok _
  · exact .ok _
  · exact misshapen_failsWith

theorem list_failsWith (valueBin : String) (ttlPolicy : TtlPolicy) (record : RedisRecord F) :
    FailsWith Failure (ListConverter.convert valueBin ttlPolicy record) := by
  refine FailsWith.bind ?_ fun raw =>
    (FailsWith.mapM fun item _ => coerceScalar_failsWith _).bind fun _ => build_failsWith _
  unfold listValue
  split
  · exact .ok _
  · exact .ok _
  · exact misshapen_failsWith

theorem set_failsWith (valueBin : String) (ttlPolicy : TtlPolicy) (record : RedisRecord F) :
    FailsWith Failure (SetConverter.convert valueBin ttlPolicy record) := by
  refine FailsWith.bind ?_ fun raw => build_failsWith _
  unfold setValue
  split
  · exact .ok _
  · exact .ok _
  · exact misshapen_failsWith

theorem zset_failsWith (valueBin : String) (ttlPolicy : TtlPolicy) (record : RedisRecord F) :
    FailsWith Failure (ZSetConverter.convert valueBin ttlPolicy record) := by
  refine FailsWith.bind ?_ fun raw => build_failsWith _
  unfold zsetValue
  split
  · exact .ok _
  · exact .ok _
  · exact misshapen_failsWith

theorem mapPair_failsWith (p : ByteArray × ByteArray) :
    FailsWith Failure (HashConverter.mapPair p : Except Exn (String × Value F)) := by
  have hvalue := coerceScalar_failsWith (F := F) (.bytes p.2)
  unfold HashConverter.mapPair
  cases h : coerceScalar (F := F) (.bytes p.2) with
  | ok v => exact .ok _
  | error exc => exact .error (hvalue exc h)

theorem hash_failsWith (c : HashConverter) (record : RedisRecord F)
    (strategy : Option HashStrategy) (valueBin : Option String) :
    FailsWith Failure (c.convert record strategy valueBin) := by
  refine FailsWith.bind ?_ fun raw => ?_
  · unfold hashValue
    split
    · exact .ok _
    · exact .ok _
    · exact misshapen_failsWith
  · cases strategy.getD c.strategy with
    | mapBin =>
      exact ((FailsWith.mapM fun p _ => mapPair_failsWith p).map _).bind fun _ => build_failsWith _
    | fieldBins =>
      refine ((FailsWith.mapM fun p _ => ?_).map _).bind fun _ => build_failsWith _
      unfold HashConverter.binPair
      dsimp only
      split
      · exact .error fun _ he => by cases he
      · exact mapPair_failsWith p

/-- A record of a supported type. -/
theorem fromConfig_failsWith (config : MigrationConfig) {record : RedisRecord F}
    (ht : record.type ∈ supportedTypes) (strategy : Option HashStrategy)
    (valueBin : Option String) :
    FailsWith Failure ((ConverterRegistry.fromConfig config).convert record strategy valueBin) := by
  unfold ConverterRegistry.fromConfig
  rw [convert_new]
  simp only [supportedTypes, List.mem_cons, List.not_mem_nil, or_false] at ht
  by_cases hstring : record.type = "string"
  · rw [if_pos hstring]; exact string_failsWith _ _ _
  rw [if_neg hstring]
  by_cases hhash : record.type = "hash"
  · rw [if_pos hhash]; exact hash_failsWith _ _ _ _
  rw [if_neg hhash]
  by_cases hlist : record.type = "list"
  · rw [if_pos hlist]; exact list_failsWith _ _ _
  rw [if_neg hlist]
  by_cases hset : record.type = "set"
  · rw [if_pos hset]; exact set_failsWith _ _ _
  rw [if_neg hset]
  by_cases hzset : record.type = "zset"
  · rw [if_pos hzset]; exact zset_failsWith _ _ _
  · exact absurd ht (by simp [hstring, hhash, hlist, hset, hzset])

/-! ## `_prepare` -/

/-- Without transforms a record of a supported type is handed on or fails. -/
theorem prepare_supported {config : MigrationConfig} {record : RedisRecord F}
    (ht : record.type ∈ supportedTypes) :
    (∃ r, prepare config (.fromConfig config) [] record = .record r) ∨
      ∃ exc, Failure exc ∧
        prepare config (.fromConfig config) [] record = .failed ("convert:" ++ exc.name) := by
  have hfails := fun strategy valueBin =>
    fromConfig_failsWith (F := F) config ht strategy valueBin
  unfold prepare prepareConverted
  split
  · rename_i t hc
    exfalso
    unfold conversion at hc
    dsimp only at hc
    split at hc
    · exact hfails _ _ _ hc t rfl
    · exact hfails _ _ _ hc t rfl
  · rename_i exc hne hc
    exact .inr ⟨exc, fun t he => hne t he, rfl⟩
  · exact .inl ⟨_, rfl⟩

theorem prepare_unsupported {config : MigrationConfig} {record : RedisRecord F}
    (ht : record.type ∉ supportedTypes) :
    prepare config (.fromConfig config) [] record = .skipped record.type := by
  have hraise : (ConverterRegistry.fromConfig config).convert record none none =
      .error (.unsupportedType record.type) := by
    unfold ConverterRegistry.fromConfig
    rw [convert_new]
    simp only [supportedTypes, List.mem_cons, List.not_mem_nil, or_false, not_or] at ht
    simp [ht]
  have hhash : record.type ≠ "hash" := by
    intro he
    rw [he] at ht
    exact ht (by decide)
  have hconversion : conversion config (.fromConfig config) record =
      .error (.unsupportedType record.type) := (if_neg hhash).trans hraise
  rw [prepare, hconversion]
  rfl

end

end RedisToAerospike.L3
