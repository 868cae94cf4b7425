import RedisToAerospike.L3Sink.BatchVsSingle
import RedisToAerospike.L3Sink.Placement

/-!
# Two readings of one value

`SCAN` may yield a key twice. If its value stays, what differs between the
readings is the TTL that is left.

* `prepare_retimed`: the records prepared of them differ in the TTL alone.
* `act_absorbs`: so whichever is written second, one of them counts.
-/
namespace RedisToAerospike.L3
open L1 L2

section
variable {F : Type}

/-- The same record, but for the TTL. -/
def Retimed (r s : AerospikeRecord F) : Prop := ∃ ttlS, s = { r with ttlS }

theorem Retimed.written_eq [OrderedLists F] {r s : AerospikeRecord F} (h : Retimed r s) :
    written s = written r := by
  obtain ⟨ttlS, rfl⟩ := h
  rfl

/-- Of two writes of the same bins one counts: the second, or under
`CREATE_ONLY` the first. -/
theorem act_absorbs [OrderedLists F] (config : AerospikeConfig) {r s : AerospikeRecord F}
    (h : Retimed r s) (old : Option (Entry F)) :
    act config s (act config r old) = act config s old ∨
      act config s (act config r old) = act config r old := by
  have hw := h.written_eq
  cases hp : config.recordExistsPolicy with
  | update =>
    left
    rw [act_update hp, act_update hp, act_update hp, hw]
    simp only [binsOf, Option.bind_some, ← Option.or_assoc, Option.or_self]
  | replace => left; rw [act_replace hp, act_replace hp]
  | createOnly =>
    right
    cases old with
    | none =>
      have hnew : act config r none = some ⟨written r, policyTtl r⟩ := rfl
      rw [hnew, act_createOnly hp]
    | some e => rw [act_createOnly hp, act_createOnly hp]

/-! ## Conversions -/

variable [PyFloat F]

/-- A conversion that looks at the TTL last. -/
def TimesLast (f : RedisRecord F → Except Exn (AerospikeRecord F)) : Prop :=
  ∀ record ttlMs r s, f record = .ok r → f { record with ttlMs } = .ok s → Retimed r s

theorem build_retimed {ttlPolicy : TtlPolicy} {record : RedisRecord F} {ttlMs : Option Int}
    {bins : Dict String (Value F)} {policies : Dict String BinWritePolicy}
    {h : UniqueAreLists bins policies} {r s : AerospikeRecord F}
    (hr : build ttlPolicy record bins policies h = .ok r)
    (hs : build ttlPolicy { record with ttlMs } bins policies h = .ok s) : Retimed r s := by
  obtain ⟨ttlS, -, hr⟩ := Fallible.bind_ok_iff.1 hr
  obtain ⟨ttlS', -, hs⟩ := Fallible.bind_ok_iff.1 hs
  cases hr
  cases hs
  exact ⟨some ttlS', rfl⟩

omit [PyFloat F] in
/-- Whatever is computed before the TTL comes out the same. -/
theorem bind_retimed {α : Type} {x : Except Exn α} {k k' : α → Except Exn (AerospikeRecord F)}
    (h : ∀ a r s, k a = .ok r → k' a = .ok s → Retimed r s) :
    ∀ r s, (x >>= k) = .ok r → (x >>= k') = .ok s → Retimed r s := by
  intro r s hr hs
  obtain ⟨a, ha, hr⟩ := Fallible.bind_ok_iff.1 hr
  obtain ⟨a', ha', hs⟩ := Fallible.bind_ok_iff.1 hs
  rw [ha] at ha'
  cases ha'
  exact h a r s hr hs

theorem string_timesLast (valueBin : String) (ttlPolicy : TtlPolicy) :
    TimesLast (F := F) (StringConverter.convert valueBin ttlPolicy) := fun _ _ =>
  bind_retimed fun _ => bind_retimed fun _ _ _ => build_retimed

theorem list_timesLast (valueBin : String) (ttlPolicy : TtlPolicy) :
    TimesLast (F := F) (ListConverter.convert valueBin ttlPolicy) := fun _ _ =>
  bind_retimed fun _ => bind_retimed fun _ _ _ => build_retimed

theorem set_timesLast (valueBin : String) (ttlPolicy : TtlPolicy) :
    TimesLast (F := F) (SetConverter.convert valueBin ttlPolicy) := fun _ _ =>
  bind_retimed fun _ _ _ => build_retimed

theorem zset_timesLast (valueBin : String) (ttlPolicy : TtlPolicy) :
    TimesLast (F := F) (ZSetConverter.convert valueBin ttlPolicy) := fun _ _ =>
  bind_retimed fun _ _ _ => build_retimed

theorem hash_timesLast (c : HashConverter) (strategy : Option HashStrategy)
    (valueBin : Option String) : TimesLast (F := F) (c.convert · strategy valueBin) := by
  intro record ttlMs
  refine bind_retimed (x := hashValue record.value) fun raw => ?_
  cases strategy.getD c.strategy with
  | fieldBins => exact bind_retimed fun _ _ _ => build_retimed
  | mapBin => exact bind_retimed fun _ _ _ => build_retimed

theorem fromConfig_timesLast (config : MigrationConfig) (strategy : Option HashStrategy)
    (valueBin : Option String) :
    TimesLast (F := F) ((ConverterRegistry.fromConfig config).convert · strategy valueBin) := by
  intro record ttlMs r s hr hs
  simp only [ConverterRegistry.convert] at hr hs
  split at hr
  · rename_i hhash
    rw [if_pos hhash] at hs
    split at hr
    · rename_i c hget
      rw [hget] at hs
      exact hash_timesLast c strategy valueBin record ttlMs r s hr hs
    · cases hr
    · cases hr
  · rename_i hhash
    rw [if_neg hhash] at hs
    split at hr
    · rename_i c hget
      rw [hget] at hs
      have hlast : TimesLast c.convert := by
        rcases ConverterRegistry.get_foldl_insert hget with hm | hm
        · simp only [ConverterRegistry.builtins, List.mem_cons, List.not_mem_nil, or_false] at hm
          rcases hm with rfl | rfl | rfl | rfl | rfl
          · exact string_timesLast _ _
          · exact hash_timesLast _ none none
          · exact list_timesLast _ _
          · exact set_timesLast _ _
          · exact zset_timesLast _ _
        · cases hm
      exact hlast record ttlMs r s hr hs
    · cases hr

/-- Two readings that are both prepared. -/
theorem prepare_retimed {config : MigrationConfig} {record : RedisRecord F} {ttlMs : Option Int}
    {r s : AerospikeRecord F} (hr : prepare config (.fromConfig config) [] record = .record r)
    (hs : prepare config (.fromConfig config) [] { record with ttlMs } = .record s) :
    Retimed r s := by
  obtain ⟨c, hc, rfl⟩ := prepare_converted hr
  obtain ⟨d, hd, rfl⟩ := prepare_converted hs
  have hcd : Retimed c d := by
    dsimp only at hc hd
    split at hc
    · rename_i hhash
      rw [if_pos hhash] at hd
      exact fromConfig_timesLast config _ _ record ttlMs c d hc hd
    · rename_i hhash
      rw [if_neg hhash] at hd
      exact fromConfig_timesLast config _ _ record ttlMs c d hc hd
  obtain ⟨ttlS, rfl⟩ := hcd
  exact ⟨ttlS, rfl⟩

end

end RedisToAerospike.L3
