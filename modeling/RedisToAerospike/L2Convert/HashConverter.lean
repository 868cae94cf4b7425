import RedisToAerospike.Core.Fallible
import RedisToAerospike.L2Convert.Converters
import Mathlib.Data.Fintype.Card

/-!
# Hashes (`converters/hash_converter.py`)

A hash becomes one map in a bin, or one bin for each field. Field names are
decoded with replacement characters, so the decoding is not injective.

* `hash_fields_kept`: the bins of a converted hash keep every field exactly
  when the decoded names are distinct and no value is an overlong integer
  numeral; two names that meet are not both UTF-8.
* `fields_collapse`: a hash of two fields that becomes a map of one entry.
-/
namespace RedisToAerospike.L2
open L1

/-- mirrors src/redis_to_aerospike/converters/hash_converter.py:19-20 -/
def MAX_BIN_NAME_BYTES : Nat := 15

/-- mirrors src/redis_to_aerospike/converters/hash_converter.py:23-26 -/
def decodeField (field : ByteArray) : String := Utf8.decodeReplace field

/-- mirrors src/redis_to_aerospike/converters/hash_converter.py:29-39 -/
structure HashConverter where
  valueBin : String := "value"
  strategy : HashStrategy := .mapBin
  ttlPolicy : TtlPolicy := {}
  deriving DecidableEq

namespace HashConverter

section
variable {F : Type} [PyFloat F]

/-- One field of the map. -/
def mapPair (p : ByteArray × ByteArray) : Except Exn (String × Value F) :=
  match coerceScalar (.bytes p.2) with
  | .ok v => .ok (decodeField p.1, v)
  | .error exc => .error exc

/-- mirrors src/redis_to_aerospike/converters/hash_converter.py:55-56 -/
def toMap (raw : Dict ByteArray ByteArray) : Except Exn (Dict String (Value F)) :=
  Dict.ofPairs <$> raw.entries.mapM mapPair

/-- One field as a bin: its name has to fit. -/
def binPair (p : ByteArray × ByteArray) : Except Exn (String × Value F) :=
  let name := decodeField p.1
  if MAX_BIN_NAME_BYTES < name.toByteArray.size then
    .error (.valueError ("hash field '" ++ name ++ "' exceeds the Aerospike bin-name limit of " ++
      toString MAX_BIN_NAME_BYTES ++ " bytes; use the " ++ HashStrategy.mapBin.value ++
      " strategy for this data"))
  else mapPair p

/-- mirrors src/redis_to_aerospike/converters/hash_converter.py:58-69 -/
def toFieldBins (raw : Dict ByteArray ByteArray) : Except Exn (Dict String (Value F)) :=
  Dict.ofPairs <$> raw.entries.mapM binPair

/-- A map of texts as a bin value. -/
def mapValue (m : Dict String (Value F)) : Value F :=
  .dict false (m.entries.map fun p => (.str p.1, p.2))

/-- mirrors src/redis_to_aerospike/converters/hash_converter.py:41-53 -/
def convert (c : HashConverter) (record : RedisRecord F) (strategy : Option HashStrategy)
    (valueBin : Option String) : Except Exn (AerospikeRecord F) := do
  let raw ← hashValue record.value
  match strategy.getD c.strategy with
  | .fieldBins => do
    let bins ← toFieldBins raw
    build c.ttlPolicy record bins Dict.empty (uniqueAreLists_empty _)
  | .mapBin => do
    let m ← toMap raw
    build c.ttlPolicy record (singleBin (valueBin.getD c.valueBin) (mapValue m)) Dict.empty
      (uniqueAreLists_empty _)

theorem convert_mapBin {c : HashConverter} {record : RedisRecord F}
    {h : Dict ByteArray ByteArray} (hv : record.value = .hash h) {strategy : Option HashStrategy}
    (hs : strategy.getD c.strategy = .mapBin) (valueBin : Option String) :
    c.convert record strategy valueBin = toMap h >>= fun m =>
      build c.ttlPolicy record (singleBin (valueBin.getD c.valueBin) (mapValue m)) Dict.empty
        (uniqueAreLists_empty _) := by
  unfold convert
  rw [hv, hs]
  rfl

theorem convert_fieldBins {c : HashConverter} {record : RedisRecord F}
    {h : Dict ByteArray ByteArray} (hv : record.value = .hash h) {strategy : Option HashStrategy}
    (hs : strategy.getD c.strategy = .fieldBins) (valueBin : Option String) :
    c.convert record strategy valueBin = toFieldBins h >>= fun bins =>
      build c.ttlPolicy record bins Dict.empty (uniqueAreLists_empty _) := by
  unfold convert
  rw [hv, hs]
  rfl

/-! ## No field is lost -/

/-- A one-to-one correspondence between the fields of `h` and the values `vs`
of the entries, under which each is its field's value coerced. -/
def Faithful (h : Dict ByteArray ByteArray) (vs : List (Value F)) : Prop :=
  ∃ σ : Fin h.entries.length ≃ Fin vs.length,
    ∀ i, coerceScalar (.bytes (h.entries.get i).2) = .ok (vs.get (σ i))

/-- The map strategy returns a record with one bin, a map of as many entries
as the hash has fields, if its TTL is accepted; the bin strategy returns a bin
for each field, unless it raises. -/
structure KeepsFields (c : HashConverter) (record : RedisRecord F)
    (strategy : Option HashStrategy) (valueBin : Option String) (h : Dict ByteArray ByteArray) :
    Prop where
  map : strategy.getD c.strategy = .mapBin → TtlAccepted c.ttlPolicy record →
    ∃ r es, c.convert record strategy valueBin = .ok r ∧
      r.bins.entries = [(valueBin.getD c.valueBin, .dict false es)] ∧
      (es.map Prod.fst).Nodup ∧ Faithful h (es.map Prod.snd)
  bins : strategy.getD c.strategy = .fieldBins →
    ∀ r, c.convert record strategy valueBin = .ok r → Faithful h r.bins.values

/-- Whatever the converter, the route and the rest of the record. -/
def NoFieldLost (F : Type) [PyFloat F] (h : Dict ByteArray ByteArray) : Prop :=
  ∀ (c : HashConverter) (record : RedisRecord F) strategy valueBin,
    record.value = .hash h → KeepsFields c record strategy valueBin h

/-- What either loop adds for one field. -/
theorem mapPair_ok_iff {p : ByteArray × ByteArray} {q : String × Value F} :
    mapPair p = .ok q ↔ q.1 = decodeField p.1 ∧ coerceScalar (.bytes p.2) = .ok q.2 := by
  unfold mapPair
  cases hv : (coerceScalar (.bytes p.2) : Except Exn (Value F)) with
  | error exc => simp
  | ok v =>
    rw [Except.ok.injEq, Except.ok.injEq, Prod.ext_iff, eq_comm (a := decodeField p.1)]

theorem binPair_ok {p : ByteArray × ByteArray} {q : String × Value F} (h : binPair p = .ok q) :
    mapPair p = .ok q := by
  unfold binPair at h
  dsimp only at h
  split at h
  · cases h
  · exact h

/-- The pairs the loop has collected, one for each field in order. -/
theorem forall₂_pairs {es : List (ByteArray × ByteArray)} {qs : List (String × Value F)}
    (h : List.Forall₂ (fun p q => mapPair p = .ok q) es qs) :
    qs.map Prod.fst = es.map (fun p => decodeField p.1) := by
  induction h with
  | nil => rfl
  | cons hpq _ ih => rw [List.map_cons, List.map_cons, ih, (mapPair_ok_iff.1 hpq).1]

theorem faithful_ofPairs_iff {h : Dict ByteArray ByteArray} {qs : List (String × Value F)}
    (hqs : List.Forall₂ (fun p q => mapPair p = .ok q) h.entries qs) :
    Faithful h (Dict.ofPairs qs).values ↔ (h.keys.map Utf8.decodeReplace).Nodup := by
  have hkeys : h.keys.map Utf8.decodeReplace = qs.map Prod.fst := by
    rw [forall₂_pairs hqs, Dict.keys, List.map_map]; rfl
  have hlen : h.entries.length = qs.length := hqs.length_eq
  rw [hkeys]
  constructor
  · intro hx
    obtain ⟨σ, -⟩ := hx
    have hcard := Fintype.card_congr σ
    rw [Fintype.card_fin, Fintype.card_fin, hlen, Dict.values, List.length_map] at hcard
    exact (Dict.size_ofPairs_iff qs).1 hcard.symm
  · intro hn
    have he := Dict.entries_ofPairs hn
    have hvalues : (Dict.ofPairs qs).values = qs.map Prod.snd := congrArg (List.map Prod.snd) he
    rw [hvalues]
    refine ⟨finCongr (by rw [List.length_map, hlen]), fun i => ?_⟩
    have hi := (mapPair_ok_iff.1 (hqs.get i.2 (hlen ▸ i.2))).2
    simpa using hi

/-- Both strategies collect pairs or raise. -/
theorem toMap_ok_iff {h : Dict ByteArray ByteArray} {m : Dict String (Value F)} :
    toMap h = .ok m ↔ ∃ qs, List.Forall₂ (fun p q => mapPair p = .ok q) h.entries qs ∧
      m = Dict.ofPairs qs := by
  unfold toMap
  cases hm : h.entries.mapM (mapPair (F := F)) with
  | error exc =>
    refine ⟨nofun, ?_⟩
    intro hx
    obtain ⟨qs, hqs, -⟩ := hx
    rw [Fallible.mapM_ok_iff.2 hqs] at hm
    cases hm
  | ok qs =>
    have hqs := Fallible.mapM_ok_iff.1 hm
    constructor
    · intro e; cases e; exact ⟨qs, hqs, rfl⟩
    · intro hx
      obtain ⟨qs', hqs', rfl⟩ := hx
      rw [← Fallible.mapM_ok_iff, hm] at hqs'
      cases hqs'; rfl

theorem toFieldBins_ok {h : Dict ByteArray ByteArray} {bins : Dict String (Value F)}
    (hb : toFieldBins h = .ok bins) : toMap h = .ok bins := by
  unfold toFieldBins at hb
  cases hm : h.entries.mapM (binPair (F := F)) with
  | error exc => rw [hm] at hb; cases hb
  | ok qs =>
    rw [hm] at hb
    cases hb
    refine toMap_ok_iff.2 ⟨qs, ?_, rfl⟩
    exact (Fallible.mapM_ok_iff.1 hm).imp fun _ _ => binPair_ok

/-- The map strategy raises on an overlong value only. -/
theorem toMap_returns_iff {h : Dict ByteArray ByteArray} :
    (∃ m : Dict String (Value F), toMap h = .ok m) ↔ ∀ v ∈ h.values, ¬ Overlong v := by
  constructor
  · rintro ⟨m, hm⟩ v hv
    obtain ⟨qs, hqs, -⟩ := toMap_ok_iff.1 hm
    obtain ⟨p, hp, rfl⟩ := List.mem_map.1 hv
    obtain ⟨q, hq⟩ := Fallible.ok_of_mapM_ok (Fallible.mapM_ok_iff.2 hqs) p hp
    exact (coerceScalar_ok_iff (F := F)).1 ⟨q.2, (mapPair_ok_iff.1 hq).2⟩
  · intro hv
    have hall : ∀ p ∈ h.entries, ∃ q : String × Value F, mapPair p = .ok q := fun p hp => by
      obtain ⟨v, hcoerce⟩ := (coerceScalar_ok_iff (F := F)).2 (hv p.2 (List.mem_map_of_mem hp))
      exact ⟨(decodeField p.1, v), mapPair_ok_iff.2 ⟨rfl, hcoerce⟩⟩
    obtain ⟨qs, hqs⟩ := Fallible.mapM_ok_of hall
    exact ⟨_, toMap_ok_iff.2 ⟨qs, Fallible.mapM_ok_iff.1 hqs, rfl⟩⟩

/-- A map of the decoded fields, as the value of a bin. -/
theorem faithful_mapValue {h : Dict ByteArray ByteArray} {m : Dict String (Value F)}
    (hm : toMap h = .ok m) :
    ((m.entries.map fun p => ((.str p.1 : Value F), p.2)).map Prod.fst).Nodup ∧
      (Faithful h ((m.entries.map fun p => ((.str p.1 : Value F), p.2)).map Prod.snd) ↔
        (h.keys.map Utf8.decodeReplace).Nodup) := by
  obtain ⟨qs, hqs, rfl⟩ := toMap_ok_iff.1 hm
  rw [List.map_map, List.map_map, ← faithful_ofPairs_iff hqs]
  refine ⟨?_, Iff.rfl⟩
  have hn := (Dict.ofPairs qs).nodup.map (f := (Value.str : String → Value F)) fun _ _ e => by
    injection e
  rwa [List.map_map] at hn

/-- The conversion under the map strategy. -/
theorem keeps_map_iff {c : HashConverter} {record : RedisRecord F} {h : Dict ByteArray ByteArray}
    (hv : record.value = .hash h) {strategy : Option HashStrategy}
    (hs : strategy.getD c.strategy = .mapBin) (ht : TtlAccepted c.ttlPolicy record)
    (valueBin : Option String) :
    (∃ r es, c.convert record strategy valueBin = .ok r ∧
      r.bins.entries = [(valueBin.getD c.valueBin, .dict false es)] ∧
      (es.map Prod.fst).Nodup ∧ Faithful h (es.map Prod.snd)) ↔
      (h.keys.map Utf8.decodeReplace).Nodup ∧ ∀ v ∈ h.values, ¬ Overlong v := by
  rw [convert_mapBin hv hs, ← toMap_returns_iff (F := F)]
  constructor
  · intro hx
    obtain ⟨r, es, hr, hbins, -, hf⟩ := hx
    obtain ⟨m, hm, hr⟩ := Fallible.bind_ok_iff.1 hr
    rw [build_bins hr, entries_singleBin, mapValue] at hbins
    cases hbins
    exact ⟨(faithful_mapValue hm).2.1 hf, m, hm⟩
  · intro hx
    obtain ⟨hn, m, hm⟩ := hx
    obtain ⟨hkeys, hf⟩ := faithful_mapValue hm
    obtain ⟨r, hr⟩ := build_returns_iff.2 ht
    refine ⟨r, _, Fallible.bind_ok_iff.2 ⟨m, hm, hr⟩, ?_, hkeys, hf.2 hn⟩
    rw [build_bins hr, entries_singleBin, mapValue]

/-- The conversion under the bin strategy, where it returns. -/
theorem keeps_bins {c : HashConverter} {record : RedisRecord F} {h : Dict ByteArray ByteArray}
    (hv : record.value = .hash h) {strategy : Option HashStrategy}
    (hs : strategy.getD c.strategy = .fieldBins) {valueBin : Option String}
    (hn : (h.keys.map Utf8.decodeReplace).Nodup) {r : AerospikeRecord F}
    (hr : c.convert record strategy valueBin = .ok r) : Faithful h r.bins.values := by
  rw [convert_fieldBins hv hs] at hr
  obtain ⟨bins, hbins, hr⟩ := Fallible.bind_ok_iff.1 hr
  obtain ⟨qs, hqs, rfl⟩ := toMap_ok_iff.1 (toFieldBins_ok hbins)
  rw [build_bins hr]
  exact (faithful_ofPairs_iff hqs).2 hn

theorem noFieldLost_iff (h : Dict ByteArray ByteArray) :
    NoFieldLost F h ↔
      (h.keys.map Utf8.decodeReplace).Nodup ∧ ∀ v ∈ h.values, ¬ Overlong v := by
  constructor
  · intro hx
    have hmap := (hx {} ⟨.str "k", "hash", .hash h, none⟩ none none rfl).map rfl ⟨_, rfl⟩
    exact (keeps_map_iff (c := {}) rfl rfl ⟨_, rfl⟩ none).1 hmap
  · intro hx c record strategy valueBin hv
    exact ⟨fun hs ht => (keeps_map_iff hv hs ht valueBin).2 hx,
      fun hs r hr => keeps_bins hv hs hx.1 hr⟩

end

/-- Two field names that decode to one text are not both UTF-8. -/
theorem collision_ill_formed {a b : ByteArray} (hab : a ≠ b)
    (h : Utf8.decodeReplace a = Utf8.decodeReplace b) :
    Utf8.decodeStrict a = none ∨ Utf8.decodeStrict b = none := by
  cases ha : Utf8.decodeStrict a with
  | none => exact .inl rfl
  | some s =>
    cases hb : Utf8.decodeStrict b with
    | none => exact .inr rfl
    | some t =>
      have hs : Utf8.decodeReplace a = s := Utf8.decodeReplace_of_strict ha
      have ht : Utf8.decodeReplace b = t := Utf8.decodeReplace_of_strict hb
      exact absurd (Utf8.decodeStrict_inj ha (by rw [hb, ← ht, ← h, hs])) hab

/-- **Hash fields.** No field is lost exactly when the field names stay
distinct under decoding with replacement, which all UTF-8 names do, and no
value is overlong. -/
theorem hash_fields_kept {F : Type} [PyFloat F] (h : Dict ByteArray ByteArray) :
    (NoFieldLost F h ↔
      (h.keys.map Utf8.decodeReplace).Nodup ∧ ∀ v ∈ h.values, ¬ Overlong v) ∧
    ∀ a b, a ≠ b → Utf8.decodeReplace a = Utf8.decodeReplace b →
      Utf8.decodeStrict a = none ∨ Utf8.decodeStrict b = none :=
  ⟨noFieldLost_iff h, fun _ _ => collision_ill_formed⟩

/-- The fields `FF` and `FE` of one hash. -/
def twoBinaryFields : Dict ByteArray ByteArray :=
  Dict.ofPairs [(⟨#[0xFF]⟩, "a".toByteArray), (⟨#[0xFE]⟩, "b".toByteArray)]

/-- A record of that hash. -/
def twoBinaryFieldsRecord : RedisRecord String := ⟨.str "k", "hash", .hash twoBinaryFields, none⟩

/-- Both become the entry U+FFFD, and the first value is gone. -/
theorem fields_collapse :
    twoBinaryFields.size = 2 ∧
    (convert {} twoBinaryFieldsRecord (some .mapBin) none).map (·.bins.entries) =
      .ok [("value", .dict false [(.str "\uFFFD", .str "b")])] ∧
    (convert {} twoBinaryFieldsRecord (some .fieldBins) none).map (·.bins.entries) =
      .ok [("\uFFFD", .str "b")] ∧
    ¬ NoFieldLost String twoBinaryFields := by
  refine ⟨by decide, by decide, by decide, ?_⟩
  rw [noFieldLost_iff]
  intro hx
  exact absurd hx.1 (by decide)

end HashConverter

end RedisToAerospike.L2
