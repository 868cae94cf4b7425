import RedisToAerospike.L2Convert.Members
import RedisToAerospike.L2Convert.Registry

/-!
# Which records do not convert

* `Documented`: the reasons for which a record may be rejected: its type, its
  TTL, or the length of a field name.
* `convert_returns_iff`: what the code rejects.
* `convert_keptAsText`: the records it returns hold the text of a scalar that is too
  large for an integer.
* `failures_iff`: it rejects for the documented reasons only, exactly when no
  value it coerces is an overlong integer numeral, which `int()` refuses, and
  its TTL in seconds is no larger than a float.
-/
namespace RedisToAerospike.L2
open L1

section
variable {F : Type} [PyFloat F]

/-- The value has the shape of the type. -/
def WellShaped (record : RedisRecord F) : Prop :=
  (record.type = "string" → ∃ b, record.value = .string b) ∧
  (record.type = "list" → ∃ xs, record.value = .list xs) ∧
  (record.type = "hash" → ∃ h, record.value = .hash h) ∧
  (record.type = "set" → ∃ s, record.value = .set s) ∧
  (record.type = "zset" → ∃ xs, record.value = .zset xs)

/-- The bytes of a record that are coerced. -/
def scalars (record : RedisRecord F) : List ByteArray :=
  match record.value with
  | .string b => [b]
  | .list xs => xs
  | .hash h => h.values
  | _ => []

/-- A field name that is too long for a bin. -/
def LongName (field : ByteArray) : Prop :=
  MAX_BIN_NAME_BYTES < (decodeField field).toByteArray.size

/-- The documented reasons to reject a record. -/
def Documented (ttlPolicy : TtlPolicy) (strategy : HashStrategy) (record : RedisRecord F) : Prop :=
  record.type ∉ ["string", "hash", "list", "set", "zset"] ∨
  (ttlPolicy.mode = .reject ∧ ∃ ms, record.ttlMs = some ms ∧ ttlPolicy.Overflows F ms) ∨
  (record.type = "hash" ∧ strategy = .fieldBins ∧
    ∃ h, record.value = .hash h ∧ ∃ field ∈ h.keys, LongName field)

/-! ## What each converter rejects -/

/-- `ttl_ms / 1000` is a float. -/
def TtlInFloat (record : RedisRecord F) : Prop :=
  ∀ ms, record.ttlMs = some ms → ¬ BeyondFloat F ms

theorem ttlAccepted_iff {ttlPolicy : TtlPolicy} {record : RedisRecord F} :
    TtlAccepted ttlPolicy record ↔
      ¬ (ttlPolicy.mode = .reject ∧ ∃ ms, record.ttlMs = some ms ∧ ttlPolicy.Overflows F ms) ∧
        TtlInFloat record := by
  have herror := TtlPolicy.toTtl_error_iff F ttlPolicy record.ttlMs
  rw [Fallible.raises_iff, not_iff_comm, not_or] at herror
  rw [TtlAccepted, ← herror]
  simp [TtlInFloat]

theorem string_returns_iff {record : RedisRecord F} {b : ByteArray}
    (hv : record.value = .string b) (valueBin : String) (ttlPolicy : TtlPolicy) :
    (∃ r, StringConverter.convert valueBin ttlPolicy record = .ok r) ↔
      ¬ Overlong b ∧ TtlAccepted ttlPolicy record := by
  rw [← coerceScalar_ok_iff (F := F)]
  unfold StringConverter.convert
  rw [hv]
  exact bind_build_iff fun _ => build_returns_iff

theorem list_returns_iff {record : RedisRecord F} {xs : List ByteArray}
    (hv : record.value = .list xs) (valueBin : String) (ttlPolicy : TtlPolicy) :
    (∃ r, ListConverter.convert valueBin ttlPolicy record = .ok r) ↔
      (∀ b ∈ xs, ¬ Overlong b) ∧ TtlAccepted ttlPolicy record := by
  have hitems : (∃ items : List (Value F),
      (xs.mapM fun item => coerceScalar (.bytes item)) = .ok items) ↔
        ∀ b ∈ xs, ¬ Overlong b := by
    rw [Fallible.mapM_returns_iff]
    exact forall₂_congr fun b _ => coerceScalar_ok_iff
  rw [← hitems]
  unfold ListConverter.convert
  rw [hv]
  exact bind_build_iff fun _ => build_returns_iff

theorem set_returns_iff {record : RedisRecord F} {s : PySet ByteArray}
    (hv : record.value = .set s) (valueBin : String) (ttlPolicy : TtlPolicy) :
    (∃ r, SetConverter.convert valueBin ttlPolicy record = .ok r) ↔
      TtlAccepted ttlPolicy record := by
  rw [set_convert_eq hv, build_returns_iff]

theorem zset_returns_iff {record : RedisRecord F} {xs : List (ByteArray × F)}
    (hv : record.value = .zset xs) (valueBin : String) (ttlPolicy : TtlPolicy) :
    (∃ r, ZSetConverter.convert valueBin ttlPolicy record = .ok r) ↔
      TtlAccepted ttlPolicy record := by
  unfold ZSetConverter.convert
  rw [hv]
  exact build_returns_iff

/-- The bin strategy raises on a long name or an overlong value. -/
theorem toFieldBins_returns_iff {h : Dict ByteArray ByteArray} :
    (∃ bins : Dict String (Value F), HashConverter.toFieldBins h = .ok bins) ↔
      (∀ field ∈ h.keys, ¬ LongName field) ∧ ∀ v ∈ h.values, ¬ Overlong v := by
  have hpair : ∀ p : ByteArray × ByteArray, (∃ q : String × Value F, HashConverter.binPair p = .ok q) ↔
      ¬ LongName p.1 ∧ ¬ Overlong p.2 := by
    intro p
    unfold HashConverter.binPair
    dsimp only
    split
    · rename_i hlong
      exact ⟨nofun, fun hshort => absurd hlong hshort.1⟩
    · rename_i hshort
      rw [← coerceScalar_ok_iff (F := F), and_iff_right (show ¬ LongName p.1 from hshort)]
      unfold HashConverter.mapPair
      cases coerceScalar (F := F) (.bytes p.2) <;> simp
  unfold HashConverter.toFieldBins
  rw [Fallible.map_returns_iff, Fallible.mapM_returns_iff]
  simp only [hpair, Dict.keys, Dict.values, List.forall_mem_map]
  exact ⟨fun hall => ⟨fun p hp => (hall p hp).1, fun p hp => (hall p hp).2⟩,
    fun hall p hp => ⟨hall.1 p hp, hall.2 p hp⟩⟩

theorem hash_returns_iff {record : RedisRecord F} {h : Dict ByteArray ByteArray}
    (hv : record.value = .hash h) (c : HashConverter) (strategy : Option HashStrategy)
    (valueBin : Option String) :
    (∃ r, c.convert record strategy valueBin = .ok r) ↔
      ((strategy.getD c.strategy = .fieldBins → ∀ field ∈ h.keys, ¬ LongName field) ∧
        ∀ v ∈ h.values, ¬ Overlong v) ∧ TtlAccepted c.ttlPolicy record := by
  cases hs : strategy.getD c.strategy with
  | fieldBins =>
    rw [HashConverter.convert_fieldBins hv hs]
    simp only [true_implies]
    rw [← toFieldBins_returns_iff (F := F)]
    exact bind_build_iff fun _ => build_returns_iff
  | mapBin =>
    rw [HashConverter.convert_mapBin hv hs]
    simp only [reduceCtorEq, false_implies, true_and]
    rw [← HashConverter.toMap_returns_iff (F := F)]
    exact bind_build_iff fun _ => build_returns_iff

/-! ## The registry -/

theorem get_new (valueBin : String) (strategy : HashStrategy) (ttlPolicy : TtlPolicy) (t : String) :
    (ConverterRegistry.new valueBin strategy ttlPolicy : ConverterRegistry F).get t =
      if "zset" = t then .ok (.other "zset" (ZSetConverter.convert valueBin ttlPolicy))
      else if "set" = t then .ok (.other "set" (SetConverter.convert valueBin ttlPolicy))
      else if "list" = t then .ok (.other "list" (ListConverter.convert valueBin ttlPolicy))
      else if "hash" = t then .ok (.hash ⟨valueBin, strategy, ttlPolicy⟩)
      else if "string" = t then .ok (.other "string" (StringConverter.convert valueBin ttlPolicy))
      else .error (.unsupportedType t) := by
  simp only [ConverterRegistry.new, ConverterRegistry.builtins, List.foldl_cons, List.foldl_nil,
    ConverterRegistry.get_insert, Converter.redisType]
  rfl

/-- The conversion by type. -/
theorem convert_new (valueBin : String) (strategy : HashStrategy) (ttlPolicy : TtlPolicy)
    (record : RedisRecord F) (hashStrategy : Option HashStrategy) (routeBin : Option String) :
    (ConverterRegistry.new valueBin strategy ttlPolicy).convert record hashStrategy routeBin =
      if record.type = "string" then StringConverter.convert valueBin ttlPolicy record
      else if record.type = "hash" then
        HashConverter.convert ⟨valueBin, strategy, ttlPolicy⟩ record hashStrategy routeBin
      else if record.type = "list" then ListConverter.convert valueBin ttlPolicy record
      else if record.type = "set" then SetConverter.convert valueBin ttlPolicy record
      else if record.type = "zset" then ZSetConverter.convert valueBin ttlPolicy record
      else .error (.unsupportedType record.type) := by
  unfold ConverterRegistry.convert
  simp only [get_new]
  by_cases hhash : record.type = "hash"
  · simp [hhash]
  · simp only [hhash, Ne.symm hhash, if_false]
    by_cases hzset : record.type = "zset"
    · simp [hzset, Converter.convert]
    · by_cases hset : record.type = "set"
      · simp [hset, Converter.convert]
      · by_cases hlist : record.type = "list"
        · simp [hlist, Converter.convert]
        · by_cases hstring : record.type = "string"
          · simp [hstring, Converter.convert]
          · simp [hstring, hlist, hset, hzset, Ne.symm hstring, Ne.symm hlist, Ne.symm hset,
              Ne.symm hzset]

/-- The conditions that follow the order in which a converter checks. -/
theorem not_documented_iff {ttlPolicy : TtlPolicy} {strategy : HashStrategy}
    {record : RedisRecord F} :
    ¬ Documented ttlPolicy strategy record ∧ (∀ b ∈ scalars record, ¬ Overlong b) ∧
        TtlInFloat record ↔
      record.type ∈ ["string", "hash", "list", "set", "zset"] ∧
        (¬ (record.type = "hash" ∧ strategy = .fieldBins ∧
          ∃ h, record.value = .hash h ∧ ∃ field ∈ h.keys, LongName field) ∧
        ∀ b ∈ scalars record, ¬ Overlong b) ∧ TtlAccepted ttlPolicy record := by
  rw [ttlAccepted_iff, Documented, not_or, not_or, not_not]
  exact ⟨fun h => ⟨h.1.1, ⟨h.1.2.2, h.2.1⟩, h.1.2.1, h.2.2⟩,
    fun h => ⟨⟨h.1, h.2.2.1, h.2.1.1⟩, h.2.1.2, h.2.2.2⟩⟩

/-- What the default registry rejects. -/
theorem convert_returns_iff {record : RedisRecord F} (hw : WellShaped record) (valueBin : String)
    (strategy : HashStrategy) (ttlPolicy : TtlPolicy) (hashStrategy : Option HashStrategy)
    (routeBin : Option String) :
    (∃ r, (ConverterRegistry.new valueBin strategy ttlPolicy).convert record hashStrategy routeBin =
        .ok r) ↔
      ¬ Documented ttlPolicy (hashStrategy.getD strategy) record ∧
        (∀ b ∈ scalars record, ¬ Overlong b) ∧ TtlInFloat record := by
  obtain ⟨hstring, hlist, hhash, hset, hzset⟩ := hw
  rw [convert_new, not_documented_iff]
  by_cases ht : record.type ∈ ["string", "hash", "list", "set", "zset"]
  · rw [and_iff_right ht]
    simp only [List.mem_cons, List.not_mem_nil, or_false] at ht
    rcases ht with ht | ht | ht | ht | ht
    · obtain ⟨b, hv⟩ := hstring ht
      rw [if_pos ht, string_returns_iff hv, scalars, hv]
      simp [ht]
    · obtain ⟨h, hv⟩ := hhash ht
      rw [if_neg (by rw [ht]; decide), if_pos ht, hash_returns_iff hv, scalars, hv]
      simp only [ht, RedisValue.hash.injEq, exists_eq_left', true_and, not_and, not_exists]
    · obtain ⟨xs, hv⟩ := hlist ht
      rw [if_neg (by rw [ht]; decide), if_neg (by rw [ht]; decide), if_pos ht,
        list_returns_iff hv, scalars, hv]
      simp [ht]
    · obtain ⟨s, hv⟩ := hset ht
      rw [if_neg (by rw [ht]; decide), if_neg (by rw [ht]; decide), if_neg (by rw [ht]; decide),
        if_pos ht, set_returns_iff hv, scalars, hv]
      simp [ht]
    · obtain ⟨xs, hv⟩ := hzset ht
      rw [if_neg (by rw [ht]; decide), if_neg (by rw [ht]; decide), if_neg (by rw [ht]; decide),
        if_neg (by rw [ht]; decide), if_pos ht, zset_returns_iff hv, scalars, hv]
      simp [ht]
  · refine iff_of_false ?_ fun h => ht h.1
    simp only [List.mem_cons, List.not_mem_nil, or_false, not_or] at ht
    simp [ht]

/-- A numeral that `_INT_RE` matches and that is no 64-bit integer. -/
def TooLarge (b : ByteArray) (text : String) : Prop :=
  Utf8.decodeStrict b = some text ∧ INT_RE.dollar text.toList = true ∧ ¬ Promoted text

theorem coerceScalar_tooLarge {b : ByteArray} {text : String} {v : Value F} (h : TooLarge b text)
    (hv : coerceScalar (.bytes b) = .ok v) : v = .str text := by
  obtain ⟨hd, hre, hnot⟩ := h
  simp only [coerceScalar, hd] at hv
  rcases coerceText_cases hv with ⟨n, -, -, hn, hr⟩ | ⟨x, rfl⟩ | ⟨rfl, -⟩
  · exact absurd ⟨hre, n, hn, hr⟩ hnot
  · unfold coerceText at hv
    rw [if_pos hre] at hv
    split at hv
    · cases hv
    · split at hv <;> cases hv
  · rfl

omit [PyFloat F] in
theorem keyValue_tooLarge {b : ByteArray} {text : String} (h : TooLarge b text) :
    (keyValue (decodeMember b) : Value F) = .str text := by
  rw [decodeMember, h.1]
  rfl

/-! ## What is too large for an integer stays text -/

/-- The values of a hash under the decoded names; of names that are decoded
alike the last counts. -/
def decodedFields (h : Dict ByteArray ByteArray) : Dict String ByteArray :=
  Dict.ofPairs (h.entries.map fun p => (Utf8.decodeReplace p.1, p.2))

/-- Wherever the value has a scalar that is too large for an integer, the bins
hold its text: in the value bin, at its place in a list, under its field in a
map or as a bin; among the members of a set, or the keys of a sorted set. -/
def KeptAsText (strategy : HashStrategy) (valueBin : String) (bins : Dict String (Value F)) :
    RedisValue F → Prop
  | .string b => ∀ text, TooLarge b text → bins.get? valueBin = some (.str text)
  | .list xs => ∃ items, bins.get? valueBin = some (.list items) ∧
      List.Forall₂ (fun b v => ∀ text, TooLarge b text → v = .str text) xs items
  | .hash h =>
    (strategy = .mapBin → ∃ es, bins.get? valueBin = some (.dict false es) ∧
      ∀ name b text, (decodedFields h).get? name = some b → TooLarge b text →
        (.str name, .str text) ∈ es) ∧
    (strategy = .fieldBins → ∀ name b text, (decodedFields h).get? name = some b →
      TooLarge b text → bins.get? name = some (.str text))
  | .set s => ∃ items, bins.get? valueBin = some (.list items) ∧
      ∀ b ∈ s.elems, ∀ text, TooLarge b text → .str text ∈ items
  | .zset xs => ∃ es, bins.get? valueBin = some (.dict false es) ∧
      ∀ p ∈ xs, ∀ text, TooLarge p.1 text → ∃ score, (.str text, score) ∈ es
  | _ => True

theorem string_keptAsText {record : RedisRecord F} {b : ByteArray} {valueBin : String}
    {ttlPolicy : TtlPolicy} {r : AerospikeRecord F} (hv : record.value = .string b)
    (hr : StringConverter.convert valueBin ttlPolicy record = .ok r) (text : String)
    (h : TooLarge b text) : r.bins.get? valueBin = some (.str text) := by
  unfold StringConverter.convert at hr
  rw [hv] at hr
  obtain ⟨raw, hraw, hr⟩ := Fallible.bind_ok_iff.1 hr
  cases hraw
  obtain ⟨v, hcoerce, hr⟩ := Fallible.bind_ok_iff.1 hr
  rw [build_bins hr, Dict.get?_eq_some_iff, coerceScalar_tooLarge h hcoerce]
  exact List.mem_singleton_self _

theorem list_keptAsText {record : RedisRecord F} {xs : List ByteArray} {valueBin : String}
    {ttlPolicy : TtlPolicy} {r : AerospikeRecord F} (hv : record.value = .list xs)
    (hr : ListConverter.convert valueBin ttlPolicy record = .ok r) :
    ∃ items, r.bins.get? valueBin = some (.list items) ∧
      List.Forall₂ (fun b v => ∀ text, TooLarge b text → v = .str text) xs items := by
  unfold ListConverter.convert at hr
  rw [hv] at hr
  obtain ⟨raw, hraw, hr⟩ := Fallible.bind_ok_iff.1 hr
  cases hraw
  obtain ⟨items, hitems, hr⟩ := Fallible.bind_ok_iff.1 hr
  refine ⟨items, ?_, (Fallible.mapM_ok_iff.1 hitems).imp fun b v hcoerce text h =>
    coerceScalar_tooLarge h hcoerce⟩
  rw [build_bins hr, Dict.get?_eq_some_iff]
  exact List.mem_singleton_self _

/-- What both strategies hold under a decoded name. -/
theorem toMap_tooLarge {h : Dict ByteArray ByteArray} {m : Dict String (Value F)}
    (hm : HashConverter.toMap h = .ok m) {name : String} {b : ByteArray}
    (hb : (decodedFields h).get? name = some b) {text : String} (ht : TooLarge b text) :
    m.get? name = some (.str text) := by
  obtain ⟨qs, hqs, rfl⟩ := HashConverter.toMap_ok_iff.1 hm
  have hpairs : List.Forall₂ (fun p q => p.1 = q.1 ∧ coerceScalar (.bytes p.2) = .ok q.2)
      (h.entries.map fun p => (Utf8.decodeReplace p.1, p.2)) qs := by
    rw [List.forall₂_map_left_iff]
    refine hqs.imp fun p q hpq => ?_
    obtain ⟨hname, hcoerce⟩ := HashConverter.mapPair_ok_iff.1 hpq
    exact ⟨hname.symm, hcoerce⟩
  obtain ⟨v, hget, hcoerce⟩ := Dict.get?_ofPairs_forall₂
    (R := fun b v => coerceScalar (.bytes b) = .ok v) hpairs hb
  rw [hget, coerceScalar_tooLarge ht hcoerce]

theorem hash_keptAsText {record : RedisRecord F} {h : Dict ByteArray ByteArray}
    {c : HashConverter} {strategy : Option HashStrategy} {valueBin : Option String}
    {r : AerospikeRecord F} (hv : record.value = .hash h)
    (hr : c.convert record strategy valueBin = .ok r) :
    KeptAsText (strategy.getD c.strategy) (valueBin.getD c.valueBin) r.bins (.hash h) := by
  refine ⟨fun hs => ?_, fun hs name b text hb ht => ?_⟩
  · rw [HashConverter.convert_mapBin hv hs] at hr
    obtain ⟨m, hm, hr⟩ := Fallible.bind_ok_iff.1 hr
    refine ⟨m.entries.map fun p => (.str p.1, p.2), ?_, fun name b text hb ht => ?_⟩
    · rw [build_bins hr, Dict.get?_eq_some_iff]
      exact List.mem_singleton_self _
    · have hentry := Dict.get?_eq_some_iff.1 (toMap_tooLarge hm hb ht)
      exact List.mem_map.2 ⟨_, hentry, rfl⟩
  · rw [HashConverter.convert_fieldBins hv hs] at hr
    obtain ⟨bins, hbins, hr⟩ := Fallible.bind_ok_iff.1 hr
    rw [build_bins hr]
    exact toMap_tooLarge (HashConverter.toFieldBins_ok hbins) hb ht

theorem set_keptAsText {record : RedisRecord F} {s : PySet ByteArray} {valueBin : String}
    {ttlPolicy : TtlPolicy} {r : AerospikeRecord F} (hv : record.value = .set s)
    (hr : SetConverter.convert valueBin ttlPolicy record = .ok r) :
    ∃ items, r.bins.get? valueBin = some (.list items) ∧
      ∀ b ∈ s.elems, ∀ text, TooLarge b text → .str text ∈ items := by
  rw [set_convert_eq hv] at hr
  refine ⟨(sortedMembers s).map keyValue, ?_, fun b hb text ht => ?_⟩
  · rw [build_bins hr, Dict.get?_eq_some_iff]
    exact List.mem_singleton_self _
  · rw [← keyValue_tooLarge ht]
    exact List.mem_map_of_mem ((perm_sortedMembers s).mem_iff.2 (List.mem_map_of_mem hb))

theorem zset_keptAsText {record : RedisRecord F} {xs : List (ByteArray × F)} {valueBin : String}
    {ttlPolicy : TtlPolicy} {r : AerospikeRecord F} (hv : record.value = .zset xs)
    (hr : ZSetConverter.convert valueBin ttlPolicy record = .ok r) :
    ∃ es, r.bins.get? valueBin = some (.dict false es) ∧
      ∀ p ∈ xs, ∀ text, TooLarge p.1 text → ∃ score, (.str text, score) ∈ es := by
  unfold ZSetConverter.convert at hr
  rw [hv] at hr
  obtain ⟨raw, hraw, hr⟩ := Fallible.bind_ok_iff.1 hr
  cases hraw
  refine ⟨(Dict.ofPairs (xs.map fun p => (decodeMember p.1, encodeScore p.2))).entries.map
    fun p => (keyValue p.1, p.2), ?_, fun p hp text ht => ?_⟩
  · rw [build_bins hr, Dict.get?_eq_some_iff]
    exact List.mem_singleton_self _
  · have hkey : decodeMember p.1 ∈
        (xs.map fun p => (decodeMember p.1, encodeScore p.2)).map Prod.fst := by
      rw [List.map_map]
      exact List.mem_map_of_mem hp
    obtain ⟨score, -, hscore⟩ := Dict.get?_ofPairs_of_mem hkey
    refine ⟨score, List.mem_map.2 ⟨_, Dict.get?_eq_some_iff.1 hscore, ?_⟩⟩
    rw [keyValue_tooLarge ht]

/-- The bin that `convert` writes: a route overrides it for a hash. -/
def effectiveBin (valueBin : String) (routeBin : Option String) (record : RedisRecord F) : String :=
  if record.type = "hash" then routeBin.getD valueBin else valueBin

theorem convert_keptAsText {record : RedisRecord F} (hw : WellShaped record) {valueBin : String}
    {strategy : HashStrategy} {ttlPolicy : TtlPolicy} {hashStrategy : Option HashStrategy}
    {routeBin : Option String} {r : AerospikeRecord F}
    (hr : (ConverterRegistry.new valueBin strategy ttlPolicy).convert record hashStrategy routeBin =
      .ok r) :
    KeptAsText (hashStrategy.getD strategy) (effectiveBin valueBin routeBin record) r.bins
      record.value := by
  obtain ⟨hstring, hlist, hhash, hset, hzset⟩ := hw
  rw [convert_new] at hr
  unfold effectiveBin
  by_cases ht : record.type = "hash"
  · obtain ⟨h, hv⟩ := hhash ht
    rw [if_neg (by rw [ht]; decide), if_pos ht] at hr
    rw [if_pos ht, hv]
    exact hash_keptAsText (c := ⟨valueBin, strategy, ttlPolicy⟩) hv hr
  · rw [if_neg ht] at hr ⊢
    by_cases hs : record.type = "string"
    · obtain ⟨b, hv⟩ := hstring hs
      rw [if_pos hs] at hr
      rw [hv]
      exact string_keptAsText hv hr
    · rw [if_neg hs] at hr
      by_cases hl : record.type = "list"
      · obtain ⟨xs, hv⟩ := hlist hl
        rw [if_pos hl] at hr
        rw [hv]
        exact list_keptAsText hv hr
      · rw [if_neg hl] at hr
        by_cases hse : record.type = "set"
        · obtain ⟨s, hv⟩ := hset hse
          rw [if_pos hse] at hr
          rw [hv]
          exact set_keptAsText hv hr
        · rw [if_neg hse] at hr
          by_cases hz : record.type = "zset"
          · obtain ⟨xs, hv⟩ := hzset hz
            rw [if_pos hz] at hr
            rw [hv]
            exact zset_keptAsText hv hr
          · rw [if_neg hz] at hr
            cases hr

/-! ## Failures -/

/-- The registry rejects for the documented reasons only, and what it returns
keeps what is too large for an integer as text. -/
structure FailsAsDocumented (reg : ConverterRegistry F) (valueBin : String) (ttlPolicy : TtlPolicy)
    (strategy : HashStrategy) (record : RedisRecord F) (hashStrategy : Option HashStrategy)
    (routeBin : Option String) : Prop where
  raises : (∃ exc, reg.convert record hashStrategy routeBin = .error exc) ↔
    Documented ttlPolicy (hashStrategy.getD strategy) record
  keeps : ∀ r, reg.convert record hashStrategy routeBin = .ok r →
    KeptAsText (hashStrategy.getD strategy) (effectiveBin valueBin routeBin record) r.bins
      record.value

/-- The default registry rejects what it should exactly when it has another
documented reason or none of its own: an overlong integer numeral among the
values that are coerced, or a TTL beyond the float range. -/
theorem raises_documented_iff {record : RedisRecord F} (hw : WellShaped record) (valueBin : String)
    (strategy : HashStrategy) (ttlPolicy : TtlPolicy) (hashStrategy : Option HashStrategy)
    (routeBin : Option String) :
    ((∃ exc, (ConverterRegistry.new valueBin strategy ttlPolicy).convert record hashStrategy
        routeBin = .error exc) ↔ Documented ttlPolicy (hashStrategy.getD strategy) record) ↔
      (Documented ttlPolicy (hashStrategy.getD strategy) record ∨
        (∀ b ∈ scalars record, ¬ Overlong b) ∧ TtlInFloat record) := by
  rw [Fallible.raises_iff, convert_returns_iff hw]
  by_cases hdoc : Documented ttlPolicy (hashStrategy.getD strategy) record
  · simp only [hdoc, not_true_eq_false, false_and, not_false_eq_true, true_or]
  · simp only [hdoc, not_false_eq_true, true_and, iff_false, not_not, false_or]

/-- **Failures.** The default registry rejects a record for the documented
reasons only, exactly when it is rejected for one of them, or has no overlong
integer numeral among the values that are coerced and a TTL in the float
range. -/
theorem failures_iff {record : RedisRecord F} (hw : WellShaped record) (valueBin : String)
    (strategy : HashStrategy) (ttlPolicy : TtlPolicy) (hashStrategy : Option HashStrategy)
    (routeBin : Option String) :
    FailsAsDocumented (ConverterRegistry.new valueBin strategy ttlPolicy) valueBin ttlPolicy
        strategy record hashStrategy routeBin ↔
      (Documented ttlPolicy (hashStrategy.getD strategy) record ∨
        (∀ b ∈ scalars record, ¬ Overlong b) ∧ TtlInFloat record) := by
  rw [← raises_documented_iff hw valueBin strategy ttlPolicy hashStrategy routeBin]
  exact ⟨fun h => h.raises, fun h => ⟨h, fun r hr => convert_keptAsText hw hr⟩⟩

end

/-- A string record. -/
def stringRecord (text : String) (ttlMs : Option Int) : RedisRecord String :=
  { key := .str "k", type := "string", value := .string text.toByteArray, ttlMs }

theorem wellShaped_stringRecord (text : String) (ttlMs : Option Int) :
    WellShaped (stringRecord text ttlMs) := by
  refine ⟨fun _ => ⟨_, rfl⟩, ?_, ?_, ?_, ?_⟩ <;> exact fun h => absurd h (by decide : "string" ≠ _)

theorem documented_stringRecord {ttlPolicy : TtlPolicy} {text : String} {ttlMs : Option Int}
    (h : Documented ttlPolicy .mapBin (stringRecord text ttlMs)) :
    ttlPolicy.mode = .reject ∧ ∃ ms, ttlMs = some ms := by
  rcases h with h | ⟨hmode, ms, hms, -⟩ | ⟨h, -⟩
  · exact absurd (by decide : "string" ∈ _) h
  · exact ⟨hmode, ms, hms⟩
  · exact absurd h (by decide : "string" ≠ _)

/-- The numeral of `n + 1` ones. -/
def ones (n : Nat) : String := String.ofList (List.replicate (n + 1) '1')

theorem overlong_ones {n : Nat} (h : Decimal.maxStrDigits ≤ n) : Overlong (ones n).toByteArray := by
  have hone : ∀ d ∈ List.replicate (n + 1) '1', d = '1' := fun d => List.eq_of_mem_replicate
  have hl : (ones n).toList = List.replicate (n + 1) '1' := String.toList_ofList
  refine ⟨ones n, Utf8.decodeStrict_eq_some_iff.2 rfl, ?_, ?_⟩
  · refine dollar_INT_RE.2 ⟨[], List.replicate (n + 1) '1', [], by simp [hl], .inl rfl, .inr ?_, .inl rfl⟩
    refine ⟨'1', List.replicate n '1', List.replicate_succ, by decide, fun d hd => ?_⟩
    rw [List.eq_of_mem_replicate hd]
    decide
  · rw [hl, List.filter_eq_self.2 fun d hd => by rw [hone d hd]; decide, List.length_replicate]
    omega

/-- A numeral of 4301 ones is rejected, for no documented reason, and so is a
TTL of `10 ^ 312` milliseconds under a policy that drops long TTLs. -/
theorem ones_rejected :
    ¬ FailsAsDocumented (ConverterRegistry.new "value" .mapBin {}) "value" {} .mapBin
        (stringRecord (ones 4300) none) none none ∧
    ¬ FailsAsDocumented (ConverterRegistry.new "value" .mapBin ⟨.neverExpire, 1⟩) "value"
        ⟨.neverExpire, 1⟩ .mapBin (stringRecord "12" (some (10 ^ 312))) none none := by
  constructor
  · intro h
    have hw := wellShaped_stringRecord (ones 4300) none
    rcases (raises_documented_iff hw _ _ _ _ _).1 h.raises with hdoc | ⟨hover, -⟩
    · obtain ⟨-, ms, hms⟩ := documented_stringRecord hdoc
      cases hms
    · exact hover _ List.mem_cons_self (overlong_ones (Nat.le_refl _))
  · intro h
    have hw := wellShaped_stringRecord "12" (some (10 ^ 312))
    rcases (raises_documented_iff hw _ _ _ _ _).1 h.raises with hdoc | ⟨-, hfloat⟩
    · exact absurd (documented_stringRecord hdoc).1 (by decide)
    · exact hfloat _ rfl (by decide +kernel)

theorem failures_short :
    FailsAsDocumented (ConverterRegistry.new "value" .mapBin {}) "value" {} .mapBin
      (stringRecord "12" none) none none := by
  refine (failures_iff (wellShaped_stringRecord "12" none) "value" .mapBin {} none none).2
    (.inr ⟨?_, fun ms hms => by cases hms⟩)
  intro b hb
  rw [List.mem_singleton.1 hb]
  exact (coerceScalar_ok_iff (F := String)).1 ⟨.int 12, rfl⟩

end RedisToAerospike.L2
