import RedisToAerospike.L2Read.BatchReads

/-!
# A scan while keys disappear

* `iterRecords_eq`: without races a run yields, batch by batch, the records
  of its keys.
* `scan_faithful`: if keys are only deleted or expire, a scan never raises,
  what it yields is true, and no key that outlives its batch is missed; if
  nothing disappears, the batches make no difference. The batches are the
  pages of the scan, or chunks of their keys.
-/
namespace RedisToAerospike.L2
open L1

section
variable {F : Type}

/-! ## Runs -/

/-- The batches, with the ticks they start at. -/
def starts (h : History F) : Nat → List (List ByteArray) → List (Nat × List ByteArray)
  | _, [] => []
  | t, keys :: batches => (t, keys) :: starts h (finish h t keys) batches

/-- No batch of a run meets a race. -/
def NoRaces (h : History F) (t : Nat) (batches : List (List ByteArray)) : Prop :=
  ∀ s ∈ starts h t batches, ¬ Races h s.1 s.2

/-- The records of the batches. -/
def yielded (h : History F) (t : Nat) (batches : List (List ByteArray)) : List (RedisRecord F) :=
  (starts h t batches).flatMap fun s => s.2.filterMap (recordAt h s.1 s.2)

theorem finish_nil (h : History F) (t : Nat) : finish h t [] = t := rfl

theorem iterRecords_eq {h : History F} {t : Nat} {batches : List (List ByteArray)}
    (hno : NoRaces h t batches) : iterRecords h t batches = (yielded h t batches, none) := by
  induction batches generalizing t with
  | nil => rfl
  | cons keys batches ih =>
    obtain ⟨hhead, htail⟩ := List.forall_mem_cons.1 hno
    have hyield : yielded h t (keys :: batches) =
        keys.filterMap (recordAt h t keys) ++ yielded h (finish h t keys) batches := rfl
    unfold iterRecords
    by_cases hk : keys = []
    · subst hk
      rw [if_pos rfl, hyield, ← finish_nil h t]
      exact ih htail
    · rw [if_neg hk, readBatch_eq hhead, hyield]
      dsimp only
      rw [ih htail]

/-- A race ends the run with an exception. -/
theorem iterRecords_raises {h : History F} {t : Nat} {batches : List (List ByteArray)}
    (hr : ¬ NoRaces h t batches) : (iterRecords h t batches).2 ≠ none := by
  induction batches generalizing t with
  | nil => exact absurd nofun hr
  | cons keys batches ih =>
    unfold iterRecords
    by_cases hrace : Races h t keys
    · have hk : keys ≠ [] := by
        intro e
        subst e
        obtain ⟨p, hp, -⟩ := hrace
        cases hp
      obtain ⟨exc, hexc⟩ := readBatch_races hrace
      rw [if_neg hk, hexc]
      nofun
    · have htail : ¬ NoRaces h (finish h t keys) batches := fun hno =>
        hr (List.forall_mem_cons.2 ⟨hrace, hno⟩)
      by_cases hk : keys = []
      · subst hk
        rw [if_pos rfl, ← finish_nil h t]
        exact ih htail
      · rw [if_neg hk, readBatch_eq hrace]
        exact ih htail

/-! ## Keys that disappear -/

/-- Keys may be deleted or expire; none is changed, created or re-created. -/
structure Vanishing (h : History F) (base : Keyspace F) : Prop where
  kept : ∀ i key e, (h i).keyspace key = some e → base key = some e
  gone : ∀ i key, (h i).keyspace key = none → (h (i + 1)).keyspace key = none

theorem Vanishing.stays_gone {h : History F} {base : Keyspace F} (hv : Vanishing h base)
    {i j : Nat} (hij : i ≤ j) {key : ByteArray} (hi : (h i).keyspace key = none) :
    (h j).keyspace key = none := by
  induction j, hij using Nat.le_induction with
  | base => exact hi
  | succ j hij ih => exact hv.gone j key ih

/-- What is there now was there before. -/
theorem Vanishing.before {h : History F} {base : Keyspace F} (hv : Vanishing h base) {i j : Nat}
    (hij : i ≤ j) {key : ByteArray} {e : Stored F} (he : (h j).keyspace key = some e) :
    (h i).keyspace key = some e := by
  cases hi : (h i).keyspace key with
  | none =>
    rw [hv.stays_gone hij hi] at he
    cases he
  | some e' =>
    have := hv.kept i key e' hi
    rw [hv.kept j key e he] at this
    exact this.symm

/-- Nothing that only disappears can race. -/
theorem Vanishing.noRaces {h : History F} {base : Keyspace F} (hv : Vanishing h base) (t : Nat)
    (batches : List (List ByteArray)) : NoRaces h t batches := by
  rintro ⟨t, keys⟩ - ⟨p, hp, -, e, he, hne⟩
  have hkey : p.1 ∈ keys := List.mem_of_mem_filter (List.fst_mem_of_mem_zipIdx hp)
  obtain ⟨i, hi, htype⟩ := get?_seenTypes (h := h) (t := t) hkey
  have hlow := List.le_snd_of_mem_zipIdx hp
  have hbefore := hv.before (i := t + i * 2) (by dsimp only at hlow; omega) he
  refine hne ?_
  rw [seenType, htype, hbefore]
  rfl

/-! ## What is yielded -/

/-- An empty collection, which Redis never stores. -/
def IsEmptyCollection : RedisValue F → Prop
  | .hash h => h.size = 0
  | .list xs => xs = []
  | .set s => s.elems = []
  | .zset xs => xs = []
  | _ => False

/-- The record says what `base` holds under the key. -/
structure Faithful (base : Keyspace F) (key : ByteArray) (r : RedisRecord F) : Prop where
  name : r.key = decodeKey key
  content : ∃ e, base key = some e ∧ r.type = e.data.typeName ∧
    (r.type ∈ supportedTypes → r.value = e.data.read ∧ (r.ttlMs = none ↔ e.expireAt = none))
  solid : r.value ≠ .none ∧ ¬ IsEmptyCollection r.value

theorem ttl_eq_none_iff {m : Moment F} {key : ByteArray} {e : Stored F}
    (he : m.keyspace key = some e) : m.ttl key = none ↔ e.expireAt = none := by
  unfold Moment.ttl pttlOf
  rw [he]
  cases hx : e.expireAt with
  | none => simp [ttlOf, hx]
  | some at_ => simp [ttlOf, hx]

theorem read_solid (d : Data F) : d.read ≠ .none ∧ ¬ IsEmptyCollection d.read := by
  cases d with
  | string b => exact ⟨nofun, id⟩
  | hash h ne => exact ⟨nofun, ne⟩
  | list xs ne => exact ⟨nofun, ne⟩
  | set s ne => exact ⟨nofun, ne⟩
  | zset xs ne => exact ⟨nofun, ne⟩
  | other name foreign => exact ⟨nofun, id⟩

theorem recordAt_faithful {h : History F} {base : Keyspace F} (hv : Vanishing h base) {t : Nat}
    {keys : List ByteArray} {key : ByteArray} (hkey : key ∈ keys) {r : RedisRecord F}
    (hr : recordAt h t keys key = some r) : Faithful base key r := by
  obtain ⟨hname, hne, ⟨i, -, hi, htype⟩, ⟨j, -, hj, httl⟩, k, hk, -, hown, hforeign⟩ :=
    recordAt_some hkey hr
  cases hthere : (h i).keyspace key with
  | none => rw [hthere] at htype; exact absurd htype hne
  | some e =>
    rw [hthere] at htype
    have hbase := hv.kept i key e hthere
    by_cases hty : r.type ∈ supportedTypes
    · obtain ⟨e', he', -, hvalue⟩ := hown hty
      -- the key is the same at the value read, so also at its `PTTL`
      have hsame : e' = e := by
        have := hv.kept k key e' he'
        rw [hbase] at this
        exact (Option.some.inj this).symm
      subst hsame
      have hbefore := hv.before (i := j) (by omega) he'
      refine ⟨hname, ⟨e', hbase, htype, fun _ => ⟨hvalue, ?_⟩⟩, hvalue ▸ read_solid e'.data⟩
      rw [httl]
      exact ttl_eq_none_iff hbefore
    · obtain ⟨n, hn⟩ := hforeign hty
      exact ⟨hname, ⟨e, hbase, htype, fun h => absurd h hty⟩, by rw [hn]; exact ⟨nofun, id⟩⟩

/-- A key that is there at the last read of its batch is not missed. -/
theorem recordAt_isSome {h : History F} {base : Keyspace F} (hv : Vanishing h base) {t : Nat}
    {keys : List ByteArray} {key : ByteArray} (hkey : key ∈ keys)
    (halive : (h (finish h t keys - 1)).keyspace key ≠ none) : (recordAt h t keys key).isSome := by
  obtain ⟨e, he⟩ := Option.ne_none_iff_exists'.1 halive
  obtain ⟨i, -, -, hrec⟩ := recordAt_of_stays (h := h) (t := t) hkey (e := e)
    fun i _ hi => hv.before (by omega) he
  rw [hrec]
  rfl

/-! ## Cutting the stream -/

/-- A run whose batches read each key as `f` says, seen through `g`. -/
theorem map_yielded {β : Type} {h : History F} {f : ByteArray → Option β} {g : RedisRecord F → β}
    (hf : ∀ t keys, ∀ key ∈ keys, (recordAt h t keys key).map g = f key) (t : Nat)
    (batches : List (List ByteArray)) : (yielded h t batches).map g = batches.flatten.filterMap f := by
  induction batches generalizing t with
  | nil => rfl
  | cons keys batches ih =>
    have hyield : yielded h t (keys :: batches) =
        keys.filterMap (recordAt h t keys) ++ yielded h (finish h t keys) batches := rfl
    rw [hyield, List.map_append, ih, List.flatten_cons, List.filterMap_append, List.map_filterMap,
      List.filterMap_congr (hf t keys)]

/-- A record without its TTL, but whether it has one. -/
def sansTtl (r : RedisRecord F) : Key × String × RedisValue F × Bool :=
  (r.key, r.type, r.value, r.ttlMs.isSome)

theorem recordAt_fixed {h : History F} {base : Keyspace F} (hfix : ∀ i, (h i).keyspace = base)
    (t : Nat) {keys : List ByteArray} {key : ByteArray} (hkey : key ∈ keys) :
    recordAt h t keys key = none ∧ base key = none ∨
      ∃ e i, base key = some e ∧ recordAt h t keys key =
        some { key := decodeKey key, type := e.data.typeName, value := e.data.read
               ttlMs := (h i).ttl key } := by
  cases he : base key with
  | none =>
    refine .inl ⟨?_, rfl⟩
    cases hr : recordAt h t keys key with
    | none => rfl
    | some r =>
      obtain ⟨-, hne, ⟨i, -, -, htype⟩, -⟩ := recordAt_some hkey hr
      rw [hfix i, he] at htype
      exact absurd htype hne
  | some e =>
    obtain ⟨i, -, -, hrec⟩ := recordAt_of_stays (h := h) (t := t) hkey (e := e)
      fun i _ _ => by rw [hfix i, he]
    exact .inr ⟨e, i, rfl, hrec⟩

/-- If nothing disappears, the cut shows in the TTLs at most. -/
theorem yielded_fixed {h : History F} {base : Keyspace F} (hfix : ∀ i, (h i).keyspace = base)
    (t : Nat) (batches : List (List ByteArray)) :
    (yielded h t batches).map sansTtl = batches.flatten.filterMap fun key =>
      (base key).map fun e => (decodeKey key, e.data.typeName, e.data.read, e.expireAt.isSome) := by
  refine map_yielded (fun t keys key hkey => ?_) t batches
  rcases recordAt_fixed hfix t hkey with ⟨hr, hb⟩ | ⟨e, i, hb, hr⟩
  · rw [hr, hb]; rfl
  · have he : (h i).keyspace key = some e := by rw [hfix i, hb]
    have httl := ttl_eq_none_iff he
    rw [hr, hb, Option.map_some, Option.map_some, sansTtl]
    cases ht : (h i).ttl key <;> cases hx : e.expireAt <;> simp_all

/-- If the clock stands still as well, not even there. -/
theorem yielded_frozen {h : History F} {m : Moment F} (hfix : ∀ i, h i = m) (t : Nat)
    (batches : List (List ByteArray)) :
    yielded h t batches = batches.flatten.filterMap fun key => (m.keyspace key).map fun e =>
      { key := decodeKey key, type := e.data.typeName, value := e.data.read, ttlMs := m.ttl key } := by
  have hmap := map_yielded (h := h) (g := id) (f := fun key => (m.keyspace key).map fun e =>
    ({ key := decodeKey key, type := e.data.typeName, value := e.data.read
       ttlMs := m.ttl key } : RedisRecord F)) (fun t keys key hkey => ?_) t batches
  · rwa [List.map_id] at hmap
  · rcases recordAt_fixed (fun i => congrArg Moment.keyspace (hfix i)) t hkey with
      ⟨hr, hb⟩ | ⟨e, i, hb, hr⟩
    · rw [hr, hb]; rfl
    · rw [hr, hb, hfix i]; rfl

/-- **A scan while keys disappear.** -/
theorem scan_faithful {h : History F} {base : Keyspace F} (hv : Vanishing h base) (t : Nat)
    (batches : List (List ByteArray)) :
    (∃ yields : Nat → List ByteArray → ByteArray → Option (RedisRecord F),
      iterRecords h t batches =
        ((starts h t batches).flatMap fun s => s.2.filterMap (yields s.1 s.2), none) ∧
      ∀ s ∈ starts h t batches, ∀ key ∈ s.2,
        (∀ r, yields s.1 s.2 key = some r → Faithful base key r) ∧
        ((h (finish h s.1 s.2 - 1)).keyspace key ≠ none → (yields s.1 s.2 key).isSome)) ∧
    ((∀ i, (h i).keyspace = base) → ∀ t' batches', batches'.flatten = batches.flatten →
      (iterRecords h t' batches').1.map sansTtl = (iterRecords h t batches).1.map sansTtl ∧
      ((∀ i, (h i).now = (h 0).now) → iterRecords h t' batches' = iterRecords h t batches)) ∧
    (∀ before last after, (∀ p ∈ before, p.1 ≠ 0) →
      (scanBatches (before ++ (0, last) :: after)).flatten = before.flatMap Prod.snd ++ last) ∧
    (∀ pages, ∀ batch ∈ scanBatches pages, batch ≠ [] ∧ ∃ cursor, (cursor, batch) ∈ pages) ∧
    ∀ batchSize keys, (clusterBatches batchSize [] keys).flatten = keys ∧
      ∀ chunk ∈ clusterBatches batchSize [] keys,
        chunk ≠ [] ∧ (chunk.length : Int) ≤ max 1 batchSize := by
  refine ⟨⟨recordAt h, iterRecords_eq (hv.noRaces t batches), fun s _ key hkey =>
    ⟨fun r hr => recordAt_faithful hv hkey hr, recordAt_isSome hv hkey⟩⟩,
    fun hfix t' batches' hflat => ⟨?_, fun hnow => ?_⟩,
    fun before last after h => scanBatches_flatten h last after, fun pages batch => mem_scanBatches,
    fun batchSize keys => ⟨clusterBatches_flatten batchSize [] keys, clusterBatches_length
      (by rw [List.length_nil]; omega)⟩⟩
  · rw [iterRecords_eq (hv.noRaces t' batches'), iterRecords_eq (hv.noRaces t batches),
      yielded_fixed hfix, yielded_fixed hfix, hflat]
  · have hsame : ∀ i, h i = ⟨base, (h 0).now⟩ := fun i => by
      rw [← hfix i, ← hnow i]
    rw [iterRecords_eq (hv.noRaces t' batches'), iterRecords_eq (hv.noRaces t batches),
      yielded_frozen hsame, yielded_frozen hsame, hflat]

end

/-- A list of one element. -/
def oneElement : Data String := .list ["y".toByteArray] (List.cons_ne_nil _ _)

/-- A string `a`, and a list `b` that expires before its value is read. -/
def expiring : History String := fun i =>
  { now := i
    keyspace := fun key =>
      if key = "a".toByteArray then some ⟨.string "x".toByteArray, none⟩
      else if key = "b".toByteArray ∧ i < 6 then some ⟨oneElement, some 6⟩
      else none }

theorem expiring_vanishing : Vanishing expiring (expiring 0).keyspace where
  kept i key e he := by
    simp only [expiring] at he ⊢
    split at he
    · rename_i ha; rw [if_pos ha]; exact he
    · rename_i ha
      split at he
      · rename_i hb; rw [if_neg ha, if_pos ⟨hb.1, by omega⟩]; exact he
      · cases he
  gone i key he := by
    simp only [expiring] at he ⊢
    split at he
    · cases he
    · rename_i ha
      split at he
      · cases he
      · rename_i hb
        rw [if_neg ha, if_neg fun h => hb ⟨h.1, by omega⟩]

/-- The scan passes over `b`, and reads both occurrences of `a`. -/
theorem scan_faithful_expiring :
    (iterRecords expiring 0 [["a".toByteArray, "b".toByteArray, "a".toByteArray]]).2 = none ∧
    (iterRecords expiring 0 [["a".toByteArray, "b".toByteArray, "a".toByteArray]]).1.map
      RedisRecord.key = [.str "a", .str "a"] := by
  obtain ⟨yields, h, -⟩ := (scan_faithful expiring_vanishing 0
    [["a".toByteArray, "b".toByteArray, "a".toByteArray]]).1
  exact ⟨by rw [h], by decide +kernel⟩

end RedisToAerospike.L2
