import RedisToAerospike.L2Read.RedisSource

/-!
# What one batch reads

The replies of a pipeline are flat lists, matched to the keys by position and
then put into dictionaries by key, so a repeated key is read by its last
occurrence.

* `fetchTypesAndTtls_eq`, `fetchValues_eq`: the dictionaries, in terms of what
  the commands meet.
* `readBatch_eq`: a batch reads the records of its keys, in order, unless a
  key changes its type between the pipelines (`Races`).
-/
namespace RedisToAerospike.L2
open L1

/-- Two replies for each key: the even and the odd positions. -/
theorem getElem?_flatMap_pair {α β : Type} (f g : α → β) (xs : List α) (i : Nat) :
    (xs.flatMap fun x => [f x, g x])[i * 2]? = xs[i]?.map f ∧
      (xs.flatMap fun x => [f x, g x])[i * 2 + 1]? = xs[i]?.map g := by
  induction xs generalizing i with
  | nil => simp
  | cons x xs ih =>
    cases i with
    | zero => simp
    | succ i =>
      rw [show (i + 1) * 2 = i * 2 + 2 by omega]
      simpa using ih i

/-- A dictionary filled from numbered keys holds one of a key's numbers. -/
theorem get?_numbered {β : Type} (f : ByteArray × Nat → β) {keys : List ByteArray} {n : Nat}
    {key : ByteArray} (hkey : key ∈ keys) :
    ∃ i, (key, i) ∈ keys.zipIdx n ∧
      (Dict.ofPairs ((keys.zipIdx n).map fun p => (p.1, f p))).get? key = some (f (key, i)) := by
  have hmem : key ∈ ((keys.zipIdx n).map fun p => (p.1, f p)).map Prod.fst := by
    have hfst : (Prod.fst ∘ fun p : ByteArray × Nat => (p.1, f p)) = Prod.fst := rfl
    rw [List.map_map, hfst, List.zipIdx_map_fst]
    exact hkey
  obtain ⟨v, hv, hget⟩ := Dict.get?_ofPairs_of_mem hmem
  obtain ⟨p, hp, he⟩ := List.mem_map.1 hv
  cases he
  exact ⟨p.2, hp, hget⟩

section
variable {F : Type}

/-! ## Types and TTLs -/

/-- The TTL a `PTTL` gives. -/
def Moment.ttl (m : Moment F) (key : ByteArray) : Option Int :=
  ttlOf (F := F) (.int (pttlOf m.now (m.keyspace key)))

/-- The types, by the last `TYPE` of each key. -/
def seenTypes (h : History F) (t : Nat) (keys : List ByteArray) : Dict ByteArray String :=
  Dict.ofPairs (keys.zipIdx.map fun p => (p.1, typeNameOf ((h (t + p.2 * 2)).keyspace p.1)))

/-- The TTLs, by the last `PTTL` of each key. -/
def seenTtls (h : History F) (t : Nat) (keys : List ByteArray) : Dict ByteArray (Option Int) :=
  Dict.ofPairs (keys.zipIdx.map fun p => (p.1, (h (t + (p.2 * 2 + 1))).ttl p.1))

theorem typeOf_answer (m : Moment F) (key : ByteArray) :
    typeOf (m.answer ⟨.type, key⟩) = typeNameOf (m.keyspace key) :=
  Utf8.decodeReplace_toByteArray _

theorem fetchTypesAndTtls_eq (h : History F) (t : Nat) (keys : List ByteArray) :
    fetchTypesAndTtls h t keys = .ok (seenTypes h t keys, seenTtls h t keys) := by
  unfold fetchTypesAndTtls
  have hexec : execute h t (keys.flatMap fun key => [⟨.type, key⟩, ⟨.pttl, key⟩]) =
      .ok (answers h t (keys.flatMap fun key => [⟨.type, key⟩, ⟨.pttl, key⟩])) := by
    refine execute_ok fun a ha => ?_
    obtain ⟨p, hp, rfl⟩ := List.mem_map.1 ha
    obtain ⟨key, -, hc⟩ := List.mem_flatMap.1 (List.fst_mem_of_mem_zipIdx hp)
    simp only [List.mem_cons, List.not_mem_nil, or_false] at hc
    rcases hc with hc | hc <;> rw [hc] <;> rfl
  have hrows : ∀ p ∈ keys.zipIdx,
      typeAndTtl (answers h t (keys.flatMap fun key => [⟨.type, key⟩, ⟨.pttl, key⟩])) p =
        .ok (p.1, typeNameOf ((h (t + p.2 * 2)).keyspace p.1), (h (t + (p.2 * 2 + 1))).ttl p.1) := by
    intro p hp
    have hkey := List.mem_zipIdx_iff_getElem?.1 hp
    have hpair := getElem?_flatMap_pair (fun key => (⟨.type, key⟩ : Command))
      (fun key => ⟨.pttl, key⟩) keys p.2
    rw [hkey] at hpair
    simp only [typeAndTtl, item, getElem?_answers, hpair.1, hpair.2, Option.map_some]
    exact congrArg (fun ty => Except.ok (p.1, ty, _)) (typeOf_answer _ p.1)
  rw [hexec]
  simp only [bind, Except.bind, Fallible.mapM_eq_map hrows, List.map_map]
  rfl

theorem get?_seenTypes {h : History F} {t : Nat} {keys : List ByteArray} {key : ByteArray}
    (hkey : key ∈ keys) : ∃ i < keys.length,
      (seenTypes h t keys).get? key = some (typeNameOf ((h (t + i * 2)).keyspace key)) := by
  obtain ⟨i, hi, hget⟩ := get?_numbered (fun p => typeNameOf ((h (t + p.2 * 2)).keyspace p.1))
    (n := 0) hkey
  exact ⟨i, List.snd_lt_of_mem_zipIdx hi, hget⟩

theorem get?_seenTtls {h : History F} {t : Nat} {keys : List ByteArray} {key : ByteArray}
    (hkey : key ∈ keys) : ∃ i < keys.length,
      (seenTtls h t keys).get? key = some ((h (t + (i * 2 + 1))).ttl key) := by
  obtain ⟨i, hi, hget⟩ := get?_numbered (fun p => (h (t + (p.2 * 2 + 1))).ttl p.1) (n := 0) hkey
  exact ⟨i, List.snd_lt_of_mem_zipIdx hi, hget⟩

/-- The type a key was last seen with. -/
def seenType (h : History F) (t : Nat) (keys : List ByteArray) (key : ByteArray) : String :=
  ((seenTypes h t keys).get? key).getD "none"

/-! ## Values -/

/-- The keys a value is asked for. -/
def asked (h : History F) (t : Nat) (keys : List ByteArray) : List ByteArray :=
  keys.filter fun key => seenType h t keys key ≠ "none"

/-- The values, by the last read of each key. -/
def seenValues (h : History F) (t : Nat) (keys : List ByteArray) :
    Dict ByteArray (RedisValue F) :=
  Dict.ofPairs (((asked h t keys).zipIdx (t + 2 * keys.length)).map fun p =>
    (p.1, valueOf ((h p.2).answer ⟨readVerb (seenType h t keys p.1), p.1⟩)))

/-- The tick after the last command of the batch. -/
def finish (h : History F) (t : Nat) (keys : List ByteArray) : Nat :=
  t + 2 * keys.length + (asked h t keys).length

/-- A key has another type when its value is read than the one it was last
seen with. -/
def Races (h : History F) (t : Nat) (keys : List ByteArray) : Prop :=
  ∃ p ∈ (asked h t keys).zipIdx (t + 2 * keys.length), seenType h t keys p.1 ∈ supportedTypes ∧
    ∃ e, (h p.2).keyspace p.1 = some e ∧ e.data.typeName ≠ seenType h t keys p.1

/-- A value command against a missing key, a key of its type and another. -/
theorem answer_readVerb (m : Moment F) (key : ByteArray) {ty : String} (hty : ty ∈ supportedTypes) :
    m.answer ⟨readVerb ty, key⟩ =
      match m.keyspace key with
      | none => .value (readVerb ty).absent
      | some e => if e.data.typeName = ty then .value e.data.read else .error WRONGTYPE := by
  simp only [supportedTypes, List.mem_cons, List.not_mem_nil, or_false] at hty
  cases hm : m.keyspace key with
  | none => rcases hty with rfl | rfl | rfl | rfl | rfl <;> simp [Moment.answer, readVerb, hm]
  | some e =>
    obtain ⟨data, expireAt⟩ := e
    cases data with
    | other name foreign =>
      have hne : name ≠ ty := by
        intro e
        subst e
        refine foreign (List.mem_cons_of_mem _ ?_)
        simpa [supportedTypes] using hty
      rcases hty with rfl | rfl | rfl | rfl | rfl <;>
        simp [Moment.answer, readVerb, hm, Verb.pick, Data.typeName, hne]
    | _ =>
      rcases hty with rfl | rfl | rfl | rfl | rfl <;>
        simp [Moment.answer, readVerb, hm, Verb.pick, Data.typeName, Data.read]

theorem readVerb_foreign {ty : String} (hty : ty ∉ supportedTypes) : readVerb ty = .exists_ := by
  simp only [supportedTypes, List.mem_cons, List.not_mem_nil, or_false, not_or] at hty
  simp [readVerb, hty]

/-- An empty read of a supported type is a key that vanished, and no stored
value reads empty. -/
theorem isVanished_absent {ty : String} (hty : ty ∈ supportedTypes) :
    isVanished ty ((readVerb ty).absent : RedisValue F) = true := by
  simp only [supportedTypes, List.mem_cons, List.not_mem_nil, or_false] at hty
  rcases hty with rfl | rfl | rfl | rfl | rfl <;> rfl

theorem isVanished_read (d : Data F) : isVanished d.typeName d.read = false := by
  cases d with
  | other name foreign =>
    simp only [supportedTypes, List.mem_cons, List.not_mem_nil, or_false, not_or] at foreign
    simp [isVanished, Data.typeName, foreign]
  | string b => rfl
  | hash h ne => simp [isVanished, Data.typeName, Data.read, isEmptyValue, ne]
  | list xs ne => simp [isVanished, Data.typeName, Data.read, isEmptyValue, ne]
  | set s ne => simp [isVanished, Data.typeName, Data.read, isEmptyValue, ne]
  | zset xs ne => simp [isVanished, Data.typeName, Data.read, isEmptyValue, ne]

theorem answer_error_iff (m : Moment F) (key : ByteArray) (ty : String) :
    (m.answer ⟨readVerb ty, key⟩).error? ≠ none ↔
      ty ∈ supportedTypes ∧ ∃ e, m.keyspace key = some e ∧ e.data.typeName ≠ ty := by
  by_cases hty : ty ∈ supportedTypes
  · rw [answer_readVerb m key hty]
    cases hm : m.keyspace key with
    | none => simp [Answer.error?]
    | some e => by_cases he : e.data.typeName = ty <;> simp [Answer.error?, hty, he]
  · rw [readVerb_foreign hty]
    simp [Moment.answer, Answer.error?, hty]

/-- What the value pipeline asks. -/
def valueCommands (h : History F) (t : Nat) (keys : List ByteArray) : List Command :=
  (asked h t keys).map fun key => ⟨readVerb (seenType h t keys key), key⟩

theorem fetchValues_eq {h : History F} {t : Nat} {keys : List ByteArray} :
    fetchValues h (t + 2 * keys.length) keys (seenTypes h t keys) =
      match execute h (t + 2 * keys.length) (valueCommands h t keys) with
      | .error exc => .error exc
      | .ok _ => .ok (seenValues h t keys, (asked h t keys).length) := by
  have htyped : ∀ key ∈ keys, typedKey (seenTypes h t keys) key =
      .ok (key, seenType h t keys key) := by
    intro key hkey
    obtain ⟨i, -, hget⟩ := get?_seenTypes (h := h) (t := t) hkey
    simp [typedKey, subscript, seenType, hget]
  have hordered : (keys.map fun key => (key, seenType h t keys key)).filter (fun p => p.2 ≠ "none") =
      (asked h t keys).map fun key => (key, seenType h t keys key) := by
    rw [List.filter_map]; rfl
  have hkeys : ((asked h t keys).map fun key => (key, seenType h t keys key)).map Prod.fst =
      asked h t keys := by
    rw [List.map_map]; exact List.map_id _
  have hcommands : ((asked h t keys).map fun key => (key, seenType h t keys key)).map
      (fun p => (⟨readVerb p.2, p.1⟩ : Command)) = valueCommands h t keys := by
    rw [List.map_map]; rfl
  unfold fetchValues
  simp only [bind, Except.bind, Fallible.mapM_eq_map htyped, hordered, hkeys, hcommands]
  cases hexec : execute h (t + 2 * keys.length) (valueCommands h t keys) with
  | error exc => rfl
  | ok results =>
    have hzip : (asked h t keys).zip (results.map valueOf) =
        ((asked h t keys).zipIdx (t + 2 * keys.length)).map fun p =>
          (p.1, valueOf ((h p.2).answer ⟨readVerb (seenType h t keys p.1), p.1⟩)) := by
      rw [eq_answers_of_execute hexec, answers, valueCommands, List.zipIdx_map, List.map_map,
        List.map_map]
      nth_rewrite 1 [← List.zipIdx_map_fst (t + 2 * keys.length) (asked h t keys)]
      rw [List.zip_map']
      rfl
    simp only [hzip, List.length_map]
    rfl

/-! ## The batch -/

/-- What the batch yields for a key. -/
def recordAt (h : History F) (t : Nat) (keys : List ByteArray) (key : ByteArray) :
    Option (RedisRecord F) :=
  match if seenType h t keys key = "none" then none else (seenValues h t keys).get? key with
  | none => none
  | some value =>
    if isVanished (seenType h t keys key) value then none
    else
      some { key := decodeKey key, type := seenType h t keys key, value
             ttlMs := ((seenTtls h t keys).get? key).join }

theorem yieldOne_eq {h : History F} {t : Nat} {keys : List ByteArray} {key : ByteArray}
    (hkey : key ∈ keys) :
    yieldOne (seenTypes h t keys) (seenTtls h t keys) (seenValues h t keys) key =
      .ok (recordAt h t keys key) := by
  obtain ⟨i, -, htype⟩ := get?_seenTypes (h := h) (t := t) hkey
  obtain ⟨j, -, httl⟩ := get?_seenTtls (h := h) (t := t) hkey
  have hseen : seenType h t keys key = typeNameOf ((h (t + i * 2)).keyspace key) := by
    rw [seenType, htype]; rfl
  unfold yieldOne recordAt
  simp only [subscript, htype, httl, bind, Except.bind, hseen, Option.join_some]
  generalize (if typeNameOf ((h (t + i * 2)).keyspace key) = "none" then none
    else (seenValues h t keys).get? key) = found
  cases found with
  | none => rfl
  | some value => dsimp only; split <;> rfl

theorem mem_answers_of_asked {h : History F} {t : Nat} {keys : List ByteArray} {p : ByteArray × Nat}
    (hp : p ∈ (asked h t keys).zipIdx (t + 2 * keys.length)) :
    (h p.2).answer ⟨readVerb (seenType h t keys p.1), p.1⟩ ∈
      answers h (t + 2 * keys.length) (valueCommands h t keys) := by
  rw [answers, valueCommands, List.zipIdx_map, List.map_map]
  exact List.mem_map_of_mem hp

/-- A batch reads the records of its keys, in order. -/
theorem readBatch_eq {h : History F} {t : Nat} {keys : List ByteArray} (hno : ¬ Races h t keys) :
    readBatch h t keys = .ok (keys.filterMap (recordAt h t keys), finish h t keys) := by
  have hexec : execute h (t + 2 * keys.length) (valueCommands h t keys) =
      .ok (answers h (t + 2 * keys.length) (valueCommands h t keys)) := by
    refine execute_ok fun a ha => ?_
    rw [answers, valueCommands, List.zipIdx_map, List.map_map] at ha
    obtain ⟨p, hp, rfl⟩ := List.mem_map.1 ha
    by_contra he
    exact hno ⟨p, hp, (answer_error_iff _ _ _).1 he⟩
  have hrecords : keys.mapM (yieldOne (seenTypes h t keys) (seenTtls h t keys)
      (seenValues h t keys)) = .ok (keys.map (recordAt h t keys)) :=
    Fallible.mapM_eq_map fun key hkey => yieldOne_eq hkey
  unfold readBatch
  simp only [fetchTypesAndTtls_eq, fetchValues_eq, hexec, bind, Except.bind, hrecords,
    List.filterMap_map]
  rfl

/-- One key that races ends the batch, and the run. -/
theorem readBatch_races {h : History F} {t : Nat} {keys : List ByteArray} (hr : Races h t keys) :
    ∃ exc, readBatch h t keys = .error exc := by
  obtain ⟨p, hp, hrace⟩ := hr
  obtain ⟨msg, hmsg⟩ := execute_error (mem_answers_of_asked hp) ((answer_error_iff _ _ _).2 hrace)
  refine ⟨.other "ResponseError" msg, ?_⟩
  unfold readBatch
  simp only [fetchTypesAndTtls_eq, fetchValues_eq, hmsg, bind, Except.bind]

/-! ## What a record says -/

/-- Reading a key by its own type. -/
theorem valueOf_own {m : Moment F} {key : ByteArray} {e : Stored F}
    (he : m.keyspace key = some e) :
    valueOf (m.answer ⟨readVerb e.data.typeName, key⟩) = e.data.read := by
  by_cases hty : e.data.typeName ∈ supportedTypes
  · rw [answer_readVerb m key hty, he]
    simp [valueOf]
  · rw [readVerb_foreign hty]
    obtain ⟨data, expireAt⟩ := e
    cases data with
    | other name foreign => simp [Moment.answer, he, valueOf, Data.read]
    | _ => exact absurd (by simp [supportedTypes, Data.typeName]) hty

/-- What does not read as vanished was there, with that type. -/
theorem valueOf_present {m : Moment F} {key : ByteArray} {ty : String} (hty : ty ∈ supportedTypes)
    (hv : isVanished ty (valueOf (m.answer ⟨readVerb ty, key⟩)) = false) :
    ∃ e, m.keyspace key = some e ∧ e.data.typeName = ty ∧
      valueOf (m.answer ⟨readVerb ty, key⟩) = e.data.read := by
  rw [answer_readVerb m key hty] at hv ⊢
  cases hm : m.keyspace key with
  | none =>
    rw [hm] at hv
    simp [valueOf, isVanished_absent hty] at hv
  | some e =>
    rw [hm] at hv
    by_cases he : e.data.typeName = ty
    · exact ⟨e, rfl, he, by simp [he, valueOf]⟩
    · have herr : isVanished ty (.none : RedisValue F) = true := by
        simp only [supportedTypes, List.mem_cons, List.not_mem_nil, or_false] at hty
        rcases hty with rfl | rfl | rfl | rfl | rfl <;> rfl
      simp [he, valueOf, herr] at hv

/-- A key that stays as it is during the batch yields its record. -/
theorem recordAt_of_stays {h : History F} {t : Nat} {keys : List ByteArray} {key : ByteArray}
    (hkey : key ∈ keys) {e : Stored F}
    (hstays : ∀ i, t ≤ i → i < finish h t keys → (h i).keyspace key = some e) :
    ∃ i, t ≤ i ∧ i < finish h t keys ∧ recordAt h t keys key =
      some { key := decodeKey key, type := e.data.typeName, value := e.data.read
             ttlMs := (h i).ttl key } := by
  obtain ⟨i, hi, htype⟩ := get?_seenTypes (h := h) (t := t) hkey
  obtain ⟨j, hj, httl⟩ := get?_seenTtls (h := h) (t := t) hkey
  have hfin : t + 2 * keys.length ≤ finish h t keys := by unfold finish; omega
  have hseen : seenType h t keys key = e.data.typeName := by
    rw [seenType, htype, hstays (t + i * 2) (by omega) (by omega)]; rfl
  have hasked : key ∈ asked h t keys :=
    List.mem_filter.2 ⟨hkey, by simpa [hseen] using e.data.typeName_ne_none⟩
  obtain ⟨k, hk, hvalue⟩ := get?_numbered (fun p =>
    valueOf ((h p.2).answer ⟨readVerb (seenType h t keys p.1), p.1⟩)) (n := t + 2 * keys.length) hasked
  have hlow := List.le_snd_of_mem_zipIdx hk
  have hhigh := List.snd_lt_of_mem_zipIdx hk
  have hthere : (h k).keyspace key = some e := by
    refine hstays k ?_ ?_
    · dsimp only at hlow; omega
    · unfold finish; dsimp only at hhigh; omega
  have hget : (seenValues h t keys).get? key = some e.data.read := by
    rw [seenValues, hvalue, hseen, valueOf_own hthere]
  refine ⟨t + (j * 2 + 1), by omega, by omega, ?_⟩
  simp [recordAt, hseen, e.data.typeName_ne_none, hget, isVanished_read, httl]

/-- A record of a supported type was there, with its value, when it was
read, and with its type and TTL before. -/
theorem recordAt_some {h : History F} {t : Nat} {keys : List ByteArray} {key : ByteArray}
    (hkey : key ∈ keys) {r : RedisRecord F} (hr : recordAt h t keys key = some r) :
    r.key = decodeKey key ∧ r.type ≠ "none" ∧
    (∃ i, t ≤ i ∧ i < t + 2 * keys.length ∧ r.type = typeNameOf ((h i).keyspace key)) ∧
    (∃ i, t ≤ i ∧ i < t + 2 * keys.length ∧ r.ttlMs = (h i).ttl key) ∧
    ∃ i, t + 2 * keys.length ≤ i ∧ i < finish h t keys ∧
      (r.type ∈ supportedTypes → ∃ e, (h i).keyspace key = some e ∧ e.data.typeName = r.type ∧
        r.value = e.data.read) ∧
      (r.type ∉ supportedTypes → ∃ n, r.value = .exists n) := by
  obtain ⟨i, hi, htype⟩ := get?_seenTypes (h := h) (t := t) hkey
  obtain ⟨j, hj, httl⟩ := get?_seenTtls (h := h) (t := t) hkey
  have hseen : seenType h t keys key = typeNameOf ((h (t + i * 2)).keyspace key) := by
    rw [seenType, htype]; rfl
  unfold recordAt at hr
  split at hr
  · cases hr
  · rename_i value hfound
    split at hr
    · cases hr
    · rename_i hvan
      cases hr
      have hne : seenType h t keys key ≠ "none" := by
        intro he; rw [if_pos he] at hfound; cases hfound
      rw [if_neg hne] at hfound
      obtain ⟨p, hp, he⟩ := List.mem_map.1 (Dict.mem_of_get?_ofPairs hfound)
      cases he
      have hlow := List.le_snd_of_mem_zipIdx hp
      have hhigh := List.snd_lt_of_mem_zipIdx hp
      refine ⟨rfl, hne, ⟨t + i * 2, by omega, by omega, hseen⟩,
        ⟨t + (j * 2 + 1), by omega, by omega, by simp [httl]⟩, p.2, hlow,
        by unfold finish; omega, fun hty => ?_, fun hty => ?_⟩
      · exact valueOf_present hty (by simpa using hvan)
      · dsimp only at hty ⊢
        rw [readVerb_foreign hty]
        exact ⟨_, rfl⟩

end

end RedisToAerospike.L2
