import RedisToAerospike.L3Sink.WriteMany
import Mathlib.Data.List.Induction

/-!
# One batch against single writes

`write_many` collapses the records of a key to the last one. `write`, called
on the records one after another, lets each of them act.

* `batch_agrees_iff`: the exact condition, key by key, under which both leave
  one store and one class of outcome at each position.
* `batch_loses_a_bin`: an update whose earlier bin is lost.
-/
namespace RedisToAerospike.L3
open L1

/-- How a position fared. -/
inductive Outcome where
  | written
  | alreadyExists
  | tooLarge
  | failed
  deriving DecidableEq

/-- The class of what `write` does. -/
def singleOutcome : Except WriteError Unit → Outcome
  | .ok () => .written
  | .error .recordAlreadyExists => .alreadyExists
  | .error (.recordTooLarge _) => .tooLarge
  | .error (.client _) => .failed

/-- The class of an outcome of `write_many`. -/
def batchOutcome : Option String → Outcome
  | none => .written
  | some reason =>
    if reason = BATCH_RECORD_EXISTS_OUTCOME then .alreadyExists
    else if reason = "RecordTooLargeError" then .tooLarge else .failed

section
variable {F : Type} [OrderedLists F]

/-- `write` on each record in order. -/
def writeEach (config : AerospikeConfig) (S : Store F) :
    List (AerospikeRecord F) → Store F × List (Except WriteError Unit)
  | [] => (S, [])
  | r :: rs =>
    let call := write config S r
    let rest := writeEach config call.1 rs
    (rest.1, call.2 :: rest.2)

/-- One `write_many` does what the writes one by one do. -/
def BatchAgrees (config : AerospikeConfig) (S : Store F) (records : List (AerospikeRecord F)) :
    Prop :=
  (writeMany config S records).1 = (writeEach config S records).1 ∧
    (writeMany config S records).2.map batchOutcome =
      (writeEach config S records).2.map singleOutcome

/-- The bin of a record that may be missing. -/
def binsOf (old : Option (Entry F)) (b : String) : Option (Value F) := old.bind (·.bins b)

/-- What a key's records must satisfy in the store they meet. -/
def Settled (config : AerospikeConfig) (S : Store F) (records : List (AerospikeRecord F))
    (k : AerospikeKey) : Prop :=
  match config.recordExistsPolicy with
  | .replace => True
  | .createOnly => 2 ≤ (occurrences config records k).length → (S k).isSome
  | .update =>
    ∀ last, (occurrences config records k).getLast? = some last →
      ∀ b v, written last b = none →
        (occurrences config records k).reverse.findSome? (written · b) = some v →
          binsOf (S k) b = some v

/-! ## Single writes -/

/-- How a position fares in a store. -/
def outcomeAt (config : AerospikeConfig) (S : Store F) (r : AerospikeRecord F) : Outcome :=
  match keyOf config r with
  | none => .tooLarge
  | some k =>
    if config.recordExistsPolicy = .createOnly ∧ (S k).isSome then .alreadyExists else .written

theorem write_outcome (config : AerospikeConfig) (S : Store F) (r : AerospikeRecord F) :
    singleOutcome (write config S r).2 = outcomeAt config S r := by
  rw [write_eq]
  unfold outcomeAt keyOf
  cases tooLargeReason config r with
  | some reason => rfl
  | none => dsimp only; split <;> rfl

/-- The records that act. -/
def fitting (config : AerospikeConfig) (records : List (AerospikeRecord F)) :
    List (AerospikeRecord F) :=
  records.filter fun r => tooLargeReason config r = none

theorem writeEach_store (config : AerospikeConfig) (S : Store F)
    (records : List (AerospikeRecord F)) :
    (writeEach config S records).1 =
      Replay.replay (sinkKey config) (act config) S (fitting config records) := by
  induction records generalizing S with
  | nil => rfl
  | cons r rs ih =>
    rw [writeEach]
    dsimp only
    rw [ih, write_eq]
    unfold fitting
    cases ht : tooLargeReason config r with
    | some reason => rw [List.filter_cons_of_neg (by simp [ht])]
    | none => rw [List.filter_cons_of_pos (by simp [ht])]; rfl

omit [OrderedLists F] in
theorem filter_fitting (config : AerospikeConfig) (records : List (AerospikeRecord F))
    (k : AerospikeKey) :
    (fitting config records).filter (fun r => sinkKey config r = k) =
      occurrences config records k := by
  rw [fitting, List.filter_filter, occurrences]
  refine List.filter_congr fun r _ => ?_
  unfold keyOf
  cases tooLargeReason config r with
  | some reason => simp
  | none => simp

theorem writeEach_at (config : AerospikeConfig) (S : Store F)
    (records : List (AerospikeRecord F)) (k : AerospikeKey) :
    (writeEach config S records).1 k =
      (occurrences config records k).foldl (fun v r => act config r v) (S k) := by
  rw [writeEach_store, Replay.replay_at, filter_fitting]

/-! ## The store, key by key -/

theorem act_update {config : AerospikeConfig} (hp : config.recordExistsPolicy = .update)
    (r : AerospikeRecord F) (old : Option (Entry F)) :
    act config r old = some ⟨fun b => (written r b).or (binsOf old b), policyTtl r⟩ := by
  cases old with
  | none => simp [act, binsOf]
  | some e => simp [act, hp, binsOf]

theorem act_replace {config : AerospikeConfig} (hp : config.recordExistsPolicy = .replace)
    (r : AerospikeRecord F) (old : Option (Entry F)) :
    act config r old = some ⟨written r, policyTtl r⟩ := by
  cases old with
  | none => rfl
  | some e => simp [act, hp]

theorem act_createOnly {config : AerospikeConfig} (hp : config.recordExistsPolicy = .createOnly)
    (r : AerospikeRecord F) (e : Entry F) : act config r (some e) = some e := by
  simp [act, hp]

/-- Updates merge: the last TTL, and of each bin the last value written. -/
theorem foldl_update {config : AerospikeConfig} (hp : config.recordExistsPolicy = .update)
    (old : Option (Entry F)) (rs : List (AerospikeRecord F)) :
    rs.foldl (fun v r => act config r v) old =
      match rs.getLast? with
      | none => old
      | some last =>
        some ⟨fun b => (rs.reverse.findSome? (written · b)).or (binsOf old b), policyTtl last⟩ := by
  induction rs using List.reverseRecOn with
  | nil => rfl
  | append_singleton rs r ih =>
    rw [List.foldl_append, List.foldl_cons, List.foldl_nil, ih]
    simp only [List.getLast?_append, List.getLast?_singleton, Option.some_or, List.reverse_append,
      List.reverse_cons, List.reverse_nil, List.nil_append, List.singleton_append,
      List.findSome?_cons]
    -- what the records before `r` left under the key
    have hprev : ∀ b, binsOf (match rs.getLast? with
        | none => old
        | some last => some ⟨fun b => (rs.reverse.findSome? (written · b)).or (binsOf old b),
            policyTtl last⟩) b = (rs.reverse.findSome? (written · b)).or (binsOf old b) := by
      intro b
      cases hl : rs.getLast? with
      | none => rw [List.getLast?_eq_none_iff.1 hl]; simp
      | some last => rfl
    rw [act_update hp]
    congr 2
    funext b
    rw [hprev b]
    cases written r b <;> simp

/-- Replacing and creating: which record counts. -/
theorem foldl_replace {config : AerospikeConfig} (hp : config.recordExistsPolicy = .replace)
    (old : Option (Entry F)) (rs : List (AerospikeRecord F)) :
    rs.foldl (fun v r => act config r v) old =
      match rs.getLast? with
      | none => old
      | some last => act config last old := by
  rw [Replay.foldl_overwrite fun r _ v => act_replace hp r v]
  cases rs.getLast? with
  | none => rfl
  | some last => exact (act_replace hp last old).symm

theorem foldl_createOnly_present {config : AerospikeConfig}
    (hp : config.recordExistsPolicy = .createOnly) (e : Entry F) (rs : List (AerospikeRecord F)) :
    rs.foldl (fun v r => act config r v) (some e) = some e := by
  induction rs with
  | nil => rfl
  | cons r rs ih =>
    rw [List.foldl_cons, act_createOnly hp, ih]

/-- The stores agree under a key that is settled. -/
theorem store_agrees_of_settled {config : AerospikeConfig} {S : Store F}
    {records : List (AerospikeRecord F)} {k : AerospikeKey} (h : Settled config S records k) :
    (writeMany config S records).1 k = (writeEach config S records).1 k := by
  rw [writeMany_store, writeEach_at]
  unfold Settled at h
  generalize occurrences config records k = rs at h
  cases hp : config.recordExistsPolicy with
  | replace =>
    have hfold := foldl_replace hp (S k) rs
    cases hl : rs.getLast? with
    | none => rw [hl] at hfold; exact hfold.symm
    | some last => rw [hl] at hfold; exact hfold.symm
  | createOnly =>
    simp only [hp] at h
    cases hS : S k with
    | some e =>
      rw [foldl_createOnly_present hp]
      cases rs.getLast? with
      | none => rfl
      | some last => exact act_createOnly hp last e
    | none =>
      rw [hS] at h
      match rs with
      | [] => rfl
      | [r] => rfl
      | r :: r' :: rs => simp at h
  | update =>
    simp only [hp] at h
    rw [foldl_update hp]
    cases hl : rs.getLast? with
    | none => rfl
    | some last =>
      have hfirst : ∀ b v, written last b = some v →
          rs.reverse.findSome? (written · b) = some v := by
        intro b v hv
        obtain ⟨pre, rfl⟩ := List.getLast?_eq_some_iff.1 hl
        simp [hv]
      have hbins : ∀ b, (written last b).or (binsOf (S k) b) =
          (rs.reverse.findSome? (written · b)).or (binsOf (S k) b) := by
        intro b
        cases hw : written last b with
        | some v => rw [hfirst b v hw]
        | none =>
          cases hf : rs.reverse.findSome? (written · b) with
          | none => rfl
          | some v => rw [h last hl b v hw hf]; rfl
      dsimp only
      rw [act_update hp, funext hbins]

/-- Under updates the agreement of the stores settles the key. -/
theorem settled_of_store {config : AerospikeConfig} (hp : config.recordExistsPolicy = .update)
    {S : Store F} {records : List (AerospikeRecord F)} {k : AerospikeKey}
    (h : (writeMany config S records).1 k = (writeEach config S records).1 k) :
    Settled config S records k := by
  unfold Settled
  simp only [hp]
  intro last hl b v hw hf
  rw [writeMany_store, writeEach_at, foldl_update hp] at h
  simp only [hl] at h
  rw [act_update hp] at h
  have hb := congrArg (fun e => binsOf e b) h
  simpa [binsOf, hw, hf] using hb

/-! ## The outcomes -/

theorem batch_outcomes (config : AerospikeConfig) (S : Store F)
    (records : List (AerospikeRecord F)) :
    (writeMany config S records).2.map batchOutcome = records.map (outcomeAt config S) := by
  rw [writeMany_results, List.map_map]
  refine List.map_congr_left fun r _ => ?_
  unfold outcomeAt
  rw [Function.comp_apply]
  cases keyOf config r with
  | none => rfl
  | some k => dsimp only; split <;> rfl

omit [OrderedLists F] in
/-- Whether a position finds its key present is all that counts. -/
theorem outcomeAt_congr {config : AerospikeConfig} {S S' : Store F} {r : AerospikeRecord F}
    (h : ∀ k, keyOf config r = some k → (S k).isSome = (S' k).isSome) :
    outcomeAt config S r = outcomeAt config S' r := by
  unfold outcomeAt
  cases hk : keyOf config r with
  | none => rfl
  | some k => simp only [h k hk]

omit [OrderedLists F] in
theorem outcomeAt_of_ne {config : AerospikeConfig} (hp : config.recordExistsPolicy ≠ .createOnly)
    (S S' : Store F) (r : AerospikeRecord F) : outcomeAt config S r = outcomeAt config S' r := by
  unfold outcomeAt
  simp [hp]

theorem isSome_write (config : AerospikeConfig) (S : Store F) (r : AerospikeRecord F)
    (k : AerospikeKey) :
    ((write config S r).1 k).isSome = ((S k).isSome || decide (keyOf config r = some k)) := by
  rw [write_eq]
  unfold keyOf
  cases tooLargeReason config r with
  | some reason => simp
  | none =>
    by_cases h : sinkKey config r = k
    · subst h
      dsimp only
      rw [Replay.apply_self]
      cases hS : S (sinkKey config r) with
      | none => simp [act]
      | some e => cases hp : config.recordExistsPolicy <;> simp [act, hp]
    · simp [Replay.apply_of_ne h, h]

theorem single_outcomes_cons (config : AerospikeConfig) (S : Store F) (r : AerospikeRecord F)
    (rs : List (AerospikeRecord F)) :
    (writeEach config S (r :: rs)).2.map singleOutcome =
      outcomeAt config S r :: (writeEach config (write config S r).1 rs).2.map singleOutcome := by
  rw [writeEach, List.map_cons, write_outcome]

theorem single_outcomes_of_ne {config : AerospikeConfig}
    (hp : config.recordExistsPolicy ≠ .createOnly) (S S' : Store F)
    (records : List (AerospikeRecord F)) :
    (writeEach config S records).2.map singleOutcome = records.map (outcomeAt config S') := by
  induction records generalizing S with
  | nil => rfl
  | cons r rs ih =>
    rw [single_outcomes_cons, List.map_cons, ih, outcomeAt_of_ne hp S S']

/-- A key that has become present is reported as such at its next position,
where the batch, which looked once, says it was absent. -/
theorem outcomes_differ {config : AerospikeConfig} (hp : config.recordExistsPolicy = .createOnly)
    {S S' : Store F} {k : AerospikeKey} (hS : (S k).isSome) (hS' : (S' k).isSome = false)
    {rs : List (AerospikeRecord F)} (hne : occurrences config rs k ≠ []) :
    (writeEach config S rs).2.map singleOutcome ≠ rs.map (outcomeAt config S') := by
  induction rs generalizing S with
  | nil => exact absurd rfl hne
  | cons r rs ih =>
    intro he
    rw [single_outcomes_cons, List.map_cons, List.cons.injEq] at he
    by_cases hk : keyOf config r = some k
    · have h := he.1
      simp [outcomeAt, hk, hp, hS, hS'] at h
    · have hocc : occurrences config (r :: rs) k = occurrences config rs k := by
        simp [occurrences, hk]
      refine ih ?_ (hocc ▸ hne) he.2
      rw [isSome_write, hS]; rfl

/-- Creating: the positions agree exactly when no absent key comes twice. -/
theorem outcomes_agree_iff {config : AerospikeConfig}
    (hp : config.recordExistsPolicy = .createOnly) (S : Store F)
    (records : List (AerospikeRecord F)) :
    (writeEach config S records).2.map singleOutcome = records.map (outcomeAt config S) ↔
      ∀ k, 2 ≤ (occurrences config records k).length → (S k).isSome := by
  induction records generalizing S with
  | nil => exact ⟨fun _ k h => absurd h (by simp [occurrences]), fun _ => rfl⟩
  | cons r rs ih =>
    rw [single_outcomes_cons, List.map_cons, List.cons.injEq, and_iff_right rfl]
    have hcons : ∀ k, (occurrences config (r :: rs) k).length =
        (occurrences config rs k).length + if keyOf config r = some k then 1 else 0 := by
      intro k
      unfold occurrences
      by_cases h : keyOf config r = some k <;> simp [h]
    by_cases hfresh : ∃ k, keyOf config r = some k ∧ (S k).isSome = false ∧
        occurrences config rs k ≠ []
    · -- the key of `r` is created by it and comes again
      obtain ⟨k, hk, hS, hne⟩ := hfresh
      have hpos := List.length_pos_iff.2 hne
      have hw : ((write config S r).1 k).isSome = true := by rw [isSome_write, hk]; simp
      refine ⟨fun he => absurd he (outcomes_differ hp hw hS hne), fun h => ?_⟩
      have := h k (by rw [hcons, if_pos hk]; omega)
      rw [hS] at this
      cases this
    · -- the rest finds what `r` found
      have hsame : ∀ r' ∈ rs, ∀ k, keyOf config r' = some k →
          ((write config S r).1 k).isSome = (S k).isSome := by
        intro r' hr' k hk'
        rw [isSome_write]
        by_cases hk : keyOf config r = some k
        · cases hS : (S k).isSome with
          | true => rfl
          | false =>
            exact absurd ⟨k, hk, hS, List.ne_nil_of_mem (mem_occurrences.2 ⟨hr', hk'⟩)⟩ hfresh
        · simp [hk]
      have hmap : rs.map (outcomeAt config S) = rs.map (outcomeAt config (write config S r).1) :=
        List.map_congr_left fun r' hr' => outcomeAt_congr fun k hk => (hsame r' hr' k hk).symm
      rw [hmap, ih]
      refine forall_congr' fun k => ?_
      rw [hcons, isSome_write]
      by_cases hk : keyOf config r = some k
      · rw [if_pos hk]
        cases hS : (S k).isSome with
        | true => simp
        | false =>
          have hnil : occurrences config rs k = [] := by
            by_contra hne
            exact hfresh ⟨k, hk, hS, hne⟩
          simp [hk, hnil]
      · rw [if_neg hk]
        simp [hk]

/-- **Batch against single.** One `write_many` agrees with the writes one by
one exactly when every key is settled. -/
theorem batch_agrees_iff (config : AerospikeConfig) (S : Store F)
    (records : List (AerospikeRecord F)) :
    BatchAgrees config S records ↔ ∀ k, Settled config S records k := by
  unfold BatchAgrees
  rw [batch_outcomes]
  refine ⟨fun h k => ?_, fun h => ⟨funext fun k => store_agrees_of_settled (h k), ?_⟩⟩
  · obtain ⟨hstore, hout⟩ := h
    cases hp : config.recordExistsPolicy with
    | replace => unfold Settled; rw [hp]; trivial
    | createOnly =>
      unfold Settled
      simp only [hp]
      exact (outcomes_agree_iff hp S records).1 hout.symm k
    | update => exact settled_of_store hp (congrFun hstore k)
  · cases hp : config.recordExistsPolicy with
    | replace => exact (single_outcomes_of_ne (by simp [hp]) S S records).symm
    | update => exact (single_outcomes_of_ne (by simp [hp]) S S records).symm
    | createOnly =>
      refine ((outcomes_agree_iff hp S records).2 fun k => ?_).symm
      have := h k
      unfold Settled at this
      simpa only [hp] using this

end

/-- A record with one integer bin under one key. -/
def oneBin (b : String) (n : Int) : AerospikeRecord String :=
  { key := .str "k", bins := Dict.ofPairs [(b, .int n)], binPolicies := Dict.empty
    unique_isList := L2.uniqueAreLists_empty _ }

/-- Updating an empty store with a bin `a` and then a bin `b` of one key: the
batch leaves `b` only. Creating them: the batch keeps the second record and
reports two writes, one by one the first is kept and the second refused. -/
theorem batch_loses_a_bin :
    ¬ BatchAgrees {} (fun _ => none) [oneBin "a" 1, oneBin "b" 2] ∧
    ¬ BatchAgrees { recordExistsPolicy := .createOnly } (fun _ => none)
      [oneBin "a" 1, oneBin "b" 2] := by
  refine ⟨fun h => ?_, fun h => ?_⟩
  · have hbin := congrArg (fun e => binsOf e "a") (congrFun h.1 ("test", "redis", .str "k"))
    exact absurd hbin (by decide)
  · exact absurd h.2 (by decide)

end RedisToAerospike.L3
