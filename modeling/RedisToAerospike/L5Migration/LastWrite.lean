import RedisToAerospike.L5Migration.Confluence

/-!
# Which record stays

When the source yields several records for one key, under `REPLACE`.

* `last_write`: what stays is the last record for the key that some one
  worker dequeued; if one worker dequeued them all, the last one yielded.
* `stale_overwrite`: between two workers an earlier record may stay.
-/
namespace RedisToAerospike.L5
open L1 L2 L3 L4

section
variable {F : Type} [PyFloat F]

/-- The record goes to `k`, and is not oversized. -/
def GoesTo (m : Migrator F) (k : AerospikeKey) (a : RedisRecord F) : Prop :=
  ∃ r, m.recordOf a = some r ∧ keyOf m.config.aerospike r = some k

theorem goesTo_of_mem {m : Migrator F} {as : List (RedisRecord F)} {k : AerospikeKey}
    {r : AerospikeRecord F} (hr : r ∈ occurrences m.config.aerospike (m.records as) k) :
    ∃ a ∈ as, m.recordOf a = some r ∧ GoesTo m k a := by
  obtain ⟨hmem, hk⟩ := mem_occurrences.1 hr
  obtain ⟨a, ha, hra⟩ := List.mem_filterMap.1 hmem
  exact ⟨a, ha, hra, r, hra, hk⟩

/-- If one worker dequeued all the records for a key, they are in its share. -/
theorem occurrences_tagged {m : Migrator F} {taken : List (Nat × RedisRecord F)} {i : Nat}
    {k : AerospikeKey} (h : ∀ p ∈ taken, GoesTo m k p.2 → p.1 = i) :
    occurrences m.config.aerospike (m.records (Pool.tagged taken i)) k =
      occurrences m.config.aerospike (m.records (taken.map Prod.snd)) k := by
  induction taken with
  | nil => rfl
  | cons p taken ih =>
    have hrest := ih fun q hq => h q (List.mem_cons_of_mem _ hq)
    have hcons : ∀ as, occurrences m.config.aerospike (m.records (p.2 :: as)) k =
        occurrences m.config.aerospike (m.records [p.2]) k ++
          occurrences m.config.aerospike (m.records as) k := by
      intro as
      rw [← occurrences_append, Migrator.records, Migrator.records, Migrator.records,
        ← List.filterMap_append]
      rfl
    rw [List.map_cons, hcons, ← hrest]
    by_cases hp : p.1 = i
    · have htag : Pool.tagged (p :: taken) i = p.2 :: Pool.tagged taken i := by
        simp [Pool.tagged, hp]
      rw [htag, hcons]
    · have htag : Pool.tagged (p :: taken) i = Pool.tagged taken i := by
        simp [Pool.tagged, hp]
      have hnil : occurrences m.config.aerospike (m.records [p.2]) k = [] := by
        refine List.eq_nil_iff_forall_not_mem.2 fun r hr => hp ?_
        obtain ⟨a, ha, -, hgo⟩ := goesTo_of_mem hr
        rw [List.mem_singleton.1 ha] at hgo
        exact h p List.mem_cons_self hgo
      rw [htag, hnil, List.nil_append]

variable [OrderedLists F]

/-- The entry a record replaces any other by. -/
def entryOf (r : AerospikeRecord F) : Entry F := ⟨written r, policyTtl r⟩

theorem replaced_at {m : Migrator F} (hp : m.config.aerospike.recordExistsPolicy = .replace)
    {S₀ : Store F} {src : List (RedisRecord F)} {x : Sys F} (h : (migration m S₀ src).Reachable x)
    (k : AerospikeKey) :
    x.store k = ((occurrences m.config.aerospike (x.log.map Prod.snd) k).getLast?.map fun r =>
      some (entryOf r)).getD (S₀ k) := by
  rw [store_at h k, Replay.foldl_overwrite fun r _ v => act_replace hp r v]
  rfl

omit [PyFloat F] [OrderedLists F] in
/-- The last write to a key is the last write of the worker that made it. -/
theorem last_in_log {log : List (Nat × AerospikeRecord F)} {config : AerospikeConfig}
    {k : AerospikeKey} {r : AerospikeRecord F}
    (h : (occurrences config (log.map Prod.snd) k).getLast? = some r) :
    ∃ p ∈ log, (occurrences config (Pool.tagged log p.1) k).getLast? = some r := by
  induction log using List.reverseRecOn with
  | nil => cases h
  | append_singleton log p ih =>
    rw [List.map_append, last_append] at h
    by_cases hk : keyOf config p.2 = some k
    · have hone : occurrences config [p.2] k = [p.2] := by simp [occurrences, hk]
      rw [List.map_singleton, hone] at h
      refine ⟨p, by simp, ?_⟩
      rw [Pool.tagged_append, Pool.tagged_single, if_pos rfl, last_append, hone]
      exact h
    · have hnone : occurrences config [p.2] k = [] := by simp [occurrences, hk]
      rw [List.map_singleton, hnone] at h
      obtain ⟨q, hq, hlast⟩ := ih h
      refine ⟨q, List.mem_append_left _ hq, ?_⟩
      rw [Pool.tagged_append, Pool.tagged_single, last_append]
      by_cases hpq : p.1 = q.1
      · rw [if_pos hpq, hnone]; exact hlast
      · rw [if_neg hpq]; exact hlast

/-- What stays was put there by some worker, as its last. -/
theorem stored_by_one {m : Migrator F} (hp : m.config.aerospike.recordExistsPolicy = .replace)
    {S₀ : Store F} {src : List (RedisRecord F)} {x : Sys F} (h : (migration m S₀ src).Reachable x)
    (hd : x.pipe.main = .done) (k : AerospikeKey) :
    (∀ a ∈ x.pipe.taken.map Prod.snd, ¬ GoesTo m k a) ∧ x.store k = S₀ k ∨
      ∃ i < m.cfg.poolSize, ∃ r,
        (occurrences m.config.aerospike (m.records (Pool.tagged x.pipe.taken i)) k).getLast? =
          some r ∧ x.store k = some (entryOf r) := by
  have hstore := replaced_at hp h k
  cases hlast : (occurrences m.config.aerospike (x.log.map Prod.snd) k).getLast? with
  | none =>
    rw [hlast] at hstore
    refine .inl ⟨fun a ha hgo => ?_, hstore⟩
    obtain ⟨r, hra, hk⟩ := hgo
    have hocc := mem_occurrences.2 ⟨List.mem_filterMap.2 ⟨a, ha, hra⟩, hk⟩
    exact log_ne_nil h hd hocc (List.getLast?_eq_none_iff.1 hlast)
  | some r =>
    rw [hlast] at hstore
    obtain ⟨p, hmem, hp'⟩ := last_in_log hlast
    have hi := (logged_reachable x h).owner p hmem
    exact .inr ⟨p.1, hi, r, by rw [← landed_of_done h hd hi, hp'], hstore⟩

/-- If one worker dequeued all records for a key, the last one yielded stays. -/
theorem stored_last {m : Migrator F} (hp : m.config.aerospike.recordExistsPolicy = .replace)
    (hret : TransformsReturn m) {S₀ : Store F} {src : List (RedisRecord F)} {x : Sys F}
    (h : (migration m S₀ src).Reachable x) (hd : x.pipe.main = .done) {k : AerospikeKey} {i : Nat}
    (hone : ∀ p ∈ x.pipe.taken, GoesTo m k p.2 → p.1 = i) {r : AerospikeRecord F}
    (hr : (occurrences m.config.aerospike (m.records x.pipe.seen) k).getLast? = some r) :
    x.store k = some (entryOf r) := by
  rw [← taken_of_done hret h hd] at hr
  rcases stored_by_one hp h hd k with ⟨hnone, -⟩ | ⟨j, -, r', hlast, hstore⟩
  · obtain ⟨a, ha, -, hgo⟩ := goesTo_of_mem (List.mem_of_getLast? hr)
    exact absurd hgo (hnone a ha)
  · obtain ⟨a, ha, -, hgo⟩ := goesTo_of_mem (List.mem_of_getLast? hlast)
    obtain ⟨p, hmem, rfl⟩ := List.mem_map.1 ha
    obtain ⟨hmem, hj⟩ := List.mem_filter.1 hmem
    have hji : j = i := by
      rw [← hone p hmem hgo]
      exact (of_decide_eq_true hj).symm
    rw [hji, occurrences_tagged hone, hr] at hlast
    rw [hstore, Option.some.inj hlast]

/-- **Which record stays.** -/
theorem last_write {m : Migrator F} (hp : m.config.aerospike.recordExistsPolicy = .replace)
    {S₀ : Store F} {src : List (RedisRecord F)} {x : Sys F} (h : (migration m S₀ src).Reachable x)
    (hd : x.pipe.main = .done) (k : AerospikeKey) :
    ((∀ a ∈ x.pipe.taken.map Prod.snd, ¬ GoesTo m k a) ∧ x.store k = S₀ k ∨
      ∃ i < m.cfg.poolSize, ∃ r,
        (occurrences m.config.aerospike (m.records (Pool.tagged x.pipe.taken i)) k).getLast? =
          some r ∧ x.store k = some (entryOf r)) ∧
    (TransformsReturn m →
      x.pipe.taken.map Prod.snd = x.pipe.seen ∧
      ∀ i, (m.cfg.poolSize = 1 ∨ ∀ p ∈ x.pipe.taken, GoesTo m k p.2 → p.1 = i) →
        ∀ r, (occurrences m.config.aerospike (m.records x.pipe.seen) k).getLast? = some r →
          x.store k = some (entryOf r)) := by
  refine ⟨stored_by_one hp h hd k, fun hret => ⟨taken_of_done hret h hd, fun i hone r hr => ?_⟩⟩
  rcases hone with hpool | hone
  · have hzero : ∀ p ∈ x.pipe.taken, GoesTo m k p.2 → p.1 = 0 := by
      intro p hmem _
      have := (order_reachable _ (pipe_reachable h).of_restrict).tags p hmem
      omega
    exact stored_last hp hret h hd hzero hr
  · exact stored_last hp hret h hd hone hr

end

/-! ## Two workers -/

/-- A migrator that replaces, with `workers` workers. -/
def replacing (workers : Int) : Migrator String :=
  ⟨{ aerospike := { recordExistsPolicy := .replace }, workers }, .fromConfig {}, []⟩

/-- The key `k`, read with a value. -/
def valued (value : String) : RedisRecord String :=
  { key := .str "k", type := "string", value := .string value.toByteArray }

/-- Two reads of one key: worker 0 takes the first and worker 1 the second,
which is written first. The first read stays. -/
theorem stale_overwrite :
    ¬ ∀ (m : Migrator String) (S₀ : Store String) (src : List (RedisRecord String)) (x : Sys String),
      m.config.aerospike.recordExistsPolicy = .replace → (migration m S₀ src).Reachable x →
        x.pipe.main = .done → x.pipe.raised = false → ∀ k r,
          (occurrences m.config.aerospike (m.records src) k).getLast? = some r →
            x.store k = some (entryOf r) := by
  intro hclaim
  obtain ⟨x, hx, hd, hr, hbin⟩ : ∃ x, (migration (replacing 2) (fun _ => none)
      [valued "old", valued "new"]).Reachable x ∧ x.pipe.main = .done ∧ x.pipe.raised = false ∧
        binsOf (x.store ("test", "redis", .str "k")) "value" = some (.str "old") := by
    apply Exists.intro
    refine ⟨⟨_, [.pipe .scan, .pipe .put, .pipe (.get 0), .pipe .scan, .pipe .put, .pipe (.get 1),
      .prepare 0, .prepare 1, .write 1, .write 0, .pipe (.count 0), .pipe (.count 1),
      .pipe .sourceEnd, .pipe .putStop, .pipe .putStop, .pipe (.get 0), .pipe (.get 1),
      .pipe .join, .pipe .join], rfl, LTS.run_of_exec (fun _ _ _ h => h) rfl⟩, rfl, rfl, ?_⟩
    rfl
  obtain ⟨r, hr', hnew⟩ := Option.map_eq_some_iff.1 (show ((occurrences
    (replacing 2).config.aerospike ((replacing 2).records [valued "old", valued "new"])
      ("test", "redis", .str "k")).getLast?.map fun r => written r "value") =
        some (some (.str "new")) from by decide)
  have hstore := hclaim _ _ _ x rfl hx hd hr _ r hr'
  rw [hstore] at hbin
  exact absurd (hnew.symm.trans hbin) (by decide)

/-- The same reads through one worker. -/
theorem last_write_one :
    ∃ x, (migration (replacing 1) (fun _ => none) [valued "old", valued "new"]).Reachable x ∧
      x.pipe.main = .done ∧
      ∀ r, (occurrences (replacing 1).config.aerospike ((replacing 1).records x.pipe.seen)
        ("test", "redis", .str "k")).getLast? = some r →
          x.store ("test", "redis", .str "k") = some (entryOf r) := by
  obtain ⟨x, hx, hd⟩ : ∃ x, (migration (replacing 1) (fun _ => none)
      [valued "old", valued "new"]).Reachable x ∧ x.pipe.main = .done := by
    apply Exists.intro
    refine ⟨⟨_, [.pipe .scan, .pipe .put, .pipe .scan, .pipe .put, .pipe .sourceEnd,
      .pipe (.get 0), .prepare 0, .write 0, .pipe (.count 0), .pipe (.get 0), .prepare 0,
      .write 0, .pipe (.count 0), .pipe .putStop, .pipe (.get 0), .pipe .join], rfl,
      LTS.run_of_exec (fun _ _ _ h => h) rfl⟩, rfl⟩
  exact ⟨x, hx, hd, ((last_write rfl hx hd _).2 nofun).2 0 (.inl rfl)⟩

end RedisToAerospike.L5
