import RedisToAerospike.L5Migration.Confluence

/-!
# Runs that are cut off

A run may end in any state: the process is killed, the source raises, half a
batch is on the server. Then the migration is run again, with other settings
if need be.

* `Partly`: what the attempts so far leave, key by key.
* `resume`: a full run after any attempts leaves what one full run leaves, in
  every policy.
-/
namespace RedisToAerospike.L5
open L1 L2 L3 L4

section
variable {F : Type} [PyFloat F] [OrderedLists F]

/-- What runs over parts of `src`, each cut off in some state, leave of `S₀`. -/
inductive Attempts (m : Migrator F) (src : List (RedisRecord F)) (S₀ : Store F) :
    Store F → Prop
  | start : Attempts m src S₀ S₀
  | run {S : Store F} {src' : List (RedisRecord F)} {workers queueSize writeBatchSize : Int}
      {x : Sys F} : Attempts m src S₀ S → src' ⊆ src →
      (migration (m.tuned workers queueSize writeBatchSize) S src').Reachable x →
      Attempts m src S₀ x.store

/-- Every key is as in `S₀`, or a record of `src` has been written to it. -/
def Partly (m : Migrator F) (src : List (RedisRecord F)) (S₀ S : Store F) : Prop :=
  ∀ k, S k = S₀ k ∨ ∃ r ∈ occurrences m.config.aerospike (m.records src) k,
    S k = act m.config.aerospike r (S₀ k)

/-- More writes of records of `src`. -/
theorem Partly.writes {m : Migrator F} {src : List (RedisRecord F)} (hq : Quiescent m src)
    {S₀ S S' : Store F} (h : Partly m src S₀ S)
    (hS : ∀ k, ∃ ws : List (AerospikeRecord F),
      (∀ r ∈ ws, r ∈ occurrences m.config.aerospike (m.records src) k) ∧
      S' k = ws.foldl (fun v r => act m.config.aerospike r v) (S k)) : Partly m src S₀ S' := by
  intro k
  obtain ⟨ws, hmem, hS⟩ := hS k
  rw [hS]
  cases hws : ws with
  | nil => exact h k
  | cons r rs =>
    have hr := hmem r (hws ▸ List.mem_cons_self)
    have hsame : ∀ r' ∈ ws, r' = r := fun r' hr' => hq.single (hmem r' hr') hr
    rw [← hws, Replay.foldl_same (act_idem m.config.aerospike r) hsame,
      if_neg (by rw [hws]; exact List.cons_ne_nil r rs)]
    rcases h k with he | ⟨r', hr', he⟩
    · exact .inr ⟨r, hr, by rw [he]⟩
    · -- the key was written before, with the same record
      rw [hq.single hr' hr] at he
      exact .inr ⟨r, hr, by rw [he, act_idem]⟩

/-- One more run, cut off at `x`. -/
theorem Partly.run {m : Migrator F} {src src' : List (RedisRecord F)} (hq : Quiescent m src)
    (hsub : src' ⊆ src) {S₀ S : Store F} (h : Partly m src S₀ S) {x : Sys F}
    (hx : (migration m S src').Reachable x) : Partly m src S₀ x.store := by
  refine h.writes hq fun k => ⟨_, fun r hr => ?_, store_at hx k⟩
  obtain ⟨hrec, hk⟩ := mem_occurrences.1 (mem_source hx hr)
  obtain ⟨a, ha, hra⟩ := List.mem_filterMap.1 hrec
  exact mem_occurrences.2 ⟨List.mem_filterMap.2 ⟨a, hsub ha, hra⟩, hk⟩

theorem Attempts.partly {m : Migrator F} {src : List (RedisRecord F)} (hq : Quiescent m src)
    {S₀ S : Store F} (h : Attempts m src S₀ S) : Partly m src S₀ S := by
  induction h with
  | start => exact fun k => .inl rfl
  | @run S src' workers queueSize writeBatchSize x _ hsub hx ih =>
    exact Partly.run (m := m.tuned workers queueSize writeBatchSize) ⟨hq.repeats, hq.apart⟩ hsub
      ih hx

/-- What has been written may be written again. -/
theorem Partly.oneByOne {m : Migrator F} {src : List (RedisRecord F)} (hq : Quiescent m src)
    {S₀ S : Store F} (h : Partly m src S₀ S) : m.oneByOne S src = m.oneByOne S₀ src := by
  funext k
  unfold Migrator.oneByOne
  rw [writeEach_at, writeEach_at]
  rcases h k with he | ⟨r, hr, he⟩
  · rw [he]
  · have hone : ∀ r' ∈ occurrences m.config.aerospike (m.records src) k, r' = r :=
      fun r' hr' => hq.single hr' hr
    rw [Replay.foldl_same (act_idem m.config.aerospike r) hone,
      Replay.foldl_same (act_idem m.config.aerospike r) hone, if_neg (List.ne_nil_of_mem hr),
      if_neg (List.ne_nil_of_mem hr), he, act_idem]

/-- **Resuming.** Attempts over parts of a source that does not change, cut
off anywhere, and one full run leave what one full run leaves. -/
theorem resume {m : Migrator F} (hret : TransformsReturn m) {src : List (RedisRecord F)}
    (hq : Quiescent m src) {S₀ S : Store F} (h : Attempts m src S₀ S) :
    ∀ src', src'.Perm src → ∀ workers queueSize writeBatchSize S',
      (m.tuned workers queueSize writeBatchSize).Leaves S src' S' → S' = m.oneByOne S₀ src := by
  intro src' hperm workers queueSize writeBatchSize S' hfull
  obtain ⟨x, hx, hd, hraised, rfl⟩ := hfull
  have hrun : x.store = m.oneByOne S src :=
    store_of_full (m := m.tuned workers queueSize writeBatchSize) hret ⟨hq.repeats, hq.apart⟩
      hperm hx hd hraised
  rw [hrun, (h.partly hq).oneByOne hq]

end

/-- Two letters that stay as they are. -/
theorem quiescent_letters : Quiescent plainMigrator [letter "a", letter "b"] := by
  have hapart : ∀ a ∈ [letter "a", letter "b"], ∀ b ∈ [letter "a", letter "b"], a.key ≠ b.key →
      (plainMigrator.recordOf a).map (sinkKey plainMigrator.config.aerospike) ≠
        (plainMigrator.recordOf b).map (sinkKey plainMigrator.config.aerospike) := by
    decide
  refine ⟨by decide, fun a ha b hb hne ra rb hra hrb he => hapart a ha b hb hne ?_⟩
  rw [hra, hrb, Option.map_some, Option.map_some, he]

/-- Batches of two: the process ends when one of two sub-writes is done. -/
theorem resume_half_batch :
    ∃ S, Attempts plainMigrator [letter "a", letter "b"] (fun _ => none) S ∧
      (S ("test", "redis", .str "a")).isSome ∧ S ("test", "redis", .str "b") = none ∧
      ∀ S', (plainMigrator.tuned 1 0 1).Leaves S [letter "a", letter "b"] S' →
        S' = plainMigrator.oneByOne (fun _ => none) [letter "a", letter "b"] := by
  obtain ⟨x, hx, ha, hb⟩ : ∃ x, (migration (plainMigrator.tuned 1 0 2) (fun _ => none)
      [letter "a", letter "b"]).Reachable x ∧ (x.store ("test", "redis", .str "a")).isSome ∧
        x.store ("test", "redis", .str "b") = none := by
    apply Exists.intro
    refine ⟨⟨_, [.pipe .scan, .pipe .put, .pipe (.get 0), .prepare 0, .pipe .scan, .pipe .put,
      .pipe (.get 0), .prepare 0, .sub 0 ("test", "redis", .str "a")], rfl,
      LTS.run_of_exec (fun _ _ _ h => h) rfl⟩, by decide, by decide⟩
  have hattempt : Attempts plainMigrator [letter "a", letter "b"] (fun _ => none) x.store :=
    .run .start (List.Subset.refl _) hx
  exact ⟨x.store, hattempt, ha, hb,
    resume (m := plainMigrator) nofun quiescent_letters hattempt _ (.refl _) 1 0 1⟩

end RedisToAerospike.L5
