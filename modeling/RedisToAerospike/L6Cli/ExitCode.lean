import RedisToAerospike.L5Migration.EndToEnd
import RedisToAerospike.L5Migration.Report
import RedisToAerospike.L6Cli.TtlGate

/-!
# The exit code (`cli.py`, `main`)

The migrator of `main` has the registry of the configuration that was given
and the size limit of the server.

* `World.Migrates`: the errors that `main` reads are those of a full run.
* `exit_code`: 2 without a run, 1 where a record failed, else 0; and 0 vouches
  for every record.
-/
namespace RedisToAerospike.L6
open L1 L2 L3 L4 L5

section
variable {F : Type} [PyNumber F]

/-- The configuration after `apply_server_info`. -/
def World.tuned (w : World F) (config : RunConfig F) : RunConfig F :=
  applyServerInfo config (sinkServerInfo config w.infoAll)

/-- The migrator of `main`.
mirrors src/redis_to_aerospike/cli.py:665-698 -/
def World.migrator (w : World F) (config : RunConfig F) : Migrator F :=
  ⟨(w.tuned config).toMigrationConfig, .fromConfig config.toMigrationConfig, []⟩

/-- What `main` returns 2 for. -/
def World.Refuses (w : World F) (config : RunConfig F) : Prop :=
  (∃ e, w.ping = .error e) ∨ (∃ e, w.connect = .error e) ∨
    (ttlMigrationBlockedReason (serverInfo config.redis w.client)
      (sinkServerInfo config w.infoAll)).isSome = true

/-- The limit of the server does not bear on the converters. -/
theorem migrator_eq (w : World F) (config : RunConfig F) :
    w.migrator config = .ofConfig (w.tuned config).toMigrationConfig := by
  have hreg : ConverterRegistry.fromConfig (F := F) config.toMigrationConfig =
      .fromConfig (w.tuned config).toMigrationConfig := by
    unfold World.tuned applyServerInfo
    split
    · rfl
    · split <;> rfl
  rw [World.migrator, hreg]
  rfl

/-- The exit code by what was refused. -/
theorem code_main (dryRun : Bool) (config : RunConfig F) (w : World F) :
    (w.Refuses config → (main dryRun config w).code = 2) ∧
    (¬ w.Refuses config → (main dryRun config w).code =
      if dryRun = true ∨ w.run (w.tuned config) = 0 then 0 else 1) := by
  unfold main World.Refuses World.tuned
  cases w.ping with
  | error e => simp
  | ok u =>
    cases w.connect with
    | error e => simp
    | ok u =>
      dsimp only
      cases ttlMigrationBlockedReason (serverInfo config.redis w.client)
          (sinkServerInfo config w.infoAll) with
      | some reason => simp
      | none => cases dryRun <;> simp

variable [OrderedLists F]

/-- `main` reads the errors of a run over all of `src`, that leaves `S`. -/
def World.Migrates (w : World F) (config : RunConfig F) (S₀ : Store F) (src : List (RedisRecord F))
    (S : Store F) : Prop :=
  ∃ x, (migration (w.migrator config) S₀ src).Reachable x ∧ x.pipe.main = .done ∧
    x.pipe.raised = false ∧ x.store = S ∧ w.run (w.tuned config) = x.pipe.stats.errors

/-- The record under `k` is what writes of records of `src`, one at least, make
of what was there. -/
def Written (m : Migrator F) (src : List (RedisRecord F)) (S₀ S : Store F) (k : AerospikeKey) :
    Prop :=
  ∃ rs, rs ≠ [] ∧ (∀ r ∈ rs, r ∈ occurrences m.config.aerospike (m.records src) k) ∧
    S k = rs.foldl (fun v r => act m.config.aerospike r v) (S₀ k)

/-- After a full run every record that was prepared and fits has been written. -/
theorem written_of_full {m : Migrator F} (hret : TransformsReturn m) {S₀ : Store F}
    {src : List (RedisRecord F)} {x : Sys F} (h : (migration m S₀ src).Reachable x)
    (hd : x.pipe.main = .done) (hraised : x.pipe.raised = false) {a : RedisRecord F} (ha : a ∈ src)
    {k : AerospikeKey} (hgoes : GoesTo m k a) : Written m src S₀ x.store k := by
  obtain ⟨r, hra, hk⟩ := hgoes
  rw [← seen_of_full (pipe_reachable h).of_restrict hd hraised, ← taken_of_done hret h hd] at ha
  exact ⟨_, log_ne_nil h hd (mem_occurrences.2 ⟨List.mem_filterMap.2 ⟨a, ha, hra⟩, hk⟩),
    fun r hr => mem_source h hr, store_at h k⟩

omit [OrderedLists F] in
/-- What does not fail has a place to go to. -/
theorem goesTo_of_supported {config : MigrationConfig} {a : RedisRecord F}
    (ht : a.type ∈ supportedTypes) (hf : (Migrator.ofConfig config).fails a = false) :
    ∃ k, GoesTo (.ofConfig config) k a := by
  have hprep : (∃ r, (Migrator.ofConfig config).prepare a = .record r) ∨
      ∃ reason, (Migrator.ofConfig config).prepare a = .failed reason := by
    rcases prepare_supported ht with hr | ⟨exc, -, he⟩
    · exact .inl hr
    · exact .inr ⟨_, he⟩
  unfold Migrator.fails at hf
  rcases hprep with ⟨r, hr⟩ | ⟨reason, hr⟩
  · rw [hr] at hf
    obtain ⟨k, hk⟩ := Option.isSome_iff_exists.1 (Option.isNone_eq_false_iff.1 hf)
    exact ⟨k, r, recordOf_eq_some.2 hr, hk⟩
  · rw [hr] at hf
    cases hf

/-- **Exit code.** `main` returns 2 where it refuses to run; else 1 where some
record of the scan does not convert or is too large, and 0 otherwise, whatever
the schedule, the policy and the store. After 0 every record of a supported
type has been written. -/
theorem exit_code {config : RunConfig F} {w : World F} {S₀ S : Store F}
    {src : List (RedisRecord F)} (hrun : w.Migrates config S₀ src S) :
    ((main false config w).code = 2 ↔ w.Refuses config) ∧
    ((main false config w).code = 1 ↔
      ¬ w.Refuses config ∧ ∃ a ∈ src, (w.migrator config).fails a = true) ∧
    ((main false config w).code = 0 ↔
      ¬ w.Refuses config ∧ ∀ a ∈ src, (w.migrator config).fails a = false) ∧
    ((main false config w).code = 0 → ∀ a ∈ src, a.type ∈ supportedTypes →
      ∃ k, GoesTo (w.migrator config) k a ∧ Written (w.migrator config) src S₀ S k) := by
  obtain ⟨x, hx, hd, hraised, rfl, herrors⟩ := hrun
  have hret : TransformsReturn (w.migrator config) := fun _ ht => by cases ht
  rw [errors_of_done hret hx hd, seen_of_full (pipe_reachable hx).of_restrict hd hraised] at herrors
  obtain ⟨hrefused, hrun⟩ := code_main false config w
  rw [herrors] at hrun
  have hzero : src.countP (w.migrator config).fails = 0 ↔
      ∀ a ∈ src, (w.migrator config).fails a = false := by
    simp [List.countP_eq_zero]
  by_cases hr : w.Refuses config
  · rw [hrefused hr]
    simp [hr]
  · rw [hrun hr]
    by_cases hall : ∀ a ∈ src, (w.migrator config).fails a = false
    · have hnone : ¬ ∃ a ∈ src, (w.migrator config).fails a = true := by
        intro hex
        obtain ⟨a, ha, hf⟩ := hex
        rw [hall a ha] at hf
        cases hf
      rw [if_pos (.inr (hzero.2 hall))]
      refine ⟨by simp [hr], by simp [hnone], by simpa [hr] using hall, fun _ a ha ht => ?_⟩
      have hgoes : ∃ k, GoesTo (w.migrator config) k a := by
        have hf := hall a ha
        rw [migrator_eq] at hf ⊢
        exact goesTo_of_supported ht hf
      obtain ⟨k, hk⟩ := hgoes
      exact ⟨k, hk, written_of_full hret hx hd hraised ha hk⟩
    · have hex : ∃ a ∈ src, (w.migrator config).fails a = true := by
        by_contra hno
        refine hall fun a ha => ?_
        rw [← Bool.not_eq_true]
        exact fun hf => hno ⟨a, ha, hf⟩
      rw [if_neg (by simpa [hzero] using hall)]
      exact ⟨by simp [hr], by simp [hr, hex], by simp only [hall, and_false]; simp, fun h => by cases h⟩

end

/-- A server that takes records of eight bytes, and a longer record. -/
theorem exit_code_oversized :
    let config : RunConfig String := { workers := 1, queueSize := 0 }
    let w : World String :=
      { ping := .ok (), connect := .ok (), client := ⟨.ok (.int 2), fun _ => .ok (.dict [])⟩
        infoAll := .ok (.str "ns=test;nsup-period=0;max-record-size=8"), run := fun _ => 1 }
    (main false config w).code = 1 := by
  intro config w
  have hconfig : (w.tuned config).toMigrationConfig = (smallMigrator.tuned 1 0 1).config := by
    decide +kernel
  have hm : w.migrator config = smallMigrator.tuned 1 0 1 := by
    rw [migrator_eq, hconfig]
    rfl
  obtain ⟨x, hx, hd, hr, he⟩ : ∃ x, (migration (smallMigrator.tuned 1 0 1) (fun _ => none)
      [letter "a", longLetter]).Reachable x ∧ x.pipe.main = .done ∧ x.pipe.raised = false ∧
        1 = x.pipe.stats.errors := by
    apply Exists.intro
    refine ⟨⟨_, [.pipe .scan, .pipe .put, .pipe .scan, .pipe .put, .pipe .sourceEnd,
      .pipe (.get 0), .prepare 0, .write 0, .pipe (.count 0), .pipe (.get 0), .prepare 0,
      .write 0, .pipe (.count 0), .pipe .putStop, .pipe (.get 0), .pipe .join], rfl,
      LTS.run_of_exec (fun _ _ _ h => h) rfl⟩, rfl, rfl, rfl⟩
  have hrun : w.Migrates config (fun _ => none) [letter "a", longLetter] x.store :=
    ⟨x, by rw [hm]; exact hx, hd, hr, rfl, he⟩
  refine (exit_code hrun).2.1.2 ⟨?_, longLetter, by simp, by rw [hm]; decide⟩
  intro hrefused
  rcases hrefused with ⟨e, he⟩ | ⟨e, he⟩ | hblocked
  · cases he
  · cases he
  · exact absurd hblocked (by decide +kernel)

end RedisToAerospike.L6
