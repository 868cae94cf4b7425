import RedisToAerospike.L4Pipeline.Tally
import RedisToAerospike.L4Pipeline.Termination
import RedisToAerospike.L5Migration.Confluence

/-!
# The report of a migration

Which worker counts a record, and when, is up to the schedule; under which
reason, is not, except that under `CREATE_ONLY` a record may meet itself.

* `settles_reachable`: the sink answers as `settle` says, apart from that.
* `same_report`: full runs over the same records print the same report, that
  of the records counted one by one; the errors agree in every policy.
-/
namespace RedisToAerospike.L5
open L1 L2 L3 L4

section
variable {F : Type} [PyFloat F]

/-- How a prepared record is counted, if its key is free. -/
def Migrator.settle (m : Migrator F) (r : AerospikeRecord F) : Tick :=
  match keyOf m.config.aerospike r with
  | some _ => .migrated
  | none => .error "write:RecordTooLargeError"

/-- Ticks that do not depend on what is in the store. -/
def Migrator.Known (m : Migrator F) (t : Tick) : Prop :=
  m.config.aerospike.recordExistsPolicy = .createOnly → t ≠ .migrated ∧ t ≠ .skipped "exists"

/-- A tick for a record as `settle` has it, or for a record that was there. -/
def Migrator.Meets (m : Migrator F) (tick : Tick) (r : AerospikeRecord F) : Prop :=
  tick = m.settle r ∨ m.config.aerospike.recordExistsPolicy = .createOnly ∧
    tick = .skipped "exists" ∧ m.settle r = .migrated

theorem Migrator.known_error (m : Migrator F) (reason : String) : m.Known (.error reason) := by
  intro _
  constructor <;> (intro he; cases he)

theorem Migrator.Meets.eq_iff {m : Migrator F} {tick : Tick} {r : AerospikeRecord F}
    (h : m.Meets tick r) {t : Tick} (hk : m.Known t) : tick = t ↔ m.settle r = t := by
  rcases h with rfl | ⟨hp, rfl, hs⟩
  · exact Iff.rfl
  · obtain ⟨hmigrated, hexists⟩ := hk hp
    rw [hs]
    exact iff_of_false hexists.symm hmigrated.symm

/-! ## What the sink answers -/

variable [OrderedLists F]

/-- A single write. -/
theorem meets_write (m : Migrator F) (S : Store F) (r : AerospikeRecord F) :
    m.Meets (Worker.writeTick (writeOutcome (write m.config.aerospike S r).2)) r := by
  rw [write_eq]
  unfold Migrator.Meets Migrator.settle keyOf
  cases tooLargeReason m.config.aerospike r with
  | some reason => exact .inl rfl
  | none =>
    dsimp only
    split
    · rename_i h; exact .inr ⟨h.1, rfl, rfl⟩
    · exact .inl rfl

/-- The replies of the server are codes of single writes. -/
def Answered (m : Migrator F) (x : Sys F) : Prop :=
  ∀ i k reply, x.replies i k = some reply →
    ∃ old : Option (Entry F), reply = ⟨actCode m.config.aerospike old, false⟩

theorem answered_reachable {m : Migrator F} {S₀ : Store F} {src : List (RedisRecord F)} :
    ∀ x : Sys F, (migration m S₀ src).Reachable x → Answered m x := by
  refine LTS.reachable_induction (fun x hx => ?_) fun x e x' _ ih hst => ?_
  · subst hx
    intro i k reply hr
    cases hr
  · cases step_happens hst with
    | pipe hl hs => exact ih
    | prepare hi hp => exact ih
    | write hi hp => exact ih
    | @sub i k r next hi hp hr hw =>
      intro j k' reply hrep
      by_cases hj : j = i
      · subst hj
        by_cases hk : k' = k
        · subst hk
          have hop : operate x.store k' (opsFor r) (batchPolicy m.config.aerospike r) = _ :=
            operate_opsFor m.config.aerospike r rfl rfl x.store k'
          simp only [Sys.answer, Function.update_self] at hrep
          cases hrep
          exact ⟨x.store k', congrArg (fun call => Reply.mk call.2 false) hop⟩
        · exact ih j k' reply (by simpa [Sys.answer, Function.update_of_ne hk] using hrep)
      · exact ih j k' reply (by simpa [Sys.answer, Function.update_of_ne hj] using hrep)
    | @many i next replies hi hp hr =>
      intro j k' reply hrep
      by_cases hj : j = i
      · subst hj; simp at hrep
      · exact ih j k' reply (by simpa [Function.update_of_ne hj] using hrep)

omit [OrderedLists F] in
/-- The ticks of a batch, position by position, from the replies by key. -/
theorem manyTicks_eq {m : Migrator F} {buffer : List (RedisRecord F × AerospikeRecord F)}
    {answers : AerospikeKey → Option Reply} {replies : List Reply}
    (hr : (lastSlotForKey m.config.aerospike (recordsOf buffer)).keys.mapM answers =
      some replies) :
    Worker.manyTicks m.cfg buffer
        (.returned (batchResults m.config.aerospike (recordsOf buffer) replies)) =
      buffer.map fun p => Worker.batchTick m.cfg ((keyOf m.config.aerospike p.2).elim
        (some "RecordTooLargeError") fun k =>
          batchReason m.config.aerospike ((answers k).getD ⟨RESULT_OK, false⟩)) := by
  have hreplies : replies = (lastSlotForKey m.config.aerospike (recordsOf buffer)).keys.map
      fun k => (answers k).getD ⟨RESULT_OK, false⟩ :=
    Fallible.mapM_some_eq_map hr fun k b hb => by simp [hb]
  rw [hreplies, batchResults_eq, recordsOf, List.map_map, Worker.manyTicks,
    ← List.map_prod_left_eq_zip, List.map_map]
  refine List.map_congr_left fun p _ => ?_
  simp only [Function.comp_apply]
  cases keyOf m.config.aerospike p.2 <;> rfl

omit [PyFloat F] [OrderedLists F] in
/-- A record that is sent is answered. -/
theorem answered_of_keyOf {config : AerospikeConfig}
    {buffer : List (RedisRecord F × AerospikeRecord F)} {answers : AerospikeKey → Option Reply}
    {replies : List Reply}
    (hr : (lastSlotForKey config (recordsOf buffer)).keys.mapM answers = some replies)
    {p : RedisRecord F × AerospikeRecord F} (hp : p ∈ buffer) {k : AerospikeKey}
    (hk : keyOf config p.2 = some k) : ∃ reply, answers k = some reply := by
  have hsent : k ∈ (lastSlotForKey config (recordsOf buffer)).keys :=
    mem_sentKeys_iff.2 ⟨p.2, List.mem_map_of_mem hp, hk⟩
  exact Option.isSome_iff_exists.1 (Fallible.mapM_isSome_iff.1 (by rw [hr]; rfl) k hsent)

omit [OrderedLists F] in
/-- The ticks of a batch, position by position. -/
theorem manyTicks_batch {m : Migrator F} {x : Sys F} (hx : Answered m x) {i : Nat}
    {replies : List Reply}
    (hr : (lastSlotForKey m.config.aerospike (recordsOf (x.pipe.workers i).buffer)).keys.mapM
      (x.replies i) = some replies) :
    ∃ tick : RedisRecord F × AerospikeRecord F → Tick,
      Worker.manyTicks m.cfg (x.pipe.workers i).buffer (.returned (batchResults m.config.aerospike
        (recordsOf (x.pipe.workers i).buffer) replies)) = (x.pipe.workers i).buffer.map tick ∧
      ∀ p ∈ (x.pipe.workers i).buffer, m.Meets (tick p) p.2 := by
  refine ⟨_, manyTicks_eq hr, fun p hp => ?_⟩
  unfold Migrator.Meets Migrator.settle
  cases hk : keyOf m.config.aerospike p.2 with
  | none => exact .inl (by simp [Worker.batchTick])
  | some k =>
    obtain ⟨b, hb⟩ := answered_of_keyOf hr hp hk
    obtain ⟨old, rfl⟩ := hx i k b hb
    rw [Option.elim_some, hb, Option.getD_some, batchReason_actCode]
    split
    · rename_i h
      exact .inr ⟨h.1, by simp [Worker.batchTick, Migrator.cfg, h.1, BATCH_RECORD_EXISTS_OUTCOME],
        rfl⟩
    · exact .inl rfl

/-- In a migration the sink settles records as `settle` says. -/
theorem settles_reachable {m : Migrator F} {S₀ : Store F} {src : List (RedisRecord F)} {x : Sys F}
    (h : (migration m S₀ src).Reachable x) :
    ((pipeline m.cfg src).restrict (Settles m.cfg m.Known m.settle)).Reachable x.pipe := by
  have hproj : LTS.Projection (migration m S₀ src)
      ((pipeline m.cfg src).restrict (Settles m.cfg m.Known m.settle)) Sys.pipe := by
    refine ⟨fun x hx => by subst hx; rfl, fun x e x' hx hst => ?_⟩
    cases step_happens hst with
    | @pipe l s hl hs =>
      refine .inr ⟨l, ?_, move_step hs⟩
      cases l with
      | write i out => exact hl.elim
      | many i out => exact hl.elim
      | _ => trivial
    | @prepare i a hi hp => exact .inr ⟨.prepare i _, trivial, move_step (.prepare hi hp)⟩
    | @write i a r hi hp =>
      refine .inr ⟨.write i _, fun a' r' hp' t hk => ?_, move_step (.write hi hp)⟩
      cases hp.symm.trans hp'
      exact (meets_write m x.store r).eq_iff hk
    | sub hi hp hr hw => exact .inl rfl
    | @many i next replies hi hp hr =>
      refine .inr ⟨.many i (.returned _), fun t hk => ?_, move_step (.many hi hp)⟩
      obtain ⟨tick, hticks, hmeets⟩ := manyTicks_batch (answered_reachable x hx) hr
      rw [hticks, List.count_eq_countP, List.count_eq_countP, List.countP_map, List.countP_map]
      refine List.countP_congr fun p hp => ?_
      simpa using (hmeets p hp).eq_iff hk
  exact hproj.reachable x h

/-! ## The end of a migration -/

/-- The records of a stream, counted one by one. -/
def Migrator.counted (m : Migrator F) (src : List (RedisRecord F)) : MigrationStats :=
  countAll src.length (src.flatMap fun a => ticksOf m.settle (m.prepare a))

/-- The known tallies are those of what has been scanned. -/
theorem tally_counted {m : Migrator F} (hret : TransformsReturn m) {S₀ : Store F}
    {src : List (RedisRecord F)} {x : Sys F} (h : (migration m S₀ src).Reachable x)
    (hd : x.pipe.main = .done) {t : Tick} (hk : m.Known t) :
    x.pipe.stats.tally t = (m.counted x.pipe.seen).tally t := by
  have hpipe := pipe_reachable h
  have hc := no_crash (env_quiet hret) x.pipe hpipe
  have hprep : ∀ i, ∀ p ∈ (x.pipe.workers i).outs, p.2 = m.prepare p.1 :=
    outs_allowed x.pipe hpipe
  rw [tally_of_done (settles_reachable h) hd hc hprep hk]
  exact ((countAll_tallied _ _).2.2 t).symm

/-- A record that does not convert, or is too large for the sink. -/
def Migrator.fails (m : Migrator F) (a : RedisRecord F) : Bool :=
  match m.prepare a with
  | .failed _ => true
  | .record r => (keyOf m.config.aerospike r).isNone
  | _ => false

theorem errors_counted {m : Migrator F} (hret : TransformsReturn m) {S₀ : Store F}
    {src : List (RedisRecord F)} {x : Sys F} (h : (migration m S₀ src).Reachable x)
    (hd : x.pipe.main = .done) : x.pipe.stats.errors = (m.counted x.pipe.seen).errors := by
  refine errors_congr (tallied_reachable _ (pipe_reachable h).of_restrict).1
    (countAll_tallied _ _).1 fun reason => tally_counted hret h hd (m.known_error reason)

omit [OrderedLists F] in
theorem errors_ticksOf (m : Migrator F) (a : RedisRecord F) :
    (ticksOf m.settle (m.prepare a)).countP Tick.isError = if m.fails a then 1 else 0 := by
  unfold Migrator.fails
  cases m.prepare a with
  | failed reason => rfl
  | skipped reason => rfl
  | raised exc => rfl
  | record r =>
    simp only [ticksOf, Migrator.settle]
    split
    · rename_i k hk; simp [hk, Tick.isError]
    · rename_i hk; simp [hk, Tick.isError]

/-- The errors of a run are the records that fail, in every policy. -/
theorem errors_of_done {m : Migrator F} (hret : TransformsReturn m) {S₀ : Store F}
    {src : List (RedisRecord F)} {x : Sys F} (h : (migration m S₀ src).Reachable x)
    (hd : x.pipe.main = .done) : x.pipe.stats.errors = x.pipe.seen.countP m.fails := by
  rw [errors_counted hret h hd, Migrator.counted, errors_countAll]
  generalize x.pipe.seen = as
  induction as with
  | nil => rfl
  | cons a as ih =>
    rw [List.flatMap_cons, List.countP_append, ih, errors_ticksOf, List.countP_cons, Nat.add_comm]

omit [OrderedLists F] in
/-- The order of the records does not show in the tallies. -/
theorem tally_counted_perm (m : Migrator F) {src src' : List (RedisRecord F)} (h : src'.Perm src)
    (t : Tick) : (m.counted src').tally t = (m.counted src).tally t := by
  rw [Migrator.counted, Migrator.counted, (countAll_tallied _ _).2.2, (countAll_tallied _ _).2.2]
  exact (h.flatMap_right _).count_eq t

/-- **The report** of a full run is that of its records counted one by one,
whatever their order, the workers, the queue, the batches and the
interleaving. Under `CREATE_ONLY` this holds of the errors. -/
theorem same_report {m : Migrator F} (hret : TransformsReturn m) {src : List (RedisRecord F)} :
    ∀ src', src'.Perm src → ∀ workers queueSize writeBatchSize S₀ x,
      (migration (m.tuned workers queueSize writeBatchSize) S₀ src').Reachable x →
      x.pipe.main = .done → x.pipe.raised = false →
      (m.config.aerospike.recordExistsPolicy ≠ .createOnly → ∀ elapsed throughput,
        x.pipe.stats.formatReport elapsed throughput =
          (m.counted src).formatReport elapsed throughput) ∧
      ∀ reason, x.pipe.stats.tally (.error reason) = (m.counted src).tally (.error reason) := by
  intro src' hperm workers queueSize writeBatchSize S₀ x h hd hraised
  have hseen := seen_of_full (pipe_reachable h).of_restrict hd hraised
  have htally : ∀ t, m.Known t → x.pipe.stats.tally t = (m.counted src).tally t := by
    intro t hk
    have hrun := tally_counted (m := m.tuned workers queueSize writeBatchSize) hret h hd hk
    rw [hseen] at hrun
    exact hrun.trans (tally_counted_perm m hperm t)
  refine ⟨fun hp elapsed throughput => ?_, fun reason => htally _ (m.known_error reason)⟩
  obtain ⟨htallied, hscanned⟩ := tallied_reachable _ (pipe_reachable h).of_restrict
  refine formatReport_congr htallied (countAll_tallied _ _).1 ?_
    (fun t => htally t fun he => absurd he hp) elapsed throughput
  rw [hscanned, hseen, hperm.length_eq]
  exact (countAll_tallied _ _).2.1.symm

end

/-- A string record of ten bytes, too large for a limit of eight. -/
def longLetter : RedisRecord String :=
  { key := .str "l", type := "string", value := .string "long value".toByteArray }

/-- Strings of at most eight bytes, the name of the bin included. -/
def smallMigrator : Migrator String :=
  ⟨{ aerospike := { maxRecordSize := 8 } }, .fromConfig {}, []⟩

/-- A stream, a letter and an oversized record through two workers. -/
theorem same_report_mixed :
    ∃ x, (migration (smallMigrator.tuned 2 0 1) (fun _ => none)
        [{ letter "s" with type := "stream" }, letter "a", longLetter]).Reachable x ∧
      x.pipe.stats.formatReport "1.00" "1" =
        (smallMigrator.counted [letter "a", longLetter,
          { letter "s" with type := "stream" }]).formatReport "1.00" "1" := by
  obtain ⟨x, hx, hd, hr⟩ : ∃ x, (migration (smallMigrator.tuned 2 0 1) (fun _ => none)
      [{ letter "s" with type := "stream" }, letter "a", longLetter]).Reachable x ∧
        x.pipe.main = .done ∧ x.pipe.raised = false := by
    apply Exists.intro
    refine ⟨⟨_, [.pipe .scan, .pipe .put, .pipe (.get 0), .pipe .scan, .pipe .put, .pipe (.get 1),
      .prepare 1, .write 1, .prepare 0, .pipe (.count 1), .pipe (.count 0), .pipe .scan,
      .pipe .put, .pipe .sourceEnd, .pipe .putStop, .pipe .putStop, .pipe (.get 0), .prepare 0,
      .write 0, .pipe (.count 0), .pipe (.get 0), .pipe (.get 1), .pipe .join, .pipe .join], rfl,
      LTS.run_of_exec (fun _ _ _ h => h) rfl⟩, rfl, rfl⟩
  have hperm : ([{ letter "s" with type := "stream" }] ++ [letter "a", longLetter]).Perm
      ([letter "a", longLetter] ++ [{ letter "s" with type := "stream" }]) :=
    List.perm_append_comm
  exact ⟨x, hx, (same_report (m := smallMigrator) (fun _ h => by cases h) _ hperm 2 0 1 _ x hx hd
    hr).1 (by decide) "1.00" "1"⟩

end RedisToAerospike.L5
