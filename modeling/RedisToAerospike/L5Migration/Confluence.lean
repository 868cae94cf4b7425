import RedisToAerospike.L3Sink.BatchVsSingle
import RedisToAerospike.L5Migration.Landings

/-!
# Confluence and re-runs

On a source that does not change, a migration is the writes of its records
one by one, whatever the workers, the batches, the order of the stream and
the interleaving.

* `act_idem`: a record written twice is as if written once, in every policy.
* `store_of_full`: a full run leaves what `oneByOne` leaves.
* `confluence`: so full runs agree, a second one changes nothing, and
  `CREATE_ONLY` keeps what was there.
* `migration_can_move`: a run that is not finished can go on.
-/
namespace RedisToAerospike.L5
open L1 L2 L3 L4

section
variable {F : Type} [PyFloat F]

/-- The transforms return for every record. -/
def TransformsReturn (m : Migrator F) : Prop := ∀ t ∈ m.transforms, ∀ r, ∃ r', t r = .ok r'

/-- A stream read off a source that does not change: a repeated key carries
one record, and distinct keys go to distinct Aerospike keys. -/
structure Quiescent (m : Migrator F) (src : List (RedisRecord F)) : Prop where
  repeats : ∀ a ∈ src, ∀ b ∈ src, a.key = b.key → a = b
  apart : ∀ a ∈ src, ∀ b ∈ src, a.key ≠ b.key → ∀ ra rb, m.recordOf a = some ra →
    m.recordOf b = some rb → sinkKey m.config.aerospike ra ≠ sinkKey m.config.aerospike rb

theorem prepare_returns {m : Migrator F} (h : TransformsReturn m) (a : RedisRecord F) (exc : Exn) :
    m.prepare a ≠ .raised exc := by
  intro hr
  obtain ⟨c, hc⟩ := prepare_raised hr
  obtain ⟨r, hok⟩ := applyAll_ok h c
  rw [hok] at hc
  cases hc

/-- Then no step of the pipeline is a crash. -/
theorem env_quiet {m : Migrator F} (h : TransformsReturn m) (s : PipeSt F)
    (l : Label (AerospikeRecord F)) (hok : m.env.Allows s l) : Quiet l := by
  cases l with
  | prepare i out =>
    obtain ⟨a, -, rfl⟩ := hok
    cases hout : m.prepare a with
    | raised exc => exact absurd hout (prepare_returns h a exc)
    | record r => trivial
    | skipped reason => trivial
    | failed reason => trivial
  | _ => trivial

/-- The same migrator with other workers, queue and batches. -/
def Migrator.tuned (m : Migrator F) (workers queueSize writeBatchSize : Int) : Migrator F :=
  { m with config := { m.config with workers, queueSize, writeBatchSize } }

theorem Quiescent.single {m : Migrator F} {src : List (RedisRecord F)} (h : Quiescent m src)
    {k : AerospikeKey} {r r' : AerospikeRecord F}
    (hr : r ∈ occurrences m.config.aerospike (m.records src) k)
    (hr' : r' ∈ occurrences m.config.aerospike (m.records src) k) : r = r' := by
  obtain ⟨hmem, hk⟩ := mem_occurrences.1 hr
  obtain ⟨hmem', hk'⟩ := mem_occurrences.1 hr'
  obtain ⟨a, ha, hra⟩ := List.mem_filterMap.1 hmem
  obtain ⟨b, hb, hrb⟩ := List.mem_filterMap.1 hmem'
  have hsame : sinkKey m.config.aerospike r = sinkKey m.config.aerospike r' := by
    rw [(keyOf_eq_some hk).2, (keyOf_eq_some hk').2]
  have hkey : a.key = b.key := by
    by_contra hne
    exact h.apart a ha b hb hne r r' hra hrb hsame
  have hab := h.repeats a ha b hb hkey
  rw [hab, hrb] at hra
  exact (Option.some.inj hra).symm

variable [OrderedLists F]

omit [PyFloat F] in
/-- Writing a record twice. -/
theorem act_idem (config : AerospikeConfig) (r : AerospikeRecord F) (old : Option (Entry F)) :
    act config r (act config r old) = act config r old := by
  cases hp : config.recordExistsPolicy with
  | update =>
    rw [act_update hp, act_update hp]
    simp only [binsOf, Option.bind_some, ← Option.or_assoc, Option.or_self]
  | replace => rw [act_replace hp, act_replace hp]
  | createOnly =>
    cases old with
    | none => simp [act, hp]
    | some e => rw [act_createOnly hp, act_createOnly hp]

/-- The records of a stream written one by one, in order. -/
def Migrator.oneByOne (m : Migrator F) (S₀ : Store F) (src : List (RedisRecord F)) : Store F :=
  (writeEach m.config.aerospike S₀ (m.records src)).1

/-- `S` is what a run over the whole of `src` leaves. -/
def Migrator.Leaves (m : Migrator F) (S₀ : Store F) (src : List (RedisRecord F)) (S : Store F) :
    Prop :=
  ∃ x, (migration m S₀ src).Reachable x ∧ x.pipe.main = .done ∧ x.pipe.raised = false ∧
    x.store = S

/-- In a full run all of the source is dequeued. -/
theorem taken_of_done {m : Migrator F} (hret : TransformsReturn m) {S₀ : Store F}
    {src : List (RedisRecord F)} {x : Sys F} (h : (migration m S₀ src).Reachable x)
    (hd : x.pipe.main = .done) : x.pipe.taken.map Prod.snd = x.pipe.seen := by
  have hpipe := pipe_reachable h
  have hc := no_crash (env_quiet hret) x.pipe hpipe
  have hord := (order_reachable _ hpipe.of_restrict).order
  rw [drained_of_done hpipe.of_restrict hd hc, hd] at hord
  simpa [pending] using hord

/-- A record in the log was prepared of one of the source. -/
theorem mem_source {m : Migrator F} {S₀ : Store F} {src : List (RedisRecord F)} {x : Sys F}
    (h : (migration m S₀ src).Reachable x) {k : AerospikeKey} {r : AerospikeRecord F}
    (hr : r ∈ occurrences m.config.aerospike (x.log.map Prod.snd) k) :
    r ∈ occurrences m.config.aerospike (m.records src) k := by
  obtain ⟨hmem, hk⟩ := mem_occurrences.1 hr
  obtain ⟨p, hp, rfl⟩ := List.mem_map.1 hmem
  have hpipe := pipe_reachable h
  have hord := order_reachable _ hpipe.of_restrict
  obtain ⟨a, ha⟩ := (logged_reachable x h).prepared p hp
  have hout : Prepared.record p.2 = m.prepare a := outs_allowed _ hpipe p.1 _ ha
  have htag : a ∈ Pool.tagged x.pipe.taken p.1 := by
    rw [hord.history p.1]
    exact List.mem_append_left _ (List.mem_map_of_mem ha)
  have hsrc : a ∈ src := by
    rw [← hord.source, ← hord.order]
    refine List.mem_append_left _ (List.mem_append_left _ (List.mem_append_left _ ?_))
    obtain ⟨q, hq, rfl⟩ := List.mem_map.1 htag
    exact List.mem_map_of_mem (List.mem_of_mem_filter hq)
  exact mem_occurrences.2 ⟨List.mem_filterMap.2 ⟨a, hsrc, recordOf_eq_some.2 hout.symm⟩, hk⟩

/-- A record that was dequeued has been written, it or a later one. -/
theorem log_ne_nil {m : Migrator F} {S₀ : Store F} {src : List (RedisRecord F)} {x : Sys F}
    (h : (migration m S₀ src).Reachable x) (hd : x.pipe.main = .done) {k : AerospikeKey}
    {r : AerospikeRecord F}
    (hr : r ∈ occurrences m.config.aerospike (m.records (x.pipe.taken.map Prod.snd)) k) :
    occurrences m.config.aerospike (x.log.map Prod.snd) k ≠ [] := by
  obtain ⟨hmem, hk⟩ := mem_occurrences.1 hr
  obtain ⟨a, ha, hra⟩ := List.mem_filterMap.1 hmem
  obtain ⟨p, hp, rfl⟩ := List.mem_map.1 ha
  have hi := (order_reachable _ (pipe_reachable h).of_restrict).tags p hp
  have htag : p.2 ∈ Pool.tagged x.pipe.taken p.1 :=
    List.mem_map_of_mem (List.mem_filter.2 ⟨hp, by simp⟩)
  have hocc : r ∈ occurrences m.config.aerospike (m.records (Pool.tagged x.pipe.taken p.1)) k :=
    mem_occurrences.2 ⟨List.mem_filterMap.2 ⟨p.2, htag, hra⟩, hk⟩
  obtain ⟨w, hw⟩ := Option.isSome_iff_exists.1 (List.getLast?_isSome.2 (List.ne_nil_of_mem hocc))
  rw [← landed_of_done h hd hi] at hw
  obtain ⟨hlog, hkw⟩ := mem_occurrences.1 (List.mem_of_getLast? hw)
  obtain ⟨q, hq, rfl⟩ := List.mem_map.1 hlog
  exact List.ne_nil_of_mem
    (mem_occurrences.2 ⟨List.mem_map_of_mem (List.mem_of_mem_filter hq), hkw⟩)

/-- What is stored under a key has been through the log. -/
theorem store_at {m : Migrator F} {S₀ : Store F} {src : List (RedisRecord F)} {x : Sys F}
    (h : (migration m S₀ src).Reachable x) (k : AerospikeKey) :
    x.store k = (occurrences m.config.aerospike (x.log.map Prod.snd) k).foldl
      (fun v r => act m.config.aerospike r v) (S₀ k) := by
  have hlog := logged_reachable x h
  have hfilter : ((x.log.map Prod.snd).filter fun r => sinkKey m.config.aerospike r = k) =
      occurrences m.config.aerospike (x.log.map Prod.snd) k := by
    refine List.filter_congr fun r hr => ?_
    obtain ⟨p, hp, rfl⟩ := List.mem_map.1 hr
    rw [hlog.fits p hp]
    simp
  rw [hlog.replayed, Replay.replay_at, hfilter]

/-- **Refinement.** A full run over a stream with the records of `src` leaves
what the writes of `src` one by one leave. -/
theorem store_of_full {m : Migrator F} (hret : TransformsReturn m) {S₀ : Store F}
    {src src' : List (RedisRecord F)} (hq : Quiescent m src) (hperm : src'.Perm src) {x : Sys F}
    (h : (migration m S₀ src').Reachable x) (hd : x.pipe.main = .done)
    (hraised : x.pipe.raised = false) : x.store = m.oneByOne S₀ src := by
  have hopen := (pipe_reachable h).of_restrict
  have hall : x.pipe.taken.map Prod.snd = src' := by
    have hsrc : x.pipe.src = [] := by
      rcases exhausted_reachable _ hopen with hm | ⟨a, hm⟩ | hr | hs
      · rw [hd] at hm; cases hm
      · rw [hd] at hm; cases hm
      · rw [hraised] at hr; cases hr
      · exact hs
    rw [taken_of_done hret h hd, ← (order_reachable _ hopen).source, hsrc, List.append_nil]
  have hsame : ∀ k r, r ∈ occurrences m.config.aerospike (m.records src') k ↔
      r ∈ occurrences m.config.aerospike (m.records src) k := by
    intro k r
    rw [mem_occurrences, mem_occurrences]
    exact and_congr_left fun _ => (hperm.filterMap m.recordOf).mem_iff
  funext k
  rw [store_at h k, Migrator.oneByOne, writeEach_at]
  cases hocc : occurrences m.config.aerospike (m.records src) k with
  | nil =>
    -- no record of the source goes to this key
    have hnil : occurrences m.config.aerospike (x.log.map Prod.snd) k = [] := by
      refine List.eq_nil_iff_forall_not_mem.2 fun r hr => ?_
      have := (hsame k r).1 (mem_source h hr)
      rw [hocc] at this
      cases this
    rw [hnil]
  | cons r rs =>
    have hr : r ∈ occurrences m.config.aerospike (m.records src) k := by
      rw [hocc]; exact List.mem_cons_self
    have hone : ∀ r' ∈ occurrences m.config.aerospike (m.records src) k, r' = r :=
      fun r' hr' => hq.single hr' hr
    have hlog : ∀ r' ∈ occurrences m.config.aerospike (x.log.map Prod.snd) k, r' = r :=
      fun r' hr' => hone r' ((hsame k r').1 (mem_source h hr'))
    have hne := log_ne_nil h hd (hall ▸ (hsame k r).2 hr)
    rw [← hocc, Replay.foldl_same (act_idem m.config.aerospike r) hlog,
      Replay.foldl_same (act_idem m.config.aerospike r) hone, if_neg hne,
      if_neg (List.ne_nil_of_mem hr)]

/-- Writing a source that does not change a second time. -/
theorem oneByOne_again {m : Migrator F} {src : List (RedisRecord F)} (hq : Quiescent m src)
    (S₀ : Store F) : m.oneByOne (m.oneByOne S₀ src) src = m.oneByOne S₀ src := by
  funext k
  unfold Migrator.oneByOne
  rw [writeEach_at, writeEach_at]
  cases hocc : occurrences m.config.aerospike (m.records src) k with
  | nil => rfl
  | cons r rs =>
    have hr : r ∈ occurrences m.config.aerospike (m.records src) k := by
      rw [hocc]; exact List.mem_cons_self
    have hone : ∀ r' ∈ occurrences m.config.aerospike (m.records src) k, r' = r :=
      fun r' hr' => hq.single hr' hr
    have hne := List.ne_nil_of_mem hr
    rw [← hocc, Replay.foldl_same (act_idem m.config.aerospike r) hone,
      Replay.foldl_same (act_idem m.config.aerospike r) hone, if_neg hne, if_neg hne, act_idem]

/-- Under `CREATE_ONLY` what is there stays. -/
theorem oneByOne_present {m : Migrator F} (hp : m.config.aerospike.recordExistsPolicy = .createOnly)
    {S₀ : Store F} (src : List (RedisRecord F)) {k : AerospikeKey} {e : Entry F}
    (he : S₀ k = some e) : m.oneByOne S₀ src k = some e := by
  rw [Migrator.oneByOne, writeEach_at, he, foldl_createOnly_present hp]

/-- **Confluence and re-runs.** -/
theorem confluence {m : Migrator F} (hret : TransformsReturn m) {src : List (RedisRecord F)}
    (hq : Quiescent m src) (S₀ : Store F) :
    (∀ src', src'.Perm src → ∀ workers queueSize writeBatchSize S,
      (m.tuned workers queueSize writeBatchSize).Leaves S₀ src' S → S = m.oneByOne S₀ src) ∧
    (m.config.aerospike.recordExistsPolicy ≠ .createOnly →
      ∀ src', src'.Perm src → ∀ workers queueSize writeBatchSize S,
        (m.tuned workers queueSize writeBatchSize).Leaves (m.oneByOne S₀ src) src' S →
          S = m.oneByOne S₀ src) ∧
    (m.config.aerospike.recordExistsPolicy = .createOnly →
      ∀ k e, S₀ k = some e → m.oneByOne S₀ src k = some e) := by
  have hruns : ∀ S₁ src', src'.Perm src → ∀ workers queueSize writeBatchSize S,
      (m.tuned workers queueSize writeBatchSize).Leaves S₁ src' S → S = m.oneByOne S₁ src := by
    intro S₁ src' hperm w q b S hx
    obtain ⟨x, hx, hd, hraised, rfl⟩ := hx
    exact store_of_full (m := m.tuned w q b) hret ⟨hq.repeats, hq.apart⟩ hperm hx hd hraised
  refine ⟨hruns S₀, fun _ src' hperm w q b S hS => ?_, fun hp k e he => oneByOne_present hp src he⟩
  rw [hruns _ src' hperm w q b S hS, oneByOne_again hq]

/-- A migration that is not finished can go on. -/
theorem migration_can_move {m : Migrator F} (hret : TransformsReturn m) {S₀ : Store F}
    {src : List (RedisRecord F)} {x : Sys F} (h : (migration m S₀ src).Reachable x)
    (hd : x.pipe.main ≠ .done) : ∃ e x', m.step x e = some x' := by
  have hpipe := pipe_reachable h
  have hc := no_crash (env_quiet hret) x.pipe hpipe
  have hcan : ∃ l s, (machine m.cfg m.env src).step x.pipe l s :=
    can_move hpipe.of_restrict hc hd
  obtain ⟨l, s, -, hst⟩ := hcan
  have hmove : Move m.cfg x.pipe l s := step_move hst
  have hcallless : Callless l → ∃ e x', m.step x e = some x' := fun hl =>
    ⟨.pipe l, _, happens_step (.pipe hl hmove)⟩
  cases hmove with
  | prepare hi hp => exact ⟨_, _, happens_step (.prepare hi hp)⟩
  | write hi hp => exact ⟨_, _, happens_step (.write hi hp)⟩
  | @many i next out hi hp =>
    cases hr : (lastSlotForKey m.config.aerospike
        (recordsOf (x.pipe.workers i).buffer)).keys.mapM (x.replies i) with
    | some replies => exact ⟨_, _, happens_step (.many hi hp hr)⟩
    | none =>
      -- some sub-write of the batch is not answered yet
      have hnot : ¬ ∀ k ∈ (lastSlotForKey m.config.aerospike
          (recordsOf (x.pipe.workers i).buffer)).keys, (x.replies i k).isSome := by
        rw [← Fallible.mapM_isSome_iff, hr]; nofun
      push Not at hnot
      obtain ⟨k, hk, hnone⟩ := hnot
      obtain ⟨r, hw, -⟩ := winner_of_mem hk
      exact ⟨_, _, happens_step (.sub hi hp (by simpa using hnone) hw)⟩
  | _ => exact hcallless trivial

end

/-- A migrator with the defaults. -/
def plainMigrator : Migrator String := ⟨{}, .fromConfig {}, []⟩

/-- A key that comes twice, through two workers. -/
theorem confluence_repeated :
    ((plainMigrator.tuned 2 0 1).Leaves (fun _ => none) [letter "b", letter "a", letter "a"]
      (plainMigrator.oneByOne (fun _ => none) [letter "a", letter "b", letter "a"])) ∧
    ∀ src', src'.Perm [letter "a", letter "b", letter "a"] → ∀ w q b S,
      (plainMigrator.tuned w q b).Leaves
        (plainMigrator.oneByOne (fun _ => none) [letter "a", letter "b", letter "a"]) src' S →
      S = plainMigrator.oneByOne (fun _ => none) [letter "a", letter "b", letter "a"] := by
  have hapart : ∀ a ∈ [letter "a", letter "b", letter "a"],
      ∀ b ∈ [letter "a", letter "b", letter "a"], a.key ≠ b.key →
        (plainMigrator.recordOf a).map (sinkKey plainMigrator.config.aerospike) ≠
          (plainMigrator.recordOf b).map (sinkKey plainMigrator.config.aerospike) := by
    decide
  have hq : Quiescent plainMigrator [letter "a", letter "b", letter "a"] := by
    refine ⟨by decide, fun a ha b hb hne ra rb hra hrb he => hapart a ha b hb hne ?_⟩
    rw [hra, hrb, Option.map_some, Option.map_some, he]
  have hall := confluence (m := plainMigrator) nofun hq fun _ => none
  refine ⟨?_, hall.2.1 nofun⟩
  have hperm : [letter "b", letter "a", letter "a"].Perm [letter "a", letter "b", letter "a"] :=
    List.Perm.swap _ _ _
  obtain ⟨x, hx, hd, hr⟩ : ∃ x, (migration (plainMigrator.tuned 2 0 1) (fun _ => none)
      [letter "b", letter "a", letter "a"]).Reachable x ∧ x.pipe.main = .done ∧
        x.pipe.raised = false := by
    apply Exists.intro
    refine ⟨⟨_, [.pipe .scan, .pipe .put, .pipe (.get 0), .pipe .scan, .pipe .put, .pipe (.get 1),
      .prepare 1, .write 1, .prepare 0, .write 0, .pipe (.count 0), .pipe (.count 1), .pipe .scan,
      .pipe .put, .pipe .sourceEnd, .pipe .putStop, .pipe .putStop, .pipe (.get 0), .prepare 0,
      .write 0, .pipe (.count 0), .pipe (.get 0), .pipe (.get 1), .pipe .join, .pipe .join], rfl,
      LTS.run_of_exec (fun _ _ _ h => h) rfl⟩, rfl, rfl⟩
  exact ⟨x, hx, hd, hr, hall.1 _ hperm 2 0 1 _ ⟨x, hx, hd, hr, rfl⟩⟩

end RedisToAerospike.L5
