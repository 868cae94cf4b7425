import RedisToAerospike.L4Pipeline.Termination
import RedisToAerospike.L5Migration.Confluence

/-!
# Every migration ends

* `Thrifty`: a worker has sent no more than it was handed; `log_le`: no more
  writes reach the server than records were dequeued.
* `termination`: a bound on the length of every run, and that the states
  without a step are those in which all threads have been joined.
-/
namespace RedisToAerospike.L5
open L1 L2 L3 L4

section
variable {F : Type} [PyFloat F]

/-! ## The writes that are sent -/

/-- The sub-commands of worker `i`'s batch that are answered. -/
def Sys.answered (x : Sys F) (config : AerospikeConfig) (i : Nat) : Nat :=
  ((lastSlotForKey config (recordsOf (x.pipe.workers i).buffer)).keys.filter fun k =>
    (x.replies i k).isSome).length

/-- A worker has sent no more than its finished calls and the answered part of
its batch. -/
def Thrifty (m : Migrator F) (x : Sys F) : Prop :=
  ∀ i, (Pool.tagged x.log i).length ≤
    (x.pipe.workers i).calls.flatten.length + x.answered m.config.aerospike i

omit [PyFloat F] in
theorem answered_of_idle {x : Sys F} {config : AerospikeConfig} {i : Nat}
    (h : ∀ k, x.replies i k = none) : x.answered config i = 0 := by
  simp [Sys.answered, h]

omit [PyFloat F] in
theorem answered_le (x : Sys F) (config : AerospikeConfig) (i : Nat) :
    x.answered config i ≤ (x.pipe.workers i).buffer.length := by
  have hkeys : (lastSlotForKey config (recordsOf (x.pipe.workers i).buffer)).keys.length ≤
      (x.pipe.workers i).buffer.length := by
    refine Nat.le_trans (Nat.le_of_eq (List.length_map _)) ?_
    refine Nat.le_trans (Dict.size_ofPairs_le _) ?_
    refine Nat.le_trans (List.length_filterMap_le _ _) ?_
    simp [recordsOf]
  exact Nat.le_trans (List.length_filter_le _ _) hkeys

variable [OrderedLists F]

omit [PyFloat F] in
/-- One more sub-command is answered. -/
theorem answered_answer {x : Sys F} {config : AerospikeConfig} {i : Nat} {k : AerospikeKey}
    {r : AerospikeRecord F} (hr : x.replies i k = none)
    (hw : winner config (recordsOf (x.pipe.workers i).buffer) k = some r) :
    x.answered config i + 1 ≤ (x.answer config i k r).answered config i := by
  rw [winner_eq] at hw
  obtain ⟨hrec, hk⟩ := mem_occurrences.1 (List.mem_of_getLast? hw)
  have hmem := mem_sentKeys_iff.2 ⟨r, hrec, hk⟩
  have hn := (lastSlotForKey config (recordsOf (x.pipe.workers i).buffer)).nodup
  have hnew : (k :: (lastSlotForKey config (recordsOf (x.pipe.workers i).buffer)).keys.filter
      fun k => (x.replies i k).isSome).Nodup := List.nodup_cons.2 ⟨by simp [hr], hn.filter _⟩
  unfold Sys.answered
  refine (List.subperm_of_subset hnew ?_).length_le
  intro k' hk'
  rcases List.mem_cons.1 hk' with rfl | hk'
  · exact List.mem_filter.2 ⟨hmem, by simp [Sys.answer]⟩
  · obtain ⟨hin, hsome⟩ := List.mem_filter.1 hk'
    refine List.mem_filter.2 ⟨hin, ?_⟩
    by_cases he : k' = k
    · simp [Sys.answer, he]
    · simpa [Sys.answer, Function.update_of_ne he] using hsome

omit [OrderedLists F] in
/-- Moves of workers that do not wait for the server. -/
theorem Thrifty.of_calls {m : Migrator F} {x : Sys F} (hx : Landed m x) (h : Thrifty m x)
    {s : PipeSt F}
    (hs : ∀ j, s.workers j = x.pipe.workers j ∨
      (∀ next, (x.pipe.workers j).pc ≠ .flush next) ∧
        (s.workers j).calls = (x.pipe.workers j).calls) :
    Thrifty m { x with pipe := s } := by
  intro j
  have hj := h j
  rcases hs j with he | ⟨hp, hc⟩
  · simpa only [Sys.answered, he] using hj
  · have hidle := hx.idle hp
    rw [answered_of_idle hidle] at hj
    rw [answered_of_idle (x := { x with pipe := s }) hidle]
    simpa only [hc] using hj

theorem Thrifty.happens {m : Migrator F} {x x' : Sys F} {e : Event F} (hx : Landed m x)
    (h : Thrifty m x) (he : Happens m x e x') : Thrifty m x' := by
  cases he with
  | pipe hl hs => exact h.of_calls hx (callless_workers hs hl)
  | @prepare i a hi hp =>
    refine h.of_calls hx fun j => ?_
    by_cases hj : j = i
    · subst hj
      refine .inr ⟨fun next he => ?_, by simp [St.setWorker, Worker.prepared_calls]⟩
      rw [hp] at he
      cases he
    · exact .inl (by simp [St.setWorker, Function.update_of_ne hj])
  | @write i a r hi hp =>
    intro j
    have hj := h j
    have hsent : (Pool.tagged (sent m.config.aerospike i r) j).length ≤ if j = i then 1 else 0 := by
      unfold sent
      cases hk : keyOf m.config.aerospike r with
      | none => simp [Pool.tagged]
      | some k =>
        by_cases he : j = i
        · simp [he]
        · simp [he, Ne.symm he]
    dsimp only
    rw [Pool.tagged_append, List.length_append]
    by_cases he : j = i
    · subst he
      have hbusy : ∀ next, (x.pipe.workers j).pc ≠ .flush next := by
        intro next he
        rw [hp] at he
        cases he
      have hidle := hx.idle hbusy
      rw [answered_of_idle hidle] at hj
      rw [if_pos rfl] at hsent
      rw [answered_of_idle (by exact hidle)]
      simp only [St.setWorker, Function.update_self, Worker.wrote, Worker.report_calls,
        List.flatten_append, List.length_append, List.flatten_cons, List.flatten_nil,
        List.append_nil, List.length_singleton]
      omega
    · rw [if_neg he] at hsent
      simp only [Sys.answered, St.setWorker, Function.update_of_ne he] at hj ⊢
      omega
  | @sub i k r next hi hp hr hw =>
    intro j
    have hj := h j
    have hlog : (x.answer m.config.aerospike i k r).log = x.log ++ [(i, r)] := rfl
    rw [hlog, Pool.tagged_append, Pool.tagged_single, List.length_append]
    by_cases he : i = j
    · subst he
      have hone := answered_answer hr hw
      rw [if_pos rfl, List.length_singleton]
      have hcalls : ((x.answer m.config.aerospike i k r).pipe.workers i).calls =
          (x.pipe.workers i).calls := rfl
      rw [hcalls]
      omega
    · rw [if_neg he]
      have hsame : (x.answer m.config.aerospike i k r).answered m.config.aerospike j =
          x.answered m.config.aerospike j := by
        simp [Sys.answered, Sys.answer, Function.update_of_ne (Ne.symm he)]
      rw [hsame]
      exact hj
  | @many i next replies hi hp hr =>
    intro j
    have hj := h j
    by_cases he : j = i
    · subst he
      have hle := answered_le x m.config.aerospike j
      rw [answered_of_idle (by simp)]
      simp only [St.setWorker, Function.update_self, Worker.flushed, Worker.report_calls,
        List.flatten_append, List.length_append, List.flatten_cons, List.flatten_nil,
        List.append_nil]
      omega
    · simpa [Sys.answered, St.setWorker, Function.update_of_ne he] using hj

theorem thrifty_reachable {m : Migrator F} {S₀ : Store F} {src : List (RedisRecord F)} :
    ∀ x : Sys F, (migration m S₀ src).Reachable x → Thrifty m x := by
  refine LTS.reachable_induction (fun x hx => ?_) fun x e x' hx ih hst =>
    ih.happens (landed_reachable x hx) (step_happens hst)
  subst hx
  exact fun i => Nat.zero_le _

/-- No more writes reach the server than records were dequeued. -/
theorem log_le {m : Migrator F} {S₀ : Store F} {src : List (RedisRecord F)} {x : Sys F}
    (h : (migration m S₀ src).Reachable x) : x.log.length ≤ x.pipe.taken.length := by
  have hopen := (pipe_reachable h).of_restrict
  have hord := order_reachable _ hopen
  have hcut : ∀ {β : Type} (l : List (Nat × β)), (∀ p ∈ l, p.1 < m.cfg.poolSize) →
      l.length = ((List.range m.cfg.poolSize).map fun i => (Pool.tagged l i).length).sum := by
    intro β l hl
    have hp := (Pool.tagged_perm hl).length_eq
    rw [List.length_flatMap, List.length_map] at hp
    exact hp.symm
  rw [hcut x.log (logged_reachable x h).owner, hcut x.pipe.taken hord.tags]
  refine List.sum_le_sum fun i _ => ?_
  have hthrift := thrifty_reachable x h i
  have hans := answered_le x m.config.aerospike i
  have hok := worker_ok hopen i
  -- what was handed on was prepared, and what was prepared was dequeued
  have hhist := congrArg List.length hok.history
  have hconv := List.length_filterMap_le Worker.converted (x.pipe.workers i).outs
  rw [List.length_append, List.length_append] at hhist
  rw [hord.history i, List.length_append, List.length_map]
  omega

/-! ## Termination -/

theorem Happens.rank {m : Migrator F} {x x' : Sys F} {e : Event F} (h : Happens m x e x') :
    x'.pipe.rank m.cfg + x.log.length + 1 ≤ x.pipe.rank m.cfg + x'.log.length := by
  have hpipe : ∀ {l : Label (AerospikeRecord F)} {s : PipeSt F}, Move m.cfg x.pipe l s →
      s.rank m.cfg + x.log.length + 1 ≤ x.pipe.rank m.cfg + x.log.length := by
    intro l s hm
    have := hm.rank
    omega
  cases h with
  | pipe hl hs => exact hpipe hs
  | prepare hi hp => exact hpipe (.prepare hi hp)
  | @write i a r hi hp =>
    refine Nat.le_trans (hpipe (.write hi hp)) ?_
    simp only [List.length_append]
    omega
  | sub hi hp hr hw =>
    simp only [Sys.answer, List.length_append, List.length_singleton]
    omega
  | many hi hp hr => exact hpipe (.many hi hp)

/-- Every run from a reachable state is bounded by the rank of that state. -/
theorem length_run_le {m : Migrator F} {S₀ : Store F} {src : List (RedisRecord F)} {x x' : Sys F}
    {es : List (Event F)} (h : (migration m S₀ src).Reachable x)
    (hr : (migration m S₀ src).Run x es x') :
    es.length ≤ x.pipe.rank m.cfg + src.length := by
  have hrun := hr.length_le h fun a l b _ hst => (step_happens hst).rank
  have hlog := log_le (h.run hr)
  have hord := order_reachable _ (pipe_reachable (h.run hr)).of_restrict
  have htaken : x'.pipe.taken.length ≤ src.length := by
    rw [← hord.source, ← hord.order]
    simp only [List.length_append, List.length_map]
    omega
  omega

theorem done_of_stuck {m : Migrator F} (hret : TransformsReturn m) {S₀ : Store F}
    {src : List (RedisRecord F)} {x : Sys F} (h : (migration m S₀ src).Reachable x)
    (hstuck : ∀ e, m.step x e = none) : x.pipe.main = .done := by
  by_contra hd
  obtain ⟨e, x', hst⟩ := migration_can_move hret h hd
  rw [hstuck e] at hst
  cases hst

theorem stuck_of_over {m : Migrator F} {S₀ : Store F} {src : List (RedisRecord F)} {x : Sys F}
    (h : (migration m S₀ src).Reachable x) (hd : x.pipe.main = .done) (e : Event F) :
    m.step x e = none := by
  have hopen := (pipe_reachable h).of_restrict
  have hstuck := stuck_of_done hopen hd
  cases hst : m.step x e with
  | none => rfl
  | some x' =>
    cases step_happens hst with
    | pipe hl hs => exact absurd hs (hstuck _ _)
    | @prepare i a hi hp => exact absurd (Move.prepare hi hp) (hstuck (.prepare i (m.prepare a)) _)
    | @write i a r hi hp => exact absurd (Move.write hi hp) (hstuck (.write i .written) _)
    | @sub i k r next hi hp hr hw => exact absurd (Move.many hi hp) (hstuck (.many i (.raised "")) _)
    | @many i next replies hi hp hr =>
      exact absurd (Move.many hi hp) (hstuck (.many i (.raised "")) _)

/-- **Termination.** A run over `n` records with `W` workers has at most
`8 n + 4 W + 2` steps, whatever the interleaving. If the transforms return,
the states in which no thread can move are those in which `run` is over, and
there is a way there from every reachable state. -/
theorem termination {m : Migrator F} {S₀ : Store F} {src : List (RedisRecord F)} {x : Sys F}
    {es : List (Event F)} (h : (migration m S₀ src).Run { pipe := .start src, store := S₀ } es x) :
    es.length ≤ 8 * src.length + 4 * m.cfg.poolSize + 2 ∧
    (TransformsReturn m →
      ((∀ e, m.step x e = none) ↔ x.pipe.main = .done) ∧
      ∃ es' x', (migration m S₀ src).Run x es' x' ∧ x'.pipe.main = .done) := by
  have hstart : (migration m S₀ src).Reachable { pipe := .start src, store := S₀ } :=
    LTS.reachable_init rfl
  have hx := hstart.run h
  refine ⟨?_, fun hret => ⟨⟨done_of_stuck hret hx, stuck_of_over hx⟩, ?_⟩⟩
  · have hlen := length_run_le hstart h
    rw [rank_start] at hlen
    omega
  · refine hx.finishes (fun es' x' hr => length_run_le hx hr) fun x' hx' hd => ?_
    exact migration_can_move hret hx' hd

end

/-- Two records through two workers in batches of two, up to the last join. -/
theorem termination_two :
    ∃ x es, (migration (plainMigrator.tuned 2 0 2) (fun _ => none) [letter "a", letter "b"]).Run
        { pipe := .start [letter "a", letter "b"], store := fun _ => none } es x ∧
      es.length ≤ 8 * 2 + 4 * 2 + 2 ∧ ∀ e, (plainMigrator.tuned 2 0 2).step x e = none := by
  obtain ⟨x, es, hr, hd⟩ : ∃ x es, (migration (plainMigrator.tuned 2 0 2) (fun _ => none)
      [letter "a", letter "b"]).Run
        { pipe := .start [letter "a", letter "b"], store := fun _ => none } es x ∧
      x.pipe.main = .done := by
    refine ⟨_, [.pipe .scan, .pipe .put, .pipe .scan, .pipe .put, .pipe .sourceEnd,
      .pipe (.get 0), .prepare 0, .pipe (.get 1), .prepare 1, .pipe .putStop, .pipe .putStop,
      .pipe (.get 0), .pipe (.get 1), .sub 0 ("test", "redis", .str "a"),
      .sub 1 ("test", "redis", .str "b"), .many 1, .many 0, .pipe (.count 0), .pipe (.count 1),
      .pipe .join, .pipe .join], LTS.run_of_exec (fun _ _ _ h => h) rfl, rfl⟩
  have hall := termination hr
  exact ⟨x, es, hr, hall.1, (hall.2 fun _ h => by cases h).1.2 hd⟩

end RedisToAerospike.L5
