import RedisToAerospike.L4Pipeline.Accounting

/-!
# Isolation and progress

* `progress`: as long as no transform raises, a worker leaves its loop only
  by taking a `_STOP`, and a run that is not finished can go on.
* `crashed_worker_blocks`: `_prepare` calls the transforms outside its
  handler. One that raises ends the worker, and with no worker left the
  producer waits on a full queue for ever.
-/
namespace RedisToAerospike.L4
open L1 L2 L3

section
variable {α R : Type}

/-- A worker that is not gone can move, unless it waits on an empty queue. -/
theorem worker_can_move {cfg : Cfg} {env : Env α R} {src : List α} {s : St α R} {i : Nat}
    (hi : i < cfg.poolSize) (hpc : ∀ c, (s.workers i).pc ≠ .exited c)
    (hq : (s.workers i).pc = .get → s.queue ≠ []) :
    ∃ l s', (machine cfg env src).step s l s' := by
  cases hp : (s.workers i).pc with
  | get =>
    cases hqueue : s.queue with
    | nil => exact absurd hqueue (hq hp)
    | cons x rest =>
      cases x with
      | data a => exact ⟨.get i, _, trivial, move_step (.getData hi hp hqueue)⟩
      | stop => exact ⟨.get i, _, trivial, move_step (.getStop hi hp hqueue)⟩
  | item a =>
    obtain ⟨out, hout⟩ := env.prepares_total a
    exact ⟨.prepare i out, _, ⟨a, hp, hout⟩, move_step (.prepare hi hp)⟩
  | write a r =>
    obtain ⟨out, hout⟩ := env.writes_total a r
    exact ⟨.write i out, _, ⟨a, r, hp, hout⟩, move_step (.write hi hp)⟩
  | flush next =>
    obtain ⟨out, hout⟩ := env.writesMany_total (s.workers i).buffer
    exact ⟨.many i out, _, hout, move_step (.many hi hp)⟩
  | report t ts next => exact ⟨.count i, _, trivial, move_step (.count hi hp)⟩
  | exited c => exact absurd hp (hpc c)

/-- A worker in its loop can move when there is something in the queue. -/
theorem looping_can_move {cfg : Cfg} {env : Env α R} {src : List α} {s : St α R} {i : Nat}
    (hi : i < cfg.poolSize) (hl : (s.workers i).leaving = none) (hq : s.queue ≠ []) :
    ∃ l s', (machine cfg env src).step s l s' := by
  refine worker_can_move hi (fun c hc => ?_) fun _ => hq
  rw [Worker.leaving_of_exited hc] at hl
  cases hl

theorem Full.ne_nil {cfg : Cfg} {s : St α R} (h : Full cfg s) : s.queue ≠ [] := by
  intro hq
  unfold Full at h
  rw [hq, List.length_nil] at h
  omega

theorem Worker.leaving_eq_none {w : Worker α R} (hc : w.leaving ≠ some .crashed)
    (hs : w.stopped = 0) : w.leaving = none := by
  cases hl : w.leaving with
  | none => rfl
  | some c =>
    cases c with
    | stopped => simp [stopped, hl] at hs
    | crashed => exact absurd hl hc

/-- With every exit through a `_STOP`, some thread can always move. -/
theorem can_move {cfg : Cfg} {env : Env α R} {src : List α} {s : St α R}
    (h : (pipeline cfg src).Reachable s) (hc : ∀ j, (s.workers j).leaving ≠ some .crashed)
    (hd : s.main ≠ .done) : ∃ l s', (machine cfg env src).step s l s' := by
  have hst := stops_reachable s h
  have hcount := hst.count
  have hpos := cfg.poolSize_pos
  cases hm : s.main with
  | next =>
    cases hs : s.src with
    | nil => exact ⟨.sourceEnd, _, trivial, move_step (.sourceEnd hm hs)⟩
    | cons a rest => exact ⟨.scan, _, trivial, move_step (.scan hm hs)⟩
  | put a =>
    by_cases hf : Full cfg s
    · -- no `_STOP` is out, so every worker is in its loop
      rw [hm] at hcount
      simp only [stopsPut] at hcount
      have h0 : s.stopped cfg = 0 := by omega
      have hzero := Pool.total_eq_zero_iff.1 h0 0 hpos
      exact looping_can_move hpos (Worker.leaving_eq_none (hc 0) hzero) hf.ne_nil
    · exact ⟨.put, _, trivial, move_step (.put hm hf)⟩
  | stop n =>
    have hb := hst.bound n hm
    by_cases hf : Full cfg s
    · -- a `_STOP` is still to be put, so some worker is in its loop
      rw [hm] at hcount
      simp only [stopsPut] at hcount
      have hlt : Pool.total cfg.poolSize Worker.stopped s.workers < cfg.poolSize := by
        unfold St.stopped at hcount; omega
      obtain ⟨i, hi, hzero⟩ := Pool.exists_of_total_lt Worker.stopped_le hlt
      exact looping_can_move hi (Worker.leaving_eq_none (hc i) hzero) hf.ne_nil
    · obtain ⟨k, rfl⟩ : ∃ k, n = k + 1 := ⟨n - 1, by omega⟩
      exact ⟨.putStop, _, trivial, move_step (.putStop hm hf)⟩
  | join i =>
    obtain ⟨hi, -⟩ := (joined_reachable s h).join i hm
    by_cases hex : ∃ c, (s.workers i).pc = .exited c
    · obtain ⟨c, hp⟩ := hex
      exact ⟨.join, _, trivial, move_step (.join hm hp)⟩
    · refine worker_can_move hi (fun c hp => hex ⟨c, hp⟩) fun hget hq => ?_
      -- the worker has not taken a `_STOP`, so one is left in the queue
      have hzero : (s.workers i).stopped = 0 := by
        simp [Worker.stopped, Worker.leaving, hget]
      have hlt := Pool.total_lt Worker.stopped_le hi hzero
      rw [hm, hq] at hcount
      simp only [stopsPut, stopsIn] at hcount
      unfold St.stopped at hcount
      omega
  | done => exact absurd hm hd

/-- **Isolation and progress**, in every run in which no transform raises. -/
theorem progress {cfg : Cfg} {env : Env α R} {src : List α} {s : St α R}
    (h : ((machine cfg env src).restrict fun _ l => Quiet l).Reachable s) :
    (∀ l s' j, ((machine cfg env src).restrict fun _ l => Quiet l).step s l s' →
      (s.workers j).leaving = none → (s'.workers j).leaving ≠ none →
        l = .get j ∧ s.queue.head? = some .stop) ∧
    (s.main ≠ .done → ∃ l s', (machine cfg env src).step s l s') := by
  have hopen : (pipeline cfg src).Reachable s := h.of_restrict.of_restrict
  have hquiet : ((pipeline cfg src).restrict fun _ l => Quiet l).Reachable s := h.forget_inner
  refine ⟨fun l s' j hst hl hl' => ?_, can_move hopen (no_crash (fun _ _ hq => hq) s hquiet)⟩
  rcases (step_move hst.2.2).leaving j with he | ⟨_, _, hget, hq⟩ | ⟨_, _, exc, rfl⟩
  · exact absurd (he.trans hl) hl'
  · exact ⟨hget, hq⟩
  · exact hst.1.elim

/-- With its only worker gone, the producer cannot get past a full queue. -/
theorem stuck {cfg : Cfg} {s : St α R} {a : α} {c : Cause} (hpool : cfg.poolSize = 1)
    (hm : s.main = .put a) (hf : Full cfg s) (hp : (s.workers 0).pc = .exited c) :
    ∀ l s', ¬ Move cfg s l s' := by
  intro l s' h
  have hzero : ∀ i, i < cfg.poolSize → i = 0 := fun i hi => by omega
  cases h with
  | scan hmain hs => rw [hm] at hmain; cases hmain
  | sourceEnd hmain hs => rw [hm] at hmain; cases hmain
  | sourceRaise hmain => rw [hm] at hmain; cases hmain
  | put hmain hnf => exact hnf hf
  | putStop hmain hnf => rw [hm] at hmain; cases hmain
  | join hmain hex => rw [hm] at hmain; cases hmain
  | getData hi hpc hq => rw [hzero _ hi, hp] at hpc; cases hpc
  | getStop hi hpc hq => rw [hzero _ hi, hp] at hpc; cases hpc
  | prepare hi hpc => rw [hzero _ hi, hp] at hpc; cases hpc
  | write hi hpc => rw [hzero _ hi, hp] at hpc; cases hpc
  | many hi hpc => rw [hzero _ hi, hp] at hpc; cases hpc
  | count hi hpc => rw [hzero _ hi, hp] at hpc; cases hpc

end

/-! ## A transform that raises -/

/-- A string record. -/
def letter (key : String) : RedisRecord String :=
  { key := .str key, type := "string", value := .string key.toByteArray }

/-- A transform that raises on the key `a`. -/
def raisesOnA : Transform String := fun r =>
  if r.key = .str "a" then .error (.other "KeyError" "a") else .ok r

/-- The real `_prepare` under that transform, and a sink that takes all. -/
def raisingEnv : Env (RedisRecord String) (AerospikeRecord String) where
  prepares a out := out = prepare {} (.fromConfig {}) [raisesOnA] a
  writes _ _ out := out = .written
  writesMany b out := out = .returned (b.map fun _ => none)
  prepares_total _ := ⟨_, rfl⟩
  writes_total _ _ := ⟨_, rfl⟩
  writesMany_total _ := ⟨_, rfl⟩

/-- One worker, room for one record, three records: the first kills the
worker, the second fills the queue, the third can never be put. -/
theorem crashed_worker_blocks :
    ∃ s, (machine ⟨1, 1, 1, false⟩ raisingEnv [letter "a", letter "b", letter "c"]).Reachable s ∧
      (s.workers 0).pc = .exited .crashed ∧ s.main ≠ .done ∧
      ∀ l s', ¬ (machine ⟨1, 1, 1, false⟩ raisingEnv
        [letter "a", letter "b", letter "c"]).step s l s' := by
  apply Exists.intro
  refine ⟨⟨_, [.scan, .put, .get 0, .prepare 0 (.raised (.other "KeyError" "a")), .scan, .put,
    .scan], rfl, ?_⟩, ?_⟩
  · exact .cons ⟨trivial, rfl⟩ (.cons ⟨trivial, rfl⟩ (.cons ⟨trivial, rfl⟩
      (.cons ⟨⟨letter "a", rfl, rfl⟩, rfl⟩ (.cons ⟨trivial, rfl⟩ (.cons ⟨trivial, rfl⟩
        (.cons ⟨trivial, rfl⟩ (.nil _)))))))
  · exact ⟨rfl, nofun, fun l s' h => stuck rfl rfl (by decide) rfl l s' (step_move h.2)⟩

/-- In a run without such a transform the same producer goes on. -/
theorem progress_after_put :
    ∃ s, s.main = .put (letter "c") ∧
      ∃ l s', (machine ⟨1, 1, 1, false⟩ raisingEnv
        [letter "b", letter "b", letter "c"]).step s l s' := by
  obtain ⟨s, hr, hm⟩ : ∃ s, ((machine ⟨1, 1, 1, false⟩ raisingEnv
      [letter "b", letter "b", letter "c"]).restrict fun _ l => Quiet l).Reachable s ∧
      s.main = .put (letter "c") := by
    apply Exists.intro
    refine ⟨⟨_, [.scan, .put, .get 0, .scan, .put, .scan], rfl, ?_⟩, ?_⟩
    · exact .cons ⟨trivial, trivial, rfl⟩ (.cons ⟨trivial, trivial, rfl⟩
        (.cons ⟨trivial, trivial, rfl⟩ (.cons ⟨trivial, trivial, rfl⟩
          (.cons ⟨trivial, trivial, rfl⟩ (.cons ⟨trivial, trivial, rfl⟩ (.nil _))))))
    · rfl
  exact ⟨s, hm, (progress hr).2 (by rw [hm]; nofun)⟩

end RedisToAerospike.L4
