import RedisToAerospike.L3Sink.Alignment
import RedisToAerospike.L4Pipeline.Accounting

/-!
# Memory (`docs/05-running-and-tuning.md`)

What is scanned and not yet counted is in the producer's hand, in the queue or
with a worker.

* `Worker.Bounded`: a worker never holds more than a batch, and flushes a
  smaller one only on its way out.
* `queue_length_le`: the queue keeps to its size.
* `memory_bounded`: the bound on all of them, over the sink's `write_many`.
-/
namespace RedisToAerospike.L4
open L3

section
variable {α R : Type}

/-! ## What a worker holds -/

namespace Worker

/-- The calls that carried less than a batch. -/
def short (cfg : Cfg) (calls : List (List (α × R))) : List (List (α × R)) :=
  calls.filter fun c => c.length < cfg.batchSize

/-- A worker's bounds. While it is in its loop every call has carried a whole
batch. -/
structure Bounded (cfg : Cfg) (w : Worker α R) : Prop where
  room : w.buffer.length + w.load ≤ cfg.batchSize
  free : w.pc = .get → w.buffer.length < cfg.batchSize
  held : ∀ next, w.pc = .flush next → w.buffer ≠ []
  full : w.pc = .flush .loop → w.buffer.length = cfg.batchSize
  calls : ∀ c ∈ w.calls, 1 ≤ c.length ∧ c.length ≤ cfg.batchSize
  short_eq : w.leaving = none ∨ (∃ c, w.pc = .flush (.leave c)) → short cfg w.calls = []
  short_le : (short cfg w.calls).length ≤ 1

theorem load_report (w : Worker α R) (ts : List Tick) (next : After) :
    (w.report ts next).load = ts.length := by
  cases ts with
  | cons t ts => rfl
  | nil => cases next <;> rfl

theorem load_leave (w : Worker α R) (c : Cause) : (w.leave c).load = 0 := by
  unfold leave load
  by_cases h : w.buffer.isEmpty = true <;> simp [h]

theorem pc_report_ne_flush (w : Worker α R) (ts : List Tick) (next next' : After) :
    (w.report ts next).pc ≠ .flush next' := by
  cases ts with
  | cons t ts => nofun
  | nil => cases next <;> nofun

theorem bounded_report {cfg : Cfg} {w : Worker α R} {ts : List Tick} {next : After}
    (hroom : w.buffer.length + ts.length ≤ cfg.batchSize)
    (hfree : next = .loop → w.buffer.length < cfg.batchSize)
    (hcalls : ∀ c ∈ w.calls, 1 ≤ c.length ∧ c.length ≤ cfg.batchSize)
    (hshort : next = .loop → short cfg w.calls = []) (hle : (short cfg w.calls).length ≤ 1) :
    Bounded cfg (w.report ts next) where
  room := by rw [load_report]; exact hroom
  free h := hfree (by cases ts <;> cases next <;> simp_all [report])
  held next' h := absurd h (pc_report_ne_flush w ts next next')
  full h := absurd h (pc_report_ne_flush w ts next .loop)
  calls := hcalls
  short_eq h := by
    rcases h with h | h
    · rw [leaving_report] at h
      cases next with
      | loop => exact hshort rfl
      | leave c => cases h
    · obtain ⟨c, hc⟩ := h
      exact absurd hc (pc_report_ne_flush w ts next _)
  short_le := hle

theorem bounded_leave {cfg : Cfg} {w : Worker α R} {c : Cause}
    (hroom : w.buffer.length ≤ cfg.batchSize)
    (hcalls : ∀ c ∈ w.calls, 1 ≤ c.length ∧ c.length ≤ cfg.batchSize)
    (hshort : short cfg w.calls = []) : Bounded cfg (w.leave c) where
  room := by rw [load_leave]; exact hroom
  free h := by unfold leave at h; split at h <;> cases h
  held next h := by
    by_cases he : w.buffer = []
    · simp [leave, he] at h
    · exact he
  full h := by unfold leave at h; split at h <;> cases h
  calls := hcalls
  short_eq _ := hshort
  short_le := by rw [leave_calls, hshort]; exact Nat.zero_le 1

theorem Bounded.init (cfg : Cfg) : Bounded cfg ({} : Worker α R) where
  room := Nat.zero_le _
  free _ := cfg.batchSize_pos
  held := nofun
  full := nofun
  calls := nofun
  short_eq _ := rfl
  short_le := Nat.zero_le 1

theorem short_append (cfg : Cfg) (calls : List (List (α × R))) (c : List (α × R)) :
    short cfg (calls ++ [c]) =
      short cfg calls ++ if c.length < cfg.batchSize then [c] else [] := by
  unfold short
  rw [List.filter_append]
  by_cases h : c.length < cfg.batchSize <;> simp [h]

theorem length_manyTicks_le (cfg : Cfg) (buffer : List (α × R)) (out : ManyOutcome) :
    (manyTicks cfg buffer out).length ≤ buffer.length := by
  cases out with
  | raised name => simp [manyTicks]
  | returned results => simp [manyTicks]

theorem Bounded.prepared {cfg : Cfg} {w : Worker α R} {a : α} (h : Bounded cfg w)
    (hp : w.pc = .item a) (out : Prepared R) : Bounded cfg (w.prepared cfg a out) := by
  have hroom : w.buffer.length + 1 ≤ cfg.batchSize := by simpa [load, hp] using h.room
  have hshort : short cfg w.calls = [] := h.short_eq (.inl (by simp [leaving, hp]))
  unfold Worker.prepared
  cases out with
  | skipped reason => exact bounded_report hroom (fun _ => hroom) h.calls (fun _ => hshort) h.short_le
  | failed reason => exact bounded_report hroom (fun _ => hroom) h.calls (fun _ => hshort) h.short_le
  | raised exc => exact bounded_leave (Nat.le_of_succ_le hroom) h.calls hshort
  | record r =>
    dsimp only
    split
    · refine ⟨hroom, ?_, ?_, ?_, h.calls, fun _ => hshort, h.short_le⟩
      · intro he; cases he
      · intro _ he; cases he
      · intro he; cases he
    · have hlen : (w.buffer ++ [(a, r)]).length = w.buffer.length + 1 := by simp
      split
      · -- the buffer is full
        rename_i hfull
        refine ⟨?_, ?_, ?_, ?_, h.calls, fun _ => hshort, h.short_le⟩
        · simpa [load] using hroom
        · intro he; cases he
        · intro _ _ he
          simp at he
        · intro _
          exact Nat.le_antisymm (hlen.trans_le hroom) hfull
      · rename_i hopen
        refine ⟨?_, ?_, ?_, ?_, h.calls, fun _ => hshort, h.short_le⟩
        · simpa [load] using hroom
        · intro _
          exact Nat.lt_of_not_le hopen
        · intro _ he; cases he
        · intro he; cases he

theorem Bounded.flushed {cfg : Cfg} {w : Worker α R} {next : After} (h : Bounded cfg w)
    (hp : w.pc = .flush next) (out : ManyOutcome) : Bounded cfg (w.flushed cfg next out) := by
  have hroom : w.buffer.length ≤ cfg.batchSize := by simpa [load, hp] using h.room
  have hlen : 1 ≤ w.buffer.length := List.length_pos_iff.2 (h.held next hp)
  have hshort : short cfg w.calls = [] := by
    refine h.short_eq ?_
    cases next with
    | loop => exact .inl (by simp [leaving, hp])
    | leave c => exact .inr ⟨c, hp⟩
  refine bounded_report ?_ (fun _ => cfg.batchSize_pos) ?_ ?_ ?_
  · have := length_manyTicks_le cfg w.buffer out
    simp only [List.length_nil]
    omega
  · intro c hc
    rcases List.mem_append.1 hc with hc | hc
    · exact h.calls c hc
    · rw [List.mem_singleton.1 hc]; exact ⟨hlen, hroom⟩
  · intro hnext
    subst hnext
    rw [short_append, hshort, if_neg (by rw [h.full hp]; exact Nat.lt_irrefl _)]
    rfl
  · rw [short_append, hshort]
    split <;> simp

theorem Bounded.move {cfg : Cfg} {w w' : Worker α R} (h : Bounded cfg w) (hok : Ok cfg w)
    (hm : WMove cfg w w') : Bounded cfg w' := by
  cases hm with
  | getData a hp =>
    have hshort := h.short_eq (.inl (by simp [leaving, hp]))
    refine ⟨h.free hp, ?_, ?_, ?_, h.calls, fun _ => hshort, h.short_le⟩
    · intro he; cases he
    · intro _ he; cases he
    · intro he; cases he
  | getStop hp =>
    exact bounded_leave (Nat.le_of_lt (h.free hp)) h.calls (h.short_eq (.inl (by simp [leaving, hp])))
  | prepare out hp => exact h.prepared hp out
  | @write a r out hp =>
    -- single writes are made where a batch is one record
    have hone : cfg.batchSize ≤ 1 := hok.writes (by simp [writing, hp])
    have hroom : w.buffer.length + 1 ≤ cfg.batchSize := by simpa [load, hp] using h.room
    have hshort := h.short_eq (.inl (by simp [leaving, hp]))
    have hshort' : short cfg (w.calls ++ [[(a, r)]]) = [] := by
      have hlen : ¬[(a, r)].length < cfg.batchSize := Nat.not_lt.2 hone
      rw [short_append, hshort, if_neg hlen]
      rfl
    refine bounded_report hroom (fun _ => hroom) ?_ (fun _ => hshort') ?_
    · intro c hc
      rcases List.mem_append.1 hc with hc | hc
      · exact h.calls c hc
      · rw [List.mem_singleton.1 hc]; exact ⟨Nat.le_refl 1, cfg.batchSize_pos⟩
    · rw [hshort']; exact Nat.zero_le 1
  | many out hp => exact h.flushed hp out
  | @count t ts next hp =>
    have hroom : w.buffer.length + (ts.length + 1) ≤ cfg.batchSize := by
      simpa [load, hp] using h.room
    refine bounded_report (by omega) (fun _ => by omega) h.calls ?_ h.short_le
    intro hnext
    subst hnext
    exact h.short_eq (.inl (by simp [leaving, hp]))

end Worker

theorem worker_bounded {cfg : Cfg} {src : List α} {s : St α R}
    (h : (pipeline cfg src).Reachable s) (i : Nat) : (s.workers i).Bounded cfg :=
  (workers_induction (P := fun w => w.Ok cfg ∧ w.Bounded cfg)
    ⟨Worker.Ok.init cfg, Worker.Bounded.init cfg⟩
    (fun _ _ hw hm => ⟨hw.1.move hm, hw.2.move hw.1 hm⟩) s h i).2

/-! ## What the queue holds -/

/-- The bound of `queue.Queue(maxsize)`. -/
theorem queue_length_le {cfg : Cfg} {src : List α} (hq : 1 ≤ cfg.queueSize) :
    ∀ s : St α R, (pipeline cfg src).Reachable s → (s.queue.length : Int) ≤ cfg.queueSize := by
  refine LTS.reachable_induction (fun s hs => ?_) fun s l s' _ ih hst => ?_
  · subst hs
    exact Int.le_trans Int.one_nonneg hq
  · have hput : ∀ x : Item α, ¬Full cfg s → ((s.queue ++ [x]).length : Int) ≤ cfg.queueSize := by
      intro x hf
      unfold Full at hf
      rw [List.length_append, List.length_singleton]
      omega
    cases step_move hst with
    | scan hm hs => exact ih
    | sourceEnd hm hs => exact ih
    | sourceRaise hm => exact ih
    | put hm hf => exact hput _ hf
    | putStop hm hf => exact hput _ hf
    | join hm hp => exact ih
    | getData hi hp hqueue => rw [hqueue, List.length_cons] at ih; dsimp only; omega
    | getStop hi hp hqueue => rw [hqueue, List.length_cons] at ih; dsimp only; omega
    | prepare hi hp => exact ih
    | write hi hp => exact ih
    | many hi hp => exact ih
    | count hi hp => exact ih

theorem length_dataOf_le (q : List (Item α)) : (dataOf q).length ≤ q.length := by
  induction q with
  | nil => exact Nat.le_refl 0
  | cons x q ih =>
    cases x with
    | data a => exact Nat.succ_le_succ ih
    | stop => exact Nat.le_succ_of_le ih

theorem length_pending_le (m : Main α) : (pending m).length ≤ 1 := by
  cases m <;> simp [pending]

/-! ## The bound -/

/-- A `write_many` that returns is the sink's over the client; no transform
raises. -/
def ServedBy {F : Type} (config : L1.AerospikeConfig) (client : BatchClient F)
    (s : St α (L1.AerospikeRecord F)) : Label (L1.AerospikeRecord F) → Prop
  | .many i (.returned results) =>
    results = (writeManyLoop config client ((s.workers i).buffer.map Prod.snd)).results
  | .prepare _ (.raised _) => False
  | _ => True

/-- The client may answer each call as it likes. -/
def Served {F : Type} (config : L1.AerospikeConfig) (s : St α (L1.AerospikeRecord F))
    (l : Label (L1.AerospikeRecord F)) : Prop :=
  ∃ client, ServedBy config client s l

theorem Served.orderly {F : Type} {config : L1.AerospikeConfig} {s : St α (L1.AerospikeRecord F)}
    {l : Label (L1.AerospikeRecord F)} (h : Served config s l) : Orderly s l := by
  obtain ⟨client, hs⟩ := h
  cases l with
  | prepare i out =>
    cases out with
    | raised exc => exact hs.elim
    | record r => exact ⟨trivial, trivial⟩
    | skipped reason => exact ⟨trivial, trivial⟩
    | failed reason => exact ⟨trivial, trivial⟩
  | many i out =>
    cases out with
    | raised name => exact ⟨trivial, trivial⟩
    | returned results =>
      have hlen := length_writeManyLoop config client ((s.workers i).buffer.map Prod.snd)
      exact ⟨(congrArg List.length hs).trans (hlen.trans (List.length_map _)), trivial⟩
  | _ => exact ⟨trivial, trivial⟩

/-- **Memory.** In every state of every run the records scanned and not yet
counted fit into the queue, one batch for each worker and the producer's hand;
a worker at `write_many` has between one record and a batch, and so had all its
calls, all but one of which carried a whole batch. -/
theorem memory_bounded {F : Type} {config : L1.AerospikeConfig} {cfg : Cfg} {src : List α}
    {s : St α (L1.AerospikeRecord F)} (hq : 1 ≤ cfg.queueSize)
    (h : ((pipeline cfg src).restrict (Served config)).Reachable s) :
    (s.stats.scanned : Int) ≤
      s.stats.counted + (cfg.queueSize + cfg.poolSize * cfg.batchSize + 1) ∧
    ∀ i,
      (∀ next, (s.workers i).pc = .flush next →
        1 ≤ (s.workers i).buffer.length ∧ (s.workers i).buffer.length ≤ cfg.batchSize) ∧
      (∀ c ∈ (s.workers i).calls, 1 ≤ c.length ∧ c.length ≤ cfg.batchSize) ∧
      ((s.workers i).calls.filter fun c => c.length < cfg.batchSize).length ≤ 1 := by
  have hopen : (pipeline cfg src).Reachable s := h.of_restrict
  have horderly : ((pipeline cfg src).restrict Orderly).Reachable s :=
    h.restrict_mono fun _ _ hok => hok.orderly
  have hscanned := (ledger_reachable s (horderly.restrict_mono fun _ _ hok => hok.1)).scanned
  have hcrash := no_crash (fun _ _ hok => hok.2) s horderly
  refine ⟨?_, fun i => ?_⟩
  · have hdebt : Pool.total cfg.poolSize Worker.debt s.workers ≤ cfg.poolSize * cfg.batchSize := by
      refine Pool.total_le fun i _ => ?_
      have hroom := (worker_bounded hopen i).room
      have h0 : (s.workers i).crashed = 0 := if_neg (hcrash i)
      rw [Worker.debt, h0]
      exact hroom
    have hqueue := queue_length_le hq s hopen
    have hdata := length_dataOf_le s.queue
    have hpending := length_pending_le s.main
    have hdebt' : (Pool.total cfg.poolSize Worker.debt s.workers : Int) ≤
        cfg.poolSize * cfg.batchSize := by exact_mod_cast hdebt
    omega
  · have hb := worker_bounded hopen i
    refine ⟨fun next hp => ⟨List.length_pos_iff.2 (hb.held next hp), ?_⟩, hb.calls, hb.short_le⟩
    have hroom := hb.room
    omega

end

/-! ## A whole run -/

instance {α F : Type} (config : L1.AerospikeConfig) (client : BatchClient F)
    (s : St α (L1.AerospikeRecord F)) (l : Label (L1.AerospikeRecord F)) :
    Decidable (ServedBy config client s l) :=
  match l with
  | .prepare _ (.raised _) => isFalse id
  | .many _ (.returned results) => inferInstanceAs (Decidable (results = _))
  | .prepare _ (.record _) | .prepare _ (.skipped _) | .prepare _ (.failed _)
  | .many _ (.raised _) | .scan | .sourceEnd | .sourceRaise | .put | .putStop | .join | .get _
  | .write _ _ | .count _ => isTrue trivial

/-- A record without bins. -/
def bare (k : String) : L1.AerospikeRecord String where
  key := .str k
  bins := .empty
  unique_isList _ _ h _ := by cases h

/-- Three records through one worker with batches of two and a queue of one;
the last goes alone, and its call raises. -/
def memoryTrace : List (Label (L1.AerospikeRecord String)) :=
  [.scan, .put, .get 0, .prepare 0 (.record (bare "a")), .scan, .put, .get 0,
   .prepare 0 (.record (bare "b")), .scan, .put, .many 0 (.returned [none, none]), .sourceEnd,
   .count 0, .count 0, .get 0, .prepare 0 (.record (bare "c")), .putStop, .get 0,
   .many 0 (.raised "TimeoutError")]

theorem memory_bounded_batch :
    ∃ s : St Nat (L1.AerospikeRecord String), s.stats.scanned = 3 ∧
      (s.stats.scanned : Int) ≤ s.stats.counted + (1 + (1 : Nat) * (2 : Nat) + 1) ∧
      ((s.workers 0).calls.filter fun c => c.length < 2).length ≤ 1 := by
  obtain ⟨s, hs, hd⟩ := Option.map_eq_some_iff.1 (show (LTS.exec (LTS.guarded
    (ServedBy {} (serverClient fun _ => none)) (step ⟨1, 1, 2, false⟩)) (.start [0, 1, 2])
    memoryTrace).map (fun s => s.stats.scanned) = some 3 from rfl)
  have hby : ((pipeline ⟨1, 1, 2, false⟩ [0, 1, 2]).restrict
      (ServedBy {} (serverClient fun _ => none))).Reachable s :=
    ⟨_, _, rfl, LTS.run_of_exec_guarded hs⟩
  have hserved : ((pipeline ⟨1, 1, 2, false⟩ [0, 1, 2]).restrict (Served {})).Reachable s :=
    hby.restrict_mono fun _ _ hok => ⟨_, hok⟩
  have hmem := memory_bounded (Int.le_refl 1) hserved
  exact ⟨s, hd, hmem.1, (hmem.2 0).2.2⟩

end RedisToAerospike.L4
