import RedisToAerospike.L4Pipeline.Queue

/-!
# Every record is accounted for

* `Ledger`: what has been scanned is counted, on its way, or died with the
  worker that held it.
* `accounting`: with no such death, the counters add up at the end of a run,
  every scanned record has been prepared once and every prepared record has
  been handed to the sink once.
-/
namespace RedisToAerospike.L4
open L3

section
variable {α R : Type}

namespace Worker

/-- The records in the worker's hands or counts. -/
def load (w : Worker α R) : Nat :=
  match w.pc with
  | .item _ => 1
  | .write _ _ => 1
  | .report _ ts _ => ts.length + 1
  | _ => 0

/-- A worker that crashed took one record with it. -/
def crashed (w : Worker α R) : Nat := if w.leaving = some .crashed then 1 else 0

/-- What the worker has taken and not counted. -/
def debt (w : Worker α R) : Nat := w.buffer.length + w.load + w.crashed

/-- The record a crashed worker took with it. -/
def crashedBy : After → Nat
  | .leave .crashed => 1
  | _ => 0

theorem debt_get {w : Worker α R} (hp : w.pc = .get) : w.debt = w.buffer.length := by
  simp [debt, load, crashed, leaving, hp]

theorem debt_item {w : Worker α R} {a : α} (hp : w.pc = .item a) :
    w.debt = w.buffer.length + 1 := by
  simp [debt, load, crashed, leaving, hp]

theorem debt_write {w : Worker α R} {a : α} {r : R} (hp : w.pc = .write a r) :
    w.debt = w.buffer.length + 1 := by
  simp [debt, load, crashed, leaving, hp]

theorem debt_flush {w : Worker α R} {next : After} (hp : w.pc = .flush next) :
    w.debt = w.buffer.length + crashedBy next := by
  rcases next with _ | _ | _ <;> simp [debt, load, crashed, leaving, hp, crashedBy]

theorem debt_exited {w : Worker α R} {c : Cause} (hp : w.pc = .exited c) :
    w.debt = w.buffer.length + crashedBy (.leave c) := by
  cases c <;> simp [debt, load, crashed, leaving, hp, crashedBy]

theorem debt_reporting {w : Worker α R} {t : Tick} {ts : List Tick} {next : After}
    (hp : w.pc = .report t ts next) : w.debt = w.buffer.length + (ts.length + 1) + crashedBy next := by
  rcases next with _ | _ | _ <;> simp [debt, load, crashed, leaving, hp, crashedBy]

theorem debt_report (w : Worker α R) (ts : List Tick) (next : After) :
    (w.report ts next).debt = w.buffer.length + ts.length + crashedBy next := by
  cases ts with
  | cons t ts => exact debt_reporting rfl
  | nil =>
    cases next with
    | loop => exact debt_get rfl
    | leave c => exact debt_exited rfl

theorem debt_leave (w : Worker α R) (c : Cause) :
    (w.leave c).debt = w.buffer.length + crashedBy (.leave c) := by
  unfold leave
  by_cases h : w.buffer.isEmpty = true
  · rw [if_pos h]; exact debt_exited rfl
  · rw [if_neg h]; exact debt_flush rfl

theorem debt_prepared (cfg : Cfg) {w : Worker α R} {a : α} (hp : w.pc = .item a)
    (out : Prepared R) : (w.prepared cfg a out).debt = w.debt := by
  rw [debt_item hp]
  unfold prepared
  cases out with
  | skipped reason => exact debt_report _ _ _
  | failed reason => exact debt_report _ _ _
  | raised exc => exact debt_leave _ _
  | record r =>
    dsimp only
    split
    · exact debt_write rfl
    · split
      · exact (debt_flush rfl).trans (by simp [crashedBy])
      · exact (debt_get rfl).trans (by simp)

theorem length_manyTicks {cfg : Cfg} {buffer : List (α × R)} {out : ManyOutcome}
    (h : ∀ results, out = .returned results → results.length = buffer.length) :
    (manyTicks cfg buffer out).length = buffer.length := by
  cases out with
  | raised name => simp [manyTicks]
  | returned results => simp [manyTicks, h results rfl]

theorem debt_flushed {cfg : Cfg} {w : Worker α R} {next : After} (hp : w.pc = .flush next)
    {out : ManyOutcome} (h : ∀ results, out = .returned results → results.length = w.buffer.length) :
    (w.flushed cfg next out).debt = w.debt := by
  rw [flushed, debt_report, length_manyTicks h, debt_flush hp]
  simp

end Worker

/-- A `write_many` that returns, returns one outcome for each record. -/
def Aligned (s : St α R) : Label R → Prop
  | .many i (.returned results) => results.length = (s.workers i).buffer.length
  | _ => True

/-- No transform raises. -/
def Quiet : Label R → Prop
  | .prepare _ (.raised _) => False
  | _ => True

def Orderly (s : St α R) (l : Label R) : Prop := Aligned s l ∧ Quiet l

/-- Scanned records are counted, on their way, or lost to a crash. -/
structure Ledger (cfg : Cfg) (s : St α R) : Prop where
  scanned : s.stats.scanned = s.stats.counted + (pending s.main).length +
    (dataOf s.queue).length + Pool.total cfg.poolSize Worker.debt s.workers
  seen : s.stats.scanned = s.seen.length
  balanced : s.stats.Balanced

theorem Ledger.move {cfg : Cfg} {s s' : St α R} {l : Label R} (h : Ledger cfg s)
    (ha : Aligned s l) (hm : Move cfg s l s') : Ledger cfg s' := by
  have hsc := h.scanned
  have hseen := h.seen
  -- the worker that moves, and what its debt becomes
  have htotal : ∀ i < cfg.poolSize, ∀ w : Worker α R,
      Pool.total cfg.poolSize Worker.debt (Function.update s.workers i w) + (s.workers i).debt =
        Pool.total cfg.poolSize Worker.debt s.workers + w.debt :=
    fun i hi w => Pool.total_update hi Worker.debt s.workers w
  cases hm with
  | @scan a rest hmain hs =>
    rw [hmain] at hsc
    refine ⟨?_, ?_, h.balanced.recordScanned⟩
    · simp only [MigrationStats.scanned_recordScanned, MigrationStats.counted_recordScanned, pending,
        List.length_singleton, List.length_nil] at hsc ⊢
      omega
    · simp [hseen]
  | sourceEnd hmain hs =>
    rw [hmain] at hsc
    exact ⟨hsc, hseen, h.balanced⟩
  | sourceRaise hmain =>
    rw [hmain] at hsc
    exact ⟨hsc, hseen, h.balanced⟩
  | @put a hmain hf =>
    rw [hmain] at hsc
    refine ⟨?_, hseen, h.balanced⟩
    simp only [pending, List.length_singleton, List.length_nil, dataOf_append, dataOf,
      List.length_append] at hsc ⊢
    omega
  | @putStop n hmain hf =>
    rw [hmain] at hsc
    refine ⟨?_, hseen, h.balanced⟩
    have hpend : pending (afterStop n : Main α) = [] := by unfold afterStop; split <;> rfl
    dsimp only
    rw [hpend]
    simpa [dataOf, pending] using hsc
  | @join i c hmain hp =>
    rw [hmain] at hsc
    refine ⟨?_, hseen, h.balanced⟩
    have hpend : pending (if i + 1 < cfg.poolSize then .join (i + 1) else .done : Main α) = [] := by
      split <;> rfl
    dsimp only
    rw [hpend]
    simpa [pending] using hsc
  | @getData i a rest hi hp hq =>
    refine ⟨?_, hseen, h.balanced⟩
    have ht := htotal i hi { s.workers i with pc := .item a }
    have h1 : ({ s.workers i with pc := .item a } : Worker α R).debt =
        (s.workers i).buffer.length + 1 := Worker.debt_item rfl
    rw [Worker.debt_get hp, h1] at ht
    rw [hq] at hsc
    simp only [dataOf, List.length_cons, St.setWorker] at hsc ht ⊢
    omega
  | @getStop i rest hi hp hq =>
    refine ⟨?_, hseen, h.balanced⟩
    have ht := htotal i hi ((s.workers i).leave .stopped)
    have h1 : ((s.workers i).leave .stopped).debt = (s.workers i).buffer.length :=
      Worker.debt_leave _ _
    rw [Worker.debt_get hp, h1] at ht
    rw [hq] at hsc
    simp only [dataOf, St.setWorker] at hsc ⊢
    omega
  | @prepare i a out hi hp =>
    refine ⟨?_, hseen, h.balanced⟩
    have ht := htotal i hi ((s.workers i).prepared cfg a out)
    rw [Worker.debt_prepared cfg hp] at ht
    simp only [St.setWorker] at hsc ⊢
    omega
  | @write i a r out hi hp =>
    refine ⟨?_, hseen, h.balanced⟩
    have ht := htotal i hi ((s.workers i).wrote a r out)
    have h1 : ((s.workers i).wrote a r out).debt = (s.workers i).buffer.length + 1 :=
      Worker.debt_report _ _ _
    rw [Worker.debt_write hp, h1] at ht
    simp only [St.setWorker] at hsc ⊢
    omega
  | @many i next out hi hp =>
    refine ⟨?_, hseen, h.balanced⟩
    have ht := htotal i hi ((s.workers i).flushed cfg next out)
    rw [Worker.debt_flushed hp fun results he => by subst he; exact ha] at ht
    simp only [St.setWorker] at hsc ⊢
    omega
  | @count i t ts next hi hp =>
    refine ⟨?_, (MigrationStats.scanned_record _ _).trans hseen, h.balanced.record t⟩
    have ht := htotal i hi ((s.workers i).report ts next)
    rw [Worker.debt_reporting hp, Worker.debt_report] at ht
    simp only [St.setWorker, MigrationStats.scanned_record, MigrationStats.counted_record] at hsc ⊢
    omega

theorem ledger_reachable {cfg : Cfg} {src : List α} :
    ∀ s : St α R, ((pipeline cfg src).restrict Aligned).Reachable s → Ledger cfg s := by
  refine LTS.reachable_induction (fun s hs => ?_) fun s l s' _ ih hst =>
    ih.move hst.1 (step_move hst.2)
  subst hs
  have h0 : Pool.total cfg.poolSize Worker.debt (St.start src : St α R).workers = 0 :=
    Pool.total_eq_zero_iff.2 fun _ _ => rfl
  exact ⟨by rw [h0]; rfl, rfl, rfl, rfl⟩

/-! ## The end of a run -/

/-- Without a transform that raises no worker crashes. -/
theorem no_crash {cfg : Cfg} {src : List α} {ok : St α R → Label R → Prop}
    (hok : ∀ s l, ok s l → Quiet l) :
    ∀ s : St α R, ((pipeline cfg src).restrict ok).Reachable s →
      ∀ j, (s.workers j).leaving ≠ some .crashed := by
  refine LTS.reachable_induction (fun s hs j => ?_) fun s l s' _ ih hst j => ?_
  · subst hs; nofun
  · rcases (step_move hst.2).leaving j with he | ⟨_, he, _⟩ | ⟨_, _, exc, rfl⟩
    · rw [he]; exact ih j
    · rw [he]; nofun
    · exact (hok _ _ hst.1).elim

theorem Worker.leaving_of_exited {w : Worker α R} {c : Cause} (h : w.pc = .exited c) :
    w.leaving = some c := by
  simp [leaving, h]

/-- When all workers have been joined and none crashed, the queue is empty. -/
theorem drained_of_done {cfg : Cfg} {src : List α} {s : St α R}
    (h : (pipeline cfg src).Reachable s) (hd : s.main = .done)
    (hc : ∀ j, (s.workers j).leaving ≠ some .crashed) : dataOf s.queue = [] := by
  have hone : ∀ j < cfg.poolSize, (s.workers j).stopped = 1 := by
    intro j hj
    obtain ⟨c, hex⟩ := (joined_reachable s h).done hd j hj
    have hl := Worker.leaving_of_exited hex
    cases c with
    | stopped => simp [Worker.stopped, hl]
    | crashed => exact absurd hl (hc j)
  refine (stops_reachable s h).drained ?_
  have hpos := cfg.poolSize_pos
  unfold St.stopped
  rw [Pool.total_one hone]
  exact hpos

/-- All that was prepared, worker by worker. -/
def St.outs (cfg : Cfg) (s : St α R) : List (α × Prepared R) :=
  (List.range cfg.poolSize).flatMap fun i => (s.workers i).outs

/-- All calls of the sink, worker by worker. -/
def St.calls (cfg : Cfg) (s : St α R) : List (List (α × R)) :=
  (List.range cfg.poolSize).flatMap fun i => (s.workers i).calls

theorem filterMap_flatMap_eq {is : List Nat} {f : Nat → List (α × Prepared R)}
    {g : Nat → List (List (α × R))}
    (h : ∀ i ∈ is, (f i).filterMap Worker.converted = (g i).flatten) :
    (is.flatMap f).filterMap Worker.converted = (is.flatMap g).flatten := by
  induction is with
  | nil => rfl
  | cons i is ih =>
    rw [List.flatMap_cons, List.flatMap_cons, List.filterMap_append, List.flatten_append,
      h i List.mem_cons_self, ih fun j hj => h j (List.mem_cons_of_mem _ hj)]

/-- Exited workers have prepared what they took, and have nothing left. -/
theorem handed_of_done {cfg : Cfg} {src : List α} {s : St α R}
    (h : (pipeline cfg src).Reachable s) (hd : s.main = .done)
    (hc : ∀ j, (s.workers j).leaving ≠ some .crashed) :
    ((s.outs cfg).map Prod.fst).Perm s.seen ∧
      (s.calls cfg).flatten = (s.outs cfg).filterMap Worker.converted := by
  have hord := order_reachable s h
  have hex := (joined_reachable s h).done hd
  refine ⟨?_, ?_⟩
  · have hseen : s.seen = s.taken.map Prod.snd := by
      rw [← hord.order, drained_of_done h hd hc, hd]; simp [pending]
    have hhist : (s.outs cfg).map Prod.fst =
        (List.range cfg.poolSize).flatMap (Pool.tagged s.taken) := by
      unfold St.outs
      rw [List.map_flatMap]
      refine List.flatMap_congr fun i hi => ?_
      obtain ⟨c, hpc⟩ := hex i (List.mem_range.1 hi)
      rw [hord.history i]
      simp [Worker.item, hpc]
    rw [hseen, hhist]
    exact Pool.tagged_perm hord.tags
  · refine (filterMap_flatMap_eq fun i hi => ?_).symm
    obtain ⟨c, hpc⟩ := hex i (List.mem_range.1 hi)
    have hok := worker_ok h i
    rw [hok.history, hok.exited c hpc]
    simp [Worker.writing, hpc]

/-- **Accounting.** In every state of every run in which `write_many`
answers for each record and no transform raises. -/
theorem accounting {cfg : Cfg} {src : List α} {s : St α R}
    (h : ((pipeline cfg src).restrict Orderly).Reachable s) :
    s.stats.migrated + s.stats.skipped + s.stats.errors ≤ s.stats.scanned ∧
    s.stats.skipped = s.stats.skippedByType.values.sum ∧
    s.stats.errors = s.stats.errorsByType.values.sum ∧
    s.seen ++ s.src = src ∧ s.stats.scanned = s.seen.length ∧
    (s.main = .done →
      s.stats.scanned = s.stats.migrated + s.stats.skipped + s.stats.errors ∧
      ((s.outs cfg).map Prod.fst).Perm s.seen ∧
      (s.calls cfg).flatten = (s.outs cfg).filterMap Worker.converted) := by
  have hopen : (pipeline cfg src).Reachable s := h.of_restrict
  have haligned : ((pipeline cfg src).restrict Aligned).Reachable s :=
    h.restrict_mono fun _ _ hok => hok.1
  have hc := no_crash (fun _ _ hok => hok.2) s h
  have hl := ledger_reachable s haligned
  have hsc := hl.scanned
  unfold MigrationStats.counted at hsc
  refine ⟨by omega, hl.balanced.skipped, hl.balanced.errors, (order_reachable s hopen).source,
    hl.seen, fun hd => ⟨?_, handed_of_done hopen hd hc⟩⟩
  have hdebt : Pool.total cfg.poolSize Worker.debt s.workers = 0 := by
    refine Pool.total_eq_zero_iff.2 fun j hj => ?_
    obtain ⟨c, hpc⟩ := (joined_reachable s hopen).done hd j hj
    have hb := (worker_ok hopen j).exited c hpc
    have hcj := hc j
    rw [Worker.leaving_of_exited hpc] at hcj
    rw [Worker.debt_exited hpc, hb]
    cases c with
    | stopped => rfl
    | crashed => exact absurd rfl hcj
  rw [hdebt, drained_of_done hopen hd hc, hd] at hsc
  simpa [pending] using hsc

end

/-! ## A whole run -/

instance {α R : Type} (s : St α R) (l : Label R) : Decidable (Orderly s l) :=
  match l with
  | .prepare _ (.raised _) => isFalse fun h => h.2
  | .prepare _ (.record _) | .prepare _ (.skipped _) | .prepare _ (.failed _) =>
    isTrue ⟨trivial, trivial⟩
  | .many i (.returned results) =>
    decidable_of_iff (results.length = (s.workers i).buffer.length)
      ⟨fun h => ⟨h, trivial⟩, fun h => h.1⟩
  | .many _ (.raised _) => isTrue ⟨trivial, trivial⟩
  | .scan | .sourceEnd | .sourceRaise | .put | .putStop | .join | .get _ | .write _ _ | .count _ =>
    isTrue ⟨trivial, trivial⟩

/-- Two records through one worker with batches of two: the second fails. -/
def batchTrace : List (Label Nat) :=
  [.scan, .put, .get 0, .prepare 0 (.record 10), .scan, .put, .sourceEnd, .get 0,
   .prepare 0 (.record 11), .many 0 (.returned [none, some "BatchError:4"]), .count 0, .count 0,
   .putStop, .get 0, .join]

theorem accounting_batch :
    ∃ s : St Nat Nat, s.main = .done ∧
      s.stats.scanned = s.stats.migrated + s.stats.skipped + s.stats.errors ∧
      ((s.outs ⟨1, 4, 2, false⟩).map Prod.fst).Perm s.seen ∧
      (s.calls ⟨1, 4, 2, false⟩).flatten = (s.outs ⟨1, 4, 2, false⟩).filterMap Worker.converted := by
  obtain ⟨s, hs, hd⟩ := Option.map_eq_some_iff.1 (show (LTS.exec (LTS.guarded Orderly
    (step ⟨1, 4, 2, false⟩)) (.start [0, 1]) batchTrace).map St.main = some .done from rfl)
  exact ⟨s, hd, (accounting ⟨_, _, rfl, LTS.run_of_exec_guarded hs⟩).2.2.2.2.2 hd⟩

end RedisToAerospike.L4
