import RedisToAerospike.L4Pipeline.Tally

/-!
# Settled records

A record is settled when the tick that will count it is known: it was skipped
or did not convert, `write` has come back, or `write_many` has answered for
its position. Which answers the sink gives is left open, so no record has a
tick of its own here, unlike in `Tally`.

* `settledBy`: what a step settles.
* `Settlement`: of what has been prepared, a list of settled records with their
  ticks is what is not held back, and the ticks are counted or about to be.
* `Settlement.of_done`: at the end that list is what has been scanned, and its
  ticks are the statistics.
-/
namespace RedisToAerospike.L4
open L3

section
variable {α R : Type}

namespace Worker

/-- The ticks a worker is about to make. -/
def counts (w : Worker α R) : List Tick :=
  match w.pc with
  | .report t ts _ => t :: ts
  | _ => []

/-- The records that a worker has prepared and not handed on. -/
def held (w : Worker α R) : List α := (w.buffer ++ w.writing).map Prod.fst

@[simp] theorem counts_report (w : Worker α R) (ts : List Tick) (next : After) :
    (w.report ts next).counts = ts := by
  cases ts <;> cases next <;> rfl

@[simp] theorem counts_leave (w : Worker α R) (c : Cause) : (w.leave c).counts = [] := by
  unfold leave counts
  by_cases h : w.buffer.isEmpty = true <;> simp [h]

@[simp] theorem held_report (w : Worker α R) (ts : List Tick) (next : After) :
    (w.report ts next).held = w.buffer.map Prod.fst := by simp [held]

@[simp] theorem held_leave (w : Worker α R) (c : Cause) :
    (w.leave c).held = w.buffer.map Prod.fst := by simp [held]

/-- The tick for a record that is not handed to the sink. -/
def settledOut : α → Prepared R → List (α × Tick)
  | a, .skipped reason => [(a, .skipped reason)]
  | a, .failed reason => [(a, .error reason)]
  | _, _ => []

theorem counts_prepared (cfg : Cfg) (w : Worker α R) (a : α) (out : Prepared R) :
    (w.prepared cfg a out).counts = (settledOut a out).map Prod.snd := by
  unfold prepared
  cases out with
  | skipped reason => exact counts_report _ _ _
  | failed reason => exact counts_report _ _ _
  | raised exc => exact counts_leave _ _
  | record r =>
    dsimp only
    split
    · rfl
    · split <;> rfl

/-- A record is settled when it is prepared, or held. -/
theorem held_prepared (cfg : Cfg) (w : Worker α R) (a : α) {out : Prepared R}
    (hout : ∀ exc, out ≠ .raised exc) (p : α → Bool) :
    ((w.prepared cfg a out).outs.map Prod.fst).countP p + (w.buffer.map Prod.fst).countP p =
      (w.outs.map Prod.fst).countP p + ((settledOut a out).map Prod.fst).countP p +
        (w.prepared cfg a out).held.countP p := by
  rw [prepared_outs, List.map_append, List.countP_append]
  unfold prepared
  cases out with
  | skipped reason =>
    rw [held_report]
    simp only [settledOut, List.map_cons, List.map_nil]
  | failed reason =>
    rw [held_report]
    simp only [settledOut, List.map_cons, List.map_nil]
  | raised exc => exact absurd rfl (hout exc)
  | record r =>
    have hheld : ∀ w' : Worker α R, w'.buffer ++ w'.writing = w.buffer ++ [(a, r)] →
        w'.held.countP p = (w.buffer.map Prod.fst).countP p + [a].countP p := by
      intro w' he
      rw [held, he, List.map_append, List.countP_append]
      rfl
    dsimp only
    split
    · rw [hheld _ rfl]
      simp only [settledOut, List.map_cons, List.map_nil, List.countP_nil]
      omega
    · split
      · rw [hheld _ (List.append_nil _)]
        simp only [settledOut, List.map_cons, List.map_nil, List.countP_nil]
        omega
      · rw [hheld _ (List.append_nil _)]
        simp only [settledOut, List.map_cons, List.map_nil, List.countP_nil]
        omega

end Worker

/-- The records that a step settles. -/
def settledBy (cfg : Cfg) (s : St α R) : Label R → List (α × Tick)
  | .prepare i out =>
    match (s.workers i).pc with
    | .item a => Worker.settledOut a out
    | _ => []
  | .write i out =>
    match (s.workers i).pc with
    | .write a _ => [(a, Worker.writeTick out)]
    | _ => []
  | .many i out =>
    ((s.workers i).buffer.map Prod.fst).zip (Worker.manyTicks cfg (s.workers i).buffer out)
  | _ => []

/-- `ts` are the records that have been settled. -/
structure Settlement (cfg : Cfg) (s : St α R) (ts : List (α × Tick)) : Prop where
  ticks : ∀ t, s.stats.tally t + Pool.total cfg.poolSize (fun w => w.counts.count t) s.workers =
    (ts.map Prod.snd).count t
  records : ∀ p : α → Bool,
    Pool.total cfg.poolSize (fun w => (w.outs.map Prod.fst).countP p) s.workers =
      (ts.map Prod.fst).countP p + Pool.total cfg.poolSize (fun w => w.held.countP p) s.workers

section
variable {cfg : Cfg} {s s' : St α R} {ts : List (α × Tick)}

theorem Settlement.start (cfg : Cfg) (src : List α) :
    Settlement cfg (St.start src : St α R) [] where
  ticks t := by
    have hzero : (St.start src : St α R).stats.tally t = 0 := by cases t <;> rfl
    have hcounts : Pool.total cfg.poolSize (fun w => w.counts.count t)
        (St.start src : St α R).workers = 0 := Pool.total_eq_zero_iff.2 fun _ _ => rfl
    rw [hzero, hcounts]
    rfl
  records p := by
    have houts : Pool.total cfg.poolSize (fun w => (w.outs.map Prod.fst).countP p)
        (St.start src : St α R).workers = 0 := Pool.total_eq_zero_iff.2 fun _ _ => rfl
    have hheld : Pool.total cfg.poolSize (fun w => w.held.countP p)
        (St.start src : St α R).workers = 0 := Pool.total_eq_zero_iff.2 fun _ _ => rfl
    rw [houts, hheld]
    rfl

/-- A step that no worker makes. -/
theorem Settlement.congr (h : Settlement cfg s ts) (hw : s'.workers = s.workers)
    (hs : ∀ t, s'.stats.tally t = s.stats.tally t) : Settlement cfg s' ts where
  ticks t := by rw [hs, hw]; exact h.ticks t
  records p := by rw [hw]; exact h.records p

/-- A step of worker `i` that settles `new`. -/
theorem Settlement.of_worker (h : Settlement cfg s ts) {i : Nat} (hi : i < cfg.poolSize)
    {w : Worker α R} (hw : s'.workers = Function.update s.workers i w) (hs : s'.stats = s.stats)
    {new : List (α × Tick)} (hticks : w.counts = (s.workers i).counts ++ new.map Prod.snd)
    (hrecords : ∀ p : α → Bool,
      (w.outs.map Prod.fst).countP p + (s.workers i).held.countP p =
        ((s.workers i).outs.map Prod.fst).countP p + (new.map Prod.fst).countP p +
          w.held.countP p) : Settlement cfg s' (ts ++ new) where
  ticks t := by
    have hcounts := Pool.total_update hi (fun w => w.counts.count t) s.workers w
    have hold := h.ticks t
    simp only [hticks, List.count_append] at hcounts
    rw [hw, hs, List.map_append, List.count_append]
    omega
  records p := by
    have houts := Pool.total_update hi (fun w => (w.outs.map Prod.fst).countP p) s.workers w
    have hheld := Pool.total_update hi (fun w => w.held.countP p) s.workers w
    have hold := h.records p
    have hnew := hrecords p
    rw [hw, List.map_append, List.countP_append]
    omega

theorem Settlement.move {l : Label R} (h : Settlement cfg s ts) (hl : Orderly s l)
    (hm : Move cfg s l s') : Settlement cfg s' (ts ++ settledBy cfg s l) := by
  have hidle : settledBy cfg s l = [] → Settlement cfg s' ts →
      Settlement cfg s' (ts ++ settledBy cfg s l) := by
    intro hnil hts
    rw [hnil, List.append_nil]
    exact hts
  cases hm with
  | scan hmain hs => exact hidle rfl (h.congr rfl fun t => MigrationStats.tally_recordScanned _ t)
  | sourceEnd hmain hs => exact hidle rfl (h.congr rfl fun _ => rfl)
  | sourceRaise hmain => exact hidle rfl (h.congr rfl fun _ => rfl)
  | put hmain hf => exact hidle rfl (h.congr rfl fun _ => rfl)
  | putStop hmain hf => exact hidle rfl (h.congr rfl fun _ => rfl)
  | join hmain hp => exact hidle rfl (h.congr rfl fun _ => rfl)
  | @getData i a rest hi hp hq =>
    refine h.of_worker hi (by rfl) (by rfl) ?_ fun p => ?_
    · simp [settledBy, Worker.counts, hp]
    · simp [settledBy, Worker.held, Worker.writing, hp]
  | @getStop i rest hi hp hq =>
    have hcounts : (s.workers i).counts = [] := by simp [Worker.counts, hp]
    have hheld : (s.workers i).held = (s.workers i).buffer.map Prod.fst := by
      simp [Worker.held, Worker.writing, hp]
    refine h.of_worker hi (by rfl) (by rfl) ?_ fun p => ?_
    · rw [Worker.counts_leave, hcounts]
      rfl
    · rw [Worker.held_leave, hheld]
      simp [settledBy]
  | @prepare i a out hi hp =>
    have hcounts : (s.workers i).counts = [] := by simp [Worker.counts, hp]
    have hheld : (s.workers i).held = (s.workers i).buffer.map Prod.fst := by
      simp [Worker.held, Worker.writing, hp]
    have hnew : settledBy cfg s (.prepare i out) = Worker.settledOut a out := by
      simp [settledBy, hp]
    refine h.of_worker hi (by rfl) (by rfl) ?_ fun p => ?_
    · rw [hcounts, hnew, Worker.counts_prepared, List.nil_append]
    · rw [hheld, hnew]
      exact Worker.held_prepared cfg _ a (fun exc he => by subst he; exact hl.2) p
  | @write i a r out hi hp =>
    have hnew : settledBy cfg s (.write i out) = [(a, Worker.writeTick out)] := by
      simp [settledBy, hp]
    refine h.of_worker hi (by rfl) (by rfl) ?_ fun p => ?_
    · rw [Worker.wrote, Worker.counts_report, hnew]
      simp [Worker.counts, hp]
    · have hheld : (s.workers i).held = (s.workers i).buffer.map Prod.fst ++ [a] := by
        simp [Worker.held, Worker.writing, hp]
      rw [Worker.wrote, Worker.held_report, hnew, hheld, List.countP_append]
      simp only [Worker.report_outs, List.map_cons, List.map_nil]
      omega
  | @many i next out hi hp =>
    have hlen : ((s.workers i).buffer.map Prod.fst).length =
        (Worker.manyTicks cfg (s.workers i).buffer out).length := by
      rw [List.length_map, Worker.length_manyTicks fun results he => by subst he; exact hl.1]
    refine h.of_worker hi (by rfl) (by rfl) ?_ fun p => ?_
    · rw [Worker.flushed, Worker.counts_report, settledBy, List.map_snd_zip hlen.ge]
      simp [Worker.counts, hp]
    · rw [Worker.flushed, Worker.held_report, settledBy, List.map_fst_zip hlen.le]
      simp [Worker.held, Worker.writing, hp]
  | @count i t ts' next hi hp =>
    refine hidle rfl ⟨fun t' => ?_, fun p => ?_⟩
    · have hcounts := Pool.total_update hi (fun w => w.counts.count t') s.workers
        ((s.workers i).report ts' next)
      have hold := h.ticks t'
      have hhead : (s.workers i).counts = t :: ts' := by simp [Worker.counts, hp]
      simp only [Worker.counts_report, hhead, List.count_cons, beq_iff_eq] at hcounts
      simp only [St.setWorker, MigrationStats.tally_record]
      omega
    · have hold := h.records p
      have houts := Pool.total_update hi (fun w => (w.outs.map Prod.fst).countP p) s.workers
        ((s.workers i).report ts' next)
      have hheld := Pool.total_update hi (fun w => w.held.countP p) s.workers
        ((s.workers i).report ts' next)
      have hsame : (s.workers i).held = (s.workers i).buffer.map Prod.fst := by
        simp [Worker.held, Worker.writing, hp]
      simp only [Worker.report_outs] at houts
      simp only [Worker.held_report, hsame] at hheld
      simp only [St.setWorker]
      omega

/-- **Settled records.** At the end of a run without a crash they are what has
been scanned, each with the tick that has counted it. -/
theorem Settlement.of_done {src : List α} (h : Settlement cfg s ts)
    (hs : ((pipeline cfg src).restrict Orderly).Reachable s) (hd : s.main = .done) :
    (ts.map Prod.fst).Perm s.seen ∧ s.stats.errors = ts.countP fun p => p.2.isError := by
  have hopen : (pipeline cfg src).Reachable s := hs.of_restrict
  have hexited : ∀ j < cfg.poolSize, (s.workers j).counts = [] ∧ (s.workers j).held = [] := by
    intro j hj
    obtain ⟨c, hpc⟩ := (joined_reachable s hopen).done hd j hj
    have hbuffer := (worker_ok hopen j).exited c hpc
    exact ⟨by simp [Worker.counts, hpc], by simp [Worker.held, Worker.writing, hpc, hbuffer]⟩
  refine ⟨?_, ?_⟩
  · classical
    have hc := no_crash (fun _ _ hok => hok.2) s hs
    refine .trans ?_ (handed_of_done hopen hd hc).1
    refine List.perm_iff_count.2 fun a => ?_
    have hheld : Pool.total cfg.poolSize (fun w => w.held.countP (· == a)) s.workers = 0 :=
      Pool.total_eq_zero_iff.2 fun j hj => by rw [(hexited j hj).2]; rfl
    have hrecords := h.records (· == a)
    rw [hheld, Nat.add_zero] at hrecords
    have houts := Pool.total_count cfg.poolSize (fun w => w.outs.map Prod.fst) a s.workers
    rw [St.outs, List.map_flatMap]
    exact hrecords.symm.trans houts
  · have hticks : ∀ t, s.stats.tally t = (countAll 0 (ts.map Prod.snd)).tally t := by
      intro t
      have hcounts : Pool.total cfg.poolSize (fun w => w.counts.count t) s.workers = 0 :=
        Pool.total_eq_zero_iff.2 fun j hj => by rw [(hexited j hj).1]; rfl
      have hall := h.ticks t
      rw [hcounts, Nat.add_zero] at hall
      rw [hall, (countAll_tallied _ _).2.2]
    rw [errors_congr (tallied_reachable s hopen).1 (countAll_tallied 0 (ts.map Prod.snd)).1
      fun reason => hticks _, errors_countAll, List.countP_map]
    rfl

end

end

end RedisToAerospike.L4
