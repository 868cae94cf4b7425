import RedisToAerospike.L4Pipeline.Memory
import RedisToAerospike.L4Pipeline.Progress

/-!
# Every run of the pipeline ends

* `St.rank`: a bound on the steps that are left; `Move.rank`: every move uses
  up some of it, whatever the calls do.
* `stuck_of_done`: when all threads have been joined, no step is left.
-/
namespace RedisToAerospike.L4
open L3

section
variable {α R : Type}

namespace Worker

/-- The steps a worker may still take on what it has in hand. A buffered record
counts twice: for its tick, and for its share of the flush. -/
def rank (w : Worker α R) : Nat :=
  2 * w.buffer.length +
    match w.pc with
    | .get => 0
    | .item _ => 4
    | .write _ _ => 2
    | .flush _ => 1
    | .report _ ts _ => ts.length + 1
    | .exited _ => 0

theorem rank_report (w : Worker α R) (ts : List Tick) (next : After) :
    (w.report ts next).rank = 2 * w.buffer.length + ts.length := by
  cases ts <;> cases next <;> simp [rank, report]

theorem rank_leave_le (w : Worker α R) (c : Cause) : (w.leave c).rank ≤ 2 * w.buffer.length + 1 := by
  unfold leave
  by_cases h : w.buffer.isEmpty = true <;> simp [rank, h]

theorem rank_prepared_lt (cfg : Cfg) (w : Worker α R) (a : α) (out : Prepared R) :
    (w.prepared cfg a out).rank < 2 * w.buffer.length + 4 := by
  unfold prepared
  cases out with
  | skipped reason => simp [rank_report]
  | failed reason => simp [rank_report]
  | raised exc =>
    refine Nat.lt_of_le_of_lt (rank_leave_le _ _) ?_
    dsimp only
    omega
  | record r =>
    dsimp only
    split
    · simp [rank]
    · split <;> simp [rank] <;> omega

end Worker

/-- The steps that `run` may still take, on top of those for the records. -/
def mainRank (cfg : Cfg) : Main α → Nat
  | .next => 4 * cfg.poolSize + 2
  | .put _ => 4 * cfg.poolSize + 8
  | .stop n => 3 * n + cfg.poolSize + 1
  | .join i => cfg.poolSize - i + 1
  | .done => 0

/-- A bound on the steps that are left. -/
def St.rank (cfg : Cfg) (s : St α R) : Nat :=
  7 * s.src.length + mainRank cfg s.main + (5 * (dataOf s.queue).length + 2 * stopsIn s.queue) +
    Pool.total cfg.poolSize Worker.rank s.workers

theorem Move.rank {cfg : Cfg} {s s' : St α R} {l : Label R} (h : Move cfg s l s') :
    s'.rank cfg < s.rank cfg := by
  -- the worker that moves, and what its rank becomes
  have htotal : ∀ i < cfg.poolSize, ∀ w : Worker α R,
      Pool.total cfg.poolSize Worker.rank (Function.update s.workers i w) + (s.workers i).rank =
        Pool.total cfg.poolSize Worker.rank s.workers + w.rank :=
    fun i hi w => Pool.total_update hi Worker.rank s.workers w
  unfold St.rank
  cases h with
  | @scan a rest hm hs => simp only [hm, hs, mainRank, List.length_cons]; omega
  | sourceEnd hm hs => simp only [hm, mainRank]; omega
  | sourceRaise hm => simp only [hm, mainRank]; omega
  | put hm hf =>
    simp only [hm, mainRank, dataOf_append, stopsIn_append, dataOf, stopsIn, List.length_append,
      List.length_singleton]
    omega
  | @putStop n hm hf =>
    have hstop : mainRank cfg (afterStop n : Main α) = 3 * n + cfg.poolSize + 1 := by
      unfold afterStop
      split
      · rename_i h0; subst h0; simp [mainRank]
      · rfl
    simp only [hm, hstop]
    simp only [mainRank, dataOf_append, stopsIn_append, dataOf, stopsIn, List.append_nil]
    omega
  | @join i c hm hp =>
    have hjoin : mainRank cfg (if i + 1 < cfg.poolSize then .join (i + 1) else .done : Main α) <
        cfg.poolSize - i + 1 := by
      split
      · simp only [mainRank]; omega
      · simp only [mainRank]; omega
    rw [hm]
    simp only [mainRank] at hjoin ⊢
    omega
  | @getData i a rest hi hp hq =>
    have ht := htotal i hi { s.workers i with pc := .item a }
    simp only [Worker.rank, hp] at ht
    simp only [hq, dataOf, stopsIn, List.length_cons, St.setWorker] at ht ⊢
    omega
  | @getStop i rest hi hp hq =>
    have ht := htotal i hi ((s.workers i).leave .stopped)
    have hle := (s.workers i).rank_leave_le .stopped
    have hget : (s.workers i).rank = 2 * (s.workers i).buffer.length := by simp [Worker.rank, hp]
    simp only [hq, dataOf, stopsIn, St.setWorker]
    omega
  | @prepare i a out hi hp =>
    have ht := htotal i hi ((s.workers i).prepared cfg a out)
    have hlt := (s.workers i).rank_prepared_lt cfg a out
    have hitem : (s.workers i).rank = 2 * (s.workers i).buffer.length + 4 := by
      simp [Worker.rank, hp]
    simp only [St.setWorker]
    omega
  | @write i a r out hi hp =>
    have ht := htotal i hi ((s.workers i).wrote a r out)
    have hwrote : ((s.workers i).wrote a r out).rank = 2 * (s.workers i).buffer.length + 1 :=
      Worker.rank_report _ _ _
    have hwrite : (s.workers i).rank = 2 * (s.workers i).buffer.length + 2 := by
      simp [Worker.rank, hp]
    simp only [St.setWorker]
    omega
  | @many i next out hi hp =>
    have ht := htotal i hi ((s.workers i).flushed cfg next out)
    have hlen := Worker.length_manyTicks_le cfg (s.workers i).buffer out
    have hflushed : ((s.workers i).flushed cfg next out).rank =
        (Worker.manyTicks cfg (s.workers i).buffer out).length :=
      (Worker.rank_report _ _ _).trans (by simp)
    have hflush : (s.workers i).rank = 2 * (s.workers i).buffer.length + 1 := by
      simp [Worker.rank, hp]
    simp only [St.setWorker]
    omega
  | @count i t ts next hi hp =>
    have ht := htotal i hi ((s.workers i).report ts next)
    rw [Worker.rank_report] at ht
    have hreport : (s.workers i).rank = 2 * (s.workers i).buffer.length + (ts.length + 1) := by
      simp [Worker.rank, hp]
    simp only [St.setWorker]
    omega

theorem rank_start (cfg : Cfg) (src : List α) :
    (St.start src : St α R).rank cfg = 7 * src.length + 4 * cfg.poolSize + 2 := by
  have h0 : Pool.total cfg.poolSize Worker.rank (St.start src : St α R).workers = 0 :=
    Pool.total_eq_zero_iff.2 fun _ _ => rfl
  unfold St.rank
  rw [h0]
  simp [St.start, mainRank, dataOf, stopsIn]
  omega

/-- Where the source has not raised, all of it has been scanned. -/
theorem seen_of_full {cfg : Cfg} {src : List α} {s : St α R}
    (h : (pipeline cfg src).Reachable s) (hd : s.main = .done) (hraised : s.raised = false) :
    s.seen = src := by
  have hsrc : s.src = [] := by
    rcases exhausted_reachable s h with hm | ⟨a, hm⟩ | hr | hs
    · rw [hd] at hm; cases hm
    · rw [hd] at hm; cases hm
    · rw [hraised] at hr; cases hr
    · exact hs
  rw [← (order_reachable s h).source, hsrc, List.append_nil]

/-- When `run` is over, so are the workers. -/
theorem stuck_of_done {cfg : Cfg} {src : List α} {s : St α R}
    (h : (pipeline cfg src).Reachable s) (hd : s.main = .done) : ∀ l s', ¬ Move cfg s l s' := by
  intro l s' hm
  have hex := (joined_reachable s h).done hd
  have hpc : ∀ {i : Nat} {p : Pc α R}, i < cfg.poolSize → (s.workers i).pc = p →
      ∃ c, p = .exited c := by
    intro i p hi hp
    obtain ⟨c, hc⟩ := hex i hi
    exact ⟨c, hp.symm.trans hc⟩
  cases hm with
  | scan hmain hs => rw [hd] at hmain; cases hmain
  | sourceEnd hmain hs => rw [hd] at hmain; cases hmain
  | sourceRaise hmain => rw [hd] at hmain; cases hmain
  | put hmain hf => rw [hd] at hmain; cases hmain
  | putStop hmain hf => rw [hd] at hmain; cases hmain
  | join hmain hp => rw [hd] at hmain; cases hmain
  | getData hi hp hq => obtain ⟨c, hc⟩ := hpc hi hp; cases hc
  | getStop hi hp hq => obtain ⟨c, hc⟩ := hpc hi hp; cases hc
  | prepare hi hp => obtain ⟨c, hc⟩ := hpc hi hp; cases hc
  | write hi hp => obtain ⟨c, hc⟩ := hpc hi hp; cases hc
  | many hi hp => obtain ⟨c, hc⟩ := hpc hi hp; cases hc
  | count hi hp => obtain ⟨c, hc⟩ := hpc hi hp; cases hc

end

end RedisToAerospike.L4
