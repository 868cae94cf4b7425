import RedisToAerospike.L4Pipeline.Accounting
import RedisToAerospike.L4Pipeline.Report

/-!
# What is counted

How a record is counted is known when it has been prepared, as far as the
sink's answer to it is: `settle` names the tick, and is right about the ticks
that are `known`. Their tallies at the end of a run are those of the source,
whichever worker counts a record and when.

* `Tally`: what has been counted and what workers have still to count are the
  ticks of what has been prepared.
* `tally_of_done`: at the end these are the ticks of the records scanned.
-/
namespace RedisToAerospike.L4
open L3

section
variable {α R : Type}

/-- The ticks for a record, by what was prepared of it. -/
def ticksOf (settle : R → Tick) : Prepared R → List Tick
  | .record r => [settle r]
  | .skipped reason => [.skipped reason]
  | .failed reason => [.error reason]
  | .raised _ => []

/-- The sink answers to each record as `settle` has it, as far as a known tick
goes. -/
def Settles (cfg : Cfg) (known : Tick → Prop) (settle : R → Tick) (s : St α R) : Label R → Prop
  | .write i out => ∀ a r, (s.workers i).pc = .write a r → ∀ t, known t →
      (Worker.writeTick out = t ↔ settle r = t)
  | .many i out => ∀ t, known t → (Worker.manyTicks cfg (s.workers i).buffer out).count t =
      ((s.workers i).buffer.map fun p => settle p.2).count t
  | _ => True

namespace Worker

/-- The ticks a worker has still to make. -/
def owed (settle : R → Tick) (w : Worker α R) : List Tick :=
  (w.buffer.map fun p => settle p.2) ++
    match w.pc with
    | .write _ r => [settle r]
    | .report t ts _ => t :: ts
    | _ => []

/-- The ticks for what a worker has prepared. -/
def due (settle : R → Tick) (w : Worker α R) : List Tick :=
  w.outs.flatMap fun p => ticksOf settle p.2

theorem owed_report (settle : R → Tick) (w : Worker α R) (ts : List Tick) (next : After) :
    (w.report ts next).owed settle = (w.buffer.map fun p => settle p.2) ++ ts := by
  cases ts <;> cases next <;> simp [owed, report]

theorem owed_leave (settle : R → Tick) (w : Worker α R) (c : Cause) :
    (w.leave c).owed settle = w.buffer.map fun p => settle p.2 := by
  unfold leave
  by_cases h : w.buffer.isEmpty = true <;> simp [owed, h]

theorem owed_prepared (settle : R → Tick) (cfg : Cfg) (w : Worker α R) (a : α) (out : Prepared R) :
    (w.prepared cfg a out).owed settle =
      (w.buffer.map fun p => settle p.2) ++ ticksOf settle out := by
  unfold prepared
  cases out with
  | skipped reason => exact owed_report _ _ _ _
  | failed reason => exact owed_report _ _ _ _
  | raised exc => exact (owed_leave _ _ _).trans (List.append_nil _).symm
  | record r =>
    dsimp only
    split
    · rfl
    · split <;> simp [owed, ticksOf]

theorem due_prepared (settle : R → Tick) (cfg : Cfg) (w : Worker α R) (a : α) (out : Prepared R) :
    (w.prepared cfg a out).due settle = w.due settle ++ ticksOf settle out := by
  simp [due, prepared_outs]

end Worker

section
variable {cfg : Cfg} {known : Tick → Prop} {settle : R → Tick}

/-- Counted and still to be counted are together what was prepared. -/
def Tally (cfg : Cfg) (known : Tick → Prop) (settle : R → Tick) (s : St α R) : Prop :=
  ∀ t, known t →
    s.stats.tally t + Pool.total cfg.poolSize (fun w => (w.owed settle).count t) s.workers =
      Pool.total cfg.poolSize (fun w => (w.due settle).count t) s.workers

/-- A move of worker `i` that counts nothing. -/
theorem Tally.of_worker {s s' : St α R} (h : Tally cfg known settle s) {i : Nat}
    (hi : i < cfg.poolSize) {w : Worker α R} (hw : s'.workers = Function.update s.workers i w)
    (hstats : s'.stats = s.stats)
    (hcount : ∀ t, known t → (w.owed settle).count t + ((s.workers i).due settle).count t =
      ((s.workers i).owed settle).count t + (w.due settle).count t) : Tally cfg known settle s' := by
  intro t hk
  have howed := Pool.total_update hi (fun w => (w.owed settle).count t) s.workers w
  have hdue := Pool.total_update hi (fun w => (w.due settle).count t) s.workers w
  have ht := h t hk
  have hct := hcount t hk
  rw [hw, hstats]
  omega

theorem Tally.move {s s' : St α R} {l : Label R} (h : Tally cfg known settle s)
    (hl : Settles cfg known settle s l) (hm : Move cfg s l s') : Tally cfg known settle s' := by
  cases hm with
  | scan hmain hs => exact fun t hk => h t hk
  | sourceEnd hmain hs => exact h
  | sourceRaise hmain => exact h
  | put hmain hf => exact h
  | putStop hmain hf => exact h
  | join hmain hp => exact h
  | @getData i a rest hi hp hq =>
    refine h.of_worker hi rfl rfl fun t _ => ?_
    simp [Worker.owed, Worker.due, hp]
  | @getStop i rest hi hp hq =>
    refine h.of_worker hi rfl rfl fun t _ => ?_
    rw [Worker.owed_leave]
    simp [Worker.owed, Worker.due, hp]
  | @prepare i a out hi hp =>
    refine h.of_worker hi rfl rfl fun t _ => ?_
    rw [Worker.owed_prepared, Worker.due_prepared, List.count_append, List.count_append]
    simp only [Worker.owed, hp, List.append_nil]
    omega
  | @write i a r out hi hp =>
    refine h.of_worker hi rfl rfl fun t hk => ?_
    have hout : [Worker.writeTick out].count t = [settle r].count t := by
      simp only [List.count_singleton, beq_iff_eq, hl a r hp t hk]
    rw [Worker.wrote, Worker.owed_report, List.count_append, hout]
    simp [Worker.owed, Worker.due, hp]
  | @many i next out hi hp =>
    refine h.of_worker hi rfl rfl fun t hk => ?_
    have hout : (Worker.manyTicks cfg (s.workers i).buffer out).count t = _ := hl t hk
    rw [Worker.flushed, Worker.owed_report, List.count_append, hout]
    simp [Worker.owed, Worker.due, hp]
  | @count i tick ts next hi hp =>
    intro t hk
    have howed := Pool.total_update hi (fun w => (w.owed settle).count t) s.workers
      ((s.workers i).report ts next)
    have hdue := Pool.total_update hi (fun w => (w.due settle).count t) s.workers
      ((s.workers i).report ts next)
    have ht := h t hk
    have hold : ((s.workers i).owed settle).count t =
        (((s.workers i).report ts next).owed settle).count t + if tick = t then 1 else 0 := by
      rw [Worker.owed_report]
      simp only [Worker.owed, hp, List.count_append, List.count_cons, beq_iff_eq]
      omega
    have hsame : (((s.workers i).report ts next).due settle).count t =
        ((s.workers i).due settle).count t := by simp [Worker.due]
    simp only [St.setWorker, MigrationStats.tally_record] at howed hdue ⊢
    omega

theorem tally_reachable {src : List α} :
    ∀ s : St α R, ((pipeline cfg src).restrict (Settles cfg known settle)).Reachable s →
      Tally cfg known settle s := by
  refine LTS.reachable_induction (fun s hs => ?_) fun s l s' _ ih hst =>
    ih.move hst.1 (step_move hst.2)
  subst hs
  intro t _
  have howed : Pool.total cfg.poolSize (fun w => (w.owed settle).count t)
      (St.start src : St α R).workers = 0 := Pool.total_eq_zero_iff.2 fun _ _ => rfl
  have hdue : Pool.total cfg.poolSize (fun w => (w.due settle).count t)
      (St.start src : St α R).workers = 0 := Pool.total_eq_zero_iff.2 fun _ _ => rfl
  have hzero : (St.start src : St α R).stats.tally t = 0 := by cases t <;> rfl
  rw [howed, hdue, hzero]

/-! ## The statistics alone -/

/-- A move counts a record scanned, makes one tick, or counts nothing. -/
theorem Move.stats {cfg : Cfg} {s s' : St α R} {l : Label R} (h : Move cfg s l s') :
    (s'.stats = s.stats ∧ s'.seen = s.seen) ∨
      (∃ a, s'.stats = s.stats.recordScanned ∧ s'.seen = s.seen ++ [a]) ∨
      ∃ t, s'.stats = s.stats.record t ∧ s'.seen = s.seen := by
  cases h with
  | scan hm hs => exact .inr (.inl ⟨_, rfl, rfl⟩)
  | count hi hp => exact .inr (.inr ⟨_, rfl, rfl⟩)
  | _ => exact .inl ⟨rfl, rfl⟩

theorem tallied_reachable {cfg : Cfg} {src : List α} :
    ∀ s : St α R, (pipeline cfg src).Reachable s →
      s.stats.Tallied ∧ s.stats.scanned = s.seen.length := by
  refine LTS.reachable_induction (fun s hs => ?_) fun s l s' _ ih hst => ?_
  · subst hs
    exact ⟨(countAll_tallied 0 []).1, rfl⟩
  · obtain ⟨htallied, hscanned⟩ := ih
    rcases (step_move hst).stats with ⟨hs, hseen⟩ | ⟨a, hs, hseen⟩ | ⟨t, hs, hseen⟩
    · rw [hs, hseen]; exact ⟨htallied, hscanned⟩
    · rw [hs, hseen]; exact ⟨htallied.recordScanned, by simp [hscanned]⟩
    · rw [hs, hseen]; exact ⟨htallied.record t, by simp [hscanned]⟩

/-! ## The end of a run -/

/-- **Tallies.** At the end of a run without a crash the known ticks are those
of the records scanned. -/
theorem tally_of_done {src : List α} {s : St α R}
    (h : ((pipeline cfg src).restrict (Settles cfg known settle)).Reachable s)
    (hd : s.main = .done) (hc : ∀ j, (s.workers j).leaving ≠ some .crashed)
    {prep : α → Prepared R} (hprep : ∀ i, ∀ p ∈ (s.workers i).outs, p.2 = prep p.1) {t : Tick}
    (hk : known t) :
    s.stats.tally t = (s.seen.flatMap fun a => ticksOf settle (prep a)).count t := by
  have hopen : (pipeline cfg src).Reachable s := h.of_restrict
  have howed : Pool.total cfg.poolSize (fun w => (w.owed settle).count t) s.workers = 0 := by
    refine Pool.total_eq_zero_iff.2 fun j hj => ?_
    obtain ⟨c, hpc⟩ := (joined_reachable s hopen).done hd j hj
    simp [Worker.owed, (worker_ok hopen j).exited c hpc, hpc]
  have htally := tally_reachable s h t hk
  rw [howed, Nat.add_zero] at htally
  have houts : (s.outs cfg).flatMap (fun p => ticksOf settle p.2) =
      ((s.outs cfg).map Prod.fst).flatMap fun a => ticksOf settle (prep a) := by
    rw [List.flatMap_map]
    refine List.flatMap_congr fun p hp => ?_
    obtain ⟨i, -, hp⟩ := List.mem_flatMap.1 hp
    rw [hprep i p hp]
  rw [htally, Pool.total_count, ← ((handed_of_done hopen hd hc).1.flatMap_right _).count_eq, ← houts,
    St.outs, List.flatMap_assoc]
  rfl

end

end

end RedisToAerospike.L4
