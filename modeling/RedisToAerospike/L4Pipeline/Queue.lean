import RedisToAerospike.L4Pipeline.Workers

/-!
# The queue and the sentinels

Invariants of the whole pipeline, whatever the calls do.

* `Order`: the records go from the source through the queue to the workers in
  order.
* `exhausted_reachable`: the producer stops where the source does.
* `Stops`: the queue is records, then `_STOP`s; every `_STOP` put is in the
  queue or has been taken by a worker that leaves.
* `Joined`: the workers joined have exited.
-/
namespace RedisToAerospike.L4
open L3

section
variable {α R : Type}

/-! ## The queue -/

/-- The records in the queue. -/
def dataOf : List (Item α) → List α
  | [] => []
  | .data a :: q => a :: dataOf q
  | .stop :: q => dataOf q

/-- The `_STOP`s in the queue. -/
def stopsIn : List (Item α) → Nat
  | [] => 0
  | .data _ :: q => stopsIn q
  | .stop :: q => stopsIn q + 1

@[simp] theorem dataOf_append (p q : List (Item α)) : dataOf (p ++ q) = dataOf p ++ dataOf q := by
  induction p with
  | nil => rfl
  | cons x p ih => cases x <;> simp [dataOf, ih]

@[simp] theorem stopsIn_append (p q : List (Item α)) :
    stopsIn (p ++ q) = stopsIn p + stopsIn q := by
  induction p with
  | nil => simp [stopsIn]
  | cons x p ih =>
    cases x with
    | data a => exact ih
    | stop =>
      simp only [List.cons_append, stopsIn, ih]
      omega

/-- The record the producer holds. -/
def pending : Main α → List α
  | .put a => [a]
  | _ => []

/-- Where the records are, in the order of the source. -/
structure Order (cfg : Cfg) (src : List α) (s : St α R) : Prop where
  source : s.seen ++ s.src = src
  order : s.taken.map Prod.snd ++ dataOf s.queue ++ pending s.main = s.seen
  tags : ∀ p ∈ s.taken, p.1 < cfg.poolSize
  history : ∀ i, Pool.tagged s.taken i = (s.workers i).outs.map Prod.fst ++ (s.workers i).item

/-- A move of worker `i` that takes no record keeps its history. -/
theorem history_update {s : St α R} {i : Nat} {w : Worker α R}
    (h : ∀ i, Pool.tagged s.taken i = (s.workers i).outs.map Prod.fst ++ (s.workers i).item)
    (hw : w.outs.map Prod.fst ++ w.item =
      (s.workers i).outs.map Prod.fst ++ (s.workers i).item) (j : Nat) :
    Pool.tagged s.taken j = (Function.update s.workers i w j).outs.map Prod.fst ++
      (Function.update s.workers i w j).item :=
  (h j).trans
    (Pool.at_update (fun w : Worker α R => w.outs.map Prod.fst ++ w.item) rfl (.inr hw)).symm

theorem Worker.prepared_history (cfg : Cfg) (w : Worker α R) (a : α) (out : Prepared R) :
    (w.prepared cfg a out).outs.map Prod.fst ++ (w.prepared cfg a out).item =
      w.outs.map Prod.fst ++ [a] := by
  unfold prepared
  cases out with
  | skipped reason => simp
  | failed reason => simp
  | raised exc => simp
  | record r =>
    dsimp only
    split
    · simp [item]
    · split <;> simp [item]

theorem Order.move {cfg : Cfg} {src : List α} {s s' : St α R} {l : Label R}
    (h : Order cfg src s) (hm : Move cfg s l s') : Order cfg src s' := by
  have hord := h.order
  cases hm with
  | @scan a rest hmain hs =>
    refine ⟨?_, ?_, h.tags, h.history⟩
    · rw [← h.source, hs, List.append_assoc]; rfl
    · rw [← hord, hmain]; simp [pending]
  | sourceEnd hmain hs =>
    refine ⟨h.source, ?_, h.tags, h.history⟩
    rw [← hord, hmain]; rfl
  | sourceRaise hmain =>
    refine ⟨h.source, ?_, h.tags, h.history⟩
    rw [← hord, hmain]; rfl
  | put hmain hf =>
    refine ⟨h.source, ?_, h.tags, h.history⟩
    rw [← hord, hmain]; simp [pending, dataOf]
  | @putStop n hmain hf =>
    refine ⟨h.source, ?_, h.tags, h.history⟩
    rw [← hord, hmain]
    unfold afterStop
    split <;> simp [pending, dataOf]
  | join hmain hp =>
    refine ⟨h.source, ?_, h.tags, h.history⟩
    rw [← hord, hmain]
    split <;> rfl
  | @getData i a rest hi hp hq =>
    refine ⟨h.source, ?_, ?_, ?_⟩
    · refine Eq.trans ?_ hord
      rw [hq]; simp [dataOf, St.setWorker]
    · intro p hmem
      rcases List.mem_append.1 hmem with hmem | hmem
      · exact h.tags p hmem
      · rw [List.mem_singleton.1 hmem]; exact hi
    · intro j
      have hj := h.history j
      rw [Pool.tagged_append, Pool.tagged_single, hj]
      by_cases hij : j = i
      · subst hij; simp [St.setWorker, Worker.item, hp]
      · simp [St.setWorker, Function.update_of_ne hij, Ne.symm hij]
  | @getStop i rest hi hp hq =>
    refine ⟨h.source, ?_, h.tags, history_update h.history ?_⟩
    · refine Eq.trans ?_ hord
      rw [hq]; rfl
    · rw [Worker.item_leave]; simp [Worker.item, hp]
  | @prepare i a out hi hp =>
    refine ⟨h.source, hord, h.tags, history_update h.history ?_⟩
    rw [Worker.prepared_history]; simp [Worker.item, hp]
  | @write i a r out hi hp =>
    refine ⟨h.source, hord, h.tags, history_update h.history ?_⟩
    simp [Worker.wrote, Worker.item, hp, Worker.report]
  | @many i next out hi hp =>
    refine ⟨h.source, hord, h.tags, history_update h.history ?_⟩
    rw [Worker.flushed, Worker.item_report]; simp [Worker.item, hp]
  | @count i t ts next hi hp =>
    refine ⟨h.source, hord, h.tags, history_update h.history ?_⟩
    rw [Worker.item_report]; simp [Worker.item, hp]

theorem order_reachable {cfg : Cfg} {src : List α} :
    ∀ s : St α R, (pipeline cfg src).Reachable s → Order cfg src s := by
  refine LTS.reachable_induction (fun s hs => ?_) fun s l s' _ ih hst => ih.move (step_move hst)
  subst hs
  exact ⟨rfl, rfl, nofun, fun _ => rfl⟩

/-- The producer stops at the end of the source, or where the source raises. -/
theorem exhausted_reachable {cfg : Cfg} {src : List α} :
    ∀ s : St α R, (pipeline cfg src).Reachable s →
      s.main = .next ∨ (∃ a, s.main = .put a) ∨ s.raised = true ∨ s.src = [] := by
  refine LTS.reachable_induction (fun s hs => ?_) fun s l s' _ ih hst => ?_
  · subst hs; exact .inl rfl
  · cases step_move hst with
    | scan hm hs => exact .inr (.inl ⟨_, rfl⟩)
    | sourceEnd hm hs => exact .inr (.inr (.inr hs))
    | sourceRaise hm => exact .inr (.inr (.inl rfl))
    | put hm hf => exact .inl rfl
    | putStop hm hf => rw [hm] at ih; exact .inr (.inr (by simpa using ih))
    | join hm hp => rw [hm] at ih; exact .inr (.inr (by simpa using ih))
    | getData hi hp hq => exact ih
    | getStop hi hp hq => exact ih
    | prepare hi hp => exact ih
    | write hi hp => exact ih
    | many hi hp => exact ih
    | count hi hp => exact ih

/-! ## The sentinels -/

def Worker.stopped (w : Worker α R) : Nat := if w.leaving = some .stopped then 1 else 0

theorem Worker.stopped_le (w : Worker α R) : w.stopped ≤ 1 := by unfold stopped; split <;> omega

/-- The `_STOP`s put so far. -/
def stopsPut (cfg : Cfg) : Main α → Nat
  | .next => 0
  | .put _ => 0
  | .stop n => cfg.poolSize - n
  | .join _ => cfg.poolSize
  | .done => cfg.poolSize

/-- The workers that took a `_STOP`. -/
def St.stopped (cfg : Cfg) (s : St α R) : Nat := Pool.total cfg.poolSize Worker.stopped s.workers

theorem Move.stopped_eq {cfg : Cfg} {s s' : St α R} {l : Label R} (h : Move cfg s l s')
    (hl : ∀ j, l = .get j → s.queue.head? ≠ some .stop) : s'.stopped cfg = s.stopped cfg := by
  refine Pool.total_congr fun j _ => ?_
  unfold Worker.stopped
  rcases h.leaving j with he | ⟨_, _, he, hq⟩ | ⟨ho, hn, _⟩
  · rw [he]
  · exact absurd hq (hl j he)
  · simp [ho, hn]

/-- Records, then `_STOP`s. -/
def DataThenStops (q : List (Item α)) : Prop :=
  q = (dataOf q).map .data ++ List.replicate (stopsIn q) .stop

theorem DataThenStops.put {q : List (Item α)} (h : DataThenStops q) (h0 : stopsIn q = 0) (a : α) :
    DataThenStops (q ++ [.data a]) := by
  unfold DataThenStops at *
  rw [h0, List.replicate_zero, List.append_nil] at h
  simp [dataOf, stopsIn, h0, ← h]

theorem DataThenStops.putStop {q : List (Item α)} (h : DataThenStops q) :
    DataThenStops (q ++ [.stop]) := by
  unfold DataThenStops at *
  simp only [dataOf_append, dataOf, List.append_nil, stopsIn_append, stopsIn]
  rw [List.replicate_succ', ← List.append_assoc, ← h]

theorem DataThenStops.getData {q : List (Item α)} {a : α} (h : DataThenStops (.data a :: q)) :
    DataThenStops q := by
  simpa [DataThenStops, dataOf, stopsIn] using h

/-- Behind a `_STOP` there is no record. -/
theorem DataThenStops.getStop {q : List (Item α)} (h : DataThenStops (.stop :: q)) :
    dataOf q = [] ∧ DataThenStops q := by
  have hnil : dataOf q = [] := by
    cases hd : dataOf q with
    | nil => rfl
    | cons a ds => simp [DataThenStops, dataOf, hd] at h
  refine ⟨hnil, ?_⟩
  simpa [DataThenStops, dataOf, stopsIn, hnil, List.replicate_succ] using h

/-- The queue is records, then `_STOP`s, and no `_STOP` is lost. -/
structure Stops (cfg : Cfg) (s : St α R) : Prop where
  shape : s.queue = (dataOf s.queue).map .data ++ List.replicate (stopsIn s.queue) .stop
  count : stopsIn s.queue + s.stopped cfg = stopsPut cfg s.main
  bound : ∀ n, s.main = .stop n → 1 ≤ n ∧ n ≤ cfg.poolSize
  drained : 0 < s.stopped cfg → dataOf s.queue = []

/-- Moves that leave the queue and the stopped workers alone. -/
theorem Stops.of_same {cfg : Cfg} {s s' : St α R} (h : Stops cfg s) (hq : s'.queue = s.queue)
    (hs : s'.stopped cfg = s.stopped cfg) (hput : stopsPut cfg s'.main = stopsPut cfg s.main)
    (hb : ∀ n, s'.main = .stop n → 1 ≤ n ∧ n ≤ cfg.poolSize) : Stops cfg s' where
  shape := by rw [hq]; exact h.shape
  count := by rw [hq, hs, hput]; exact h.count
  bound := hb
  drained := by rw [hq, hs]; exact h.drained

theorem stopsPut_start (cfg : Cfg) : stopsPut cfg (.stop cfg.poolSize : Main α) = 0 :=
  Nat.sub_self _

theorem Stops.move {cfg : Cfg} {s s' : St α R} {l : Label R} (h : Stops cfg s)
    (hm : Move cfg s l s') : Stops cfg s' := by
  have hpos := cfg.poolSize_pos
  have hcount := h.count
  have hsame := hm.stopped_eq
  cases hm with
  | scan hmain hs =>
    refine h.of_same rfl (hsame ?_) (by rw [hmain]; rfl) ?_
    · intro _ he; cases he
    · intro _ he; cases he
  | sourceEnd hmain hs =>
    refine h.of_same rfl (hsame ?_) (by rw [hmain]; exact stopsPut_start cfg) fun n hn => ?_
    · intro _ he; cases he
    · cases hn; omega
  | sourceRaise hmain =>
    refine h.of_same rfl (hsame ?_) (by rw [hmain]; exact stopsPut_start cfg) fun n hn => ?_
    · intro _ he; cases he
    · cases hn; omega
  | @put a hmain hf =>
    -- no `_STOP` has been put, so the record goes behind records only
    rw [hmain] at hcount
    have hnone : stopsIn s.queue = 0 ∧ s.stopped cfg = 0 := by
      simp only [stopsPut] at hcount; omega
    have hstopped := hsame fun _ he => by cases he
    refine ⟨DataThenStops.put h.shape hnone.1 a, ?_, ?_, fun hlt => ?_⟩
    · rw [hstopped, hnone.2]
      simp [stopsIn, hnone.1, stopsPut]
    · intro _ he; cases he
    · rw [hstopped, hnone.2] at hlt
      exact absurd hlt (Nat.lt_irrefl 0)
  | @putStop n hmain hf =>
    have hstopped := hsame fun _ he => by cases he
    have hb := h.bound _ hmain
    rw [hmain] at hcount
    simp only [stopsPut] at hcount
    refine ⟨DataThenStops.putStop h.shape, ?_, ?_, ?_⟩
    · rw [hstopped]
      simp only [stopsIn_append, stopsIn, afterStop]
      split
      · simp only [stopsPut]; omega
      · simp only [stopsPut]; omega
    · intro k hk
      simp only [afterStop] at hk
      split at hk <;> cases hk
      omega
    · rw [hstopped]
      simpa [dataOf] using h.drained
  | @join i c hmain hp =>
    refine h.of_same rfl (hsame fun _ he => by cases he) ?_ fun n hn => ?_
    · rw [hmain]
      dsimp only
      split <;> rfl
    · dsimp only at hn
      split at hn <;> cases hn
  | @getData i a rest hi hp hq =>
    have hstopped := hsame fun j _ => by simp [hq]
    have hshape : DataThenStops (.data a :: rest) := hq ▸ h.shape
    rw [hq] at hcount
    refine ⟨hshape.getData, by rw [hstopped]; exact hcount, h.bound, fun hlt => ?_⟩
    rw [hstopped] at hlt
    have := h.drained hlt
    rw [hq] at this
    cases this
  | @getStop i rest hi hp hq =>
    have hshape : DataThenStops (.stop :: rest) := hq ▸ h.shape
    rw [hq] at hcount
    have htotal := Pool.total_update hi Worker.stopped s.workers ((s.workers i).leave .stopped)
    have h0 : (s.workers i).stopped = 0 := by simp [Worker.stopped, Worker.leaving, hp]
    have h1 : ((s.workers i).leave .stopped).stopped = 1 := by simp [Worker.stopped]
    rw [h0, h1] at htotal
    refine ⟨hshape.getStop.2, ?_, h.bound, fun _ => hshape.getStop.1⟩
    simp only [stopsIn] at hcount
    unfold St.stopped at hcount ⊢
    simp only [St.setWorker]
    omega
  | prepare hi hp => exact h.of_same rfl (hsame fun _ he => by cases he) rfl h.bound
  | write hi hp => exact h.of_same rfl (hsame fun _ he => by cases he) rfl h.bound
  | many hi hp => exact h.of_same rfl (hsame fun _ he => by cases he) rfl h.bound
  | count hi hp => exact h.of_same rfl (hsame fun _ he => by cases he) rfl h.bound

theorem stops_reachable {cfg : Cfg} {src : List α} :
    ∀ s : St α R, (pipeline cfg src).Reachable s → Stops cfg s := by
  refine LTS.reachable_induction (fun s hs => ?_) fun s l s' _ ih hst => ih.move (step_move hst)
  subst hs
  have h0 : St.stopped cfg (.start src : St α R) = 0 := Pool.total_eq_zero_iff.2 fun _ _ => rfl
  exact ⟨rfl, by rw [h0]; rfl, nofun, fun h => absurd h (by omega)⟩

/-! ## Joining -/

/-- The workers joined so far have exited. -/
structure Joined (cfg : Cfg) (s : St α R) : Prop where
  join : ∀ i, s.main = .join i → i < cfg.poolSize ∧ ∀ j < i, ∃ c, (s.workers j).pc = .exited c
  done : s.main = .done → ∀ j < cfg.poolSize, ∃ c, (s.workers j).pc = .exited c

theorem Joined.move {cfg : Cfg} {s s' : St α R} {l : Label R} (h : Joined cfg s)
    (hm : Move cfg s l s') : Joined cfg s' := by
  have hpos := cfg.poolSize_pos
  -- a step that is not the producer's keeps `main`, and exits are final
  have hkeep : s'.main = s.main → Joined cfg s' := by
    intro he
    refine ⟨fun i hi => ?_, fun hd j hj => ?_⟩
    · obtain ⟨hlt, hex⟩ := h.join i (he ▸ hi)
      refine ⟨hlt, fun j hj => ?_⟩
      obtain ⟨c, hc⟩ := hex j hj
      exact ⟨c, hm.exited hc⟩
    · obtain ⟨c, hc⟩ := h.done (he ▸ hd) j hj
      exact ⟨c, hm.exited hc⟩
  cases hm with
  | scan hmain hs => exact ⟨nofun, nofun⟩
  | sourceEnd hmain hs => exact ⟨nofun, nofun⟩
  | sourceRaise hmain => exact ⟨nofun, nofun⟩
  | put hmain hf => exact ⟨nofun, nofun⟩
  | @putStop n hmain hf =>
    refine ⟨fun i hi => ?_, fun hd => ?_⟩
    · simp only [afterStop] at hi
      split at hi <;> cases hi
      exact ⟨hpos, fun j hj => absurd hj (Nat.not_lt_zero j)⟩
    · simp only [afterStop] at hd
      split at hd <;> cases hd
  | @join i c hmain hp =>
    obtain ⟨hlt, hex⟩ := h.join i hmain
    have hall : ∀ j < i + 1, ∃ c, (s.workers j).pc = .exited c := by
      intro j hj
      by_cases hji : j = i
      · exact ⟨c, hji ▸ hp⟩
      · exact hex j (by omega)
    refine ⟨fun k hk => ?_, fun hd j hj => ?_⟩
    · dsimp only at hk
      split at hk <;> cases hk
      exact ⟨by omega, hall⟩
    · dsimp only at hd
      split at hd
      · cases hd
      · exact hall j (by omega)
  | getData hi hp hq => exact hkeep rfl
  | getStop hi hp hq => exact hkeep rfl
  | prepare hi hp => exact hkeep rfl
  | write hi hp => exact hkeep rfl
  | many hi hp => exact hkeep rfl
  | count hi hp => exact hkeep rfl

theorem joined_reachable {cfg : Cfg} {src : List α} :
    ∀ s : St α R, (pipeline cfg src).Reachable s → Joined cfg s := by
  refine LTS.reachable_induction (fun s hs => ?_) fun s l s' _ ih hst => ih.move (step_move hst)
  subst hs
  exact ⟨nofun, nofun⟩

end

end RedisToAerospike.L4
