import RedisToAerospike.Core.Pool
import RedisToAerospike.L4Pipeline.Migrator

/-!
# One worker

What a worker's moves do to it, and what they leave alone, whatever the calls
do.

* `WMove`: the moves, seen by the worker; `workers_induction`: what they keep
  holds of every worker in every reachable state.
* `Worker.Ok`: what a worker has prepared is in its calls, its buffer or its
  hands.
* `Move.outs`, `outs_allowed`: what a worker has prepared only grows, and came
  out as the environment has it.
* `Move.leaving`, `Move.exited`: how a worker comes to leave its loop, and that
  it stays out.
-/
namespace RedisToAerospike.L4
open L3

section
variable {α R : Type}

/-! ## One worker -/

/-- The moves, seen by the worker that makes them. -/
inductive WMove (cfg : Cfg) (w : Worker α R) : Worker α R → Prop
  | getData (a : α) : w.pc = .get → WMove cfg w { w with pc := .item a }
  | getStop : w.pc = .get → WMove cfg w (w.leave .stopped)
  | prepare {a : α} (out : Prepared R) : w.pc = .item a → WMove cfg w (w.prepared cfg a out)
  | write {a : α} {r : R} (out : WriteOutcome) : w.pc = .write a r → WMove cfg w (w.wrote a r out)
  | many {next : After} (out : ManyOutcome) : w.pc = .flush next →
      WMove cfg w (w.flushed cfg next out)
  | count {t : Tick} {ts : List Tick} {next : After} : w.pc = .report t ts next →
      WMove cfg w (w.report ts next)

/-- A move changes no worker or one. -/
theorem Move.workers {cfg : Cfg} {s s' : St α R} {l : Label R} (h : Move cfg s l s') :
    s'.workers = s.workers ∨ ∃ i w', i < cfg.poolSize ∧ WMove cfg (s.workers i) w' ∧
      s'.workers = Function.update s.workers i w' := by
  cases h with
  | scan hm hs => exact .inl rfl
  | sourceEnd hm hs => exact .inl rfl
  | sourceRaise hm => exact .inl rfl
  | put hm hf => exact .inl rfl
  | putStop hm hf => exact .inl rfl
  | join hm hp => exact .inl rfl
  | getData hi hp hq => exact .inr ⟨_, _, hi, .getData _ hp, rfl⟩
  | getStop hi hp hq => exact .inr ⟨_, _, hi, .getStop hp, rfl⟩
  | prepare hi hp => exact .inr ⟨_, _, hi, .prepare _ hp, rfl⟩
  | write hi hp => exact .inr ⟨_, _, hi, .write _ hp, rfl⟩
  | many hi hp => exact .inr ⟨_, _, hi, .many _ hp, rfl⟩
  | count hi hp => exact .inr ⟨_, _, hi, .count hp, rfl⟩

/-- A property of every worker that the worker's moves keep. -/
theorem workers_induction {cfg : Cfg} {src : List α} {P : Worker α R → Prop} (hinit : P {})
    (hmove : ∀ w w', P w → WMove cfg w w' → P w') :
    ∀ s, (pipeline cfg src).Reachable s → ∀ i, P (s.workers i) := by
  refine LTS.reachable_induction (fun s hs i => ?_) fun s l s' _ ih hst i => ?_
  · subst hs; exact hinit
  · rcases (step_move hst).workers with he | ⟨j, w', _, hw, he⟩
    · rw [he]; exact ih i
    · rw [he]
      by_cases hij : i = j
      · subst hij; rw [Function.update_self]; exact hmove _ _ (ih i) hw
      · rw [Function.update_of_ne hij]; exact ih i

namespace Worker

/-- Why the worker is on its way out. -/
def leaving (w : Worker α R) : Option Cause :=
  match w.pc with
  | .flush (.leave c) => some c
  | .report _ _ (.leave c) => some c
  | .exited c => some c
  | _ => none

/-- The record the worker is about to prepare. -/
def item (w : Worker α R) : List α :=
  match w.pc with
  | .item a => [a]
  | _ => []

/-- The record the worker is about to write. -/
def writing (w : Worker α R) : List (α × R) :=
  match w.pc with
  | .write a r => [(a, r)]
  | _ => []

/-- A record that converted. -/
def converted : α × Prepared R → Option (α × R)
  | (a, .record r) => some (a, r)
  | _ => none

/-- The cause an `After` carries. -/
def causeOf : After → Option Cause
  | .loop => none
  | .leave c => some c

@[simp] theorem leaving_report (w : Worker α R) (ts : List Tick) (next : After) :
    (w.report ts next).leaving = causeOf next := by
  cases ts <;> cases next <;> rfl

@[simp] theorem leaving_leave (w : Worker α R) (c : Cause) : (w.leave c).leaving = some c := by
  unfold leave leaving
  by_cases h : w.buffer.isEmpty = true <;> simp [h]

@[simp] theorem item_report (w : Worker α R) (ts : List Tick) (next : After) :
    (w.report ts next).item = [] := by
  cases ts <;> cases next <;> rfl

@[simp] theorem item_leave (w : Worker α R) (c : Cause) : (w.leave c).item = [] := by
  unfold leave item
  by_cases h : w.buffer.isEmpty = true <;> simp [h]

@[simp] theorem writing_report (w : Worker α R) (ts : List Tick) (next : After) :
    (w.report ts next).writing = [] := by
  cases ts <;> cases next <;> rfl

@[simp] theorem writing_leave (w : Worker α R) (c : Cause) : (w.leave c).writing = [] := by
  unfold leave writing
  by_cases h : w.buffer.isEmpty = true <;> simp [h]

@[simp] theorem report_buffer (w : Worker α R) (ts : List Tick) (next : After) :
    (w.report ts next).buffer = w.buffer := rfl

@[simp] theorem report_outs (w : Worker α R) (ts : List Tick) (next : After) :
    (w.report ts next).outs = w.outs := rfl

@[simp] theorem report_calls (w : Worker α R) (ts : List Tick) (next : After) :
    (w.report ts next).calls = w.calls := rfl

@[simp] theorem leave_buffer (w : Worker α R) (c : Cause) : (w.leave c).buffer = w.buffer := rfl

@[simp] theorem leave_outs (w : Worker α R) (c : Cause) : (w.leave c).outs = w.outs := rfl

@[simp] theorem leave_calls (w : Worker α R) (c : Cause) : (w.leave c).calls = w.calls := rfl

/-- The invariant of a worker. -/
structure Ok (cfg : Cfg) (w : Worker α R) : Prop where
  history : w.outs.filterMap converted = w.calls.flatten ++ w.buffer ++ w.writing
  single : cfg.batchSize ≤ 1 → w.buffer = []
  writes : w.writing ≠ [] → cfg.batchSize ≤ 1
  exited : ∀ c, w.pc = .exited c → w.buffer = []
  reported : ∀ t ts c, w.pc = .report t ts (.leave c) → w.buffer = []

/-- Going on to the counts, with the buffer empty or in the loop. -/
theorem ok_report {cfg : Cfg} {w : Worker α R} {ts : List Tick} {next : After}
    (hh : w.outs.filterMap converted = w.calls.flatten ++ w.buffer)
    (hs : cfg.batchSize ≤ 1 → w.buffer = []) (hb : next ≠ .loop → w.buffer = []) :
    Ok cfg (w.report ts next) where
  history := by simpa using hh
  single := hs
  writes h := absurd (writing_report w ts next) h
  exited c h := hb fun e => by subst e; cases ts <;> simp [report] at h
  reported t' ts' c h := hb fun e => by subst e; cases ts <;> simp [report] at h

theorem ok_leave {cfg : Cfg} {w : Worker α R} {c : Cause}
    (hh : w.outs.filterMap converted = w.calls.flatten ++ w.buffer)
    (hs : cfg.batchSize ≤ 1 → w.buffer = []) : Ok cfg (w.leave c) where
  history := by simpa using hh
  single := hs
  writes h := absurd (writing_leave w c) h
  exited c' h := by
    by_cases he : w.buffer.isEmpty = true
    · exact List.isEmpty_iff.1 he
    · simp [leave, he] at h
  reported t ts c' h := by
    by_cases he : w.buffer.isEmpty = true <;> simp [leave, he] at h

theorem Ok.init (cfg : Cfg) : Ok cfg ({} : Worker α R) where
  history := rfl
  single _ := rfl
  writes h := absurd rfl h
  exited _ _ := rfl
  reported _ _ _ _ := rfl

theorem Ok.move {cfg : Cfg} {w w' : Worker α R} (h : Ok cfg w) (hm : WMove cfg w w') :
    Ok cfg w' := by
  have hidle : w.writing = [] → w.outs.filterMap converted = w.calls.flatten ++ w.buffer := by
    intro hw
    rw [h.history, hw, List.append_nil]
  cases hm with
  | getData a hp =>
    refine ⟨?_, h.single, fun hw => absurd rfl hw, nofun, nofun⟩
    have := hidle (by simp [writing, hp])
    simpa [writing] using this
  | getStop hp => exact ok_leave (hidle (by simp [writing, hp])) h.single
  | @prepare a out hp =>
    have hh := hidle (by simp [writing, hp])
    have hout : ∀ o : Prepared R, converted (a, o) = none →
        (w.outs ++ [(a, o)]).filterMap converted = w.calls.flatten ++ w.buffer := by
      intro o ho
      rw [List.filterMap_append, hh, List.filterMap_cons_none ho]
      exact List.append_nil _
    cases out with
    | skipped reason =>
      unfold prepared
      exact ok_report (hout (.skipped reason) rfl) h.single (absurd rfl)
    | failed reason =>
      unfold prepared
      exact ok_report (hout (.failed reason) rfl) h.single (absurd rfl)
    | raised exc =>
      unfold prepared
      exact ok_leave (hout (.raised exc) rfl) h.single
    | record r =>
      have hrec : (w.outs ++ [(a, Prepared.record r)]).filterMap converted =
          w.calls.flatten ++ w.buffer ++ [(a, r)] := by
        rw [List.filterMap_append, hh]; rfl
      unfold prepared
      dsimp only
      split
      · -- one record at a time: it is in the worker's hands
        rename_i hb
        exact ⟨hrec, h.single, fun _ => hb, nofun, nofun⟩
      · -- batches: it is in the buffer
        rename_i hb
        have hrec' : (w.outs ++ [(a, Prepared.record r)]).filterMap converted =
            w.calls.flatten ++ (w.buffer ++ [(a, r)]) ++ [] := by
          rw [hrec, List.append_nil, List.append_assoc]
        split
        · exact ⟨hrec', fun h1 => absurd h1 hb, fun hw => absurd rfl hw, nofun, nofun⟩
        · exact ⟨hrec', fun h1 => absurd h1 hb, fun hw => absurd rfl hw, nofun, nofun⟩
  | @write a r out hp =>
    have hb : w.buffer = [] := h.single (h.writes (by simp [writing, hp]))
    refine ok_report ?_ h.single (absurd rfl)
    rw [h.history]
    simp [writing, hp, hb]
  | @many next out hp =>
    refine ok_report ?_ (fun _ => rfl) (fun _ => rfl)
    rw [hidle (by simp [writing, hp])]
    simp
  | @count t ts next hp =>
    refine ok_report (hidle (by simp [writing, hp])) h.single fun hnext => ?_
    cases next with
    | loop => exact absurd rfl hnext
    | leave c => exact h.reported t ts c hp

end Worker

theorem worker_ok {cfg : Cfg} {src : List α} {s : St α R} (h : (pipeline cfg src).Reachable s)
    (i : Nat) : (s.workers i).Ok cfg :=
  workers_induction (P := fun w => w.Ok cfg) (Worker.Ok.init cfg)
    (fun _ _ hw hm => hw.move hm) s h i

namespace Worker

theorem converted_eq_some {p : α × Prepared R} {q : α × R} (h : converted p = some q) :
    p = (q.1, .record q.2) := by
  obtain ⟨a, out⟩ := p
  cases out with
  | record r => cases h; rfl
  | skipped reason => cases h
  | failed reason => cases h
  | raised exc => cases h

/-- What is on its way to the sink, or has been there, was prepared. -/
theorem Ok.mem_outs {cfg : Cfg} {w : Worker α R} (h : Ok cfg w) {q : α × R}
    (hq : q ∈ w.calls.flatten ++ w.buffer ++ w.writing) : (q.1, .record q.2) ∈ w.outs := by
  rw [← h.history] at hq
  obtain ⟨p, hp, hc⟩ := List.mem_filterMap.1 hq
  rw [← converted_eq_some hc]
  exact hp

theorem prepared_outs (cfg : Cfg) (w : Worker α R) (a : α) (out : Prepared R) :
    (w.prepared cfg a out).outs = w.outs ++ [(a, out)] := by
  unfold prepared
  cases out with
  | skipped reason => rfl
  | failed reason => rfl
  | raised exc => rfl
  | record r =>
    dsimp only
    split <;> rfl

theorem prepared_calls (cfg : Cfg) (w : Worker α R) (a : α) (out : Prepared R) :
    (w.prepared cfg a out).calls = w.calls := by
  unfold prepared
  cases out with
  | skipped reason => rfl
  | failed reason => rfl
  | raised exc => rfl
  | record r =>
    dsimp only
    split <;> rfl

end Worker

/-- A worker's history grows when it prepares a record. -/
theorem Move.outs {cfg : Cfg} {s s' : St α R} {l : Label R} (h : Move cfg s l s') (j : Nat) :
    (s'.workers j).outs = (s.workers j).outs ∨
      ∃ a out, l = .prepare j out ∧ (s.workers j).pc = .item a ∧
        (s'.workers j).outs = (s.workers j).outs ++ [(a, out)] := by
  have hself : ∀ (i : Nat) (w : Worker α R), s'.workers = Function.update s.workers i w →
      w.outs = (s.workers i).outs → (s'.workers j).outs = (s.workers j).outs :=
    fun i w he hw => Pool.at_update Worker.outs he (.inr hw)
  cases h with
  | scan hm hs => exact .inl rfl
  | sourceEnd hm hs => exact .inl rfl
  | sourceRaise hm => exact .inl rfl
  | put hm hf => exact .inl rfl
  | putStop hm hf => exact .inl rfl
  | join hm hp => exact .inl rfl
  | getData hi hp hq => exact .inl (hself _ _ rfl rfl)
  | getStop hi hp hq => exact .inl (hself _ _ rfl rfl)
  | @prepare i a out hi hp =>
    by_cases hj : j = i
    · subst hj
      refine .inr ⟨a, out, rfl, hp, ?_⟩
      simp [St.setWorker, Worker.prepared_outs]
    · refine .inl ?_
      simp [St.setWorker, Function.update_of_ne hj]
  | write hi hp => exact .inl (hself _ _ rfl rfl)
  | many hi hp => exact .inl (hself _ _ rfl rfl)
  | count hi hp => exact .inl (hself _ _ rfl rfl)

/-- What was prepared came out as the environment has it. -/
theorem outs_allowed {cfg : Cfg} {env : Env α R} {src : List α} :
    ∀ s : St α R, (machine cfg env src).Reachable s →
      ∀ i, ∀ p ∈ (s.workers i).outs, env.prepares p.1 p.2 := by
  refine LTS.reachable_induction (fun s hs i => ?_) fun s l s' _ ih hst i => ?_
  · subst hs; nofun
  · rcases (step_move hst.2).outs i with he | ⟨a, out, rfl, hp, he⟩
    · rw [he]; exact ih i
    · obtain ⟨a', hp', hout⟩ := hst.1
      cases hp.symm.trans hp'
      intro p hmem
      rw [he] at hmem
      rcases List.mem_append.1 hmem with hmem | hmem
      · exact ih i p hmem
      · rw [List.mem_singleton.1 hmem]; exact hout

/-! ## Leaving the loop -/

theorem Worker.leaving_prepared (cfg : Cfg) (w : Worker α R) (a : α) (out : Prepared R) :
    (w.prepared cfg a out).leaving = none ∨
      ∃ exc, out = .raised exc ∧ (w.prepared cfg a out).leaving = some .crashed := by
  cases out with
  | skipped reason => left; unfold prepared; exact leaving_report _ _ _
  | failed reason => left; unfold prepared; exact leaving_report _ _ _
  | raised exc => exact .inr ⟨exc, rfl, leaving_leave _ _⟩
  | record r =>
    left
    unfold prepared
    dsimp only
    split
    · rfl
    · split <;> rfl

/-- A worker starts to leave by taking a `_STOP`, or when `_prepare` lets an
exception out. -/
theorem Move.leaving {cfg : Cfg} {s s' : St α R} {l : Label R} (h : Move cfg s l s') (j : Nat) :
    (s'.workers j).leaving = (s.workers j).leaving ∨
      ((s.workers j).leaving = none ∧ (s'.workers j).leaving = some .stopped ∧ l = .get j ∧
        s.queue.head? = some .stop) ∨
      ((s.workers j).leaving = none ∧ (s'.workers j).leaving = some .crashed ∧
        ∃ exc, l = .prepare j (.raised exc)) := by
  have hself : ∀ (i : Nat) (w : Worker α R), s'.workers = Function.update s.workers i w →
      (j ≠ i ∨ w.leaving = (s.workers i).leaving) →
        (s'.workers j).leaving = (s.workers j).leaving :=
    fun i w he hw => Pool.at_update Worker.leaving he hw
  cases h with
  | scan hm hs => exact .inl rfl
  | sourceEnd hm hs => exact .inl rfl
  | sourceRaise hm => exact .inl rfl
  | put hm hf => exact .inl rfl
  | putStop hm hf => exact .inl rfl
  | join hm hp => exact .inl rfl
  | @getData i a rest hi hp hq =>
    exact .inl (hself i _ rfl (.inr (by simp [Worker.leaving, hp])))
  | @getStop i rest hi hp hq =>
    by_cases hj : j = i
    · subst hj
      refine .inr (.inl ⟨by simp [Worker.leaving, hp], ?_, rfl, by simp [hq]⟩)
      simp [St.setWorker]
    · exact .inl (hself i _ rfl (.inl hj))
  | @prepare i a out hi hp =>
    have hold : (s.workers i).leaving = none := by simp [Worker.leaving, hp]
    rcases (s.workers i).leaving_prepared cfg a out with hw | ⟨exc, rfl, hw⟩
    · exact .inl (hself i _ rfl (.inr (hw.trans hold.symm)))
    · by_cases hj : j = i
      · subst hj
        exact .inr (.inr ⟨hold, by simpa [St.setWorker] using hw, exc, rfl⟩)
      · exact .inl (hself i _ rfl (.inl hj))
  | @write i a r out hi hp =>
    exact .inl (hself i _ rfl (.inr (by simp [Worker.leaving, hp, Worker.wrote, Worker.report])))
  | @many i next out hi hp =>
    refine .inl (hself i _ rfl (.inr ?_))
    rw [Worker.flushed, Worker.leaving_report]
    cases next <;> simp [Worker.leaving, hp, Worker.causeOf]
  | @count i t ts next hi hp =>
    refine .inl (hself i _ rfl (.inr ?_))
    rw [Worker.leaving_report]
    cases next <;> simp [Worker.leaving, hp, Worker.causeOf]

/-- Once out, a worker stays out. -/
theorem Move.exited {cfg : Cfg} {s s' : St α R} {l : Label R} (h : Move cfg s l s') {j : Nat}
    {c : Cause} (hj : (s.workers j).pc = .exited c) : (s'.workers j).pc = .exited c := by
  rcases h.workers with he | ⟨i, w', _, hw, he⟩
  · rw [he]; exact hj
  · rw [he]
    by_cases hij : j = i
    · subst hij
      cases hw <;> simp_all
    · rw [Function.update_of_ne hij]; exact hj

end

end RedisToAerospike.L4
