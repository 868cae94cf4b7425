import RedisToAerospike.L4Pipeline.Tally
import RedisToAerospike.L4Pipeline.Termination

/-!
# The heartbeat (`progress.py`)

A reporter thread beside the pipeline: it waits on an event with a timeout
and logs a snapshot of the statistics each time the wait times out. After the
workers are joined `run` sets the event and joins the reporter.

A wait may time out just before the event is set, so one line may come late;
`late` is a ghost that counts those.

* `Beats`: the invariant.
* `heartbeat`: the lines are consistent and never go back, at most one comes
  after the stop, and none after `run` has returned.
-/
namespace RedisToAerospike.L4
open L3

/-- The text of a snapshot; that for the throughput comes from the clock.
mirrors src/redis_to_aerospike/stats.py:72-80 -/
def MigrationStats.progressLine (s : MigrationStats) (throughput : String) : String :=
  "progress: scanned=" ++ toString s.scanned ++ " migrated=" ++ toString s.migrated ++
    " skipped=" ++ toString s.skipped ++ " errors=" ++ toString s.errors ++
    " throughput=" ++ throughput ++ "/s"

/-- Where the reporter stands: never started, at `_stop.wait`, the wait timed
out, with a line to log, or gone.
mirrors src/redis_to_aerospike/progress.py:37-45, 60-64 -/
inductive Beat where
  | off
  | waiting
  | due
  | line (s : MigrationStats)
  | ended

structure Watched (α R : Type) where
  pipe : St α R
  beat : Beat
  stop : Bool := false
  returned : Bool := false
  lines : List MigrationStats := []
  late : Nat := 0

inductive WatchedLabel (R : Type) where
  | pipe (l : Label R)
  | timeout
  | snapshot
  | log
  | wake
  | setStop
  | join

section
variable {α R : Type}

/-- mirrors src/redis_to_aerospike/progress.py:47-51, 60-64, migrator.py:87-103 -/
def watchedStep (cfg : Cfg) (x : Watched α R) : WatchedLabel R → Option (Watched α R)
  | .pipe l => (step cfg x.pipe l).map fun pipe => { x with pipe }
  | .timeout =>
    match x.beat, x.stop with
    | .waiting, false => some { x with beat := .due }
    | _, _ => none
  | .snapshot =>
    match x.beat with
    | .due => some { x with beat := .line x.pipe.stats }
    | _ => none
  | .log =>
    match x.beat with
    | .line s =>
      some { x with
        beat := .waiting
        lines := x.lines ++ [s]
        late := if x.stop then x.late + 1 else x.late }
    | _ => none
  | .wake =>
    match x.beat, x.stop with
    | .waiting, true => some { x with beat := .ended }
    | _, _ => none
  | .setStop =>
    match x.pipe.main, x.stop with
    | .done, false => some { x with stop := true }
    | _, _ => none
  | .join =>
    match x.beat, x.stop, x.returned with
    | .off, true, false => some { x with returned := true }
    | .ended, true, false => some { x with returned := true }
    | _, _, _ => none

/-- `enabled` is `self._interval > 0`. -/
def Watched.start (enabled : Bool) (src : List α) : Watched α R where
  pipe := .start src
  beat := if enabled then .waiting else .off

/-- `write_many` answers for each record. -/
def Answers (x : Watched α R) : WatchedLabel R → Prop
  | .pipe l => Aligned x.pipe l
  | _ => True

/-- The pipeline and the reporter. -/
def watched (cfg : Cfg) (enabled : Bool) (src : List α) : LTS (Watched α R) (WatchedLabel R) :=
  (LTS.ofFn (· = .start enabled src) (watchedStep cfg)).restrict Answers

/-- The moves of both. -/
inductive WatchedMove (cfg : Cfg) (x : Watched α R) : WatchedLabel R → Watched α R → Prop
  | pipe {l : Label R} {pipe : St α R} : Move cfg x.pipe l pipe →
      WatchedMove cfg x (.pipe l) { x with pipe }
  | timeout : x.beat = .waiting → x.stop = false →
      WatchedMove cfg x .timeout { x with beat := .due }
  | snapshot : x.beat = .due → WatchedMove cfg x .snapshot { x with beat := .line x.pipe.stats }
  | log {s : MigrationStats} : x.beat = .line s → WatchedMove cfg x .log
      { x with
        beat := .waiting
        lines := x.lines ++ [s]
        late := if x.stop then x.late + 1 else x.late }
  | wake : x.beat = .waiting → x.stop = true → WatchedMove cfg x .wake { x with beat := .ended }
  | setStop : x.pipe.main = .done → x.stop = false →
      WatchedMove cfg x .setStop { x with stop := true }
  | join : x.beat = .off ∨ x.beat = .ended → x.stop = true → x.returned = false →
      WatchedMove cfg x .join { x with returned := true }

theorem watchedStep_move {cfg : Cfg} {x x' : Watched α R} {l : WatchedLabel R}
    (h : watchedStep cfg x l = some x') : WatchedMove cfg x l x' := by
  cases l with
  | pipe l =>
    obtain ⟨pipe, hp, rfl⟩ := Option.map_eq_some_iff.1 h
    exact .pipe (step_move hp)
  | timeout =>
    simp only [watchedStep] at h
    split at h
    · rename_i hb hs; cases h; exact .timeout hb hs
    · cases h
  | snapshot =>
    simp only [watchedStep] at h
    split at h
    · rename_i hb; cases h; exact .snapshot hb
    · cases h
  | log =>
    simp only [watchedStep] at h
    split at h
    · rename_i hb; cases h; exact .log hb
    · cases h
  | wake =>
    simp only [watchedStep] at h
    split at h
    · rename_i hb hs; cases h; exact .wake hb hs
    · cases h
  | setStop =>
    simp only [watchedStep] at h
    split at h
    · rename_i hm hs; cases h; exact .setStop hm hs
    · cases h
  | join =>
    simp only [watchedStep] at h
    split at h
    · rename_i hb hs hr; cases h; exact .join (.inl hb) hs hr
    · rename_i hb hs hr; cases h; exact .join (.inr hb) hs hr
    · cases h

theorem watchedMove_step {cfg : Cfg} {x x' : Watched α R} {l : WatchedLabel R}
    (h : WatchedMove cfg x l x') : watchedStep cfg x l = some x' := by
  cases h with
  | pipe hm => simp only [watchedStep, move_step hm, Option.map_some]
  | timeout hb hs => simp only [watchedStep, hb, hs]
  | snapshot hb => simp only [watchedStep, hb]
  | log hb => simp only [watchedStep, hb]
  | wake hb hs => simp only [watchedStep, hb, hs]
  | setStop hm hs => simp only [watchedStep, hm, hs]
  | join hb hs hr => rcases hb with hb | hb <;> simp only [watchedStep, hb, hs, hr]

theorem watched_projection (cfg : Cfg) (enabled : Bool) (src : List α) :
    LTS.Projection (watched cfg enabled src : LTS (Watched α R) (WatchedLabel R))
      ((pipeline cfg src).restrict Aligned) Watched.pipe where
  init x hx := by subst hx; rfl
  step x l x' _ hst := by
    obtain ⟨hok, hst⟩ := hst
    cases watchedStep_move hst with
    | pipe hm => exact .inr ⟨_, hok, move_step hm⟩
    | _ => exact .inl rfl

/-! ## The lines -/

/-- No counter of `s` is above that of `t`. -/
structure MigrationStats.Within (s t : MigrationStats) : Prop where
  scanned : s.scanned ≤ t.scanned
  migrated : s.migrated ≤ t.migrated
  skipped : s.skipped ≤ t.skipped
  errors : s.errors ≤ t.errors

theorem MigrationStats.Within.refl (s : MigrationStats) : s.Within s :=
  ⟨Nat.le_refl _, Nat.le_refl _, Nat.le_refl _, Nat.le_refl _⟩

theorem MigrationStats.Within.trans {s t u : MigrationStats} (h : s.Within t) (k : t.Within u) :
    s.Within u :=
  ⟨h.scanned.trans k.scanned, h.migrated.trans k.migrated, h.skipped.trans k.skipped,
    h.errors.trans k.errors⟩

/-- The pipeline only counts up. -/
theorem Move.within {cfg : Cfg} {s s' : St α R} {l : Label R} (h : Move cfg s l s') :
    s.stats.Within s'.stats := by
  rcases h.stats with ⟨hs, -⟩ | ⟨a, hs, -⟩ | ⟨t, hs, -⟩
  · rw [hs]; exact .refl _
  · rw [hs]
    constructor <;> simp [MigrationStats.recordScanned]
  · rw [hs]
    cases t <;> constructor <;> simp [MigrationStats.record]

/-- The lines, with the one that is about to be logged. -/
def Watched.shown (x : Watched α R) : List MigrationStats :=
  x.lines ++
    match x.beat with
    | .line s => [s]
    | _ => []

/-- A line is on its way. -/
def Beat.busy : Beat → Nat
  | .due => 1
  | .line _ => 1
  | _ => 0

structure Beats (enabled : Bool) (x : Watched α R) : Prop where
  sound : ∀ s ∈ x.shown, s.counted ≤ s.scanned
  sorted : x.shown.Pairwise MigrationStats.Within
  below : ∀ s ∈ x.shown, s.Within x.pipe.stats
  late : x.late + x.beat.busy ≤ 1
  early : x.stop = false → x.late = 0
  stopped : x.stop = true → x.pipe.main = .done
  returned : x.returned = true → x.stop = true ∧ (x.beat = .off ∨ x.beat = .ended)
  off : enabled = false → x.beat = .off ∧ x.lines = []

/-- A move of the reporter that shows no new line. -/
theorem Beats.of_shown {enabled : Bool} {x x' : Watched α R} (h : Beats enabled x)
    (hshown : x'.shown = x.shown) (hpipe : x'.pipe = x.pipe)
    (hlate : x'.late + x'.beat.busy ≤ 1) (hearly : x'.stop = false → x'.late = 0)
    (hstopped : x'.stop = true → x'.pipe.main = .done)
    (hreturned : x'.returned = true → x'.stop = true ∧ (x'.beat = .off ∨ x'.beat = .ended))
    (hoff : enabled = false → x'.beat = .off ∧ x'.lines = []) : Beats enabled x' where
  sound := by rw [hshown]; exact h.sound
  sorted := by rw [hshown]; exact h.sorted
  below := by rw [hshown, hpipe]; exact h.below
  late := hlate
  early := hearly
  stopped := hstopped
  returned := hreturned
  off := hoff

theorem Beats.move {cfg : Cfg} {enabled : Bool} {src : List α} {x x' : Watched α R}
    {l : WatchedLabel R} (hx : (watched cfg enabled src).Reachable x) (h : Beats enabled x)
    (hm : WatchedMove cfg x l x') : Beats enabled x' := by
  have hpipe := (watched_projection cfg enabled src).reachable x hx
  have hlate := h.late
  have hactive : ∀ {b : Beat}, x.beat = b → b ≠ .off → b ≠ .ended → x.returned ≠ true := by
    intro b hb hoff hended hr
    rcases (h.returned hr).2 with he | he
    · exact hoff (hb.symm.trans he)
    · exact hended (hb.symm.trans he)
  have henabled : ∀ {b : Beat}, x.beat = b → b ≠ .off → enabled ≠ false := by
    intro b hb hoff he
    exact hoff (hb.symm.trans (h.off he).1)
  cases hm with
  | @pipe l pipe hmove =>
    refine ⟨h.sound, h.sorted, fun s hs => (h.below s hs).trans hmove.within, hlate, h.early,
      fun hs => ?_, h.returned, h.off⟩
    exact absurd hmove (stuck_of_done hpipe.of_restrict (h.stopped hs) _ _)
  | timeout hb hs =>
    refine h.of_shown (by simp [Watched.shown, hb]) rfl ?_ h.early h.stopped (fun hr => ?_)
      fun he => ?_
    · have := h.early hs
      simp only [Beat.busy]
      omega
    · exact absurd hr (hactive hb (by simp) (by simp))
    · exact absurd he (henabled hb (by simp))
  | snapshot hb =>
    have hshown : ({ x with beat := .line x.pipe.stats } : Watched α R).shown =
        x.shown ++ [x.pipe.stats] := by simp [Watched.shown, hb]
    have hledger := (ledger_reachable x.pipe hpipe).scanned
    refine ⟨?_, ?_, ?_, ?_, h.early, h.stopped, fun hr => ?_, fun he => ?_⟩
    · rw [hshown]
      intro s hs
      rcases List.mem_append.1 hs with hs | hs
      · exact h.sound s hs
      · rw [List.mem_singleton.1 hs]
        omega
    · rw [hshown]
      refine List.pairwise_append.2 ⟨h.sorted, List.pairwise_singleton _ _, fun s hs t ht => ?_⟩
      rw [List.mem_singleton.1 ht]
      exact h.below s hs
    · rw [hshown]
      intro s hs
      rcases List.mem_append.1 hs with hs | hs
      · exact h.below s hs
      · rw [List.mem_singleton.1 hs]
        exact .refl _
    · rw [hb] at hlate
      exact hlate
    · exact absurd hr (hactive hb (by simp) (by simp))
    · exact absurd he (henabled hb (by simp))
  | @log s hb =>
    rw [hb] at hlate
    refine h.of_shown (by simp [Watched.shown, hb]) rfl ?_ (fun hs => ?_) h.stopped (fun hr => ?_)
      fun he => ?_
    · simp only [Beat.busy] at hlate ⊢
      split <;> omega
    · have hs' : x.stop = false := hs
      simp [hs', h.early hs']
    · exact absurd hr (hactive hb (by simp) (by simp))
    · exact absurd he (henabled hb (by simp))
  | wake hb hs =>
    refine h.of_shown (by simp [Watched.shown, hb]) rfl ?_ h.early h.stopped
      (fun _ => ⟨hs, .inr rfl⟩) fun he => ?_
    · simp only [Beat.busy]
      omega
    · exact absurd he (henabled hb (by simp))
  | setStop hmain hs =>
    refine h.of_shown rfl rfl hlate (fun he => ?_) (fun _ => hmain) (fun hr => ?_) h.off
    · cases he
    · exact ⟨rfl, (h.returned hr).2⟩
  | join hb hs hr => exact h.of_shown rfl rfl hlate h.early h.stopped (fun _ => ⟨hs, hb⟩) h.off

theorem beats_reachable {cfg : Cfg} {enabled : Bool} {src : List α} :
    ∀ x : Watched α R, (watched cfg enabled src).Reachable x → Beats enabled x := by
  refine LTS.reachable_induction (fun x hx => ?_) fun x l x' hx ih hst =>
    ih.move hx (watchedStep_move hst.2)
  subst hx
  have hnone : (Watched.start enabled src : Watched α R).shown = [] := by cases enabled <;> rfl
  have hbusy : (Watched.start enabled src : Watched α R).beat.busy = 0 := by cases enabled <;> rfl
  refine ⟨?_, ?_, ?_, ?_, fun _ => rfl, fun hs => ?_, fun hr => ?_, fun he => ?_⟩
  · rw [hnone]; intro s hs; cases hs
  · rw [hnone]; exact .nil
  · rw [hnone]; intro s hs; cases hs
  · rw [hbusy]; exact Nat.zero_le 1
  · cases hs
  · cases hr
  · subst he; exact ⟨rfl, rfl⟩

/-! ## The end of the reporter -/

/-- The steps that are left once the event is set. -/
def Watched.rank (x : Watched α R) : Nat :=
  (if x.returned then 0 else 1) +
    match x.beat with
    | .due => 3
    | .line _ => 2
    | .waiting => 1
    | .off => 0
    | .ended => 0

theorem WatchedMove.rank {cfg : Cfg} {enabled : Bool} {src : List α} {x x' : Watched α R}
    {l : WatchedLabel R} (hx : (watched cfg enabled src).Reachable x) (hs : x.stop = true)
    (hm : WatchedMove cfg x l x') : x'.rank + 1 ≤ x.rank ∧ x'.stop = true := by
  have hpipe := (watched_projection cfg enabled src).reachable x hx
  cases hm with
  | pipe hmove =>
    have hdone := (beats_reachable x hx).stopped hs
    exact absurd hmove (stuck_of_done hpipe.of_restrict hdone _ _)
  | timeout hb he => rw [hs] at he; cases he
  | snapshot hb => exact ⟨by simp [Watched.rank, hb], hs⟩
  | log hb => exact ⟨by simp [Watched.rank, hb], hs⟩
  | wake hb he => exact ⟨by simp [Watched.rank, hb], hs⟩
  | setStop hmain he => rw [hs] at he; cases he
  | join hb he hr =>
    refine ⟨?_, hs⟩
    rcases hb with hb | hb
    · simp [Watched.rank, hb, hr]
    · simp [Watched.rank, hb, hr]

theorem length_le_rank {cfg : Cfg} {enabled : Bool} {src : List α} {x x' : Watched α R}
    {ls : List (WatchedLabel R)} (hrun : (watched cfg enabled src).Run x ls x')
    (hx : (watched cfg enabled src).Reachable x) (hs : x.stop = true) :
    ls.length + x'.rank ≤ x.rank := by
  induction hrun with
  | nil x => simp
  | cons hst _ ih =>
    obtain ⟨hrank, hs'⟩ := (watchedStep_move hst.2).rank hx hs
    have htail := ih (hx.step hst) hs'
    rw [List.length_cons]
    omega

/-- Until it returns, `run` can go on when the workers are joined. -/
theorem watched_can_move {cfg : Cfg} {enabled : Bool} {src : List α} {x : Watched α R}
    (hmain : x.pipe.main = .done) (hr : x.returned = false) :
    ∃ l x', (watched cfg enabled src).step x l x' := by
  cases hs : x.stop with
  | false => exact ⟨.setStop, _, trivial, watchedMove_step (.setStop hmain hs)⟩
  | true =>
    cases hb : x.beat with
    | off => exact ⟨.join, _, trivial, watchedMove_step (.join (.inl hb) hs hr)⟩
    | waiting => exact ⟨.wake, _, trivial, watchedMove_step (.wake hb hs)⟩
    | due => exact ⟨.snapshot, _, trivial, watchedMove_step (.snapshot hb)⟩
    | line s => exact ⟨.log, _, trivial, watchedMove_step (.log hb)⟩
    | ended => exact ⟨.join, _, trivial, watchedMove_step (.join (.inr hb) hs hr)⟩

/-- **The heartbeat.** Every line that is logged is consistent, none goes back
behind another or runs ahead of the statistics, at most one comes after the
stop, and none without an interval. Once the event is set four steps are left,
and when the workers are joined only a `run` that has returned stands still. -/
theorem heartbeat {cfg : Cfg} {enabled : Bool} {src : List α} {x : Watched α R}
    (h : (watched cfg enabled src).Reachable x) :
    (∀ s ∈ x.lines, s.migrated + s.skipped + s.errors ≤ s.scanned ∧ s.Within x.pipe.stats) ∧
    x.lines.Pairwise MigrationStats.Within ∧ x.late ≤ 1 ∧ (enabled = false → x.lines = []) ∧
    (x.stop = true → ∀ ls x', (watched cfg enabled src).Run x ls x' → ls.length ≤ 4) ∧
    (x.pipe.main = .done →
      ((∀ l x', ¬ (watched cfg enabled src).step x l x') ↔ x.returned = true)) := by
  have hb := beats_reachable x h
  have hmem : ∀ s ∈ x.lines, s ∈ x.shown := fun s hs => List.mem_append_left _ hs
  refine ⟨fun s hs => ⟨hb.sound s (hmem s hs), hb.below s (hmem s hs)⟩,
    (List.pairwise_append.1 hb.sorted).1, ?_, fun he => (hb.off he).2, fun hs ls x' hrun => ?_,
    fun hmain => ⟨fun hstuck => ?_, fun hr l x' hst => ?_⟩⟩
  · have := hb.late
    omega
  · have hlen := length_le_rank hrun h hs
    have hrank : x.rank ≤ 4 := by
      unfold Watched.rank
      cases x.beat <;> cases x.returned <;> simp
    omega
  · rw [← Bool.not_eq_false]
    intro hr
    obtain ⟨l, x', hst⟩ := watched_can_move hmain hr
    exact hstuck l x' hst
  · -- nothing is left
    obtain ⟨hs, hended⟩ := hb.returned hr
    have hrank := ((watchedStep_move hst.2).rank h hs).1
    rcases hended with he | he
    · simp [Watched.rank, hr, he] at hrank
    · simp [Watched.rank, hr, he] at hrank

end

instance {α R : Type} (x : Watched α R) (l : WatchedLabel R) : Decidable (Answers x l) :=
  match l with
  | .pipe (.many i (.returned results)) =>
    inferInstanceAs (Decidable (results.length = (x.pipe.workers i).buffer.length))
  | .pipe (.many _ (.raised _)) => isTrue trivial
  | .pipe .scan | .pipe .sourceEnd | .pipe .sourceRaise | .pipe .put | .pipe .putStop
  | .pipe .join | .pipe (.get _) | .pipe (.prepare _ _) | .pipe (.write _ _) | .pipe (.count _)
  | .timeout | .snapshot | .log | .wake | .setStop | .join => isTrue trivial

/-- A line while the record is on its way, and one after the stop. -/
def lateTrace : List (WatchedLabel Nat) :=
  [.pipe .scan, .timeout, .pipe .put, .snapshot, .pipe .sourceEnd, .log, .pipe (.get 0),
   .pipe (.prepare 0 (.record 70)), .pipe (.write 0 .written), .pipe (.count 0), .pipe .putStop,
   .pipe (.get 0), .timeout, .pipe .join, .setStop, .snapshot, .log, .wake, .join]

theorem heartbeat_late :
    ∃ x : Watched Nat Nat, x.lines.map (MigrationStats.progressLine · "0") =
        ["progress: scanned=1 migrated=0 skipped=0 errors=0 throughput=0/s",
         "progress: scanned=1 migrated=1 skipped=0 errors=0 throughput=0/s"] ∧
      x.lines.Pairwise MigrationStats.Within ∧ x.late ≤ 1 := by
  obtain ⟨x, hx, hlines⟩ := Option.map_eq_some_iff.1 (show (LTS.exec (LTS.guarded Answers
    (watchedStep ⟨1, 0, 1, false⟩)) (.start true [7]) lateTrace).map
      (fun x => x.lines.map (MigrationStats.progressLine · "0")) =
        some ["progress: scanned=1 migrated=0 skipped=0 errors=0 throughput=0/s",
          "progress: scanned=1 migrated=1 skipped=0 errors=0 throughput=0/s"] from by
    decide +kernel)
  have hbeat := heartbeat ⟨_, _, rfl, LTS.run_of_exec_guarded hx⟩
  exact ⟨x, hlines, hbeat.2.1, hbeat.2.2.1⟩

end RedisToAerospike.L4
