import RedisToAerospike.L4Pipeline.Tally
import RedisToAerospike.L4Pipeline.Termination
import RedisToAerospike.L5Migration.Confluence

/-!
# One worker

The loop of `_worker_loop` run over the source itself: no queue, no threads,
and a server that answers a batch at once.

* `Migrator.sequential`: this program.
* `Sequel`: how far the worker has got in it.
* `runs_in_order`: with one worker a migration leaves the store and the
  statistics that the program leaves, in every policy.
-/
namespace RedisToAerospike.L5
open L1 L2 L3 L4

section
variable {F : Type} [PyFloat F]

/-! ## The program -/

/-- The variables of the loop. -/
structure Loop (F : Type) where
  store : Store F
  stats : MigrationStats := {}
  buffer : List (RedisRecord F × AerospikeRecord F) := []

omit [PyFloat F] in
def Loop.count (q : Loop F) (ticks : List Tick) : Loop F :=
  { q with stats := ticks.foldl MigrationStats.record q.stats }

variable [OrderedLists F]

namespace Migrator

/-- mirrors src/redis_to_aerospike/migrator.py:187-201 -/
def writeOne (m : Migrator F) (q : Loop F) (r : AerospikeRecord F) : Loop F :=
  let call := write m.config.aerospike q.store r
  { q with store := call.1 }.count [Worker.writeTick (writeOutcome call.2)]

/-- mirrors src/redis_to_aerospike/migrator.py:203-232 -/
def flush (m : Migrator F) (q : Loop F) : Loop F :=
  let call := writeMany m.config.aerospike q.store (recordsOf q.buffer)
  { q with store := call.1, buffer := [] }.count
    (Worker.manyTicks m.cfg q.buffer (.returned call.2))

/-- One record, from the source to the sink.
mirrors src/redis_to_aerospike/migrator.py:111-115, 129-141 -/
def pass (m : Migrator F) (q : Loop F) (a : RedisRecord F) : Loop F :=
  let q := { q with stats := q.stats.recordScanned }
  match m.prepare a with
  | .skipped reason => q.count [.skipped reason]
  | .failed reason => q.count [.error reason]
  | .raised _ => q
  | .record r =>
    if m.cfg.batchSize ≤ 1 then m.writeOne q r
    else
      let q := { q with buffer := q.buffer ++ [(a, r)] }
      if m.cfg.batchSize ≤ q.buffer.length then m.flush q else q

/-- The outer `finally`. -/
def finish (m : Migrator F) (q : Loop F) : Loop F := if q.buffer.isEmpty then q else m.flush q

def loop (m : Migrator F) (S₀ : Store F) (src : List (RedisRecord F)) : Loop F :=
  src.foldl m.pass { store := S₀ }

/-- The migration of `src` by one thread. -/
def sequential (m : Migrator F) (S₀ : Store F) (src : List (RedisRecord F)) : Loop F :=
  m.finish (m.loop S₀ src)

/-- Where the program stands after a flush. -/
def after (m : Migrator F) (q : Loop F) : After → Loop F
  | .loop => q
  | .leave _ => m.finish q

end Migrator

theorem loop_append (m : Migrator F) (S₀ : Store F) (as : List (RedisRecord F)) (a : RedisRecord F) :
    m.loop S₀ (as ++ [a]) = m.pass (m.loop S₀ as) a := by
  rw [Migrator.loop, List.foldl_append]
  rfl

/-! ## How far the worker has got -/

/-- The same counts, but for the records scanned. -/
def SameTicks (s t : MigrationStats) : Prop := { s with scanned := 0 } = { t with scanned := 0 }

theorem SameTicks.record {s t : MigrationStats} (h : SameTicks s t) (tick : Tick) :
    SameTicks (s.record tick) (t.record tick) := by
  have hcomm : ∀ u : MigrationStats, { u.record tick with scanned := 0 } =
      ({ u with scanned := 0 } : MigrationStats).record tick := by
    intro u
    cases tick <;> rfl
  unfold SameTicks at h ⊢
  rw [hcomm, hcomm, h]

theorem SameTicks.foldl {s t : MigrationStats} (h : SameTicks s t) (ticks : List Tick) :
    SameTicks (ticks.foldl MigrationStats.record s) (ticks.foldl MigrationStats.record t) := by
  induction ticks generalizing s t with
  | nil => exact h
  | cons tick ticks ih => exact ih (h.record tick)

/-- `x` has got to `q` when it has made the counts `ticks`. -/
structure At (x : Sys F) (ticks : List Tick) (q : Loop F) : Prop where
  store : x.store = q.store
  buffer : (x.pipe.workers 0).buffer = q.buffer
  stats : SameTicks (ticks.foldl MigrationStats.record x.pipe.stats) q.stats

/-- `x` is in the flush at `q`: a key is as before, or its record has landed. -/
structure InFlush (m : Migrator F) (x : Sys F) (q : Loop F) : Prop where
  buffer : (x.pipe.workers 0).buffer = q.buffer
  stats : SameTicks x.pipe.stats q.stats
  unanswered : ∀ k, x.replies 0 k = none → x.store k = q.store k
  answered : ∀ k reply, x.replies 0 k = some reply →
    reply = ⟨actCode m.config.aerospike (q.store k), false⟩ ∧
      x.store k = (writeMany m.config.aerospike q.store (recordsOf q.buffer)).1 k

/-- Where the program stands, by what the worker has prepared. -/
def Sequel (m : Migrator F) (S₀ : Store F) (x : Sys F) : Prop :=
  let q := m.loop S₀ ((x.pipe.workers 0).outs.map Prod.fst)
  match (x.pipe.workers 0).pc with
  | .get => At x [] q
  | .item _ => At x [] q
  | .write _ r => ∃ q₀, At x [] q₀ ∧ m.writeOne q₀ r = q
  | .flush next => ∃ q₀, InFlush m x q₀ ∧ m.flush q₀ = m.after q next
  | .report t ts next => At x (t :: ts) (m.after q next)
  | .exited _ => At x [] (m.finish q)

theorem At.inFlush {m : Migrator F} {x : Sys F} {q : Loop F} (h : At x [] q)
    (hidle : ∀ k, x.replies 0 k = none) : InFlush m x q := by
  refine ⟨h.buffer, h.stats, fun k _ => congrFun h.store k, fun k reply hr => ?_⟩
  rw [hidle k] at hr
  cases hr

/-- The worker goes on to the counts. -/
theorem Sequel.report {m : Migrator F} {S₀ : Store F} {x : Sys F}
    {w : Worker (RedisRecord F) (AerospikeRecord F)} {ticks : List Tick} {next : After}
    (hw : x.pipe.workers 0 = w.report ticks next)
    (h : At x ticks (m.after (m.loop S₀ (w.outs.map Prod.fst)) next)) : Sequel m S₀ x := by
  unfold Sequel
  rw [hw]
  cases ticks with
  | nil =>
    cases next with
    | loop => exact h
    | leave c => exact h
  | cons t ts => exact h

/-- The worker leaves its loop. -/
theorem Sequel.leave {m : Migrator F} {S₀ : Store F} {x : Sys F}
    {w : Worker (RedisRecord F) (AerospikeRecord F)} {c : Cause}
    (hw : x.pipe.workers 0 = w.leave c) (hidle : ∀ k, x.replies 0 k = none)
    (h : At x [] (m.loop S₀ (w.outs.map Prod.fst))) : Sequel m S₀ x := by
  have hbuffer : w.buffer = (m.loop S₀ (w.outs.map Prod.fst)).buffer := by
    rw [← h.buffer, hw]
    rfl
  unfold Sequel
  rw [hw]
  unfold Worker.leave
  by_cases he : w.buffer.isEmpty = true
  · simp only [if_pos he]
    rw [hbuffer] at he
    rw [Migrator.finish, if_pos he]
    exact h
  · simp only [if_neg he]
    rw [hbuffer] at he
    exact ⟨_, h.inFlush hidle, by rw [Migrator.after, Migrator.finish, if_neg he]⟩

/-- Steps of the producer. -/
theorem Sequel.congr {m : Migrator F} {S₀ : Store F} {x : Sys F} (h : Sequel m S₀ x)
    {s : PipeSt F} (hw : s.workers = x.pipe.workers) (hstats : SameTicks s.stats x.pipe.stats) :
    Sequel m S₀ { x with pipe := s } := by
  have hat : ∀ {ticks : List Tick} {q : Loop F}, At x ticks q → At { x with pipe := s } ticks q := by
    intro ticks q hq
    exact ⟨hq.store, by rw [← hq.buffer, ← hw], (hstats.foldl ticks).trans hq.stats⟩
  unfold Sequel at h ⊢
  simp only [hw] at h ⊢
  cases hp : (x.pipe.workers 0).pc with
  | get => rw [hp] at h; exact hat h
  | item a => rw [hp] at h; exact hat h
  | write a r =>
    rw [hp] at h
    obtain ⟨q₀, hq, hr⟩ := h
    exact ⟨q₀, hat hq, hr⟩
  | flush next =>
    rw [hp] at h
    obtain ⟨q₀, hq, hr⟩ := h
    exact ⟨q₀, ⟨by rw [← hq.buffer, ← hw], hstats.trans hq.stats, hq.unanswered, hq.answered⟩, hr⟩
  | report t ts next => rw [hp] at h; exact hat h
  | exited c => rw [hp] at h; exact hat h

/-! ## Steps -/

omit [PyFloat F] [OrderedLists F] in
theorem setWorker_self (s : PipeSt F) (i : Nat) (w : Worker (RedisRecord F) (AerospikeRecord F)) :
    (s.setWorker i w).workers i = w := Function.update_self ..

/-- The record in hand has been prepared. -/
theorem Sequel.prepare {m : Migrator F} (hret : TransformsReturn m) {S₀ : Store F} {x x' : Sys F}
    (h : Sequel m S₀ x) {a : RedisRecord F} (hp : (x.pipe.workers 0).pc = .item a)
    (hw : x'.pipe.workers 0 = (x.pipe.workers 0).prepared m.cfg a (m.prepare a))
    (hstore : x'.store = x.store) (hstats : x'.pipe.stats = x.pipe.stats)
    (hidle : ∀ k, x'.replies 0 k = none) : Sequel m S₀ x' := by
  have hat : At x [] (m.loop S₀ ((x.pipe.workers 0).outs.map Prod.fst)) := by
    unfold Sequel at h
    rw [hp] at h
    exact h
  have hpass : ∀ out : Prepared (AerospikeRecord F),
      m.loop S₀ (((x.pipe.workers 0).outs ++ [(a, out)]).map Prod.fst) =
        m.pass (m.loop S₀ ((x.pipe.workers 0).outs.map Prod.fst)) a := by
    intro out
    rw [List.map_append]
    exact loop_append m S₀ _ a
  generalize m.loop S₀ ((x.pipe.workers 0).outs.map Prod.fst) = q at hat hpass
  -- the program has counted the record scanned
  have hscanned : SameTicks x'.pipe.stats q.stats.recordScanned := by
    rw [hstats]
    exact hat.stats
  have hcounted : ∀ {w : Worker (RedisRecord F) (AerospikeRecord F)} {out t},
      w.outs = (x.pipe.workers 0).outs ++ [(a, out)] → w.buffer = (x.pipe.workers 0).buffer →
      x'.pipe.workers 0 = w.report [t] .loop →
      m.pass q a = { q with stats := q.stats.recordScanned.record t } → Sequel m S₀ x' := by
    intro w out t houts hbuffer hreport heq
    refine Sequel.report hreport ?_
    rw [Migrator.after, houts, hpass, heq]
    exact ⟨hstore.trans hat.store, by rw [hreport, Worker.report_buffer, hbuffer, hat.buffer],
      hscanned.record t⟩
  cases hout : m.prepare a with
  | skipped reason =>
    rw [hout] at hw
    exact hcounted (w := { x.pipe.workers 0 with outs := _ }) rfl rfl hw
      (by rw [Migrator.pass, hout]; rfl)
  | failed reason =>
    rw [hout] at hw
    exact hcounted (w := { x.pipe.workers 0 with outs := _ }) rfl rfl hw
      (by rw [Migrator.pass, hout]; rfl)
  | raised exc => exact absurd hout (prepare_returns hret a exc)
  | record r =>
    rw [hout, Worker.prepared] at hw
    unfold Sequel
    rw [hw]
    dsimp only
    by_cases hb : m.cfg.batchSize ≤ 1
    · simp only [if_pos hb] at hw ⊢
      refine ⟨{ q with stats := q.stats.recordScanned },
        ⟨hstore.trans hat.store, by rw [hw]; exact hat.buffer, hscanned⟩, ?_⟩
      rw [hpass, Migrator.pass, hout]
      exact (if_pos hb).symm
    · simp only [if_neg hb] at hw ⊢
      -- the record is in the buffer
      have hfull : At x' [] { q with stats := q.stats.recordScanned, buffer := q.buffer ++ [(a, r)] } :=
        ⟨hstore.trans hat.store, by rw [hw, ← hat.buffer], hscanned⟩
      have heq : m.pass q a =
          if m.cfg.batchSize ≤ ((x.pipe.workers 0).buffer ++ [(a, r)]).length then
            m.flush { q with stats := q.stats.recordScanned, buffer := q.buffer ++ [(a, r)] }
          else { q with stats := q.stats.recordScanned, buffer := q.buffer ++ [(a, r)] } := by
        rw [Migrator.pass, hout, hat.buffer]
        exact if_neg hb
      by_cases hsize : m.cfg.batchSize ≤ ((x.pipe.workers 0).buffer ++ [(a, r)]).length
      · rw [if_pos hsize] at heq ⊢
        exact ⟨_, hfull.inFlush hidle, by rw [Migrator.after, hpass, heq]⟩
      · rw [if_neg hsize] at heq ⊢
        rw [hpass, heq]
        exact hfull

/-- The record in hand has been written. -/
theorem Sequel.write {m : Migrator F} {S₀ : Store F} {x x' : Sys F} (h : Sequel m S₀ x)
    {a : RedisRecord F} {r : AerospikeRecord F} (hp : (x.pipe.workers 0).pc = .write a r)
    (hw : x'.pipe.workers 0 = (x.pipe.workers 0).wrote a r
      (writeOutcome (L3.write m.config.aerospike x.store r).2))
    (hstore : x'.store = (L3.write m.config.aerospike x.store r).1)
    (hstats : x'.pipe.stats = x.pipe.stats) : Sequel m S₀ x' := by
  unfold Sequel at h
  rw [hp] at h
  obtain ⟨q, hat, hq⟩ := h
  have hone : At x' [Worker.writeTick (writeOutcome (L3.write m.config.aerospike x.store r).2)]
      (m.writeOne q r) := by
    rw [Migrator.writeOne, ← hat.store]
    refine ⟨hstore, by rw [hw]; exact hat.buffer, ?_⟩
    rw [hstats]
    exact hat.stats.record _
  rw [hq] at hone
  exact Sequel.report hw hone

/-- A sub-write of the flush has been answered. -/
theorem InFlush.answer {m : Migrator F} {x : Sys F} {q : Loop F} (h : InFlush m x q)
    {k : AerospikeKey} {r : AerospikeRecord F} (hr : x.replies 0 k = none)
    (hwin : winner m.config.aerospike (recordsOf q.buffer) k = some r) :
    InFlush m (x.answer m.config.aerospike 0 k r) q := by
  have hop : operate x.store k (opsFor r) (batchPolicy m.config.aerospike r) = _ :=
    operate_opsFor m.config.aerospike r rfl rfl x.store k
  have hstore : (x.answer m.config.aerospike 0 k r).store =
      Function.update x.store k (act m.config.aerospike r (x.store k)) := congrArg Prod.fst hop
  have hcode : (operate x.store k (opsFor r) (batchPolicy m.config.aerospike r)).2 =
      actCode m.config.aerospike (x.store k) := congrArg Prod.snd hop
  have hreplies : (x.answer m.config.aerospike 0 k r).replies 0 =
      Function.update (x.replies 0) k (some ⟨actCode m.config.aerospike (x.store k), false⟩) := by
    rw [← hcode]
    exact Function.update_self 0 (Function.update (x.replies 0) k _) x.replies
  refine ⟨h.buffer, h.stats, fun k' hnone => ?_, fun k' reply hsome => ?_⟩
  · rw [hreplies] at hnone
    by_cases hk : k' = k
    · subst hk; simp at hnone
    · rw [hstore, Function.update_of_ne hk]
      exact h.unanswered k' (by simpa [Function.update_of_ne hk] using hnone)
  · rw [hreplies] at hsome
    by_cases hk : k' = k
    · subst hk
      rw [Function.update_self] at hsome
      cases hsome
      rw [hstore, Function.update_self, h.unanswered k' hr, writeMany_store, ← winner_eq, hwin]
      exact ⟨rfl, rfl⟩
    · rw [hstore, Function.update_of_ne hk]
      exact h.answered k' reply (by simpa [Function.update_of_ne hk] using hsome)

/-- When all are answered, the store is that after the call, and the outcomes
are those of the call. -/
theorem InFlush.answered_all {m : Migrator F} {x : Sys F} {q : Loop F} (h : InFlush m x q)
    {replies : List Reply}
    (hr : (lastSlotForKey m.config.aerospike (recordsOf q.buffer)).keys.mapM (x.replies 0) =
      some replies) :
    x.store = (writeMany m.config.aerospike q.store (recordsOf q.buffer)).1 ∧
    batchResults m.config.aerospike (recordsOf q.buffer) replies =
      (writeMany m.config.aerospike q.store (recordsOf q.buffer)).2 := by
  constructor
  · funext k
    cases hk : x.replies 0 k with
    | none =>
      rw [h.unanswered k hk, writeMany_store, occurrences_unanswered hr hk]
      rfl
    | some reply => exact (h.answered k reply hk).2
  · have hreplies : replies =
        (lastSlotForKey m.config.aerospike (recordsOf q.buffer)).keys.map fun k =>
          ⟨actCode m.config.aerospike (q.store k), false⟩ :=
      Fallible.mapM_some_eq_map hr fun k reply hk => (h.answered k reply hk).1
    rw [hreplies, batchResults_eq, writeMany_results]
    simp only [batchReason_actCode]

/-- The flush is over. -/
theorem Sequel.many {m : Migrator F} {S₀ : Store F} {x x' : Sys F} (h : Sequel m S₀ x)
    {next : After} (hp : (x.pipe.workers 0).pc = .flush next) {replies : List Reply}
    (hr : (lastSlotForKey m.config.aerospike (recordsOf (x.pipe.workers 0).buffer)).keys.mapM
      (x.replies 0) = some replies)
    (hw : x'.pipe.workers 0 = (x.pipe.workers 0).flushed m.cfg next
      (.returned (batchResults m.config.aerospike (recordsOf (x.pipe.workers 0).buffer) replies)))
    (hstore : x'.store = x.store) (hstats : x'.pipe.stats = x.pipe.stats) : Sequel m S₀ x' := by
  unfold Sequel at h
  rw [hp] at h
  obtain ⟨q, hin, hq⟩ := h
  rw [hin.buffer] at hr
  obtain ⟨hall, hresults⟩ := hin.answered_all hr
  rw [Worker.flushed, hin.buffer, hresults] at hw
  refine Sequel.report hw ?_
  rw [← hq]
  refine ⟨hstore.trans hall, by rw [hw]; rfl, ?_⟩
  rw [hstats]
  exact hin.stats.foldl _

theorem Sequel.happens {m : Migrator F} (hret : TransformsReturn m) (hone : m.cfg.poolSize = 1)
    {S₀ : Store F} {src : List (RedisRecord F)} {x x' : Sys F} {e : Event F}
    (hx : (migration m S₀ src).Reachable x) (h : Sequel m S₀ x) (he : Happens m x e x') :
    Sequel m S₀ x' := by
  have hland := landed_reachable x hx
  have hidle : ∀ p, (x.pipe.workers 0).pc = p → (∀ next, p ≠ .flush next) →
      ∀ k, x.replies 0 k = none := by
    intro p hp hne
    refine hland.idle fun next hf => hne next ?_
    rw [← hp, hf]
  cases he with
  | @pipe l s hl hs =>
    cases hs with
    | scan hm hs => exact h.congr rfl rfl
    | sourceEnd hm hs => exact h.congr rfl rfl
    | sourceRaise hm => exact h.congr rfl rfl
    | put hm hf => exact h.congr rfl rfl
    | putStop hm hf => exact h.congr rfl rfl
    | join hm hp => exact h.congr rfl rfl
    | prepare hi hp => exact hl.elim
    | write hi hp => exact hl.elim
    | many hi hp => exact hl.elim
    | @getData i a rest hi hp hq =>
      obtain rfl : i = 0 := by omega
      unfold Sequel at h
      rw [hp] at h
      unfold Sequel
      simp only [St.setWorker, Function.update_self]
      exact ⟨h.store, by simpa using h.buffer, h.stats⟩
    | @getStop i rest hi hp hq =>
      obtain rfl : i = 0 := by omega
      unfold Sequel at h
      rw [hp] at h
      refine Sequel.leave (w := x.pipe.workers 0) (c := .stopped) (setWorker_self x.pipe 0 _)
        (hidle _ hp fun next hf => by cases hf) ?_
      exact ⟨h.store, by simpa [St.setWorker] using h.buffer, h.stats⟩
    | @count i t ts next hi hp =>
      obtain rfl : i = 0 := by omega
      unfold Sequel at h
      rw [hp] at h
      refine Sequel.report (w := x.pipe.workers 0) (setWorker_self x.pipe 0 _) ?_
      exact ⟨h.store, by simpa [St.setWorker] using h.buffer, h.stats⟩
  | @prepare i a hi hp =>
    obtain rfl : i = 0 := by omega
    exact h.prepare hret hp (setWorker_self ..) rfl rfl
      (hidle _ hp fun next hf => by cases hf)
  | @write i a r hi hp =>
    obtain rfl : i = 0 := by omega
    exact h.write hp (setWorker_self ..) rfl rfl
  | @sub i k r next hi hp hr hwin =>
    obtain rfl : i = 0 := by omega
    unfold Sequel at h ⊢
    rw [hp] at h
    obtain ⟨q, hin, hq⟩ := h
    simp only [Sys.answer, hp]
    rw [hin.buffer] at hwin
    exact ⟨q, hin.answer hr hwin, hq⟩
  | @many i next replies hi hp hr =>
    obtain rfl : i = 0 := by omega
    exact h.many hp hr (setWorker_self ..) rfl rfl

theorem sequel_reachable {m : Migrator F} (hret : TransformsReturn m) (hone : m.cfg.poolSize = 1)
    {S₀ : Store F} {src : List (RedisRecord F)} :
    ∀ x : Sys F, (migration m S₀ src).Reachable x → Sequel m S₀ x := by
  refine LTS.reachable_induction (fun x hx => ?_) fun x e x' hx ih hst =>
    ih.happens hret hone hx (step_happens hst)
  subst hx
  exact ⟨rfl, rfl, rfl⟩

/-! ## The end of a run -/

omit [PyFloat F] [OrderedLists F] in
theorem scanned_count (q : Loop F) (ticks : List Tick) :
    (q.count ticks).stats.scanned = q.stats.scanned := by
  unfold Loop.count
  generalize q.stats = s
  induction ticks generalizing s with
  | nil => rfl
  | cons t ts ih => exact (ih (s.record t)).trans (MigrationStats.scanned_record s t)

theorem scanned_flush (m : Migrator F) (q : Loop F) :
    (m.flush q).stats.scanned = q.stats.scanned := scanned_count _ _

theorem scanned_pass (m : Migrator F) (q : Loop F) (a : RedisRecord F) :
    (m.pass q a).stats.scanned = q.stats.scanned + 1 := by
  unfold Migrator.pass
  cases m.prepare a with
  | skipped reason => exact scanned_count _ _
  | failed reason => exact scanned_count _ _
  | raised exc => rfl
  | record r =>
    dsimp only
    split
    · exact scanned_count _ _
    · split
      · exact scanned_flush m _
      · rfl

theorem scanned_sequential (m : Migrator F) (S₀ : Store F) (src : List (RedisRecord F)) :
    (m.sequential S₀ src).stats.scanned = src.length := by
  have hloop : (m.loop S₀ src).stats.scanned = src.length := by
    induction src using List.reverseRecOn with
    | nil => rfl
    | append_singleton as a ih => rw [loop_append, scanned_pass, ih]; simp
  unfold Migrator.sequential Migrator.finish
  split
  · exact hloop
  · rw [scanned_flush, hloop]

theorem SameTicks.eq {s t : MigrationStats} (h : SameTicks s t) (hs : s.scanned = t.scanned) :
    s = t := by
  cases s
  cases t
  simp_all [SameTicks]

/-- **One worker.** A run with one worker leaves the store and the statistics
that the program without threads leaves of the records scanned, whatever the
queue and the batches, in every policy and also when the source raises. -/
theorem runs_in_order {m : Migrator F} (hret : TransformsReturn m) (hone : m.config.workers ≤ 1)
    {S₀ : Store F} {src : List (RedisRecord F)} {x : Sys F}
    (h : (migration m S₀ src).Reachable x) (hd : x.pipe.main = .done) :
    x.store = (m.sequential S₀ x.pipe.seen).store ∧
    x.pipe.stats = (m.sequential S₀ x.pipe.seen).stats ∧
    (x.pipe.raised = false → x.pipe.seen = src) := by
  have hpool : m.cfg.poolSize = 1 := by
    unfold Cfg.poolSize Migrator.cfg
    dsimp only
    omega
  have hopen := (pipe_reachable h).of_restrict
  have hord := order_reachable _ hopen
  obtain ⟨c, hp⟩ := (joined_reachable _ hopen).done hd 0 m.cfg.poolSize_pos
  -- all that was scanned, the worker has prepared
  have hall : (x.pipe.workers 0).outs.map Prod.fst = x.pipe.seen := by
    have htags : Pool.tagged x.pipe.taken 0 = x.pipe.taken.map Prod.snd := by
      rw [Pool.tagged, List.filter_eq_self.2]
      intro p hmem
      have := hord.tags p hmem
      simp only [decide_eq_true_eq]
      omega
    rw [← taken_of_done hret h hd, ← htags, hord.history 0]
    simp [Worker.item, hp]
  have hat := sequel_reachable hret hpool x h
  unfold Sequel at hat
  rw [hp, hall] at hat
  refine ⟨hat.store, SameTicks.eq hat.stats ?_, seen_of_full hopen hd⟩
  rw [scanned_sequential]
  exact (tallied_reachable _ hopen).2

end

/-- Batches of two, one worker. -/
def pairs : Migrator String := ⟨{ workers := 1, queueSize := 0, writeBatchSize := 2 }, .fromConfig {}, []⟩

/-- Two letters in one batch, answered the other way round, and one that is
left. -/
theorem runs_in_order_batches :
    ∃ x, (migration pairs (fun _ => none) [letter "a", letter "b", letter "c"]).Reachable x ∧
      x.store = (pairs.sequential (fun _ => none) [letter "a", letter "b", letter "c"]).store ∧
      x.pipe.stats = (pairs.sequential (fun _ => none) [letter "a", letter "b", letter "c"]).stats := by
  obtain ⟨x, hx, hd, hr⟩ : ∃ x, (migration pairs (fun _ => none)
      [letter "a", letter "b", letter "c"]).Reachable x ∧ x.pipe.main = .done ∧
        x.pipe.raised = false := by
    apply Exists.intro
    refine ⟨⟨_, [.pipe .scan, .pipe .put, .pipe (.get 0), .prepare 0, .pipe .scan, .pipe .put,
      .pipe (.get 0), .prepare 0, .sub 0 ("test", "redis", .str "b"),
      .sub 0 ("test", "redis", .str "a"), .many 0, .pipe .scan, .pipe .put, .pipe .sourceEnd,
      .pipe .putStop, .pipe (.count 0), .pipe (.count 0), .pipe (.get 0), .prepare 0,
      .pipe (.get 0), .sub 0 ("test", "redis", .str "c"), .many 0, .pipe (.count 0), .pipe .join],
      rfl, LTS.run_of_exec (fun _ _ _ h => h) rfl⟩, rfl, rfl⟩
  obtain ⟨hstore, hstats, hseen⟩ := runs_in_order (fun _ ht => by cases ht) (by decide) hx hd
  rw [hseen hr] at hstore hstats
  exact ⟨x, hx, hstore, hstats⟩

end RedisToAerospike.L5
