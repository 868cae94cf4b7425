import RedisToAerospike.L3Sink.WriteMany
import RedisToAerospike.L4Pipeline.Progress

/-!
# The migration: pipeline, sink and store

The machine of `L4Pipeline` with the code's own `_prepare` and sink in place
of its labels, against one server that answers every call. The server takes
the sub-commands of a batch one at a time, in any order and between the calls
of other workers (`Label.sub`); `write_many` returns when all are answered.

The `log` is a ghost: the writes the server has taken, with the workers that
sent them.

* `step`, `Move`, `step_move`: the system and its moves.
* `projection`: the pipeline of a migration is the machine of `L4Pipeline`
  against the environment of the code.
-/
namespace RedisToAerospike.L5
open L1 L2 L3 L4

/-- mirrors src/redis_to_aerospike/migrator.py:55-85 -/
structure Migrator (F : Type) [PyFloat F] where
  config : MigrationConfig
  registry : ConverterRegistry F
  transforms : List (Transform F)

section
variable {F : Type} [PyFloat F]

namespace Migrator

/-- `_prepare` -/
def prepare (m : Migrator F) (a : RedisRecord F) : Prepared (AerospikeRecord F) :=
  L3.prepare m.config m.registry m.transforms a

/-- The settings of the pipeline. -/
def cfg (m : Migrator F) : Cfg where
  workers := m.config.workers
  queueSize := m.config.queueSize
  writeBatchSize := m.config.writeBatchSize
  createOnly := decide (m.config.aerospike.recordExistsPolicy = .createOnly)

/-- What the code makes of a record, and that `write_many` answers for each
of its records. -/
def env (m : Migrator F) : Env (RedisRecord F) (AerospikeRecord F) where
  prepares a out := out = m.prepare a
  writes _ _ _ := True
  writesMany b out := ∃ results, out = .returned results ∧ results.length = b.length
  prepares_total a := ⟨m.prepare a, rfl⟩
  writes_total _ _ := ⟨.written, trivial⟩
  writesMany_total b := ⟨.returned (b.map fun _ => none), _, rfl, List.length_map _⟩

end Migrator

abbrev PipeSt (F : Type) := St (RedisRecord F) (AerospikeRecord F)

/-- `replies i k` is the answer to the sub-command for `k` of the batch that
worker `i` has sent. -/
structure Sys (F : Type) where
  pipe : PipeSt F
  store : Store F
  replies : Nat → AerospikeKey → Option Reply := fun _ _ => none
  log : List (Nat × AerospikeRecord F) := []

/-- `pipe` are the steps of the pipeline that call neither `_prepare` nor the
sink. -/
inductive Event (F : Type) where
  | pipe (l : Label (AerospikeRecord F))
  | prepare (i : Nat)
  | write (i : Nat)
  | sub (i : Nat) (k : AerospikeKey)
  | many (i : Nat)

/-- Steps with no call in them. -/
def Callless : Label (AerospikeRecord F) → Prop
  | .prepare _ _ => False
  | .write _ _ => False
  | .many _ _ => False
  | _ => True

instance (l : Label (AerospikeRecord F)) : Decidable (Callless l) :=
  match l with
  | .prepare _ _ | .write _ _ | .many _ _ => isFalse id
  | .scan | .sourceEnd | .sourceRaise | .put | .putStop | .join | .get _ | .count _ =>
    isTrue trivial

/-- The records of a buffer, `[record for record, _ in buffer]`. -/
def recordsOf (buffer : List (RedisRecord F × AerospikeRecord F)) : List (AerospikeRecord F) :=
  buffer.map Prod.snd

/-- What the pipeline sees of a `write`. -/
def writeOutcome : Except WriteError Unit → WriteOutcome
  | .ok () => .written
  | .error .recordAlreadyExists => .alreadyExists
  | .error e => .raised e.name

/-- A write that leaves the process: of a record that is not oversized. -/
def sent (config : AerospikeConfig) (i : Nat) (r : AerospikeRecord F) :
    List (Nat × AerospikeRecord F) :=
  match keyOf config r with
  | some _ => [(i, r)]
  | none => []

variable [OrderedLists F]

omit [PyFloat F] in
/-- The server takes the sub-command for `k` of worker `i`'s batch. -/
def Sys.answer (x : Sys F) (config : AerospikeConfig) (i : Nat) (k : AerospikeKey)
    (r : AerospikeRecord F) : Sys F :=
  let w := batchCommand config k r
  let call := operate x.store w.key w.ops w.policy
  { x with
    store := call.1
    replies := Function.update x.replies i
      (Function.update (x.replies i) k (some ⟨call.2, false⟩))
    log := x.log ++ [(i, r)] }

/-- The pipeline goes on, with all else as it was. -/
def Migrator.onPipe (m : Migrator F) (x : Sys F) (l : Label (AerospikeRecord F)) : Option (Sys F) :=
  (L4.step m.cfg x.pipe l).map fun s => { x with pipe := s }

/-- What happens at an event, `none` where it cannot happen. -/
def Migrator.step (m : Migrator F) (x : Sys F) : Event F → Option (Sys F)
  | .pipe l => if Callless l then m.onPipe x l else none
  | .prepare i =>
    match (x.pipe.workers i).pc with
    | .item a => m.onPipe x (.prepare i (m.prepare a))
    | _ => none
  | .write i =>
    match (x.pipe.workers i).pc with
    | .write _ r =>
      let call := write m.config.aerospike x.store r
      m.onPipe { x with store := call.1, log := x.log ++ sent m.config.aerospike i r }
        (.write i (writeOutcome call.2))
    | _ => none
  | .sub i k =>
    if i < m.cfg.poolSize then
      match (x.pipe.workers i).pc, x.replies i k,
          winner m.config.aerospike (recordsOf (x.pipe.workers i).buffer) k with
      | .flush _, none, some r => some (x.answer m.config.aerospike i k r)
      | _, _, _ => none
    else none
  | .many i =>
    let records := recordsOf (x.pipe.workers i).buffer
    match (lastSlotForKey m.config.aerospike records).keys.mapM (x.replies i) with
    | some replies =>
      m.onPipe { x with replies := Function.update x.replies i fun _ => none }
        (.many i (.returned (batchResults m.config.aerospike records replies)))
    | none => none

/-- The events that can happen, with what they do. -/
inductive Happens (m : Migrator F) (x : Sys F) : Event F → Sys F → Prop
  | pipe {l : Label (AerospikeRecord F)} {s : PipeSt F} : Callless l → Move m.cfg x.pipe l s →
      Happens m x (.pipe l) { x with pipe := s }
  | prepare {i : Nat} {a : RedisRecord F} : i < m.cfg.poolSize →
      (x.pipe.workers i).pc = .item a →
      Happens m x (.prepare i)
        { x with pipe := x.pipe.setWorker i
                   ((x.pipe.workers i).prepared m.cfg a (m.prepare a)) }
  | write {i : Nat} {a : RedisRecord F} {r : AerospikeRecord F} : i < m.cfg.poolSize →
      (x.pipe.workers i).pc = .write a r →
      Happens m x (.write i)
        { x with pipe := x.pipe.setWorker i ((x.pipe.workers i).wrote a r
                   (writeOutcome (write m.config.aerospike x.store r).2))
                 store := (write m.config.aerospike x.store r).1
                 log := x.log ++ sent m.config.aerospike i r }
  | sub {i : Nat} {k : AerospikeKey} {r : AerospikeRecord F} {next : After} :
      i < m.cfg.poolSize → (x.pipe.workers i).pc = .flush next → x.replies i k = none →
      winner m.config.aerospike (recordsOf (x.pipe.workers i).buffer) k = some r →
      Happens m x (.sub i k) (x.answer m.config.aerospike i k r)
  | many {i : Nat} {next : After} {replies : List Reply} : i < m.cfg.poolSize →
      (x.pipe.workers i).pc = .flush next →
      (lastSlotForKey m.config.aerospike (recordsOf (x.pipe.workers i).buffer)).keys.mapM
        (x.replies i) = some replies →
      Happens m x (.many i)
        { x with pipe := x.pipe.setWorker i ((x.pipe.workers i).flushed m.cfg next
                   (.returned (batchResults m.config.aerospike
                     (recordsOf (x.pipe.workers i).buffer) replies)))
                 replies := Function.update x.replies i fun _ => none }

omit [OrderedLists F] in
theorem onPipe_move {m : Migrator F} {x x' : Sys F} {l : Label (AerospikeRecord F)}
    (h : m.onPipe x l = some x') : ∃ s, Move m.cfg x.pipe l s ∧ x' = { x with pipe := s } := by
  obtain ⟨s, hs, rfl⟩ := Option.map_eq_some_iff.1 h
  exact ⟨s, step_move hs, rfl⟩

theorem step_happens {m : Migrator F} {x x' : Sys F} {e : Event F} (h : m.step x e = some x') :
    Happens m x e x' := by
  cases e with
  | pipe l =>
    simp only [Migrator.step] at h
    split at h
    · rename_i hl
      obtain ⟨s, hs, rfl⟩ := onPipe_move h
      exact .pipe hl hs
    · cases h
  | prepare i =>
    simp only [Migrator.step] at h
    split at h
    · rename_i a hp
      obtain ⟨s, hs, rfl⟩ := onPipe_move h
      cases hs with
      | prepare hi hp' => cases hp.symm.trans hp'; exact .prepare hi hp
    · cases h
  | write i =>
    simp only [Migrator.step] at h
    split at h
    · rename_i a r hp
      obtain ⟨s, hs, rfl⟩ := onPipe_move h
      cases hs with
      | write hi hp' => cases hp.symm.trans hp'; exact .write hi hp
    · cases h
  | sub i k =>
    simp only [Migrator.step] at h
    split at h
    · rename_i hi
      split at h
      · rename_i hp hr hw; cases h; exact .sub hi hp hr hw
      · cases h
    · cases h
  | many i =>
    simp only [Migrator.step] at h
    split at h
    · rename_i replies hr
      obtain ⟨s, hs, rfl⟩ := onPipe_move h
      cases hs with
      | many hi hp => exact .many hi hp hr
    · cases h

theorem happens_step {m : Migrator F} {x x' : Sys F} {e : Event F} (h : Happens m x e x') :
    m.step x e = some x' := by
  cases h with
  | pipe hl hs =>
    simp only [Migrator.step, if_pos hl, Migrator.onPipe, move_step hs, Option.map_some]
  | prepare hi hp =>
    simp only [Migrator.step, hp, Migrator.onPipe, move_step (.prepare hi hp), Option.map_some]
  | write hi hp =>
    simp only [Migrator.step, hp, Migrator.onPipe, move_step (.write hi hp), Option.map_some]
  | sub hi hp hr hw => simp only [Migrator.step, if_pos hi, hp, hr, hw]
  | many hi hp hr =>
    simp only [Migrator.step, hr, Migrator.onPipe, move_step (.many hi hp), Option.map_some]

/-- A migration of `src` into `S₀`. -/
def migration (m : Migrator F) (S₀ : Store F) (src : List (RedisRecord F)) : LTS (Sys F) (Event F) :=
  .ofFn (· = { pipe := .start src, store := S₀ }) m.step

/-- The move of the pipeline behind an event, if there is one. -/
theorem Happens.move {m : Migrator F} {x x' : Sys F} {e : Event F} (h : Happens m x e x') :
    x'.pipe = x.pipe ∨ ∃ l, m.env.Allows x.pipe l ∧ Move m.cfg x.pipe l x'.pipe := by
  cases h with
  | @pipe l s hl hs =>
    refine .inr ⟨l, ?_, hs⟩
    cases l <;> trivial
  | @prepare i a hi hp => exact .inr ⟨.prepare i _, ⟨a, hp, rfl⟩, .prepare hi hp⟩
  | @write i a r hi hp => exact .inr ⟨.write i _, ⟨a, r, hp, trivial⟩, .write hi hp⟩
  | sub hi hp hr hw => exact .inl rfl
  | @many i next replies hi hp hr =>
    exact .inr ⟨.many i (.returned _), ⟨_, rfl, by simp [batchResults, recordsOf]⟩, .many hi hp⟩

theorem projection (m : Migrator F) (S₀ : Store F) (src : List (RedisRecord F)) :
    LTS.Projection (migration m S₀ src) (machine m.cfg m.env src) Sys.pipe where
  init x hx := by subst hx; rfl
  step x e x' _ hst := by
    rcases (step_happens hst).move with he | ⟨l, hok, hm⟩
    · exact .inl he
    · exact .inr ⟨l, hok, move_step hm⟩

theorem pipe_reachable {m : Migrator F} {S₀ : Store F} {src : List (RedisRecord F)} {x : Sys F}
    (h : (migration m S₀ src).Reachable x) : (machine m.cfg m.env src).Reachable x.pipe :=
  (projection m S₀ src).reachable x h

end

end RedisToAerospike.L5
