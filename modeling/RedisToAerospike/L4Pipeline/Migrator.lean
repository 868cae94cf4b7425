import RedisToAerospike.Core.LTS
import RedisToAerospike.L3Place.Prepare
import RedisToAerospike.L4Pipeline.Stats
import Mathlib.Logic.Function.Basic

/-!
# The pipeline (`migrator.py`)

One producer, a bounded FIFO queue and `W` workers, as a step relation: every
step is one access to shared state (the source, the queue, the sink, the
statistics) by one thread. What the converters and transforms make of a
record, what the sink answers and when the source raises are labels, so the
machine takes any of them.

`α` are the source's records and `R` the prepared ones. The fields from
`seen` on, and the history of each worker, are ghosts: no step reads them.

* `step`: the machine; `Move` its moves, one constructor each (`step_move`).
* `Allowed`, `machine`: the machine against a given environment.
-/
namespace RedisToAerospike.L4
open L3

/-- The settings of a run. -/
structure Cfg where
  workers : Int
  queueSize : Int
  writeBatchSize : Int
  createOnly : Bool

/-- `max(1, config.workers)` -/
def Cfg.poolSize (cfg : Cfg) : Nat := (max 1 cfg.workers).toNat

/-- `max(1, config.write_batch_size)` -/
def Cfg.batchSize (cfg : Cfg) : Nat := (max 1 cfg.writeBatchSize).toNat

theorem Cfg.poolSize_pos (cfg : Cfg) : 0 < cfg.poolSize := by unfold poolSize; omega

theorem Cfg.batchSize_pos (cfg : Cfg) : 0 < cfg.batchSize := by unfold batchSize; omega

/-- An element of the queue: a record or `_STOP`. -/
inductive Item (α : Type) where
  | data (a : α)
  | stop
  deriving DecidableEq

/-- Why a worker is out of its loop. -/
inductive Cause where
  | stopped
  | crashed
  deriving DecidableEq

/-- Where a flush goes on: in the loop, or out of the worker. -/
inductive After where
  | loop
  | leave (c : Cause)
  deriving DecidableEq

/-- What `sink.write` does. -/
inductive WriteOutcome where
  | written
  | alreadyExists
  | raised (name : String)
  deriving DecidableEq

/-- What `sink.write_many` does. -/
inductive ManyOutcome where
  | returned (results : List (Option String))
  | raised (name : String)
  deriving DecidableEq

/-- Where a worker stands: at `queue.get`, with a record to prepare, before
`sink.write`, before `sink.write_many`, with counts to make, or gone. -/
inductive Pc (α R : Type) where
  | get
  | item (a : α)
  | write (a : α) (r : R)
  | flush (next : After)
  | report (tick : Tick) (ticks : List Tick) (next : After)
  | exited (c : Cause)

structure Worker (α R : Type) where
  pc : Pc α R := .get
  buffer : List (α × R) := []
  outs : List (α × Prepared R) := []
  calls : List (List (α × R)) := []

/-- Where `run` stands: at the source, at `queue.put`, with `_STOP`s to put,
joining a worker, or finished. -/
inductive Main (α : Type) where
  | next
  | put (a : α)
  | stop (left : Nat)
  | join (i : Nat)
  | done
  deriving DecidableEq

structure St (α R : Type) where
  src : List α
  main : Main α := .next
  raised : Bool := false
  queue : List (Item α) := []
  workers : Nat → Worker α R := fun _ => {}
  stats : MigrationStats := {}
  seen : List α := []
  taken : List (Nat × α) := []

inductive Label (R : Type) where
  | scan
  | sourceEnd
  | sourceRaise
  | put
  | putStop
  | join
  | get (i : Nat)
  | prepare (i : Nat) (out : Prepared R)
  | write (i : Nat) (out : WriteOutcome)
  | many (i : Nat) (out : ManyOutcome)
  | count (i : Nat)

section
variable {α R : Type}

/-- `queue.Queue(maxsize)`: a size of 0 or below is no bound. -/
def Full (cfg : Cfg) (s : St α R) : Prop := 0 < cfg.queueSize ∧ cfg.queueSize ≤ s.queue.length

instance (cfg : Cfg) (s : St α R) : Decidable (Full cfg s) :=
  inferInstanceAs (Decidable (_ ∧ _))

/-! ## One worker -/

namespace Worker

/-- The outer `finally`: flush what is left, then the thread ends. -/
def leave (w : Worker α R) (c : Cause) : Worker α R :=
  { w with pc := if w.buffer.isEmpty then .exited c else .flush (.leave c) }

/-- The counts that follow a call, and where the worker is after them. -/
def report (w : Worker α R) (ticks : List Tick) (next : After) : Worker α R :=
  { w with
    pc := match ticks, next with
      | t :: ts, next => .report t ts next
      | [], .loop => .get
      | [], .leave c => .exited c }

/-- The body of the loop from `_prepare` on.
mirrors src/redis_to_aerospike/migrator.py:129-141, 145-185 -/
def prepared (cfg : Cfg) (w : Worker α R) (a : α) (out : Prepared R) : Worker α R :=
  let w := { w with outs := w.outs ++ [(a, out)] }
  match out with
  | .skipped reason => w.report [.skipped reason] .loop
  | .failed reason => w.report [.error reason] .loop
  | .raised _ => w.leave .crashed
  | .record r =>
    if cfg.batchSize ≤ 1 then { w with pc := .write a r }
    else
      { w with
        buffer := w.buffer ++ [(a, r)]
        pc := if cfg.batchSize ≤ (w.buffer ++ [(a, r)]).length then .flush .loop else .get }

/-- mirrors src/redis_to_aerospike/migrator.py:187-201 -/
def writeTick : WriteOutcome → Tick
  | .written => .migrated
  | .alreadyExists => .skipped "exists"
  | .raised name => .error ("write:" ++ name)

def wrote (w : Worker α R) (a : α) (r : R) (out : WriteOutcome) : Worker α R :=
  { w with calls := w.calls ++ [[(a, r)]] }.report [writeTick out] .loop

/-- One position of a batch.
mirrors src/redis_to_aerospike/migrator.py:221-232 -/
def batchTick (cfg : Cfg) : Option String → Tick
  | none => .migrated
  | some outcome =>
    if cfg.createOnly ∧ outcome = "RecordExists" then .skipped "exists"
    else .error ("write:" ++ outcome)

/-- The counts of a flush: every record of a failed batch, or the positions
of `zip(buffer, results)`. -/
def manyTicks (cfg : Cfg) (buffer : List (α × R)) : ManyOutcome → List Tick
  | .raised name => buffer.map fun _ => .error ("write:" ++ name)
  | .returned results => (buffer.zip results).map fun p => batchTick cfg p.2

/-- mirrors src/redis_to_aerospike/migrator.py:203-232; the buffer is reset
or dropped when the flush is over. -/
def flushed (cfg : Cfg) (w : Worker α R) (next : After) (out : ManyOutcome) : Worker α R :=
  { w with calls := w.calls ++ [w.buffer], buffer := [] }.report (manyTicks cfg w.buffer out) next

end Worker

/-! ## The machine -/

def St.setWorker (s : St α R) (i : Nat) (w : Worker α R) : St α R :=
  { s with workers := Function.update s.workers i w }

/-- After a `_STOP` has been put, with `n` left. -/
def afterStop (n : Nat) : Main α := if n = 0 then .join 0 else .stop n

/-- mirrors src/redis_to_aerospike/migrator.py:87-143 -/
def step (cfg : Cfg) (s : St α R) : Label R → Option (St α R)
  | .scan =>
    match s.main, s.src with
    | .next, a :: rest =>
      some { s with src := rest, main := .put a, stats := s.stats.recordScanned,
                    seen := s.seen ++ [a] }
    | _, _ => none
  | .sourceEnd =>
    match s.main, s.src with
    | .next, [] => some { s with main := .stop cfg.poolSize }
    | _, _ => none
  | .sourceRaise =>
    match s.main with
    | .next => some { s with main := .stop cfg.poolSize, raised := true }
    | _ => none
  | .put =>
    match s.main with
    | .put a =>
      if Full cfg s then none else some { s with main := .next, queue := s.queue ++ [.data a] }
    | _ => none
  | .putStop =>
    match s.main with
    | .stop (n + 1) =>
      if Full cfg s then none
      else some { s with main := afterStop n, queue := s.queue ++ [.stop] }
    | _ => none
  | .join =>
    match s.main with
    | .join i =>
      match (s.workers i).pc with
      | .exited _ => some { s with main := if i + 1 < cfg.poolSize then .join (i + 1) else .done }
      | _ => none
    | _ => none
  | .get i =>
    if i < cfg.poolSize then
      match (s.workers i).pc, s.queue with
      | .get, .data a :: rest =>
        some { s.setWorker i { s.workers i with pc := .item a } with
               queue := rest, taken := s.taken ++ [(i, a)] }
      | .get, .stop :: rest =>
        some { s.setWorker i ((s.workers i).leave .stopped) with queue := rest }
      | _, _ => none
    else none
  | .prepare i out =>
    if i < cfg.poolSize then
      match (s.workers i).pc with
      | .item a => some (s.setWorker i ((s.workers i).prepared cfg a out))
      | _ => none
    else none
  | .write i out =>
    if i < cfg.poolSize then
      match (s.workers i).pc with
      | .write a r => some (s.setWorker i ((s.workers i).wrote a r out))
      | _ => none
    else none
  | .many i out =>
    if i < cfg.poolSize then
      match (s.workers i).pc with
      | .flush next => some (s.setWorker i ((s.workers i).flushed cfg next out))
      | _ => none
    else none
  | .count i =>
    if i < cfg.poolSize then
      match (s.workers i).pc with
      | .report t ts next =>
        some { s.setWorker i ((s.workers i).report ts next) with stats := s.stats.record t }
      | _ => none
    else none

/-- The moves of the machine. -/
inductive Move (cfg : Cfg) (s : St α R) : Label R → St α R → Prop
  | scan {a : α} {rest : List α} : s.main = .next → s.src = a :: rest →
      Move cfg s .scan { s with src := rest, main := .put a, stats := s.stats.recordScanned,
                                seen := s.seen ++ [a] }
  | sourceEnd : s.main = .next → s.src = [] →
      Move cfg s .sourceEnd { s with main := .stop cfg.poolSize }
  | sourceRaise : s.main = .next →
      Move cfg s .sourceRaise { s with main := .stop cfg.poolSize, raised := true }
  | put {a : α} : s.main = .put a → ¬ Full cfg s →
      Move cfg s .put { s with main := .next, queue := s.queue ++ [.data a] }
  | putStop {n : Nat} : s.main = .stop (n + 1) → ¬ Full cfg s →
      Move cfg s .putStop { s with main := afterStop n, queue := s.queue ++ [.stop] }
  | join {i : Nat} {c : Cause} : s.main = .join i → (s.workers i).pc = .exited c →
      Move cfg s .join { s with main := if i + 1 < cfg.poolSize then .join (i + 1) else .done }
  | getData {i : Nat} {a : α} {rest : List (Item α)} : i < cfg.poolSize →
      (s.workers i).pc = .get → s.queue = .data a :: rest →
      Move cfg s (.get i) { s.setWorker i { s.workers i with pc := .item a } with
                            queue := rest, taken := s.taken ++ [(i, a)] }
  | getStop {i : Nat} {rest : List (Item α)} : i < cfg.poolSize →
      (s.workers i).pc = .get → s.queue = .stop :: rest →
      Move cfg s (.get i) { s.setWorker i ((s.workers i).leave .stopped) with queue := rest }
  | prepare {i : Nat} {a : α} {out : Prepared R} : i < cfg.poolSize →
      (s.workers i).pc = .item a →
      Move cfg s (.prepare i out) (s.setWorker i ((s.workers i).prepared cfg a out))
  | write {i : Nat} {a : α} {r : R} {out : WriteOutcome} : i < cfg.poolSize →
      (s.workers i).pc = .write a r →
      Move cfg s (.write i out) (s.setWorker i ((s.workers i).wrote a r out))
  | many {i : Nat} {next : After} {out : ManyOutcome} : i < cfg.poolSize →
      (s.workers i).pc = .flush next →
      Move cfg s (.many i out) (s.setWorker i ((s.workers i).flushed cfg next out))
  | count {i : Nat} {t : Tick} {ts : List Tick} {next : After} : i < cfg.poolSize →
      (s.workers i).pc = .report t ts next →
      Move cfg s (.count i) { s.setWorker i ((s.workers i).report ts next) with
                              stats := s.stats.record t }

theorem step_move {cfg : Cfg} {s s' : St α R} {l : Label R} (h : step cfg s l = some s') :
    Move cfg s l s' := by
  cases l with
  | scan =>
    simp only [step] at h
    split at h
    · rename_i hm hs; cases h; exact .scan hm hs
    · cases h
  | sourceEnd =>
    simp only [step] at h
    split at h
    · rename_i hm hs; cases h; exact .sourceEnd hm hs
    · cases h
  | sourceRaise =>
    simp only [step] at h
    split at h
    · rename_i hm; cases h; exact .sourceRaise hm
    · cases h
  | put =>
    simp only [step] at h
    split at h
    · rename_i hm
      split at h
      · cases h
      · rename_i hf; cases h; exact .put hm hf
    · cases h
  | putStop =>
    simp only [step] at h
    split at h
    · rename_i hm
      split at h
      · cases h
      · rename_i hf; cases h; exact .putStop hm hf
    · cases h
  | join =>
    simp only [step] at h
    split at h
    · rename_i hm
      split at h
      · rename_i hp; cases h; exact .join hm hp
      · cases h
    · cases h
  | get i =>
    simp only [step] at h
    split at h
    · rename_i hi
      split at h
      · rename_i hp hq; cases h; exact .getData hi hp hq
      · rename_i hp hq; cases h; exact .getStop hi hp hq
      · cases h
    · cases h
  | prepare i out =>
    simp only [step] at h
    split at h
    · rename_i hi
      split at h
      · rename_i hp; cases h; exact .prepare hi hp
      · cases h
    · cases h
  | write i out =>
    simp only [step] at h
    split at h
    · rename_i hi
      split at h
      · rename_i hp; cases h; exact .write hi hp
      · cases h
    · cases h
  | many i out =>
    simp only [step] at h
    split at h
    · rename_i hi
      split at h
      · rename_i hp; cases h; exact .many hi hp
      · cases h
    · cases h
  | count i =>
    simp only [step] at h
    split at h
    · rename_i hi
      split at h
      · rename_i hp; cases h; exact .count hi hp
      · cases h
    · cases h

theorem move_step {cfg : Cfg} {s s' : St α R} {l : Label R} (h : Move cfg s l s') :
    step cfg s l = some s' := by
  cases h with
  | scan hm hs => simp only [step, hm, hs]
  | sourceEnd hm hs => simp only [step, hm, hs]
  | sourceRaise hm => simp only [step, hm]
  | put hm hf => simp only [step, hm, if_neg hf]
  | putStop hm hf => simp only [step, hm, if_neg hf]
  | join hm hp => simp only [step, hm, hp]
  | getData hi hp hq => simp only [step, if_pos hi, hp, hq]
  | getStop hi hp hq => simp only [step, if_pos hi, hp, hq]
  | prepare hi hp => simp only [step, if_pos hi, hp]
  | write hi hp => simp only [step, if_pos hi, hp]
  | many hi hp => simp only [step, if_pos hi, hp]
  | count hi hp => simp only [step, if_pos hi, hp]

/-- The state before a run over `src`. -/
def St.start (src : List α) : St α R := { src }

/-- The pipeline, with any outcome of any call. -/
def pipeline (cfg : Cfg) (src : List α) : LTS (St α R) (Label R) :=
  .ofFn (· = .start src) (step cfg)

/-! ## Environments -/

/-- What the converters and transforms make of a record, and what the sink
may do with one; every call does something. -/
structure Env (α R : Type) where
  prepares : α → Prepared R → Prop
  writes : α → R → WriteOutcome → Prop
  writesMany : List (α × R) → ManyOutcome → Prop
  prepares_total : ∀ a, ∃ out, prepares a out
  writes_total : ∀ a r, ∃ out, writes a r out
  writesMany_total : ∀ b, ∃ out, writesMany b out

/-- The environment may answer the step as its label says. -/
def Env.Allows (env : Env α R) (s : St α R) : Label R → Prop
  | .prepare i out => ∃ a, (s.workers i).pc = .item a ∧ env.prepares a out
  | .write i out => ∃ a r, (s.workers i).pc = .write a r ∧ env.writes a r out
  | .many i out => env.writesMany (s.workers i).buffer out
  | _ => True

/-- The pipeline against an environment. -/
def machine (cfg : Cfg) (env : Env α R) (src : List α) : LTS (St α R) (Label R) :=
  (pipeline cfg src).restrict env.Allows

end

end RedisToAerospike.L4
