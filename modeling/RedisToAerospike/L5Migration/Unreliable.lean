import RedisToAerospike.L4Pipeline.Settled
import RedisToAerospike.L4Pipeline.Termination
import RedisToAerospike.L5Migration.Report
import RedisToAerospike.L5Migration.Resume
import RedisToAerospike.L5Migration.Safety

/-!
# A server that loses calls and answers

A call may time out. Its write has then been done, or not, or it is still on
the way; the client may have sent it more than once. So copies of a write that
is being made may go astray at any time (`stray`), and a copy may land at any
later moment, again and again, also in a later run (`land`). `write` raises
(`fail`), single records of a batch are refused (`refuse`), or `batch_write`
raises with part of the batch done (`failMany`). What is relied on is that the
server has taken what it confirms.

* `Net`, `Migrator.netStep`: the migration with these events.
* `Acked`, `Tracked`: what is confirmed is in the log, and the log is what the
  store has been through.
* `no_silent_loss`: in the end no more records are missing than the report has
  errors.
-/
namespace RedisToAerospike.L5
open L1 L2 L3 L4

section
variable {F : Type}

/-- A migration, with the copies of writes that are on their way. -/
structure Net (F : Type) where
  sys : Sys F
  inFlight : List (Nat × AerospikeRecord F) := []

inductive Fault (F : Type) where
  | event (e : Event F)
  | stray (i : Nat) (k : AerospikeKey)
  | land (n : Nat)
  | fail (i : Nat) (name : String)
  | refuse (i : Nat) (k : AerospikeKey) (reply : Reply)
  | failMany (i : Nat) (name : String)

/-- The reply to a sub-command that may not have been done. -/
def Bad (reply : Reply) : Prop :=
  reply.result ≠ RESULT_OK ∧ reply.result ∉ recordExistsErrorCodes

instance (reply : Reply) : Decidable (Bad reply) := inferInstanceAs (Decidable (_ ∧ _))

/-- The record that worker `i` is sending to `k`. -/
def Sys.sending (x : Sys F) (config : AerospikeConfig) (i : Nat) (k : AerospikeKey) :
    Option (AerospikeRecord F) :=
  match (x.pipe.workers i).pc with
  | .write _ r => if keyOf config r = some k then some r else none
  | .flush _ => winner config (recordsOf (x.pipe.workers i).buffer) k
  | _ => none

variable [PyFloat F]

theorem prepare_total (m : Migrator F) (a : RedisRecord F) : ∃ out, out = m.prepare a := ⟨_, rfl⟩

omit [PyFloat F] in
theorem write_total (_ : RedisRecord F) (_ : AerospikeRecord F) : ∃ _out : WriteOutcome, True :=
  ⟨.written, trivial⟩

omit [PyFloat F] in
theorem writeMany_total (b : List (RedisRecord F × AerospikeRecord F)) :
    ∃ out : ManyOutcome, ∀ results, out = .returned results → results.length = b.length :=
  ⟨.raised "TimeoutError", fun _ h => by cases h⟩

/-- What the code makes of a record, and that `write_many` answers for each
of its records or raises. -/
def Migrator.netEnv (m : Migrator F) : Env (RedisRecord F) (AerospikeRecord F) where
  prepares a out := out = m.prepare a
  writes _ _ _ := True
  writesMany b out := ∀ results, out = .returned results → results.length = b.length
  prepares_total := prepare_total m
  writes_total := write_total
  writesMany_total := writeMany_total

variable [OrderedLists F]

omit [PyFloat F] in
/-- A copy lands: a single write and a sub-command do the same. -/
def Sys.land (x : Sys F) (config : AerospikeConfig) (p : Nat × AerospikeRecord F) : Sys F :=
  { x with store := (write config x.store p.2).1, log := x.log ++ [p] }

def Migrator.netStep (m : Migrator F) (x : Net F) : Fault F → Option (Net F)
  | .event e => (m.step x.sys e).map fun sys => { x with sys }
  | .stray i k =>
    (x.sys.sending m.config.aerospike i k).map fun r =>
      { x with inFlight := x.inFlight ++ [(i, r)] }
  | .land n => x.inFlight[n]?.map fun p => { x with sys := x.sys.land m.config.aerospike p }
  | .fail i name => (m.onPipe x.sys (.write i (.raised name))).map fun sys => { x with sys }
  | .refuse i k reply =>
    match (x.sys.pipe.workers i).pc, x.sys.replies i k,
        winner m.config.aerospike (recordsOf (x.sys.pipe.workers i).buffer) k with
    | .flush _, none, some _ =>
      if Bad reply then
        some { x with sys.replies := Function.update x.sys.replies i
                        (Function.update (x.sys.replies i) k (some reply)) }
      else none
    | _, _, _ => none
  | .failMany i name =>
    (m.onPipe { x.sys with replies := Function.update x.sys.replies i fun _ => none }
      (.many i (.raised name))).map fun sys => { x with sys }

/-- A migration of `src` into `S₀`, with copies of earlier runs on their way. -/
def unreliable (m : Migrator F) (S₀ : Store F) (inFlight : List (Nat × AerospikeRecord F))
    (src : List (RedisRecord F)) : LTS (Net F) (Fault F) :=
  .ofFn (· = ⟨{ pipe := .start src, store := S₀ }, inFlight⟩) m.netStep

/-- The faults that can happen, with what they do. -/
inductive Occurs (m : Migrator F) (x : Net F) : Fault F → Net F → Prop
  | event {e : Event F} {sys : Sys F} : Happens m x.sys e sys → Occurs m x (.event e) { x with sys }
  | stray {i : Nat} {k : AerospikeKey} {r : AerospikeRecord F} :
      x.sys.sending m.config.aerospike i k = some r →
      Occurs m x (.stray i k) { x with inFlight := x.inFlight ++ [(i, r)] }
  | land {n : Nat} {p : Nat × AerospikeRecord F} : p ∈ x.inFlight →
      Occurs m x (.land n) { x with sys := x.sys.land m.config.aerospike p }
  | fail {i : Nat} {name : String} {a : RedisRecord F} {r : AerospikeRecord F} :
      i < m.cfg.poolSize → (x.sys.pipe.workers i).pc = .write a r →
      Occurs m x (.fail i name)
        { x with sys.pipe := x.sys.pipe.setWorker i ((x.sys.pipe.workers i).wrote a r
                   (.raised name)) }
  | refuse {i : Nat} {k : AerospikeKey} {reply : Reply} : Bad reply →
      Occurs m x (.refuse i k reply)
        { x with sys.replies := Function.update x.sys.replies i
                   (Function.update (x.sys.replies i) k (some reply)) }
  | failMany {i : Nat} {name : String} {next : After} : i < m.cfg.poolSize →
      (x.sys.pipe.workers i).pc = .flush next →
      Occurs m x (.failMany i name)
        { x with sys := { x.sys with
                   pipe := x.sys.pipe.setWorker i ((x.sys.pipe.workers i).flushed m.cfg next
                     (.raised name))
                   replies := Function.update x.sys.replies i fun _ => none } }

theorem netStep_occurs {m : Migrator F} {x x' : Net F} {e : Fault F}
    (h : m.netStep x e = some x') : Occurs m x e x' := by
  cases e with
  | event e =>
    obtain ⟨sys, hs, rfl⟩ := Option.map_eq_some_iff.1 h
    exact .event (step_happens hs)
  | stray i k =>
    obtain ⟨r, hr, rfl⟩ := Option.map_eq_some_iff.1 h
    exact .stray hr
  | land n =>
    obtain ⟨p, hp, rfl⟩ := Option.map_eq_some_iff.1 h
    exact .land (List.mem_of_getElem? hp)
  | fail i name =>
    obtain ⟨sys, hs, rfl⟩ := Option.map_eq_some_iff.1 h
    obtain ⟨s, hm, rfl⟩ := onPipe_move hs
    cases hm with
    | write hi hp => exact .fail hi hp
  | refuse i k reply =>
    simp only [Migrator.netStep] at h
    split at h
    · split at h
      · rename_i hbad; cases h; exact .refuse hbad
      · cases h
    · cases h
  | failMany i name =>
    obtain ⟨sys, hs, rfl⟩ := Option.map_eq_some_iff.1 h
    obtain ⟨s, hm, rfl⟩ := onPipe_move hs
    cases hm with
    | many hi hp => exact .failMany hi hp

/-! ## What a fault keeps -/

omit [OrderedLists F] in
theorem net_orderly {m : Migrator F} (hret : TransformsReturn m) {s : PipeSt F}
    {l : Label (AerospikeRecord F)} (h : m.netEnv.Allows s l) : Orderly s l := by
  cases l with
  | prepare i out => exact ⟨trivial, env_quiet hret s (.prepare i out) h⟩
  | many i out =>
    cases out with
    | returned results => exact ⟨h results rfl, trivial⟩
    | raised name => exact ⟨trivial, trivial⟩
  | _ => exact ⟨trivial, trivial⟩

/-- The log grows. -/
theorem Occurs.log {m : Migrator F} {x x' : Net F} {e : Fault F} (h : Occurs m x e x') :
    ∃ ps, x'.sys.log = x.sys.log ++ ps := by
  cases h with
  | event he => exact he.log
  | stray hr => exact ⟨[], (List.append_nil _).symm⟩
  | land hp => exact ⟨_, rfl⟩
  | fail hi hp => exact ⟨[], (List.append_nil _).symm⟩
  | refuse hbad => exact ⟨[], (List.append_nil _).symm⟩
  | failMany hi hp => exact ⟨[], (List.append_nil _).symm⟩

/-! ## The log -/

omit [OrderedLists F] in
/-- A write of a record of the source that fits. -/
def Migrator.Carries (m : Migrator F) (src : List (RedisRecord F)) (r : AerospikeRecord F) : Prop :=
  r ∈ occurrences m.config.aerospike (m.records src) (sinkKey m.config.aerospike r)

omit [OrderedLists F] in
theorem carries_of_outs {m : Migrator F} {src src' : List (RedisRecord F)} (hsub : src' ⊆ src)
    {s : PipeSt F} (hs : (machine m.cfg m.netEnv src').Reachable s) {i : Nat} {a : RedisRecord F}
    {r : AerospikeRecord F} (ha : (a, .record r) ∈ (s.workers i).outs) {k : AerospikeKey}
    (hk : keyOf m.config.aerospike r = some k) : m.Carries src r := by
  have hord := order_reachable s hs.of_restrict
  have hout : Prepared.record r = m.prepare a := outs_allowed s hs i _ ha
  have htag : a ∈ Pool.tagged s.taken i := by
    rw [hord.history i]
    exact List.mem_append_left _ (List.mem_map_of_mem ha)
  have hsrc : a ∈ src' := by
    rw [← hord.source, ← hord.order]
    refine List.mem_append_left _ (List.mem_append_left _ (List.mem_append_left _ ?_))
    obtain ⟨q, hq, rfl⟩ := List.mem_map.1 htag
    exact List.mem_map_of_mem (List.mem_of_mem_filter hq)
  exact mem_occurrences.2
    ⟨List.mem_filterMap.2 ⟨a, hsub hsrc, recordOf_eq_some.2 hout.symm⟩, keyOf_fits hk⟩

omit [OrderedLists F] in
/-- The record that is being sent was prepared. -/
theorem carries_of_sending {m : Migrator F} {src src' : List (RedisRecord F)} (hsub : src' ⊆ src)
    {x : Sys F} (hx : (machine m.cfg m.netEnv src').Reachable x.pipe) {i : Nat} {k : AerospikeKey}
    {r : AerospikeRecord F} (h : x.sending m.config.aerospike i k = some r) : m.Carries src r := by
  have hok := worker_ok hx.of_restrict i
  unfold Sys.sending at h
  split at h
  · rename_i a r' hp
    split at h
    · rename_i hk
      cases h
      exact carries_of_outs hsub hx
        (hok.mem_outs (q := (a, r)) (by simp [Worker.writing, hp])) hk
    · cases h
  · rw [winner_eq] at h
    obtain ⟨hrec, hk⟩ := mem_occurrences.1 (List.mem_of_getLast? h)
    obtain ⟨q, hq, rfl⟩ := List.mem_map.1 hrec
    exact carries_of_outs hsub hx
      (hok.mem_outs (List.mem_append_left _ (List.mem_append_right _ hq))) hk
  · cases h

/-- The log is what the store has been through, and it and what is on its way
are writes of the source. -/
structure Tracked (m : Migrator F) (src : List (RedisRecord F)) (S₀ : Store F) (x : Net F) :
    Prop where
  replayed : x.sys.store = Replay.replay (sinkKey m.config.aerospike) (act m.config.aerospike) S₀
    (x.sys.log.map Prod.snd)
  log : ∀ p ∈ x.sys.log, m.Carries src p.2
  inFlight : ∀ p ∈ x.inFlight, m.Carries src p.2

/-- One more write. -/
theorem Tracked.extend {m : Migrator F} {src : List (RedisRecord F)} {S₀ : Store F} {x x' : Net F}
    (h : Tracked m src S₀ x) (ps : List (Nat × AerospikeRecord F))
    (hlog : x'.sys.log = x.sys.log ++ ps)
    (hstore : x'.sys.store = Replay.replay (sinkKey m.config.aerospike) (act m.config.aerospike)
      x.sys.store (ps.map Prod.snd)) (hps : ∀ p ∈ ps, m.Carries src p.2)
    (hflight : ∀ p ∈ x'.inFlight, m.Carries src p.2) : Tracked m src S₀ x' where
  replayed := by rw [hstore, h.replayed, hlog, List.map_append, Replay.replay_append]
  log p hp := by
    rw [hlog] at hp
    rcases List.mem_append.1 hp with hp | hp
    · exact h.log p hp
    · exact hps p hp
  inFlight := hflight

omit [PyFloat F] in
/-- The write of a record that fits. -/
theorem write_fits {config : AerospikeConfig} {r : AerospikeRecord F} {k : AerospikeKey}
    (hk : keyOf config r = some k) (S : Store F) :
    (write config S r).1 = Replay.apply (sinkKey config) (act config) S r := by
  rw [write_eq, (keyOf_eq_some hk).1]

omit [PyFloat F] in
theorem write_oversized {config : AerospikeConfig} {r : AerospikeRecord F}
    (hk : keyOf config r = none) (S : Store F) : (write config S r).1 = S := by
  rw [write_eq]
  cases ht : tooLargeReason config r with
  | some reason => rfl
  | none => simp [keyOf, ht] at hk

theorem Tracked.happens {m : Migrator F} {src src' : List (RedisRecord F)} (hsub : src' ⊆ src)
    {S₀ : Store F} {x : Net F} (hx : (machine m.cfg m.netEnv src').Reachable x.sys.pipe)
    (h : Tracked m src S₀ x) {e : Event F} {sys : Sys F} (he : Happens m x.sys e sys) :
    Tracked m src S₀ { x with sys } := by
  have hsending := fun {i k r} => carries_of_sending (i := i) (k := k) (r := r) hsub hx
  cases he with
  | pipe hl hs => exact ⟨h.replayed, h.log, h.inFlight⟩
  | prepare hi hp => exact ⟨h.replayed, h.log, h.inFlight⟩
  | @write i a r hi hp =>
    cases hk : keyOf m.config.aerospike r with
    | none =>
      have hsent : sent m.config.aerospike i r = [] := by simp [sent, hk]
      refine h.extend [] ?_ (write_oversized hk _) (fun p hp => by cases hp) h.inFlight
      rw [hsent]
    | some k =>
      have hsent : sent m.config.aerospike i r = [(i, r)] := by simp [sent, hk]
      refine h.extend [(i, r)] (by rw [hsent]) (write_fits hk _) (fun p hp' => ?_) h.inFlight
      rw [List.mem_singleton.1 hp']
      exact hsending (i := i) (k := k) (r := r) (by simp [Sys.sending, hp, hk])
  | @sub i k r next hi hp hr hw =>
    have hcarries := hsending (i := i) (k := k) (r := r) (by simp [Sys.sending, hp, hw])
    rw [winner_eq] at hw
    have hkey := (keyOf_eq_some (mem_occurrences.1 (List.mem_of_getLast? hw)).2).2
    subst hkey
    have hop : operate x.sys.store (sinkKey m.config.aerospike r) (opsFor r)
        (batchPolicy m.config.aerospike r) = _ :=
      operate_opsFor m.config.aerospike r rfl rfl x.sys.store _
    refine h.extend [(i, r)] rfl (congrArg Prod.fst hop) (fun p hp' => ?_) h.inFlight
    rw [List.mem_singleton.1 hp']
    exact hcarries
  | many hi hp hr => exact ⟨h.replayed, h.log, h.inFlight⟩

theorem Tracked.occurs {m : Migrator F} {src src' : List (RedisRecord F)} (hsub : src' ⊆ src)
    {S₀ : Store F} {x x' : Net F} (hx : (machine m.cfg m.netEnv src').Reachable x.sys.pipe)
    (h : Tracked m src S₀ x) {e : Fault F} (he : Occurs m x e x') : Tracked m src S₀ x' := by
  cases he with
  | event he => exact h.happens hsub hx he
  | stray hr =>
    refine ⟨h.replayed, h.log, fun p hp => ?_⟩
    rcases List.mem_append.1 hp with hp | hp
    · exact h.inFlight p hp
    · rw [List.mem_singleton.1 hp]
      exact carries_of_sending hsub hx hr
  | @land n p hp =>
    have hcarries := h.inFlight p hp
    refine h.extend [p] rfl (write_fits (mem_occurrences.1 hcarries).2 _)
      (fun q hq => ?_) h.inFlight
    rw [List.mem_singleton.1 hq]
    exact hcarries
  | fail hi hp => exact ⟨h.replayed, h.log, h.inFlight⟩
  | refuse hbad => exact ⟨h.replayed, h.log, h.inFlight⟩
  | failMany hi hp => exact ⟨h.replayed, h.log, h.inFlight⟩

/-! ## What is confirmed -/

omit [OrderedLists F] in
/-- A write has been done under the key of `a`, or it is of no supported type. -/
def Reached (m : Migrator F) (x : Net F) (a : RedisRecord F) : Prop :=
  (∃ reason, m.prepare a = .skipped reason) ∨
    ∃ r k, m.recordOf a = some r ∧ keyOf m.config.aerospike r = some k ∧
      occurrences m.config.aerospike (x.sys.log.map Prod.snd) k ≠ []

omit [PyFloat F] [OrderedLists F] in
theorem occurrences_grow {config : AerospikeConfig} {log log' ps : List (Nat × AerospikeRecord F)}
    {k : AerospikeKey} (hlog : log' = log ++ ps)
    (h : occurrences config (log.map Prod.snd) k ≠ []) :
    occurrences config (log'.map Prod.snd) k ≠ [] := by
  rw [hlog, List.map_append, occurrences_append]
  exact List.append_ne_nil_of_left_ne_nil h _

theorem Reached.occurs {m : Migrator F} {x x' : Net F} {a : RedisRecord F} (h : Reached m x a)
    {e : Fault F} (he : Occurs m x e x') : Reached m x' a := by
  obtain ⟨ps, hlog⟩ := he.log
  rcases h with hskip | ⟨r, k, hr, hk, hne⟩
  · exact .inl hskip
  · exact .inr ⟨r, k, hr, hk, occurrences_grow hlog hne⟩

omit [PyFloat F] in
/-- What the server confirms, it has taken. -/
def Acked (config : AerospikeConfig) (x : Sys F) : Prop :=
  ∀ i k reply, x.replies i k = some reply → ¬ Bad reply →
    occurrences config (x.log.map Prod.snd) k ≠ []

omit [PyFloat F] [OrderedLists F] in
/-- The replies of one worker change. -/
theorem Acked.update {config : AerospikeConfig} {x x' : Sys F} (h : Acked config x)
    {ps : List (Nat × AerospikeRecord F)} (hlog : x'.log = x.log ++ ps) {i : Nat}
    {f : AerospikeKey → Option Reply} (hreplies : x'.replies = Function.update x.replies i f)
    (hf : ∀ k reply, f k = some reply → ¬ Bad reply →
      occurrences config (x'.log.map Prod.snd) k ≠ []) : Acked config x' := by
  intro j k reply hr hbad
  rw [hreplies] at hr
  by_cases hj : j = i
  · subst hj
    rw [Function.update_self] at hr
    exact hf k reply hr hbad
  · rw [Function.update_of_ne hj] at hr
    exact occurrences_grow hlog (h j k reply hr hbad)

omit [PyFloat F] [OrderedLists F] in
/-- The reply of one sub-command comes in. -/
theorem Acked.reply {config : AerospikeConfig} {x x' : Sys F} (h : Acked config x)
    (ps : List (Nat × AerospikeRecord F)) (hlog : x'.log = x.log ++ ps) {i : Nat}
    {k : AerospikeKey} {reply : Reply}
    (hreplies : x'.replies = Function.update x.replies i
      (Function.update (x.replies i) k (some reply)))
    (hk : ¬ Bad reply → occurrences config (x'.log.map Prod.snd) k ≠ []) : Acked config x' := by
  refine h.update hlog hreplies fun k' reply' hr hbad => ?_
  by_cases he : k' = k
  · subst he
    rw [Function.update_self] at hr
    cases hr
    exact hk hbad
  · rw [Function.update_of_ne he] at hr
    exact occurrences_grow hlog (h i k' reply' hr hbad)

theorem Acked.occurs {m : Migrator F} {x x' : Net F} (h : Acked m.config.aerospike x.sys)
    {e : Fault F} (he : Occurs m x e x') : Acked m.config.aerospike x'.sys := by
  have hkept : ∀ y : Sys F, y.replies = x.sys.replies → (∃ ps, y.log = x.sys.log ++ ps) →
      Acked m.config.aerospike y := by
    intro y hreplies hlog i k reply hr hbad
    obtain ⟨ps, hlog⟩ := hlog
    rw [hreplies] at hr
    exact occurrences_grow hlog (h i k reply hr hbad)
  have hlog := he.log
  cases he with
  | event he =>
    cases he with
    | pipe hl hs => exact hkept _ rfl hlog
    | prepare hi hp => exact hkept _ rfl hlog
    | write hi hp => exact hkept _ rfl hlog
    | @sub i k r next hi hp hr hw =>
      refine h.reply [(i, r)] rfl rfl fun _ => ?_
      rw [winner_eq] at hw
      have hk := (mem_occurrences.1 (List.mem_of_getLast? hw)).2
      exact List.ne_nil_of_mem (mem_occurrences.2
        ⟨List.mem_map_of_mem (List.mem_append_right _ List.mem_cons_self), hk⟩)
    | many hi hp hr =>
      exact h.update (List.append_nil _).symm rfl fun _ _ hr => by cases hr
  | stray hr => exact hkept _ rfl hlog
  | land hp => exact hkept _ rfl hlog
  | fail hi hp => exact hkept _ rfl hlog
  | refuse hbad =>
    exact h.reply [] (List.append_nil _).symm rfl fun hgood => absurd hbad hgood
  | failMany hi hp =>
    exact h.update (List.append_nil _).symm rfl fun _ _ hr => by cases hr

omit [PyFloat F] [OrderedLists F] in
/-- A reply that may not have been done is counted as an error. -/
theorem batchTick_bad {cfg : Cfg} {config : AerospikeConfig} {reply : Reply} (h : Bad reply) :
    (Worker.batchTick cfg (batchReason config reply)).isError = true := by
  have hfirst : ∀ s : String, "BatchError:" ++ s ≠ "RecordExists" := by
    intro s he
    have he' := congrArg (fun t : String => t.toList.head?) he
    simp at he'
  have hcode : ¬ (config.recordExistsPolicy = .createOnly ∧
      reply.result ∈ recordExistsErrorCodes) := fun hc => h.2 hc.2
  unfold batchReason
  rw [if_neg h.1, if_neg hcode, String.append_assoc, Worker.batchTick,
    if_neg fun hc => hfirst _ hc.2]
  rfl

omit [OrderedLists F] in
theorem Migrator.Meets.fits {m : Migrator F} {tick : Tick} {r : AerospikeRecord F}
    (h : m.Meets tick r) (hgood : tick.isError = false) :
    ∃ k, keyOf m.config.aerospike r = some k := by
  cases hk : keyOf m.config.aerospike r with
  | some k => exact ⟨k, rfl⟩
  | none =>
    have hsettle : m.settle r = .error "write:RecordTooLargeError" := by
      simp [Migrator.settle, hk]
    rcases h with rfl | ⟨-, -, hs⟩
    · rw [hsettle] at hgood
      cases hgood
    · rw [hsettle] at hs
      cases hs

/-- The records that a step settles without an error have been written. -/
def SettlesWritten (m : Migrator F) (x x' : Net F) (l : Label (AerospikeRecord F)) : Prop :=
  ∀ p ∈ settledBy m.cfg x.sys.pipe l, p.2.isError = false → Reached m x' p.1

theorem settles_write {m : Migrator F} {src : List (RedisRecord F)} {x x' : Net F}
    (hx : (machine m.cfg m.netEnv src).Reachable x.sys.pipe) {i : Nat} {a : RedisRecord F}
    {r : AerospikeRecord F} (hp : (x.sys.pipe.workers i).pc = .write a r)
    (hlog : x'.sys.log = x.sys.log ++ sent m.config.aerospike i r) :
    SettlesWritten m x x'
      (.write i (writeOutcome (write m.config.aerospike x.sys.store r).2)) := by
  intro p hmem hgood
  simp only [settledBy, hp, List.mem_singleton] at hmem
  subst hmem
  obtain ⟨k, hk⟩ := (meets_write m x.sys.store r).fits hgood
  have hprep : Prepared.record r = m.prepare a := outs_allowed x.sys.pipe hx i _
    ((worker_ok hx.of_restrict i).mem_outs (q := (a, r)) (by simp [Worker.writing, hp]))
  refine .inr ⟨r, k, recordOf_eq_some.2 hprep.symm, hk, ?_⟩
  rw [hlog]
  have hsent : (i, r) ∈ sent m.config.aerospike i r := by simp [sent, hk]
  exact List.ne_nil_of_mem (mem_occurrences.2
    ⟨List.mem_map_of_mem (f := Prod.snd) (List.mem_append_right _ hsent), hk⟩)

omit [OrderedLists F] in
theorem settles_many {m : Migrator F} {src : List (RedisRecord F)} {x x' : Net F}
    (hx : (machine m.cfg m.netEnv src).Reachable x.sys.pipe) (hack : Acked m.config.aerospike x.sys)
    {i : Nat} {replies : List Reply}
    (hr : (lastSlotForKey m.config.aerospike (recordsOf (x.sys.pipe.workers i).buffer)).keys.mapM
      (x.sys.replies i) = some replies) (hlog : x'.sys.log = x.sys.log) :
    SettlesWritten m x x' (.many i (.returned (batchResults m.config.aerospike
      (recordsOf (x.sys.pipe.workers i).buffer) replies))) := by
  intro p hmem hgood
  rw [settledBy, manyTicks_eq hr, List.zip_map'] at hmem
  obtain ⟨q, hq, rfl⟩ := List.mem_map.1 hmem
  have hprep : Prepared.record q.2 = m.prepare q.1 := outs_allowed x.sys.pipe hx i _
    ((worker_ok hx.of_restrict i).mem_outs
      (List.mem_append_left _ (List.mem_append_right _ hq)))
  cases hk : keyOf m.config.aerospike q.2 with
  | none =>
    rw [hk] at hgood
    simp [Worker.batchTick, Tick.isError] at hgood
  | some k =>
    obtain ⟨reply, hreply⟩ := answered_of_keyOf hr hq hk
    have hnot : ¬ Bad reply := by
      intro hbad
      rw [hk, Option.elim_some, hreply, Option.getD_some, batchTick_bad hbad] at hgood
      cases hgood
    refine .inr ⟨q.2, k, recordOf_eq_some.2 hprep.symm, hk, ?_⟩
    rw [hlog]
    exact hack i k reply hreply hnot

omit [OrderedLists F] in
theorem settles_prepare {m : Migrator F} {x x' : Net F} {i : Nat} {a : RedisRecord F}
    (hp : (x.sys.pipe.workers i).pc = .item a) :
    SettlesWritten m x x' (.prepare i (m.prepare a)) := by
  intro p hmem hgood
  simp only [settledBy, hp] at hmem
  cases hout : m.prepare a with
  | skipped reason =>
    rw [hout] at hmem
    rw [List.mem_singleton.1 hmem]
    exact .inl ⟨reason, hout⟩
  | failed reason =>
    rw [hout] at hmem
    rw [List.mem_singleton.1 hmem] at hgood
    cases hgood
  | raised exc => rw [hout] at hmem; cases hmem
  | record r => rw [hout] at hmem; cases hmem

/-- The move of the pipeline behind a fault, if there is one; what it settles
without an error has been written. -/
theorem Occurs.move {m : Migrator F} {x x' : Net F} {e : Fault F} (h : Occurs m x e x') :
    x'.sys.pipe = x.sys.pipe ∨ ∃ l, m.netEnv.Allows x.sys.pipe l ∧
      Move m.cfg x.sys.pipe l x'.sys.pipe ∧
      ∀ src, (machine m.cfg m.netEnv src).Reachable x.sys.pipe → Acked m.config.aerospike x.sys →
        SettlesWritten m x x' l := by
  cases h with
  | event he =>
    cases he with
    | @pipe l s hl hs =>
      refine .inr ⟨l, ?_, hs, fun _ _ _ p hmem => ?_⟩
      · cases l with
        | prepare i out => exact hl.elim
        | many i out => exact hl.elim
        | write i out => exact hl.elim
        | _ => trivial
      · cases l with
        | prepare i out => exact hl.elim
        | many i out => exact hl.elim
        | write i out => exact hl.elim
        | _ => cases hmem
    | @prepare i a hi hp =>
      exact .inr ⟨.prepare i _, ⟨a, hp, rfl⟩, .prepare hi hp, fun _ _ _ => settles_prepare hp⟩
    | @write i a r hi hp =>
      exact .inr ⟨.write i _, ⟨a, r, hp, trivial⟩, .write hi hp,
        fun _ hx _ => settles_write hx hp rfl⟩
    | sub hi hp hr hw => exact .inl rfl
    | @many i next replies hi hp hr =>
      refine .inr ⟨.many i (.returned _), fun results he => ?_, .many hi hp,
        fun _ hx hack => settles_many hx hack hr rfl⟩
      cases he
      simp [batchResults, recordsOf]
  | stray hr => exact .inl rfl
  | land hp => exact .inl rfl
  | @fail i name a r hi hp =>
    refine .inr ⟨.write i (.raised name), ⟨a, r, hp, trivial⟩, .write hi hp,
      fun _ _ _ p hmem hgood => ?_⟩
    simp only [settledBy, hp, List.mem_singleton] at hmem
    subst hmem
    cases hgood
  | refuse hbad => exact .inl rfl
  | @failMany i name next hi hp =>
    refine .inr ⟨.many i (.raised name), (fun _ he => by cases he), .many hi hp,
      fun _ _ _ p hmem hgood => ?_⟩
    rw [settledBy, Worker.manyTicks, List.zip_map'] at hmem
    obtain ⟨q, -, rfl⟩ := List.mem_map.1 hmem
    cases hgood

theorem net_projection (m : Migrator F) (S₀ : Store F) (fs : List (Nat × AerospikeRecord F))
    (src : List (RedisRecord F)) :
    LTS.Projection (unreliable m S₀ fs src) (machine m.cfg m.netEnv src) fun x => x.sys.pipe where
  init x hx := by subst hx; rfl
  step x e x' _ hst := by
    rcases (netStep_occurs hst).move with hsame | ⟨l, hok, hm, -⟩
    · exact .inl hsame
    · exact .inr ⟨l, hok, move_step hm⟩

theorem net_pipe {m : Migrator F} {S₀ : Store F} {fs : List (Nat × AerospikeRecord F)}
    {src : List (RedisRecord F)} {x : Net F} (h : (unreliable m S₀ fs src).Reachable x) :
    (machine m.cfg m.netEnv src).Reachable x.sys.pipe :=
  (net_projection m S₀ fs src).reachable x h

/-- The invariant: the log is right, and every record that has been settled
without an error is in it. -/
structure Honest (m : Migrator F) (src : List (RedisRecord F)) (S₀ : Store F) (x : Net F) :
    Prop where
  tracked : Tracked m src S₀ x
  acked : Acked m.config.aerospike x.sys
  settled : ∃ ts, Settlement m.cfg x.sys.pipe ts ∧ ∀ p ∈ ts, p.2.isError = false → Reached m x p.1

theorem honest_reachable {m : Migrator F} (hret : TransformsReturn m)
    {src src' : List (RedisRecord F)} (hsub : src' ⊆ src) {S₀ : Store F}
    {fs : List (Nat × AerospikeRecord F)} (hfs : ∀ p ∈ fs, m.Carries src p.2) :
    ∀ x : Net F, (unreliable m S₀ fs src').Reachable x → Honest m src S₀ x := by
  refine LTS.reachable_induction (fun x hx => ?_) fun x e x' hx ih hst => ?_
  · subst hx
    exact ⟨⟨rfl, (fun _ hp => by cases hp), hfs⟩, (fun _ _ _ hr => by cases hr),
      [], .start _ _, fun _ hp => by cases hp⟩
  · have he := netStep_occurs hst
    have hpipe := net_pipe hx
    refine ⟨ih.tracked.occurs hsub hpipe he, ih.acked.occurs he, ?_⟩
    obtain ⟨ts, hts, hgood⟩ := ih.settled
    rcases he.move with hsame | ⟨l, hok, hm, hnew⟩
    · exact ⟨ts, hsame ▸ hts, fun p hp hg => (hgood p hp hg).occurs he⟩
    · refine ⟨_, hts.move (net_orderly hret hok) hm, fun p hp hg => ?_⟩
      rcases List.mem_append.1 hp with hp | hp
      · exact (hgood p hp hg).occurs he
      · exact hnew _ hpipe ih.acked p hp hg

/-! ## Runs in trouble -/

/-- What runs over parts of `src`, each with its faults and cut off in some
state, leave: the store, and what is still on its way. -/
inductive Troubled (m : Migrator F) (src : List (RedisRecord F)) (S₀ : Store F) :
    Store F → List (Nat × AerospikeRecord F) → Prop
  | start : Troubled m src S₀ S₀ []
  | run {S : Store F} {fs : List (Nat × AerospikeRecord F)} {src' : List (RedisRecord F)}
      {workers queueSize writeBatchSize : Int} {x : Net F} : Troubled m src S₀ S fs → src' ⊆ src →
      (unreliable (m.tuned workers queueSize writeBatchSize) S fs src').Reachable x →
      Troubled m src S₀ x.sys.store x.inFlight

/-- What is under a key are the writes in the log. -/
theorem Tracked.at {m : Migrator F} {src : List (RedisRecord F)} {S₀ : Store F} {x : Net F}
    (h : Tracked m src S₀ x) (k : AerospikeKey) :
    (∀ r ∈ occurrences m.config.aerospike (x.sys.log.map Prod.snd) k,
      r ∈ occurrences m.config.aerospike (m.records src) k) ∧
    x.sys.store k = (occurrences m.config.aerospike (x.sys.log.map Prod.snd) k).foldl
      (fun v r => act m.config.aerospike r v) (S₀ k) := by
  have hcarries : ∀ r ∈ x.sys.log.map Prod.snd, m.Carries src r := by
    intro r hr
    obtain ⟨p, hp, rfl⟩ := List.mem_map.1 hr
    exact h.log p hp
  refine ⟨fun r hr => ?_, ?_⟩
  · obtain ⟨hmem, hk⟩ := mem_occurrences.1 hr
    rw [← (keyOf_eq_some hk).2]
    exact hcarries r hmem
  · have hfilter : ((x.sys.log.map Prod.snd).filter fun r => sinkKey m.config.aerospike r = k) =
        occurrences m.config.aerospike (x.sys.log.map Prod.snd) k := by
      refine List.filter_congr fun r hr => ?_
      rw [(mem_occurrences.1 (hcarries r hr)).2]
      simp
    rw [h.replayed, Replay.replay_at, hfilter]

theorem Partly.tracked {m : Migrator F} {src : List (RedisRecord F)} (hq : Quiescent m src)
    {S₀ S : Store F} (h : Partly m src S₀ S) {x : Net F} (hx : Tracked m src S x) :
    Partly m src S₀ x.sys.store :=
  h.writes hq fun k => ⟨_, (hx.at k).1, (hx.at k).2⟩

theorem Troubled.partly {m : Migrator F} (hret : TransformsReturn m) {src : List (RedisRecord F)}
    (hq : Quiescent m src) {S₀ S : Store F} {fs : List (Nat × AerospikeRecord F)}
    (h : Troubled m src S₀ S fs) : Partly m src S₀ S ∧ ∀ p ∈ fs, m.Carries src p.2 := by
  induction h with
  | start => exact ⟨fun k => .inl rfl, fun _ hp => by cases hp⟩
  | @run S fs src' workers queueSize writeBatchSize x _ hsub hx ih =>
    have htracked := (honest_reachable (m := m.tuned workers queueSize writeBatchSize) hret hsub
      ih.2 x hx).tracked
    exact ⟨ih.1.tracked hq ⟨htracked.replayed, htracked.log, htracked.inFlight⟩,
      htracked.inFlight⟩

/-- What is under its key is what the write of `a` makes of what was there, or
`a` is of no supported type. -/
def Arrived (m : Migrator F) (S₀ S : Store F) (a : RedisRecord F) : Prop :=
  (∃ reason, m.prepare a = .skipped reason) ∨
    ∃ r k, m.recordOf a = some r ∧ keyOf m.config.aerospike r = some k ∧
      S k = act m.config.aerospike r (S₀ k)

theorem Reached.arrived {m : Migrator F} {src : List (RedisRecord F)} (hq : Quiescent m src)
    {S₀ S : Store F} (hS : Partly m src S₀ S) {x : Net F} (hx : Tracked m src S x)
    {a : RedisRecord F} (ha : a ∈ src) (h : Reached m x a) : Arrived m S₀ x.sys.store a := by
  rcases h with hskip | ⟨r, k, hr, hk, hne⟩
  · exact .inl hskip
  · obtain ⟨hmem, hstore⟩ := hx.at k
    have hocc : r ∈ occurrences m.config.aerospike (m.records src) k :=
      mem_occurrences.2 ⟨List.mem_filterMap.2 ⟨a, ha, hr⟩, hk⟩
    refine .inr ⟨r, k, hr, hk, ?_⟩
    rw [hstore, Replay.foldl_same (act_idem m.config.aerospike r)
      (fun r' hr' => hq.single (hmem r' hr') hocc), if_neg hne]
    rcases hS k with he | ⟨r', hr', he⟩
    · rw [he]
    · rw [he, hq.single hr' hocc, act_idem]

/-- Nothing is missing. -/
theorem oneByOne_of_arrived {m : Migrator F} {src : List (RedisRecord F)} (hq : Quiescent m src)
    {S₀ S : Store F} (hS : Partly m src S₀ S) (h : ∀ a ∈ src, Arrived m S₀ S a) :
    S = m.oneByOne S₀ src := by
  funext k
  rw [Migrator.oneByOne, writeEach_at]
  cases hocc : occurrences m.config.aerospike (m.records src) k with
  | nil =>
    rcases hS k with he | ⟨r, hr, -⟩
    · exact he
    · rw [hocc] at hr; cases hr
  | cons r rs =>
    have hr : r ∈ occurrences m.config.aerospike (m.records src) k := by
      rw [hocc]; exact List.mem_cons_self
    rw [← hocc, Replay.foldl_same (act_idem m.config.aerospike r) (fun r' hr' => hq.single hr' hr),
      if_neg (List.ne_nil_of_mem hr)]
    obtain ⟨hmem, hk⟩ := mem_occurrences.1 hr
    obtain ⟨a, ha, hra⟩ := List.mem_filterMap.1 hmem
    rcases h a ha with ⟨reason, hskip⟩ | ⟨r', k', hr', hk', he⟩
    · rw [recordOf_eq_some.1 hra] at hskip
      cases hskip
    · rw [hra] at hr'
      cases hr'
      rw [hk] at hk'
      cases hk'
      exact he

/-- **No silent loss.** However calls, answers and copies went astray in the
runs before and in this one: when a run over the whole source has ended, all
of its records have arrived but one for each error in the report, which may
have, and no key holds anything else than before or a record of the source. So
when a report shows no error, the store is what one full run with a reliable
server leaves. -/
theorem no_silent_loss {m : Migrator F} (hret : TransformsReturn m) {src : List (RedisRecord F)}
    (hq : Quiescent m src) {S₀ S : Store F} {fs : List (Nat × AerospikeRecord F)}
    (h : Troubled m src S₀ S fs) :
    ∀ src', src'.Perm src → ∀ workers queueSize writeBatchSize x,
      (unreliable (m.tuned workers queueSize writeBatchSize) S fs src').Reachable x →
      x.sys.pipe.main = .done → x.sys.pipe.raised = false →
      (∃ good bad, src.Perm (good ++ bad) ∧ bad.length = x.sys.pipe.stats.errors ∧
        ∀ a ∈ good, Arrived m S₀ x.sys.store a) ∧
      Partly m src S₀ x.sys.store ∧
      (x.sys.pipe.stats.errors = 0 → x.sys.store = m.oneByOne S₀ src) := by
  intro src' hperm workers queueSize writeBatchSize x hx hd hraised
  obtain ⟨hS, hfs⟩ := h.partly hret hq
  have hhonest := honest_reachable (m := m.tuned workers queueSize writeBatchSize) hret
    hperm.subset hfs x hx
  have htracked : Tracked m src S x :=
    ⟨hhonest.tracked.replayed, hhonest.tracked.log, hhonest.tracked.inFlight⟩
  have hpartly := hS.tracked hq htracked
  have hpipe := net_pipe hx
  obtain ⟨ts, hts, hreached⟩ := hhonest.settled
  obtain ⟨hseen, herrors⟩ := hts.of_done (hpipe.restrict_mono fun _ _ hok =>
    net_orderly (m := m.tuned workers queueSize writeBatchSize) hret hok) hd
  rw [seen_of_full hpipe.of_restrict hd hraised] at hseen
  have hsplit : src.Perm ((ts.filter fun p => !p.2.isError).map Prod.fst ++
      (ts.filter fun p => p.2.isError).map Prod.fst) := by
    rw [← List.map_append]
    refine (hseen.trans hperm).symm.trans (.map _ ?_)
    have hfilter := List.filter_append_perm (fun p : RedisRecord F × Tick => !p.2.isError) ts
    simpa using hfilter.symm
  have hgood : ∀ a ∈ (ts.filter fun p => !p.2.isError).map Prod.fst,
      Arrived m S₀ x.sys.store a := by
    intro a ha
    have hsrc : a ∈ src := hsplit.symm.subset (List.mem_append_left _ ha)
    obtain ⟨p, hp, rfl⟩ := List.mem_map.1 ha
    obtain ⟨hp, hnot⟩ := List.mem_filter.1 hp
    exact Reached.arrived hq hS htracked hsrc (hreached p hp (by simpa using hnot))
  refine ⟨⟨_, _, hsplit, ?_, hgood⟩, hpartly, fun hzero => ?_⟩
  · rw [List.length_map, herrors, List.countP_eq_length_filter]
  · -- no error is counted, so none of the source is missing
    refine oneByOne_of_arrived hq hpartly fun a ha => ?_
    rw [hzero, eq_comm, List.countP_eq_zero] at herrors
    rcases List.mem_append.1 (hsplit.subset ha) with hmem | hmem
    · exact hgood a hmem
    · obtain ⟨p, hp, rfl⟩ := List.mem_map.1 hmem
      obtain ⟨hp, hbad⟩ := List.mem_filter.1 hp
      exact absurd hbad (herrors p hp)

end

/-- A write times out and its copy stays on the way; the process ends. The
copy lands in the next run, behind the batch that has the record again. -/
theorem no_silent_loss_late_copy :
    ∃ S fs, Troubled plainMigrator [letter "a", letter "b"] (fun _ => none) S fs ∧ fs ≠ [] ∧
      ∃ x, (unreliable (plainMigrator.tuned 1 0 2) S fs [letter "a", letter "b"]).Reachable x ∧
        x.sys.log.length = 3 ∧
        x.sys.store = plainMigrator.oneByOne (fun _ => none) [letter "a", letter "b"] := by
  obtain ⟨y, hy, hne, x, hx, hd, hraised, herrors, hlen⟩ : ∃ y,
      (unreliable (plainMigrator.tuned 1 0 1) (fun _ => none) []
        [letter "a", letter "b"]).Reachable y ∧ y.inFlight ≠ [] ∧ ∃ x,
      (unreliable (plainMigrator.tuned 1 0 2) y.sys.store y.inFlight
        [letter "a", letter "b"]).Reachable x ∧ x.sys.pipe.main = .done ∧
        x.sys.pipe.raised = false ∧ x.sys.pipe.stats.errors = 0 ∧ x.sys.log.length = 3 := by
    apply Exists.intro
    refine ⟨⟨_, [.event (.pipe .scan), .event (.pipe .put), .event (.pipe (.get 0)),
      .event (.prepare 0), .stray 0 ("test", "redis", .str "a"), .fail 0 "TimeoutError"], rfl,
      LTS.run_of_exec (fun _ _ _ h => h) rfl⟩, by simp, ?_⟩
    apply Exists.intro
    refine ⟨⟨_, [.event (.pipe .scan), .event (.pipe .put), .event (.pipe (.get 0)),
      .event (.prepare 0), .event (.pipe .scan), .event (.pipe .put), .event (.pipe (.get 0)),
      .event (.prepare 0), .event (.sub 0 ("test", "redis", .str "a")),
      .event (.sub 0 ("test", "redis", .str "b")), .event (.many 0), .land 0,
      .event (.pipe (.count 0)), .event (.pipe (.count 0)), .event (.pipe .sourceEnd),
      .event (.pipe .putStop), .event (.pipe (.get 0)), .event (.pipe .join)], rfl,
      LTS.run_of_exec (fun _ _ _ h => h) rfl⟩, rfl, rfl, rfl, rfl⟩
  have htroubled : Troubled plainMigrator [letter "a", letter "b"] (fun _ => none)
      y.sys.store y.inFlight := .run .start (List.Subset.refl _) hy
  have hloss := no_silent_loss (m := plainMigrator) (fun _ h => by cases h)
    quiescent_letters htroubled _ (.refl _) 1 0 2 x hx hd hraised
  exact ⟨y.sys.store, y.inFlight, htroubled, hne, x, hx, hlen, hloss.2.2 herrors⟩

end RedisToAerospike.L5
