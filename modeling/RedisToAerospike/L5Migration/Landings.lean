import RedisToAerospike.Core.Fallible
import RedisToAerospike.L5Migration.System

/-!
# Which writes land

Invariants of a migration, over all interleavings of its workers.

* `Logged`: the store is the log replayed, and the log holds prepared records
  that fit.
* `Landed`: what a worker wrote last under a key is the last of the records it
  has handed to the sink; a batch, whose sub-writes land one by one, counts
  from its answer for the key on.
* `landed_of_done`: at the end these are the records the worker dequeued.
-/
namespace RedisToAerospike.L5
open L1 L2 L3 L4

section
variable {F : Type} [PyFloat F]

/-- What `_prepare` makes of a record, where it makes one. -/
def Migrator.recordOf (m : Migrator F) (a : RedisRecord F) : Option (AerospikeRecord F) :=
  match m.prepare a with
  | .record r => some r
  | _ => none

/-- The records prepared of a stream. -/
def Migrator.records (m : Migrator F) (as : List (RedisRecord F)) : List (AerospikeRecord F) :=
  as.filterMap m.recordOf

theorem recordOf_eq_some {m : Migrator F} {a : RedisRecord F} {r : AerospikeRecord F} :
    m.recordOf a = some r ↔ m.prepare a = .record r := by
  unfold Migrator.recordOf
  cases m.prepare a <;> simp

/-! ## Occurrences of a key -/

omit [PyFloat F] in
theorem occurrences_append (config : AerospikeConfig) (xs ys : List (AerospikeRecord F))
    (k : AerospikeKey) :
    occurrences config (xs ++ ys) k = occurrences config xs k ++ occurrences config ys k :=
  List.filter_append _ _

omit [PyFloat F] in
theorem last_append (config : AerospikeConfig) (xs ys : List (AerospikeRecord F))
    (k : AerospikeKey) :
    (occurrences config (xs ++ ys) k).getLast? =
      (occurrences config ys k).getLast?.or (occurrences config xs k).getLast? := by
  rw [occurrences_append, List.getLast?_append]

omit [PyFloat F] in
/-- The write of a record lands in the log of its worker, if it fits. -/
theorem occurrences_sent (config : AerospikeConfig) (i j : Nat) (r : AerospikeRecord F)
    (k : AerospikeKey) :
    occurrences config (Pool.tagged (sent config i r) j) k =
      if i = j then occurrences config [r] k else [] := by
  unfold sent
  cases hk : keyOf config r with
  | none => by_cases h : i = j <;> simp [Pool.tagged, occurrences, hk, h]
  | some k' => by_cases h : i = j <;> simp [occurrences, h]

omit [PyFloat F] in
theorem keyOf_fits {config : AerospikeConfig} {r : AerospikeRecord F} {k : AerospikeKey}
    (h : keyOf config r = some k) : keyOf config r = some (sinkKey config r) := by
  rw [h, (keyOf_eq_some h).2]

/-! ## The log -/

variable [OrderedLists F]

/-- The log is what the store has been through. -/
structure Logged (m : Migrator F) (S₀ : Store F) (x : Sys F) : Prop where
  replayed : x.store =
    Replay.replay (sinkKey m.config.aerospike) (act m.config.aerospike) S₀ (x.log.map Prod.snd)
  owner : ∀ p ∈ x.log, p.1 < m.cfg.poolSize
  fits : ∀ p ∈ x.log, keyOf m.config.aerospike p.2 = some (sinkKey m.config.aerospike p.2)
  prepared : ∀ p ∈ x.log, ∃ a, (a, .record p.2) ∈ (x.pipe.workers p.1).outs

/-- An event that appends to the log what it writes. -/
theorem Logged.extend {m : Migrator F} {S₀ : Store F} {x x' : Sys F} (h : Logged m S₀ x)
    {ps : List (Nat × AerospikeRecord F)} (hlog : x'.log = x.log ++ ps)
    (hstore : x'.store = Replay.replay (sinkKey m.config.aerospike) (act m.config.aerospike)
      x.store (ps.map Prod.snd))
    (hps : ∀ p ∈ ps, p.1 < m.cfg.poolSize ∧
      keyOf m.config.aerospike p.2 = some (sinkKey m.config.aerospike p.2) ∧
      ∃ a, (a, .record p.2) ∈ (x'.pipe.workers p.1).outs)
    (houts : ∀ j, ∀ q ∈ (x.pipe.workers j).outs, q ∈ (x'.pipe.workers j).outs) :
    Logged m S₀ x' where
  replayed := by
    rw [hstore, h.replayed, hlog, List.map_append, Replay.replay_append]
  owner p hp := by
    rw [hlog] at hp
    rcases List.mem_append.1 hp with hp | hp
    · exact h.owner p hp
    · exact (hps p hp).1
  fits p hp := by
    rw [hlog] at hp
    rcases List.mem_append.1 hp with hp | hp
    · exact h.fits p hp
    · exact (hps p hp).2.1
  prepared p hp := by
    rw [hlog] at hp
    rcases List.mem_append.1 hp with hp | hp
    · obtain ⟨a, ha⟩ := h.prepared p hp
      exact ⟨a, houts _ _ ha⟩
    · exact (hps p hp).2.2

theorem Happens.outs {m : Migrator F} {x x' : Sys F} {e : Event F} (h : Happens m x e x') (j : Nat) :
    ∀ q ∈ (x.pipe.workers j).outs, q ∈ (x'.pipe.workers j).outs := by
  rcases h.move with he | ⟨l, _, hm⟩
  · rw [he]; exact fun q hq => hq
  · rcases hm.outs j with he | ⟨a, out, _, _, he⟩
    · rw [he]; exact fun q hq => hq
    · rw [he]; exact fun q hq => List.mem_append_left _ hq

theorem Logged.happens {m : Migrator F} {S₀ : Store F} {src : List (RedisRecord F)} {x x' : Sys F}
    {e : Event F} (hx : (migration m S₀ src).Reachable x) (h : Logged m S₀ x)
    (he : Happens m x e x') : Logged m S₀ x' := by
  have hok := fun i => worker_ok (pipe_reachable hx).of_restrict i
  have houts := he.outs
  cases he with
  | pipe hl hs => exact h.extend (List.append_nil _).symm rfl nofun houts
  | prepare hi hp => exact h.extend (List.append_nil _).symm rfl nofun houts
  | @write i a r hi hp =>
    have hmem : (a, .record r) ∈ (x.pipe.workers i).outs :=
      (hok i).mem_outs (q := (a, r)) (by simp [Worker.writing, hp])
    have hsent : (write m.config.aerospike x.store r).1 =
        Replay.replay (sinkKey m.config.aerospike) (act m.config.aerospike) x.store
          ((sent m.config.aerospike i r).map Prod.snd) := by
      rw [write_eq]
      unfold sent keyOf
      cases tooLargeReason m.config.aerospike r <;> rfl
    refine h.extend rfl hsent (fun p hp' => ?_) houts
    unfold sent at hp'
    cases hk : keyOf m.config.aerospike r with
    | none => rw [hk] at hp'; cases hp'
    | some k =>
      rw [hk] at hp'
      rw [List.mem_singleton.1 hp']
      exact ⟨hi, keyOf_fits hk, a, houts i _ hmem⟩
  | @sub i k r next hi hp hr hw =>
    rw [winner_eq] at hw
    obtain ⟨hrec, hk⟩ := mem_occurrences.1 (List.mem_of_getLast? hw)
    obtain ⟨q, hq, rfl⟩ := List.mem_map.1 hrec
    have hmem : (q.1, .record q.2) ∈ (x.pipe.workers i).outs :=
      (hok i).mem_outs (List.mem_append_left _ (List.mem_append_right _ hq))
    have hlog : (x.answer m.config.aerospike i k q.2).log = x.log ++ [(i, q.2)] := rfl
    refine h.extend hlog ?_ (fun p hp' => ?_) houts
    · have hop : operate x.store k (opsFor q.2) (batchPolicy m.config.aerospike q.2) = _ :=
        operate_opsFor m.config.aerospike q.2 rfl rfl x.store k
      have hkey := (keyOf_eq_some hk).2
      subst hkey
      exact congrArg Prod.fst hop
    · rw [List.mem_singleton.1 hp']
      exact ⟨hi, keyOf_fits hk, q.1, hmem⟩
  | many hi hp hr => exact h.extend (List.append_nil _).symm rfl nofun houts

theorem logged_reachable {m : Migrator F} {S₀ : Store F} {src : List (RedisRecord F)} :
    ∀ x : Sys F, (migration m S₀ src).Reachable x → Logged m S₀ x := by
  refine LTS.reachable_induction (fun x hx => ?_) fun x e x' hx ih hst =>
    ih.happens hx (step_happens hst)
  subst hx
  exact ⟨rfl, nofun, nofun, nofun⟩

/-! ## Landings -/

/-- What worker `i` has handed to the sink, as far as `k` is concerned: its
finished calls, and the batch that is under way if its sub-write for `k` is
answered. -/
def Sys.handed (x : Sys F) (i : Nat) (k : AerospikeKey) : List (AerospikeRecord F) :=
  recordsOf (x.pipe.workers i).calls.flatten ++
    if (x.replies i k).isSome then recordsOf (x.pipe.workers i).buffer else []

/-- What a worker wrote last under a key is the last it handed on. -/
structure Landed (m : Migrator F) (x : Sys F) : Prop where
  flushing : ∀ i k, (x.replies i k).isSome → ∃ next, (x.pipe.workers i).pc = .flush next
  last : ∀ i k, (occurrences m.config.aerospike (Pool.tagged x.log i) k).getLast? =
    (occurrences m.config.aerospike (x.handed i k) k).getLast?

omit [PyFloat F] [OrderedLists F] in
theorem handed_of_idle {x : Sys F} {i : Nat} {k : AerospikeKey} (h : x.replies i k = none) :
    x.handed i k = recordsOf (x.pipe.workers i).calls.flatten := by
  simp [Sys.handed, h]

omit [OrderedLists F] in
/-- Only a worker at `write_many` waits for answers. -/
theorem Landed.idle {m : Migrator F} {x : Sys F} (h : Landed m x) {i : Nat}
    (hp : ∀ next, (x.pipe.workers i).pc ≠ .flush next) (k : AerospikeKey) :
    x.replies i k = none := by
  cases hr : x.replies i k with
  | none => rfl
  | some reply =>
    obtain ⟨next, hnext⟩ := h.flushing i k (by rw [hr]; rfl)
    exact absurd hnext (hp next)

omit [OrderedLists F] in
/-- Moves that leave what has been handed on as it is. -/
theorem Landed.of_calls {m : Migrator F} {x : Sys F} (h : Landed m x) {s : PipeSt F}
    (hs : ∀ j, s.workers j = x.pipe.workers j ∨
      (∀ next, (x.pipe.workers j).pc ≠ .flush next) ∧
        (s.workers j).calls = (x.pipe.workers j).calls) :
    Landed m { x with pipe := s } where
  flushing j k hr := by
    rcases hs j with he | ⟨hp, _⟩
    · rw [he]; exact h.flushing j k hr
    · rw [h.idle hp k] at hr; cases hr
  last j k := by
    rw [h.last j k]
    rcases hs j with he | ⟨hp, hc⟩
    · simp only [Sys.handed, he]
    · have hr := h.idle hp k
      rw [handed_of_idle hr, handed_of_idle (x := { x with pipe := s }) hr]
      simp only [hc]

omit [PyFloat F] [OrderedLists F] in
/-- A worker that moves without the sink is not at `write_many`. -/
theorem callless_workers {cfg : Cfg} {s s' : PipeSt F} {l : Label (AerospikeRecord F)}
    (hm : Move cfg s l s') (hl : Callless l) (j : Nat) :
    s'.workers j = s.workers j ∨
      (∀ next, (s.workers j).pc ≠ .flush next) ∧ (s'.workers j).calls = (s.workers j).calls := by
  have hself : ∀ (i : Nat) (w : Worker (RedisRecord F) (AerospikeRecord F)),
      s'.workers = Function.update s.workers i w → (∀ next, (s.workers i).pc ≠ .flush next) →
        w.calls = (s.workers i).calls → s'.workers j = s.workers j ∨
          (∀ next, (s.workers j).pc ≠ .flush next) ∧
            (s'.workers j).calls = (s.workers j).calls := by
    intro i w he hp hw
    by_cases hj : j = i
    · subst hj; exact .inr ⟨hp, by rw [he, Function.update_self, hw]⟩
    · exact .inl (by rw [he, Function.update_of_ne hj])
  cases hm with
  | scan hm hs => exact .inl rfl
  | sourceEnd hm hs => exact .inl rfl
  | sourceRaise hm => exact .inl rfl
  | put hm hf => exact .inl rfl
  | putStop hm hf => exact .inl rfl
  | join hm hp => exact .inl rfl
  | getData hi hp hq => exact hself _ _ rfl (by rw [hp]; nofun) rfl
  | getStop hi hp hq => exact hself _ _ rfl (by rw [hp]; nofun) rfl
  | prepare hi hp => exact hl.elim
  | write hi hp => exact hl.elim
  | many hi hp => exact hl.elim
  | count hi hp => exact hself _ _ rfl (by rw [hp]; nofun) rfl

theorem Landed.write {m : Migrator F} {x : Sys F} (h : Landed m x) {i : Nat} {a : RedisRecord F}
    {r : AerospikeRecord F} (hp : (x.pipe.workers i).pc = .write a r) :
    Landed m
      { x with pipe := x.pipe.setWorker i ((x.pipe.workers i).wrote a r
                 (writeOutcome (L3.write m.config.aerospike x.store r).2))
               store := (L3.write m.config.aerospike x.store r).1
               log := x.log ++ sent m.config.aerospike i r } := by
  have hbusy : ∀ next, (x.pipe.workers i).pc ≠ .flush next := by
    intro next he
    rw [hp] at he
    cases he
  have hidle := h.idle hbusy
  refine ⟨fun j k hr => ?_, fun j k => ?_⟩
  · by_cases hj : j = i
    · subst hj; rw [hidle k] at hr; cases hr
    · simpa [St.setWorker, Function.update_of_ne hj] using h.flushing j k hr
  · have hlast := h.last j k
    simp only [Pool.tagged_append]
    rw [last_append, occurrences_sent]
    by_cases hj : i = j
    · -- the record is the last in the log and the last handed on
      subst hj
      rw [if_pos rfl, hlast, handed_of_idle (hidle k), ← last_append]
      simp [Sys.handed, hidle k, St.setWorker, Worker.wrote, recordsOf]
    · rw [if_neg hj, hlast]
      simp [Sys.handed, St.setWorker, Function.update_of_ne (Ne.symm hj)]

theorem Landed.sub {m : Migrator F} {x : Sys F} (h : Landed m x) {i : Nat}
    {k₀ : AerospikeKey} {r : AerospikeRecord F} {next : After}
    (hp : (x.pipe.workers i).pc = .flush next) (hr : x.replies i k₀ = none)
    (hw : winner m.config.aerospike (recordsOf (x.pipe.workers i).buffer) k₀ = some r) :
    Landed m (x.answer m.config.aerospike i k₀ r) := by
  rw [winner_eq] at hw
  have hk₀ := (mem_occurrences.1 (List.mem_of_getLast? hw)).2
  refine ⟨fun j k hrep => ?_, fun j k => ?_⟩
  · by_cases hj : j = i
    · subst hj; exact ⟨next, hp⟩
    · exact h.flushing j k (by simpa [Sys.answer, Function.update_of_ne hj] using hrep)
  · have hlast := h.last j k
    simp only [Sys.answer, Pool.tagged_append, Pool.tagged_single]
    rw [last_append]
    by_cases hj : i = j
    · subst hj
      rw [if_pos rfl]
      by_cases hk : k = k₀
      · -- the batch counts from now on, and `r` is its last for the key
        subst hk
        rw [hlast, handed_of_idle hr]
        simp only [Sys.handed, Function.update_self, Option.isSome_some, if_true]
        rw [last_append, hw]
        simp [occurrences, hk₀]
      · have hnone : occurrences m.config.aerospike [r] k = [] := by
          simp [occurrences, hk₀, Ne.symm hk]
        rw [hnone, hlast]
        simp [Sys.handed, Function.update_of_ne hk]
    · rw [if_neg hj, hlast]
      simp [Sys.handed, Function.update_of_ne (Ne.symm hj), occurrences]

omit [PyFloat F] [OrderedLists F] in
/-- A key without an answer is not in the batch. -/
theorem occurrences_unanswered {config : AerospikeConfig} {records : List (AerospikeRecord F)}
    {answers : AerospikeKey → Option Reply} {replies : List Reply}
    (hr : (lastSlotForKey config records).keys.mapM answers = some replies) {k : AerospikeKey}
    (hk : answers k = none) : occurrences config records k = [] := by
  refine List.eq_nil_iff_forall_not_mem.2 fun r hmem => ?_
  have hsent := mem_sentKeys_iff.2 ⟨r, mem_occurrences.1 hmem⟩
  have hsome := Fallible.mapM_isSome_iff.1 (by rw [hr]; rfl) k hsent
  rw [hk] at hsome
  cases hsome

omit [OrderedLists F] in
theorem Landed.many {m : Migrator F} {x : Sys F} (h : Landed m x) {i : Nat} {next : After}
    {replies : List Reply}
    (hr : (lastSlotForKey m.config.aerospike (recordsOf (x.pipe.workers i).buffer)).keys.mapM
      (x.replies i) = some replies) :
    Landed m
      { x with pipe := x.pipe.setWorker i ((x.pipe.workers i).flushed m.cfg next
                 (.returned (batchResults m.config.aerospike
                   (recordsOf (x.pipe.workers i).buffer) replies)))
               replies := Function.update x.replies i fun _ => none } := by
  refine ⟨fun j k hrep => ?_, fun j k => ?_⟩
  · by_cases hj : j = i
    · subst hj; simp at hrep
    · have hrep' : (x.replies j k).isSome := by simpa [Function.update_of_ne hj] using hrep
      simpa [St.setWorker, Function.update_of_ne hj] using h.flushing j k hrep'
  · rw [h.last j k]
    by_cases hj : j = i
    · subst hj
      have hcalls : ({ x with
          pipe := x.pipe.setWorker j ((x.pipe.workers j).flushed m.cfg next
            (.returned (batchResults m.config.aerospike (recordsOf (x.pipe.workers j).buffer)
              replies)))
          replies := Function.update x.replies j fun _ => none } : Sys F).handed j k =
          recordsOf (x.pipe.workers j).calls.flatten ++ recordsOf (x.pipe.workers j).buffer := by
        simp [Sys.handed, St.setWorker, Worker.flushed, recordsOf]
      rw [hcalls, Sys.handed]
      cases hk : x.replies j k with
      | some reply => rfl
      | none =>
        rw [last_append, last_append, occurrences_unanswered hr hk]
        rfl
    · simp [Sys.handed, St.setWorker, Function.update_of_ne hj]

theorem Landed.happens {m : Migrator F} {x x' : Sys F} {e : Event F} (h : Landed m x)
    (he : Happens m x e x') : Landed m x' := by
  cases he with
  | pipe hl hs => exact h.of_calls (callless_workers hs hl)
  | @prepare i a hi hp =>
    refine h.of_calls fun j => ?_
    by_cases hj : j = i
    · subst hj
      have hbusy : ∀ next, (x.pipe.workers j).pc ≠ .flush next := by
        intro next he
        rw [hp] at he
        cases he
      exact .inr ⟨hbusy, by simp [St.setWorker, Worker.prepared_calls]⟩
    · exact .inl (by simp [St.setWorker, Function.update_of_ne hj])
  | write hi hp => exact h.write hp
  | sub hi hp hr hw => exact h.sub hp hr hw
  | many hi hp hr => exact h.many hr

theorem landed_reachable {m : Migrator F} {S₀ : Store F} {src : List (RedisRecord F)} :
    ∀ x : Sys F, (migration m S₀ src).Reachable x → Landed m x := by
  refine LTS.reachable_induction (fun x hx => ?_) fun x e x' _ ih hst =>
    ih.happens (step_happens hst)
  subst hx
  exact ⟨nofun, fun i k => rfl⟩

/-! ## The end of a migration -/

/-- What the workers have handed on comes from what they took. -/
theorem records_of_exited {m : Migrator F} {S₀ : Store F} {src : List (RedisRecord F)} {x : Sys F}
    (h : (migration m S₀ src).Reachable x) {i : Nat} {c : Cause}
    (hp : (x.pipe.workers i).pc = .exited c) :
    recordsOf (x.pipe.workers i).calls.flatten = m.records (Pool.tagged x.pipe.taken i) := by
  have hpipe := pipe_reachable h
  have hok := worker_ok hpipe.of_restrict i
  have hcalls : (x.pipe.workers i).calls.flatten =
      (x.pipe.workers i).outs.filterMap Worker.converted := by
    rw [hok.history, hok.exited c hp]
    simp [Worker.writing, hp]
  have htaken : Pool.tagged x.pipe.taken i = (x.pipe.workers i).outs.map Prod.fst := by
    rw [(order_reachable _ hpipe.of_restrict).history i]
    simp [Worker.item, hp]
  rw [hcalls, htaken, Migrator.records, List.filterMap_map, recordsOf, List.map_filterMap]
  refine List.filterMap_congr fun p hmem => ?_
  have hout : p.2 = m.prepare p.1 := outs_allowed _ hpipe i p hmem
  obtain ⟨a, out⟩ := p
  dsimp only at hout
  subst hout
  unfold Worker.converted Migrator.recordOf
  rw [Function.comp_apply]
  cases m.prepare a <;> rfl

/-- **Landings.** At the end, the last a worker wrote under a key is the last
record for it that the worker dequeued. -/
theorem landed_of_done {m : Migrator F} {S₀ : Store F} {src : List (RedisRecord F)} {x : Sys F}
    (h : (migration m S₀ src).Reachable x) (hd : x.pipe.main = .done) {i : Nat}
    (hi : i < m.cfg.poolSize) (k : AerospikeKey) :
    (occurrences m.config.aerospike (Pool.tagged x.log i) k).getLast? =
      (occurrences m.config.aerospike (m.records (Pool.tagged x.pipe.taken i)) k).getLast? := by
  have hland := landed_reachable x h
  obtain ⟨c, hp⟩ := (joined_reachable _ (pipe_reachable h).of_restrict).done hd i hi
  have hidle := hland.idle (i := i) (by rw [hp]; nofun) k
  rw [hland.last i k, handed_of_idle hidle, records_of_exited h hp]

end

end RedisToAerospike.L5
