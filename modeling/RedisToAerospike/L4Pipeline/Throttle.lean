import RedisToAerospike.L4Pipeline.RateLimit
import RedisToAerospike.L4Pipeline.Workers

/-!
# The pipeline against a clock

The workers share one bucket: each acquires as many tokens as it is about to
hand to the sink, sleeps, and makes its call some time after the sleep. The
clock goes on whenever it likes.

* `Paid`: the invariant; every call made or awaited is covered by a grant.
* `write_rate`: the records handed to the sink by any time, which are those of
  the workers' calls.
-/
namespace RedisToAerospike.L4
open L3 Metered

/-- `waiting i` is what worker `i` has acquired and when it is done sleeping.
`granted` and `handed` are ghosts: the grants, and when each call was made with
how many records. -/
structure Timed (α R : Type) where
  pipe : St α R
  bucket : TokenBucket
  clock : ℚ
  waiting : Nat → Option (ℚ × Nat) := fun _ => none
  granted : List (ℚ × ℚ) := []
  handed : List (ℚ × Nat) := []

inductive TimedLabel (R : Type) where
  | tick (δ : ℚ)
  | acquire (i : Nat)
  | pipe (l : Label R)

section
variable {α R : Type}

/-- The argument of `acquire`, where the worker is about to call the sink. -/
def Worker.acquiring (w : Worker α R) : Option Nat :=
  match w.pc with
  | .write _ _ => some 1
  | .flush _ => some w.buffer.length
  | _ => none

/-- How many records the worker's last call had. -/
def Worker.lastCall (w : Worker α R) : Nat := (w.calls.getLastD []).length

/-- The worker whose call of the sink the step is. -/
def caller : Label R → Option Nat
  | .write i _ => some i
  | .many i _ => some i
  | _ => none

/-- A step with the clock.
mirrors src/redis_to_aerospike/migrator.py:187-211 -/
def timedStep (cfg : Cfg) (x : Timed α R) : TimedLabel R → Option (Timed α R)
  | .tick δ => if 0 ≤ δ then some { x with clock := x.clock + δ } else none
  | .acquire i =>
    match (x.pipe.workers i).acquiring, x.waiting i with
    | some n, none =>
      if i < cfg.poolSize then
        let out := x.bucket.acquire x.clock n
        some { x with
          bucket := out.1
          waiting := Function.update x.waiting i (some (x.clock + out.2, n))
          granted := x.granted ++ [(x.clock + out.2, (n : ℚ))] }
      else none
    | _, _ => none
  | .pipe l =>
    match caller l with
    | none => (step cfg x.pipe l).map fun pipe => { x with pipe }
    | some i =>
      match x.waiting i with
      | none => none
      | some (wake, _) =>
        if wake ≤ x.clock then
          (step cfg x.pipe l).map fun pipe =>
            { x with
              pipe
              waiting := Function.update x.waiting i none
              handed := x.handed ++ [(x.clock, (pipe.workers i).lastCall)] }
        else none

/-- The bucket of `Migrator.__init__`, made at `t₀`.
mirrors src/redis_to_aerospike/migrator.py:77-85 -/
def writeLimiter (cfg : Cfg) (rate t₀ : ℚ) : TokenBucket :=
  .init rate (some (max rate cfg.batchSize)) t₀

def Timed.start (cfg : Cfg) (rate t₀ : ℚ) (src : List α) : Timed α R where
  pipe := .start src
  bucket := writeLimiter cfg rate t₀
  clock := t₀

def timed (cfg : Cfg) (rate t₀ : ℚ) (src : List α) : LTS (Timed α R) (TimedLabel R) :=
  .ofFn (· = .start cfg rate t₀ src) (timedStep cfg)

/-- The moves of the timed machine. -/
inductive TimedMove (cfg : Cfg) (x : Timed α R) : TimedLabel R → Timed α R → Prop
  | tick {δ : ℚ} : 0 ≤ δ → TimedMove cfg x (.tick δ) { x with clock := x.clock + δ }
  | acquire {i n : Nat} : i < cfg.poolSize → (x.pipe.workers i).acquiring = some n →
      x.waiting i = none → TimedMove cfg x (.acquire i)
        { x with
          bucket := (x.bucket.acquire x.clock n).1
          waiting := Function.update x.waiting i
            (some (x.clock + (x.bucket.acquire x.clock n).2, n))
          granted := x.granted ++ [(x.clock + (x.bucket.acquire x.clock n).2, (n : ℚ))] }
  | quiet {l : Label R} {pipe : St α R} : caller l = none → Move cfg x.pipe l pipe →
      TimedMove cfg x (.pipe l) { x with pipe }
  | call {l : Label R} {pipe : St α R} {i n : Nat} {wake : ℚ} : caller l = some i →
      x.waiting i = some (wake, n) → wake ≤ x.clock → Move cfg x.pipe l pipe →
      TimedMove cfg x (.pipe l)
        { x with
          pipe
          waiting := Function.update x.waiting i none
          handed := x.handed ++ [(x.clock, (pipe.workers i).lastCall)] }

theorem timedStep_move {cfg : Cfg} {x x' : Timed α R} {l : TimedLabel R}
    (h : timedStep cfg x l = some x') : TimedMove cfg x l x' := by
  cases l with
  | tick δ =>
    simp only [timedStep] at h
    split at h
    · rename_i hδ; cases h; exact .tick hδ
    · cases h
  | acquire i =>
    simp only [timedStep] at h
    split at h
    · rename_i hn hw
      split at h
      · rename_i hi; cases h; exact .acquire hi hn hw
      · cases h
    · cases h
  | pipe l =>
    simp only [timedStep] at h
    split at h
    · rename_i hl
      obtain ⟨pipe, hp, rfl⟩ := Option.map_eq_some_iff.1 h
      exact .quiet hl (step_move hp)
    · rename_i i hl
      split at h
      · cases h
      · rename_i hw
        split at h
        · rename_i hwake
          obtain ⟨pipe, hp, rfl⟩ := Option.map_eq_some_iff.1 h
          exact .call hl hw hwake (step_move hp)
        · cases h

/-- Only its own call moves a worker on from before the sink. -/
theorem Move.acquiring_kept {cfg : Cfg} {s s' : St α R} {l : Label R} (h : Move cfg s l s')
    {j n : Nat} (hl : caller l ≠ some j) (hn : (s.workers j).acquiring = some n) :
    s'.workers j = s.workers j := by
  have hother : ∀ {i : Nat} {w : Worker α R}, (s.workers i).acquiring = none →
      Function.update s.workers i w j = s.workers j := by
    intro i w hi
    have hne : j ≠ i := by
      intro he
      subst he
      rw [hi] at hn
      cases hn
    exact Function.update_of_ne hne _ _
  cases h with
  | scan hm hs => rfl
  | sourceEnd hm hs => rfl
  | sourceRaise hm => rfl
  | put hm hf => rfl
  | putStop hm hf => rfl
  | join hm hp => rfl
  | getData hi hp hq => exact hother (by simp [Worker.acquiring, hp])
  | getStop hi hp hq => exact hother (by simp [Worker.acquiring, hp])
  | prepare hi hp => exact hother (by simp [Worker.acquiring, hp])
  | write hi hp => exact Function.update_of_ne (fun he => hl (by rw [he]; rfl)) _ _
  | many hi hp => exact Function.update_of_ne (fun he => hl (by rw [he]; rfl)) _ _
  | count hi hp => exact hother (by simp [Worker.acquiring, hp])

/-- A call hands over as many records as the worker has acquired. -/
theorem Move.call_made {cfg : Cfg} {s s' : St α R} {l : Label R} (h : Move cfg s l s') {i n : Nat}
    (hl : caller l = some i) (hn : (s.workers i).acquiring = some n) :
    ∃ w c, s'.workers = Function.update s.workers i w ∧ w.calls = (s.workers i).calls ++ [c] ∧
      c.length = n := by
  cases h with
  | write hi hp =>
    cases hl
    simp only [Worker.acquiring, hp, Option.some.injEq] at hn
    exact ⟨_, _, rfl, rfl, hn⟩
  | many hi hp =>
    cases hl
    simp only [Worker.acquiring, hp, Option.some.injEq] at hn
    exact ⟨_, _, rfl, rfl, hn⟩
  | _ => cases hl

theorem Move.lastCall_eq {cfg : Cfg} {s s' : St α R} {l : Label R} (h : Move cfg s l s') {i n : Nat}
    (hl : caller l = some i) (hn : (s.workers i).acquiring = some n) :
    (s'.workers i).lastCall = n := by
  obtain ⟨w, c, he, hcalls, hlen⟩ := h.call_made hl hn
  rw [he, Function.update_self, Worker.lastCall, hcalls, List.getLastD_concat, hlen]

/-! ## The invariant -/

/-- What a worker's grant adds to what it may hand over by `t`. -/
def awaited (t : ℚ) : Option (ℚ × Nat) → Nat
  | none => 0
  | some p => due t p

/-- Calls made and calls awaited are covered by the grants. -/
structure Paid (cfg : Cfg) (rate t₀ : ℚ) (x : Timed α R) : Prop where
  rate_eq : x.bucket.rate = rate
  capacity_eq : x.bucket.capacity = max rate cfg.batchSize
  last_le : x.bucket.last ≤ x.clock
  sound : x.bucket.Sound t₀ x.granted
  sizes : ∀ i wake n, x.waiting i = some (wake, n) →
    i < cfg.poolSize ∧ (x.pipe.workers i).acquiring = some n
  paid : ∀ t, ((upTo t x.handed + Pool.total cfg.poolSize (awaited t) x.waiting : Nat) : ℚ) ≤
    upTo t x.granted

theorem Paid.start {cfg : Cfg} {rate t₀ : ℚ} (hr : 0 < rate) (src : List α) :
    Paid cfg rate t₀ (.start cfg rate t₀ src : Timed α R) where
  rate_eq := rfl
  capacity_eq := rfl
  last_le := le_rfl
  sound := .init hr (hr.le.trans (le_max_left _ _))
  sizes := nofun
  paid t := by
    have h0 : Pool.total cfg.poolSize (awaited t) (Timed.start cfg rate t₀ src : Timed α R).waiting = 0 :=
      Pool.total_eq_zero_iff.2 fun _ _ => rfl
    rw [h0]
    simp [Timed.start, upTo]

theorem due_cast (t wake : ℚ) (n : Nat) : ((due t (wake, n) : Nat) : ℚ) = due t (wake, (n : ℚ)) := by
  unfold due
  split <;> simp

/-- A later grant is due no earlier. -/
theorem due_later {t wake clock : ℚ} (h : wake ≤ clock) (n : Nat) :
    due t (clock, n) ≤ due t (wake, n) := by
  unfold due
  by_cases hc : clock ≤ t
  · rw [if_pos hc, if_pos (h.trans hc)]
  · rw [if_neg hc]
    exact Nat.zero_le _

theorem Paid.move {cfg : Cfg} {rate t₀ : ℚ} (hr : 0 < rate) {x x' : Timed α R} {l : TimedLabel R}
    (h : Paid cfg rate t₀ x) (hm : TimedMove cfg x l x') : Paid cfg rate t₀ x' := by
  cases hm with
  | tick hδ =>
    exact ⟨h.rate_eq, h.capacity_eq, h.last_le.trans (le_add_of_nonneg_right hδ), h.sound, h.sizes,
      h.paid⟩
  | @acquire i n hi hn hw =>
    have hrate : 0 < x.bucket.rate := h.rate_eq ▸ hr
    refine ⟨?_, ?_, ?_, ?_, ?_, ?_⟩
    · rw [TokenBucket.acquire_rate]; exact h.rate_eq
    · rw [TokenBucket.acquire_capacity]; exact h.capacity_eq
    · exact (TokenBucket.acquire_last hrate _ _).le
    · exact h.sound.acquire hrate h.last_le (Nat.cast_nonneg n)
    · intro j wake m hj
      by_cases hij : j = i
      · subst hij
        dsimp only at hj
        rw [Function.update_self] at hj
        cases hj
        exact ⟨hi, hn⟩
      · dsimp only at hj
        rw [Function.update_of_ne hij] at hj
        exact h.sizes j wake m hj
    · intro t
      -- the grant is awaited from now on
      have ht := Pool.total_update hi (awaited t) x.waiting
        (some (x.clock + (x.bucket.acquire x.clock n).2, n))
      rw [hw] at ht
      have hpaid := h.paid t
      have hcast := due_cast t (x.clock + (x.bucket.acquire x.clock n).2) n
      rw [upTo_concat, ← hcast]
      simp only [awaited] at ht
      dsimp only
      rw [← Nat.add_zero (Pool.total _ _ _), ht]
      push_cast at hpaid ⊢
      linarith
  | @quiet l pipe hl hmove =>
    refine ⟨h.rate_eq, h.capacity_eq, h.last_le, h.sound, fun j wake m hj => ?_, h.paid⟩
    obtain ⟨hj', hn⟩ := h.sizes j wake m hj
    refine ⟨hj', ?_⟩
    rw [hmove.acquiring_kept (by rw [hl]; nofun) hn, hn]
  | @call l pipe i n wake hl hw hwake hmove =>
    obtain ⟨hi, hn⟩ := h.sizes i wake n hw
    refine ⟨h.rate_eq, h.capacity_eq, h.last_le, h.sound, fun j wake' m hj => ?_, fun t => ?_⟩
    · dsimp only at hj ⊢
      by_cases hij : j = i
      · subst hij
        rw [Function.update_self] at hj
        cases hj
      · rw [Function.update_of_ne hij] at hj
        obtain ⟨hj', hn'⟩ := h.sizes j wake' m hj
        refine ⟨hj', ?_⟩
        have hother : caller l ≠ some j := by
          rw [hl]
          exact fun he => hij (Option.some.inj he).symm
        rw [hmove.acquiring_kept hother hn', hn']
    · -- the call comes no earlier than its grant
      have ht := Pool.total_update hi (awaited t) x.waiting none
      rw [hw] at ht
      have hpaid := h.paid t
      have hlater : due t (x.clock, n) ≤ due t (wake, n) := due_later hwake n
      dsimp only
      rw [hmove.lastCall_eq hl hn, upTo_concat]
      simp only [awaited] at ht
      refine le_trans (Nat.cast_le.2 ?_) hpaid
      omega

theorem paid_reachable {cfg : Cfg} {rate t₀ : ℚ} {src : List α} (hr : 0 < rate) :
    ∀ x : Timed α R, (timed cfg rate t₀ src).Reachable x → Paid cfg rate t₀ x := by
  refine LTS.reachable_induction (fun x hx => ?_) fun x l x' _ ih hst =>
    ih.move hr (timedStep_move hst)
  subst hx
  exact .start hr src

/-! ## The records handed over -/

/-- How many records the worker's calls have carried. -/
def Worker.carried (w : Worker α R) : Nat := w.calls.flatten.length

theorem Move.carried_quiet {cfg : Cfg} {s s' : St α R} {l : Label R} (h : Move cfg s l s')
    (hl : caller l = none) (j : Nat) : (s'.workers j).carried = (s.workers j).carried := by
  have hself : ∀ (i : Nat) (w : Worker α R), s'.workers = Function.update s.workers i w →
      w.carried = (s.workers i).carried → (s'.workers j).carried = (s.workers j).carried :=
    fun i w he hw => Pool.at_update Worker.carried he (.inr hw)
  cases h with
  | scan hm hs => rfl
  | sourceEnd hm hs => rfl
  | sourceRaise hm => rfl
  | put hm hf => rfl
  | putStop hm hf => rfl
  | join hm hp => rfl
  | getData hi hp hq => exact hself _ _ rfl rfl
  | getStop hi hp hq => exact hself _ _ rfl rfl
  | prepare hi hp => exact hself _ _ rfl (by rw [Worker.carried, Worker.prepared_calls]; rfl)
  | write hi hp => cases hl
  | many hi hp => cases hl
  | count hi hp => exact hself _ _ rfl rfl

/-- What has been handed over is what the workers' calls carried. -/
theorem sum_handed {cfg : Cfg} {rate t₀ : ℚ} {src : List α} (hr : 0 < rate) :
    ∀ x : Timed α R, (timed cfg rate t₀ src).Reachable x →
      (x.handed.map Prod.snd).sum = Pool.total cfg.poolSize Worker.carried x.pipe.workers := by
  refine LTS.reachable_induction (fun x hx => ?_) fun x l x' hreach ih hst => ?_
  · subst hx
    exact (Pool.total_eq_zero_iff.2 fun _ _ => rfl).symm
  · cases timedStep_move hst with
    | tick hδ => exact ih
    | acquire hi hn hw => exact ih
    | quiet hl hmove =>
      exact ih.trans (Pool.total_congr fun j _ => (hmove.carried_quiet hl j).symm)
    | @call l pipe i n wake hl hw hwake hmove =>
      obtain ⟨hi, hn⟩ := (paid_reachable hr x hreach).sizes i wake n hw
      obtain ⟨w, c, he, hcalls, hlen⟩ := hmove.call_made hl hn
      have ht := Pool.total_update hi Worker.carried x.pipe.workers w
      have hcarried : w.carried = (x.pipe.workers i).carried + n := by
        rw [Worker.carried, hcalls, List.flatten_append, List.length_append, List.flatten_singleton,
          hlen, Worker.carried]
      dsimp only
      rw [hmove.lastCall_eq hl hn, he, List.map_append, List.sum_append, ih]
      simp only [List.map_cons, List.map_nil, List.sum_cons, List.sum_nil]
      omega

theorem upTo_handed_le {cfg : Cfg} {rate t₀ : ℚ} {x : Timed α R} (hp : Paid cfg rate t₀ x) {t : ℚ}
    (ht : t₀ ≤ t) : ((upTo t x.handed : Nat) : ℚ) ≤ max rate cfg.batchSize + rate * (t - t₀) := by
  have hpaid := hp.paid t
  have hbound := hp.sound.bound t ht
  rw [hp.rate_eq, hp.capacity_eq] at hbound
  push_cast at hpaid
  have hnonneg : (0 : ℚ) ≤ Pool.total cfg.poolSize (awaited t) x.waiting := Nat.cast_nonneg _
  linarith

/-- **The throttle.** In every state of every run, the records handed to the
sink by `t` are at most a burst and what the rate admits since the bucket was
made; and those handed over are the records of the workers' calls. -/
theorem write_rate {cfg : Cfg} {rate t₀ : ℚ} {src : List α} (hr : 0 < rate) {x : Timed α R}
    (h : (timed cfg rate t₀ src).Reachable x) :
    (∀ t, t₀ ≤ t →
      ((upTo t x.handed : Nat) : ℚ) ≤ max rate cfg.batchSize + rate * (t - t₀)) ∧
    (x.handed.map Prod.snd).sum = Pool.total cfg.poolSize Worker.carried x.pipe.workers :=
  ⟨fun _ ht => upTo_handed_le (paid_reachable hr x h) ht, sum_handed hr x h⟩

end

/-! ## A whole run -/

/-- One worker, batches of two and one record a second: the third record waits
for its token, and a bit longer. -/
def throttleTrace : List (TimedLabel Nat) :=
  [.pipe .scan, .pipe .put, .pipe (.get 0), .pipe (.prepare 0 (.record 10)), .pipe .scan, .pipe .put,
   .pipe (.get 0), .pipe (.prepare 0 (.record 11)), .tick (1 / 2), .acquire 0,
   .pipe (.many 0 (.returned [none, none])), .pipe (.count 0), .pipe (.count 0), .pipe .scan,
   .pipe .put, .pipe (.get 0), .pipe (.prepare 0 (.record 12)), .pipe .sourceEnd, .pipe .putStop,
   .pipe (.get 0), .acquire 0, .tick (3 / 2), .pipe (.many 0 (.returned [none]))]

theorem write_rate_batch :
    ∃ x : Timed Nat Nat, x.handed = [(1 / 2, 2), (2, 1)] ∧
      ((upTo 2 x.handed : Nat) : ℚ) ≤ max 1 (2 : Nat) + 1 * (2 - 0) ∧
      Pool.total 1 Worker.carried x.pipe.workers = 3 := by
  obtain ⟨x, hx, hd⟩ := Option.map_eq_some_iff.1 (show (LTS.exec (timedStep ⟨1, 4, 2, false⟩)
    (.start ⟨1, 4, 2, false⟩ 1 0 [0, 1, 2]) throttleTrace).map Timed.handed =
      some [(1 / 2, 2), (2, 1)] from by decide +kernel)
  have hreach : (timed ⟨1, 4, 2, false⟩ 1 0 [0, 1, 2]).Reachable x :=
    ⟨_, _, rfl, LTS.run_of_exec (fun _ _ _ h => h) hx⟩
  obtain ⟨hbound, hsum⟩ := write_rate one_pos hreach
  exact ⟨x, hd, hbound 2 (by norm_num), by rw [hd] at hsum; exact hsum.symm⟩

end RedisToAerospike.L4
