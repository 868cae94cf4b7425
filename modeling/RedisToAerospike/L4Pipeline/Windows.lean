import RedisToAerospike.L4Pipeline.RateLimit

/-!
# The token bucket in every window (`ratelimit.py`)

Calls of `acquire` come in the order in which they take the lock. A call that
finds too few tokens leaves a deficit and sleeps outside the lock, so waits
overlap; its grant time is its reading of the clock plus its wait.

* `Windowed`: the invariant. What was granted from `s` on and what is left in
  the bucket (a deficit counts negative) come out of one burst and the refill
  since `s`; every grant is over once the deficit is paid back.
* `windows`: grant times follow the lock order, and no window sees more tokens
  than the larger of the capacity and one request, and its refill.
-/
namespace RedisToAerospike.L4
open Metered

namespace TokenBucket

/-- The grants of calls `(clock reading, tokens)`, in lock order: when each
wait is over, and how many tokens. -/
def grants : TokenBucket → List (ℚ × ℚ) → List (ℚ × ℚ)
  | _, [] => []
  | b, (now, n) :: calls => (now + (b.acquire now n).2, n) :: grants (b.acquire now n).1 calls

/-- The largest request, at least zero. -/
def largest (calls : List (ℚ × ℚ)) : ℚ := (calls.map Prod.snd).foldr max 0

theorem le_largest {calls : List (ℚ × ℚ)} {c : ℚ × ℚ} (h : c ∈ calls) : c.2 ≤ largest calls := by
  induction calls with
  | nil => cases h
  | cons a calls ih =>
    rcases List.mem_cons.1 h with rfl | h
    · exact le_max_left _ _
    · exact (ih h).trans (le_max_right _ _)

/-- What `acquire` does to an enabled bucket: the balance is refilled up to the
capacity, and what it lacks is waited for. -/
theorem acquire_spec {b : TokenBucket} (hr : 0 < b.rate) (now n : ℚ) :
    ∃ balance wait, b.acquire now n = ({ b with last := now, tokens := balance - n }, wait) ∧
      balance = min b.capacity (b.tokens + (now - b.last) * b.rate) ∧
      0 ≤ wait ∧ (n ≤ balance ∧ wait = 0 ∨ balance < n ∧ b.rate * wait = n - balance) := by
  have henabled : b.enabled = true := decide_eq_true hr
  unfold TokenBucket.acquire
  rw [if_pos henabled]
  refine ⟨_, _, rfl, rfl, ?_, ?_⟩
  all_goals generalize min b.capacity (b.tokens + (now - b.last) * b.rate) = balance
  · split
    · exact le_rfl
    · rename_i h
      exact div_nonneg (sub_nonneg.2 (not_le.1 h).le) hr.le
  · by_cases h : n ≤ balance
    · exact .inl ⟨h, if_pos h⟩
    · exact .inr ⟨not_le.1 h, by rw [if_neg h, mul_div_cancel₀ _ hr.ne']⟩

/-- When the refill has paid a deficit back. -/
def ready (b : TokenBucket) : ℚ := b.last + max 0 (-b.tokens) / b.rate

theorem rate_mul_ready {b : TokenBucket} (hr : 0 < b.rate) :
    b.rate * (b.ready - b.last) = max 0 (-b.tokens) := by
  rw [ready, add_sub_cancel_left, mul_div_cancel₀ _ hr.ne']

/-- A call leaves a bucket that is ready when the call is granted. -/
theorem ready_acquire {b : TokenBucket} (hr : 0 < b.rate) (now n : ℚ) :
    (b.acquire now n).1.ready = now + (b.acquire now n).2 := by
  obtain ⟨balance, wait, he, -, hwait, hcase⟩ := acquire_spec hr now n
  rw [he]
  dsimp only [ready]
  rcases hcase with ⟨hle, rfl⟩ | ⟨hlt, hmul⟩
  · rw [max_eq_left (by linarith), zero_div]
  · rw [max_eq_right (by linarith), show -(balance - n) = b.rate * wait by linarith,
      mul_div_cancel_left₀ _ hr.ne']

/-- It is granted no earlier than the bucket was ready before. -/
theorem ready_le_grant {b : TokenBucket} {now n : ℚ} (hr : 0 < b.rate) (hc : 0 ≤ b.capacity)
    (hnow : b.last ≤ now) (hn : 0 ≤ n) : b.ready ≤ now + (b.acquire now n).2 := by
  obtain ⟨balance, wait, he, hbal, hwait, hcase⟩ := acquire_spec hr now n
  rw [he]
  refine le_of_mul_le_mul_left ?_ hr
  have hready := rate_mul_ready hr
  rw [mul_sub] at hready
  have hrefill : b.rate * b.last ≤ b.rate * now := mul_le_mul_of_nonneg_left hnow hr.le
  have hw : 0 ≤ b.rate * wait := mul_nonneg hr.le hwait
  rw [mul_add]
  rcases max_cases 0 (-b.tokens) with ⟨hm, -⟩ | ⟨hm, hneg⟩
  · linarith
  · -- the refill stays below the capacity, or the deficit is paid back by now
    rcases min_cases b.capacity (b.tokens + (now - b.last) * b.rate) with ⟨hmin, hle⟩ | ⟨hmin, -⟩
    · linarith
    · rcases hcase with ⟨hle, -⟩ | ⟨-, hmul⟩ <;> linarith

/-- `M` bounds the capacity and every request. -/
structure Windowed (M : ℚ) (b : TokenBucket) (granted : List (ℚ × ℚ)) : Prop where
  amounts : ∀ p ∈ granted, 0 ≤ p.2
  sorted : (granted.map Prod.fst).Pairwise (· ≤ ·)
  settled : ∀ p ∈ granted, p.1 ≤ b.ready
  spent : ∀ s ≤ b.ready,
    ((since s granted).map Prod.snd).sum + b.tokens ≤ M + b.rate * (b.last - s)
  bound : ∀ s t, s ≤ t → within s t granted ≤ M + b.rate * (t - s)

theorem Windowed.init {M rate t₀ : ℚ} {capacity : Option ℚ} (hr : 0 < rate)
    (hc : 0 ≤ capacity.getD rate) (hM : capacity.getD rate ≤ M) :
    Windowed M (init rate capacity t₀) [] where
  amounts := nofun
  sorted := .nil
  settled := nofun
  spent s hs := by
    have hready : ready (TokenBucket.init rate capacity t₀) = t₀ := by
      simp [ready, TokenBucket.init, hc]
    rw [hready] at hs
    have hrefill : 0 ≤ rate * (t₀ - s) := mul_nonneg hr.le (sub_nonneg.2 hs)
    simp only [since, TokenBucket.init, List.filter_nil, List.map_nil, List.sum_nil]
    linarith
  bound s t hst := by
    have hrefill : 0 ≤ rate * (t - s) := mul_nonneg hr.le (sub_nonneg.2 hst)
    exact add_nonneg (hc.trans hM) hrefill

/-- What one call adds to what was spent from `s` on. -/
theorem Windowed.spent_acquire {M now n : ℚ} {b : TokenBucket} {granted : List (ℚ × ℚ)}
    (h : Windowed M b granted) (hr : 0 < b.rate) (hM : b.capacity ≤ M) (hn : n ≤ M) {s : ℚ}
    (hs : s ≤ now + (b.acquire now n).2) :
    ((since s granted).map Prod.snd).sum + n + (b.acquire now n).1.tokens ≤
      M + b.rate * (now - s) := by
  obtain ⟨balance, wait, he, hbal, hwait, hcase⟩ := acquire_spec hr now n
  rw [he] at hs ⊢
  dsimp only at hs ⊢
  rcases le_or_gt s b.ready with hle | hlt
  · have hspent := h.spent s hle
    have hrefill : balance ≤ b.tokens + (now - b.last) * b.rate := hbal ▸ min_le_right _ _
    have hsplit : b.rate * (now - s) = b.rate * (b.last - s) + (now - b.last) * b.rate := by ring
    linarith
  · -- nothing was granted from `s` on: the request itself is all there is
    rw [since_eq_nil fun p hp => (h.settled p hp).trans_lt hlt, List.map_nil, List.sum_nil]
    rcases hcase with ⟨hle, rfl⟩ | ⟨-, hmul⟩
    · have hcap : balance ≤ b.capacity := hbal ▸ min_le_left _ _
      have hrefill : 0 ≤ b.rate * (now - s) := mul_nonneg hr.le (by linarith)
      linarith
    · have hover : b.rate * (s - now) ≤ b.rate * wait :=
        mul_le_mul_of_nonneg_left (by linarith) hr.le
      have hneg : b.rate * (now - s) = -(b.rate * (s - now)) := by ring
      linarith

theorem Windowed.acquire {M now n : ℚ} {b : TokenBucket} {granted : List (ℚ × ℚ)}
    (h : Windowed M b granted) (hr : 0 < b.rate) (hc : 0 ≤ b.capacity) (hM : b.capacity ≤ M)
    (hnow : b.last ≤ now) (hn : 0 ≤ n) (hnM : n ≤ M) :
    Windowed M (b.acquire now n).1 (granted ++ [(now + (b.acquire now n).2, n)]) := by
  have hready := ready_acquire hr now n
  have hmono := ready_le_grant hr hc hnow hn
  have hspent : ∀ s ≤ now + (b.acquire now n).2,
      ((since s granted).map Prod.snd).sum + n + (b.acquire now n).1.tokens ≤
        M + b.rate * (now - s) := fun s hs => h.spent_acquire hr hM hnM hs
  have hlast := acquire_last hr now n
  obtain ⟨grant, hgrant⟩ : ∃ grant, grant = now + (b.acquire now n).2 := ⟨_, rfl⟩
  rw [← hgrant] at hready hmono hspent ⊢
  have hamounts : ∀ p ∈ granted ++ [(grant, n)], 0 ≤ p.2 := by
    intro p hp
    rcases List.mem_append.1 hp with hp | hp
    · exact h.amounts p hp
    · rw [List.mem_singleton.1 hp]; exact hn
  have hsettled : ∀ p ∈ granted ++ [(grant, n)], p.1 ≤ grant := by
    intro p hp
    rcases List.mem_append.1 hp with hp | hp
    · exact (h.settled p hp).trans hmono
    · rw [List.mem_singleton.1 hp]
  refine ⟨hamounts, ?_, hready ▸ hsettled, ?_, ?_⟩
  · rw [List.map_append, List.map_singleton, List.pairwise_append]
    refine ⟨h.sorted, List.pairwise_singleton _ _, ?_⟩
    intro t ht g hg
    obtain ⟨p, hp, rfl⟩ := List.mem_map.1 ht
    rw [List.mem_singleton.1 hg]
    exact hsettled p (List.mem_append_left _ hp)
  · intro s hs
    rw [hready] at hs
    rw [sum_since_concat_of_le hs, acquire_rate, hlast]
    exact hspent s hs
  · intro s t hst
    rw [acquire_rate]
    rcases lt_or_ge t grant with ht | ht
    · rw [within_concat_of_lt ht]
      exact h.bound s t hst
    · refine (within_le_sum s t hamounts).trans ?_
      rcases le_or_gt s grant with hs | hs
      · -- the deficit this call leaves is paid back by its grant
        have hpaid : -(b.acquire now n).1.tokens ≤ b.rate * (grant - now) := by
          have hdeficit := rate_mul_ready (b := (b.acquire now n).1)
            (by rw [acquire_rate]; exact hr)
          rw [acquire_rate, hready, hlast] at hdeficit
          rw [hdeficit]
          exact le_max_right _ _
        have hmul : b.rate * (grant - now) ≤ b.rate * (t - now) :=
          mul_le_mul_of_nonneg_left (by linarith) hr.le
        have hsplit : b.rate * (t - s) = b.rate * (now - s) + b.rate * (t - now) := by ring
        have hfrom := hspent s hs
        rw [sum_since_concat_of_le hs]
        linarith
      · have hrefill : 0 ≤ b.rate * (t - s) := mul_nonneg hr.le (sub_nonneg.2 hst)
        rw [since_eq_nil fun p hp => (hsettled p hp).trans_lt hs, List.map_nil, List.sum_nil]
        linarith

/-- Calls in lock order, each with a reading of the clock that is no earlier
than the one before. -/
theorem Windowed.grants {M : ℚ} {calls : List (ℚ × ℚ)} :
    ∀ {b : TokenBucket} {granted : List (ℚ × ℚ)}, Windowed M b granted → 0 < b.rate →
      0 ≤ b.capacity → b.capacity ≤ M → (b.last :: calls.map Prod.fst).IsChain (· ≤ ·) →
      (∀ c ∈ calls, 0 ≤ c.2 ∧ c.2 ≤ M) →
      ∃ b', Windowed M b' (granted ++ b.grants calls) ∧ b'.rate = b.rate := by
  induction calls with
  | nil =>
    intro b granted h _ _ _ _ _
    exact ⟨b, by rw [TokenBucket.grants, List.append_nil]; exact h, rfl⟩
  | cons c calls ih =>
    intro b granted h hr hc hM hclock hreq
    obtain ⟨now, n⟩ := c
    rw [List.map_cons, List.isChain_cons_cons] at hclock
    obtain ⟨hn, hnM⟩ := hreq _ List.mem_cons_self
    have hstep := h.acquire hr hc hM hclock.1 hn hnM
    obtain ⟨b', hb', hrate⟩ := ih hstep (by rw [acquire_rate]; exact hr)
      (by rw [acquire_capacity]; exact hc) (by rw [acquire_capacity]; exact hM)
      (by rw [acquire_last hr]; exact hclock.2) fun c' hc' => hreq c' (List.mem_cons_of_mem _ hc')
    refine ⟨b', ?_, hrate.trans (acquire_rate _ _ _)⟩
    rw [TokenBucket.grants, List.append_cons]
    exact hb'

/-- **Rate in every window.** A bucket made at `t₀`, and calls in lock order. -/
theorem windows (rate : ℚ) (capacity : Option ℚ) (t₀ : ℚ) (calls : List (ℚ × ℚ)) (hr : 0 < rate)
    (hc : 0 ≤ capacity.getD rate) (hclock : (t₀ :: calls.map Prod.fst).IsChain (· ≤ ·))
    (hn : ∀ c ∈ calls, 0 ≤ c.2) :
    (((init rate capacity t₀).grants calls).map Prod.fst).Pairwise (· ≤ ·) ∧
    ∀ s t, s ≤ t → within s t ((init rate capacity t₀).grants calls) ≤
      max (capacity.getD rate) (largest calls) + rate * (t - s) := by
  have hinit : Windowed (max (capacity.getD rate) (largest calls)) (init rate capacity t₀) [] :=
    Windowed.init hr hc (le_max_left _ _)
  obtain ⟨b', h, hrate⟩ := hinit.grants hr hc (le_max_left _ _) hclock fun c hc' =>
    ⟨hn c hc', (le_largest hc').trans (le_max_right _ _)⟩
  rw [List.nil_append] at h
  refine ⟨h.sorted, fun s t hst => ?_⟩
  have hbound := h.bound s t hst
  rw [hrate] at hbound
  exact hbound

/-- Two tokens a second, a burst of one: a request for three at second 0, one
for one token at second 1, while the first still waits. -/
theorem windows_overlap :
    TokenBucket.grants (init 2 (some 1) 0) [(0, 3), (1, 1)] = [(1, 3), (3 / 2, 1)] ∧
    within 1 (3 / 2) (TokenBucket.grants (init 2 (some 1) 0) [(0, 3), (1, 1)]) ≤
      max 1 (largest [(0, 3), (1, 1)]) + 2 * (3 / 2 - 1) :=
  ⟨by decide +kernel,
    (windows 2 (some 1) 0 [(0, 3), (1, 1)] (by norm_num) (by norm_num) (by simp) (by simp)).2
      1 (3 / 2) (by norm_num)⟩

end TokenBucket

end RedisToAerospike.L4
