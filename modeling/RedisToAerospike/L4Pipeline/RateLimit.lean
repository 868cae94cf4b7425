import RedisToAerospike.Core.Metered
import Mathlib.Tactic.Linarith
import Mathlib.Tactic.Ring

/-!
# The token bucket (`ratelimit.py`)

Times and tokens are exact rationals; `acquire` is what runs under the lock,
given the reading of the clock, and returns how long the caller is to sleep.

* `Sound`: however many tokens have been granted, those whose wait is over by
  `t` fit into the burst and the refill since the bucket was made.
-/
namespace RedisToAerospike.L4
open Metered

/-- mirrors src/redis_to_aerospike/ratelimit.py:20-35 -/
structure TokenBucket where
  rate : ℚ
  capacity : ℚ
  tokens : ℚ
  last : ℚ

namespace TokenBucket

/-- mirrors src/redis_to_aerospike/ratelimit.py:28-35 -/
def init (rate : ℚ) (capacity : Option ℚ) (now : ℚ) : TokenBucket where
  rate := rate
  capacity := capacity.getD rate
  tokens := capacity.getD rate
  last := now

def enabled (b : TokenBucket) : Bool := decide (0 < b.rate)

/-- mirrors src/redis_to_aerospike/ratelimit.py:37-62 -/
def acquire (b : TokenBucket) (now tokens : ℚ) : TokenBucket × ℚ :=
  if b.enabled then
    let balance := min b.capacity (b.tokens + (now - b.last) * b.rate)
    let wait := if tokens ≤ balance then 0 else (tokens - balance) / b.rate
    ({ b with last := now, tokens := balance - tokens }, wait)
  else (b, 0)

/-- The state of a bucket made at `t₀`, with what it has granted so far: when
each wait is over, and how many tokens. -/
structure Sound (t₀ : ℚ) (b : TokenBucket) (granted : List (ℚ × ℚ)) : Prop where
  made : t₀ ≤ b.last
  amounts : ∀ p ∈ granted, 0 ≤ p.2
  balance : b.tokens + (granted.map Prod.snd).sum ≤ b.capacity + b.rate * (b.last - t₀)
  bound : ∀ t, t₀ ≤ t → upTo t granted ≤ b.capacity + b.rate * (t - t₀)

theorem Sound.init {rate capacity t₀ : ℚ} (hr : 0 < rate) (hc : 0 ≤ capacity) :
    Sound t₀ (init rate (some capacity) t₀) [] where
  made := le_rfl
  amounts := nofun
  balance := by simp [TokenBucket.init]
  bound t ht := by
    have hrefill : 0 ≤ rate * (t - t₀) := mul_nonneg hr.le (sub_nonneg.2 ht)
    exact add_nonneg hc hrefill

/-- One call under the lock, at a reading of the clock that is no earlier than
the last one. -/
theorem Sound.acquire {t₀ now n : ℚ} {b : TokenBucket} {granted : List (ℚ × ℚ)}
    (h : Sound t₀ b granted) (hr : 0 < b.rate) (hnow : b.last ≤ now) (hn : 0 ≤ n) :
    Sound t₀ (b.acquire now n).1 (granted ++ [(now + (b.acquire now n).2, n)]) := by
  have henabled : b.enabled = true := decide_eq_true hr
  obtain ⟨balance, hbalance⟩ :
      ∃ balance, balance = min b.capacity (b.tokens + (now - b.last) * b.rate) := ⟨_, rfl⟩
  obtain ⟨wait, hwait⟩ :
      ∃ wait, wait = if n ≤ balance then 0 else (n - balance) / b.rate := ⟨_, rfl⟩
  unfold TokenBucket.acquire
  rw [if_pos henabled]
  simp only [← hbalance, ← hwait]
  have hamounts : ∀ p ∈ granted ++ [(now + wait, n)], 0 ≤ p.2 := by
    intro p hp
    rcases List.mem_append.1 hp with hp | hp
    · exact h.amounts p hp
    · rw [List.mem_singleton.1 hp]; exact hn
  -- the refill keeps the balance below what the clock allows
  have hrefill : balance + (granted.map Prod.snd).sum ≤ b.capacity + b.rate * (now - t₀) := by
    have hle : balance ≤ b.tokens + (now - b.last) * b.rate := hbalance ▸ min_le_right _ _
    have hb := h.balance
    have hsplit : b.rate * (now - t₀) = b.rate * (b.last - t₀) + (now - b.last) * b.rate := by ring
    linarith
  -- the wait makes up for what the balance lacks
  have hlack : n - balance ≤ b.rate * wait := by
    rw [hwait]
    split
    · rename_i hle
      rw [mul_zero]
      linarith
    · rw [mul_div_cancel₀ _ hr.ne']
  refine ⟨h.made.trans hnow, hamounts, ?_, fun t ht => ?_⟩
  · rw [List.map_append, List.sum_append, List.map_singleton, List.sum_singleton]
    dsimp only
    linarith
  · rw [upTo_concat]
    by_cases hgrant : now + wait ≤ t
    · have hsum := upTo_le_sum t h.amounts
      have hmono := mul_le_mul_of_nonneg_left hgrant hr.le
      have hdue : due t (now + wait, n) = n := if_pos hgrant
      rw [hdue]
      linarith
    · have hdue : due t (now + wait, n) = 0 := if_neg hgrant
      rw [hdue, add_zero]
      exact h.bound t ht

@[simp] theorem acquire_rate (b : TokenBucket) (now n : ℚ) : (b.acquire now n).1.rate = b.rate := by
  unfold TokenBucket.acquire
  split <;> rfl

@[simp] theorem acquire_capacity (b : TokenBucket) (now n : ℚ) :
    (b.acquire now n).1.capacity = b.capacity := by
  unfold TokenBucket.acquire
  split <;> rfl

theorem acquire_last {b : TokenBucket} (hr : 0 < b.rate) (now n : ℚ) :
    (b.acquire now n).1.last = now := by
  have henabled : b.enabled = true := decide_eq_true hr
  unfold TokenBucket.acquire
  rw [if_pos henabled]

end TokenBucket

end RedisToAerospike.L4
