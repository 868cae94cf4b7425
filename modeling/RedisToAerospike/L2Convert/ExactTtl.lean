import RedisToAerospike.Core.Rounding
import RedisToAerospike.L2Convert.TtlPolicy

/-!
# TTL conversion against exact arithmetic (`converters/base.py`)

`ttl_ms / 1000` is a float division, its ceiling an integer. A quotient that is
no whole number of seconds is at least a millisecond away from one, and below
2^33 seconds the rounding error is smaller; above, every cap is exceeded. No
TTL up to `2 ^ 1023`, so none of 64 bits, leaves the float range.

* `ceilSeconds_exact`: the computed seconds are the exact ones, or both are
  beyond every TTL.
* `exact_ttl`: `to_ttl` takes the branch and returns the value that exact
  seconds give.
-/
namespace RedisToAerospike.L2
open L1

/-- mirrors src/redis_to_aerospike/converters/base.py:91-102 -/
def toAerospikeTtl (F : Type) [PyFloat F] : Option Int → Except Exn Int
  | none => .ok TTL_NEVER_EXPIRE
  | some ttlMs => do
    let seconds ← ttlSeconds F ttlMs
    .ok (min MAX_REAL_TTL_S seconds)

/-- The exact ceiling of `ttlMs / 1000`, at least one. -/
def exactSeconds (ttlMs : Int) : Int := max 1 ((ttlMs + 999) / 1000)

/-- `to_ttl` on exact seconds. -/
def TtlPolicy.exactTtl (p : TtlPolicy) (ttlMs : Int) : Except Exn Int :=
  if p.maxTtlS ≠ 0 ∧ p.maxTtlS < exactSeconds ttlMs then p.handleOverflow (exactSeconds ttlMs)
  else .ok (min MAX_REAL_TTL_S (exactSeconds ttlMs))

/-- No record is expired before its time. -/
theorem le_exactSeconds (ttlMs : Int) : ttlMs ≤ 1000 * exactSeconds ttlMs := by
  unfold exactSeconds
  omega

section
variable {F : Type} [PyFloat F]

theorem mkRat_thousand (m : ℕ) : mkRat (m : Int) 1000 = (m : ℚ) / (1000 : ℕ) := by
  rw [Rat.mkRat_eq_div, Int.cast_natCast]

theorem beyondFloat_iff {ttlMs : Int} :
    BeyondFloat F ttlMs ↔ 2 ^ 1024 ≤ |PyFloat.round F (mkRat ttlMs 1000)| := by
  unfold BeyondFloat
  generalize PyFloat.round F (mkRat ttlMs 1000) = q
  have hden : (0 : ℚ) < q.den := Nat.cast_pos.2 q.den_pos
  rw [Rat.abs_def, Rat.divInt_eq_div, Int.cast_natCast, Int.cast_natCast, le_div_iff₀ hden]
  norm_cast

theorem not_beyondFloat (hfl : Rounding (PyFloat.round F)) {ttlMs : Int} (h0 : 0 ≤ ttlMs)
    (hle : ttlMs ≤ 2 ^ 1023) : ¬ BeyondFloat F ttlMs := by
  obtain ⟨m, rfl⟩ := Int.eq_ofNat_of_zero_le h0
  have hm : (m : ℚ) ≤ 2 ^ 1023 := by
    have hcast := (Int.cast_le (R := ℚ)).2 hle
    rwa [Int.cast_pow, Int.cast_ofNat, Int.cast_natCast] at hcast
  have hq : (m : ℚ) / (1000 : ℕ) ≤ 2 ^ 1023 :=
    (div_le_self (Nat.cast_nonneg m) (by norm_num)).trans hm
  have hpos : (0 : ℚ) ≤ m / (1000 : ℕ) := div_nonneg (Nat.cast_nonneg m) (Nat.cast_nonneg 1000)
  have hfl0 : 0 ≤ PyFloat.round F (m / (1000 : ℕ)) := by
    exact_mod_cast hfl.natCast_le (n := 0) (by decide) (by exact_mod_cast hpos)
  rw [beyondFloat_iff, mkRat_thousand, abs_of_nonneg hfl0, not_le]
  exact hfl.lt_limit hpos hq

theorem ceilSeconds_exact (hfl : Rounding (PyFloat.round F)) {ttlMs : Int} (h0 : 0 ≤ ttlMs) :
    ceilSeconds F ttlMs = exactSeconds ttlMs ∨
      (MAX_REAL_TTL_S < ceilSeconds F ttlMs ∧ MAX_REAL_TTL_S < exactSeconds ttlMs) := by
  obtain ⟨m, rfl⟩ := Int.eq_ofNat_of_zero_le h0
  unfold ceilSeconds exactSeconds
  rw [mkRat_thousand]
  rcases Nat.lt_or_ge m (2 ^ 33 * 1000) with hsmall | hlarge
  · have hceil := hfl.ceil_quotient (m := m) (d := 1000) (k := (m + 999) / 1000) (by decide)
      (by omega) (by omega) (by omega)
    left
    rw [hceil]
    push_cast
    rfl
  · have hceil := hfl.le_ceil_quotient (m := m) (d := 1000) (n := 2 ^ 33) (by decide) (by decide)
      hlarge
    right
    unfold MAX_REAL_TTL_S
    constructor
    · refine lt_of_lt_of_le ?_ ((Int.le_max_right 1 _).trans' hceil)
      decide
    · omega

/-- A limit is exceeded in floats where it is exceeded exactly. -/
theorem TtlPolicy.overflows_exact (hfl : Rounding (PyFloat.round F)) {p : TtlPolicy}
    (hmax : p.maxTtlS ≤ MAX_REAL_TTL_S) {ttlMs : Int} (h0 : 0 ≤ ttlMs) :
    p.Overflows F ttlMs ↔ p.maxTtlS ≠ 0 ∧ p.maxTtlS < exactSeconds ttlMs := by
  unfold Overflows
  rcases ceilSeconds_exact hfl h0 with he | ⟨hc, he⟩
  · rw [he]
  · exact and_congr_right fun _ => ⟨fun _ => by omega, fun _ => by omega⟩

theorem min_ceilSeconds (hfl : Rounding (PyFloat.round F)) {ttlMs : Int} (h0 : 0 ≤ ttlMs) :
    min MAX_REAL_TTL_S (ceilSeconds F ttlMs) = min MAX_REAL_TTL_S (exactSeconds ttlMs) := by
  rcases ceilSeconds_exact hfl h0 with he | ⟨hc, he⟩
  · rw [he]
  · rw [Int.min_eq_left hc.le, Int.min_eq_left he.le]

/-- The value of an overflow does not depend on the seconds. -/
theorem TtlPolicy.handleOverflow_ok {p : TtlPolicy} {s ttl : Int} (h : p.handleOverflow s = .ok ttl)
    (s' : Int) : p.handleOverflow s' = .ok ttl := by
  unfold handleOverflow at h ⊢
  cases hm : p.mode with
  | reject => rw [hm] at h; cases h
  | clamp => rw [hm] at h; exact h
  | neverExpire => rw [hm] at h; exact h

theorem TtlPolicy.toTtl_exact (hfl : Rounding (PyFloat.round F)) {p : TtlPolicy}
    (hmax : p.maxTtlS ≤ MAX_REAL_TTL_S) {ttlMs : Int} (h0 : 0 ≤ ttlMs)
    (hf : ¬ BeyondFloat F ttlMs) (ttl : Int) :
    p.toTtl F (some ttlMs) = .ok ttl ↔ p.exactTtl ttlMs = .ok ttl := by
  have hover := TtlPolicy.overflows_exact hfl hmax h0
  unfold exactTtl
  by_cases h : p.Overflows F ttlMs
  · rw [toTtl_overflow F hf h, if_pos (hover.1 h)]
    exact ⟨fun hok => handleOverflow_ok hok _, fun hok => handleOverflow_ok hok _⟩
  · rw [toTtl_within F hf h, if_neg fun hc => h (hover.2 hc), min_ceilSeconds hfl h0]

theorem TtlPolicy.toTtl_eq_toAerospikeTtl {p : TtlPolicy} {ttlMs : Int}
    (h : ¬ p.Overflows F ttlMs) : p.toTtl F (some ttlMs) = toAerospikeTtl F (some ttlMs) := by
  by_cases hf : BeyondFloat F ttlMs
  · rw [toTtl_beyond F hf, toAerospikeTtl, ttlSeconds, if_pos hf]
    rfl
  · rw [toTtl_within F hf h, toAerospikeTtl, ttlSeconds, if_neg hf]
    rfl

/-- `ttl` is a cap that the exact seconds exceed. -/
def TtlPolicy.Capped (p : TtlPolicy) (ttlMs ttl : Int) : Prop :=
  (ttl = MAX_REAL_TTL_S ∨ p.mode = .clamp ∧ ttl = p.maxTtlS) ∧ ttl < exactSeconds ttlMs

theorem TtlPolicy.exactTtl_not_early {p : TtlPolicy} {ttlMs ttl : Int}
    (h : p.exactTtl ttlMs = .ok ttl) :
    ttl = TTL_NEVER_EXPIRE ∨ ttlMs ≤ 1000 * ttl ∨ p.Capped ttlMs ttl := by
  have hle := le_exactSeconds ttlMs
  unfold exactTtl at h
  split at h
  · rename_i hover
    unfold handleOverflow at h
    cases hm : p.mode with
    | reject => rw [hm] at h; cases h
    | neverExpire => rw [hm] at h; cases h; exact .inl rfl
    | clamp => rw [hm] at h; cases h; exact .inr (.inr ⟨.inr ⟨hm, rfl⟩, hover.2⟩)
  · cases h
    rcases Int.le_total (exactSeconds ttlMs) MAX_REAL_TTL_S with hs | hs
    · rw [Int.min_eq_right hs]
      exact .inr (.inl hle)
    · rw [Int.min_eq_left hs]
      rcases Int.lt_or_eq_of_le hs with hlt | heq
      · exact .inr (.inr ⟨.inl rfl, hlt⟩)
      · rw [heq]
        exact .inr (.inl hle)

/-- **Exact TTL.** Whatever the rounding, `to_ttl` overflows where exact seconds
do and returns what they give, unless the seconds are no float; within the limit
that is `to_aerospike_ttl`. So no record expires early, caps apart. -/
theorem TtlPolicy.exact_ttl (hfl : Rounding (PyFloat.round F)) {p : TtlPolicy}
    (hmax : p.maxTtlS ≤ MAX_REAL_TTL_S) {ttlMs : Int} (h0 : 0 ≤ ttlMs) :
    (p.Overflows F ttlMs ↔ p.maxTtlS ≠ 0 ∧ p.maxTtlS < exactSeconds ttlMs) ∧
    (ttlMs ≤ 2 ^ 1023 → ¬ BeyondFloat F ttlMs) ∧
    (¬ BeyondFloat F ttlMs → ∀ ttl,
      p.toTtl F (some ttlMs) = .ok ttl ↔ p.exactTtl ttlMs = .ok ttl) ∧
    (¬ p.Overflows F ttlMs → p.toTtl F (some ttlMs) = toAerospikeTtl F (some ttlMs)) ∧
    ∀ ttl, p.toTtl F (some ttlMs) = .ok ttl →
      ttl = TTL_NEVER_EXPIRE ∨ ttlMs ≤ 1000 * ttl ∨ p.Capped ttlMs ttl := by
  refine ⟨overflows_exact hfl hmax h0, not_beyondFloat hfl h0, toTtl_exact hfl hmax h0,
    toTtl_eq_toAerospikeTtl, fun ttl h => ?_⟩
  by_cases hf : BeyondFloat F ttlMs
  · rw [toTtl_beyond F hf] at h
    cases h
  · exact exactTtl_not_early ((toTtl_exact hfl hmax h0 hf ttl).1 h)

end

/-- One and a half seconds are two, under a limit of two. -/
theorem exact_ttl_short :
    TtlPolicy.toTtl String ⟨.reject, 2⟩ (some 1500) = toAerospikeTtl String (some 1500) ∧
      TtlPolicy.toTtl String ⟨.reject, 2⟩ (some 1500) = .ok 2 := by
  have h := TtlPolicy.exact_ttl (F := String) (p := ⟨.reject, 2⟩) Rounding.id (by decide)
    (show (0 : Int) ≤ 1500 by decide)
  obtain ⟨hover, hfloat, hexact, hto, -⟩ := h
  exact ⟨hto (by rw [hover]; decide), (hexact (hfloat (by decide +kernel)) 2).2 (by decide)⟩

end RedisToAerospike.L2
