import RedisToAerospike.L1Data.Config
import RedisToAerospike.L1Data.Models

/-!
# TTL conversion (`converters/base.py`, `TtlPolicy`)

A Redis TTL in milliseconds becomes an Aerospike TTL in seconds, rounded up.
`ttl_ms / 1000` is a float division: the exact quotient through
`PyFloat.round`, and an `OverflowError` beyond the float range. The one warning
per run is not modelled.

* `toTtl_error_iff`: the TTLs that are rejected.
* `unreserved_iff`: when a finite expiry may become one of Aerospike's reserved
  TTLs, or no TTL at all: the clamping policy returns `max_ttl_s` as it is.
-/
namespace RedisToAerospike.L2
open L1

/-- mirrors src/redis_to_aerospike/converters/base.py:69-72 -/
def MAX_REAL_TTL_S : Int := 0xFFFFFFFC

/-- `max(1, math.ceil(ttl_ms / 1000))`, where the quotient is a float. -/
def ceilSeconds (F : Type) [PyFloat F] (ttlMs : Int) : Int :=
  max 1 (PyFloat.round F (mkRat ttlMs 1000)).ceil

/-- The rounded `ttl_ms / 1000` is `2 ^ 1024` or more in absolute value: no
float is. -/
def BeyondFloat (F : Type) [PyFloat F] (ttlMs : Int) : Prop :=
  2 ^ 1024 * (PyFloat.round F (mkRat ttlMs 1000)).den ≤
    (PyFloat.round F (mkRat ttlMs 1000)).num.natAbs

instance (F : Type) [PyFloat F] (ttlMs : Int) : Decidable (BeyondFloat F ttlMs) := Nat.decLe _ _

/-- What `/` raises on integers whose quotient is no float. -/
def floatOverflow : Exn := .other "OverflowError" "integer division result too large for a float"

/-- `max(1, math.ceil(ttl_ms / 1000))` -/
def ttlSeconds (F : Type) [PyFloat F] (ttlMs : Int) : Except Exn Int :=
  if BeyondFloat F ttlMs then .error floatOverflow else .ok (ceilSeconds F ttlMs)

/-- mirrors src/redis_to_aerospike/converters/base.py:123-131 -/
structure TtlPolicy where
  mode : TtlOverflowPolicy := .reject
  maxTtlS : Int := DEFAULT_MAX_TTL_S
  deriving DecidableEq

/-- mirrors src/redis_to_aerospike/converters/base.py:141-164 -/
def TtlPolicy.handleOverflow (p : TtlPolicy) (seconds : Int) : Except Exn Int :=
  match p.mode with
  | .reject => .error (.ttlTooLong
      ("TTL " ++ toString seconds ++ "s exceeds the Aerospike max-ttl of " ++
        toString p.maxTtlS ++ "s"))
  | .neverExpire => .ok TTL_NEVER_EXPIRE
  | .clamp => .ok p.maxTtlS

/-- mirrors src/redis_to_aerospike/converters/base.py:133-139 -/
def TtlPolicy.toTtl (F : Type) [PyFloat F] (p : TtlPolicy) : Option Int → Except Exn Int
  | none => .ok TTL_NEVER_EXPIRE
  | some ttlMs => do
    let seconds ← ttlSeconds F ttlMs
    if p.maxTtlS ≠ 0 ∧ p.maxTtlS < seconds then p.handleOverflow seconds
    else .ok (min MAX_REAL_TTL_S seconds)

section
variable (F : Type) [PyFloat F]

/-- The TTL is above a limit that is set. -/
def TtlPolicy.Overflows (p : TtlPolicy) (ttlMs : Int) : Prop :=
  p.maxTtlS ≠ 0 ∧ p.maxTtlS < ceilSeconds F ttlMs

theorem one_le_ceilSeconds (ttlMs : Int) : 1 ≤ ceilSeconds F ttlMs := Int.le_max_left 1 _

theorem TtlPolicy.toTtl_beyond {p : TtlPolicy} {ttlMs : Int} (h : BeyondFloat F ttlMs) :
    p.toTtl F (some ttlMs) = .error floatOverflow := by
  rw [toTtl, ttlSeconds, if_pos h]
  rfl

/-- In the float range, `to_ttl` decides on the seconds. -/
theorem TtlPolicy.toTtl_some {p : TtlPolicy} {ttlMs : Int} (h : ¬ BeyondFloat F ttlMs) :
    p.toTtl F (some ttlMs) =
      if p.maxTtlS ≠ 0 ∧ p.maxTtlS < ceilSeconds F ttlMs then p.handleOverflow (ceilSeconds F ttlMs)
      else .ok (min MAX_REAL_TTL_S (ceilSeconds F ttlMs)) := by
  rw [toTtl, ttlSeconds, if_neg h]
  rfl

theorem TtlPolicy.toTtl_overflow {p : TtlPolicy} {ttlMs : Int} (hf : ¬ BeyondFloat F ttlMs)
    (h : p.Overflows F ttlMs) :
    p.toTtl F (some ttlMs) = p.handleOverflow (ceilSeconds F ttlMs) :=
  (toTtl_some F hf).trans (if_pos h)

theorem TtlPolicy.toTtl_within {p : TtlPolicy} {ttlMs : Int} (hf : ¬ BeyondFloat F ttlMs)
    (h : ¬ p.Overflows F ttlMs) :
    p.toTtl F (some ttlMs) = .ok (min MAX_REAL_TTL_S (ceilSeconds F ttlMs)) :=
  (toTtl_some F hf).trans (if_neg h)

/-- `to_ttl` raises on a limit exceeded under `REJECT`, and beyond the float
range. -/
theorem TtlPolicy.toTtl_error_iff (p : TtlPolicy) (ttlMs : Option Int) :
    (∃ exc, p.toTtl F ttlMs = .error exc) ↔
      (p.mode = .reject ∧ ∃ ms, ttlMs = some ms ∧ p.Overflows F ms) ∨
        ∃ ms, ttlMs = some ms ∧ BeyondFloat F ms := by
  cases ttlMs with
  | none => simp [toTtl]
  | some ms =>
    by_cases hf : BeyondFloat F ms
    · rw [toTtl_beyond F hf]
      simp [hf]
    · by_cases h : p.Overflows F ms
      · rw [toTtl_overflow F hf h, handleOverflow]
        cases hm : p.mode <;> simp [h, hf]
      · rw [toTtl_within F hf h]
        simp [h, hf]

/-- A finite expiry stays one, or is dropped by the policy that says so. -/
def TtlPolicy.Unreserved (p : TtlPolicy) (ttlMs : Int) : Prop :=
  ∀ ttl, p.toTtl F (some ttlMs) = .ok ttl →
    (1 ≤ ttl ∧ ttl ≤ MAX_REAL_TTL_S) ∨
      (ttl = TTL_NEVER_EXPIRE ∧ p.mode = .neverExpire ∧ p.maxTtlS < ceilSeconds F ttlMs)

/-- **Reserved TTLs.** A finite expiry never becomes one, unless the policy
clamps it to a `max_ttl_s` outside the real range. -/
theorem TtlPolicy.unreserved_iff (p : TtlPolicy) (ttlMs : Int) :
    p.Unreserved F ttlMs ↔
      ¬ (p.mode = .clamp ∧ ¬ BeyondFloat F ttlMs ∧ p.Overflows F ttlMs ∧
        (p.maxTtlS < 1 ∨ MAX_REAL_TTL_S < p.maxTtlS)) := by
  have hone := one_le_ceilSeconds F ttlMs
  unfold Unreserved
  by_cases hf : BeyondFloat F ttlMs
  · rw [toTtl_beyond F hf]
    exact ⟨fun _ hc => hc.2.1 hf, fun _ ttl ht => by cases ht⟩
  · by_cases h : p.Overflows F ttlMs
    · rw [toTtl_overflow F hf h, handleOverflow]
      cases hm : p.mode with
      | reject => simp
      | neverExpire =>
        refine ⟨nofun, fun _ ttl ht => ?_⟩
        cases ht
        exact .inr ⟨rfl, rfl, h.2⟩
      | clamp =>
        constructor
        · intro hreal ⟨_, _, _, hout⟩
          rcases hreal _ rfl with hin | ⟨_, hmode, _⟩
          · omega
          · cases hmode
        · intro hin ttl ht
          cases ht
          have hrange : ¬ (p.maxTtlS < 1 ∨ MAX_REAL_TTL_S < p.maxTtlS) := fun hout =>
            hin ⟨rfl, hf, h, hout⟩
          exact .inl (by omega)
    · rw [toTtl_within F hf h]
      refine ⟨fun _ hc => h hc.2.2.1, fun _ ttl ht => ?_⟩
      cases ht
      refine .inl ⟨?_, Int.min_le_left _ _⟩
      exact Int.le_min.2 ⟨by decide, hone⟩

end

/-- A `max-ttl` of `0xFFFFFFFE` seconds is handed on as "don't update", and
one of `-1` as it is. -/
theorem clamped_to_reserved :
    ¬ TtlPolicy.Unreserved String ⟨.clamp, 0xFFFFFFFE⟩ 5000000000000 ∧
      ¬ TtlPolicy.Unreserved String ⟨.clamp, -1⟩ 5000 := by
  refine ⟨fun h => ?_, fun h => ?_⟩
  · exact absurd (h 0xFFFFFFFE (by decide +kernel)) (by decide)
  · exact absurd (h (-1) (by decide +kernel)) (by decide)

end RedisToAerospike.L2
