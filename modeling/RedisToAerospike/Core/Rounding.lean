import Mathlib.Algebra.Order.Floor.Ring
import Mathlib.Data.Rat.Floor
import Mathlib.Tactic.Linarith
import Mathlib.Tactic.NormNum
import Mathlib.Tactic.Positivity
import Mathlib.Tactic.FieldSimp

/-!
# Rounding to a binary64 number

What the results of a correctly rounded operation satisfy (`Rounding`), as far
as ceilings of quotients need it: order is kept, small integers are exact, and
in the normal range the relative error is at most `2 ^ -53`.

* `ceil_quotient`: the ceiling of a rounded quotient is the exact ceiling while
  the error is smaller than the least distance to an integer.
* `le_ceil_quotient`: beyond, it is not below any small integer that the
  quotient reaches.
* `lt_limit`: up to `2 ^ 1023` nothing rounds to `2 ^ 1024`.
-/

/-- `fl` rounds a nonnegative rational. -/
structure Rounding (fl : ℚ → ℚ) : Prop where
  mono : ∀ x y, 0 ≤ x → x ≤ y → fl x ≤ fl y
  exact : ∀ n : ℕ, n < 2 ^ 53 → fl n = n
  error : ∀ x, 1 / 2 ^ 1022 ≤ x → x ≤ 2 ^ 1023 → |fl x - x| ≤ x / 2 ^ 53

namespace Rounding

variable {fl : ℚ → ℚ}

/-- Exact numbers round to themselves. -/
protected theorem id : Rounding id where
  mono _ _ _ h := h
  exact _ _ := rfl
  error x hx _ := by
    have hpos : 0 ≤ x := le_trans (by positivity) hx
    rw [id_eq, sub_self, abs_zero]
    positivity

theorem natCast_le (h : Rounding fl) {n : ℕ} (hn : n < 2 ^ 53) {x : ℚ} (hx : n ≤ x) : n ≤ fl x := by
  rw [← h.exact n hn]
  exact h.mono _ _ (Nat.cast_nonneg n) hx

theorem le_natCast (h : Rounding fl) {n : ℕ} (hn : n < 2 ^ 53) {x : ℚ} (h0 : 0 ≤ x) (hx : x ≤ n) :
    fl x ≤ n := by
  rw [← h.exact n hn]
  exact h.mono _ _ h0 hx

theorem lt_limit (h : Rounding fl) {x : ℚ} (h0 : 0 ≤ x) (hx : x ≤ 2 ^ 1023) : fl x < 2 ^ 1024 := by
  have hone : (1 : ℚ) ≤ 2 ^ 1023 := one_le_pow₀ one_le_two
  have hlt : fl x < 2 * 2 ^ 1023 := by
    rcases le_total x 1 with hsmall | hlarge
    · have hfl : fl x ≤ (1 : ℕ) := h.le_natCast (by decide) h0 (by rwa [Nat.cast_one])
      rw [Nat.cast_one] at hfl
      exact lt_of_le_of_lt (hfl.trans hone) (lt_two_mul_self (lt_of_lt_of_le one_pos hone))
    · have hmin : (1 : ℚ) / 2 ^ 1022 ≤ x :=
        le_trans (div_le_one_of_le₀ (one_le_pow₀ one_le_two) (by positivity)) hlarge
      have herr := (abs_le.1 (h.error x hmin hx)).2
      have hfrac : x / 2 ^ 53 < x := div_lt_self (lt_of_lt_of_le one_pos hlarge) (by norm_num)
      calc fl x < 2 * x := by linarith
        _ ≤ 2 * 2 ^ 1023 := mul_le_mul_of_nonneg_left hx two_pos.le
  rwa [← pow_succ'] at hlt

/-- The error leaves a quotient above the integer below it: its distance to
that integer is at least `1 / d`. -/
theorem lt_quotient (h : Rounding fl) {m d k : ℕ} (hd : 0 < d) (hk : 0 < k) (hlow : k * d < m + d)
    (hup : m ≤ k * d) (hsmall : k * d < 2 ^ 53) : (k : ℚ) - 1 < fl (m / d) := by
  have hd' : (0 : ℚ) < d := Nat.cast_pos.2 hd
  have hle : d ≤ k * d := Nat.le_mul_of_pos_left d hk
  have hm : 1 ≤ m := by omega
  have hdist : (k : ℚ) - 1 + 1 / d ≤ m / d := by
    have hcast : (k : ℚ) * d + 1 ≤ m + d := by exact_mod_cast hlow
    rw [le_div_iff₀ hd', add_mul, sub_mul, div_mul_cancel₀ _ hd'.ne']
    linarith
  have hq : (m : ℚ) / d ≤ k := by
    rw [div_le_iff₀ hd']
    exact_mod_cast hup
  have hk53 : (k : ℚ) * d < 2 ^ 53 := by exact_mod_cast hsmall
  have herr : (m : ℚ) / d / 2 ^ 53 < 1 / d := by
    rw [div_lt_div_iff₀ (by positivity) hd', one_mul]
    exact lt_of_le_of_lt (mul_le_mul_of_nonneg_right hq hd'.le) hk53
  have hmin : (1 : ℚ) / 2 ^ 1022 ≤ m / d := by
    have hd53 : (d : ℚ) ≤ 2 ^ 53 := by exact_mod_cast (hle.trans_lt hsmall).le
    have hone : (1 : ℚ) ≤ m := by exact_mod_cast hm
    calc (1 : ℚ) / 2 ^ 1022 ≤ 1 / 2 ^ 53 :=
          one_div_le_one_div_of_le (by positivity)
            (pow_le_pow_right₀ (by norm_num) (by norm_num))
      _ ≤ 1 / (d : ℚ) := one_div_le_one_div_of_le hd' hd53
      _ ≤ (m : ℚ) / d := by gcongr
  have hmax : (m : ℚ) / d ≤ 2 ^ 1023 := by
    have hk' : (k : ℚ) ≤ 2 ^ 53 := by
      exact_mod_cast ((Nat.le_mul_of_pos_right k hd).trans_lt hsmall).le
    calc (m : ℚ) / d ≤ 2 ^ 53 := hq.trans hk'
      _ ≤ 2 ^ 1023 := pow_le_pow_right₀ (by norm_num) (by norm_num)
  have habs := (abs_le.1 (h.error _ hmin hmax)).1
  linarith

theorem ceil_quotient (h : Rounding fl) {m d k : ℕ} (hd : 0 < d) (hlow : k * d < m + d)
    (hup : m ≤ k * d) (hsmall : k * d < 2 ^ 53) : (fl (m / d)).ceil = k := by
  have hd' : (0 : ℚ) < d := Nat.cast_pos.2 hd
  have hk53 : k < 2 ^ 53 := (Nat.le_mul_of_pos_right k hd).trans_lt hsmall
  have hq : (m : ℚ) / d ≤ k := by
    rw [div_le_iff₀ hd']
    exact_mod_cast hup
  apply le_antisymm
  · rw [Rat.ceil_le_iff]
    exact_mod_cast h.le_natCast hk53 (by positivity) hq
  · rcases Nat.eq_zero_or_pos k with rfl | hk
    · have hm : m = 0 := by omega
      have hzero : fl 0 = 0 := by exact_mod_cast h.exact 0 (by decide)
      subst hm
      rw [Nat.cast_zero, Nat.cast_zero, zero_div, hzero]
      exact le_rfl
    · have hlt := h.lt_quotient hd hk hlow hup hsmall
      by_contra hc
      have hle : (fl (m / d)).ceil ≤ (k : ℤ) - 1 := by omega
      rw [Rat.ceil_le_iff] at hle
      push_cast at hle
      linarith

theorem le_ceil_quotient (h : Rounding fl) {m d n : ℕ} (hd : 0 < d) (hn : n < 2 ^ 53)
    (hm : n * d ≤ m) : (n : ℤ) ≤ (fl (m / d)).ceil := by
  have hd' : (0 : ℚ) < d := Nat.cast_pos.2 hd
  have hq : (n : ℚ) ≤ m / d := by
    rw [le_div_iff₀ hd']
    exact_mod_cast hm
  have hfl := h.natCast_le hn hq
  have hceil : fl (m / d) ≤ ((fl (m / d)).ceil : ℤ) := Rat.ceil_le_iff.1 le_rfl
  exact_mod_cast hfl.trans hceil

end Rounding
