import Mathlib.Algebra.Order.Ring.Rat
import Mathlib.Algebra.Order.BigOperators.Group.List
import Mathlib.Data.List.Induction

/-!
# Amounts stamped with times

* `upTo t l`: the amounts of `l` whose time is at most `t`.
* `within s t l`: those whose time is in the window from `s` to `t`.
-/
namespace Metered

variable {T A : Type*} [LinearOrder T] [AddCommMonoid A]

def upTo (t : T) (l : List (T × A)) : A := ((l.filter fun p => p.1 ≤ t).map Prod.snd).sum

/-- One amount, as seen from `t`. -/
def due (t : T) (p : T × A) : A := if p.1 ≤ t then p.2 else 0

theorem upTo_concat (t : T) (l : List (T × A)) (p : T × A) :
    upTo t (l ++ [p]) = upTo t l + due t p := by
  unfold upTo due
  rw [List.filter_append, List.map_append, List.sum_append]
  by_cases h : p.1 ≤ t <;> simp [h]

theorem due_le [PartialOrder A] {t : T} {p : T × A} (h : 0 ≤ p.2) : due t p ≤ p.2 := by
  unfold due
  split
  · exact le_rfl
  · exact h

theorem upTo_le_sum [PartialOrder A] [IsOrderedAddMonoid A] (t : T) {l : List (T × A)}
    (h : ∀ p ∈ l, 0 ≤ p.2) : upTo t l ≤ (l.map Prod.snd).sum := by
  induction l using List.reverseRecOn with
  | nil => exact le_rfl
  | append_singleton l p ih =>
    rw [upTo_concat, List.map_append, List.sum_append, List.map_singleton, List.sum_singleton]
    have hl := ih fun q hq => h q (List.mem_append_left _ hq)
    have hp : due t p ≤ p.2 := due_le (h p (List.mem_append_right _ List.mem_cons_self))
    exact add_le_add hl hp

/-! ## Windows -/

/-- The entries from `s` on. -/
def since (s : T) (l : List (T × A)) : List (T × A) := l.filter fun p => s ≤ p.1

def within (s t : T) (l : List (T × A)) : A := upTo t (since s l)

omit [AddCommMonoid A] in
theorem since_concat_of_le {s : T} {l : List (T × A)} {p : T × A} (h : s ≤ p.1) :
    since s (l ++ [p]) = since s l ++ [p] := by
  simp [since, h]

omit [AddCommMonoid A] in
theorem since_concat_of_lt {s : T} {l : List (T × A)} {p : T × A} (h : p.1 < s) :
    since s (l ++ [p]) = since s l := by
  simp [since, h]

omit [AddCommMonoid A] in
/-- Nothing is due from `s` on when every time is earlier. -/
theorem since_eq_nil {s : T} {l : List (T × A)} (h : ∀ p ∈ l, p.1 < s) : since s l = [] := by
  rw [since, List.filter_eq_nil_iff]
  intro p hp
  simpa using h p hp

theorem sum_since_concat_of_le {s : T} {l : List (T × A)} {p : T × A} (h : s ≤ p.1) :
    ((since s (l ++ [p])).map Prod.snd).sum = ((since s l).map Prod.snd).sum + p.2 := by
  rw [since_concat_of_le h, List.map_append, List.sum_append, List.map_singleton,
    List.sum_singleton]

/-- An entry later than the window is not in it. -/
theorem within_concat_of_lt {s t : T} {l : List (T × A)} {p : T × A} (h : t < p.1) :
    within s t (l ++ [p]) = within s t l := by
  rcases le_or_gt s p.1 with hs | hs
  · rw [within, since_concat_of_le hs, upTo_concat, due, if_neg (not_le.2 h), add_zero, within]
  · rw [within, since_concat_of_lt hs, within]

theorem within_le_sum [PartialOrder A] [IsOrderedAddMonoid A] (s t : T) {l : List (T × A)}
    (h : ∀ p ∈ l, 0 ≤ p.2) : within s t l ≤ ((since s l).map Prod.snd).sum :=
  upTo_le_sum t fun p hp => h p (List.mem_of_mem_filter hp)

end Metered
