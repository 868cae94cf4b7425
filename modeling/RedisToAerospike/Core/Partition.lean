import Mathlib.Data.List.Basic
import Mathlib.Data.List.DropRight
import Mathlib.Data.Nat.Notation

/-!
# Cutting a list at a separator

`cut sep l` is `str.partition`: what stands before the first `sep` and after
it. `cutLast c l` is `str.rpartition` at one element.

* `cut_append`: what was cut goes together again.
* `cut_single`: at one element, the part before is free of it.
* `intercalate_middle_inj`: joined texts that differ in one part.
* `splitAtMost c n`: `str.split` at one element, with a bound.
* `trim_trim`: what was stripped at both ends stays as it is.
-/
namespace Partition

variable {α : Type} [DecidableEq α]

def cut (sep : List α) : List α → Option (List α × List α)
  | [] => if sep = [] then some ([], []) else none
  | a :: l =>
    if sep.isPrefixOf (a :: l) then some ([], (a :: l).drop sep.length)
    else (cut sep l).map fun p => (a :: p.1, p.2)

/-- `l.partition(sep)`, without the separator. -/
def partition (sep l : List α) : List α × List α := (cut sep l).getD (l, [])

def cutLast (c : α) (l : List α) : Option (List α × List α) :=
  (cut [c] l.reverse).map fun p => (p.2.reverse, p.1.reverse)

theorem cut_append {sep l x y : List α} (h : cut sep l = some (x, y)) : l = x ++ sep ++ y := by
  induction l generalizing x with
  | nil =>
    by_cases hs : sep = []
    · simp [cut, hs] at h
      simp [h, hs]
    · simp [cut, hs] at h
  | cons a l ih =>
    unfold cut at h
    by_cases hp : sep.isPrefixOf (a :: l) = true
    · rw [if_pos hp] at h
      cases h
      exact (List.prefix_iff_eq_append.1 (List.isPrefixOf_iff_prefix.1 hp)).symm
    · rw [if_neg hp] at h
      obtain ⟨p, hcut, he⟩ := Option.map_eq_some_iff.1 h
      cases he
      rw [ih hcut]
      rfl

theorem cut_none {c : α} {l : List α} (h : c ∉ l) : cut [c] l = none := by
  induction l with
  | nil => rfl
  | cons a l ih =>
    rw [List.mem_cons, not_or] at h
    have hp : ¬([c].isPrefixOf (a :: l) = true) := by simpa using h.1
    rw [cut, if_neg hp, ih h.2]
    rfl

theorem cut_single {c : α} {x : List α} (h : c ∉ x) (y : List α) :
    cut [c] (x ++ c :: y) = some (x, y) := by
  induction x with
  | nil => simp [cut]
  | cons a x ih =>
    rw [List.mem_cons, not_or] at h
    have hp : ¬([c].isPrefixOf (a :: (x ++ c :: y)) = true) := by simpa using h.1
    rw [List.cons_append, cut, if_neg hp, ih h.2]
    rfl

/-- At one element the cut is at the first. -/
theorem not_mem_cut {c : α} {l x y : List α} (h : cut [c] l = some (x, y)) : c ∉ x := by
  induction l generalizing x with
  | nil => simp [cut] at h
  | cons a l ih =>
    unfold cut at h
    by_cases hp : [c].isPrefixOf (a :: l) = true
    · rw [if_pos hp] at h
      cases h
      exact List.not_mem_nil
    · rw [if_neg hp] at h
      obtain ⟨p, hcut, he⟩ := Option.map_eq_some_iff.1 h
      cases he
      have hne : ¬c = a := by simpa using hp
      rw [List.mem_cons, not_or]
      exact ⟨hne, ih hcut⟩

theorem cut_eq_some_iff {c : α} {l x y : List α} :
    cut [c] l = some (x, y) ↔ l = x ++ c :: y ∧ c ∉ x := by
  constructor
  · intro h
    have happend := cut_append h
    rw [List.append_assoc] at happend
    exact ⟨happend, not_mem_cut h⟩
  · intro h
    obtain ⟨rfl, hx⟩ := h
    exact cut_single hx y

theorem cutLast_append {c : α} {l x y : List α} (h : cutLast c l = some (x, y)) :
    l = x ++ c :: y := by
  obtain ⟨p, hcut, he⟩ := Option.map_eq_some_iff.1 h
  cases he
  rw [← List.reverse_reverse l, cut_append hcut]
  simp

theorem partition_single {c : α} {x : List α} (h : c ∉ x) (y : List α) :
    partition [c] (x ++ c :: y) = (x, y) := by
  rw [partition, cut_single h, Option.getD_some]

/-- Joined texts that differ in one part. -/
theorem intercalate_middle_inj (sep : String) (pre post : List String) {x y : String} :
    sep.intercalate (pre ++ x :: post) = sep.intercalate (pre ++ y :: post) ↔ x = y := by
  induction pre with
  | nil =>
    cases post with
    | nil => simp
    | cons p post => simp [String.append_assoc, String.append_left_inj]
  | cons p pre ih =>
    rw [List.cons_append, List.cons_append, String.intercalate_cons_of_ne_nil (by simp),
      String.intercalate_cons_of_ne_nil (by simp), String.append_right_inj]
    exact ih

/-! ## Splitting with a bound -/

/-- `l.split(c, n)` -/
def splitAtMost (c : α) : ℕ → List α → List (List α)
  | 0, l => [l]
  | n + 1, l =>
    match cut [c] l with
    | none => [l]
    | some (x, y) => x :: splitAtMost c n y

theorem splitAtMost_cons {c : α} {x : List α} (h : c ∉ x) (n : ℕ) (y : List α) :
    splitAtMost c (n + 1) (x ++ c :: y) = x :: splitAtMost c n y := by
  rw [splitAtMost, cut_single h]

theorem splitAtMost_of_not_mem {c : α} {l : List α} (h : c ∉ l) (n : ℕ) :
    splitAtMost c n l = [l] := by
  cases n with
  | zero => rfl
  | succ n => rw [splitAtMost, cut_none h]

theorem not_mem_of_cut_none {c : α} {l : List α} (h : cut [c] l = none) : c ∉ l := by
  intro hc
  obtain ⟨x, y, rfl, hx⟩ := List.eq_append_cons_of_mem hc
  rw [cut_single hx] at h
  cases h

/-- The parts before the last one that the bound allows are free of the
separator; what follows a part was split on. -/
theorem splitAtMost_eq_cons {c : α} {n : ℕ} {l x : List α} {rest : List (List α)}
    (h : splitAtMost c (n + 1) l = x :: rest) :
    c ∉ x ∧ (rest = [] ∨ ∃ y, rest = splitAtMost c n y) := by
  rw [splitAtMost] at h
  cases hcut : cut [c] l with
  | none =>
    rw [hcut] at h
    cases h
    exact ⟨not_mem_of_cut_none hcut, .inl rfl⟩
  | some p =>
    rw [hcut] at h
    cases h
    exact ⟨not_mem_cut hcut, .inr ⟨_, rfl⟩⟩

omit [DecidableEq α]

/-! ## Stripping both ends -/

/-- `l.strip()`; `p` says what is blank. -/
def trim (p : α → Bool) (l : List α) : List α :=
  ((l.dropWhile p).reverse.dropWhile p).reverse

theorem trim_eq (p : α → Bool) (l : List α) : trim p l = (l.dropWhile p).rdropWhile p := rfl

theorem trim_trim (p : α → Bool) (l : List α) : trim p (trim p l) = trim p l := by
  have hfront : (trim p l).dropWhile p = trim p l := by
    rw [List.dropWhile_eq_self_iff]
    intro hl
    have hinit : trim p l <+: l.dropWhile p := List.rdropWhile_prefix p _
    have hlen : 0 < (l.dropWhile p).length := hl.trans_le hinit.length_le
    rw [hinit.getElem hl]
    exact List.dropWhile_get_zero_not p l hlen
  rw [trim_eq p (trim p l), hfront, trim_eq, List.rdropWhile_idempotent]

theorem mem_of_mem_trim {p : α → Bool} {l : List α} {a : α} (h : a ∈ trim p l) : a ∈ l :=
  (List.dropWhile_sublist p).subset ((List.rdropWhile_prefix p _).subset h)

end Partition
