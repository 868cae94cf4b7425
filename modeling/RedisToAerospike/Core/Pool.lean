import Mathlib.Algebra.BigOperators.Group.Finset.Basic
import Mathlib.Algebra.Order.BigOperators.Group.Finset

/-!
# A pool of workers

Workers are numbered; `total n f ws` adds up `f` over the first `n`.

* `at_update`: what a move of one worker leaves alone.
* `total_update`: what changes when one worker does.
* `tagged_perm`: a list whose elements are tagged with workers, cut by worker.
* `total_eq_zero_iff`, `total_one`, `total_lt`, `exists_of_total_lt`: a flag
  over the pool.
-/
namespace Pool

variable {W : Type*}

/-- A move of worker `i`, seen at worker `j`. -/
theorem at_update {β : Type*} (f : W → β) {ws ws' : Nat → W} {i j : Nat} {w : W}
    (he : ws' = Function.update ws i w) (hw : j ≠ i ∨ f w = f (ws i)) : f (ws' j) = f (ws j) := by
  rw [he]
  by_cases hj : j = i
  · subst hj
    rw [Function.update_self]
    exact hw.resolve_left (absurd rfl)
  · rw [Function.update_of_ne hj]

/-- The sum of `f` over the workers `0 .. n-1`. -/
def total (n : Nat) (f : W → Nat) (ws : Nat → W) : Nat := ∑ i ∈ Finset.range n, f (ws i)

theorem total_update {n i : Nat} (hi : i < n) (f : W → Nat) (ws : Nat → W) (w : W) :
    total n f (Function.update ws i w) + f (ws i) = total n f ws + f w := by
  have hmem : i ∈ Finset.range n := Finset.mem_range.2 hi
  have hrest : ∑ j ∈ (Finset.range n).erase i, f (Function.update ws i w j) =
      ∑ j ∈ (Finset.range n).erase i, f (ws j) :=
    Finset.sum_congr rfl fun j hj => by rw [Function.update_of_ne (Finset.ne_of_mem_erase hj)]
  have h1 := Finset.add_sum_erase (Finset.range n) (fun j => f (Function.update ws i w j)) hmem
  have h2 := Finset.add_sum_erase (Finset.range n) (fun j => f (ws j)) hmem
  simp only [Function.update_self] at h1
  unfold total
  omega

theorem total_congr {n : Nat} {f : W → Nat} {ws ws' : Nat → W} (h : ∀ i < n, f (ws i) = f (ws' i)) :
    total n f ws = total n f ws' :=
  Finset.sum_congr rfl fun i hi => h i (Finset.mem_range.1 hi)

theorem total_eq_zero_iff {n : Nat} {f : W → Nat} {ws : Nat → W} :
    total n f ws = 0 ↔ ∀ i < n, f (ws i) = 0 := by
  rw [total, Finset.sum_eq_zero_iff]
  exact ⟨fun h i hi => h i (Finset.mem_range.2 hi), fun h i hi => h i (Finset.mem_range.1 hi)⟩

theorem total_one {n : Nat} {f : W → Nat} {ws : Nat → W} (h : ∀ i < n, f (ws i) = 1) :
    total n f ws = n := by
  rw [total, Finset.sum_congr rfl fun i hi => h i (Finset.mem_range.1 hi)]
  simp

theorem total_le {n b : Nat} {f : W → Nat} {ws : Nat → W} (h : ∀ i < n, f (ws i) ≤ b) :
    total n f ws ≤ n * b := by
  have hsum := Finset.sum_le_card_nsmul (Finset.range n) (fun i => f (ws i)) b
    fun i hi => h i (Finset.mem_range.1 hi)
  simpa [total] using hsum

/-- A flag that is not raised everywhere. -/
theorem total_lt {n i : Nat} {f : W → Nat} {ws : Nat → W} (hf : ∀ w, f w ≤ 1) (hi : i < n)
    (h : f (ws i) = 0) : total n f ws < n := by
  have hlt : ∑ j ∈ Finset.range n, f (ws j) < ∑ _j ∈ Finset.range n, 1 :=
    Finset.sum_lt_sum (fun j _ => hf (ws j)) ⟨i, Finset.mem_range.2 hi, by omega⟩
  simpa [total] using hlt

/-- Below the size of the pool some flag is down. -/
theorem exists_of_total_lt {n : Nat} {f : W → Nat} {ws : Nat → W} (hf : ∀ w, f w ≤ 1)
    (h : total n f ws < n) : ∃ i < n, f (ws i) = 0 := by
  by_contra hno
  have hall : ∀ i < n, f (ws i) = 1 := fun i hi => by
    have hne : f (ws i) ≠ 0 := fun h0 => hno ⟨i, hi, h0⟩
    have hle := hf (ws i)
    omega
  rw [total_one hall] at h
  omega

/-- Occurrences in lists, one for each worker. -/
theorem total_count {β : Type*} [DecidableEq β] (n : Nat) (f : W → List β) (b : β) (ws : Nat → W) :
    total n (fun w => (f w).count b) ws =
      ((List.range n).flatMap fun i => f (ws i)).count b := by
  rw [List.count_flatMap]
  rfl

/-! ## Lists tagged with the number of a worker -/

/-- The elements with the tag `i`, in order. -/
def tagged {β : Type*} (l : List (Nat × β)) (i : Nat) : List β :=
  (l.filter fun p => p.1 = i).map Prod.snd

theorem tagged_append {β : Type*} (l m : List (Nat × β)) (i : Nat) :
    tagged (l ++ m) i = tagged l i ++ tagged m i := by
  simp [tagged]

@[simp] theorem tagged_single {β : Type*} (i j : Nat) (b : β) :
    tagged [(j, b)] i = if j = i then [b] else [] := by
  unfold tagged
  by_cases h : j = i <;> simp [h]

/-- Putting one element in front of one of the lists. -/
theorem flatMap_insert_perm {β : Type*} {is : List Nat} (hn : is.Nodup) {t : Nat} (ht : t ∈ is)
    (b : β) (f : Nat → List β) :
    (is.flatMap fun i => if t = i then b :: f i else f i).Perm (b :: is.flatMap f) := by
  induction is with
  | nil => cases ht
  | cons i is ih =>
    rw [List.nodup_cons] at hn
    rw [List.flatMap_cons, List.flatMap_cons]
    by_cases hi : t = i
    · subst hi
      have hrest : (is.flatMap fun i => if t = i then b :: f i else f i) = is.flatMap f :=
        List.flatMap_congr fun j hj => if_neg fun e : t = j => hn.1 (e ▸ hj)
      rw [if_pos rfl, hrest]
      exact List.Perm.refl _
    · rw [if_neg hi]
      have hp := ih hn.2 ((List.mem_cons.1 ht).resolve_left hi)
      exact (hp.append_left (f i)).trans List.perm_middle

/-- The lists by tag are together the whole list. -/
theorem tagged_perm {β : Type*} {n : Nat} {l : List (Nat × β)} (h : ∀ p ∈ l, p.1 < n) :
    ((List.range n).flatMap (tagged l)).Perm (l.map Prod.snd) := by
  induction l with
  | nil => simp [tagged]
  | cons p l ih =>
    have hp : p.1 ∈ List.range n := List.mem_range.2 (h p List.mem_cons_self)
    have hcons : ∀ i, tagged (p :: l) i = if p.1 = i then p.2 :: tagged l i else tagged l i := by
      intro i
      unfold tagged
      by_cases hi : p.1 = i <;> simp [hi]
    rw [funext hcons]
    exact (flatMap_insert_perm List.nodup_range hp p.2 (tagged l)).trans
      ((ih fun q hq => h q (List.mem_cons_of_mem _ hq)).cons p.2)

end Pool
