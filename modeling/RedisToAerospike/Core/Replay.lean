import Mathlib.Data.List.Induction
import Mathlib.Logic.Function.Basic

/-!
# Replaying writes to a keyed store

A store maps keys to values; a write `w` changes the value under `key w` by
`act w` and nothing else.

* `replay_at`: what is under a key depends on the writes to that key only, so
  writes to different keys commute.
* `replay_at_mem`: among writes to distinct keys each one counts.
* `foldl_overwrite`: if writes ignore the value they replace, the last one
  counts.
* `foldl_same`: if all writes are one idempotent write, one of them counts;
  `foldl_absorb`: also if any two of them absorb one another.
-/
namespace Replay

variable {K V W : Type*} [DecidableEq K]

/-- One write. -/
def apply (key : W → K) (act : W → V → V) (σ : K → V) (w : W) : K → V :=
  Function.update σ (key w) (act w (σ (key w)))

/-- A list of writes, first to last. -/
def replay (key : W → K) (act : W → V → V) (σ : K → V) (ws : List W) : K → V :=
  ws.foldl (apply key act) σ

variable {key : W → K} {act : W → V → V}

theorem apply_self (σ : K → V) (w : W) : apply key act σ w (key w) = act w (σ (key w)) := by
  simp [apply]

theorem apply_of_ne {σ : K → V} {w : W} {k : K} (h : key w ≠ k) : apply key act σ w k = σ k := by
  simp [apply, Function.update_of_ne (Ne.symm h)]

theorem replay_append (σ : K → V) (ws vs : List W) :
    replay key act σ (ws ++ vs) = replay key act (replay key act σ ws) vs :=
  List.foldl_append

/-- The value under `k` after the writes to `k`. -/
theorem replay_at (σ : K → V) (ws : List W) (k : K) :
    replay key act σ ws k =
      (ws.filter fun w => key w = k).foldl (fun v w => act w v) (σ k) := by
  induction ws generalizing σ with
  | nil => rfl
  | cons w ws ih =>
    rw [replay, List.foldl_cons, ← replay, ih]
    by_cases h : key w = k
    · subst h
      rw [List.filter_cons_of_pos (by simp), List.foldl_cons, apply_self]
    · rw [List.filter_cons_of_neg (by simpa using h), apply_of_ne h]

theorem replay_at_not_mem {ws : List W} {k : K} (h : k ∉ ws.map key) (σ : K → V) :
    replay key act σ ws k = σ k := by
  have hnil : ws.filter (fun w => key w = k) = [] := by
    refine List.filter_eq_nil_iff.2 fun w hw he => h ?_
    exact List.mem_map.2 ⟨w, hw, by simpa using he⟩
  rw [replay_at, hnil]
  rfl

/-- Writes to distinct keys. -/
theorem replay_at_mem {ws : List W} (hn : (ws.map key).Nodup) {w : W} (hw : w ∈ ws) (σ : K → V) :
    replay key act σ ws (key w) = act w (σ (key w)) := by
  induction ws generalizing σ with
  | nil => cases hw
  | cons x ws ih =>
    rw [List.map_cons, List.nodup_cons] at hn
    rw [replay, List.foldl_cons, ← replay]
    rcases List.mem_cons.1 hw with rfl | hw
    · rw [replay_at_not_mem hn.1, apply_self]
    · have hne : key x ≠ key w := fun e => hn.1 (e ▸ List.mem_map_of_mem hw)
      rw [ih hn.2 hw, apply_of_ne hne]

/-- Overwriting writes: the last one counts. -/
theorem foldl_overwrite {out : W → V} {ws : List W} (h : ∀ w ∈ ws, ∀ v, act w v = out w) (v : V) :
    ws.foldl (fun v w => act w v) v = (ws.getLast?.map out).getD v := by
  induction ws generalizing v with
  | nil => rfl
  | cons w ws ih =>
    rw [List.foldl_cons, ih (fun w' hw' => h w' (List.mem_cons_of_mem _ hw')),
      h w List.mem_cons_self, List.getLast?_cons]
    cases ws.getLast? <;> rfl

/-- Repeats of one idempotent write: one of them counts. -/
theorem foldl_same {w : W} (hidem : ∀ v, act w (act w v) = act w v) {ws : List W}
    (h : ∀ w' ∈ ws, w' = w) (v : V) :
    ws.foldl (fun v w => act w v) v = if ws = [] then v else act w v := by
  induction ws generalizing v with
  | nil => rfl
  | cons w' ws ih =>
    obtain rfl := h w' List.mem_cons_self
    rw [List.foldl_cons, ih (fun x hx => h x (List.mem_cons_of_mem _ hx)),
      if_neg (List.cons_ne_nil _ _)]
    by_cases hws : ws = []
    · rw [if_pos hws]
    · rw [if_neg hws, hidem]

/-- Writes that absorb one another: some one of them counts. -/
theorem foldl_absorb {ws : List W} (hne : ws ≠ [])
    (h : ∀ w ∈ ws, ∀ w' ∈ ws, ∀ v, act w' (act w v) = act w' v ∨ act w' (act w v) = act w v)
    (v : V) : ∃ w ∈ ws, ws.foldl (fun v w => act w v) v = act w v := by
  induction ws using List.reverseRecOn with
  | nil => exact absurd rfl hne
  | append_singleton ws w ih =>
    have hw : w ∈ ws ++ [w] := List.mem_append_right _ List.mem_cons_self
    rw [List.foldl_append, List.foldl_cons, List.foldl_nil]
    by_cases hws : ws = []
    · exact ⟨w, hw, by rw [hws, List.foldl_nil]⟩
    · obtain ⟨u, hu, hfold⟩ := ih hws fun a ha b hb =>
        h a (List.mem_append_left _ ha) b (List.mem_append_left _ hb)
      rw [hfold]
      rcases h u (List.mem_append_left _ hu) w hw v with he | he
      · exact ⟨w, hw, he⟩
      · exact ⟨u, List.mem_append_left _ hu, he⟩

end Replay
