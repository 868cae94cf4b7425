import Mathlib.Data.List.Induction
import Mathlib.Data.List.Nodup
import Mathlib.Tactic.TypeStar

/-!
# Insertion-ordered dictionaries

A `Dict K V` is an association list whose keys are distinct, in the order in
which they were first inserted. `set` on a present key replaces the value in
place; on an absent key it appends. `ofPairs` inserts a list of pairs from
left to right, so the first occurrence of a key fixes its place and the last
one its value.

* `get?_set`: what `set` changes, and that it changes nothing else.
* `get?_ofPairs`: a lookup finds the last pair with the key; over a
  comprehension with a condition it is `get?_ofPairs_filterMap_iff`.
* `size_ofPairs_iff`: no pair is lost exactly when the keys are distinct, and
  then the entries are the pairs (`entries_ofPairs`).
* `get?_overlay`: an overlay replaces values and adds no keys.
* `perm_of_get?`: lookups determine a dictionary up to its order.
-/

structure Dict (K V : Type*) where
  entries : List (K × V)
  nodup : (entries.map Prod.fst).Nodup
  deriving DecidableEq

namespace Dict

variable {K V W : Type*}

def keys (d : Dict K V) : List K := d.entries.map Prod.fst

def values (d : Dict K V) : List V := d.entries.map Prod.snd

def size (d : Dict K V) : Nat := d.entries.length

def empty : Dict K V := ⟨[], List.nodup_nil⟩

/-- The values through `f`, the keys and their order kept. -/
def mapVals (f : K → V → W) (d : Dict K V) : Dict K W :=
  ⟨d.entries.map fun p => (p.1, f p.1 p.2), by
    rw [List.map_map]; exact d.nodup⟩

variable [DecidableEq K]

/-- `entries[k]`. -/
def lookup (k : K) : List (K × V) → Option V
  | [] => none
  | (k', v) :: es => if k' = k then some v else lookup k es

/-- Replace the value at `k`, or append the pair. -/
def upsert (k : K) (v : V) : List (K × V) → List (K × V)
  | [] => [(k, v)]
  | (k', v') :: es => if k' = k then (k', v) :: es else (k', v') :: upsert k v es

def get? (d : Dict K V) (k : K) : Option V := lookup k d.entries

theorem keys_upsert (k : K) (v : V) (es : List (K × V)) :
    (upsert k v es).map Prod.fst =
      if k ∈ es.map Prod.fst then es.map Prod.fst else es.map Prod.fst ++ [k] := by
  induction es with
  | nil => simp [upsert]
  | cons p es ih =>
    obtain ⟨k', v'⟩ := p
    by_cases h : k' = k
    · simp [upsert, h]
    · have h' : ¬k = k' := fun e => h e.symm
      simp only [upsert, if_neg h, List.map_cons, ih, List.mem_cons, h', false_or]
      split <;> simp

/-- `d[k] = v`. -/
def set (d : Dict K V) (k : K) (v : V) : Dict K V :=
  ⟨upsert k v d.entries, by
    rw [keys_upsert]
    split
    · exact d.nodup
    · rename_i h
      exact List.nodup_append.2 ⟨d.nodup, List.nodup_singleton k, fun a ha b hb e =>
        h (List.mem_singleton.1 hb ▸ e ▸ ha)⟩⟩

theorem keys_set (d : Dict K V) (k : K) (v : V) :
    (d.set k v).keys = if k ∈ d.keys then d.keys else d.keys ++ [k] := keys_upsert k v d.entries

@[simp] theorem mem_keys_set {d : Dict K V} {k k' : K} {v : V} :
    k' ∈ (d.set k v).keys ↔ k' ∈ d.keys ∨ k' = k := by
  rw [keys_set]; split
  · rename_i h; exact ⟨.inl, fun h' => h'.elim id (· ▸ h)⟩
  · simp

/-! ## Lookups -/

theorem lookup_eq_none_iff {k : K} {es : List (K × V)} :
    lookup k es = none ↔ k ∉ es.map Prod.fst := by
  induction es with
  | nil => simp [lookup]
  | cons p es ih =>
    obtain ⟨k', v'⟩ := p
    by_cases h : k' = k
    · simp [lookup, h]
    · simp [lookup, h, ih, Ne.symm h]

theorem lookup_eq_some_iff {k : K} {v : V} {es : List (K × V)} (hn : (es.map Prod.fst).Nodup) :
    lookup k es = some v ↔ (k, v) ∈ es := by
  induction es with
  | nil => simp [lookup]
  | cons p es ih =>
    obtain ⟨k', v'⟩ := p
    rw [List.map_cons, List.nodup_cons] at hn
    by_cases h : k' = k
    · subst h
      have hnot : (k', v) ∉ es := fun hm => hn.1 (List.mem_map.2 ⟨_, hm, rfl⟩)
      simp only [lookup, if_true, Option.some.injEq, List.mem_cons, Prod.mk.injEq, true_and, hnot,
        or_false, eq_comm]
    · simp only [lookup, if_neg h, ih hn.2, List.mem_cons, Prod.mk.injEq, Ne.symm h, false_and,
        false_or]

theorem lookup_upsert (k k' : K) (v : V) (es : List (K × V)) :
    lookup k' (upsert k v es) = if k = k' then some v else lookup k' es := by
  induction es with
  | nil => simp [upsert, lookup]
  | cons p es ih =>
    obtain ⟨a, w⟩ := p
    by_cases ha : a = k
    · subst ha
      by_cases hk : a = k' <;> simp [upsert, lookup, hk]
    · by_cases hk : a = k'
      · subst hk; simp [upsert, lookup, ha, Ne.symm ha]
      · simp [upsert, lookup, ha, hk, ih]

theorem get?_set (d : Dict K V) (k k' : K) (v : V) :
    (d.set k v).get? k' = if k = k' then some v else d.get? k' := lookup_upsert k k' v d.entries

theorem get?_eq_none_iff {d : Dict K V} {k : K} : d.get? k = none ↔ k ∉ d.keys :=
  lookup_eq_none_iff

theorem get?_eq_some_iff {d : Dict K V} {k : K} {v : V} : d.get? k = some v ↔ (k, v) ∈ d.entries :=
  lookup_eq_some_iff d.nodup

theorem get?_isSome_iff {d : Dict K V} {k : K} : (d.get? k).isSome ↔ k ∈ d.keys := by
  rw [Option.isSome_iff_ne_none, ne_eq, get?_eq_none_iff, not_not]

/-! ## Dictionaries from pairs -/

/-- `dict(pairs)` and dictionary comprehensions. -/
def ofPairs (ps : List (K × V)) : Dict K V := ps.foldl (fun d p => d.set p.1 p.2) empty

theorem ofPairs_append (ps : List (K × V)) (p : K × V) :
    ofPairs (ps ++ [p]) = (ofPairs ps).set p.1 p.2 := by
  simp [ofPairs, List.foldl_append]

/-- The last pair with the key. -/
theorem get?_ofPairs (ps : List (K × V)) (k : K) : (ofPairs ps).get? k = lookup k ps.reverse := by
  induction ps using List.reverseRecOn with
  | nil => rfl
  | append_singleton ps p ih =>
    rw [ofPairs_append, get?_set, ih, List.reverse_append]
    rfl

theorem lookup_eq_head? (k : K) (es : List (K × V)) :
    lookup k es = (es.filter fun p => p.1 = k).head?.map Prod.snd := by
  induction es with
  | nil => rfl
  | cons p es ih =>
    obtain ⟨k', v⟩ := p
    by_cases h : k' = k
    · simp [lookup, h]
    · simp [lookup, h, ih]

theorem get?_ofPairs_getLast? (ps : List (K × V)) (k : K) :
    (ofPairs ps).get? k = (ps.filter fun p => p.1 = k).getLast?.map Prod.snd := by
  rw [get?_ofPairs, lookup_eq_head?, List.filter_reverse, List.head?_reverse]

theorem lookup_filterMap {α : Type*} (f : α → Option (K × V)) (l : List α) (k : K) :
    lookup k (l.filterMap f) =
      l.findSome? fun a => (f a).bind fun p => if p.1 = k then some p.2 else none := by
  induction l with
  | nil => rfl
  | cons a l ih =>
    rw [List.filterMap_cons, List.findSome?_cons]
    cases f a with
    | none => exact ih
    | some p =>
      obtain ⟨k', v⟩ := p
      by_cases h : k' = k
      · simp [lookup, h]
      · simp [lookup, h, ih]

/-- The last element that makes a pair with the key. -/
theorem get?_ofPairs_filterMap_iff {α : Type*} {f : α → Option (K × V)} {l : List α} {k : K}
    {v : V} :
    (ofPairs (l.filterMap f)).get? k = some v ↔
      ∃ before a after, l = before ++ a :: after ∧ f a = some (k, v) ∧
        ∀ b ∈ after, ∀ w, f b ≠ some (k, w) := by
  have hmakes : ∀ a w, ((f a).bind fun p => if p.1 = k then some p.2 else none) = some w ↔
      f a = some (k, w) := by
    intro a w
    cases f a with
    | none => simp
    | some p =>
      obtain ⟨k', v'⟩ := p
      by_cases h : k' = k
      · simp [h]
      · simp [h]
  rw [get?_ofPairs, ← List.filterMap_reverse, lookup_filterMap, List.findSome?_eq_some_iff]
  constructor
  · intro h
    obtain ⟨after, a, before, hl, ha, hnone⟩ := h
    refine ⟨before.reverse, a, after.reverse, ?_, (hmakes a v).1 ha, fun b hb w hw => ?_⟩
    · rw [← List.reverse_reverse l, hl]
      simp
    · have hb' := hnone b (List.mem_reverse.1 hb)
      rw [(hmakes b w).2 hw] at hb'
      cases hb'
  · intro h
    obtain ⟨before, a, after, hl, ha, hnone⟩ := h
    refine ⟨after.reverse, a, before.reverse, ?_, (hmakes a v).2 ha, fun b hb => ?_⟩
    · rw [hl]
      simp
    · by_contra hsome
      obtain ⟨w, hw⟩ := Option.ne_none_iff_exists'.1 hsome
      exact hnone b (List.mem_reverse.1 hb) w ((hmakes b w).1 hw)

theorem mem_keys_ofPairs {ps : List (K × V)} {k : K} :
    k ∈ (ofPairs ps).keys ↔ k ∈ ps.map Prod.fst := by
  rw [← get?_isSome_iff, get?_ofPairs, Option.isSome_iff_ne_none, ne_eq, lookup_eq_none_iff,
    not_not, List.map_reverse, List.mem_reverse]

theorem mem_of_get?_ofPairs {ps : List (K × V)} {k : K} {v : V}
    (h : (ofPairs ps).get? k = some v) : (k, v) ∈ ps := by
  rw [get?_ofPairs_getLast?] at h
  obtain ⟨p, hp, rfl⟩ := Option.map_eq_some_iff.1 h
  obtain ⟨hmem, hk⟩ := List.mem_filter.1 (List.mem_of_getLast? hp)
  rw [← of_decide_eq_true hk]
  exact hmem

theorem get?_ofPairs_of_mem {ps : List (K × V)} {k : K} (h : k ∈ ps.map Prod.fst) :
    ∃ v, (k, v) ∈ ps ∧ (ofPairs ps).get? k = some v := by
  obtain ⟨v, hv⟩ := Option.isSome_iff_exists.1 (get?_isSome_iff.2 (mem_keys_ofPairs.2 h))
  exact ⟨v, mem_of_get?_ofPairs hv, hv⟩

theorem lookup_forall₂ {R : V → W → Prop} {es : List (K × V)} {fs : List (K × W)}
    (h : List.Forall₂ (fun p q => p.1 = q.1 ∧ R p.2 q.2) es fs) {k : K} {v : V}
    (hv : lookup k es = some v) : ∃ w, lookup k fs = some w ∧ R v w := by
  induction h with
  | nil => cases hv
  | @cons p q es fs hpq _ ih =>
    obtain ⟨hkey, hval⟩ := hpq
    rw [lookup] at hv ⊢
    rw [← hkey]
    by_cases hk : p.1 = k
    · rw [if_pos hk] at hv ⊢
      cases hv
      exact ⟨q.2, rfl, hval⟩
    · rw [if_neg hk] at hv ⊢
      exact ih hv

/-- Pairs with the same keys and related values, in one order, make related
dicts. -/
theorem get?_ofPairs_forall₂ {R : V → W → Prop} {ps : List (K × V)} {qs : List (K × W)}
    (h : List.Forall₂ (fun p q => p.1 = q.1 ∧ R p.2 q.2) ps qs) {k : K} {v : V}
    (hv : (ofPairs ps).get? k = some v) : ∃ w, (ofPairs qs).get? k = some w ∧ R v w := by
  rw [get?_ofPairs] at hv ⊢
  exact lookup_forall₂ (List.rel_reverse h) hv

theorem upsert_fresh {k : K} {v : V} {es : List (K × V)} (h : k ∉ es.map Prod.fst) :
    upsert k v es = es ++ [(k, v)] := by
  induction es with
  | nil => rfl
  | cons p es ih =>
    obtain ⟨k', v'⟩ := p
    rw [List.map_cons, List.mem_cons, not_or] at h
    rw [upsert, if_neg (Ne.symm h.1), ih h.2, List.cons_append]

/-- With distinct keys the entries are the pairs themselves. -/
theorem entries_ofPairs {ps : List (K × V)} (h : (ps.map Prod.fst).Nodup) :
    (ofPairs ps).entries = ps := by
  induction ps using List.reverseRecOn with
  | nil => rfl
  | append_singleton ps p ih =>
    rw [List.map_append, List.nodup_append] at h
    have hp : p.1 ∉ ps.map Prod.fst := fun hm => h.2.2 _ hm p.1 (by simp) rfl
    rw [ofPairs_append]
    show upsert p.1 p.2 (ofPairs ps).entries = ps ++ [p]
    rw [ih h.1, upsert_fresh hp]

theorem keys_ofPairs {ps : List (K × V)} (h : (ps.map Prod.fst).Nodup) :
    (ofPairs ps).keys = ps.map Prod.fst := by
  rw [keys, entries_ofPairs h]

theorem ofPairs_entries (d : Dict K V) : ofPairs d.entries = d := by
  have h := entries_ofPairs d.nodup
  generalize ofPairs d.entries = e at h
  obtain ⟨es, hn⟩ := d
  obtain ⟨es', hn'⟩ := e
  cases h
  rfl

theorem get?_ofPairs_eq_some {ps : List (K × V)} (h : (ps.map Prod.fst).Nodup) {k : K} {v : V}
    (hm : (k, v) ∈ ps) : (ofPairs ps).get? k = some v := by
  rw [get?_eq_some_iff, entries_ofPairs h]
  exact hm

theorem size_set_le (d : Dict K V) (k : K) (v : V) : (d.set k v).size ≤ d.size + 1 := by
  have h := congrArg List.length (keys_set d k v)
  rw [keys, List.length_map] at h
  have hk : d.keys.length = d.size := by simp [keys, size]
  rw [size, h]
  split
  · omega
  · simp [hk]

theorem size_ofPairs_le (ps : List (K × V)) : (ofPairs ps).size ≤ ps.length := by
  induction ps using List.reverseRecOn with
  | nil => exact Nat.le_refl 0
  | append_singleton ps p ih =>
    rw [ofPairs_append, List.length_append, List.length_singleton]
    exact Nat.le_trans (size_set_le _ _ _) (Nat.succ_le_succ ih)

/-- No pair is lost exactly when the keys are distinct. -/
theorem size_ofPairs_iff (ps : List (K × V)) :
    (ofPairs ps).size = ps.length ↔ (ps.map Prod.fst).Nodup := by
  refine ⟨fun h => ?_, fun h => by rw [size, entries_ofPairs h]⟩
  induction ps using List.reverseRecOn with
  | nil => exact List.nodup_nil
  | append_singleton ps p ih =>
    rw [ofPairs_append, List.length_append, List.length_singleton] at h
    have h1 := size_ofPairs_le ps
    have h2 := size_set_le (ofPairs ps) p.1 p.2
    have hp : p.1 ∉ (ofPairs ps).keys := fun hm => by
      have h3 := congrArg List.length (keys_set (ofPairs ps) p.1 p.2)
      rw [if_pos hm] at h3
      simp only [keys, List.length_map] at h3
      simp only [size] at h h1
      omega
    rw [mem_keys_ofPairs] at hp
    rw [List.map_append, List.nodup_append]
    refine ⟨ih (by omega), by simp, fun a ha b hb e => hp ?_⟩
    rw [List.map_singleton, List.mem_singleton] at hb
    exact hb ▸ e ▸ ha

/-! ## Overlays -/

/-- `d.pop(k, None)`, the rest. -/
def erase (d : Dict K V) (k : K) : Dict K V :=
  ⟨d.entries.filter fun p => p.1 ≠ k, List.Nodup.sublist (List.filter_sublist.map _) d.nodup⟩

/-- The values of `e` at the keys of `d`. -/
def overlay (d e : Dict K V) : Dict K V :=
  e.entries.foldl (fun d p => if p.1 ∈ d.keys then d.set p.1 p.2 else d) d

theorem ext_get? {d e : Dict K V} (hk : d.keys = e.keys) (h : ∀ k, d.get? k = e.get? k) : d = e := by
  have hval : ∀ {d : Dict K V} {p : K × V}, p ∈ d.entries → d.get? p.1 = some p.2 :=
    fun hp => get?_eq_some_iff.2 hp
  have hlen : d.entries.length = e.entries.length := by
    simpa [keys] using congrArg List.length hk
  obtain ⟨es, hn⟩ := d
  obtain ⟨fs, hm⟩ := e
  congr 1
  refine List.ext_getElem hlen fun i hi hi' => ?_
  have hfst : es[i].1 = fs[i].1 := by
    have := List.getElem_of_eq hk (i := i) (by simpa [keys] using hi)
    simpa [keys] using this
  have h1 := hval (d := ⟨es, hn⟩) (List.getElem_mem hi)
  have h2 := hval (d := ⟨fs, hm⟩) (List.getElem_mem hi')
  rw [h, hfst, h2] at h1
  exact Prod.ext hfst (Option.some.inj h1).symm

/-- Dictionaries with the same lookups differ in their order at most. -/
theorem perm_of_get? {d e : Dict K V} (h : ∀ k, d.get? k = e.get? k) : d.entries.Perm e.entries := by
  refine (List.perm_ext_iff_of_nodup d.nodup.of_map e.nodup.of_map).2 fun p => ?_
  rw [← get?_eq_some_iff (d := d) (k := p.1) (v := p.2), h, get?_eq_some_iff]

theorem get?_erase (d : Dict K V) (k k' : K) :
    (d.erase k).get? k' = if k' = k then none else d.get? k' := by
  split
  · rename_i h
    subst h
    refine get?_eq_none_iff.2 fun hm => ?_
    obtain ⟨p, hp, he⟩ := List.mem_map.1 hm
    simpa [he] using (List.mem_filter.1 hp).2
  · rename_i h
    refine Option.ext fun v => ?_
    rw [get?_eq_some_iff, get?_eq_some_iff]
    simp [erase, h]

theorem get?_mapVals (f : K → V → W) (d : Dict K V) (k : K) :
    (d.mapVals f).get? k = (d.get? k).map (f k) := by
  refine Option.ext fun w => ?_
  rw [get?_eq_some_iff, Option.map_eq_some_iff]
  simp only [mapVals, List.mem_map, get?_eq_some_iff]
  constructor
  · intro hx
    obtain ⟨p, hp, he⟩ := hx
    cases he
    exact ⟨p.2, hp, rfl⟩
  · intro hx
    obtain ⟨v, hv, rfl⟩ := hx
    exact ⟨(k, v), hv, rfl⟩

omit [DecidableEq K] in
theorem keys_mapVals (f : K → V → W) (d : Dict K V) : (d.mapVals f).keys = d.keys := by
  simp [keys, mapVals]

theorem keys_set_of_mem {d : Dict K V} {k : K} (h : k ∈ d.keys) (v : V) : (d.set k v).keys = d.keys := by
  rw [keys_set, if_pos h]

theorem overlay_foldl (es : List (K × V)) (d : Dict K V) :
    (es.foldl (fun d p => if p.1 ∈ d.keys then d.set p.1 p.2 else d) d).keys = d.keys ∧
      ((es.map Prod.fst).Nodup → ∀ k,
        (es.foldl (fun d p => if p.1 ∈ d.keys then d.set p.1 p.2 else d) d).get? k =
          (d.get? k).map fun v => (lookup k es).getD v) := by
  induction es generalizing d with
  | nil => exact ⟨rfl, fun _ k => by simp [lookup]⟩
  | cons p es ih =>
    rw [List.foldl_cons]
    by_cases hp : p.1 ∈ d.keys
    · rw [if_pos hp]
      obtain ⟨hk, hg⟩ := ih (d.set p.1 p.2)
      refine ⟨hk.trans (keys_set_of_mem hp _), fun hn k => ?_⟩
      rw [List.map_cons, List.nodup_cons] at hn
      rw [hg hn.2, get?_set]
      obtain ⟨k', v'⟩ := p
      by_cases he : k' = k
      · subst he
        obtain ⟨v, hv⟩ := Option.isSome_iff_exists.1 (get?_isSome_iff.2 hp)
        have hnone : lookup k' es = none := lookup_eq_none_iff.2 hn.1
        simp [hv, lookup, hnone]
      · simp [lookup, he]
    · rw [if_neg hp]
      obtain ⟨hk, hg⟩ := ih d
      refine ⟨hk, fun hn k => ?_⟩
      rw [List.map_cons, List.nodup_cons] at hn
      rw [hg hn.2]
      obtain ⟨k', v'⟩ := p
      by_cases he : k' = k
      · subst he
        rw [get?_eq_none_iff.2 hp]
        rfl
      · simp [lookup, he]

theorem keys_overlay (d e : Dict K V) : (d.overlay e).keys = d.keys := (overlay_foldl e.entries d).1

/-- An overlay keeps the keys and replaces the values that it has. -/
theorem get?_overlay (d e : Dict K V) (k : K) :
    (d.overlay e).get? k = (d.get? k).map fun v => (e.get? k).getD v :=
  (overlay_foldl e.entries d).2 e.nodup k

end Dict
