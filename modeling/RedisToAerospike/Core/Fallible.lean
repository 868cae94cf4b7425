import Mathlib.Data.List.Forall2

/-!
# Loops that may fail

`List.mapM` in `Except`: it succeeds exactly when every element does, with
the results in order (`mapM_ok_iff`), and it can only fail where an element
does (`mapM_ok_of`). In `Option`: it has a result exactly when every element
has one (`mapM_isSome_iff`). `bind_ok_iff` takes a sequence apart. `FailsWith`
bounds how it fails.
-/
namespace Fallible

universe u

variable {E α β : Type*}

theorem mapM_nil (f : α → Except E β) : [].mapM f = .ok [] := rfl

theorem mapM_cons (f : α → Except E β) (a : α) (l : List α) :
    (a :: l).mapM f = match f a with
      | .error e => .error e
      | .ok b => match l.mapM f with
        | .error e => .error e
        | .ok bs => .ok (b :: bs) := by
  rw [List.mapM_cons]
  cases f a with
  | error e => rfl
  | ok b => cases l.mapM f <;> rfl

theorem mapM_ok_iff {f : α → Except E β} {l : List α} {bs : List β} :
    l.mapM f = .ok bs ↔ List.Forall₂ (fun a b => f a = .ok b) l bs := by
  induction l generalizing bs with
  | nil => rw [mapM_nil, List.forall₂_nil_left_iff, Except.ok.injEq, eq_comm]
  | cons a l ih =>
    rw [mapM_cons, List.forall₂_cons_left_iff]
    cases ha : f a with
    | error e => simp
    | ok b =>
      cases hl : l.mapM f with
      | error e =>
        refine ⟨nofun, ?_⟩
        intro hx
        obtain ⟨b', bs', -, h, -⟩ := hx
        rw [← ih, hl] at h
        cases h
      | ok bs' =>
        constructor
        · intro h
          cases h
          exact ⟨b, bs', rfl, ih.1 hl, rfl⟩
        · intro hx
          obtain ⟨c, cs, hc, h, rfl⟩ := hx
          cases hc
          rw [← ih, hl] at h
          cases h
          rfl

theorem mapM_ok_of {f : α → Except E β} {l : List α} (h : ∀ a ∈ l, ∃ b, f a = .ok b) :
    ∃ bs, l.mapM f = .ok bs := by
  induction l with
  | nil => exact ⟨[], rfl⟩
  | cons a l ih =>
    obtain ⟨b, hb⟩ := h a List.mem_cons_self
    obtain ⟨bs, hbs⟩ := ih fun x hx => h x (List.mem_cons_of_mem _ hx)
    exact ⟨b :: bs, by rw [mapM_cons, hb, hbs]⟩

/-- A loop that never fails. -/
theorem mapM_eq_map {f : α → Except E β} {g : α → β} {l : List α} (h : ∀ a ∈ l, f a = .ok (g a)) :
    l.mapM f = .ok (l.map g) := by
  rw [mapM_ok_iff, List.forall₂_map_right_iff, List.forall₂_same]
  exact h

/-- Where the loop succeeds, each element has its result. -/
theorem mem_of_mapM_ok {f : α → Except E β} {l : List α} {bs : List β} (h : l.mapM f = .ok bs)
    {a : α} (ha : a ∈ l) : ∃ b ∈ bs, f a = .ok b := by
  obtain ⟨i, hi, rfl⟩ := List.getElem_of_mem ha
  have hf := mapM_ok_iff.1 h
  have hi' : i < bs.length := hf.length_eq ▸ hi
  exact ⟨bs[i], List.getElem_mem hi', hf.get hi hi'⟩

theorem ok_of_mapM_ok {f : α → Except E β} {l : List α} {bs : List β} (h : l.mapM f = .ok bs) :
    ∀ a ∈ l, ∃ b, f a = .ok b := by
  intro a ha
  obtain ⟨b, -, hb⟩ := mem_of_mapM_ok h ha
  exact ⟨b, hb⟩

theorem mapM_returns_iff {f : α → Except E β} {l : List α} :
    (∃ bs, l.mapM f = .ok bs) ↔ ∀ a ∈ l, ∃ b, f a = .ok b :=
  ⟨fun ⟨_, h⟩ => ok_of_mapM_ok h, mapM_ok_of⟩

/-- What fails does not return. -/
theorem raises_iff {x : Except E α} : (∃ e, x = .error e) ↔ ¬ ∃ a, x = .ok a := by
  cases x <;> simp

theorem mapM_isSome_iff {f : α → Option β} {l : List α} :
    (l.mapM f).isSome ↔ ∀ a ∈ l, (f a).isSome := by
  induction l with
  | nil => simp
  | cons a l ih =>
    rw [List.forall_mem_cons, ← ih, List.mapM_cons]
    cases f a with
    | none => simp
    | some b => cases l.mapM f <;> simp

theorem mapM_some_eq_map {f : α → Option β} {g : α → β} {l : List α} {bs : List β}
    (h : l.mapM f = some bs) (hg : ∀ a b, f a = some b → b = g a) : bs = l.map g := by
  induction l generalizing bs with
  | nil => cases h; rfl
  | cons a l ih =>
    rw [List.mapM_cons] at h
    obtain ⟨b, hb, h⟩ := Option.bind_eq_some_iff.1 h
    obtain ⟨cs, hcs, h⟩ := Option.bind_eq_some_iff.1 h
    cases h
    rw [List.map_cons, ← hg a b hb, ← ih hcs]

theorem bind_ok_iff {γ δ : Type u} {x : Except E γ} {k : γ → Except E δ} {b : δ} :
    (x >>= k) = .ok b ↔ ∃ a, x = .ok a ∧ k a = .ok b := by
  cases x with
  | error e => simp [bind, Except.bind]
  | ok a => simp [bind, Except.bind]

theorem map_ok_iff {γ δ : Type u} {x : Except E γ} {g : γ → δ} {b : δ} :
    g <$> x = .ok b ↔ ∃ a, x = .ok a ∧ g a = b := by
  cases x <;> simp [Functor.map, Except.map]

theorem bind_returns_iff {γ δ : Type u} {x : Except E γ} {k : γ → Except E δ} :
    (∃ b, (x >>= k) = .ok b) ↔ ∃ a, x = .ok a ∧ ∃ b, k a = .ok b := by
  cases x with
  | error e => simp [bind, Except.bind]
  | ok a => simp [bind, Except.bind]

theorem map_returns_iff {γ δ : Type u} {x : Except E γ} {g : γ → δ} :
    (∃ b, g <$> x = .ok b) ↔ ∃ a, x = .ok a := by
  cases x <;> simp [Functor.map, Except.map]

/-! ## How a computation fails -/

/-- Every error of `x` is one of `P`. -/
def FailsWith (P : E → Prop) (x : Except E α) : Prop := ∀ e, x = .error e → P e

theorem FailsWith.ok {P : E → Prop} (a : α) : FailsWith P (.ok a) := by
  intro e he
  cases he

theorem FailsWith.error {P : E → Prop} {e : E} (h : P e) : FailsWith P (.error e : Except E α) := by
  intro e' he
  cases he
  exact h

theorem FailsWith.bind {γ δ : Type u} {P : E → Prop} {x : Except E γ} {k : γ → Except E δ}
    (hx : FailsWith P x) (hk : ∀ a, FailsWith P (k a)) : FailsWith P (x >>= k) := by
  cases x with
  | error e => exact .error (hx e rfl)
  | ok a => exact hk a

theorem FailsWith.map {γ δ : Type u} {P : E → Prop} {x : Except E γ} (g : γ → δ)
    (hx : FailsWith P x) : FailsWith P (g <$> x) := by
  cases x with
  | error e => exact .error (hx e rfl)
  | ok a => exact .ok _

theorem FailsWith.mapM {P : E → Prop} {f : α → Except E β} {l : List α}
    (h : ∀ a ∈ l, FailsWith P (f a)) : FailsWith P (l.mapM f) := by
  induction l with
  | nil => exact .ok []
  | cons a l ih =>
    have htail := ih fun x hx => h x (List.mem_cons_of_mem _ hx)
    have hhead := h a List.mem_cons_self
    rw [mapM_cons]
    cases ha : f a with
    | error e => exact .error (hhead e ha)
    | ok b =>
      cases hl : l.mapM f with
      | error e => exact .error (htail e hl)
      | ok bs => exact .ok _

end Fallible
