import Mathlib.Logic.Relation

/-!
# Labelled transition systems

States `S`, labels `L`, an initial predicate and a step relation; a system
may also be given by a partial step function (`ofFn`), which can be run on a
concrete trace (`exec`).

* `reachable_induction`: a predicate that holds initially and is kept by
  every step holds in every reachable state; the step may use that its source
  is reachable.
* `restrict`: the steps that a guard admits; what is reachable by them is
  reachable.
* `Projection.reachable`: if every step of one system is a step (or a
  stutter) of another seen through `f`, the image of a reachable state is
  reachable, so invariants of the second hold of the first.
* `Run.length_le`, `Reachable.finishes`: a run whose steps use up a rank is
  bounded by it; if only final states are stuck, a final state is ahead.
-/

structure LTS (S L : Type*) where
  init : S → Prop
  step : S → L → S → Prop

namespace LTS

variable {S L T K : Type*} {M : LTS S L}

inductive Run (M : LTS S L) : S → List L → S → Prop
  | nil (s : S) : Run M s [] s
  | cons {s s' s'' : S} {l : L} {ls : List L} :
      M.step s l s' → Run M s' ls s'' → Run M s (l :: ls) s''

def Reachable (M : LTS S L) (s : S) : Prop := ∃ s₀ ls, M.init s₀ ∧ M.Run s₀ ls s

theorem Run.append {s s' s'' : S} {ls ks : List L} (h : M.Run s ls s') (k : M.Run s' ks s'') :
    M.Run s (ls ++ ks) s'' := by
  induction h with
  | nil => exact k
  | cons hs _ ih => exact .cons hs (ih k)

theorem Run.snoc {s s' s'' : S} {ls : List L} {l : L} (h : M.Run s ls s')
    (k : M.step s' l s'') : M.Run s (ls ++ [l]) s'' :=
  h.append (.cons k (.nil _))

theorem reachable_init {s : S} (h : M.init s) : M.Reachable s := ⟨s, [], h, .nil s⟩

theorem Reachable.step {s s' : S} {l : L} (h : M.Reachable s) (k : M.step s l s') :
    M.Reachable s' := by
  obtain ⟨s₀, ls, hi, hr⟩ := h
  exact ⟨s₀, ls ++ [l], hi, hr.snoc k⟩

/-- Steps that never leave `P`, along a run. -/
theorem Run.induction {P : S → Prop} {s s' : S} {ls : List L} (h : M.Run s ls s') (hs : P s)
    (hstep : ∀ a l b, l ∈ ls → P a → M.step a l b → P b) : P s' := by
  induction h with
  | nil => exact hs
  | cons hst _ ih =>
    exact ih (hstep _ _ _ List.mem_cons_self hs hst)
      fun a l b hl => hstep a l b (List.mem_cons_of_mem _ hl)

/-- Induction over the reachable states; the step may use reachability. -/
theorem reachable_induction {P : S → Prop} (hinit : ∀ s, M.init s → P s)
    (hstep : ∀ s l s', M.Reachable s → P s → M.step s l s' → P s') :
    ∀ s, M.Reachable s → P s := by
  intro s hx
  obtain ⟨s₀, ls, hi, hr⟩ := hx
  have h := hr.induction (P := fun s => M.Reachable s ∧ P s) ⟨reachable_init hi, hinit _ hi⟩
    fun a l b _ ha hab => ⟨ha.1.step hab, hstep a l b ha.1 ha.2 hab⟩
  exact h.2

/-- The system whose steps are those of `M` that `ok` admits. -/
def restrict (M : LTS S L) (ok : S → L → Prop) : LTS S L where
  init := M.init
  step s l s' := ok s l ∧ M.step s l s'

theorem Reachable.of_restrict {ok : S → L → Prop} {s : S} (h : (M.restrict ok).Reachable s) :
    M.Reachable s := by
  have hall : ∀ s, (M.restrict ok).Reachable s → M.Reachable s :=
    reachable_induction (fun s hs => reachable_init hs) fun a l b _ ha hab => ha.step hab.2
  exact hall s h

theorem Reachable.restrict_mono {ok ok' : S → L → Prop} {s : S}
    (h : (M.restrict ok).Reachable s) (himp : ∀ s l, ok s l → ok' s l) :
    (M.restrict ok').Reachable s := by
  have hall : ∀ s, (M.restrict ok).Reachable s → (M.restrict ok').Reachable s :=
    reachable_induction (fun s hs => reachable_init hs)
      fun a l b _ ha hab => ha.step ⟨himp _ _ hab.1, hab.2⟩
  exact hall s h

theorem Reachable.forget_inner {ok ok' : S → L → Prop} {s : S}
    (h : ((M.restrict ok).restrict ok').Reachable s) : (M.restrict ok').Reachable s := by
  have hall : ∀ s, ((M.restrict ok).restrict ok').Reachable s → (M.restrict ok').Reachable s :=
    reachable_induction (fun s hs => reachable_init hs)
      fun a l b _ ha hab => ha.step ⟨hab.1, hab.2.2⟩
  exact hall s h

theorem Reachable.run {s s' : S} {ls : List L} (h : M.Reachable s) (hr : M.Run s ls s') :
    M.Reachable s' := by
  obtain ⟨s₀, ks, hi, hs⟩ := h
  exact ⟨s₀, ks ++ ls, hi, hs.append hr⟩

/-! ## Termination -/

/-- If every step uses up some of `rank` or adds to `count`, a run is no longer
than what it has used up and added. -/
theorem Run.length_le {rank count : S → Nat} {s s' : S} {ls : List L} (h : M.Run s ls s')
    (hs : M.Reachable s)
    (hstep : ∀ a l b, M.Reachable a → M.step a l b → rank b + count a + 1 ≤ rank a + count b) :
    rank s' + count s + ls.length ≤ rank s + count s' := by
  induction h with
  | nil s => exact Nat.le_refl _
  | cons hst _ ih =>
    have hhead := hstep _ _ _ hs hst
    have htail := ih (hs.step hst)
    rw [List.length_cons]
    omega

/-- With bounded runs, and moves wherever `P` does not hold, `P` is ahead. -/
theorem Reachable.finishes {P : S → Prop} {s : S} {bound : Nat} (hs : M.Reachable s)
    (hbound : ∀ ls s', M.Run s ls s' → ls.length ≤ bound)
    (hmove : ∀ a, M.Reachable a → ¬ P a → ∃ l b, M.step a l b) : ∃ ls s', M.Run s ls s' ∧ P s' := by
  apply Classical.byContradiction
  intro hno
  have hlong : ∀ n, ∃ ls s', M.Run s ls s' ∧ ls.length = n := by
    intro n
    induction n with
    | zero => exact ⟨[], s, .nil s, rfl⟩
    | succ n ih =>
      obtain ⟨ls, a, hr, hn⟩ := ih
      obtain ⟨l, b, hst⟩ := hmove a (hs.run hr) fun hP => hno ⟨ls, a, hr, hP⟩
      exact ⟨ls ++ [l], b, hr.snoc hst, by rw [List.length_append, hn, List.length_singleton]⟩
  obtain ⟨ls, a, hr, hn⟩ := hlong (bound + 1)
  have := hbound ls a hr
  omega

/-! ## Systems given by a step function -/

/-- The system of a partial step function. -/
def ofFn (init : S → Prop) (f : S → L → Option S) : LTS S L where
  init := init
  step s l s' := f s l = some s'

/-- The state after a trace, `none` where a step is not enabled. -/
def exec (f : S → L → Option S) : S → List L → Option S
  | s, [] => some s
  | s, l :: ls => (f s l).bind (exec f · ls)

theorem run_of_exec {f : S → L → Option S} (hf : ∀ s l s', f s l = some s' → M.step s l s') :
    ∀ {ls : List L} {s s' : S}, exec f s ls = some s' → M.Run s ls s'
  | [], s, s', h => by cases h; exact .nil _
  | l :: ls, s, s', h => by
    simp only [exec, Option.bind_eq_some_iff] at h
    obtain ⟨t, ht, hr⟩ := h
    exact .cons (hf _ _ _ ht) (run_of_exec hf hr)

/-- A trace of steps that `ok` admits. -/
def guarded (ok : S → L → Prop) [∀ s l, Decidable (ok s l)] (f : S → L → Option S) (s : S) (l : L) :
    Option S :=
  if ok s l then f s l else none

theorem run_of_exec_guarded {ok : S → L → Prop} [∀ s l, Decidable (ok s l)] {f : S → L → Option S}
    {init : S → Prop} {ls : List L} {s s' : S} (h : exec (guarded ok f) s ls = some s') :
    ((ofFn init f).restrict ok).Run s ls s' := by
  refine run_of_exec (fun a l b hab => ?_) h
  unfold guarded at hab
  split at hab
  · rename_i hok; exact ⟨hok, hab⟩
  · cases hab

/-! ## Projections -/

/-- Every step of `M`, seen through `f`, is a step of `N` or leaves the image
as it is. -/
structure Projection (M : LTS S L) (N : LTS T K) (f : S → T) : Prop where
  init : ∀ s, M.init s → N.init (f s)
  step : ∀ s l s', M.Reachable s → M.step s l s' → f s' = f s ∨ ∃ k, N.step (f s) k (f s')

theorem Projection.reachable {N : LTS T K} {f : S → T} (h : Projection M N f) :
    ∀ s, M.Reachable s → N.Reachable (f s) := by
  refine reachable_induction (fun s hs => reachable_init (h.init s hs)) ?_
  intro s l s' hr hN hst
  rcases h.step s l s' hr hst with he | ⟨k, hk⟩
  · rw [he]; exact hN
  · exact hN.step hk

end LTS
