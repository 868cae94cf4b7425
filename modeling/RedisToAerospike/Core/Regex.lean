import Mathlib.Data.List.Basic

/-!
# Regular expressions over character classes

Syntax (`Regex`), its language (`Matches`), and a matcher by derivatives
(`accepts`) that decides it (`accepts_iff`).

`dollar r` is the language of the anchored pattern `^r$` under Python's
`re.match`: `$` also matches just before a newline that ends the text.
`restrict p r` is `r` over a smaller alphabet; over one without the newline
`$` means the end of the text (`matches_restrict_dollar`).
-/

inductive Regex where
  | empty
  | eps
  | chars (p : Char → Bool)
  | alt (r s : Regex)
  | seq (r s : Regex)
  | star (r : Regex)

namespace Regex

/-- One literal character. -/
def lit (c : Char) : Regex := .chars (· == c)

/-- `r?` -/
def opt (r : Regex) : Regex := .alt r .eps

/-- `r+` -/
def plus (r : Regex) : Regex := .seq r (.star r)

inductive Matches : Regex → List Char → Prop
  | eps : Matches .eps []
  | chars {p : Char → Bool} {c : Char} : p c = true → Matches (.chars p) [c]
  | altL {r s : Regex} {w : List Char} : Matches r w → Matches (.alt r s) w
  | altR {r s : Regex} {w : List Char} : Matches s w → Matches (.alt r s) w
  | seq {r s : Regex} {u v : List Char} : Matches r u → Matches s v → Matches (.seq r s) (u ++ v)
  | starNil {r : Regex} : Matches (.star r) []
  | starCons {r : Regex} {u v : List Char} :
      Matches r u → Matches (.star r) v → Matches (.star r) (u ++ v)

/-! ## Inversion, constructor by constructor -/

@[simp] theorem not_matches_empty {w : List Char} : ¬ Matches .empty w := nofun

@[simp] theorem matches_eps {w : List Char} : Matches .eps w ↔ w = [] :=
  ⟨fun h => by cases h; rfl, fun h => h ▸ .eps⟩

@[simp] theorem matches_chars {p : Char → Bool} {w : List Char} :
    Matches (.chars p) w ↔ ∃ c, p c = true ∧ w = [c] :=
  ⟨fun h => by cases h with | chars hp => exact ⟨_, hp, rfl⟩, fun ⟨_, hp, e⟩ => e ▸ .chars hp⟩

@[simp] theorem matches_lit {a : Char} {w : List Char} : Matches (lit a) w ↔ w = [a] := by
  simp [lit]

@[simp] theorem matches_alt {r s : Regex} {w : List Char} :
    Matches (.alt r s) w ↔ Matches r w ∨ Matches s w :=
  ⟨fun h => by
    cases h with
    | altL h => exact .inl h
    | altR h => exact .inr h, fun h => h.elim .altL .altR⟩

@[simp] theorem matches_opt {r : Regex} {w : List Char} :
    Matches (opt r) w ↔ Matches r w ∨ w = [] := by simp [opt]

theorem matches_seq {r s : Regex} {w : List Char} :
    Matches (.seq r s) w ↔ ∃ u v, Matches r u ∧ Matches s v ∧ w = u ++ v :=
  ⟨fun h => by cases h with | seq hu hv => exact ⟨_, _, hu, hv, rfl⟩,
    fun ⟨_, _, hu, hv, e⟩ => e ▸ .seq hu hv⟩

theorem matches_star_cons {r : Regex} {c : Char} {w : List Char} (h : Matches (.star r) (c :: w)) :
    ∃ u v, Matches r (c :: u) ∧ Matches (.star r) v ∧ w = u ++ v := by
  generalize hs : Regex.star r = s at h
  generalize hw : c :: w = x at h
  induction h with
  | starNil => cases hw
  | @starCons r' u v hu hv _ ih =>
    cases hs
    cases u with
    -- an empty first round: the match starts in the rest
    | nil => exact ih rfl hw
    | cons a u =>
      rw [List.cons_append, List.cons.injEq] at hw
      obtain ⟨rfl, rfl⟩ := hw
      exact ⟨u, v, hu, hv, rfl⟩
  | _ => cases hs

/-- A repeated character class. -/
theorem matches_star_chars {p : Char → Bool} {w : List Char} :
    Matches (.star (.chars p)) w ↔ ∀ c ∈ w, p c = true := by
  induction w with
  | nil => exact ⟨fun _ => nofun, fun _ => .starNil⟩
  | cons c w ih =>
    constructor
    · intro h
      obtain ⟨u, v, hu, hv, rfl⟩ := matches_star_cons h
      obtain ⟨d, hd, e⟩ := matches_chars.1 hu
      cases e
      exact List.forall_mem_cons.2 ⟨hd, ih.1 hv⟩
    · intro h
      obtain ⟨hc, hw⟩ := List.forall_mem_cons.1 h
      exact .starCons (u := [c]) (.chars hc) (ih.2 hw)

/-! ## The matcher -/

def nullable : Regex → Bool
  | .empty => false
  | .eps => true
  | .chars _ => false
  | .alt r s => nullable r || nullable s
  | .seq r s => nullable r && nullable s
  | .star _ => true

/-- What is left to match after `c`. -/
def deriv (c : Char) : Regex → Regex
  | .empty => .empty
  | .eps => .empty
  | .chars p => if p c then .eps else .empty
  | .alt r s => .alt (deriv c r) (deriv c s)
  | .seq r s =>
    if nullable r then .alt (.seq (deriv c r) s) (deriv c s) else .seq (deriv c r) s
  | .star r => .seq (deriv c r) (.star r)

def accepts : Regex → List Char → Bool
  | r, [] => nullable r
  | r, c :: w => accepts (deriv c r) w

theorem nullable_iff (r : Regex) : nullable r = true ↔ Matches r [] := by
  induction r with
  | empty => simp [nullable]
  | eps => simp [nullable]
  | chars p => simp [nullable]
  | alt r s ihr ihs => simp [nullable, ihr, ihs]
  | seq r s ihr ihs =>
    simp only [nullable, Bool.and_eq_true, ihr, ihs, matches_seq]
    constructor
    · intro hx
      obtain ⟨hr, hs⟩ := hx
      exact ⟨[], [], hr, hs, rfl⟩
    · intro hx
      obtain ⟨u, v, hu, hv, e⟩ := hx
      obtain ⟨rfl, rfl⟩ := List.nil_eq_append_iff.1 e
      exact ⟨hu, hv⟩
  | star r _ => exact ⟨fun _ => .starNil, fun _ => rfl⟩

/-- A match of `r s` that starts with `c` takes it in `r`, or in `s` after an
empty match of `r`. -/
theorem matches_seq_cons {r s : Regex} {c : Char} {w : List Char} :
    Matches (.seq r s) (c :: w) ↔
      (∃ u v, Matches r (c :: u) ∧ Matches s v ∧ w = u ++ v) ∨
        (Matches r [] ∧ Matches s (c :: w)) := by
  rw [matches_seq]
  constructor
  · intro hx
    obtain ⟨u, v, hu, hv, e⟩ := hx
    cases u with
    | nil => exact .inr ⟨hu, by rw [e]; exact hv⟩
    | cons a u =>
      rw [List.cons_append, List.cons.injEq] at e
      obtain ⟨rfl, rfl⟩ := e
      exact .inl ⟨u, v, hu, hv, rfl⟩
  · intro hx
    rcases hx with ⟨u, v, hu, hv, rfl⟩ | ⟨hr, hs⟩
    · exact ⟨c :: u, v, hu, hv, rfl⟩
    · exact ⟨[], c :: w, hr, hs, rfl⟩

theorem deriv_iff (c : Char) (r : Regex) :
    ∀ w, Matches (deriv c r) w ↔ Matches r (c :: w) := by
  induction r with
  | empty => intro w; simp [deriv]
  | eps => intro w; simp [deriv]
  | chars p =>
    intro w
    by_cases h : p c = true <;> simp [deriv, h]
  | alt r s ihr ihs => intro w; simp [deriv, ihr, ihs]
  | seq r s ihr ihs =>
    intro w
    rw [matches_seq_cons, ← nullable_iff r]
    by_cases h : nullable r = true
    · simp [deriv, h, matches_seq, ihr, ihs]
    · simp [deriv, h, matches_seq, ihr]
  | star r ih =>
    intro w
    simp only [deriv, matches_seq, ih]
    constructor
    · intro hx
      obtain ⟨u, v, hu, hv, rfl⟩ := hx
      exact .starCons hu hv
    · exact matches_star_cons

theorem accepts_iff (r : Regex) (w : List Char) : accepts r w = true ↔ Matches r w := by
  induction w generalizing r with
  | nil => exact nullable_iff r
  | cons c w ih => rw [accepts, ih, deriv_iff]

/-! ## Anchors -/

/-- `re.match("^r$", w)` -/
def dollar (r : Regex) (w : List Char) : Bool :=
  accepts r w || (w.getLast? == some '\n' && accepts r w.dropLast)

theorem dollar_iff (r : Regex) (w : List Char) :
    dollar r w = true ↔ Matches r w ∨ ∃ u, w = u ++ ['\n'] ∧ Matches r u := by
  simp only [dollar, Bool.or_eq_true, Bool.and_eq_true, beq_iff_eq, accepts_iff]
  constructor
  · intro hx
    rcases hx with h | ⟨hl, h⟩
    · exact .inl h
    · exact .inr ⟨w.dropLast, (List.dropLast_append_getLast? _ hl).symm, h⟩
  · intro hx
    rcases hx with h | ⟨u, rfl, h⟩
    · exact .inl h
    · exact .inr ⟨by simp, by simpa using h⟩

/-! ## Restriction to an alphabet -/

/-- The words of `r` over the characters that satisfy `p`. -/
def restrict (p : Char → Bool) : Regex → Regex
  | .empty => .empty
  | .eps => .eps
  | .chars q => .chars fun c => q c && p c
  | .alt r s => .alt (restrict p r) (restrict p s)
  | .seq r s => .seq (restrict p r) (restrict p s)
  | .star r => .star (restrict p r)

/-- A star over `p` only: the rounds of the star, each over `p`. -/
theorem star_restrict_of {p : Char → Bool} {r r' : Regex}
    (hr : ∀ w, Matches r w → (∀ c ∈ w, p c = true) → Matches r' w) {w : List Char}
    (h : Matches (.star r) w) (hp : ∀ c ∈ w, p c = true) : Matches (.star r') w := by
  generalize hs : Regex.star r = s at h
  induction h with
  | starNil => exact .starNil
  | starCons hu _ _ ih =>
    cases hs
    obtain ⟨hpu, hpv⟩ := List.forall_mem_append.1 hp
    exact .starCons (hr _ hu hpu) (ih hpv rfl)
  | _ => cases hs

theorem star_of_restrict {p : Char → Bool} {r r' : Regex}
    (hr : ∀ w, Matches r' w → Matches r w ∧ ∀ c ∈ w, p c = true) {w : List Char}
    (h : Matches (.star r') w) : Matches (.star r) w ∧ ∀ c ∈ w, p c = true := by
  generalize hs : Regex.star r' = s at h
  induction h with
  | starNil => exact ⟨.starNil, nofun⟩
  | starCons hu _ _ ih =>
    cases hs
    obtain ⟨hru, hpu⟩ := hr _ hu
    obtain ⟨hrv, hpv⟩ := ih rfl
    exact ⟨.starCons hru hrv, List.forall_mem_append.2 ⟨hpu, hpv⟩⟩
  | _ => cases hs

theorem matches_restrict {p : Char → Bool} (r : Regex) :
    ∀ w, Matches (restrict p r) w ↔ Matches r w ∧ ∀ c ∈ w, p c = true := by
  induction r with
  | empty => intro w; simp [restrict]
  | eps =>
    intro w
    simp only [restrict, matches_eps]
    exact ⟨fun h => ⟨h, h ▸ nofun⟩, And.left⟩
  | chars q =>
    intro w
    simp only [restrict, matches_chars, Bool.and_eq_true]
    constructor
    · rintro ⟨c, ⟨hq, hp⟩, rfl⟩
      exact ⟨⟨c, hq, rfl⟩, by simpa using hp⟩
    · rintro ⟨⟨c, hq, rfl⟩, hp⟩
      exact ⟨c, ⟨hq, hp c List.mem_cons_self⟩, rfl⟩
  | alt r s ihr ihs =>
    intro w
    simp only [restrict, matches_alt, ihr, ihs, or_and_right]
  | seq r s ihr ihs =>
    intro w
    simp only [restrict, matches_seq, ihr, ihs]
    constructor
    · rintro ⟨u, v, ⟨hu, hpu⟩, ⟨hv, hpv⟩, rfl⟩
      exact ⟨⟨u, v, hu, hv, rfl⟩, List.forall_mem_append.2 ⟨hpu, hpv⟩⟩
    · rintro ⟨⟨u, v, hu, hv, rfl⟩, hp⟩
      obtain ⟨hpu, hpv⟩ := List.forall_mem_append.1 hp
      exact ⟨u, v, ⟨hu, hpu⟩, ⟨hv, hpv⟩, rfl⟩
  | star r ih =>
    intro w
    constructor
    · exact star_of_restrict fun w => (ih w).1
    · rintro ⟨h, hp⟩
      exact star_restrict_of (fun w hw hpw => (ih w).2 ⟨hw, hpw⟩) h hp

/-- Over an alphabet without the newline `$` anchors at the end alone. -/
theorem matches_restrict_dollar {p : Char → Bool} (hp : p '\n' = false) (r : Regex)
    (w : List Char) :
    Matches (restrict p r) w ↔ dollar r w = true ∧ ∀ c ∈ w, p c = true := by
  rw [matches_restrict, dollar_iff]
  refine and_congr_left fun hw => ⟨.inl, ?_⟩
  rintro (h | ⟨u, rfl, -⟩)
  · exact h
  · rw [hw '\n' (by simp)] at hp; cases hp

end Regex
