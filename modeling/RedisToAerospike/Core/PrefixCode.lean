import Mathlib.Data.List.Basic

/-!
# Codes that can be read back word by word

`enc` gives every letter a word. If some decoder takes a word off the front of
any text, the encoding of a list is injective (`Reads.flatMap_inj`).
-/
namespace PrefixCode

variable {α β : Type*}

/-- `dec` reads one word off the front, whatever follows. -/
def Reads (enc : α → List β) (dec : List β → Option (α × List β)) : Prop :=
  ∀ a rest, dec (enc a ++ rest) = some (a, rest)

variable {enc : α → List β} {dec : List β → Option (α × List β)}

theorem Reads.cons_inj (h : Reads enc dec) {a b : α} {r s : List β}
    (he : enc a ++ r = enc b ++ s) : a = b ∧ r = s := by
  have hd := h a r
  rw [he, h b s, Option.some.injEq, Prod.mk.injEq] at hd
  exact ⟨hd.1.symm, hd.2.symm⟩

theorem Reads.flatMap_inj (h : Reads enc dec) (hne : ∀ a, enc a ≠ []) {as bs : List α}
    (he : as.flatMap enc = bs.flatMap enc) : as = bs := by
  induction as generalizing bs with
  | nil =>
    cases bs with
    | nil => rfl
    | cons b bs =>
      rw [List.flatMap_nil, List.flatMap_cons] at he
      exact absurd (List.append_eq_nil_iff.1 he.symm).1 (hne b)
  | cons a as ih =>
    cases bs with
    | nil =>
      rw [List.flatMap_nil, List.flatMap_cons] at he
      exact absurd (List.append_eq_nil_iff.1 he).1 (hne a)
    | cons b bs =>
      rw [List.flatMap_cons, List.flatMap_cons] at he
      obtain ⟨rfl, hrest⟩ := h.cons_inj he
      rw [ih hrest]

end PrefixCode
