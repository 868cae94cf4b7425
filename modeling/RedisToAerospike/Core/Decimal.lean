import Mathlib.Data.List.Induction
import Mathlib.Data.Nat.Notation

/-!
# Decimal numerals: Python's `int()` and canonical rendering

`parseInt` is `int(text)`: surrounding white space is dropped, one sign may
follow, then Unicode decimal digits with single underscores between them, at
most 4300 of them. `none` is `ValueError`. Rendering is Lean's `toString`.

* `toDigits_digitsValue`: digits without a leading zero are the canonical
  rendering of their value.
* `mem_toString_int`: a rendering holds ASCII digits and a minus sign only.
-/
namespace Decimal

/-- Code points of the zeros above ASCII of the Unicode decimal digits
(general category Nd, Unicode 15); each is followed by its one to nine. -/
def otherZeros : List Nat :=
  [0x660, 0x6F0, 0x7C0, 0x966, 0x9E6, 0xA66, 0xAE6, 0xB66, 0xBE6, 0xC66, 0xCE6, 0xD66, 0xDE6,
    0xE50, 0xED0, 0xF20, 0x1040, 0x1090, 0x17E0, 0x1810, 0x1946, 0x19D0, 0x1A80, 0x1A90, 0x1B50,
    0x1BB0, 0x1C40, 0x1C50, 0xA620, 0xA8D0, 0xA900, 0xA9D0, 0xA9F0, 0xAA50, 0xABF0, 0xFF10,
    0x104A0, 0x10D30, 0x11066, 0x110F0, 0x11136, 0x111D0, 0x112F0, 0x11450, 0x114D0, 0x11650,
    0x116C0, 0x11730, 0x118E0, 0x11950, 0x11C50, 0x11D50, 0x11DA0, 0x11F50, 0x16A60, 0x16AC0,
    0x16B50, 0x1D7CE, 0x1D7D8, 0x1D7E2, 0x1D7EC, 0x1D7F6, 0x1E140, 0x1E2F0, 0x1E4F0, 0x1E950,
    0x1FBF0]

def decimalZeros : List Nat := 0x30 :: otherZeros

/-- The value of a decimal digit (`Py_UNICODE_TODECIMAL`). -/
def decimalValue (c : Char) : Option Nat :=
  (decimalZeros.find? fun z => z ≤ c.toNat && c.toNat < z + 10).map (c.toNat - ·)

/-- `\d` in a `str` pattern. -/
def isDecimal (c : Char) : Bool := (decimalValue c).isSome

/-- Code points that `int()` drops around a numeral: the ASCII blanks, and
what Unicode calls white space above ASCII. -/
def isSpaceCode (n : Nat) : Bool :=
  (9 ≤ n && n ≤ 13) || n == 0x20 || n == 0x85 || n == 0xA0 || n == 0x1680 ||
    (0x2000 ≤ n && n ≤ 0x200A) || n == 0x2028 || n == 0x2029 || n == 0x202F || n == 0x205F ||
    n == 0x3000

def isSpace (c : Char) : Bool := isSpaceCode c.toNat

def isAscii (c : Char) : Bool := c.toNat < 128

/-- Digits with single underscores between them; `d` says whether the
character before was a digit. -/
def digitsGo : Bool → List Char → Option (List Nat)
  | d, [] => if d then some [] else none
  | d, c :: cs =>
    if c = '_' then (if d then digitsGo false cs else none)
    else match decimalValue c with
      | none => none
      | some v => (digitsGo true cs).map (v :: ·)

def digitsOf (cs : List Char) : Option (List Nat) := digitsGo false cs

def digitsValue (ds : List Nat) : Nat := ds.foldl (fun n d => 10 * n + d) 0

/-- `sys.int_info.default_max_str_digits` -/
def maxStrDigits : Nat := 4300

def strip (text : List Char) : List Char :=
  ((text.dropWhile isSpace).reverse.dropWhile isSpace).reverse

def parseNat (text : List Char) : Option Nat :=
  match digitsOf text with
  | none => none
  | some ds => if maxStrDigits < ds.length then none else some (digitsValue ds)

/-- `int(text)`, `none` where it raises `ValueError`. -/
def parseInt (text : List Char) : Option Int :=
  match strip text with
  | '-' :: ds => (parseNat ds).map fun n : Nat => -(n : Int)
  | '+' :: ds => (parseNat ds).map fun n : Nat => (n : Int)
  | ds => (parseNat ds).map fun n : Nat => (n : Int)

/-! ## Digits -/

theorem decimalValue_lt {c : Char} {d : Nat} (h : decimalValue c = some d) : d < 10 := by
  obtain ⟨z, hz, rfl⟩ := Option.map_eq_some_iff.1 h
  have := List.find?_some hz
  simp only [Bool.and_eq_true, decide_eq_true_eq] at this
  omega

theorem isDecimal_iff {c : Char} :
    isDecimal c = true ↔ ∃ z ∈ decimalZeros, z ≤ c.toNat ∧ c.toNat < z + 10 := by
  simp [isDecimal, decimalValue, List.find?_isSome]

theorem not_isSpaceCode_decimal : ∀ z ∈ decimalZeros, ∀ i < 10, isSpaceCode (z + i) = false := by
  decide +kernel

theorem not_isSpace_of_isDecimal {c : Char} (h : isDecimal c = true) : isSpace c = false := by
  obtain ⟨z, hz, h1, h2⟩ := isDecimal_iff.1 h
  have := not_isSpaceCode_decimal z hz (c.toNat - z) (by omega)
  rwa [show z + (c.toNat - z) = c.toNat by omega] at this

theorem otherZeros_ge : ∀ z ∈ otherZeros, 0x660 ≤ z := by decide

theorem decimalValue_ascii {c : Char} (h : isAscii c = true) :
    decimalValue c = if 48 ≤ c.toNat ∧ c.toNat ≤ 57 then some (c.toNat - 48) else none := by
  simp only [isAscii, decide_eq_true_eq] at h
  have hnone : otherZeros.find? (fun z => z ≤ c.toNat && c.toNat < z + 10) = none := by
    rw [List.find?_eq_none]
    intro z hz
    have := otherZeros_ge z hz
    simp only [Bool.and_eq_true, decide_eq_true_eq, not_and]
    omega
  unfold decimalValue decimalZeros
  by_cases hc : 48 ≤ c.toNat ∧ c.toNat ≤ 57
  · rw [List.find?_cons_of_pos (by simp; omega), if_pos hc]; rfl
  · rw [List.find?_cons_of_neg (by simp; omega), hnone, if_neg hc]; rfl

/-- An ASCII digit is the digit character of its value. -/
theorem digitChar_decimalValue {c : Char} {d : Nat} (ha : isAscii c = true)
    (h : decimalValue c = some d) : d.digitChar = c := by
  rw [decimalValue_ascii ha] at h
  split at h
  · rename_i hc
    cases h
    obtain ⟨n, hn⟩ : ∃ n, c.toNat = n + 48 := ⟨c.toNat - 48, by omega⟩
    have hlt : n < 10 := by omega
    rw [hn, Nat.add_sub_cancel]
    apply Char.toNat_inj.1
    rw [hn]
    revert hlt
    generalize n = m
    decide +revert
  · cases h

theorem digitsGo_decimals {cs : List Char} (h : ∀ c ∈ cs, isDecimal c = true) :
    digitsGo true cs = some (cs.map fun c => (decimalValue c).getD 0) := by
  induction cs with
  | nil => rfl
  | cons c cs ih =>
    obtain ⟨hc, hcs⟩ := List.forall_mem_cons.1 h
    obtain ⟨v, hv⟩ := Option.isSome_iff_exists.1 hc
    have hu : c ≠ '_' := by rintro rfl; exact absurd hc (by decide)
    simp [digitsGo, hu, hv, ih hcs]

theorem digitsOf_decimals {c : Char} {cs : List Char} (h : ∀ x ∈ c :: cs, isDecimal x = true) :
    digitsOf (c :: cs) = some ((c :: cs).map fun c => (decimalValue c).getD 0) := by
  have hu : c ≠ '_' := by rintro rfl; exact absurd (h '_' List.mem_cons_self) (by decide)
  rw [← digitsGo_decimals h]
  simp [digitsOf, digitsGo, hu]

theorem digitsValue_append (ds : List Nat) (d : Nat) :
    digitsValue (ds ++ [d]) = 10 * digitsValue ds + d := by
  simp [digitsValue]

theorem digitsValue_pos {d : Nat} {ds : List Nat} (h : 0 < d) : 0 < digitsValue (d :: ds) := by
  induction ds using List.reverseRecOn with
  | nil => simpa [digitsValue] using h
  | append_singleton ds e ih =>
    rw [← List.cons_append, digitsValue_append]; omega

/-- Digits without a leading zero render their value. -/
theorem toDigits_digitsValue {d : Nat} {ds : List Nat} (h0 : 0 < d)
    (h : ∀ e ∈ d :: ds, e < 10) :
    Nat.toDigits 10 (digitsValue (d :: ds)) = (d :: ds).map Nat.digitChar := by
  induction ds using List.reverseRecOn with
  | nil =>
    have hd : digitsValue [d] = d := by simp [digitsValue]
    rw [hd, Nat.toDigits_of_lt_base (h d List.mem_cons_self)]; rfl
  | append_singleton ds e ih =>
    rw [← List.cons_append] at h ⊢
    have he : e < 10 := h e (by simp)
    rw [digitsValue_append, ← Nat.toDigits_append_toDigits (by decide) (digitsValue_pos h0) he,
      ih fun x hx => h x (List.mem_append_left _ hx), Nat.toDigits_of_lt_base he, List.map_append]
    rfl

/-! ## Parsing a bare numeral -/

theorem dropWhile_eq_self {p : Char → Bool} {c : Char} {cs : List Char} (h : p c = false) :
    (c :: cs).dropWhile p = c :: cs := by
  simp [List.dropWhile, h]

/-- `strip` drops the blanks of `tail` behind a text that neither starts nor
ends with one. -/
theorem strip_append {text tail : List Char} (hne : text ≠ [])
    (hhead : ∀ c ∈ text.head?, isSpace c = false) (hlast : ∀ c ∈ text.getLast?, isSpace c = false)
    (htail : ∀ c ∈ tail, isSpace c = true) : strip (text ++ tail) = text := by
  obtain ⟨c, cs, rfl⟩ := List.exists_cons_of_ne_nil hne
  have hfront : ((c :: cs) ++ tail).dropWhile isSpace = (c :: cs) ++ tail :=
    dropWhile_eq_self (hhead c rfl)
  have hback : ∀ r : List Char, (∀ x ∈ r, isSpace x = true) →
      (r ++ (c :: cs).reverse).dropWhile isSpace = (c :: cs).reverse := by
    intro r hr
    rw [List.dropWhile_append_of_pos hr]
    obtain ⟨d, ds, hd⟩ := List.exists_cons_of_ne_nil
      (show (c :: cs).reverse ≠ [] by simp)
    have hdl : (c :: cs).getLast? = some d := by
      rw [List.getLast?_eq_head?_reverse, hd]; rfl
    rw [hd]
    exact dropWhile_eq_self (hlast d hdl)
  rw [strip, hfront, List.reverse_append, hback tail.reverse (by simpa using htail),
    List.reverse_reverse]

theorem parseNat_decimals {c : Char} {cs : List Char} (h : ∀ x ∈ c :: cs, isDecimal x = true) :
    parseNat (c :: cs) = if maxStrDigits < (c :: cs).length then none
      else some (digitsValue ((c :: cs).map fun c => (decimalValue c).getD 0)) := by
  rw [parseNat, digitsOf_decimals h]
  simp only [List.length_map]

/-- ASCII digits without a leading zero are the rendering of their value. -/
theorem toDigits_ascii {c : Char} {cs : List Char} (h : ∀ x ∈ c :: cs, isDecimal x = true)
    (ha : ∀ x ∈ c :: cs, isAscii x = true) (h0 : c ≠ '0') :
    Nat.toDigits 10 (digitsValue ((c :: cs).map fun c => (decimalValue c).getD 0)) = c :: cs := by
  have hval : ∀ x ∈ c :: cs, decimalValue x = some ((decimalValue x).getD 0) := fun x hx => by
    obtain ⟨d, hd⟩ := Option.isSome_iff_exists.1 (h x hx)
    rw [hd]; rfl
  have hc : 0 < (decimalValue c).getD 0 := by
    rcases Nat.eq_zero_or_pos ((decimalValue c).getD 0) with hz | hz
    · have := digitChar_decimalValue (ha c List.mem_cons_self) (hval c List.mem_cons_self)
      rw [hz] at this
      exact absurd this.symm h0
    · exact hz
  rw [List.map_cons, toDigits_digitsValue hc]
  · rw [← List.map_cons (f := fun c => (decimalValue c).getD 0), List.map_map]
    conv_rhs => rw [← List.map_id (c :: cs)]
    exact List.map_congr_left fun x hx => digitChar_decimalValue (ha x hx) (hval x hx)
  · rw [← List.map_cons (f := fun c => (decimalValue c).getD 0)]
    intro e he
    obtain ⟨x, hx, rfl⟩ := List.mem_map.1 he
    exact decimalValue_lt (hval x hx)

/-! ## Rendering -/

theorem toString_natCast (n : Nat) : (toString (n : Int)).toList = Nat.toDigits 10 n := by
  show (Nat.repr n).toList = _
  exact Nat.toList_repr

theorem toString_neg {n : Nat} (h : 0 < n) :
    (toString (-(n : Int))).toList = '-' :: Nat.toDigits 10 n := by
  obtain ⟨m, rfl⟩ : ∃ m, n = m + 1 := ⟨n - 1, by omega⟩
  show ("-" ++ Nat.repr (m + 1)).toList = _
  rw [String.toList_append, Nat.toList_repr]; rfl

/-- An integer is a natural number or the negation of a positive one. -/
theorem int_cases (n : Int) : (∃ m : Nat, n = m) ∨ ∃ m : Nat, 0 < m ∧ n = -(m : Int) := by
  rcases Int.le_total 0 n with h | h
  · exact .inl ⟨n.toNat, by omega⟩
  · rcases Int.lt_or_eq_of_le h with h | h
    · exact .inr ⟨n.natAbs, by omega, by omega⟩
    · exact .inl ⟨0, h⟩

theorem mem_toString_int {n : Int} {c : Char} (h : c ∈ (toString n).toList) :
    c = '-' ∨ c.isDigit = true := by
  rcases int_cases n with ⟨m, rfl⟩ | ⟨m, hm, rfl⟩
  · rw [toString_natCast] at h
    exact .inr (Nat.isDigit_of_mem_toDigits (by decide) (by decide) h)
  · rw [toString_neg hm, List.mem_cons] at h
    exact h.imp_right (Nat.isDigit_of_mem_toDigits (by decide) (by decide))

theorem toDigits_inj {m n : Nat} (h : Nat.toDigits 10 m = Nat.toDigits 10 n) : m = n := by
  rw [← Nat.ofDigitChars_ten_toDigits (n := m), h, Nat.ofDigitChars_ten_toDigits]

theorem minus_not_mem_toDigits (n : Nat) : '-' ∉ Nat.toDigits 10 n := fun h =>
  absurd (Nat.isDigit_of_mem_toDigits (b := 10) (by decide) (by decide) h) (by decide)

end Decimal
