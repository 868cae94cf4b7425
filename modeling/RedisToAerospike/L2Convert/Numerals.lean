import RedisToAerospike.L2Convert.Coerce

/-!
# Genuine numerals (`converters/base.py`, `_INT_RE`, `_FLOAT_RE`)

The two patterns are meant to promote "only values that are unambiguously
numeric": an ASCII integer without leading zeros, an ASCII decimal with a
fraction or an exponent. Under `re.match` they let more through.

* `integer_iff`, `decimal_iff`: an anchored pattern accepts the ASCII language
  it is written after, and besides it only texts with a final newline or with
  digits of other scripts.
* `promotes_genuine_iff`: `coerce_scalar` promotes a text as meant unless the
  text is such a one and is promoted, or it is an integer of more than 4300
  digits, on which `int()` raises.
-/
namespace RedisToAerospike.L2
open L1 Decimal

/-! ## The ASCII languages -/

def asciiDigit (c : Char) : Bool := 48 ≤ c.toNat && c.toNat ≤ 57

/-- `-?(0|[1-9][0-9]*)` -/
def integer : Regex :=
  .seq (.opt (.lit '-'))
    (.alt (.lit '0') (.seq (.chars fun c => '1' ≤ c && c ≤ '9') (.star (.chars asciiDigit))))

/-- `-?([0-9]+[.][0-9]*|[.][0-9]+|[0-9]+)([eE][-+]?[0-9]+)?` -/
def decimal : Regex :=
  let digits := Regex.plus (.chars asciiDigit)
  let tail := Regex.star (.chars asciiDigit)
  .seq (.opt (.lit '-'))
    (.seq
      (.alt (.seq digits (.seq (.lit '.') tail)) (.alt (.seq (.lit '.') digits) digits))
      (.opt (.seq (.chars fun c => c == 'e' || c == 'E')
        (.seq (.opt (.chars fun c => c == '-' || c == '+')) digits))))

/-- The number an integer is written for. -/
def integerValue : List Char → Int
  | '-' :: ds => -(digitsValue (ds.map (·.toNat - 48)) : Int)
  | ds => digitsValue (ds.map (·.toNat - 48))

/-- An integer of the signed 64-bit range. -/
def GenuineInt (text : String) : Prop :=
  integer.Matches text.toList ∧
    INT64_MIN ≤ integerValue text.toList ∧ integerValue text.toList ≤ INT64_MAX

def Dotted (text : String) : Prop := ∃ c ∈ text.toList, c = '.' ∨ c = 'e' ∨ c = 'E'

/-- A decimal with a fraction or an exponent that `float()` makes finite. -/
def GenuineFloat (F : Type) [PyFloat F] (text : String) : Prop :=
  decimal.Matches text.toList ∧ Dotted text ∧
    PyFloat.isFinite (PyFloat.ofText text : F) = true

/-! ## Texts of plain characters -/

/-- An ASCII character other than the newline. -/
def plain (c : Char) : Bool := isAscii c && c != '\n'

def Plain (text : String) : Prop := ∀ c ∈ text.toList, plain c = true

theorem isDecimal_plain (c : Char) : (isDecimal c && plain c) = asciiDigit c := by
  cases ha : isAscii c with
  | true =>
    have hdec : isDecimal c = asciiDigit c := by
      rw [isDecimal, decimalValue_ascii ha, asciiDigit]
      split <;> simp_all
    rw [hdec, plain, ha, Bool.true_and]
    by_cases hn : c = '\n'
    · subst hn; rfl
    · simp [hn]
  | false =>
    have hbig : ¬ c.toNat < 128 := by simpa [isAscii] using ha
    rw [plain, ha, Bool.false_and, Bool.and_false, asciiDigit]
    symm
    rw [Bool.and_eq_false_iff]
    exact .inr (by simp; omega)

theorem lit_plain {a : Char} (ha : plain a = true) (c : Char) :
    ((c == a) && plain c) = (c == a) := by
  by_cases hc : c = a
  · subst hc; simp [ha]
  · simp [hc]

theorem lead_plain (c : Char) :
    (('1' ≤ c && c ≤ '9') && plain c) = ('1' ≤ c && c ≤ '9' : Bool) := by
  by_cases hc : '1' ≤ c ∧ c ≤ '9'
  · have := isAscii_of_range hc
    have hn : c ≠ '\n' := by rintro rfl; exact absurd this.1 (by decide)
    have ha : isAscii c = true := by simp only [isAscii, decide_eq_true_eq]; omega
    simp [plain, ha, hn]
  · have : ('1' ≤ c && c ≤ '9' : Bool) = false := by simpa using hc
    rw [this, Bool.false_and]

theorem either_plain {a b : Char} (ha : plain a = true) (hb : plain b = true) (c : Char) :
    ((c == a || c == b) && plain c) = (c == a || c == b) := by
  rw [Bool.and_or_distrib_right, lit_plain ha, lit_plain hb]

theorem restrict_INT_RE : INT_RE.restrict plain = integer := by
  simp only [INT_RE, integer, Regex.restrict, Regex.opt, Regex.lit, isDecimal_plain,
    lit_plain (a := '-') rfl, lit_plain (a := '0') rfl, lead_plain]

theorem restrict_FLOAT_RE : FLOAT_RE.restrict plain = decimal := by
  simp only [FLOAT_RE, decimal, Regex.restrict, Regex.opt, Regex.lit, Regex.plus, isDecimal_plain,
    lit_plain (a := '-') rfl, lit_plain (a := '.') rfl, either_plain (a := 'e') (b := 'E') rfl rfl,
    either_plain (a := '-') (b := '+') rfl rfl]

/-- The integers are the plain texts among those `_INT_RE` accepts. -/
theorem integer_iff {text : String} :
    integer.Matches text.toList ↔ INT_RE.dollar text.toList = true ∧ Plain text := by
  rw [← restrict_INT_RE]
  exact Regex.matches_restrict_dollar rfl INT_RE text.toList

theorem decimal_iff {text : String} :
    decimal.Matches text.toList ↔ FLOAT_RE.dollar text.toList = true ∧ Plain text := by
  rw [← restrict_FLOAT_RE]
  exact Regex.matches_restrict_dollar rfl FLOAT_RE text.toList

/-! ## The value of an integer -/

theorem decimalValue_digit {c : Char} (h : asciiDigit c = true) :
    (decimalValue c).getD 0 = c.toNat - 48 := by
  simp only [asciiDigit, Bool.and_eq_true, decide_eq_true_eq] at h
  rw [decimalValue_ascii (by simp [isAscii]; omega), if_pos h]; rfl

theorem digitsValue_plain {ds : List Char} (hd : ∀ c ∈ ds, isDecimal c = true)
    (hp : ∀ c ∈ ds, plain c = true) :
    digitsValue (ds.map fun c => (decimalValue c).getD 0) =
      digitsValue (ds.map (·.toNat - 48)) := by
  congr 1
  refine List.map_congr_left fun c hc => decimalValue_digit ?_
  rw [← isDecimal_plain, hd c hc, hp c hc]; rfl

/-- `int()` reads an integer as its value, unless it has too many digits. -/
theorem parseInt_integer {w : List Char} {n : Int} (h : integer.Matches w)
    (hn : parseInt w = some n) : n = integerValue w := by
  rw [← restrict_INT_RE, Regex.matches_restrict] at h
  obtain ⟨hi, hp⟩ := h
  obtain ⟨sign, body, rfl, hs, hb⟩ := matches_INT_RE.1 hi
  have hdec := hb.decimals
  have hpb : ∀ c ∈ body, plain c = true := fun c hc => hp c (List.mem_append_right _ hc)
  have hval := digitsValue_plain hdec hpb
  rw [← List.append_nil (sign ++ body), parseInt_numeral hs hb (.inl rfl)] at hn
  obtain ⟨v, hv, rfl⟩ := Option.map_eq_some_iff.1 hn
  obtain ⟨c, ds, rfl, hc, -⟩ := hb.cons
  rw [parseNat_decimals hdec, hval] at hv
  split at hv
  · cases hv
  · cases hv
    rcases hs with rfl | rfl
    · have hm : c ≠ '-' := by rintro rfl; exact absurd hc (by decide)
      rw [if_pos rfl, List.nil_append, integerValue]
      intro ds' e
      exact hm (List.cons.inj e).1
    · rfl

/-! ## What is promoted -/

section
variable {F : Type} [PyFloat F]

/-- `coerce_scalar` promotes `text` exactly when it is a genuine numeral. -/
structure PromotesGenuine (F : Type) [PyFloat F] (text : String) : Prop where
  int : (∃ n, coerceScalar (.str text) = .ok (.int n : Value F)) ↔ GenuineInt text
  float : (∃ x : F, coerceScalar (.str text) = .ok (.float x)) ↔ GenuineFloat F text
  unchanged : ¬ GenuineInt text → ¬ GenuineFloat F text →
    coerceScalar (.str text) = .ok (.str text : Value F)

/-- The branch of `_FLOAT_RE` is taken and yields a finite number. -/
def PromotedFloat (F : Type) [PyFloat F] (text : String) : Prop :=
  INT_RE.dollar text.toList = false ∧ FLOAT_RE.dollar text.toList = true ∧ Dotted text ∧
    PyFloat.isFinite (PyFloat.ofText text : F) = true

/-- `text` is an integer numeral of more than 4300 digits. -/
def OverlongText (text : String) : Prop :=
  INT_RE.dollar text.toList = true ∧ maxStrDigits < (text.toList.filter isDecimal).length

/-- An integer numeral has no point and no exponent. -/
theorem not_dotted_of_INT_RE {text : String} (h : INT_RE.dollar text.toList = true) :
    ¬ Dotted text := by
  obtain ⟨sign, body, tail, he, hs, hb, ht⟩ := dollar_INT_RE.1 h
  rintro ⟨c, hc, hd⟩
  rw [he, List.mem_append, List.mem_append] at hc
  rcases hc with (hc | hc) | hc
  · rcases hs with rfl | rfl
    · cases hc
    · rw [List.mem_singleton.1 hc] at hd; revert hd; decide
  · have := hb.decimals c hc
    rcases hd with rfl | rfl | rfl <;> exact absurd this (by decide)
  · rcases ht with rfl | rfl
    · cases hc
    · rw [List.mem_singleton.1 hc] at hd; revert hd; decide

theorem dotted_iff {text : String} :
    Dotted text ↔ text.toList.any (fun c => c ∈ ['.', 'e', 'E']) = true := by
  simp [Dotted]

theorem coerceText_promotedFloat {text : String} (h : PromotedFloat F text) :
    coerceText text = .ok (.float (PyFloat.ofText text : F)) := by
  obtain ⟨hi, hf, hd, hfin⟩ := h
  simp only [coerceText, hi, hf, dotted_iff.1 hd, hfin, Bool.false_eq_true, if_false,
    Bool.and_self, if_true]

theorem promoted_of_int {text : String} {n : Int}
    (h : coerceText text = .ok (.int n : Value F)) : Promoted text := by
  rcases coerceText_cases h with ⟨m, -, hre, hm, hr⟩ | ⟨x, hx⟩ | ⟨hs, -⟩
  · exact ⟨hre, m, hm, hr⟩
  · cases hx
  · cases hs

theorem promotedFloat_of_float {text : String} {x : F}
    (h : coerceText text = .ok (.float x : Value F)) : PromotedFloat F text := by
  unfold coerceText at h
  split at h
  · cases hn : pyInt text with
    | error exc => rw [hn] at h; cases h
    | ok n =>
      rw [hn] at h
      dsimp only at h
      split at h <;> cases h
  · rename_i hi
    split at h
    · rename_i hf
      rw [Bool.and_eq_true, ← dotted_iff] at hf
      dsimp only at h
      split at h
      · rename_i hfin
        exact ⟨by simpa using hi, hf.1, hf.2, hfin⟩
      · cases h
    · cases h

theorem coerceText_unpromoted {text : String} (ho : ¬ OverlongText text) (hp : ¬ Promoted text)
    (hf : ¬ PromotedFloat F text) : coerceText text = .ok (.str text : Value F) := by
  obtain ⟨v, hv⟩ := coerceText_ok_iff (F := F).2 ho
  rcases coerceText_cases hv with ⟨n, rfl, hre, hn, hr⟩ | ⟨x, rfl⟩ | ⟨rfl, -⟩
  · exact absurd ⟨hre, n, hn, hr⟩ hp
  · exact absurd (promotedFloat_of_float hv) hf
  · exact hv

/-- A genuine integer is a plain text that is promoted to one. -/
theorem genuineInt_iff {text : String} (ho : ¬ OverlongText text) :
    GenuineInt text ↔ Promoted text ∧ Plain text := by
  constructor
  · rintro ⟨hm, hr⟩
    obtain ⟨hre, hp⟩ := integer_iff.1 hm
    obtain ⟨n, hn⟩ : ∃ n, parseInt text.toList = some n := by
      rw [← Option.ne_none_iff_exists']
      exact fun h => ho ⟨hre, (parseInt_eq_none_iff hre).1 h⟩
    exact ⟨⟨hre, n, hn, parseInt_integer hm hn ▸ hr⟩, hp⟩
  · rintro ⟨⟨hre, n, hn, hr⟩, hp⟩
    have hm := integer_iff.2 ⟨hre, hp⟩
    exact ⟨hm, parseInt_integer hm hn ▸ hr⟩

theorem genuineFloat_iff {text : String} :
    GenuineFloat F text ↔ PromotedFloat F text ∧ Plain text := by
  constructor
  · rintro ⟨hm, hd, hfin⟩
    obtain ⟨hre, hp⟩ := decimal_iff.1 hm
    have hi : INT_RE.dollar text.toList = false :=
      Bool.eq_false_iff.2 fun h => not_dotted_of_INT_RE h hd
    exact ⟨⟨hi, hre, hd, hfin⟩, hp⟩
  · rintro ⟨⟨-, hre, hd, hfin⟩, hp⟩
    exact ⟨decimal_iff.2 ⟨hre, hp⟩, hd, hfin⟩

theorem coerceText_overlong {text : String} (h : OverlongText text) (v : Value F) :
    coerceText text ≠ .ok v :=
  fun hv => coerceText_ok_iff.1 ⟨v, hv⟩ h

/-- **Promotion.** A text is promoted as meant exactly when it is no overlong
integer, and is plain if one of the two patterns promotes it. -/
theorem promotes_genuine_iff (text : String) :
    PromotesGenuine F text ↔
      ¬ OverlongText text ∧ (Promoted text ∨ PromotedFloat F text → Plain text) := by
  constructor
  · rintro ⟨hint, hfloat, hsame⟩
    constructor
    · intro ho
      have hi : ¬ GenuineInt text := fun h => by
        obtain ⟨n, hn⟩ := hint.2 h
        exact coerceText_overlong ho _ hn
      have hf : ¬ GenuineFloat F text := fun h => by
        obtain ⟨x, hx⟩ := hfloat.2 h
        exact coerceText_overlong ho _ hx
      exact coerceText_overlong ho _ (hsame hi hf)
    · rintro (h | h)
      · obtain ⟨n, -, hn⟩ := coerceText_promoted (F := F) h
        exact (integer_iff.1 (hint.1 ⟨n, hn⟩).1).2
      · exact (genuineFloat_iff.1 (hfloat.1 ⟨_, coerceText_promotedFloat h⟩)).2
  · rintro ⟨ho, hplain⟩
    have hi : GenuineInt text ↔ Promoted text :=
      (genuineInt_iff ho).trans (and_iff_left_of_imp fun h => hplain (.inl h))
    have hf : GenuineFloat F text ↔ PromotedFloat F text :=
      genuineFloat_iff.trans (and_iff_left_of_imp fun h => hplain (.inr h))
    refine ⟨?_, ?_, ?_⟩
    · rw [hi]
      constructor
      · rintro ⟨n, hn⟩
        exact promoted_of_int hn
      · intro h
        obtain ⟨n, -, hn⟩ := coerceText_promoted (F := F) h
        exact ⟨n, hn⟩
    · rw [hf]
      constructor
      · rintro ⟨x, hx⟩
        exact promotedFloat_of_float hx
      · intro h
        exact ⟨_, coerceText_promotedFloat h⟩
    · rw [hi, hf]
      exact coerceText_unpromoted ho

end

/-- A numeral with a newline behind it is promoted, to an integer or to a
float. -/
theorem newline_promoted :
    coerceScalar (.str "12\n" : Value String) = .ok (.int 12) ∧
    coerceScalar (.str "1.5\n" : Value String) = .ok (.float "1.5\n") ∧
    ¬ PromotesGenuine String "12\n" ∧ ¬ PromotesGenuine String "1.5\n" := by
  refine ⟨rfl, rfl, fun h => ?_, fun h => ?_⟩
  · obtain ⟨hm, -⟩ := h.int.1 ⟨12, rfl⟩
    exact absurd ((Regex.accepts_iff _ _).2 hm) (by decide)
  · obtain ⟨hm, -⟩ := h.float.1 ⟨"1.5\n", rfl⟩
    exact absurd ((Regex.accepts_iff _ _).2 hm) (by decide)

end RedisToAerospike.L2
