import RedisToAerospike.Core.Decimal
import RedisToAerospike.Core.Regex
import RedisToAerospike.Core.Utf8
import RedisToAerospike.L1Data.Models

/-!
# Scalar coercion (`converters/base.py`, `coerce_scalar`)

A raw Redis scalar becomes an `int`, a `float`, a `str` or stays `bytes`. Two
regular expressions decide which texts are numerals.

* `matches_INT_RE`: the language of `_INT_RE`.
* `coerceScalar_int`: where it promotes to an `int`, with `toString_parse_iff`:
  which of those texts the integer renders back.
* `coerceScalar_lossless_iff`: outside the float case the value renders back
  to the bytes it came from, except for three kinds of numerals in the 64-bit
  range that `_INT_RE` lets through: one followed by a newline (`$` also
  matches before a final newline), one with non-ASCII digits (`\d` is Unicode),
  and `-0`.
-/
namespace RedisToAerospike.L2
open L1 Decimal

/-- mirrors src/redis_to_aerospike/converters/base.py:25 -/
def INT_RE : Regex :=
  .seq (.opt (.lit '-'))
    (.alt (.lit '0') (.seq (.chars fun c => '1' ≤ c && c ≤ '9') (.star (.chars isDecimal))))

/-- mirrors src/redis_to_aerospike/converters/base.py:26 -/
def FLOAT_RE : Regex :=
  let digits := Regex.plus (.chars isDecimal)
  let tail := Regex.star (.chars isDecimal)
  .seq (.opt (.lit '-'))
    (.seq
      (.alt (.seq digits (.seq (.lit '.') tail)) (.alt (.seq (.lit '.') digits) digits))
      (.opt (.seq (.chars fun c => c == 'e' || c == 'E')
        (.seq (.opt (.chars fun c => c == '-' || c == '+')) digits))))

/-- mirrors src/redis_to_aerospike/converters/base.py:30-31 -/
def INT64_MIN : Int := -(2 ^ 63)

def INT64_MAX : Int := 2 ^ 63 - 1

/-- `int(text)`; its one failure on a match of `_INT_RE` is the limit on the
number of digits. -/
def pyInt (text : String) : Except Exn Int :=
  match parseInt text.toList with
  | some n => .ok n
  | none => .error (.valueError "Exceeds the limit (4300 digits) for integer string conversion")

section
variable {F : Type} [PyFloat F]

/-- The two patterns on a text.
mirrors src/redis_to_aerospike/converters/base.py:56-66 -/
def coerceText (text : String) : Except Exn (Value F) :=
  if INT_RE.dollar text.toList then
    match pyInt text with
    | .error exc => .error exc
    | .ok number =>
      if INT64_MIN ≤ number ∧ number ≤ INT64_MAX then .ok (.int number) else .ok (.str text)
  else if FLOAT_RE.dollar text.toList && text.toList.any (fun c => c ∈ ['.', 'e', 'E']) then
    let number : F := PyFloat.ofText text
    if PyFloat.isFinite number then .ok (.float number) else .ok (.str text)
  else .ok (.str text)

/-- mirrors src/redis_to_aerospike/converters/base.py:34-66 -/
def coerceScalar : Value F → Except Exn (Value F)
  | .bytes b =>
    match Utf8.decodeStrict b with
    | none => .ok (.bytes b)
    | some text => coerceText text
  | .str text => coerceText text
  | v => .ok v

end

/-- A value that is not a float, written back as bytes. -/
def render {F : Type} : Value F → Option ByteArray
  | .int n => some (toString n).toByteArray
  | .str s => some s.toByteArray
  | .bytes b => some b
  | _ => none

/-! ## The language of `_INT_RE` -/

/-- `0`, or decimal digits that start with one of `1`..`9`. -/
def IntBody (body : List Char) : Prop :=
  body = ['0'] ∨ ∃ c ds, body = c :: ds ∧ ('1' ≤ c ∧ c ≤ '9') ∧ ∀ d ∈ ds, isDecimal d = true

theorem matches_INT_RE {w : List Char} :
    INT_RE.Matches w ↔ ∃ sign body, w = sign ++ body ∧ (sign = [] ∨ sign = ['-']) ∧ IntBody body := by
  have hbody : ∀ v, Regex.Matches (.alt (.lit '0') (.seq (.chars fun c => '1' ≤ c && c ≤ '9')
      (.star (.chars isDecimal)))) v ↔ IntBody v := by
    intro v
    simp only [Regex.matches_alt, Regex.matches_lit, Regex.matches_seq, Regex.matches_chars,
      Regex.matches_star_chars, Bool.and_eq_true, decide_eq_true_eq, IntBody]
    refine or_congr Iff.rfl ⟨?_, ?_⟩
    · intro hx
      obtain ⟨_, ds, ⟨c, hc, rfl⟩, hds, rfl⟩ := hx
      exact ⟨c, ds, rfl, hc, hds⟩
    · intro hx
      obtain ⟨c, ds, rfl, hc, hds⟩ := hx
      exact ⟨[c], ds, ⟨c, hc, rfl⟩, hds, rfl⟩
  simp only [INT_RE, Regex.matches_seq, Regex.matches_opt, Regex.matches_lit, hbody]
  constructor
  · intro hx
    obtain ⟨s, b, hs, hb, rfl⟩ := hx
    exact ⟨s, b, rfl, hs.symm, hb⟩
  · intro hx
    obtain ⟨s, b, rfl, hs, hb⟩ := hx
    exact ⟨s, b, hs.symm, hb, rfl⟩

/-- `c` is `1`..`9` -/
theorem isAscii_of_range {c : Char} (h : '1' ≤ c ∧ c ≤ '9') :
    49 ≤ c.toNat ∧ c.toNat ≤ 57 := by
  obtain ⟨h1, h2⟩ := h
  rw [Char.le_def, UInt32.le_iff_toNat_le] at h1 h2
  exact ⟨h1, h2⟩

theorem isDecimal_of_ascii {c : Char} (h : 48 ≤ c.toNat ∧ c.toNat ≤ 57) : isDecimal c = true := by
  rw [isDecimal, decimalValue_ascii (by simp [isAscii]; omega), if_pos h]; rfl

theorem IntBody.decimals {body : List Char} (h : IntBody body) : ∀ c ∈ body, isDecimal c = true := by
  rcases h with rfl | ⟨c, ds, rfl, hc, hds⟩
  · intro c hc
    rw [List.mem_singleton.1 hc]; decide
  · have := isAscii_of_range hc
    exact List.forall_mem_cons.2 ⟨isDecimal_of_ascii (by omega), hds⟩

/-- The first character of a body is an ASCII digit, a zero only when it is
the whole body. -/
theorem IntBody.cons {body : List Char} (h : IntBody body) :
    ∃ c ds, body = c :: ds ∧ (48 ≤ c.toNat ∧ c.toNat ≤ 57) ∧ (c = '0' → ds = []) := by
  rcases h with rfl | ⟨c, ds, rfl, hc, -⟩
  · exact ⟨'0', [], rfl, by decide, fun _ => rfl⟩
  · have := isAscii_of_range hc
    refine ⟨c, ds, rfl, by omega, ?_⟩
    intro e
    subst e
    exact absurd this.1 (by decide)

/-- A match of the anchored pattern: sign, body, and a newline or nothing. -/
theorem dollar_INT_RE {text : List Char} :
    INT_RE.dollar text = true ↔ ∃ sign body tail, text = sign ++ body ++ tail ∧
      (sign = [] ∨ sign = ['-']) ∧ IntBody body ∧ (tail = [] ∨ tail = ['\n']) := by
  rw [Regex.dollar_iff]
  constructor
  · rintro (hu | ⟨u, rfl, hu⟩) <;> obtain ⟨sign, body, rfl, hs, hb⟩ := matches_INT_RE.1 hu
    · exact ⟨sign, body, [], by simp, hs, hb, .inl rfl⟩
    · exact ⟨sign, body, ['\n'], rfl, hs, hb, .inr rfl⟩
  · intro hx
    obtain ⟨sign, body, tail, rfl, hs, hb, ht⟩ := hx
    have hu := matches_INT_RE.2 ⟨sign, body, rfl, hs, hb⟩
    rcases ht with rfl | rfl
    · exact .inl (by rw [List.append_nil]; exact hu)
    · exact .inr ⟨_, rfl, hu⟩

/-! ## `int()` on these texts -/

theorem parseInt_numeral {sign body tail : List Char} (hs : sign = [] ∨ sign = ['-'])
    (hb : IntBody body) (ht : tail = [] ∨ tail = ['\n']) :
    parseInt (sign ++ body ++ tail) =
      (parseNat body).map fun n : Nat => if sign = [] then (n : Int) else -(n : Int) := by
  have hdec := hb.decimals
  obtain ⟨c, ds, rfl, hc, -⟩ := hb.cons
  have hstrip : strip (sign ++ (c :: ds) ++ tail) = sign ++ (c :: ds) := by
    refine strip_append (by simp) ?_ ?_ ?_
    · intro x hx
      rcases hs with rfl | rfl
      · cases hx; exact not_isSpace_of_isDecimal (hdec c List.mem_cons_self)
      · cases hx; decide
    · intro x hx
      rw [List.getLast?_append_of_ne_nil _ (by simp)] at hx
      exact not_isSpace_of_isDecimal (hdec x (List.mem_of_getLast? hx))
    · intro x hx
      rcases ht with rfl | rfl
      · cases hx
      · rw [List.mem_singleton.1 hx]; decide
  unfold parseInt
  rw [hstrip]
  rcases hs with rfl | rfl
  · have hm : c ≠ '-' := by rintro rfl; exact absurd hc (by decide)
    have hp : c ≠ '+' := by rintro rfl; exact absurd hc (by decide)
    rw [List.nil_append]
    split
    · rename_i e; cases e; exact absurd rfl hm
    · rename_i e; cases e; exact absurd rfl hp
    · simp
  · simp

/-- What `_INT_RE` and `int()` read as an integer although it is not the
integer's rendering. -/
def Misread (text : List Char) : Prop :=
  text.getLast? = some '\n' ∨ (∃ c ∈ text, isAscii c = false) ∨ text = ['-', '0']

theorem isAscii_of_isDigit {c : Char} (h : c.isDigit = true) : isAscii c = true := by
  simp only [Char.isDigit, Bool.and_eq_true, decide_eq_true_eq, UInt32.le_iff_toNat_le] at h
  have h2 : c.toNat ≤ 57 := h.2
  simp only [isAscii, decide_eq_true_eq]
  omega

/-- A rendering is never misread. -/
theorem not_misread_toString (n : Int) : ¬ Misread (toString n).toList := by
  have hchar : ∀ c ∈ (toString n).toList, isAscii c = true ∧ c ≠ '\n' := fun c hc => by
    rcases mem_toString_int hc with rfl | h
    · decide
    · exact ⟨isAscii_of_isDigit h, by rintro rfl; exact absurd h (by decide)⟩
  intro hx
  rcases hx with h | ⟨c, hc, h⟩ | h
  · exact (hchar _ (List.mem_of_getLast? h)).2 rfl
  · rw [(hchar c hc).1] at h; cases h
  · rcases int_cases n with ⟨m, rfl⟩ | ⟨m, hm, rfl⟩
    · rw [toString_natCast] at h
      exact minus_not_mem_toDigits m (h ▸ List.mem_cons_self)
    · rw [toString_neg hm, List.cons.injEq, ← Nat.toDigits_zero 10] at h
      have := toDigits_inj h.2
      omega

/-- An ASCII body without a leading zero is the rendering of its value. -/
theorem IntBody.rendering {body : List Char} {v : Nat} (hb : IntBody body)
    (ha : ∀ c ∈ body, isAscii c = true) (hv : parseNat body = some v) :
    Nat.toDigits 10 v = body := by
  have hdec := hb.decimals
  obtain ⟨c, ds, rfl, -, hz⟩ := hb.cons
  rw [parseNat_decimals hdec] at hv
  split at hv
  · cases hv
  · cases hv
    by_cases h0 : c = '0'
    · obtain rfl := hz h0
      subst h0; decide
    · exact toDigits_ascii hdec ha h0

theorem toString_parse_iff {text : List Char} {n : Int} (hm : INT_RE.dollar text = true)
    (hp : parseInt text = some n) : (toString n).toList = text ↔ ¬ Misread text := by
  refine ⟨fun h => h ▸ not_misread_toString n, fun h => ?_⟩
  obtain ⟨sign, body, tail, rfl, hs, hb, ht⟩ := dollar_INT_RE.1 hm
  rcases ht with rfl | rfl
  · rw [parseInt_numeral hs hb (.inl rfl)] at hp
    obtain ⟨v, hv, rfl⟩ := Option.map_eq_some_iff.1 hp
    rw [List.append_nil] at h ⊢
    have ha : ∀ c ∈ body, isAscii c = true := fun c hc => by
      cases hac : isAscii c with
      | true => rfl
      | false => exact absurd (.inr (.inl ⟨c, List.mem_append_right _ hc, hac⟩)) h
    have hr := hb.rendering ha hv
    rcases hs with rfl | rfl
    · rw [if_pos rfl, toString_natCast, hr]; rfl
    · have hpos : 0 < v := by
        rcases Nat.eq_zero_or_pos v with rfl | hpos
        · rw [Nat.toDigits_zero] at hr
          exact absurd (.inr (.inr (by rw [← hr]; rfl))) h
        · exact hpos
      rw [if_neg (by simp), toString_neg hpos, hr]; rfl
  · exact absurd (.inl (by simp)) h

/-- The decimal digits of a numeral are its body. -/
theorem filter_isDecimal_numeral {sign body tail : List Char} (hs : sign = [] ∨ sign = ['-'])
    (hb : IntBody body) (ht : tail = [] ∨ tail = ['\n']) :
    (sign ++ body ++ tail).filter isDecimal = body := by
  have hbody : body.filter isDecimal = body := List.filter_eq_self.2 hb.decimals
  have hsign : sign.filter isDecimal = [] := by rcases hs with rfl | rfl <;> decide
  have htail : tail.filter isDecimal = [] := by rcases ht with rfl | rfl <;> decide
  rw [List.filter_append, List.filter_append, hbody, hsign, htail, List.nil_append, List.append_nil]

/-- `int()` fails on a match of `_INT_RE` only for its number of digits. -/
theorem parseInt_eq_none_iff {text : List Char} (hm : INT_RE.dollar text = true) :
    parseInt text = none ↔ maxStrDigits < (text.filter isDecimal).length := by
  obtain ⟨sign, body, tail, rfl, hs, hb, ht⟩ := dollar_INT_RE.1 hm
  rw [filter_isDecimal_numeral hs hb ht, parseInt_numeral hs hb ht, Option.map_eq_none_iff]
  have hdec := hb.decimals
  obtain ⟨c, ds, rfl, -, -⟩ := hb.cons
  rw [parseNat_decimals hdec]
  split <;> simp_all

/-! ## Which bytes survive the coercion -/

section
variable {F : Type} [PyFloat F]

/-- The text is read as an integer of the 64-bit range. -/
def Promoted (text : String) : Prop :=
  INT_RE.dollar text.toList = true ∧
    ∃ n, parseInt text.toList = some n ∧ INT64_MIN ≤ n ∧ n ≤ INT64_MAX

/-- What `coerce_scalar` makes of a text. -/
theorem coerceText_cases {text : String} {v : Value F} (h : coerceText text = .ok v) :
    (∃ n, v = .int n ∧ INT_RE.dollar text.toList = true ∧ parseInt text.toList = some n ∧
      INT64_MIN ≤ n ∧ n ≤ INT64_MAX) ∨
    (∃ x, v = .float x) ∨ (v = .str text ∧ ¬ Promoted text) := by
  unfold coerceText at h
  split at h
  · rename_i hre
    cases hn : parseInt text.toList with
    | none => simp only [pyInt, hn] at h; cases h
    | some n =>
      simp only [pyInt, hn] at h
      split at h
      · rename_i hr
        cases h
        exact .inl ⟨n, rfl, hre, rfl, hr.1, hr.2⟩
      · rename_i hr
        cases h
        refine .inr (.inr ⟨rfl, ?_⟩)
        intro hx
        obtain ⟨-, k, hk, hkr⟩ := hx
        rw [hn] at hk; cases hk
        exact hr hkr
  · rename_i hre
    have hnot : ¬ Promoted text := fun hp => hre hp.1
    split at h
    · dsimp only at h
      split at h
      · cases h; exact .inr (.inl ⟨_, rfl⟩)
      · cases h; exact .inr (.inr ⟨rfl, hnot⟩)
    · cases h; exact .inr (.inr ⟨rfl, hnot⟩)

theorem coerceText_promoted {text : String} (h : Promoted text) :
    ∃ n, parseInt text.toList = some n ∧ coerceText text = .ok (.int n : Value F) := by
  obtain ⟨hre, n, hn, hr⟩ := h
  exact ⟨n, hn, by rw [coerceText, if_pos hre, pyInt, hn]; simp only [if_pos hr]⟩

/-- `b` is the encoding of an integer numeral of more than 4300 digits. -/
def Overlong (b : ByteArray) : Prop :=
  ∃ text, Utf8.decodeStrict b = some text ∧ INT_RE.dollar text.toList = true ∧
    maxStrDigits < (text.toList.filter isDecimal).length

theorem coerceText_ok_iff {text : String} :
    (∃ v : Value F, coerceText text = .ok v) ↔
      ¬ (INT_RE.dollar text.toList = true ∧ maxStrDigits < (text.toList.filter isDecimal).length) := by
  unfold coerceText
  by_cases hre : INT_RE.dollar text.toList = true
  · rw [if_pos hre, ← parseInt_eq_none_iff hre, pyInt]
    cases hn : parseInt text.toList with
    | none => simp [hre]
    | some n => simp only [reduceCtorEq, and_false, not_false_eq_true, iff_true]; split <;> simp
  · simp only [hre, if_false, false_and, not_false_eq_true, iff_true, Bool.false_eq_true]
    split
    · split <;> simp
    · simp

/-- `coerce_scalar` raises on overlong numerals only. -/
theorem coerceScalar_ok_iff {b : ByteArray} :
    (∃ v : Value F, coerceScalar (.bytes b) = .ok v) ↔ ¬ Overlong b := by
  unfold Overlong
  cases hd : Utf8.decodeStrict b with
  | none => simp [coerceScalar, hd]
  | some text => simp only [coerceScalar, hd, coerceText_ok_iff]; simp

/-- If `coerce_scalar(b)` returns a value that is not a float, the value
renders back to `b`. -/
def Lossless (F : Type) [PyFloat F] (b : ByteArray) : Prop :=
  ∀ v : Value F, coerceScalar (.bytes b) = .ok v → (∀ x, v ≠ .float x) → render v = some b

/-- `b` is the encoding of a numeral of the 64-bit range that is misread. -/
def MisreadBytes (b : ByteArray) : Prop :=
  ∃ text, Utf8.decodeStrict b = some text ∧ Promoted text ∧ Misread text.toList

theorem coerceScalar_lossless_iff (b : ByteArray) : Lossless F b ↔ ¬ MisreadBytes b := by
  unfold Lossless MisreadBytes
  constructor
  · intro h hx
    obtain ⟨text, hd, hp, hmis⟩ := hx
    obtain ⟨n, hn, hc⟩ := coerceText_promoted (F := F) hp
    have hr := h (.int n) (by rw [coerceScalar, hd]; exact hc) nofun
    rw [render, Option.some.injEq, ← Utf8.decodeStrict_eq_some_iff.1 hd, String.toByteArray_inj] at hr
    exact (toString_parse_iff hp.1 hn).1 (by rw [hr]) hmis
  · intro h v hv hfloat
    rw [coerceScalar] at hv
    split at hv
    · cases hv; rfl
    · rename_i text hd
      have hb := Utf8.decodeStrict_eq_some_iff.1 hd
      rcases coerceText_cases hv with ⟨n, rfl, hre, hn, hr⟩ | ⟨x, rfl⟩ | ⟨rfl, -⟩
      · have hnot : ¬ Misread text.toList := fun hm => h ⟨text, hd, ⟨hre, n, hn, hr⟩, hm⟩
        have ht := (toString_parse_iff hre hn).2 hnot
        rw [render, String.toList_inj.1 ht, hb]
      · exact absurd rfl (hfloat x)
      · rw [render, hb]

/-- Bytes that become one integer, text or blob are one, misread numerals
apart. -/
theorem coerceScalar_inj {b c : ByteArray} {v : Value F} (hb : ¬ MisreadBytes b)
    (hc : ¬ MisreadBytes c) (hvb : coerceScalar (.bytes b) = .ok v)
    (hvc : coerceScalar (.bytes c) = .ok v) (hfloat : ∀ x, v ≠ .float x) : b = c := by
  have h1 := (coerceScalar_lossless_iff b).2 hb v hvb hfloat
  have h2 := (coerceScalar_lossless_iff c).2 hc v hvc hfloat
  exact Option.some.inj (h1.symm.trans h2)

/-- **Scalar round trip.** Bytes survive the coercion outside the float case
exactly when they are no misread numeral, and no two of them become one value. -/
theorem coercion_round_trip :
    (∀ b : ByteArray, Lossless F b ↔ ¬ MisreadBytes b) ∧
    ∀ (b c : ByteArray) (v : Value F), ¬ MisreadBytes b → ¬ MisreadBytes c →
      coerceScalar (.bytes b) = .ok v → coerceScalar (.bytes c) = .ok v → (∀ x, v ≠ .float x) →
      b = c :=
  ⟨coerceScalar_lossless_iff, fun _ _ _ => coerceScalar_inj⟩

end

/-- `12` and `12` with a newline become one integer, and so do `0` and `-0`. -/
theorem numerals_collapse :
    coerceScalar (.bytes "12\n".toByteArray : Value String) = .ok (.int 12) ∧
    coerceScalar (.bytes "12".toByteArray : Value String) = .ok (.int 12) ∧
    coerceScalar (.bytes "-0".toByteArray : Value String) = .ok (.int 0) ∧
    coerceScalar (.bytes "0".toByteArray : Value String) = .ok (.int 0) ∧
    ¬ Lossless String "12\n".toByteArray ∧ ¬ Lossless String "-0".toByteArray := by
  refine ⟨rfl, rfl, rfl, rfl, fun h => ?_, fun h => ?_⟩
  · exact absurd (h (.int 12) rfl nofun) (by decide)
  · exact absurd (h (.int 0) rfl nofun) (by decide)

-- Digits of other scripts are read too; leading zeros are kept as text.
example : coerceScalar (.bytes "1٢".toByteArray : Value String) = .ok (.int 12) := by
  decide +kernel
example : coerceScalar (.bytes "007".toByteArray : Value String) = .ok (.str "007") := by
  decide +kernel

end RedisToAerospike.L2
