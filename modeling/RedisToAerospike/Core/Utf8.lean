import Mathlib.Init

/-!
# UTF-8 texts and bytes

A text is a `String` (a list of Unicode scalar values), bytes are a
`ByteArray`, and encoding is `String.toByteArray`.

* `decodeStrict` fails on the first ill-formed sequence; it is the partial
  inverse of encoding (`decodeStrict_eq_some_iff`), hence injective where it
  succeeds (`decodeStrict_inj`).
* `decodeReplace` puts U+FFFD for each maximal ill-formed subpart and goes
  on. It agrees with `decodeStrict` on well-formed bytes
  (`decodeReplace_of_strict`); beyond them it is not injective.
-/
namespace Utf8

def decodeStrict (b : ByteArray) : Option String := String.fromUTF8? b

theorem decodeStrict_eq_some_iff {b : ByteArray} {s : String} :
    decodeStrict b = some s ↔ s.toByteArray = b := by
  unfold decodeStrict String.fromUTF8?
  constructor
  · intro h
    split at h
    · cases h; rfl
    · cases h
  · intro e
    subst e
    rw [dif_pos s.isValidUTF8]; rfl

theorem decodeStrict_inj {a b : ByteArray} {s : String} (ha : decodeStrict a = some s)
    (hb : decodeStrict b = some s) : a = b :=
  (decodeStrict_eq_some_iff.1 ha).symm.trans (decodeStrict_eq_some_iff.1 hb)

/-! ## Decoding with replacement -/

def isCont (b : UInt8) : Bool := 0x80 ≤ b && b ≤ 0xBF

/-- Whether `b1` may follow the lead byte `b0` of a three- or four-byte
sequence: no overlong form, no surrogate, nothing above U+10FFFF. -/
def secondOk (b0 b1 : UInt8) : Bool :=
  isCont b1 &&
    (if b0 = 0xE0 then 0xA0 ≤ b1 else if b0 = 0xED then b1 ≤ 0x9F
     else if b0 = 0xF0 then 0x90 ≤ b1 else if b0 = 0xF4 then b1 ≤ 0x8F else true)

/-- The number of bytes that one U+FFFD replaces at the start of ill-formed
bytes: a lead byte with the continuation bytes that could still follow it. -/
def subpart : List UInt8 → Nat
  | b0 :: b1 :: rest =>
    if 0xE0 ≤ b0 ∧ b0 ≤ 0xF4 ∧ secondOk b0 b1 then
      match rest with
      | b2 :: _ => if 0xF0 ≤ b0 ∧ isCont b2 then 3 else 2
      | [] => 2
    else 1
  | _ => 1

/-- The decoding loop, with the number of bytes as fuel: every round
consumes at least one. -/
def decodeGo : Nat → ByteArray → List Char
  | 0, _ => []
  | n + 1, b =>
    if b.size = 0 then []
    else match b.utf8DecodeChar? 0 with
      | some c => c :: decodeGo n (b.extract c.utf8Size b.size)
      | none => '\uFFFD' :: decodeGo n (b.extract (subpart b.data.toList) b.size)

def decodeReplace (b : ByteArray) : String := String.ofList (decodeGo b.size b)

theorem size_utf8Encode_cons (c : Char) (l : List Char) :
    (c :: l).utf8Encode.size = c.utf8Size + l.utf8Encode.size := by
  rw [List.utf8Encode_cons, List.utf8Encode_singleton, ByteArray.size_append,
    List.size_toByteArray, String.length_utf8EncodeChar]

theorem extract_utf8Encode_cons (c : Char) (l : List Char) :
    (c :: l).utf8Encode.extract c.utf8Size (c :: l).utf8Encode.size = l.utf8Encode := by
  have hc : [c].utf8Encode.size = c.utf8Size := by
    rw [List.utf8Encode_singleton, List.size_toByteArray, String.length_utf8EncodeChar]
  rw [size_utf8Encode_cons, List.utf8Encode_cons, ← hc]
  exact ByteArray.extract_append_eq_right rfl rfl

/-- On the encoding of `l`, any fuel from the number of bytes on gives `l`. -/
theorem decodeGo_utf8Encode (l : List Char) :
    ∀ n, l.utf8Encode.size ≤ n → decodeGo n l.utf8Encode = l := by
  induction l with
  | nil => intro n _; cases n <;> simp [decodeGo]
  | cons c l ih =>
    intro n hn
    have hpos := c.utf8Size_pos
    rw [size_utf8Encode_cons] at hn
    cases n with
    | zero => omega
    | succ n =>
      have hne : (c :: l).utf8Encode.size ≠ 0 := by rw [size_utf8Encode_cons]; omega
      rw [decodeGo, if_neg hne, List.utf8DecodeChar?_utf8Encode_cons]
      simp only [extract_utf8Encode_cons]
      rw [ih n (by omega)]

theorem decodeReplace_toByteArray (s : String) : decodeReplace s.toByteArray = s := by
  obtain ⟨l, rfl⟩ : ∃ l, s = String.ofList l := ⟨s.toList, String.ofList_toList.symm⟩
  rw [decodeReplace, String.toByteArray_ofList, decodeGo_utf8Encode l _ (Nat.le_refl _)]

theorem decodeReplace_of_strict {b : ByteArray} {s : String} (h : decodeStrict b = some s) :
    decodeReplace b = s := by
  rw [← decodeStrict_eq_some_iff.1 h]; exact decodeReplace_toByteArray s

-- The W3C examples of maximal subparts: a truncated sequence is one mark,
-- bytes that can start nothing are one mark each.
example : decodeReplace ⟨#[0x61, 0xF1, 0x80, 0x80, 0xE1, 0x80, 0xC2, 0x62, 0x80, 0x63]⟩ =
    "a\uFFFD\uFFFD\uFFFDb\uFFFDc" := by decide +kernel

end Utf8
