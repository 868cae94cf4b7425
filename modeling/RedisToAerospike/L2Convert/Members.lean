import RedisToAerospike.Core.PrefixCode
import RedisToAerospike.L2Convert.Converters
import Mathlib.Data.Prod.Lex
import Mathlib.Data.String.Basic

/-!
# Members of sets and sorted sets

* `encodeMember_decodeMember`: a member is decoded without loss.
* `bytesRepr_inj`: distinct `bytes` have distinct `repr`s, so `_sort_key` is
  injective and `sorted` does not depend on the order of its input.
* `members_lossless`: what the two converters keep.
-/
namespace RedisToAerospike.L2
open L1

/-! ## Decoded members -/

/-- A decoded member written back. -/
def encodeMember : Key → ByteArray
  | .str s => s.toByteArray
  | .bytes b => b

theorem encodeMember_decodeMember (b : ByteArray) : encodeMember (decodeMember b) = b := by
  unfold decodeMember
  split
  · rename_i s hs; exact Utf8.decodeStrict_eq_some_iff.1 hs
  · rfl

theorem decodeMember_inj : Function.Injective decodeMember :=
  Function.LeftInverse.injective encodeMember_decodeMember

theorem render_keyValue {F : Type} (k : Key) : render (keyValue k : Value F) = some (encodeMember k) := by
  cases k <;> rfl

theorem keyValue_inj {F : Type} : Function.Injective (keyValue : Key → Value F) := by
  intro k l h
  cases k <;> cases l <;> simp_all [keyValue]

/-! ## `repr` of bytes -/

/-- The value of a hexadecimal digit. -/
def hexValue (c : Char) : Nat := if c.toNat < 0x3A then c.toNat - 0x30 else c.toNat - 0x57

/-- Read one byte of a `repr`. -/
def reprRead : List Char → Option (UInt8 × List Char)
  | '\\' :: 'x' :: hi :: lo :: rest => some (.ofNat (hexValue hi * 16 + hexValue lo), rest)
  | '\\' :: 't' :: rest => some (0x09, rest)
  | '\\' :: 'n' :: rest => some (0x0A, rest)
  | '\\' :: 'r' :: rest => some (0x0D, rest)
  | '\\' :: c :: rest => some (.ofNat c.toNat, rest)
  | c :: rest => some (.ofNat c.toNat, rest)
  | [] => none

theorem hexValue_digitChar : ∀ n < 16, hexValue (Nat.digitChar n) = n := by decide

theorem char_toNat_ofNat (n : Nat) (h : n < 256) : (Char.ofNat n).toNat = n := by
  rw [Char.ofNat, dif_pos (Or.inl (by omega))]
  rfl

theorem byte_ofNat_toNat (b : UInt8) : UInt8.ofNat (Char.ofNat b.toNat).toNat = b := by
  rw [char_toNat_ofNat _ b.toNat_lt, UInt8.ofNat_toNat]

theorem reprRead_plain {c : Char} (h : c ≠ '\\') (rest : List Char) :
    reprRead (c :: rest) = some (.ofNat c.toNat, rest) := by
  simp [reprRead, h]

/-- A byte inside a `repr` can be read back, whichever quote surrounds it. -/
theorem reprByte_reads {quote : Char} (hq : quote = '\'' ∨ quote = '"') :
    PrefixCode.Reads (reprByte quote) reprRead := by
  intro b rest
  unfold reprByte
  split
  · -- a backslash or the quote, behind a backslash
    rename_i h
    have hb : b = 0x5C ∨ b = 0x27 ∨ b = 0x22 := by
      rcases h with h | h
      · exact .inl h
      · rcases hq with rfl | rfl
        · exact .inr (.inl (UInt8.toNat_inj.1 h))
        · exact .inr (.inr (UInt8.toNat_inj.1 h))
    rcases hb with rfl | rfl | rfl <;> rfl
  · rename_i hbackslash
    split
    · rename_i h; rw [h]; rfl
    · split
      · rename_i h; rw [h]; rfl
      · split
        · rename_i h; rw [h]; rfl
        · split
          · -- two hexadecimal digits
            have hlt := b.toNat_lt
            simp only [hexDigits, List.cons_append, List.nil_append, reprRead]
            rw [hexValue_digitChar _ (by omega), hexValue_digitChar _ (by omega),
              Nat.div_add_mod' b.toNat 16, UInt8.ofNat_toNat]
          · -- printable ASCII, as it is
            have hne : Char.ofNat b.toNat ≠ '\\' := by
              intro hc
              have := congrArg Char.toNat hc
              rw [char_toNat_ofNat _ b.toNat_lt] at this
              exact hbackslash (.inl (UInt8.toNat_inj.1 this))
            rw [List.singleton_append, reprRead_plain hne, byte_ofNat_toNat]

theorem reprByte_ne_nil (quote : Char) (b : UInt8) : reprByte quote b ≠ [] := by
  unfold reprByte
  repeat' split
  all_goals simp

/-- The quote that surrounds a `repr`. -/
def reprQuote (b : ByteArray) : Char :=
  if 0x27 ∈ b.data.toList ∧ 0x22 ∉ b.data.toList then '"' else '\''

theorem bytesRepr_toList (b : ByteArray) : (bytesRepr b).toList =
    'b' :: reprQuote b :: (b.data.toList.flatMap (reprByte (reprQuote b)) ++ [reprQuote b]) := by
  unfold bytesRepr
  rw [String.toList_ofList]
  rfl

/-- Distinct bytes have distinct `repr`s. -/
theorem bytesRepr_inj : Function.Injective bytesRepr := by
  intro a b h
  have hl := congrArg String.toList h
  rw [bytesRepr_toList, bytesRepr_toList, List.cons_inj_right, List.cons.injEq] at hl
  obtain ⟨hquote, hbody⟩ := hl
  rw [hquote] at hbody
  have hq : reprQuote b = '\'' ∨ reprQuote b = '"' := by
    unfold reprQuote
    split
    · exact .inr rfl
    · exact .inl rfl
  have hdata := (reprByte_reads hq).flatMap_inj (reprByte_ne_nil _) (List.append_cancel_right hbody)
  exact ByteArray.ext (Array.toList_inj.1 hdata)

/-! ## The order of a set's members -/

theorem sortKey_inj : Function.Injective sortKey := by
  intro k l h
  cases k with
  | str s =>
    cases l with
    | str t => exact congrArg Key.str (Prod.mk.inj h).2
    | bytes b => exact absurd (Prod.mk.inj h).1 (by decide)
  | bytes a =>
    cases l with
    | str t => exact absurd (Prod.mk.inj h).1 (by decide)
    | bytes b => exact congrArg Key.bytes (bytesRepr_inj (Prod.mk.inj h).2)

theorem pairLE_iff (p q : String × String) : pairLE p q = true ↔ toLex p ≤ toLex q := by
  rw [Prod.Lex.toLex_le_toLex, pairLE, Bool.or_eq_true, Bool.and_eq_true, decide_eq_true_eq,
    beq_iff_eq, Bool.not_eq_true', decide_eq_false_iff_not, not_lt]

/-- The order of `sorted(members, key=_sort_key)`. -/
def MemberLE (k l : Key) : Prop := pairLE (sortKey k) (sortKey l) = true

instance : DecidableRel MemberLE := fun _ _ => inferInstanceAs (Decidable (pairLE _ _ = true))

theorem memberLE_iff {k l : Key} : MemberLE k l ↔ toLex (sortKey k) ≤ toLex (sortKey l) :=
  pairLE_iff _ _

instance : Std.Total MemberLE where
  total k l := by rw [memberLE_iff, memberLE_iff]; exact le_total _ _

instance : IsTrans Key MemberLE where
  trans k l m hkl hlm := by
    rw [memberLE_iff] at hkl hlm ⊢
    exact hkl.trans hlm

instance : Std.Antisymm MemberLE where
  antisymm k l hkl hlk := by
    rw [memberLE_iff] at hkl hlk
    exact sortKey_inj (toLex.injective (le_antisymm hkl hlk))

/-- The members of a set, sorted. -/
def sortedMembers (s : PySet ByteArray) : List Key :=
  (s.elems.map decodeMember).dedup.insertionSort fun a b => pairLE (sortKey a) (sortKey b) = true

theorem perm_sortedMembers (s : PySet ByteArray) :
    (sortedMembers s).Perm (s.elems.map decodeMember) := by
  unfold sortedMembers
  rw [(s.nodup.map decodeMember_inj).dedup]
  exact List.perm_insertionSort MemberLE _

theorem pairwise_sortedMembers (s : PySet ByteArray) : (sortedMembers s).Pairwise MemberLE :=
  List.pairwise_insertionSort MemberLE _

/-- The order in which a set is iterated does not matter. -/
theorem sortedMembers_congr {s t : PySet ByteArray} (h : s.elems.Perm t.elems) :
    sortedMembers s = sortedMembers t := by
  have hperm : (sortedMembers s).Perm (sortedMembers t) :=
    (perm_sortedMembers s).trans ((h.map _).trans (perm_sortedMembers t).symm)
  exact hperm.eq_of_pairwise' (pairwise_sortedMembers s) (pairwise_sortedMembers t)

/-! ## Sets -/

section
variable {F : Type} [PyFloat F]

/-- A converted set is its sorted members in one bin; only its TTL can be
rejected. -/
theorem set_convert_eq {record : RedisRecord F} {s : PySet ByteArray} (hv : record.value = .set s)
    (valueBin : String) (ttlPolicy : TtlPolicy) :
    SetConverter.convert valueBin ttlPolicy record =
      build ttlPolicy record (singleBin valueBin (.list ((sortedMembers s).map keyValue)))
        (Dict.ofPairs [(valueBin, .uniqueList)]) (uniqueAreLists_single _ _ _) := by
  unfold SetConverter.convert
  rw [hv]
  rfl

/-- With the TTL resolved, `_build` returns the record. -/
theorem build_ok {ttlPolicy : TtlPolicy} {record : RedisRecord F} {ttl : Int}
    (ht : ttlPolicy.toTtl F record.ttlMs = .ok ttl) {bins : Dict String (Value F)}
    {policies : Dict String BinWritePolicy} (h : UniqueAreLists bins policies) :
    ∃ r, build ttlPolicy record bins policies h = .ok r ∧ r.bins = bins := by
  unfold build
  rw [ht]
  exact ⟨_, rfl, rfl⟩

omit [PyFloat F] in
/-- What the converter makes of a set: its decoded members without repeats,
which encode back to exactly the set. -/
theorem sortedMembers_lossless (s : PySet ByteArray) :
    ((sortedMembers s).map (keyValue (F := F))).Nodup ∧
      ((sortedMembers s).map (keyValue (F := F))).Perm
        (s.elems.map fun b => keyValue (decodeMember b)) ∧
      (((sortedMembers s).map (keyValue (F := F))).map render).Perm (s.elems.map some) := by
  have hperm : ((sortedMembers s).map (keyValue (F := F))).Perm
      (s.elems.map fun b => keyValue (decodeMember b)) := by
    have h := (perm_sortedMembers s).map (keyValue (F := F))
    rw [List.map_map] at h
    exact h
  have hinj : Function.Injective fun b : ByteArray => (keyValue (decodeMember b) : Value F) :=
    keyValue_inj.comp decodeMember_inj
  have hback : (s.elems.map fun b => (keyValue (decodeMember b) : Value F)).map render =
      s.elems.map some := by
    rw [List.map_map]
    refine List.map_congr_left fun b _ => ?_
    rw [Function.comp_apply, render_keyValue, encodeMember_decodeMember]
  exact ⟨hperm.nodup_iff.2 (s.nodup.map hinj), hperm, (hperm.map render).trans (.of_eq hback)⟩

/-! ## Sorted sets -/

/-- The map a sorted set becomes, an entry for each member. -/
def scoreEntries (xs : List (ByteArray × F)) : List (Value F × Value F) :=
  xs.map fun p => (keyValue (decodeMember p.1), encodeScore p.2)

theorem zset_convert_eq {record : RedisRecord F} {xs : List (ByteArray × F)}
    (hv : record.value = .zset xs) (hn : (xs.map Prod.fst).Nodup) (valueBin : String)
    (ttlPolicy : TtlPolicy) :
    ZSetConverter.convert valueBin ttlPolicy record =
      build ttlPolicy record (singleBin valueBin (.dict false (scoreEntries xs))) Dict.empty
        (uniqueAreLists_empty _) := by
  have hkeys : ((xs.map fun p => (decodeMember p.1, encodeScore (F := F) p.2)).map Prod.fst).Nodup := by
    rw [List.map_map]
    have h := hn.map decodeMember_inj
    rwa [List.map_map] at h
  have hentries := Dict.entries_ofPairs hkeys
  unfold ZSetConverter.convert
  rw [hv]
  simp only [zsetValue, bind, Except.bind, hentries, List.map_map]
  rfl

/-- `str(x)` of the floats that are not finite. -/
structure NonFinite (F : Type) [PyFloat F] (inf negInf nan : F) : Prop where
  cases : ∀ x : F, PyFloat.isFinite x = false → x = inf ∨ x = negInf ∨ x = nan
  text_inf : PyFloat.text inf = "inf"
  text_negInf : PyFloat.text negInf = "-inf"
  text_nan : PyFloat.text nan = "nan"

/-- Distinct scores are encoded as distinct values. -/
theorem encodeScore_inj {inf negInf nan : F} (h : NonFinite F inf negInf nan) :
    Function.Injective (encodeScore : F → Value F) := by
  intro x y hxy
  unfold encodeScore at hxy
  cases hx : PyFloat.isFinite x with
  | true =>
    cases hy : PyFloat.isFinite y with
    | true => simpa [hx, hy] using hxy
    | false => simp [hx, hy] at hxy
  | false =>
    cases hy : PyFloat.isFinite y with
    | true => simp [hx, hy] at hxy
    | false =>
      have ht : PyFloat.text x = PyFloat.text y := by simpa [hx, hy] using hxy
      rcases h.cases x hx with rfl | rfl | rfl <;> rcases h.cases y hy with rfl | rfl | rfl <;>
        first
        | rfl
        | (simp only [h.text_inf, h.text_negInf, h.text_nan] at ht; exact absurd ht (by decide))

/-- **Members.** A set becomes a list of its decoded members without repeats,
which encodes back to exactly the set and is the same for every order in
which the set is iterated; a sorted set becomes a map with an entry for each
member in order, whose key encodes back to the member and whose value tells
the score. -/
theorem members_lossless {inf negInf nan : F} (hf : NonFinite F inf negInf nan)
    (valueBin : String) (ttlPolicy : TtlPolicy) :
    (∀ s : PySet ByteArray, ∃ ms : List (Value F), ms.Nodup ∧
      ms.Perm (s.elems.map fun b => keyValue (decodeMember b)) ∧
      (ms.map render).Perm (s.elems.map some) ∧
      ∀ (t : PySet ByteArray) (record : RedisRecord F) (ttl : Int), t.elems.Perm s.elems →
        record.value = .set t → ttlPolicy.toTtl F record.ttlMs = .ok ttl →
        ∃ r, SetConverter.convert valueBin ttlPolicy record = .ok r ∧
          r.bins = singleBin valueBin (.list ms)) ∧
    (∀ (xs : List (ByteArray × F)) (record : RedisRecord F) (ttl : Int),
      (xs.map Prod.fst).Nodup → record.value = .zset xs →
      ttlPolicy.toTtl F record.ttlMs = .ok ttl →
      ∃ r es, ZSetConverter.convert valueBin ttlPolicy record = .ok r ∧
        r.bins = singleBin valueBin (.dict false es) ∧
        List.Forall₂ (fun p e => render e.1 = some p.1 ∧
          (PyFloat.isFinite p.2 = true → e.2 = .float p.2) ∧
          (PyFloat.isFinite p.2 = false → e.2 = .str (PyFloat.text p.2))) xs es) ∧
    Function.Injective (encodeScore : F → Value F) := by
  refine ⟨fun s => ?_, fun xs record ttl hn hv ht => ?_, encodeScore_inj hf⟩
  · obtain ⟨hnodup, hperm, hback⟩ := sortedMembers_lossless (F := F) s
    refine ⟨_, hnodup, hperm, hback, fun t record ttl hts hv ht => ?_⟩
    rw [set_convert_eq hv, sortedMembers_congr hts]
    exact build_ok ht _
  · obtain ⟨r, hr, hbins⟩ := build_ok ht
      (uniqueAreLists_empty (singleBin valueBin (.dict false (scoreEntries xs))))
    rw [← zset_convert_eq hv hn] at hr
    refine ⟨r, _, hr, hbins, ?_⟩
    rw [scoreEntries, List.forall₂_map_right_iff, List.forall₂_same]
    intro p _
    refine ⟨by rw [render_keyValue, encodeMember_decodeMember], fun h => ?_, fun h => ?_⟩
    · rw [encodeScore, if_pos h]
    · rw [encodeScore, h]; rfl

end

/-- Integers and the floats that are not finite. -/
inductive Score where
  | num (n : Int)
  | inf
  | negInf
  | nan
  deriving DecidableEq

instance : PyFloat Score where
  ofText text := match Decimal.parseInt text.toList with
    | some n => .num n
    | none => .nan
  isFinite
    | .num _ => true
    | _ => false
  text
    | .num n => toString n ++ ".0"
    | .inf => "inf"
    | .negInf => "-inf"
    | .nan => "nan"
  round := id

theorem nonFinite_score : NonFinite Score .inf .negInf .nan where
  cases x h := by cases x <;> simp_all [PyFloat.isFinite]
  text_inf := rfl
  text_negInf := rfl
  text_nan := rfl

/-- A text, and bytes that are not UTF-8. -/
def mixedSet : PySet ByteArray := ⟨["b".toByteArray, ⟨#[0xFF, 0x27]⟩], by decide⟩

theorem members_lossless_mixed :
    ∃ r : AerospikeRecord Score, SetConverter.convert "value" {} ⟨.str "k", "set", .set mixedSet, none⟩ =
        .ok r ∧
      ∃ ms, r.bins = singleBin "value" (.list ms) ∧ (ms.map render).Perm (mixedSet.elems.map some) := by
  obtain ⟨hset, -, -⟩ := members_lossless nonFinite_score "value" {}
  obtain ⟨ms, -, -, hback, hconvert⟩ := hset mixedSet
  obtain ⟨r, hr, hbins⟩ := hconvert mixedSet ⟨.str "k", "set", .set mixedSet, none⟩ _ (.refl _) rfl rfl
  exact ⟨r, hr, ms, hbins, hback⟩

end RedisToAerospike.L2
