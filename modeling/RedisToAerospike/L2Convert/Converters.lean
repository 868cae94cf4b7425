import RedisToAerospike.Core.Fallible
import RedisToAerospike.L2Convert.Coerce
import RedisToAerospike.L2Convert.TtlPolicy
import Mathlib.Data.List.Dedup
import Mathlib.Data.List.Sort

/-!
# Type converters (`converters/*.py`)

One Redis record becomes one Aerospike record. Every converter computes the
bins first and the TTL last (`build`), so an error in a value comes before a
rejected TTL. A value that has not the shape of the record's type, which the
source never pairs, is an error.
-/
namespace RedisToAerospike.L2
open L1

/-- A set or sorted-set member: text where it is UTF-8, never a number.
mirrors src/redis_to_aerospike/converters/base.py:75-88 -/
def decodeMember (b : ByteArray) : Key :=
  match Utf8.decodeStrict b with
  | some s => .str s
  | none => .bytes b

/-- A key or member as a bin value. -/
def keyValue {F : Type} : Key → Value F
  | .str s => .str s
  | .bytes b => .bytes b

section
variable {F : Type} [PyFloat F]

/-- A bins/policies pair in which a unique-list bin holds a list. -/
def UniqueAreLists (bins : Dict String (Value F)) (policies : Dict String BinWritePolicy) : Prop :=
  ∀ n v, policies.get? n = some .uniqueList → bins.get? n = some v → ∃ xs, v = .list xs

omit [PyFloat F] in
theorem uniqueAreLists_empty (bins : Dict String (Value F)) : UniqueAreLists bins Dict.empty :=
  nofun

/-- `{name: value}` -/
def singleBin (name : String) (value : Value F) : Dict String (Value F) :=
  Dict.ofPairs [(name, value)]

omit [PyFloat F] in
@[simp] theorem entries_singleBin (name : String) (value : Value F) :
    (singleBin name value).entries = [(name, value)] := rfl

omit [PyFloat F] in
theorem uniqueAreLists_single (name : String) (xs : List (Value F))
    (policies : Dict String BinWritePolicy) : UniqueAreLists (singleBin name (.list xs)) policies := by
  intro n v _ hv
  rw [singleBin, Dict.get?_ofPairs] at hv
  simp only [List.reverse_cons, List.reverse_nil, List.nil_append, Dict.lookup] at hv
  split at hv
  · cases hv; exact ⟨xs, rfl⟩
  · cases hv

/-- mirrors src/redis_to_aerospike/converters/base.py:188-199 -/
def build (ttlPolicy : TtlPolicy) (record : RedisRecord F) (bins : Dict String (Value F))
    (binPolicies : Dict String BinWritePolicy) (h : UniqueAreLists bins binPolicies) :
    Except Exn (AerospikeRecord F) := do
  let ttlS ← ttlPolicy.toTtl F record.ttlMs
  return { key := record.key, bins := bins, ttlS := some ttlS, binPolicies := binPolicies,
           unique_isList := h }

/-- `to_ttl` returns. -/
def TtlAccepted (ttlPolicy : TtlPolicy) (record : RedisRecord F) : Prop :=
  ∃ ttl, ttlPolicy.toTtl F record.ttlMs = .ok ttl

theorem build_returns_iff {ttlPolicy : TtlPolicy} {record : RedisRecord F}
    {bins : Dict String (Value F)} {policies : Dict String BinWritePolicy}
    {h : UniqueAreLists bins policies} :
    (∃ r, build ttlPolicy record bins policies h = .ok r) ↔ TtlAccepted ttlPolicy record := by
  unfold build
  rw [Fallible.bind_returns_iff]
  exact exists_congr fun ttl => and_iff_left ⟨_, rfl⟩

theorem build_bins {ttlPolicy : TtlPolicy} {record : RedisRecord F}
    {bins : Dict String (Value F)} {policies : Dict String BinWritePolicy}
    {h : UniqueAreLists bins policies} {r : AerospikeRecord F}
    (hr : build ttlPolicy record bins policies h = .ok r) : r.bins = bins := by
  unfold build at hr
  obtain ⟨ttl, -, hr⟩ := Fallible.bind_ok_iff.1 hr
  cases hr
  rfl

/-- A conversion that computes the bins and then builds. -/
theorem bind_build_iff {α : Type} {x : Except Exn α} {k : α → Except Exn (AerospikeRecord F)}
    {ttlPolicy : TtlPolicy} {record : RedisRecord F}
    (hk : ∀ a, (∃ r, k a = .ok r) ↔ TtlAccepted ttlPolicy record) :
    (∃ r, (x >>= k) = .ok r) ↔ (∃ a, x = .ok a) ∧ TtlAccepted ttlPolicy record := by
  rw [Fallible.bind_returns_iff]
  simp only [hk, exists_and_right]

/-- A value that does not have the shape of its type. -/
def misshapen {α : Type} : Except Exn α :=
  .error (.other "TypeError" "value does not have the shape of its type")

/-! ## The value of a record, by type

`record.value or []`: a missing collection reads as empty. -/

def stringValue : RedisValue F → Except Exn (Value F)
  | .string b => .ok (.bytes b)
  | .none => .ok .none
  | _ => misshapen

def listValue : RedisValue F → Except Exn (List ByteArray)
  | .list xs => .ok xs
  | .none => .ok []
  | _ => misshapen

def setValue : RedisValue F → Except Exn (List ByteArray)
  | .set s => .ok s.elems
  | .none => .ok []
  | _ => misshapen

def zsetValue : RedisValue F → Except Exn (List (ByteArray × F))
  | .zset xs => .ok xs
  | .none => .ok []
  | _ => misshapen

def hashValue : RedisValue F → Except Exn (Dict ByteArray ByteArray)
  | .hash h => .ok h
  | .none => .ok Dict.empty
  | _ => misshapen

/-! ## Strings and lists -/

/-- mirrors src/redis_to_aerospike/converters/string_converter.py:9-13 -/
def StringConverter.convert (valueBin : String) (ttlPolicy : TtlPolicy) (record : RedisRecord F) :
    Except Exn (AerospikeRecord F) := do
  let raw ← stringValue record.value
  let value ← coerceScalar raw
  build ttlPolicy record (singleBin valueBin value) Dict.empty (uniqueAreLists_empty _)

/-- mirrors src/redis_to_aerospike/converters/list_converter.py:9-14 -/
def ListConverter.convert (valueBin : String) (ttlPolicy : TtlPolicy) (record : RedisRecord F) :
    Except Exn (AerospikeRecord F) := do
  let raw ← listValue record.value
  let items ← raw.mapM fun item => coerceScalar (.bytes item)
  build ttlPolicy record (singleBin valueBin (.list items)) Dict.empty (uniqueAreLists_empty _)

/-! ## Sets -/

def hexDigits (b : UInt8) : List Char :=
  [Nat.digitChar (b.toNat / 16), Nat.digitChar (b.toNat % 16)]

/-- One byte inside `repr(b)`. -/
def reprByte (quote : Char) (b : UInt8) : List Char :=
  if b = 0x5C ∨ b.toNat = quote.toNat then ['\\', Char.ofNat b.toNat]
  else if b = 0x09 then ['\\', 't']
  else if b = 0x0A then ['\\', 'n']
  else if b = 0x0D then ['\\', 'r']
  else if b < 0x20 ∨ 0x7F ≤ b then '\\' :: 'x' :: hexDigits b
  else [Char.ofNat b.toNat]

/-- `str(b)` of a `bytes` value. -/
def bytesRepr (b : ByteArray) : String :=
  let bs := b.data.toList
  let quote := if 0x27 ∈ bs ∧ 0x22 ∉ bs then '"' else '\''
  String.ofList ('b' :: quote :: bs.flatMap (reprByte quote) ++ [quote])

/-- mirrors src/redis_to_aerospike/converters/set_converter.py:19-22 -/
def sortKey : Key → String × String
  | .str s => ("str", s)
  | .bytes b => ("bytes", bytesRepr b)

/-- Python's order on pairs of texts: lexicographic, by code point. -/
def pairLE (a b : String × String) : Bool :=
  decide (a.1 < b.1) || (a.1 == b.1 && !decide (b.2 < a.2))

/-- mirrors src/redis_to_aerospike/converters/set_converter.py:25-35 -/
def SetConverter.convert (valueBin : String) (ttlPolicy : TtlPolicy) (record : RedisRecord F) :
    Except Exn (AerospikeRecord F) := do
  let raw ← setValue record.value
  let members := (raw.map decodeMember).dedup
  let ordered := members.insertionSort fun a b => pairLE (sortKey a) (sortKey b) = true
  build ttlPolicy record (singleBin valueBin (.list (ordered.map keyValue)))
    (Dict.ofPairs [(valueBin, .uniqueList)]) (uniqueAreLists_single _ _ _)

/-! ## Sorted sets -/

/-- mirrors src/redis_to_aerospike/converters/zset_converter.py:23-25 -/
def encodeScore (score : F) : Value F :=
  if PyFloat.isFinite score then .float score else .str (PyFloat.text score)

/-- mirrors src/redis_to_aerospike/converters/zset_converter.py:28-35 -/
def ZSetConverter.convert (valueBin : String) (ttlPolicy : TtlPolicy) (record : RedisRecord F) :
    Except Exn (AerospikeRecord F) := do
  let raw ← zsetValue record.value
  let scores : Dict Key (Value F) :=
    Dict.ofPairs (raw.map fun p => (decodeMember p.1, encodeScore p.2))
  build ttlPolicy record
    (singleBin valueBin (.dict false (scores.entries.map fun p => (keyValue p.1, p.2))))
    Dict.empty (uniqueAreLists_empty _)

end

end RedisToAerospike.L2
