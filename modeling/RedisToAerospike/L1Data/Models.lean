import RedisToAerospike.Core.Dict
import Mathlib

/-!
# Records carried through the pipeline (`models.py`)

Python's `str` is `String`, `bytes` is `ByteArray`, `dict` is `Dict`; a
`float` is an element of a type `F` with the operations of `PyFloat`, about
which nothing is assumed here. Values are the Python values that may sit in an
Aerospike bin.

An `AerospikeRecord` carries the one invariant its bin policies have: a bin
tagged `UNIQUE_LIST` holds a list.
-/
namespace RedisToAerospike.L1

/-- What the code uses of Python's `float`: `float(text)`, `math.isfinite`,
`str(x)`, and the rounding of an exact quotient to the precision of a float,
whatever its size. -/
class PyFloat (F : Type) where
  ofText : String → F
  isFinite : F → Bool
  text : F → String
  round : Rat → Rat

/-- Floats named by their text, enough to run the model on. -/
instance : PyFloat String := ⟨id, fun _ => true, id, id⟩

/-- A key: `str` where it is UTF-8, `bytes` otherwise. -/
inductive Key where
  | str (s : String)
  | bytes (b : ByteArray)
  deriving DecidableEq

/-- A bin value. `ordered` marks the client's `KeyOrderedDict`. -/
inductive Value (F : Type) where
  | none
  | bool (b : Bool)
  | int (n : Int)
  | float (x : F)
  | str (s : String)
  | bytes (b : ByteArray)
  | list (xs : List (Value F))
  | dict (ordered : Bool) (es : List (Value F × Value F))

namespace Value

variable {F : Type} [DecidableEq F]

mutual

def beq : Value F → Value F → Bool
  | .none, .none => true
  | .bool a, .bool b => a == b
  | .int a, .int b => a == b
  | .float a, .float b => a == b
  | .str a, .str b => a == b
  | .bytes a, .bytes b => decide (a = b)
  | .list xs, .list ys => beqList xs ys
  | .dict k xs, .dict l ys => k == l && beqPairs xs ys
  | _, _ => false

def beqList : List (Value F) → List (Value F) → Bool
  | [], [] => true
  | x :: xs, y :: ys => beq x y && beqList xs ys
  | _, _ => false

def beqPairs : List (Value F × Value F) → List (Value F × Value F) → Bool
  | [], [] => true
  | (a, b) :: xs, (c, d) :: ys => beq a c && beq b d && beqPairs xs ys
  | _, _ => false

end

mutual

theorem beq_iff : ∀ a b : Value F, beq a b = true ↔ a = b
  | .none, b => by cases b <;> simp [beq]
  | .bool _, b => by cases b <;> simp [beq]
  | .int _, b => by cases b <;> simp [beq]
  | .float _, b => by cases b <;> simp [beq]
  | .str _, b => by cases b <;> simp [beq]
  | .bytes _, b => by cases b <;> simp [beq]
  | .list xs, b => by cases b <;> simp [beq, beqList_iff xs]
  | .dict k xs, b => by cases b <;> simp [beq, beqPairs_iff xs]

theorem beqList_iff : ∀ a b : List (Value F), beqList a b = true ↔ a = b
  | [], b => by cases b <;> simp [beqList]
  | x :: xs, b => by cases b <;> simp [beqList, beq_iff x, beqList_iff xs]

theorem beqPairs_iff : ∀ a b : List (Value F × Value F), beqPairs a b = true ↔ a = b
  | [], b => by cases b <;> simp [beqPairs]
  | (x, y) :: xs, b => by
    rcases b with _ | ⟨⟨c, d⟩, ys⟩ <;> simp [beqPairs, beq_iff x, beq_iff y, beqPairs_iff xs]

end

instance : DecidableEq (Value F) := fun a b => decidable_of_iff _ (beq_iff a b)

end Value

/-- An exception, as the code tells them apart: by class, and by the name
and text it reports. -/
inductive Exn where
  | unsupportedType (redisType : String)
  | ttlTooLong (msg : String)
  | valueError (msg : String)
  | assertionError
  | other (name : String) (msg : String)
  deriving DecidableEq

/-- `type(exc).__name__` -/
def Exn.name : Exn → String
  | .unsupportedType _ => "UnsupportedTypeError"
  | .ttlTooLong _ => "TtlTooLongError"
  | .valueError _ => "ValueError"
  | .assertionError => "AssertionError"
  | .other name _ => name

/-- A Python set of `α`: its members in iteration order. -/
structure PySet (α : Type) where
  elems : List α
  nodup : elems.Nodup
  deriving DecidableEq

/-- A value read from Redis, shaped by the command that read it: `none` is
the reply for a missing string, `exists` the placeholder reply read for an
unsupported type. -/
inductive RedisValue (F : Type) where
  | none
  | string (b : ByteArray)
  | hash (h : Dict ByteArray ByteArray)
  | list (xs : List ByteArray)
  | set (s : PySet ByteArray)
  | zset (xs : List (ByteArray × F))
  | exists (n : Int)
  deriving DecidableEq

/-- mirrors src/redis_to_aerospike/models.py:32-50 -/
structure RedisRecord (F : Type) where
  key : Key
  type : String
  value : RedisValue F
  ttlMs : Option Int := Option.none
  deriving DecidableEq

/-- mirrors src/redis_to_aerospike/models.py:15-17 -/
def TTL_NEVER_EXPIRE : Int := 0xFFFFFFFF

/-- mirrors src/redis_to_aerospike/models.py:20-29 -/
inductive BinWritePolicy where
  | put
  | uniqueList
  deriving DecidableEq

/-- mirrors src/redis_to_aerospike/models.py:53-68 -/
structure AerospikeRecord (F : Type) where
  key : Key
  bins : Dict String (Value F)
  ttlS : Option Int := Option.none
  binPolicies : Dict String BinWritePolicy := Dict.empty
  setName : Option String := Option.none
  unique_isList : ∀ n v, binPolicies.get? n = some .uniqueList → bins.get? n = some v →
    ∃ xs, v = .list xs

/-- `policy_for` -/
def AerospikeRecord.policyFor {F : Type} (r : AerospikeRecord F) (binName : String) :
    BinWritePolicy :=
  (r.binPolicies.get? binName).getD .put

end RedisToAerospike.L1
