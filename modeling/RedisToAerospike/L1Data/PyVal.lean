import RedisToAerospike.Core.Decimal
import RedisToAerospike.L1Data.Config
import RedisToAerospike.L1Data.Models

/-!
# Python values of the configuration

What a YAML document, a flag or an environment variable may hold, with the
conversions the configuration makes of it. Timestamps, binaries and sets of
YAML are not modelled.

* `PyVal.Same`: equality as Python's `==` has it between `int` and `float`.
-/
namespace RedisToAerospike.L1

/-- What the configuration uses of Python's `float`: `float(text)`, `int(x)`
(both may raise), `float(n)` and `x == n`. -/
class PyNumber (F : Type) extends PyFloat F where
  parse : String → Option F
  trunc : F → Option Int
  ofInt : Int → F
  eqInt : F → Int → Bool
  eqInt_ofInt_zero : eqInt (ofInt 0) 0 = true

/-- Floats named by their text. -/
instance : PyNumber String where
  parse := some
  trunc _ := none
  ofInt n := toString n
  eqInt x n := x == toString n
  eqInt_ofInt_zero := by decide

inductive PyVal (F : Type) where
  | none
  | bool (b : Bool)
  | int (n : Int)
  | float (x : F)
  | str (s : String)
  | list (xs : List (PyVal F))
  | dict (es : List (String × PyVal F))
  | hashStrategy (h : HashStrategy)
  | ttlOverflowPolicy (p : TtlOverflowPolicy)
  | recordExistsPolicy (p : RecordExistsPolicy)

/-- An exception by its class, with the text where the repository writes one
that quotes no value. -/
structure PyErr where
  cls : String
  msg : Option String := Option.none
  deriving DecidableEq

def PyErr.valueError (msg : String) : PyErr := ⟨"ValueError", msg⟩

def PyErr.typeError (msg : String) : PyErr := ⟨"TypeError", msg⟩

/-- `HashStrategy(text)` -/
def HashStrategy.ofText (s : String) : Option HashStrategy :=
  [HashStrategy.mapBin, .fieldBins].find? fun h => h.value = s

/-- `TtlOverflowPolicy.….value` -/
def TtlOverflowPolicy.value : TtlOverflowPolicy → String
  | .reject => "reject"
  | .clamp => "clamp"
  | .neverExpire => "never_expire"

/-- `TtlOverflowPolicy(text)` -/
def TtlOverflowPolicy.ofText (s : String) : Option TtlOverflowPolicy :=
  [TtlOverflowPolicy.reject, .clamp, .neverExpire].find? fun p => p.value = s

/-- `RecordExistsPolicy.….value` -/
def RecordExistsPolicy.value : RecordExistsPolicy → String
  | .update => "update"
  | .replace => "replace"
  | .createOnly => "create_only"

/-- `RecordExistsPolicy(text)` -/
def RecordExistsPolicy.ofText (s : String) : Option RecordExistsPolicy :=
  [RecordExistsPolicy.update, .replace, .createOnly].find? fun p => p.value = s

namespace PyVal

variable {F : Type}

/-- `d.get(k)` -/
def get (d : Dict String (PyVal F)) (k : String) : PyVal F := (d.get? k).getD .none

/-- `HashStrategy(v)` -/
def toHashStrategy : PyVal F → Except PyErr HashStrategy
  | .hashStrategy h => .ok h
  | .str s => (HashStrategy.ofText s).elim (.error ⟨"ValueError", Option.none⟩) .ok
  | _ => .error ⟨"ValueError", Option.none⟩

/-- `TtlOverflowPolicy(v)` -/
def toTtlOverflowPolicy : PyVal F → Except PyErr TtlOverflowPolicy
  | .ttlOverflowPolicy p => .ok p
  | .str s => (TtlOverflowPolicy.ofText s).elim (.error ⟨"ValueError", Option.none⟩) .ok
  | _ => .error ⟨"ValueError", Option.none⟩

/-- `RecordExistsPolicy(v)` -/
def toRecordExistsPolicy : PyVal F → Except PyErr RecordExistsPolicy
  | .recordExistsPolicy p => .ok p
  | .str s => (RecordExistsPolicy.ofText s).elim (.error ⟨"ValueError", Option.none⟩) .ok
  | _ => .error ⟨"ValueError", Option.none⟩

variable [PyNumber F]

/-- `bool(v)` -/
def truthy : PyVal F → Bool
  | .none => false
  | .bool b => b
  | .int n => n ≠ 0
  | .float x => !PyNumber.eqInt x 0
  | .str s => s ≠ ""
  | .list xs => !xs.isEmpty
  | .dict es => !es.isEmpty
  | .hashStrategy _ | .ttlOverflowPolicy _ | .recordExistsPolicy _ => true

/-- `int(v)` -/
def toInt : PyVal F → Except PyErr Int
  | .bool b => .ok (if b then 1 else 0)
  | .int n => .ok n
  | .float x => (PyNumber.trunc x).elim (.error ⟨"ValueError", Option.none⟩) .ok
  | .str s => (Decimal.parseInt s.toList).elim (.error ⟨"ValueError", Option.none⟩) .ok
  | .hashStrategy _ | .ttlOverflowPolicy _ | .recordExistsPolicy _ =>
    .error ⟨"ValueError", Option.none⟩
  | .none | .list _ | .dict _ => .error ⟨"TypeError", Option.none⟩

omit [PyNumber F] in
/-- `iter(v)` -/
def iter : PyVal F → Except PyErr (List (PyVal F))
  | .list xs => .ok xs
  | .str s => .ok (s.toList.map fun c => .str (String.singleton c))
  | .dict es => .ok (es.map fun p => .str p.1)
  | .hashStrategy h => .ok (h.value.toList.map fun c => .str (String.singleton c))
  | .ttlOverflowPolicy p => .ok (p.value.toList.map fun c => .str (String.singleton c))
  | .recordExistsPolicy p => .ok (p.value.toList.map fun c => .str (String.singleton c))
  | .none | .bool _ | .int _ | .float _ => .error ⟨"TypeError", Option.none⟩

omit [PyNumber F] in
/-- `a, b = v` -/
def unpack (v : PyVal F) : Except PyErr (PyVal F × PyVal F) := do
  match ← iter v with
  | [a, b] => .ok (a, b)
  | _ => .error ⟨"ValueError", Option.none⟩

/-- `a == b`, for values of which an `int` may meet a `float`. -/
def Same (a b : PyVal F) : Prop :=
  a = b ∨ ∃ n x, PyNumber.eqInt x n = true ∧
    ((a = .int n ∧ b = .float x) ∨ (a = .float x ∧ b = .int n))

theorem Same.refl (a : PyVal F) : Same a a := .inl rfl

end PyVal

end RedisToAerospike.L1
