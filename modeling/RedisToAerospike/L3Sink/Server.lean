import RedisToAerospike.L1Data.Models
import Mathlib.Logic.Function.Basic

/-!
# The Aerospike server

The store maps a key tuple to bins and a TTL. A call carries operations and
a policy and acts on one record, atomically: under `IGNORE` it creates the
record or merges into it, under `CREATE_OR_REPLACE` it starts from an empty
record, under `CREATE` it fails when there is one. Nothing else fails, except
an append to a bin that is no list.

How an ordered list takes in items uniquely is the server's (`OrderedLists`);
nothing is assumed about it.
-/
namespace RedisToAerospike.L3
open L1

/-- mirrors src/redis_to_aerospike/aerospike_sink.py:17-18 -/
abbrev AerospikeKey := String × String × Key

/-- The server's `list_append_items` with `LIST_ORDERED`, `ADD_UNIQUE`,
`NO_FAIL` and `PARTIAL`. -/
class OrderedLists (F : Type) where
  appendUnique : List (Value F) → List (Value F) → List (Value F)

/-- Lists in the order of insertion, enough to run the model on. -/
instance : OrderedLists String :=
  ⟨fun xs ys => ys.foldl (fun acc y => if y ∈ acc then acc else acc ++ [y]) xs⟩

/-- `POLICY_EXISTS_*` -/
inductive ExistsPolicy where
  | ignore
  | createOrReplace
  | create
  deriving DecidableEq

structure WritePolicy where
  ttl : Int
  exists_ : ExistsPolicy
  sendKey : Bool := false
  deriving DecidableEq

/-- `operations.write` and `list_operations.list_append_items` -/
inductive Op (F : Type) where
  | write (bin : String) (value : Value F)
  | listAppendItems (bin : String) (items : List (Value F))

abbrev Bins (F : Type) := String → Option (Value F)

/-- A stored record. -/
@[ext] structure Entry (F : Type) where
  bins : Bins F
  ttl : Int

abbrev Store (F : Type) := AerospikeKey → Option (Entry F)

/-- `AS_PROTO_RESULT_OK` -/
def RESULT_OK : Int := 0

/-- `AEROSPIKE_ERR_RECORD_EXISTS` -/
def RESULT_RECORD_EXISTS : Int := 5

/-- `AEROSPIKE_ERR_BIN_INCOMPATIBLE_TYPE` -/
def RESULT_BIN_TYPE : Int := 12

section
variable {F : Type} [OrderedLists F]

def applyOp (bins : Bins F) : Op F → Except Int (Bins F)
  | .write b v => .ok (Function.update bins b (some v))
  | .listAppendItems b items =>
    match bins b with
    | none => .ok (Function.update bins b (some (.list (OrderedLists.appendUnique [] items))))
    | some (.list xs) =>
      .ok (Function.update bins b (some (.list (OrderedLists.appendUnique xs items))))
    | some _ => .error RESULT_BIN_TYPE

def applyOps (bins : Bins F) : List (Op F) → Except Int (Bins F)
  | [] => .ok bins
  | op :: ops =>
    match applyOp bins op with
    | .ok bins' => applyOps bins' ops
    | .error code => .error code

omit [OrderedLists F] in
/-- The bins the operations start from. -/
def startBins (policy : WritePolicy) : Option (Entry F) → Except Int (Bins F)
  | none => .ok fun _ => none
  | some e =>
    match policy.exists_ with
    | .ignore => .ok e.bins
    | .createOrReplace => .ok fun _ => none
    | .create => .error RESULT_RECORD_EXISTS

/-- One call on one record: the store and the result code. -/
def operate (S : Store F) (key : AerospikeKey) (ops : List (Op F)) (policy : WritePolicy) :
    Store F × Int :=
  match startBins policy (S key) with
  | .error code => (S, code)
  | .ok bins =>
    match applyOps bins ops with
    | .error code => (S, code)
    | .ok bins' => (Function.update S key (some ⟨bins', policy.ttl⟩), RESULT_OK)

/-- `client.put`: a write for each bin. -/
def put (S : Store F) (key : AerospikeKey) (bins : Dict String (Value F)) (policy : WritePolicy) :
    Store F × Int :=
  operate S key (bins.entries.map fun p => .write p.1 p.2) policy

theorem applyOps_append (bins : Bins F) (xs ys : List (Op F)) :
    applyOps bins (xs ++ ys) =
      match applyOps bins xs with
      | .ok bins' => applyOps bins' ys
      | .error code => .error code := by
  induction xs generalizing bins with
  | nil => rfl
  | cons op xs ih =>
    rw [List.cons_append, applyOps, applyOps]
    cases applyOp bins op with
    | ok bins' => exact ih bins'
    | error code => rfl

end

end RedisToAerospike.L3
