import RedisToAerospike.Core.Utf8
import RedisToAerospike.L1Data.Models

/-!
# The Redis server

A keyspace with a clock, and the commands the reader sends. Other clients may
change the keyspace between any two commands: a `History` says what each
command of a run meets.

A value command against a key of another type is answered with an error;
`pipe.execute()` raises the first error in its batch, and says which command it
was.

* `execute_ok`, `execute_error`: a pipeline returns the replies in the order of
  its commands, unless one of them is an error.
-/
namespace RedisToAerospike.L2
open L1

/-- The types the reader knows how to read. -/
def supportedTypes : List String := ["string", "hash", "list", "set", "zset"]

/-- A stored value. Redis stores no empty collection; any other type goes by a
name of its own. -/
inductive Data (F : Type) where
  | string (b : ByteArray)
  | hash (h : Dict ByteArray ByteArray) (ne : h.size ≠ 0)
  | list (xs : List ByteArray) (ne : xs ≠ [])
  | set (s : PySet ByteArray) (ne : s.elems ≠ [])
  | zset (xs : List (ByteArray × F)) (ne : xs ≠ [])
  | other (name : String) (foreign : name ∉ "none" :: supportedTypes)

/-- A key's value and when it expires, in milliseconds. -/
structure Stored (F : Type) where
  data : Data F
  expireAt : Option Int := none

abbrev Keyspace (F : Type) := ByteArray → Option (Stored F)

/-- What one command meets. -/
structure Moment (F : Type) where
  keyspace : Keyspace F
  now : Int

/-- What the commands of a run meet, first to last. -/
abbrev History (F : Type) := Nat → Moment F

inductive Verb where
  | type
  | pttl
  | get
  | hgetall
  | lrange
  | smembers
  | zrange
  | exists_
  deriving DecidableEq

structure Command where
  verb : Verb
  key : ByteArray

/-- A reply, as the client library hands it on. -/
inductive Answer (F : Type) where
  | status (raw : ByteArray)
  | int (n : Int)
  | value (v : RedisValue F)
  | error (msg : String)

/-- The reply to a value command against a key of another type. -/
def WRONGTYPE : String := "WRONGTYPE Operation against a key holding the wrong kind of value"

section
variable {F : Type}

namespace Data

/-- The reply to `TYPE`. -/
def typeName : Data F → String
  | .string _ => "string"
  | .hash _ _ => "hash"
  | .list _ _ => "list"
  | .set _ _ => "set"
  | .zset _ _ => "zset"
  | .other name _ => name

/-- What reading the value gives; of another type, that it is there. -/
def read : Data F → RedisValue F
  | .string b => .string b
  | .hash h _ => .hash h
  | .list xs _ => .list xs
  | .set s _ => .set s
  | .zset xs _ => .zset xs
  | .other _ _ => .exists 1

theorem typeName_ne_none (d : Data F) : d.typeName ≠ "none" := by
  cases d with
  | other name foreign => exact fun h => foreign (h ▸ List.mem_cons_self)
  | _ => simp [typeName]

end Data

/-! ## Commands -/

/-- What a value command makes of a value of its own type. -/
def Verb.pick : Verb → Data F → Option (RedisValue F)
  | .get, .string b => some (.string b)
  | .hgetall, .hash h _ => some (.hash h)
  | .lrange, .list xs _ => some (.list xs)
  | .smembers, .set s _ => some (.set s)
  | .zrange, .zset xs _ => some (.zset xs)
  | _, _ => none

/-- What a value command makes of a missing key. -/
def Verb.absent : Verb → RedisValue F
  | .hgetall => .hash Dict.empty
  | .lrange => .list []
  | .smembers => .set ⟨[], List.nodup_nil⟩
  | .zrange => .zset []
  | _ => .none

/-- The reply to `PTTL`: -2 for no key, -1 for no expiry. -/
def pttlOf (now : Int) : Option (Stored F) → Int
  | none => -2
  | some e =>
    match e.expireAt with
    | none => -1
    | some at_ => max 0 (at_ - now)

/-- The reply to `TYPE`, as a text. -/
def typeNameOf : Option (Stored F) → String
  | none => "none"
  | some e => e.data.typeName

def Moment.answer (m : Moment F) (c : Command) : Answer F :=
  match c.verb with
  | .type => .status (typeNameOf (m.keyspace c.key)).toByteArray
  | .pttl => .int (pttlOf m.now (m.keyspace c.key))
  | .exists_ => .int (if (m.keyspace c.key).isSome then 1 else 0)
  | verb =>
    match m.keyspace c.key with
    | none => .value verb.absent
    | some e =>
      match verb.pick e.data with
      | some v => .value v
      | none => .error WRONGTYPE

/-! ## Pipelines -/

/-- The replies to the commands sent from tick `t` on. -/
def answers (h : History F) (t : Nat) (cs : List Command) : List (Answer F) :=
  (cs.zipIdx t).map fun p => (h p.2).answer p.1

def Answer.error? : Answer F → Option String
  | .error msg => some msg
  | _ => none

/-- A command as the client library prints it. -/
def Command.text (c : Command) : String :=
  let key := Utf8.decodeReplace c.key
  match c.verb with
  | .type => "TYPE " ++ key
  | .pttl => "PTTL " ++ key
  | .get => "GET " ++ key
  | .hgetall => "HGETALL " ++ key
  | .lrange => "LRANGE " ++ key ++ " 0 -1"
  | .smembers => "SMEMBERS " ++ key
  | .zrange => "ZRANGE " ++ key ++ " 0 -1 WITHSCORES"
  | .exists_ => "EXISTS " ++ key

/-- An error of the `number`-th command of a pipeline. The client library
shortens a long command; here it stands in full. -/
def annotate (c : Command) (number : Nat) (msg : String) : String :=
  "Command # " ++ toString number ++ " (" ++ c.text ++ ") of pipeline caused error: " ++ msg

/-- The first error in the replies to the commands sent from tick `t` on. -/
def firstError (h : History F) (t : Nat) (cs : List Command) : Option String :=
  (cs.zipIdx t).findSome? fun p => ((h p.2).answer p.1).error?.map (annotate p.1 (p.2 - t + 1))

/-- `pipe.execute()`: raises the first error of the batch. -/
def execute (h : History F) (t : Nat) (cs : List Command) : Except Exn (List (Answer F)) :=
  match firstError h t cs with
  | some msg => .error (.other "ResponseError" msg)
  | none => .ok (answers h t cs)

theorem firstError_eq_none_iff {h : History F} {t : Nat} {cs : List Command} :
    firstError h t cs = none ↔ ∀ a ∈ answers h t cs, a.error? = none := by
  unfold firstError answers
  rw [List.findSome?_eq_none_iff, List.forall_mem_map]
  exact forall₂_congr fun p _ => Option.map_eq_none_iff

theorem execute_ok {h : History F} {t : Nat} {cs : List Command}
    (hok : ∀ a ∈ answers h t cs, a.error? = none) : execute h t cs = .ok (answers h t cs) := by
  unfold execute
  rw [firstError_eq_none_iff.2 hok]

theorem execute_error {h : History F} {t : Nat} {cs : List Command} {a : Answer F}
    (ha : a ∈ answers h t cs) (he : a.error? ≠ none) :
    ∃ msg, execute h t cs = .error (.other "ResponseError" msg) := by
  unfold execute
  cases hf : firstError h t cs with
  | some msg => exact ⟨msg, rfl⟩
  | none => exact absurd (firstError_eq_none_iff.1 hf a ha) he

theorem eq_answers_of_execute {h : History F} {t : Nat} {cs : List Command} {as : List (Answer F)}
    (hok : execute h t cs = .ok as) : as = answers h t cs := by
  unfold execute at hok
  split at hok <;> cases hok
  rfl

theorem getElem?_answers (h : History F) (t : Nat) (cs : List Command) (j : Nat) :
    (answers h t cs)[j]? = cs[j]?.map fun c => (h (t + j)).answer c := by
  unfold answers
  rw [List.getElem?_map, List.getElem?_zipIdx, Option.map_map]
  rfl

end

end RedisToAerospike.L2
