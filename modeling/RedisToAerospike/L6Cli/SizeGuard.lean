import RedisToAerospike.L6Cli.TtlGate

/-!
# The size guard (`AerospikeServerInfo.parse`, `apply_server_info`)

The sink rejects records above `max_record_size`, which is set from what the
server says: its `max-record-size`, or on older servers its `write-block-size`.
A zero advertises no cap. `as_int` takes the first of the two names that is
there, whatever it says.

* `get?_infoPairs_iff`: a name has the value of its last pair in the text.
* `guard_iff`: the guard is the limit the server advertises unless a
  `max-record-size` that is no limit hides a `write-block-size` that is one.
-/
namespace RedisToAerospike.L6
open L1 Partition

/-- The last of the text's pairs with this name has this value; a pair is cut
at its first `=` and both halves are stripped. -/
def Says (text name value : String) : Prop :=
  ∃ before label written after,
    text.toList.splitOn ';' = before ++ (label ++ '=' :: written) :: after ∧ '=' ∉ label ∧
      stripText (.ofList label) = name ∧ stripText (.ofList written) = value ∧
      ∀ l w, l ++ '=' :: w ∈ after → '=' ∉ l → stripText (.ofList l) ≠ name

/-- What the server says under a name, where that is a positive integer. -/
def advertised (raw : Dict String String) (name : String) : Option Int :=
  ((raw.get? name).bind fun s => Decimal.parseInt s.toList).filter (0 < ·)

/-- The limit of the server, `prior` where it advertises none. -/
def serverLimit (raw : Dict String String) (prior : Int) : Int :=
  ((advertised raw "max-record-size").or (advertised raw "write-block-size")).getD prior

/-- `max-record-size` is there and is no limit, and `write-block-size` is
another than `prior`. -/
def Hidden (raw : Dict String String) (prior : Int) : Prop :=
  raw.get? "max-record-size" ≠ none ∧ advertised raw "max-record-size" = none ∧
    ∃ n, advertised raw "write-block-size" = some n ∧ n ≠ prior

section
variable {F : Type} [PyNumber F]

/-- The text that `parse` reads. -/
def infoText (infoResult : PyVal F) : String := (extractResponse infoResult).getD ""

/-- Its pairs. -/
def advertisedPairs (infoResult : PyVal F) : Dict String String := infoPairs (infoText infoResult)

/-- The guard of the sink after the server was asked. -/
def guardAfter (config : RunConfig F) (infoResult : PyVal F) : Int :=
  (applyServerInfo config
    (some (.parse infoResult config.aerospike.namespace_))).aerospike.maxRecordSize

theorem get?_infoPairs_iff (text name value : String) :
    (infoPairs text).get? name = some value ↔ Says text name value := by
  have hpair : ∀ pair v, ((cut ['='] pair).map fun p =>
      (stripText (.ofList p.1), stripText (.ofList p.2))) = some (name, v) ↔
      ∃ label written, pair = label ++ '=' :: written ∧ '=' ∉ label ∧
        stripText (.ofList label) = name ∧ stripText (.ofList written) = v := by
    intro pair v
    simp only [Option.map_eq_some_iff, Prod.exists, cut_eq_some_iff, Prod.mk.injEq, and_assoc]
  unfold infoPairs
  rw [Dict.get?_ofPairs_filterMap_iff]
  constructor
  · intro h
    obtain ⟨before, pair, after, htext, hp, hlast⟩ := h
    obtain ⟨label, written, rfl, hfree, hname, hvalue⟩ := (hpair pair value).1 hp
    refine ⟨before, label, written, after, htext, hfree, hname, hvalue, fun l w hmem hl hn => ?_⟩
    exact hlast _ hmem _ ((hpair _ _).2 ⟨l, w, rfl, hl, hn, rfl⟩)
  · intro h
    obtain ⟨before, label, written, after, htext, hfree, hname, hvalue, hlast⟩ := h
    refine ⟨before, _, after, htext, (hpair _ _).2 ⟨label, written, rfl, hfree, hname, hvalue⟩, ?_⟩
    intro pair hmem v hp
    obtain ⟨l, w, rfl, hl, hn, -⟩ := (hpair pair v).1 hp
    exact hlast l w hmem hl hn

/-- A parsed limit that is not positive is passed over. -/
theorem guard_of_parsed (config : RunConfig F) (info : AerospikeServerInfo) :
    (applyServerInfo config (some info)).aerospike.maxRecordSize =
      (info.maxRecordSize.filter (0 < ·)).getD config.aerospike.maxRecordSize := by
  unfold applyServerInfo
  cases hmax : info.maxRecordSize with
  | none => simp [hmax]
  | some n =>
    rw [Option.bind_some, hmax]
    dsimp only
    by_cases hpos : 0 < n
    · rw [if_pos hpos]
      simp [Option.filter, hpos]
    · rw [if_neg hpos]
      simp [Option.filter, hpos]

theorem guardAfter_eq (config : RunConfig F) (infoResult : PyVal F) :
    guardAfter config infoResult =
      if (advertisedPairs infoResult).get? "max-record-size" = none then
        (advertised (advertisedPairs infoResult) "write-block-size").getD
          config.aerospike.maxRecordSize
      else
        (advertised (advertisedPairs infoResult) "max-record-size").getD
          config.aerospike.maxRecordSize := by
  rw [guardAfter, guard_of_parsed]
  show ((asInt (advertisedPairs infoResult) _).filter _).getD _ = _
  unfold asInt advertised
  cases hm : (advertisedPairs infoResult).get? "max-record-size" with
  | none => simp [hm]
  | some s => simp [hm]

/-- The guard is the limit of the pairs exactly where none is hidden. -/
theorem guardAfter_iff (config : RunConfig F) (infoResult : PyVal F) :
    guardAfter config infoResult =
        serverLimit (advertisedPairs infoResult) config.aerospike.maxRecordSize ↔
      ¬ Hidden (advertisedPairs infoResult) config.aerospike.maxRecordSize := by
  rw [guardAfter_eq, serverLimit, Hidden]
  generalize advertisedPairs infoResult = raw
  by_cases hm : raw.get? "max-record-size" = none
  · have hno : advertised raw "max-record-size" = none := by simp [advertised, hm]
    simp [hm, hno]
  · rw [if_neg hm]
    cases hpos : advertised raw "max-record-size" with
    | some n => simp
    | none =>
      cases hw : advertised raw "write-block-size" with
      | none => simp
      | some n => simp [hm, eq_comm]

/-- **Size guard.** After the servers were asked the guard is the limit the
server advertises, its prior value where it advertises none, exactly when no
limit is hidden; a name's value is the one that its last pair in the text
has. -/
theorem guard_iff (config : RunConfig F) (infoResult : PyVal F) :
    (∀ name value, (advertisedPairs infoResult).get? name = some value ↔
        Says (infoText infoResult) name value) ∧
      (guardAfter config infoResult =
          serverLimit (advertisedPairs infoResult) config.aerospike.maxRecordSize ↔
        ¬ Hidden (advertisedPairs infoResult) config.aerospike.maxRecordSize) :=
  ⟨get?_infoPairs_iff _, guardAfter_iff config infoResult⟩

end

/-- No explicit cap, and records of at most 1 MiB: the guard stays at 8 MiB. -/
theorem block_size_hidden :
    let config : RunConfig String := {}
    let answer : PyVal String := .str "ns=test;max-record-size=0;write-block-size=1048576"
    guardAfter config answer = 8388608 ∧
      serverLimit (advertisedPairs answer) config.aerospike.maxRecordSize = 1048576 := by
  decide +kernel

end RedisToAerospike.L6
