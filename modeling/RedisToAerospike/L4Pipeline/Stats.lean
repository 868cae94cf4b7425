import Mathlib
import RedisToAerospike.Core.Dict

/-!
# Migration statistics (`stats.py`)

The counters with their breakdown by reason. Each `record_*` runs under the
lock, so it is one step. The clock is not modelled.

* `Balanced`: the breakdowns add up to the counters; every `record_*` keeps it.
-/
namespace RedisToAerospike.L4

/-- mirrors src/redis_to_aerospike/stats.py:11-25 -/
structure MigrationStats where
  scanned : Nat := 0
  migrated : Nat := 0
  skipped : Nat := 0
  errors : Nat := 0
  skippedByType : Dict String Nat := Dict.empty
  errorsByType : Dict String Nat := Dict.empty
  deriving DecidableEq

/-- `counts[reason] = counts.get(reason, 0) + 1` -/
def bump (counts : Dict String Nat) (reason : String) : Dict String Nat :=
  counts.set reason ((counts.get? reason).getD 0 + 1)

/-- mirrors src/redis_to_aerospike/stats.py:35-37 -/
def MigrationStats.recordScanned (s : MigrationStats) : MigrationStats :=
  { s with scanned := s.scanned + 1 }

/-- A call of `record_migrated`, `record_skipped` or `record_error`. -/
inductive Tick where
  | migrated
  | skipped (reason : String)
  | error (reason : String)
  deriving DecidableEq

/-- mirrors src/redis_to_aerospike/stats.py:39-51 -/
def MigrationStats.record (s : MigrationStats) : Tick → MigrationStats
  | .migrated => { s with migrated := s.migrated + 1 }
  | .skipped reason =>
    { s with skipped := s.skipped + 1, skippedByType := bump s.skippedByType reason }
  | .error reason =>
    { s with errors := s.errors + 1, errorsByType := bump s.errorsByType reason }

/-- The records that have been accounted for. -/
def MigrationStats.counted (s : MigrationStats) : Nat := s.migrated + s.skipped + s.errors

/-- The counters are the sums of their breakdowns. -/
structure MigrationStats.Balanced (s : MigrationStats) : Prop where
  skipped : s.skipped = s.skippedByType.values.sum
  errors : s.errors = s.errorsByType.values.sum

theorem sum_upsert (es : List (String × Nat)) (reason : String) :
    ((Dict.upsert reason ((Dict.lookup reason es).getD 0 + 1) es).map Prod.snd).sum =
      (es.map Prod.snd).sum + 1 := by
  induction es with
  | nil => simp [Dict.upsert, Dict.lookup]
  | cons p es ih =>
    obtain ⟨k, n⟩ := p
    by_cases h : k = reason
    · simp [Dict.upsert, Dict.lookup, h]
      omega
    · simp only [Dict.upsert, Dict.lookup, if_neg h, List.map_cons, List.sum_cons, ih]
      omega

theorem sum_bump (counts : Dict String Nat) (reason : String) :
    (bump counts reason).values.sum = counts.values.sum + 1 := sum_upsert counts.entries reason

theorem MigrationStats.Balanced.recordScanned {s : MigrationStats} (h : s.Balanced) :
    s.recordScanned.Balanced := ⟨h.skipped, h.errors⟩

theorem MigrationStats.Balanced.record {s : MigrationStats} (h : s.Balanced) (t : Tick) :
    (s.record t).Balanced := by
  cases t with
  | migrated => exact ⟨h.skipped, h.errors⟩
  | skipped reason =>
    refine ⟨?_, h.errors⟩
    have hs := h.skipped
    simp only [MigrationStats.record, sum_bump]
    omega
  | error reason =>
    refine ⟨h.skipped, ?_⟩
    have he := h.errors
    simp only [MigrationStats.record, sum_bump]
    omega

@[simp] theorem MigrationStats.counted_record (s : MigrationStats) (t : Tick) :
    (s.record t).counted = s.counted + 1 := by
  cases t <;> simp only [MigrationStats.record, MigrationStats.counted] <;> omega

@[simp] theorem MigrationStats.scanned_record (s : MigrationStats) (t : Tick) :
    (s.record t).scanned = s.scanned := by
  cases t <;> rfl

@[simp] theorem MigrationStats.counted_recordScanned (s : MigrationStats) :
    s.recordScanned.counted = s.counted := rfl

@[simp] theorem MigrationStats.scanned_recordScanned (s : MigrationStats) :
    s.recordScanned.scanned = s.scanned + 1 := rfl

end RedisToAerospike.L4
