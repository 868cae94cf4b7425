import RedisToAerospike.L4Pipeline.Stats
import Mathlib.Data.List.Sort

/-!
# The report (`stats.py`, `format_report`)

The breakdowns are dictionaries, in the order in which the reasons were first
counted; the report sorts them.

* `MigrationStats.tally`: how often a tick has been counted.
* `formatReport_congr`: the report is a function of the tallies, and not of
  the order of the ticks.
-/
namespace RedisToAerospike.L4

/-- The order of `sorted(counts.items())`. -/
def ItemLE (p q : String × Nat) : Prop := p.1 < q.1 ∨ p.1 = q.1 ∧ p.2 ≤ q.2

instance : DecidableRel ItemLE := fun _ _ => inferInstanceAs (Decidable (_ ∨ _))

theorem itemLE_iff {p q : String × Nat} : ItemLE p q ↔ toLex p ≤ toLex q := Prod.Lex.le_iff.symm

instance : Std.Total ItemLE where
  total p q := by rw [itemLE_iff, itemLE_iff]; exact le_total _ _

instance : IsTrans (String × Nat) ItemLE where
  trans p q r hpq hqr := by
    rw [itemLE_iff] at hpq hqr ⊢
    exact hpq.trans hqr

instance : Std.Antisymm ItemLE where
  antisymm p q hpq hqp := by
    rw [itemLE_iff] at hpq hqp
    exact toLex.injective (le_antisymm hpq hqp)

/-- One breakdown, if there is anything in it. -/
def breakdown (title : String) (counts : Dict String Nat) : List String :=
  if counts.entries = [] then []
  else title :: (counts.entries.insertionSort ItemLE).map fun p =>
    "    - " ++ p.1 ++ ": " ++ toString p.2

/-- The report; the texts for the time and the throughput come from the clock.
mirrors src/redis_to_aerospike/stats.py:82-112 -/
def MigrationStats.formatReport (s : MigrationStats) (elapsed throughput : String) : String :=
  "\n".intercalate
    (["migration summary",
      "  scanned    : " ++ toString s.scanned,
      "  migrated   : " ++ toString s.migrated,
      "  skipped    : " ++ toString s.skipped,
      "  errors     : " ++ toString s.errors,
      "  elapsed    : " ++ elapsed ++ "s",
      "  throughput : " ++ throughput ++ " records/s"] ++
      breakdown "  skipped by type:" s.skippedByType ++ breakdown "  errors by type:" s.errorsByType)

theorem breakdown_congr {title : String} {counts counts' : Dict String Nat}
    (h : counts.entries.Perm counts'.entries) : breakdown title counts = breakdown title counts' := by
  have hsorted : counts.entries.insertionSort ItemLE = counts'.entries.insertionSort ItemLE := by
    have hperm := (List.perm_insertionSort ItemLE counts.entries).trans
      (h.trans (List.perm_insertionSort ItemLE counts'.entries).symm)
    exact hperm.eq_of_pairwise' (List.pairwise_insertionSort ItemLE _)
      (List.pairwise_insertionSort ItemLE _)
  unfold breakdown
  by_cases hnil : counts.entries = []
  · rw [if_pos hnil, if_pos (List.nil_perm.1 (hnil ▸ h))]
  · have hnil' : counts'.entries ≠ [] := fun he => hnil (he ▸ h).eq_nil
    rw [if_neg hnil, if_neg hnil', hsorted]

/-! ## Tallies -/

/-- How often a tick has been counted. -/
def MigrationStats.tally (s : MigrationStats) : Tick → Nat
  | .migrated => s.migrated
  | .skipped reason => (s.skippedByType.get? reason).getD 0
  | .error reason => (s.errorsByType.get? reason).getD 0

theorem getD_bump (counts : Dict String Nat) (reason reason' : String) :
    ((bump counts reason).get? reason').getD 0 =
      (counts.get? reason').getD 0 + if reason = reason' then 1 else 0 := by
  unfold bump
  rw [Dict.get?_set]
  by_cases h : reason = reason'
  · subst h; simp
  · simp [h]

theorem MigrationStats.tally_record (s : MigrationStats) (t t' : Tick) :
    (s.record t).tally t' = s.tally t' + if t = t' then 1 else 0 := by
  cases t <;> cases t' <;> simp [MigrationStats.record, tally, getD_bump]

@[simp] theorem MigrationStats.tally_recordScanned (s : MigrationStats) (t : Tick) :
    s.recordScanned.tally t = s.tally t := by
  cases t <;> rfl

/-- The breakdowns add up, and name no reason in vain. -/
structure MigrationStats.Tallied (s : MigrationStats) : Prop where
  balanced : s.Balanced
  skippedPos : ∀ reason, s.skippedByType.get? reason ≠ some 0
  errorsPos : ∀ reason, s.errorsByType.get? reason ≠ some 0

theorem bump_pos {counts : Dict String Nat} (h : ∀ reason, counts.get? reason ≠ some 0)
    (reason reason' : String) : (bump counts reason).get? reason' ≠ some 0 := by
  unfold bump
  rw [Dict.get?_set]
  by_cases he : reason = reason'
  · rw [if_pos he]; simp
  · rw [if_neg he]; exact h reason'

theorem MigrationStats.Tallied.recordScanned {s : MigrationStats} (h : s.Tallied) :
    s.recordScanned.Tallied := ⟨h.balanced.recordScanned, h.skippedPos, h.errorsPos⟩

theorem MigrationStats.Tallied.record {s : MigrationStats} (h : s.Tallied) (t : Tick) :
    (s.record t).Tallied := by
  refine ⟨h.balanced.record t, ?_, ?_⟩
  · cases t with
    | skipped reason => exact bump_pos h.skippedPos reason
    | migrated => exact h.skippedPos
    | error reason => exact h.skippedPos
  · cases t with
    | error reason => exact bump_pos h.errorsPos reason
    | migrated => exact h.errorsPos
    | skipped reason => exact h.errorsPos

/-- Counts that are never 0 are told by their tallies. -/
theorem get?_of_getD {counts counts' : Dict String Nat} {reason : String}
    (h : counts.get? reason ≠ some 0) (h' : counts'.get? reason ≠ some 0)
    (he : (counts.get? reason).getD 0 = (counts'.get? reason).getD 0) :
    counts.get? reason = counts'.get? reason := by
  cases hc : counts.get? reason <;> cases hc' : counts'.get? reason <;> simp_all

theorem perm_errorsByType {s s' : MigrationStats} (h : s.Tallied) (h' : s'.Tallied)
    (htally : ∀ reason, s.tally (.error reason) = s'.tally (.error reason)) :
    s.errorsByType.entries.Perm s'.errorsByType.entries :=
  Dict.perm_of_get? fun reason =>
    get?_of_getD (h.errorsPos reason) (h'.errorsPos reason) (htally reason)

theorem errors_congr {s s' : MigrationStats} (h : s.Tallied) (h' : s'.Tallied)
    (htally : ∀ reason, s.tally (.error reason) = s'.tally (.error reason)) :
    s.errors = s'.errors := by
  rw [h.balanced.errors, h'.balanced.errors]
  exact ((perm_errorsByType h h' htally).map Prod.snd).sum_eq

/-- The report depends on what has been counted, not on the order. -/
theorem formatReport_congr {s s' : MigrationStats} (h : s.Tallied) (h' : s'.Tallied)
    (hscanned : s.scanned = s'.scanned) (htally : ∀ t, s.tally t = s'.tally t)
    (elapsed throughput : String) :
    s.formatReport elapsed throughput = s'.formatReport elapsed throughput := by
  have hmigrated : s.migrated = s'.migrated := htally .migrated
  have hperm : s.skippedByType.entries.Perm s'.skippedByType.entries :=
    Dict.perm_of_get? fun reason =>
      get?_of_getD (h.skippedPos reason) (h'.skippedPos reason) (htally (.skipped reason))
  have hskipped : s.skipped = s'.skipped := by
    rw [h.balanced.skipped, h'.balanced.skipped]
    exact (hperm.map Prod.snd).sum_eq
  have herrors := errors_congr h h' fun reason => htally (.error reason)
  unfold MigrationStats.formatReport
  rw [hscanned, hmigrated, hskipped, herrors, breakdown_congr hperm,
    breakdown_congr (perm_errorsByType h h' fun reason => htally (.error reason))]

/-! ## Counting one by one -/

/-- `n` records scanned, and the ticks counted in order. -/
def countAll (n : Nat) (ticks : List Tick) : MigrationStats :=
  ticks.foldl MigrationStats.record { scanned := n }

theorem foldl_record {s : MigrationStats} (h : s.Tallied) (ticks : List Tick) :
    (ticks.foldl MigrationStats.record s).Tallied ∧
    (ticks.foldl MigrationStats.record s).scanned = s.scanned ∧
    ∀ t, (ticks.foldl MigrationStats.record s).tally t = s.tally t + ticks.count t := by
  induction ticks generalizing s with
  | nil => exact ⟨h, rfl, fun t => rfl⟩
  | cons tick ticks ih =>
    obtain ⟨htallied, hscanned, htally⟩ := ih (h.record tick)
    refine ⟨htallied, hscanned.trans (MigrationStats.scanned_record _ _), fun t => ?_⟩
    rw [List.foldl_cons, htally, MigrationStats.tally_record, List.count_cons]
    by_cases he : tick = t
    · simp only [he, if_true, beq_self_eq_true]; omega
    · simp [he]

theorem countAll_tallied (n : Nat) (ticks : List Tick) :
    (countAll n ticks).Tallied ∧ (countAll n ticks).scanned = n ∧
      ∀ t, (countAll n ticks).tally t = ticks.count t := by
  have hnone : ∀ reason, (Dict.empty : Dict String Nat).get? reason ≠ some 0 := by
    intro reason he
    cases he
  have hempty : MigrationStats.Tallied { scanned := n } := ⟨⟨rfl, rfl⟩, hnone, hnone⟩
  obtain ⟨htallied, hscanned, htally⟩ := foldl_record hempty ticks
  refine ⟨htallied, hscanned, fun t => ?_⟩
  have hzero : MigrationStats.tally { scanned := n } t = 0 := by cases t <;> rfl
  rw [countAll, htally, hzero, Nat.zero_add]

def Tick.isError : Tick → Bool
  | .error _ => true
  | _ => false

theorem errors_countAll (n : Nat) (ticks : List Tick) :
    (countAll n ticks).errors = ticks.countP Tick.isError := by
  have hfold : ∀ s : MigrationStats,
      (ticks.foldl MigrationStats.record s).errors = s.errors + ticks.countP Tick.isError := by
    induction ticks with
    | nil => exact fun s => rfl
    | cons tick ticks ih =>
      intro s
      rw [List.foldl_cons, ih, List.countP_cons]
      cases tick with
      | migrated => rfl
      | skipped reason => rfl
      | error reason =>
        simp only [MigrationStats.record, Tick.isError, if_true]
        omega
  rw [countAll, hfold, Nat.zero_add]

example : (countAll 3 [.skipped "stream", .migrated, .skipped "json"]).formatReport "1.00" "1" =
    "migration summary\n  scanned    : 3\n  migrated   : 1\n  skipped    : 2\n" ++
      "  errors     : 0\n  elapsed    : 1.00s\n  throughput : 1 records/s\n" ++
      "  skipped by type:\n    - json: 1\n    - stream: 1" := by
  decide +kernel

end RedisToAerospike.L4
