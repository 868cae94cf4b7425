import RedisToAerospike.L5Migration.EndToEnd
import RedisToAerospike.L5Migration.LastWrite
import RedisToAerospike.L5Migration.Resume

/-!
# One migration after another

Between two migrations the source may change as it likes: records change,
come and go. A migration may take several attempts.

* `Migrations`: what migrations of several sources in turn leave.
* `merged`: what becomes of the record under a key, by policy.
* `successive`: this is what they leave under each key. Nothing is deleted:
  what is gone from Redis stays, under `UPDATE` bin by bin.
-/
namespace RedisToAerospike.L5
open L1 L2 L3 L4

section
variable {F : Type} [PyFloat F] [OrderedLists F]

/-- What migrations of `srcs`, in order, leave of `S₀`. Each may have been cut
off several times before it ran to its end. -/
inductive Migrations (m : Migrator F) (S₀ : Store F) : List (List (RedisRecord F)) → Store F → Prop
  | none : Migrations m S₀ [] S₀
  | next {srcs : List (List (RedisRecord F))} {src src' : List (RedisRecord F)} {S S' S'' : Store F}
      {workers queueSize writeBatchSize : Int} : Migrations m S₀ srcs S → Attempts m src S S' →
      src'.Perm src → (m.tuned workers queueSize writeBatchSize).Leaves S' src' S'' →
      Migrations m S₀ (srcs ++ [src]) S''

omit [OrderedLists F] in
/-- The record that a source has for a key. -/
def Migrator.recordFor (m : Migrator F) (k : AerospikeKey) (src : List (RedisRecord F)) :
    Option (AerospikeRecord F) :=
  (occurrences m.config.aerospike (m.records src) k).head?

omit [PyFloat F] in
/-- The record under a key, given what sources in turn have for it: the first
is created, the last one replaces, and updates put the last value into each
bin. -/
def merged (policy : RecordExistsPolicy) (rs : List (AerospikeRecord F)) (old : Option (Entry F)) :
    Option (Entry F) :=
  match policy with
  | .createOnly => old.or (rs.head?.map entryOf)
  | .replace => (rs.getLast?.map entryOf).or old
  | .update =>
    match rs.getLast? with
    | none => old
    | some last =>
      some ⟨fun b => (rs.reverse.findSome? (written · b)).or (binsOf old b), policyTtl last⟩

omit [PyFloat F] in
theorem foldl_merged (config : AerospikeConfig) (rs : List (AerospikeRecord F))
    (old : Option (Entry F)) :
    rs.foldl (fun v r => act config r v) old = merged config.recordExistsPolicy rs old := by
  cases hp : config.recordExistsPolicy with
  | update => exact foldl_update hp old rs
  | replace =>
    rw [foldl_replace hp]
    cases hl : rs.getLast? with
    | none => simp [merged, hl]
    | some last => simp [merged, hl, act_replace hp, entryOf]
  | createOnly =>
    cases old with
    | some e => exact foldl_createOnly_present hp e rs
    | none =>
      cases rs with
      | nil => rfl
      | cons r rs => exact foldl_createOnly_present hp (entryOf r) rs

/-- One migration, key by key. -/
theorem oneByOne_at {m : Migrator F} {src : List (RedisRecord F)} (hq : Quiescent m src)
    (S : Store F) (k : AerospikeKey) :
    m.oneByOne S src k =
      (m.recordFor k src).toList.foldl (fun v r => act m.config.aerospike r v) (S k) := by
  unfold Migrator.oneByOne Migrator.recordFor
  rw [writeEach_at]
  cases hocc : occurrences m.config.aerospike (m.records src) k with
  | nil => rfl
  | cons r rs =>
    have hone : ∀ r' ∈ r :: rs, r' = r := by
      intro r' hr'
      rw [← hocc] at hr'
      exact hq.single hr' (hocc ▸ List.mem_cons_self)
    rw [Replay.foldl_same (act_idem m.config.aerospike r) hone, if_neg (List.cons_ne_nil r rs)]
    rfl

/-- **Successive migrations** of sources that each hold still while they are
migrated leave the merged records, however often a migration was cut off and
whatever the settings of each run. -/
theorem successive {m : Migrator F} (hret : TransformsReturn m)
    {srcs : List (List (RedisRecord F))} (hq : ∀ src ∈ srcs, Quiescent m src) {S₀ S : Store F}
    (h : Migrations m S₀ srcs S) (k : AerospikeKey) :
    S k = merged m.config.aerospike.recordExistsPolicy (srcs.filterMap (m.recordFor k)) (S₀ k) := by
  rw [← foldl_merged]
  induction h with
  | none => rfl
  | @next srcs src src' S S' S'' workers queueSize writeBatchSize _ hattempts hperm hfull ih =>
    have hsrc := hq src (List.mem_append_right _ List.mem_cons_self)
    obtain ⟨x, hx, hd, hraised, rfl⟩ := hfull
    have hrun : x.store = m.oneByOne S' src :=
      store_of_full (m := m.tuned workers queueSize writeBatchSize) hret
        ⟨hsrc.repeats, hsrc.apart⟩ hperm hx hd hraised
    have hbefore := ih fun src hmem => hq src (List.mem_append_left _ hmem)
    rw [hrun, (hattempts.partly hsrc).oneByOne hsrc, oneByOne_at hsrc, hbefore,
      List.filterMap_append, List.foldl_append]
    cases hr : m.recordFor k src with
    | none => simp [hr]
    | some r => simp [hr]

end

/-- Hashes by bins, one worker. -/
def binwise : Migrator String :=
  .ofConfig { workers := 1, queueSize := 0, writeBatchSize := 1, hashStrategy := .fieldBins }

/-- The hash `h` with one field. -/
def field (name value : String) : RedisRecord String :=
  { key := .str "h", type := "hash"
    value := .hash (.ofPairs [(name.toByteArray, value.toByteArray)]) }

theorem binwise_leaves : ∃ S₁ S₂ : Store String,
    (binwise.tuned 1 0 1).Leaves (fun _ => none) [field "f" "1"] S₁ ∧
      (binwise.tuned 1 0 1).Leaves S₁ [field "g" "2"] S₂ := by
  apply Exists.intro
  apply Exists.intro
  constructor
  · exact ⟨_, ⟨_, [.pipe .scan, .pipe .put, .pipe .sourceEnd, .pipe (.get 0), .prepare 0, .write 0,
      .pipe (.count 0), .pipe .putStop, .pipe (.get 0), .pipe .join], rfl,
      LTS.run_of_exec (fun _ _ _ h => h) rfl⟩, rfl, rfl, rfl⟩
  · exact ⟨_, ⟨_, [.pipe .scan, .pipe .put, .pipe .sourceEnd, .pipe (.get 0), .prepare 0, .write 0,
      .pipe (.count 0), .pipe .putStop, .pipe (.get 0), .pipe .join], rfl,
      LTS.run_of_exec (fun _ _ _ h => h) rfl⟩, rfl, rfl, rfl⟩

/-- A field that is gone from the hash stays as a bin. -/
theorem successive_stale_bin :
    ∃ S, Migrations binwise (fun _ => none) [[field "f" "1"], [field "g" "2"]] S ∧
      binsOf (S ("test", "redis", .str "h")) "f" = some (.int 1) ∧
      binsOf (S ("test", "redis", .str "h")) "g" = some (.int 2) := by
  have hone : ∀ a : RedisRecord String, Quiescent binwise [a] := by
    intro a
    refine ⟨fun b hb c hc _ => ?_, fun b hb c hc hne => absurd ?_ hne⟩
    · rw [List.mem_singleton.1 hb, List.mem_singleton.1 hc]
    · rw [List.mem_singleton.1 hb, List.mem_singleton.1 hc]
  obtain ⟨S₁, S₂, h₁, h₂⟩ := binwise_leaves
  have hrun : Migrations binwise (fun _ => none) [[field "f" "1"], [field "g" "2"]] S₂ :=
    (Migrations.none.next .start (.refl _) h₁).next .start (.refl _) h₂
  have hS := successive (m := binwise) (transformsReturn_ofConfig _)
    (by simpa using ⟨hone _, hone _⟩) hrun ("test", "redis", .str "h")
  refine ⟨S₂, hrun, ?_, ?_⟩
  · rw [hS]
    decide +kernel
  · rw [hS]
    decide +kernel

end RedisToAerospike.L5
