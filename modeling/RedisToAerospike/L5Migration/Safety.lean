import RedisToAerospike.L5Migration.LastWrite

/-!
# The store while a migration runs

At any moment, and whatever raises: records do not change but by whole writes.

* `Follows`: what may become of the record under a key, by policy.
* `untorn`: this is all that becomes of it between any two moments of a run.
-/
namespace RedisToAerospike.L5
open L1 L2 L3 L4

section
variable {F : Type} [PyFloat F]

/-! ## The log grows -/

variable [OrderedLists F]

theorem Happens.log {m : Migrator F} {x x' : Sys F} {e : Event F} (h : Happens m x e x') :
    ∃ ps, x'.log = x.log ++ ps := by
  cases h with
  | pipe hl hs => exact ⟨[], (List.append_nil _).symm⟩
  | prepare hi hp => exact ⟨[], (List.append_nil _).symm⟩
  | write hi hp => exact ⟨_, rfl⟩
  | sub hi hp hr hw => exact ⟨_, rfl⟩
  | many hi hp hr => exact ⟨[], (List.append_nil _).symm⟩

theorem log_of_run {m : Migrator F} {S₀ : Store F} {src : List (RedisRecord F)} {x x' : Sys F}
    {es : List (Event F)} (h : (migration m S₀ src).Run x es x') : ∃ ps, x'.log = x.log ++ ps := by
  refine h.induction (P := fun y => ∃ ps, y.log = x.log ++ ps) ⟨[], (List.append_nil _).symm⟩ ?_
  intro a e b _ hps hst
  obtain ⟨ps, hps⟩ := hps
  obtain ⟨qs, hqs⟩ := (step_happens hst).log
  exact ⟨ps ++ qs, by rw [hqs, hps, List.append_assoc]⟩

/-- A record in the log was prepared of one that has been scanned. -/
theorem mem_seen {m : Migrator F} {S₀ : Store F} {src : List (RedisRecord F)} {x : Sys F}
    (h : (migration m S₀ src).Reachable x) {k : AerospikeKey} {r : AerospikeRecord F}
    (hr : r ∈ occurrences m.config.aerospike (x.log.map Prod.snd) k) :
    r ∈ occurrences m.config.aerospike (m.records x.pipe.seen) k := by
  obtain ⟨hmem, hk⟩ := mem_occurrences.1 hr
  obtain ⟨p, hp, rfl⟩ := List.mem_map.1 hmem
  have hpipe := pipe_reachable h
  have hord := order_reachable _ hpipe.of_restrict
  obtain ⟨a, ha⟩ := (logged_reachable x h).prepared p hp
  have hout : Prepared.record p.2 = m.prepare a := outs_allowed _ hpipe p.1 _ ha
  have htag : a ∈ Pool.tagged x.pipe.taken p.1 := by
    rw [hord.history p.1]
    exact List.mem_append_left _ (List.mem_map_of_mem ha)
  have hseen : a ∈ x.pipe.seen := by
    rw [← hord.order]
    obtain ⟨q, hq, rfl⟩ := List.mem_map.1 htag
    exact List.mem_append_left _
      (List.mem_append_left _ (List.mem_map_of_mem (List.mem_of_mem_filter hq)))
  exact mem_occurrences.2 ⟨List.mem_filterMap.2 ⟨a, hseen, recordOf_eq_some.2 hout.symm⟩, hk⟩

/-! ## Whole writes -/

/-- What writes of some of `rs` may make of a record. Under `UPDATE` the last
of them is there as a whole, and no bin is dropped. -/
def Follows (config : AerospikeConfig) (rs : List (AerospikeRecord F))
    (old new : Option (Entry F)) : Prop :=
  new = old ∨
    match config.recordExistsPolicy with
    | .createOnly => old = none ∧ ∃ r ∈ rs, new = some (entryOf r)
    | .replace => ∃ r ∈ rs, new = some (entryOf r)
    | .update => ∃ e, new = some e ∧
        (∃ r ∈ rs, e.ttl = policyTtl r ∧ ∀ b v, written r b = some v → e.bins b = some v) ∧
        ∀ b, e.bins b = binsOf old b ∨ ∃ r ∈ rs, ∃ v, written r b = some v ∧ e.bins b = some v

omit [PyFloat F] in
/-- One write more. -/
theorem Follows.act {config : AerospikeConfig} {rs : List (AerospikeRecord F)}
    {old new : Option (Entry F)} (h : Follows config rs old new) {r : AerospikeRecord F}
    (hr : r ∈ rs) : Follows config rs old (act config r new) := by
  unfold Follows at h ⊢
  cases hp : config.recordExistsPolicy with
  | replace => exact .inr ⟨r, hr, act_replace hp r new⟩
  | createOnly =>
    rw [hp] at h
    cases new with
    | some e => rw [act_createOnly hp]; exact h
    | none =>
      rcases h with hold | ⟨-, r', -, he⟩
      · exact .inr ⟨hold.symm, r, hr, rfl⟩
      · cases he
  | update =>
    rw [hp] at h
    rw [act_update hp]
    have hwritten : ∀ b v, written r b = some v → (written r b).or (binsOf new b) = some v := by
      intro b v hv
      rw [hv, Option.some_or]
    refine .inr ⟨_, rfl, ⟨r, hr, rfl, hwritten⟩, fun b => ?_⟩
    cases hv : written r b with
    | some v => exact .inr ⟨r, hr, v, hv, hwritten b v hv⟩
    | none =>
      -- the bin is as it was before this write
      dsimp only
      rw [hv, Option.none_or]
      rcases h with rfl | ⟨e, rfl, -, hbins⟩
      · exact .inl rfl
      · exact hbins b

omit [PyFloat F] in
theorem Follows.foldl {config : AerospikeConfig} {rs ws : List (AerospikeRecord F)}
    (hws : ∀ w ∈ ws, w ∈ rs) {old new : Option (Entry F)} (h : Follows config rs old new) :
    Follows config rs old (ws.foldl (fun v r => L3.act config r v) new) := by
  induction ws generalizing new with
  | nil => exact h
  | cons w ws ih =>
    exact ih (fun v hv => hws v (List.mem_cons_of_mem _ hv)) (h.act (hws w List.mem_cons_self))

/-- **No torn writes.** Between any two moments of a run the record under a key
changes by whole writes of scanned records that fit, as the policy allows. In
particular a key that no scanned record goes to stays as it is. -/
theorem untorn {m : Migrator F} {S₀ : Store F} {src : List (RedisRecord F)} {x x' : Sys F}
    {es : List (Event F)} (h : (migration m S₀ src).Reachable x)
    (hrun : (migration m S₀ src).Run x es x') (k : AerospikeKey) :
    Follows m.config.aerospike (occurrences m.config.aerospike (m.records x'.pipe.seen) k)
      (x.store k) (x'.store k) := by
  have h' := h.run hrun
  obtain ⟨ps, hps⟩ := log_of_run hrun
  have hstore : x'.store k = (occurrences m.config.aerospike (ps.map Prod.snd) k).foldl
      (fun v r => act m.config.aerospike r v) (x.store k) := by
    rw [store_at h' k, store_at h k, hps, List.map_append, occurrences_append, List.foldl_append]
  rw [hstore]
  refine Follows.foldl (fun r hr => mem_seen h' ?_) (.inl rfl)
  rw [hps, List.map_append, occurrences_append]
  exact List.mem_append_right _ hr

end

/-- Two reads of one key through two workers: after the first write and after
the second. -/
theorem untorn_replacing :
    ∃ x x' : Sys String, binsOf (x.store ("test", "redis", .str "k")) "value" = some (.str "new") ∧
      binsOf (x'.store ("test", "redis", .str "k")) "value" = some (.str "old") ∧
      Follows (replacing 2).config.aerospike
        (occurrences (replacing 2).config.aerospike ((replacing 2).records x'.pipe.seen)
          ("test", "redis", .str "k"))
        (x.store ("test", "redis", .str "k")) (x'.store ("test", "redis", .str "k")) := by
  obtain ⟨x, hx, hbin, x', hrun, hbin'⟩ : ∃ x : Sys String, (migration (replacing 2) (fun _ => none)
      [valued "old", valued "new"]).Reachable x ∧
        binsOf (x.store ("test", "redis", .str "k")) "value" = some (.str "new") ∧
        ∃ x', (migration (replacing 2) (fun _ => none) [valued "old", valued "new"]).Run x
          [.write 0] x' ∧
          binsOf (x'.store ("test", "redis", .str "k")) "value" = some (.str "old") := by
    apply Exists.intro
    refine ⟨⟨_, [.pipe .scan, .pipe .put, .pipe (.get 0), .pipe .scan, .pipe .put, .pipe (.get 1),
      .prepare 0, .prepare 1, .write 1], rfl, LTS.run_of_exec (fun _ _ _ h => h) rfl⟩, rfl, ?_⟩
    exact ⟨_, LTS.run_of_exec (fun _ _ _ h => h) rfl, rfl⟩
  exact ⟨x, x', hbin, hbin', untorn hx hrun _⟩

end RedisToAerospike.L5
