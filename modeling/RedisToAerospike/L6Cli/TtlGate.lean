import RedisToAerospike.L6Cli.ServerInfo

/-!
# The TTL gate (`cli.py`)

Before a run `main` asks both servers: keys that expire must not go to a
namespace whose server never expires them. The gate looks up the database of
`config.db` in the nodes that `_info_nodes` makes of the reply, and takes the
first text of the first node that has one.

* `expiresIn_sections`: the sum over the nodes.
* `extractResponse_replies`: which text is parsed.
* `gate_iff`: the gate stops the run exactly where it looks at the database
  that is scanned and at an answer.
* `url_database_missed`: a URL of another database.
-/
namespace RedisToAerospike.L6
open L1 Fallible Partition

section
variable {F : Type} [PyNumber F]

/-- mirrors src/redis_to_aerospike/cli.py:581-604 -/
def ttlMigrationBlockedReason (redisInfo : Attrs F) (aerospikeInfo : Option AerospikeServerInfo) :
    Option String :=
  match aerospikeInfo with
  | none => none
  | some info =>
    if info.nsupPeriod ≠ some 0 then none
    else
      match PyVal.get redisInfo "expires" with
      | .none => none
      | expires =>
        match expires.toInt with
        | .error _ => none
        | .ok n =>
          if n ≤ 0 then none
          else
            some ("Records with TTL cannot be inserted into Aerospike namespace '" ++
              info.namespace_ ++ "': TTL expiration is disabled (nsup-period is 0), so the server " ++
              "will never expire keys by TTL. Redis reports " ++ toString n ++
              " key(s) with an expiry. Set a non-zero nsup-period on the Aerospike namespace to " ++
              "enable expiration, or migrate only keys without TTL.")

/-- The record size; the warning is not modelled.
mirrors src/redis_to_aerospike/cli.py:607-644 -/
def applyServerInfo (config : RunConfig F) (aerospikeInfo : Option AerospikeServerInfo) :
    RunConfig F :=
  match aerospikeInfo.bind (·.maxRecordSize) with
  | none => config
  | some serverMax =>
    if 0 < serverMax then
      { config with aerospike := { config.aerospike with maxRecordSize := serverMax } }
    else config

/-- mirrors src/redis_to_aerospike/aerospike_sink.py:206-220 -/
def sinkServerInfo (config : RunConfig F) :
    Except PyErr (PyVal F) → Option AerospikeServerInfo
  | .error _ => none
  | .ok result => some (.parse result config.aerospike.namespace_)

/-- The two servers and the migrator as `main` meets them. -/
structure World (F : Type) [PyNumber F] where
  ping : Except PyErr Unit
  connect : Except PyErr Unit
  client : InfoClient F
  infoAll : Except PyErr (PyVal F)
  /-- The errors of a run. -/
  run : RunConfig F → Nat

/-- The exit code, and whether a migrator was run. -/
structure Outcome where
  code : Int
  migrated : Bool
  deriving DecidableEq

/-- `main` once it has its configuration.
mirrors src/redis_to_aerospike/cli.py:647-710 -/
def main (dryRun : Bool) (config : RunConfig F) (w : World F) : Outcome :=
  match w.ping, w.connect with
  | .error _, _ | _, .error _ => ⟨2, false⟩
  | .ok _, .ok _ =>
    let redisInfo := serverInfo config.redis w.client
    let aerospikeInfo := sinkServerInfo config w.infoAll
    let config := applyServerInfo config aerospikeInfo
    match ttlMigrationBlockedReason redisInfo aerospikeInfo with
    | some _ => ⟨2, false⟩
    | none =>
      if dryRun then ⟨0, false⟩
      else ⟨if w.run config = 0 then 0 else 1, true⟩

end

/-! ## Replies -/

/-- The keyspace section of `INFO`: counters by database. -/
abbrev KeyspaceSection := Dict String (Dict String Int)

/-- `INFO keyspace`: the cluster client gives one section, or one by node. -/
inductive KeyspaceReply where
  | whole (s : KeyspaceSection)
  | perNode (nodes : Dict String KeyspaceSection)

def KeyspaceReply.sections : KeyspaceReply → List KeyspaceSection
  | .whole s => [s]
  | .perNode nodes => nodes.values

def expiresOf (s : KeyspaceSection) (db : Int) : Option Int :=
  (s.get? ("db" ++ toString db)).bind (·.get? "expires")

/-- The keys with an expiry that a reply reports in a database. -/
def KeyspaceReply.expiring (reply : KeyspaceReply) (db : Int) : Int :=
  (reply.sections.map fun s => (expiresOf s db).getD 0).sum

/-- `info_all`: an error or none, and a response, by node. -/
abbrev NodeReplies := Dict String (Option String × Option String)

/-- The response of the first node that answered without error. -/
def firstAnswer (nodes : NodeReplies) : Option String :=
  (nodes.values.find? fun p => p.1 = none).bind (·.2)

/-- The first error that says anything, of the nodes before. -/
def firstError (nodes : NodeReplies) : Option String :=
  ((nodes.values.takeWhile fun p => p.1 ≠ none).filterMap (·.1)).find? (· ≠ "")

def nsupOf (text : String) : Option Int := asInt (infoPairs text) ["nsup-period"]

section
variable {F : Type}

def rawStats (stats : Dict String Int) : PyVal F :=
  .dict (stats.mapVals fun _ n => .int n).entries

def rawSection (s : KeyspaceSection) : PyVal F :=
  .dict (s.mapVals fun _ stats => rawStats stats).entries

def KeyspaceReply.raw : KeyspaceReply → PyVal F
  | .whole s => rawSection s
  | .perNode nodes => .dict (nodes.mapVals fun _ s => rawSection s).entries

def rawText (s : Option String) : PyVal F := s.elim .none .str

def rawReplies (nodes : NodeReplies) : PyVal F :=
  .dict (nodes.mapVals fun _ p => .list [rawText p.1, rawText p.2]).entries

/-! ## The number of the gate -/

/-- The nodes of sections. -/
theorem dictOf_rawSection (s : KeyspaceSection) :
    dictOf (rawSection s : PyVal F) = some (s.mapVals fun _ stats => rawStats stats) := by
  rw [rawSection, dictOf, Dict.ofPairs_entries]

theorem countNode_section (s : KeyspaceSection) (db : Int) (found : Option Int) :
    countNode ("db" ++ toString db) found
        (s.mapVals fun _ stats => rawStats stats : Attrs F) =
      .ok ((expiresOf s db).elim found fun n => some (found.getD 0 + n)) := by
  unfold countNode expiresOf
  rw [Dict.get?_mapVals]
  cases s.get? ("db" ++ toString db) with
  | none => rfl
  | some stats =>
    rw [Option.map_some, rawStats]
    dsimp only
    rw [Dict.ofPairs_entries, Dict.get?_mapVals, Option.bind_some]
    cases stats.get? "expires" <;> rfl

/-- Over sections the loop sums what they report. -/
theorem expiresIn_sections (ss : List KeyspaceSection) (db : Int) (found : Option Int) :
    ∃ o, (ss.map fun s => (s.mapVals fun _ stats => rawStats stats : Attrs F)).foldlM
        (countNode ("db" ++ toString db)) found = .ok o ∧
      o.getD 0 = found.getD 0 + (ss.map fun s => (expiresOf s db).getD 0).sum := by
  induction ss generalizing found with
  | nil => exact ⟨found, rfl, by simp⟩
  | cons s ss ih =>
    obtain ⟨o, ho, hsum⟩ := ih ((expiresOf s db).elim found fun n => some (found.getD 0 + n))
    refine ⟨o, ?_, ?_⟩
    · rw [List.map_cons, List.foldlM_cons, countNode_section]
      exact ho
    · rw [hsum, List.map_cons, List.sum_cons]
      cases expiresOf s db with
      | none => simp
      | some n => simp [add_assoc]

/-- Databases themselves are no nodes. -/
theorem expiresIn_stats (ds : List (Dict String Int)) (db : String) (found : Option Int) :
    (ds.map fun d => (d.mapVals fun _ n => .int n : Attrs F)).foldlM (countNode db) found =
      .ok found := by
  induction ds with
  | nil => rfl
  | cons d ds ih =>
    have hnode : countNode db found (d.mapVals fun _ n => .int n : Attrs F) = .ok found := by
      unfold countNode
      rw [Dict.get?_mapVals]
      cases d.get? db <;> rfl
    rw [List.map_cons, List.foldlM_cons, hnode]
    exact ih

/-- The cluster client's reply is taken apart wherever its values are dicts. -/
theorem infoNodes_dicts {V : Type} {d : Dict String V} {f : V → PyVal F} {g : V → Attrs F}
    (hf : ∀ v, dictOf (f v) = some (g v)) (h : d.entries ≠ []) :
    infoNodes true (.dict (d.mapVals fun _ => f).entries) = d.values.map g := by
  have hcond : (true && !(d.mapVals fun _ => f).entries.isEmpty &&
      (d.mapVals fun _ => f).entries.all fun p => (dictOf p.2).isSome) = true := by
    simp [Dict.mapVals, hf, h]
  refine (if_pos hcond).trans ?_
  simp [Dict.mapVals, Dict.values, List.filterMap_map, Function.comp_def, hf]

theorem expiresIn_empty (db : String) :
    expiresIn db (infoNodes true (.dict [] : PyVal F)) = .ok none := rfl

/-- What the loop of the gate makes of a reply of its client. -/
theorem expiresIn_reply {cluster : Bool} {reply : KeyspaceReply} (db : Int)
    (hclient : cluster = true ∨ ∃ s, reply = .whole s) :
    ∃ o, expiresIn ("db" ++ toString db) (infoNodes cluster (reply.raw : PyVal F)) = .ok o ∧
      (0 < o.getD 0 ↔ 0 < reply.expiring db ∧
        (cluster = true → ∃ nodes, reply = .perNode nodes)) := by
  cases reply with
  | whole s =>
    cases cluster with
    | false =>
      have hnodes : infoNodes false ((KeyspaceReply.whole s).raw : PyVal F) =
          [s].map fun s => (s.mapVals fun _ stats => rawStats stats) := by
        show [Dict.ofPairs _] = _
        rw [Dict.ofPairs_entries]
        rfl
      obtain ⟨o, ho, hsum⟩ := expiresIn_sections (F := F) [s] db none
      rw [hnodes]
      refine ⟨o, ho, ?_⟩
      rw [hsum]
      simp [KeyspaceReply.expiring, KeyspaceReply.sections]
    | true =>
      -- the databases are taken for nodes
      have hnone : expiresIn ("db" ++ toString db)
          (infoNodes true ((KeyspaceReply.whole s).raw : PyVal F)) = .ok none := by
        by_cases he : s.entries = []
        · have hraw : ((KeyspaceReply.whole s).raw : PyVal F) = .dict [] := by
            simp [KeyspaceReply.raw, rawSection, Dict.mapVals, he]
          rw [hraw]
          exact expiresIn_empty _
        · have hstats : ∀ stats : Dict String Int, dictOf (rawStats stats : PyVal F) =
              some (stats.mapVals fun _ n => .int n) := by
            intro stats
            rw [rawStats, dictOf, Dict.ofPairs_entries]
          rw [KeyspaceReply.raw, rawSection, infoNodes_dicts hstats he]
          exact expiresIn_stats _ _ none
      refine ⟨none, hnone, ?_⟩
      simp
  | perNode nodes =>
    have hcluster : cluster = true := by
      rcases hclient with h | ⟨s, h⟩
      · exact h
      · cases h
    subst hcluster
    by_cases he : nodes.entries = []
    · have hraw : ((KeyspaceReply.perNode nodes).raw : PyVal F) = .dict [] := by
        simp [KeyspaceReply.raw, Dict.mapVals, he]
      refine ⟨none, ?_, ?_⟩
      · rw [hraw]
        exact expiresIn_empty _
      · simp [KeyspaceReply.expiring, KeyspaceReply.sections, Dict.values, he]
    · obtain ⟨o, ho, hsum⟩ := expiresIn_sections (F := F) nodes.values db none
      refine ⟨o, ?_, ?_⟩
      · rw [KeyspaceReply.raw, infoNodes_dicts dictOf_rawSection he]
        exact ho
      · rw [hsum]
        simp [KeyspaceReply.expiring, KeyspaceReply.sections]

/-! ## The text of the gate -/

theorem responseOf_reply (p : Option String × Option String) :
    responseOf (.list [rawText p.1, rawText p.2] : PyVal F) =
      (p.1.or p.2).filter (· ≠ "") := by
  obtain ⟨e, r⟩ := p
  cases e <;> cases r <;> rfl

/-- The first text of the nodes: an error before the first answer, if one says
anything. -/
theorem firstText {ps : List (Option String × Option String)} {text : String}
    (h : (ps.find? fun p => p.1 = none).bind (·.2) = some text) (hne : text ≠ "") :
    (ps.findSome? fun p => (p.1.or p.2).filter (· ≠ "")) =
      some ((((ps.takeWhile fun p => p.1 ≠ none).filterMap (·.1)).find? (· ≠ "")).getD text) := by
  induction ps with
  | nil => cases h
  | cons p ps ih =>
    obtain ⟨e, r⟩ := p
    cases e with
    | none =>
      -- the first answer
      have hr : r = some text := by simpa using h
      subst hr
      simp [hne]
    | some e =>
      have htail := ih (by simpa using h)
      by_cases hempty : e = ""
      · subst hempty
        simpa using htail
      · simp [hempty]

theorem extractResponse_replies {nodes : NodeReplies} {text : String}
    (h : firstAnswer nodes = some text) (hne : text ≠ "") :
    extractResponse (rawReplies nodes : PyVal F) = some ((firstError nodes).getD text) := by
  have hvalues : extractResponse (rawReplies nodes : PyVal F) =
      nodes.values.findSome? fun p => (p.1.or p.2).filter (· ≠ "") := by
    simp only [rawReplies, extractResponse, Dict.mapVals, Dict.values, List.map_map,
      List.findSome?_map]
    refine congrArg (nodes.entries.findSome? ·) (funext fun p => ?_)
    exact responseOf_reply p.2
  rw [hvalues]
  exact firstText h hne

end

/-! ## The gate -/

section
variable {F : Type} [PyNumber F]

/-- The gate stops a run where both numbers say so. -/
theorem blocked_iff (redisInfo : Attrs F) (info : AerospikeServerInfo) {o : Option Int}
    (ho : PyVal.get redisInfo "expires" = o.elim .none .int) :
    (ttlMigrationBlockedReason redisInfo (some info)).isSome = true ↔
      0 < o.getD 0 ∧ info.nsupPeriod = some 0 := by
  unfold ttlMigrationBlockedReason
  dsimp only
  by_cases hn : info.nsupPeriod = some 0
  · rw [if_neg (not_not.2 hn), ho]
    cases o with
    | none => simp
    | some n =>
      by_cases hpos : n ≤ 0
      · simp [PyVal.toInt, hpos]
      · simp [PyVal.toInt, hpos, hn]
        omega
  · rw [if_pos hn]
    simp [hn]

/-- `main` without `--dry-run`, both servers up. -/
theorem main_stops_iff {config : RunConfig F} {w : World F} (hping : w.ping = .ok ())
    (hconnect : w.connect = .ok ()) :
    main false config w = ⟨2, false⟩ ↔
      (ttlMigrationBlockedReason (serverInfo config.redis w.client)
        (sinkServerInfo config w.infoAll)).isSome = true := by
  unfold main
  rw [hping, hconnect]
  dsimp only
  cases ttlMigrationBlockedReason (serverInfo config.redis w.client)
      (sinkServerInfo config w.infoAll) <;> simp

/-- The gate looks where the scan reads: `config.db` is the database that is
scanned, or has keys that expire as well, a cluster's reply is by node, and no
error stands in front of the first answer, unless it says the same. -/
structure GateSees (urlDb : String → Int) (redis : RedisConfig F) (reply : KeyspaceReply)
    (nodes : NodeReplies) : Prop where
  db : redis.db = connectedDb urlDb (redisClientParams redis) ∨ 0 < reply.expiring redis.db
  perNode : redis.cluster = true → ∃ ns, reply = .perNode ns
  noError : ∀ e, firstError nodes = some e → nsupOf e = some 0

omit [PyNumber F] in
/-- With a host and a database of its own, and no cluster, only an error in
front of the first answer is in the way. -/
theorem gateSees_discrete {urlDb : String → Int} {redis : RedisConfig F} {reply : KeyspaceReply}
    {nodes : NodeReplies} (hurl : nonEmpty redis.url = false) (hcluster : redis.cluster = false) :
    GateSees urlDb redis reply nodes ↔ ∀ e, firstError nodes = some e → nsupOf e = some 0 := by
  refine ⟨fun h => h.noError, fun h => ⟨.inl ?_, fun hc => ?_, h⟩⟩
  · simp [connectedDb_eq, hurl, hcluster]
  · rw [hcluster] at hc
    cases hc

theorem nsupOf_empty : nsupOf "" = none := by decide

/-- Where keys of the scanned database expire and the first answer says that
the namespace never expires them, `main` returns 2 and runs no migrator
exactly where the gate sees both. -/
theorem gate_iff {urlDb : String → Int} {config : RunConfig F} {w : World F}
    {reply : KeyspaceReply} {nodes : NodeReplies} (hping : w.ping = .ok ())
    (hconnect : w.connect = .ok ()) (hreply : w.client.info "keyspace" = .ok reply.raw)
    (hclient : config.redis.cluster = true ∨ ∃ s, reply = .whole s)
    (hinfo : w.infoAll = .ok (rawReplies nodes))
    (hkeys : 0 < reply.expiring (connectedDb urlDb (redisClientParams config.redis)))
    (hnsup : ∃ text, firstAnswer nodes = some text ∧ nsupOf text = some 0) :
    main false config w = ⟨2, false⟩ ↔ GateSees urlDb config.redis reply nodes := by
  obtain ⟨text, hanswer, hzero⟩ := hnsup
  have hne : text ≠ "" := by
    rintro rfl
    rw [nsupOf_empty] at hzero
    cases hzero
  obtain ⟨o, ho, hpos⟩ := expiresIn_reply (F := F) config.redis.db hclient
  have hexpires := expires_serverInfo hreply ho
  have hsink : sinkServerInfo config w.infoAll =
      some (.parse (rawReplies nodes : PyVal F) config.aerospike.namespace_) := by
    rw [hinfo]
    rfl
  have hperiod : (AerospikeServerInfo.parse (rawReplies nodes : PyVal F)
      config.aerospike.namespace_).nsupPeriod = nsupOf ((firstError nodes).getD text) := by
    show asInt (infoPairs ((extractResponse (rawReplies nodes : PyVal F)).getD "")) _ = _
    rw [extractResponse_replies hanswer hne]
    rfl
  rw [main_stops_iff hping hconnect, hsink, blocked_iff _ _ hexpires, hpos, hperiod]
  have herror : nsupOf ((firstError nodes).getD text) = some 0 ↔
      ∀ e, firstError nodes = some e → nsupOf e = some 0 := by
    cases firstError nodes with
    | none => simp [hzero]
    | some e => simp
  rw [herror]
  constructor
  · rintro ⟨⟨hdb, hnode⟩, he⟩
    exact ⟨.inr hdb, hnode, he⟩
  · rintro ⟨hdb, hnode, he⟩
    refine ⟨⟨?_, hnode⟩, he⟩
    rcases hdb with hsame | hdb
    · rw [hsame]
      exact hkeys
    · exact hdb

end

/-- The database of `redis://host:port/N`, 0 where the path is absent. -/
def pathDb (url : String) : Int :=
  match cut [':', '/', '/'] url.toList with
  | none => 0
  | some (_, rest) => (Decimal.parseInt ((rest.dropWhile (· ≠ '/')).drop 1)).getD 0

/-- Database 2 by `redis.db`, behind a node that failed with no text. -/
theorem gate_stops :
    let config : RunConfig String := { redis := { db := 2 } }
    let reply : KeyspaceReply := .whole (.ofPairs [("db2", .ofPairs [("keys", 5), ("expires", 3)])])
    let nodes : NodeReplies :=
      .ofPairs [("BB9", some "", none), ("BB8", none, some "ns=test;nsup-period=0")]
    let w : World String :=
      { ping := .ok (), connect := .ok (), client := ⟨.ok (.int 5), fun _ => .ok reply.raw⟩
        infoAll := .ok (rawReplies nodes), run := fun _ => 0 }
    main false config w = ⟨2, false⟩ := by
  intro config reply nodes w
  have hkeys : 0 < reply.expiring (connectedDb pathDb (redisClientParams config.redis)) := by
    decide
  have hnsup : ∃ text, firstAnswer nodes = some text ∧ nsupOf text = some 0 :=
    ⟨_, rfl, by decide⟩
  refine (gate_iff rfl rfl rfl (.inr ⟨_, rfl⟩) rfl hkeys hnsup).2 ((gateSees_discrete rfl rfl).2 ?_)
  intro e he
  cases he

/-- `redis://r1:6379/2`: the scan reads database 2, the gate looks at 0. -/
theorem url_database_missed :
    let config : RunConfig String := { redis := { url := some "redis://r1:6379/2" } }
    let reply : KeyspaceReply := .whole (.ofPairs [("db2", .ofPairs [("keys", 5), ("expires", 3)])])
    let nodes : NodeReplies := .ofPairs [("BB9", none, some "ns=test;nsup-period=0")]
    let w : World String :=
      { ping := .ok (), connect := .ok (), client := ⟨.ok (.int 5), fun _ => .ok reply.raw⟩
        infoAll := .ok (rawReplies nodes), run := fun _ => 0 }
    reply.expiring (connectedDb pathDb (redisClientParams config.redis)) = 3 ∧
      (firstAnswer nodes).bind nsupOf = some 0 ∧ main false config w = ⟨0, true⟩ := by
  intro config reply nodes w
  exact ⟨by decide, by decide, by decide⟩

end RedisToAerospike.L6
