import RedisToAerospike.Core.Partition
import RedisToAerospike.L6Cli.Config

/-!
# `--set-route` tokens (`cli.py`, `_parse_set_route_cli`)

A token is `PATTERN=SET`, `PATTERN=SET=hash_strategy` or
`PATTERN=SET=map_bin=BIN`. It is split at its first three `=` and handed on as
the mapping that a YAML document would hold.

* `parseSetRoute_buildable`: what the routes of either front end look like.
* `parse_render`: a route that a token can express comes back from its token.
* `set_route_round_trip`: so do the routes of YAML, and those of tokens.
-/
namespace RedisToAerospike.L6
open L1 Partition

def argumentTypeError (msg : String) : PyErr := ⟨"ArgumentTypeError", msg⟩

section
variable (F : Type)

/-- The mapping of a token; the options stand there where they are not blank. -/
def routeMapping (pattern destination : String) (hashStrategy valueBin : Option String) :
    List (String × PyVal F) :=
  [("pattern", .str pattern), ("destination", .str destination)] ++
    (hashStrategy.map fun hs => ("hash_strategy", .str hs)).toList ++
    (valueBin.map fun vb => ("value_bin", .str vb)).toList

/-- `_parse_set_routes([mapping])[0]` -/
def parseOneRoute (mapping : List (String × PyVal F)) : Except PyErr AerospikeSetRoute :=
  match parseSetRoutes (.list [.dict mapping]) with
  | .error exc => .error exc
  | .ok [] => .error ⟨"IndexError", none⟩
  | .ok (route :: _) => .ok route

/-- The third segment, unless it is blank. -/
def strategySegment : List String → Option String
  | [] => none
  | segment :: _ => if stripText segment = "" then none else some (stripText segment)

/-- The segments of a token.
mirrors src/redis_to_aerospike/cli.py:128-148 -/
def parseSegments : List String → Except PyErr AerospikeSetRoute
  | pattern :: destination :: options =>
    if stripText pattern = "" ∨ stripText destination = "" then
      .error (argumentTypeError "PATTERN and SET_NAME must be non-empty")
    else
      let hashStrategy := strategySegment options
      match options with
      | [_, segment] =>
        if hashStrategy ≠ some HashStrategy.mapBin.value then
          .error (argumentTypeError ("four-token --set-route requires the third segment to be " ++
            "map_bin before the map bin name"))
        else
          let valueBin := stripText segment
          if valueBin = "" then
            .error (argumentTypeError ("four-token --set-route requires a non-empty map bin name " ++
              "as the fourth segment"))
          else parseOneRoute F (routeMapping F pattern destination hashStrategy (some valueBin))
      | _ => parseOneRoute F (routeMapping F pattern destination hashStrategy none)
  | _ => .error (argumentTypeError "PATTERN and SET_NAME must be non-empty")

/-- mirrors src/redis_to_aerospike/cli.py:121-148 -/
def parseSetRouteCli (token : String) : Except PyErr AerospikeSetRoute :=
  if '=' ∉ token.toList then
    .error (argumentTypeError ("expected PATTERN=SET_NAME, optionally PATTERN=SET=hash_strategy " ++
      "or PATTERN=SET=map_bin=CUSTOM_BIN"))
  else parseSegments F ((splitAtMost '=' 3 token.toList).map String.ofList)

end

/-! ## Stripped texts -/

/-- What `str.strip()` drops. -/
def blank (c : Char) : Bool := Decimal.isSpace c || (0x1C ≤ c.toNat && c.toNat ≤ 0x1F)

theorem stripText_eq (s : String) : stripText s = String.ofList (trim blank s.toList) := rfl

@[simp] theorem stripText_stripText (s : String) : stripText (stripText s) = stripText s := by
  rw [stripText_eq, stripText_eq, String.toList_ofList, trim_trim]

theorem not_mem_stripText {c : Char} {s : String} (h : c ∉ s.toList) :
    c ∉ (stripText s).toList := by
  rw [stripText_eq, String.toList_ofList]
  exact fun hc => h (mem_of_mem_trim hc)

/-- A label that has been validated. -/
structure Label (s : String) : Prop where
  stripped : stripText s = s
  nonempty : s ≠ ""
  noNul : '\x00' ∉ s.toList
  fits : s.length ≤ maxAerospikeSetNameLen

theorem label_of_validate {name field s : String}
    (h : validateAerospikeSetLabel name field = .ok s) : Label s ∧ s = stripText name := by
  unfold validateAerospikeSetLabel at h
  dsimp only at h
  split at h
  · cases h
  · rename_i hne
    split at h
    · cases h
    · rename_i hnul
      split at h
      · cases h
      · rename_i hlen
        cases h
        exact ⟨⟨stripText_stripText _, hne, hnul, not_lt.1 hlen⟩, rfl⟩

theorem Label.validate {s : String} (h : Label s) (field : String) :
    validateAerospikeSetLabel s field = .ok s := by
  unfold validateAerospikeSetLabel
  simp only [h.stripped, if_neg h.nonempty, if_neg h.noNul, if_neg (not_lt.2 h.fits)]

/-! ## The routes of either front end -/

/-- What a parsed route looks like. -/
structure Buildable (r : AerospikeSetRoute) : Prop where
  pattern : Label r.pattern
  destination : Label r.destination
  valueBin : ∀ b, r.valueBin = some b → stripText b = b ∧ b ≠ ""

section
variable {F : Type}

/-- The `hash_strategy` of a mapping. -/
def readStrategy : PyVal F → Except PyErr (Option HashStrategy)
  | .none | .str "" => .ok none
  | raw => some <$> raw.toHashStrategy

/-- Its `value_bin`. -/
def readValueBin (at_ : String) : PyVal F → Except PyErr (Option String)
  | .none | .str "" => .ok none
  | raw => match asStr raw with
    | none => .error (.typeError (at_ ++ ".value_bin must be a string"))
    | some s => .ok (if stripText s = "" then none else some (stripText s))

theorem readStrategy_text {v : PyVal F} (h : v ≠ .none) (h' : v ≠ .str "") :
    readStrategy v = some <$> v.toHashStrategy := by
  unfold readStrategy
  split
  · exact absurd rfl h
  · exact absurd rfl h'
  · rfl

theorem readValueBin_text {v : PyVal F} (h : v ≠ .none) (h' : v ≠ .str "") (at_ : String) :
    readValueBin at_ v =
      match asStr v with
      | none => .error (.typeError (at_ ++ ".value_bin must be a string"))
      | some s => .ok (if stripText s = "" then none else some (stripText s)) := by
  unfold readValueBin
  split
  · exact absurd rfl h
  · exact absurd rfl h'
  · rfl

/-- A mapping with both names, read part by part. -/
theorem parseSetRoute_mapping {es : List (String × PyVal F)} {pattern destination : String}
    (hp : asStr (PyVal.get (.ofPairs es) "pattern") = some pattern)
    (hd : asStr (PyVal.get (.ofPairs es) "destination") = some destination) (i : Nat) :
    let at_ := "set_routes[" ++ toString i ++ "]"
    parseSetRoute i (.dict es) =
      (readStrategy (PyVal.get (.ofPairs es) "hash_strategy") >>= fun hs =>
        readValueBin at_ (PyVal.get (.ofPairs es) "value_bin") >>= fun vb =>
          validateAerospikeSetLabel pattern (at_ ++ ".pattern") >>= fun p =>
            validateAerospikeSetLabel destination (at_ ++ ".destination") >>= fun d =>
              .ok ⟨p, d, hs, vb⟩) := by
  unfold parseSetRoute
  dsimp only
  generalize PyVal.get (Dict.ofPairs es) "hash_strategy" = v
  generalize PyVal.get (Dict.ofPairs es) "value_bin" = w
  split
  · rename_i h
    rw [h] at hp
    cases hp
  · rename_i h _
    rw [h] at hd
    cases hd
  · simp only [hp, hd]
    -- the continuation sits in every branch of the optional reads
    have hbin : ∀ k : Option String → Except PyErr AerospikeSetRoute,
        (match w with
          | .none => (pure none : Except PyErr (Option String)) >>= k
          | .str "" => (pure none : Except PyErr (Option String)) >>= k
          | raw => match asStr raw with
            | none => Except.error (.typeError ("set_routes[" ++ toString i ++ "]" ++
                ".value_bin must be a string")) >>= k
            | some s => pure (if stripText s = "" then none else some (stripText s)) >>= k) =
          readValueBin ("set_routes[" ++ toString i ++ "]") w >>= k := by
      intro k
      split
      · rfl
      · rfl
      · rename_i h h'
        rw [readValueBin_text h h']
        split
        · rfl
        · rfl
    split
    · exact hbin _
    · exact hbin _
    · rename_i h h'
      rw [readStrategy_text h h']
      congr 1
      funext hs
      exact hbin _

theorem mapping_of_parseSetRoute {i : Nat} {item : PyVal F} {r : AerospikeSetRoute}
    (h : parseSetRoute i item = .ok r) :
    ∃ es pattern destination, item = .dict es ∧
      asStr (PyVal.get (.ofPairs es) "pattern") = some pattern ∧
      asStr (PyVal.get (.ofPairs es) "destination") = some destination := by
  unfold parseSetRoute at h
  dsimp only at h
  split at h
  · rename_i es
    split at h
    · cases h
    · cases h
    · split at h
      · rename_i p d hp hd
        exact ⟨es, p, d, rfl, hp, hd⟩
      · cases h
  · cases h

/-- A bin name that was read is stripped. -/
theorem stripped_of_readValueBin {at_ : String} {v : PyVal F} {vb : Option String}
    (h : readValueBin at_ v = .ok vb) : ∀ b, vb = some b → stripText b = b ∧ b ≠ "" := by
  unfold readValueBin at h
  split at h
  · cases h; nofun
  · cases h; nofun
  · split at h
    · cases h
    · rename_i s _
      cases h
      intro b hb
      split at hb
      · cases hb
      · rename_i hne
        cases hb
        exact ⟨stripText_stripText s, hne⟩

theorem parseSetRoute_buildable {i : Nat} {item : PyVal F} {r : AerospikeSetRoute}
    (h : parseSetRoute i item = .ok r) : Buildable r := by
  obtain ⟨es, pattern, destination, rfl, hp, hd⟩ := mapping_of_parseSetRoute h
  rw [parseSetRoute_mapping hp hd] at h
  obtain ⟨hs, -, h⟩ := Fallible.bind_ok_iff.1 h
  obtain ⟨vb, hvb, h⟩ := Fallible.bind_ok_iff.1 h
  obtain ⟨p, hlabel, h⟩ := Fallible.bind_ok_iff.1 h
  obtain ⟨d, hlabel', h⟩ := Fallible.bind_ok_iff.1 h
  cases h
  exact ⟨(label_of_validate hlabel).1, (label_of_validate hlabel').1, stripped_of_readValueBin hvb⟩

theorem parseSetRoutes_buildable {raw : PyVal F} {routes : List AerospikeSetRoute}
    (h : parseSetRoutes raw = .ok routes) : ∀ r ∈ routes, Buildable r := by
  unfold parseSetRoutes at h
  split at h
  · cases h; nofun
  · intro r hr
    obtain ⟨i, hi, rfl⟩ := List.getElem_of_mem hr
    have hall := Fallible.mapM_ok_iff.1 h
    exact parseSetRoute_buildable (hall.get (hall.length_eq ▸ hi) hi)
  · cases h

/-! ## Tokens -/

theorem get_routeMapping (pattern destination : String) (hs vb : Option String) :
    PyVal.get (.ofPairs (routeMapping F pattern destination hs vb)) "pattern" = .str pattern ∧
    PyVal.get (.ofPairs (routeMapping F pattern destination hs vb)) "destination" =
      .str destination ∧
    PyVal.get (.ofPairs (routeMapping F pattern destination hs vb)) "hash_strategy" =
      hs.elim .none .str ∧
    PyVal.get (.ofPairs (routeMapping F pattern destination hs vb)) "value_bin" =
      vb.elim .none .str := by
  cases hs <;> cases vb <;> exact ⟨rfl, rfl, rfl, rfl⟩

theorem parseOneRoute_mapping (pattern destination : String) (hs vb : Option String) :
    parseOneRoute F (routeMapping F pattern destination hs vb) =
      (readStrategy (hs.elim .none .str : PyVal F) >>= fun hs =>
        readValueBin "set_routes[0]" (vb.elim .none .str : PyVal F) >>= fun vb =>
          validateAerospikeSetLabel pattern "set_routes[0].pattern" >>= fun p =>
            validateAerospikeSetLabel destination "set_routes[0].destination" >>= fun d =>
              .ok ⟨p, d, hs, vb⟩) := by
  obtain ⟨h1, h2, h3, h4⟩ := get_routeMapping (F := F) pattern destination hs vb
  have hone : ∀ item : PyVal F, (match parseSetRoutes (.list [item]) with
      | .error exc => .error exc
      | .ok [] => .error ⟨"IndexError", none⟩
      | .ok (route :: _) => .ok route : Except PyErr AerospikeSetRoute) = parseSetRoute 0 item := by
    intro item
    show (match (parseSetRoute 0 item >>= fun r => _) with
      | .error exc => .error exc
      | .ok [] => _
      | .ok (route :: _) => .ok route : Except PyErr AerospikeSetRoute) = _
    cases parseSetRoute 0 item <;> rfl
  rw [parseOneRoute, hone, parseSetRoute_mapping (by rw [h1]; rfl) (by rw [h2]; rfl), h3, h4]
  rfl

/-- The token of a route. -/
def renderSetRoute (r : AerospikeSetRoute) : String :=
  r.pattern ++ "=" ++ r.destination ++
    match r.hashStrategy, r.valueBin with
    | none, _ => ""
    | some hs, none => "=" ++ hs.value
    | some hs, some vb => "=" ++ hs.value ++ "=" ++ vb

/-- A token can express the route. -/
structure Expressible (r : AerospikeSetRoute) : Prop where
  pattern : '=' ∉ r.pattern.toList
  destination : '=' ∉ r.destination.toList
  valueBin : r.valueBin ≠ none → r.hashStrategy = some .mapBin

theorem Expressible.valueBin_none {r : AerospikeSetRoute} (h : Expressible r)
    (hs : r.hashStrategy = none) : r.valueBin = none := by
  by_contra hne
  rw [h.valueBin hne] at hs
  cases hs

/-- The segments of the token of a route. -/
def segments (r : AerospikeSetRoute) : List String :=
  r.pattern :: r.destination ::
    ((r.hashStrategy.map HashStrategy.value).toList ++ r.valueBin.toList)

theorem split_render {r : AerospikeSetRoute} (h : Expressible r) :
    (splitAtMost '=' 3 (renderSetRoute r).toList).map String.ofList = segments r := by
  obtain ⟨pattern, destination, hs, vb⟩ := r
  have hp : '=' ∉ pattern.toList := h.pattern
  have hd : '=' ∉ destination.toList := h.destination
  have hfirst : ∀ rest, splitAtMost '=' 3 (pattern.toList ++ '=' :: (destination.toList ++ rest)) =
      pattern.toList :: splitAtMost '=' 2 (destination.toList ++ rest) := fun rest =>
    splitAtMost_cons hp 2 _
  cases hs with
  | none =>
    obtain rfl : vb = none := h.valueBin_none rfl
    have htoken : (renderSetRoute ⟨pattern, destination, none, none⟩).toList =
        pattern.toList ++ '=' :: (destination.toList ++ []) := by simp [renderSetRoute]
    rw [htoken, hfirst, List.append_nil, splitAtMost_of_not_mem hd]
    simp [segments]
  | some s =>
    have hs : '=' ∉ s.value.toList := by cases s <;> decide
    cases vb with
    | none =>
      have htoken : (renderSetRoute ⟨pattern, destination, some s, none⟩).toList =
          pattern.toList ++ '=' :: (destination.toList ++ '=' :: s.value.toList) := by
        simp [renderSetRoute]
      rw [htoken, hfirst, splitAtMost_cons hd, splitAtMost_of_not_mem hs]
      simp [segments]
    | some b =>
      have htoken : (renderSetRoute ⟨pattern, destination, some s, some b⟩).toList =
          pattern.toList ++ '=' :: (destination.toList ++ '=' :: (s.value.toList ++
            '=' :: b.toList)) := by
        simp [renderSetRoute]
      rw [htoken, hfirst, splitAtMost_cons hd, splitAtMost_cons hs]
      simp [segments, splitAtMost]

theorem mem_render (r : AerospikeSetRoute) : '=' ∈ (renderSetRoute r).toList := by
  simp [renderSetRoute]

/-- What a parsed token says. -/
theorem of_parseOneRoute {pattern destination : String} {hs vb : Option String}
    {r : AerospikeSetRoute}
    (h : parseOneRoute F (routeMapping F pattern destination hs vb) = .ok r) :
    Buildable r ∧ r.pattern = stripText pattern ∧ r.destination = stripText destination ∧
      readStrategy (hs.elim .none .str : PyVal F) = .ok r.hashStrategy ∧
      readValueBin "set_routes[0]" (vb.elim .none .str : PyVal F) = .ok r.valueBin := by
  rw [parseOneRoute_mapping] at h
  obtain ⟨s, hs', h⟩ := Fallible.bind_ok_iff.1 h
  obtain ⟨b, hb, h⟩ := Fallible.bind_ok_iff.1 h
  obtain ⟨p, hp, h⟩ := Fallible.bind_ok_iff.1 h
  obtain ⟨d, hd, h⟩ := Fallible.bind_ok_iff.1 h
  cases h
  obtain ⟨hlabel, hpe⟩ := label_of_validate hp
  obtain ⟨hlabel', hde⟩ := label_of_validate hd
  exact ⟨⟨hlabel, hlabel', stripped_of_readValueBin hb⟩, hpe, hde, hs', hb⟩

theorem parseOneRoute_of_buildable {r : AerospikeSetRoute} (h : Buildable r) :
    parseOneRoute F (routeMapping F r.pattern r.destination (r.hashStrategy.map HashStrategy.value)
      r.valueBin) = .ok r := by
  have hstrategy :
      readStrategy ((r.hashStrategy.map HashStrategy.value).elim .none .str : PyVal F) =
        .ok r.hashStrategy := by
    rcases r.hashStrategy with _ | _ | _ <;> rfl
  have hbin : readValueBin "set_routes[0]" (r.valueBin.elim .none .str : PyVal F) =
      .ok r.valueBin := by
    cases hv : r.valueBin with
    | none => rfl
    | some b =>
      obtain ⟨hstrip, hne⟩ := h.valueBin b hv
      show readValueBin "set_routes[0]" (.str b : PyVal F) = _
      rw [readValueBin_text (v := .str b) nofun fun e => hne (PyVal.str.inj e)]
      simp only [asStr, hstrip, if_neg hne]
  rw [parseOneRoute_mapping, hstrategy, hbin, h.pattern.validate, h.destination.validate]
  rfl

theorem parseSegments_segments {r : AerospikeSetRoute} (h : Buildable r) (he : Expressible r) :
    parseSegments F (segments r) = .ok r := by
  have hone := parseOneRoute_of_buildable (F := F) h
  have hfilled : ¬ (stripText r.pattern = "" ∨ stripText r.destination = "") := by
    rw [h.pattern.stripped, h.destination.stripped, not_or]
    exact ⟨h.pattern.nonempty, h.destination.nonempty⟩
  have hsegment : ∀ (s : HashStrategy) (rest : List String),
      strategySegment (s.value :: rest) = some s.value := by
    intro s rest
    cases s <;> rfl
  unfold segments parseSegments
  dsimp only
  rw [if_neg hfilled]
  cases hs : r.hashStrategy with
  | none =>
    have hv := he.valueBin_none hs
    rw [hs, hv] at hone
    rw [hv]
    exact hone
  | some s =>
    cases hv : r.valueBin with
    | none =>
      rw [hs, hv] at hone
      simp only [Option.map_some, Option.toList, List.append_nil, hsegment]
      exact hone
    | some b =>
      obtain ⟨hstrip, hne⟩ := h.valueBin b hv
      have hmap : s = .mapBin := by
        have := he.valueBin (by rw [hv]; nofun)
        rw [hs] at this
        exact Option.some.inj this
      rw [hs, hv] at hone
      subst hmap
      simp only [Option.map_some, Option.toList, List.cons_append, List.nil_append, hsegment,
        ne_eq, not_true_eq_false, if_false, hstrip, if_neg hne]
      exact hone

theorem parse_render {r : AerospikeSetRoute} (h : Buildable r) (he : Expressible r) :
    parseSetRouteCli F (renderSetRoute r) = .ok r := by
  rw [parseSetRouteCli, if_neg (not_not.2 (mem_render r)), split_render he]
  exact parseSegments_segments h he

/-- The route of accepted segments; a bin name comes with `map_bin` only. -/
theorem parseSegments_ok {pattern destination : String} {options : List String}
    {r : AerospikeSetRoute} (h : parseSegments F (pattern :: destination :: options) = .ok r) :
    Buildable r ∧ r.pattern = stripText pattern ∧ r.destination = stripText destination ∧
      (r.valueBin ≠ none → r.hashStrategy = some .mapBin) := by
  unfold parseSegments at h
  dsimp only at h
  split at h
  · cases h
  · split at h
    · split at h
      · cases h
      · rename_i hmap
        split at h
        · cases h
        · obtain ⟨hb, hp, hd, hs, -⟩ := of_parseOneRoute h
          rw [not_not.1 hmap] at hs
          exact ⟨hb, hp, hd, fun _ => (Except.ok.inj hs).symm⟩
    · obtain ⟨hb, hp, hd, -, hv⟩ := of_parseOneRoute h
      exact ⟨hb, hp, hd, fun hne => absurd (Except.ok.inj hv).symm hne⟩

theorem parseSetRouteCli_ok {token : String} {r : AerospikeSetRoute}
    (h : parseSetRouteCli F token = .ok r) : Buildable r ∧ Expressible r := by
  unfold parseSetRouteCli at h
  split at h
  · cases h
  · cases hps : splitAtMost '=' 3 token.toList with
    | nil => rw [hps] at h; cases h
    | cons x ps =>
      cases ps with
      | nil => rw [hps] at h; cases h
      | cons y rest =>
        rw [hps, List.map_cons, List.map_cons] at h
        obtain ⟨hx, hrest⟩ := splitAtMost_eq_cons hps
        have hy : '=' ∉ y := by
          rcases hrest with hnil | ⟨z, hz⟩
          · cases hnil
          · exact (splitAtMost_eq_cons hz.symm).1
        obtain ⟨hb, hp, hd, hv⟩ := parseSegments_ok h
        refine ⟨hb, ?_, ?_, hv⟩
        · rw [hp]
          exact not_mem_stripText (by rw [String.toList_ofList]; exact hx)
        · rw [hd]
          exact not_mem_stripText (by rw [String.toList_ofList]; exact hy)

/-- **Set routes.** A route of the YAML front end that a token can express
comes back from its token, and so does every route of the other front end. -/
theorem set_route_round_trip :
    (∀ (raw : PyVal F) (routes : List AerospikeSetRoute), parseSetRoutes raw = .ok routes →
      ∀ r ∈ routes, '=' ∉ r.pattern.toList → '=' ∉ r.destination.toList →
        (r.valueBin ≠ none → r.hashStrategy = some .mapBin) →
        parseSetRouteCli F (renderSetRoute r) = .ok r) ∧
    ∀ (token : String) (r : AerospikeSetRoute), parseSetRouteCli F token = .ok r →
      parseSetRouteCli F (renderSetRoute r) = .ok r := by
  constructor
  · intro raw routes h r hr hp hd hv
    exact parse_render (parseSetRoutes_buildable h r hr) ⟨hp, hd, hv⟩
  · intro token r h
    obtain ⟨hb, he⟩ := parseSetRouteCli_ok h
    exact parse_render hb he

end

/-- A token with blanks and a bin name with `=`. -/
theorem token_round_trip :
    parseSetRouteCli String " u:* = users =map_bin= a=b " =
      .ok ⟨"u:*", "users", some .mapBin, some "a=b"⟩ ∧
    parseSetRouteCli String "u:*=users=map_bin=a=b" =
      .ok ⟨"u:*", "users", some .mapBin, some "a=b"⟩ := by
  have h : parseSetRouteCli String " u:* = users =map_bin= a=b " =
      .ok ⟨"u:*", "users", some .mapBin, some "a=b"⟩ := by decide +kernel
  exact ⟨h, (set_route_round_trip (F := String)).2 _ _ h⟩

end RedisToAerospike.L6
