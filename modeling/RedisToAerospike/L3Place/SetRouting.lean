import RedisToAerospike.Core.Glob
import RedisToAerospike.L1Data.Config
import RedisToAerospike.L1Data.Models

/-!
# Set routing (`set_routing.py`)

The first route whose pattern matches a key names its set; a pattern with one
`*` and no `?` or `[` also strips its fixed parts off the key.

* `key_of_strips`, `key_of_not_strips`: what becomes of a matched key.
* `stripping_exact`: a key loses the fixed parts of a pattern with one star
  exactly when it consists of them and of something between.
* `FirstMatch`: the route that places a key; binary keys have none.
-/
namespace RedisToAerospike.L3
open L1

/-- `fnmatch.fnmatch` on a POSIX system. -/
def fnmatch (name pattern : String) : Bool := Glob.glob pattern.toList name.toList

/-- mirrors src/redis_to_aerospike/set_routing.py:11-17 -/
structure RouteResolution where
  setName : String
  key : Key
  hashStrategy : Option HashStrategy
  valueBin : Option String
  deriving DecidableEq

/-- `body if body != "" else redis_key` -/
def bodyOr (redisKey : String) (body : List Char) : String :=
  if body ≠ [] then String.ofList body else redisKey

/-- mirrors src/redis_to_aerospike/set_routing.py:20-45 -/
def aerospikeKeyFromRoute (redisKey pattern : String) : String :=
  let key := redisKey.toList
  let pat := pattern.toList
  if pat.count '*' ≠ 1 then redisKey
  else if '?' ∈ pat ∨ '[' ∈ pat then redisKey
  else
    let left := pat.takeWhile (· ≠ '*')
    let right := (pat.dropWhile (· ≠ '*')).drop 1
    if ¬ fnmatch redisKey pattern then redisKey
    else if right = [] then bodyOr redisKey (key.drop left.length)
    else if left = [] then
      if ¬ right.isSuffixOf key then redisKey
      else bodyOr redisKey (key.take (key.length - right.length))
    else if ¬ (left.isPrefixOf key ∧ right.isSuffixOf key) then redisKey
    else bodyOr redisKey ((key.take (key.length - right.length)).drop left.length)

/-- mirrors src/redis_to_aerospike/set_routing.py:48-67 -/
def resolve (routes : List AerospikeSetRoute) (default_ : String) : Key → RouteResolution
  | .bytes b => ⟨default_, .bytes b, none, none⟩
  | .str key =>
    match routes.find? fun route => fnmatch key route.pattern with
    | some route =>
      ⟨route.destination, .str (aerospikeKeyFromRoute key route.pattern), route.hashStrategy,
        route.valueBin⟩
    | none => ⟨default_, .str key, none, none⟩

/-! ## Patterns that strip -/

/-- The pattern is `left*right`, with no other special character. -/
def Strips (pattern : String) (left right : List Char) : Prop :=
  pattern.toList = left ++ '*' :: right ∧ ∀ c ∈ left ++ right, Glob.Plain c

theorem Strips.match_iff {pattern : String} {left right : List Char} (h : Strips pattern left right)
    (key : String) :
    fnmatch key pattern = true ↔ ∃ body, key.toList = left ++ body ++ right := by
  obtain ⟨hp, hplain⟩ := h
  rw [fnmatch, hp]
  exact Glob.glob_single_star (fun c hc => hplain c (List.mem_append_left _ hc))
    (fun c hc => hplain c (List.mem_append_right _ hc)) _

/-- Splitting at the star. -/
theorem split_star {left right : List Char} (hl : '*' ∉ left) :
    (left ++ '*' :: right).takeWhile (· ≠ '*') = left ∧
      ((left ++ '*' :: right).dropWhile (· ≠ '*')).drop 1 = right := by
  have hall : ∀ c ∈ left, decide (c ≠ '*') = true := fun c hc =>
    decide_eq_true fun e => hl (e ▸ hc)
  constructor
  · rw [List.takeWhile_append_of_pos hall]; simp
  · rw [List.dropWhile_append_of_pos hall]; simp

/-- A stripping pattern leaves the text under its star, or the whole key when
there is none. -/
theorem key_of_strips {pattern key : String} {left right body : List Char}
    (h : Strips pattern left right) (hk : key.toList = left ++ body ++ right) :
    aerospikeKeyFromRoute key pattern = bodyOr key body := by
  have hm : fnmatch key pattern = true := (h.match_iff key).2 ⟨body, hk⟩
  obtain ⟨hp, hplain⟩ := h
  have hl : '*' ∉ left := fun hc => (hplain _ (List.mem_append_left _ hc)).1 rfl
  have hr : '*' ∉ right := fun hc => (hplain _ (List.mem_append_right _ hc)).1 rfl
  have hcount : (left ++ '*' :: right).count '*' = 1 := by
    rw [List.count_append, List.count_cons_self, List.count_eq_zero.2 hl, List.count_eq_zero.2 hr]
  have hspecial : ¬ ('?' ∈ left ++ '*' :: right ∨ '[' ∈ left ++ '*' :: right) := by
    rintro (hc | hc) <;> simp only [List.mem_append, List.mem_cons] at hc
    · exact (hplain '?' (List.mem_append.2 (hc.imp_right (·.resolve_left (by decide))))).2.1 rfl
    · exact (hplain '[' (List.mem_append.2 (hc.imp_right (·.resolve_left (by decide))))).2.2 rfl
  have htake : key.toList.take (key.toList.length - right.length) = left ++ body := by
    rw [hk, List.length_append, Nat.add_sub_cancel, List.take_left']; rfl
  unfold aerospikeKeyFromRoute
  simp only [hp, hcount, ne_eq, not_true_eq_false, if_false, hspecial, (split_star hl).1,
    (split_star hl).2, hm, htake]
  by_cases h1 : right = []
  · subst h1
    rw [if_pos rfl, hk, List.append_nil, List.drop_left']
    rfl
  · have hsuf : right.isSuffixOf key.toList = true := by
      rw [hk, List.isSuffixOf_iff_suffix]; exact List.suffix_append _ _
    have hpre : left.isPrefixOf key.toList = true := by rw [hk]; simp
    rw [if_neg h1]
    by_cases h2 : left = []
    · subst h2
      simp [hsuf]
    · rw [if_neg h2, hsuf, hpre]
      simp

/-- One `*`, and neither `?` nor `[`. -/
def OneStar (pattern : String) : Prop :=
  pattern.toList.count '*' = 1 ∧ '?' ∉ pattern.toList ∧ '[' ∉ pattern.toList

theorem OneStar.strips {pattern : String} {left right : List Char} (h : OneStar pattern)
    (hp : pattern.toList = left ++ '*' :: right) : Strips pattern left right := by
  obtain ⟨hcount, hquery, hbracket⟩ := h
  rw [hp, List.count_append, List.count_cons_self] at hcount
  have hl : '*' ∉ left := List.count_eq_zero.1 (by omega)
  have hr : '*' ∉ right := List.count_eq_zero.1 (by omega)
  have hmem : ∀ c ∈ left ++ right, c ∈ pattern.toList := fun c hc => by
    rw [hp]
    exact (List.mem_append.1 hc).elim (List.mem_append_left _)
      fun hm => List.mem_append_right _ (List.mem_cons_of_mem _ hm)
  refine ⟨hp, fun c hc => ⟨?_, ?_, ?_⟩⟩
  · rintro rfl
    exact (List.mem_append.1 hc).elim hl hr
  · rintro rfl
    exact hquery (hmem _ hc)
  · rintro rfl
    exact hbracket (hmem _ hc)

/-- Any other pattern leaves the key as it is. -/
theorem key_of_not_oneStar {pattern : String} (h : ¬ OneStar pattern) (key : String) :
    aerospikeKeyFromRoute key pattern = key := by
  unfold aerospikeKeyFromRoute
  by_cases h1 : pattern.toList.count '*' ≠ 1
  · simp only [if_pos h1]
  by_cases h2 : '?' ∈ pattern.toList ∨ '[' ∈ pattern.toList
  · simp only [if_neg h1, if_pos h2]
  exact absurd ⟨not_not.1 h1, not_or.1 h2⟩ h

theorem key_of_not_strips {pattern : String} (h : ¬ ∃ left right, Strips pattern left right)
    (key : String) : aerospikeKeyFromRoute key pattern = key := by
  refine key_of_not_oneStar (fun hone => h ?_) key
  obtain ⟨left, right, hp, -⟩ := List.eq_append_cons_of_mem
    (List.count_pos_iff.1 (by rw [hone.1]; decide))
  exact ⟨left, right, hone.strips hp⟩

/-- A key that does not match is left alone. -/
theorem key_of_not_match {pattern key : String} (h : fnmatch key pattern = false) :
    aerospikeKeyFromRoute key pattern = key := by
  unfold aerospikeKeyFromRoute
  simp [h]

/-- **Key stripping.** Under `left*right` a key matches exactly when it is
`left`, a body and `right`, and becomes that one body, if there is any of it; in
every other case a key stays as it is. -/
theorem stripping_exact (pattern key : String) :
    (∀ left right, OneStar pattern → pattern.toList = left ++ '*' :: right →
      (fnmatch key pattern = true ↔ ∃ body, key.toList = left ++ body ++ right) ∧
      ∀ body, key.toList = left ++ body ++ right →
        (∀ body', key.toList = left ++ body' ++ right → body' = body) ∧
        aerospikeKeyFromRoute key pattern = if body = [] then key else String.ofList body) ∧
    (¬ OneStar pattern → aerospikeKeyFromRoute key pattern = key) ∧
    (fnmatch key pattern = false → aerospikeKeyFromRoute key pattern = key) := by
  refine ⟨fun left right hone hp => ?_, fun h => key_of_not_oneStar h key, key_of_not_match⟩
  have hstrips := hone.strips hp
  refine ⟨hstrips.match_iff key, fun body hbody => ⟨fun body' hbody' => ?_, ?_⟩⟩
  · rw [hbody] at hbody'
    exact (List.append_cancel_left (List.append_cancel_right hbody')).symm
  · rw [key_of_strips hstrips hbody, bodyOr, ite_not]

-- `user:*:name` takes the body off a key, and leaves a key it would overlap on.
example : aerospikeKeyFromRoute "user:7:name" "user:*:name" = "7" ∧
    aerospikeKeyFromRoute "user:name" "user:*:name" = "user:name" := by decide

/-! ## First match -/

/-- The route that places the key. -/
def FirstMatch (routes : List AerospikeSetRoute) (key : String) (route : AerospikeSetRoute) : Prop :=
  routes.find? (fun r => fnmatch key r.pattern) = some route

theorem FirstMatch.mem {routes : List AerospikeSetRoute} {key : String} {route : AerospikeSetRoute}
    (h : FirstMatch routes key route) : route ∈ routes := List.mem_of_find?_eq_some h

theorem FirstMatch.matches_ {routes : List AerospikeSetRoute} {key : String}
    {route : AerospikeSetRoute} (h : FirstMatch routes key route) :
    fnmatch key route.pattern = true := by
  simpa using List.find?_some h

/-- The set is the default or the destination of a route. -/
theorem resolve_setName (routes : List AerospikeSetRoute) (default_ : String) (key : Key) :
    (resolve routes default_ key).setName = default_ ∨
      ∃ route ∈ routes, (resolve routes default_ key).setName = route.destination := by
  cases key with
  | bytes b => exact .inl rfl
  | str s =>
    cases hf : routes.find? (fun r => fnmatch s r.pattern) with
    | none => left; simp only [resolve, hf]
    | some route =>
      right
      exact ⟨route, List.mem_of_find?_eq_some hf, by simp only [resolve, hf]⟩

end RedisToAerospike.L3
