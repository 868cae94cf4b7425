import RedisToAerospike.Core.Regex

/-!
# Shell patterns

`*` is any text, `?` any character, `[..]` a class of characters or ranges,
`[!..]` its complement; every other character stands for itself. A `]` right
after the opening bracket is a member of the class, and a bracket that is
never closed is a plain character. A range whose ends are in the wrong order
is dropped. A pattern is translated to a regular expression and has to match
the whole text.

* `glob_single_star`: a pattern with one `*` and no `?` or `[` matches the
  texts that start and end with its two parts.
-/
namespace Glob

/-- What a class lists: a character, or the range between two. -/
inductive ClassItem where
  | char (a : Char)
  | range (a b : Char)

/-- The items of a class body. A hyphen with no character on one side of it
stands for itself. -/
def items : List Char → List ClassItem
  | a :: '-' :: b :: rest => .range a b :: items rest
  | a :: rest => .char a :: items rest
  | [] => []

def ClassItem.has (c : Char) : ClassItem → Bool
  | .char a => c == a
  | .range a b => decide (a ≤ c) && decide (c ≤ b)

def ClassItem.isEmpty : ClassItem → Bool
  | .char _ => false
  | .range a b => decide (b < a)

/-- A class that does not start with `!`. The translation drops the ranges
without a character first; a `!` that comes to the front negates what follows
it, the hyphen of a range from `!` included. -/
def classOfItems (c : Char) : List ClassItem → Bool
  | .char '!' :: rest => !rest.any (·.has c)
  | .range '!' b :: rest => !(c == '-' || c == b || rest.any (·.has c))
  | listed => listed.any (·.has c)

/-- The class between the brackets. -/
def classOf : List Char → Char → Bool
  | '!' :: body, c => !(items body).any (·.has c)
  | body, c => classOfItems c ((items body).filter fun i => !i.isEmpty)

/-- The text up to the next `]`, and what follows it. -/
def upToBracket : List Char → Option (List Char × List Char)
  | [] => none
  | ']' :: rest => some ([], rest)
  | c :: rest => (upToBracket rest).map fun p => (c :: p.1, p.2)

/-- Split off a class, its opening bracket already read. -/
def splitClass : List Char → Option (List Char × List Char)
  | '!' :: ']' :: rest => (upToBracket rest).map fun p => ('!' :: ']' :: p.1, p.2)
  | '!' :: rest => (upToBracket rest).map fun p => ('!' :: p.1, p.2)
  | ']' :: rest => (upToBracket rest).map fun p => (']' :: p.1, p.2)
  | rest => upToBracket rest

def anyChar : Regex := .chars fun _ => true

/-- The translation, with the length of the pattern as fuel. -/
def translateGo : Nat → List Char → Regex
  | 0, _ => .eps
  | _ + 1, [] => .eps
  | n + 1, '*' :: rest => .seq (.star anyChar) (translateGo n rest)
  | n + 1, '?' :: rest => .seq anyChar (translateGo n rest)
  | n + 1, '[' :: rest =>
    match splitClass rest with
    | some (body, rest') => .seq (.chars (classOf body)) (translateGo n rest')
    | none => .seq (.lit '[') (translateGo n rest)
  | n + 1, c :: rest => .seq (.lit c) (translateGo n rest)

def translate (pattern : List Char) : Regex := translateGo pattern.length pattern

def glob (pattern text : List Char) : Bool := (translate pattern).accepts text

/-- A character without special meaning. -/
def Plain (c : Char) : Prop := c ≠ '*' ∧ c ≠ '?' ∧ c ≠ '['

theorem translateGo_plain {c : Char} (hc : Plain c) (n : Nat) (rest : List Char) :
    translateGo (n + 1) (c :: rest) = .seq (.lit c) (translateGo n rest) := by
  obtain ⟨h1, h2, h3⟩ := hc
  rw [translateGo]
  · exact h1
  · exact h2
  · exact h3

/-- Plain characters are read off the front one by one. -/
theorem matches_plain_append {left rest : List Char} (hl : ∀ c ∈ left, Plain c) (n : Nat)
    (w : List Char) :
    (translateGo (left.length + n) (left ++ rest)).Matches w ↔
      ∃ v, w = left ++ v ∧ (translateGo n rest).Matches v := by
  induction left generalizing w with
  | nil => simp
  | cons c left ih =>
    have hlen : (c :: left).length + n = (left.length + n) + 1 := by
      rw [List.length_cons]; omega
    rw [hlen, List.cons_append, translateGo_plain (hl c List.mem_cons_self), Regex.matches_seq]
    have ih := ih fun d hd => hl d (List.mem_cons_of_mem _ hd)
    constructor
    · intro hx
      obtain ⟨u, v, hu, hv, rfl⟩ := hx
      obtain ⟨v', rfl, hv'⟩ := (ih v).1 hv
      exact ⟨v', by rw [Regex.matches_lit.1 hu]; rfl, hv'⟩
    · intro hx
      obtain ⟨v, rfl, hv⟩ := hx
      exact ⟨[c], left ++ v, Regex.matches_lit.2 rfl, (ih _).2 ⟨v, rfl, hv⟩, rfl⟩

theorem matches_plain {right : List Char} (hr : ∀ c ∈ right, Plain c) (w : List Char) :
    (translateGo right.length right).Matches w ↔ w = right := by
  have h : (translateGo (right.length + 0) (right ++ [])).Matches w ↔ _ :=
    matches_plain_append hr 0 w
  rw [List.append_nil, Nat.add_zero] at h
  simp [h, translateGo]

/-- One `*` between plain texts. -/
theorem glob_single_star {left right : List Char} (hl : ∀ c ∈ left, Plain c)
    (hr : ∀ c ∈ right, Plain c) (text : List Char) :
    glob (left ++ '*' :: right) text = true ↔ ∃ body, text = left ++ body ++ right := by
  have hlen : (left ++ '*' :: right).length = left.length + (right.length + 1) := by simp
  rw [glob, Regex.accepts_iff, translate, hlen, matches_plain_append hl]
  simp only [translateGo, Regex.matches_seq, matches_plain hr, anyChar, Regex.matches_star_chars]
  constructor
  · intro hx
    obtain ⟨_, rfl, body, v, -, rfl, rfl⟩ := hx
    exact ⟨body, by rw [List.append_assoc]⟩
  · intro hx
    obtain ⟨body, rfl⟩ := hx
    exact ⟨body ++ right, by rw [List.append_assoc], body, right, fun _ _ => trivial, rfl, rfl⟩

-- A leading `]` is a member, `!` negates, a range, and an unclosed bracket.
example : glob "[]a]x[!0-9]".toList "]xz".toList = true := by decide
example : glob "[]a]x[!0-9]".toList "ax7".toList = false := by decide
example : glob "a[b*".toList "a[bc".toList = true := by decide
-- A range that is dropped leaves its `!` at the front.
example : glob "[c-a!]".toList "x".toList = true := by decide

end Glob
