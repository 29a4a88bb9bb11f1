import Mathlib.Data.List.Basic
import Mathlib.Data.List.Flatten

/-!
# Regular expressions with preference

Expressions as a backtracking matcher takes them: the first way to match in the order of
preference counts, at the leftmost place. `ends` lists what may be left of a text after a match,
`Matches` is the relation, and `mem_ends_iff` says that they agree.
-/

namespace LlmRouter.Lib

open List

/-- A regular expression; only classes are repeated without a bound. -/
inductive Regex where
  | eps
  | cls (p : Char → Bool)
  | many (p : Char → Bool)
  | seq (a b : Regex)
  | alt (a b : Regex)
  | opt (a : Regex)
  | boundary

def isWordChar (c : Char) : Bool := c.isAlphanum || c == '_'

namespace Regex

def times (r : Regex) : Nat → Regex
  | 0 => eps
  | n + 1 => seq r (r.times n)

def many1 (p : Char → Bool) : Regex := seq (cls p) (many p)

def seqs : List Regex → Regex
  | [] => eps
  | r :: rs => seq r (seqs rs)

def lit (c : Char) : Regex := cls (· == c)

/-! ## Matching -/

def startsWord : List Char → Bool
  | [] => false
  | c :: _ => isWordChar c

/-- What is left after characters of a class, the shortest rest first. -/
def manyEnds (p : Char → Bool) : (word : Bool) → List Char → List (Bool × List Char)
  | w, [] => [(w, [])]
  | w, c :: t =>
    if p c then manyEnds p (isWordChar c) t ++ [(w, c :: t)] else [(w, c :: t)]

/-- What may be left of a text after a match at its beginning, in the order of
preference. -/
def ends : Regex → (word : Bool) → List Char → List (Bool × List Char)
  | eps, w, s => [(w, s)]
  | cls _, _, [] => []
  | cls p, _, c :: t => if p c then [(isWordChar c, t)] else []
  | many p, w, s => manyEnds p w s
  | seq a b, w, s => (a.ends w s).flatMap fun x => b.ends x.1 x.2
  | alt a b, w, s => a.ends w s ++ b.ends w s
  | opt a, w, s => a.ends w s ++ [(w, s)]
  | boundary, w, s => if w = startsWord s then [] else [(w, s)]

def matchLen (r : Regex) (word : Bool) (s : List Char) : Option Nat :=
  (r.ends word s).head?.map fun x => s.length - x.2.length

def matchFrom (r : Regex) : (word : Bool) → List Char → Bool
  | w, [] => (r.matchLen w []).isSome
  | w, c :: t => (r.matchLen w (c :: t)).isSome || r.matchFrom (isWordChar c) t

def matchString (r : Regex) (s : List Char) : Bool := r.matchFrom false s

/-- Each match replaced, with so many characters of the last one still to skip. -/
def replaceFrom (r : Regex) (repl : List Char) : (skip : Nat) → (word : Bool) → List Char → List Char
  | _, _, [] => []
  | k + 1, _, c :: t => r.replaceFrom repl k (isWordChar c) t
  | 0, w, c :: t =>
    match r.matchLen w (c :: t) with
    | some n => repl ++ r.replaceFrom repl (n - 1) (isWordChar c) t
    | none => c :: r.replaceFrom repl 0 (isWordChar c) t

/-- `ReplaceAllString` with a fixed text. -/
def replaceAll (r : Regex) (repl s : List Char) : List Char := r.replaceFrom repl 0 false s

variable {r : Regex} {w : Bool} {t s : List Char} {q : Char → Bool}

theorem replaceFrom_of_none {c : Char} (h : r.matchLen w (c :: t) = none) (repl : List Char) :
    r.replaceFrom repl 0 w (c :: t) = c :: r.replaceFrom repl 0 (isWordChar c) t := by
  rw [replaceFrom, h]

theorem replaceFrom_of_some {c : Char} {n : Nat} (h : r.matchLen w (c :: t) = some n)
    (repl : List Char) :
    r.replaceFrom repl 0 w (c :: t) = repl ++ r.replaceFrom repl (n - 1) (isWordChar c) t := by
  rw [replaceFrom, h]

/-! ## Matches -/

/-- Whether the character before is a word character, behind a piece of text. -/
def wordAfter : (word : Bool) → List Char → Bool
  | w, [] => w
  | _, c :: m => wordAfter (isWordChar c) m

@[simp] theorem wordAfter_nil (w : Bool) : wordAfter w [] = w := rfl

@[simp] theorem wordAfter_append (w : Bool) (a b : List Char) :
    wordAfter w (a ++ b) = wordAfter (wordAfter w a) b := by
  induction a generalizing w with
  | nil => rfl
  | cons c a ih => exact ih (isWordChar c)

theorem wordAfter_concat (w : Bool) (a : List Char) (c : Char) :
    wordAfter w (a ++ [c]) = isWordChar c := by
  rw [wordAfter_append]
  rfl

/-- The expression matches the piece `m` between its context and `rest`. -/
def Matches : Regex → (word : Bool) → (m rest : List Char) → Prop
  | eps, _, m, _ => m = []
  | cls p, _, m, _ => ∃ c, m = [c] ∧ p c = true
  | many p, _, m, _ => ∀ c ∈ m, p c = true
  | seq a b, w, m, rest => ∃ m₁ m₂, m = m₁ ++ m₂ ∧ a.Matches w m₁ (m₂ ++ rest) ∧
      b.Matches (wordAfter w m₁) m₂ rest
  | alt a b, w, m, rest => a.Matches w m rest ∨ b.Matches w m rest
  | opt a, w, m, rest => a.Matches w m rest ∨ m = []
  | boundary, w, m, rest => m = [] ∧ w ≠ startsWord rest

variable {w' : Bool} {rest m : List Char}

theorem mem_manyEnds_iff {p : Char → Bool} {w : Bool} {s : List Char} :
    (w', rest) ∈ manyEnds p w s ↔
      ∃ m, s = m ++ rest ∧ w' = wordAfter w m ∧ ∀ c ∈ m, p c = true := by
  induction s generalizing w with
  | nil =>
    rw [manyEnds, mem_singleton, Prod.mk.injEq]
    constructor
    · rintro ⟨rfl, rfl⟩
      exact ⟨[], rfl, rfl, by simp⟩
    · rintro ⟨m, hm, rfl, -⟩
      obtain ⟨rfl, rfl⟩ := append_eq_nil_iff.mp hm.symm
      exact ⟨rfl, rfl⟩
  | cons c t ih =>
    -- a piece is empty, or it begins with this character
    have hcons : (∃ m, c :: t = m ++ rest ∧ w' = wordAfter w m ∧ ∀ x ∈ m, p x = true) ↔
        (w', rest) = (w, c :: t) ∨ p c = true ∧
          ∃ m, t = m ++ rest ∧ w' = wordAfter (isWordChar c) m ∧ ∀ x ∈ m, p x = true := by
      constructor
      · rintro ⟨m, hm, hw, hall⟩
        cases m with
        | nil => exact .inl (by rw [hw, hm]; rfl)
        | cons d m =>
          obtain ⟨rfl, rfl⟩ := cons.inj hm
          rw [forall_mem_cons] at hall
          exact .inr ⟨hall.1, m, rfl, hw, hall.2⟩
      · rintro (h | ⟨hc, m, rfl, hw, hall⟩)
        · obtain ⟨rfl, rfl⟩ := Prod.mk.inj h
          exact ⟨[], rfl, rfl, by simp⟩
        · exact ⟨c :: m, rfl, hw, forall_mem_cons.mpr ⟨hc, hall⟩⟩
    rw [hcons, manyEnds]
    split_ifs with hc
    · rw [mem_append, mem_singleton, ih, or_comm, and_iff_right hc]
    · rw [mem_singleton, or_iff_left fun h => hc h.1]

theorem empty_end_iff {w : Bool} {s : List Char} : (w', rest) = (w, s) ↔
    ∃ m, s = m ++ rest ∧ w' = wordAfter w m ∧ m = [] := by
  constructor
  · intro h
    obtain ⟨rfl, rfl⟩ := Prod.mk.inj h
    exact ⟨[], rfl, rfl, rfl⟩
  · rintro ⟨m, rfl, rfl, rfl⟩
    rfl

/-- **The ways to match are the matches.** -/
theorem mem_ends_iff {w : Bool} {s : List Char} :
    (w', rest) ∈ r.ends w s ↔ ∃ m, s = m ++ rest ∧ w' = wordAfter w m ∧ r.Matches w m rest := by
  induction r generalizing w w' s rest with
  | eps => rw [ends, mem_singleton, empty_end_iff]; rfl
  | cls p =>
    constructor
    · intro h
      cases s with
      | nil => cases h
      | cons c t =>
        obtain ⟨hc, h⟩ := mem_ite_nil_right.mp h
        obtain ⟨rfl, rfl⟩ := Prod.mk.inj (mem_singleton.mp h)
        exact ⟨[c], rfl, rfl, c, rfl, hc⟩
    · rintro ⟨m, rfl, rfl, c, rfl, hc⟩
      exact mem_ite_nil_right.mpr ⟨hc, mem_singleton.mpr rfl⟩
  | many p => exact mem_manyEnds_iff
  | seq a b iha ihb =>
    rw [ends, mem_flatMap]
    constructor
    · rintro ⟨⟨w₁, rest₁⟩, ha, hb⟩
      obtain ⟨m₁, rfl, rfl, hm₁⟩ := iha.mp ha
      obtain ⟨m₂, rfl, rfl, hm₂⟩ := ihb.mp hb
      exact ⟨m₁ ++ m₂, (append_assoc ..).symm, (wordAfter_append ..).symm, m₁, m₂, rfl, hm₁,
        hm₂⟩
    · rintro ⟨m, rfl, rfl, m₁, m₂, rfl, hm₁, hm₂⟩
      exact ⟨(wordAfter w m₁, m₂ ++ rest), iha.mpr ⟨m₁, append_assoc .., rfl, hm₁⟩,
        ihb.mpr ⟨m₂, rfl, wordAfter_append .., hm₂⟩⟩
  | alt a b iha ihb =>
    rw [ends, mem_append, iha, ihb]
    simp only [Matches, and_or_left, exists_or]
  | opt a iha =>
    rw [ends, mem_append, mem_singleton, iha, empty_end_iff]
    simp only [Matches, and_or_left, exists_or]
  | boundary =>
    rw [ends]
    split_ifs with hw
    · refine ⟨fun h => (nomatch h), ?_⟩
      rintro ⟨m, rfl, -, rfl, hne⟩
      exact absurd hw hne
    · rw [mem_singleton, empty_end_iff]
      constructor
      · rintro ⟨m, rfl, rfl, rfl⟩
        exact ⟨[], rfl, rfl, rfl, hw⟩
      · rintro ⟨m, rfl, rfl, rfl, -⟩
        exact ⟨[], rfl, rfl, rfl⟩

/-! ## What a match consumes -/

def uses : Regex → Char → Bool
  | cls p, c => p c
  | many p, c => p c
  | seq a b, c => a.uses c || b.uses c
  | alt a b, c => a.uses c || b.uses c
  | opt a, c => a.uses c
  | _, _ => false

def nullable : Regex → Bool
  | cls _ => false
  | seq a b => a.nullable && b.nullable
  | alt a b => a.nullable || b.nullable
  | _ => true

theorem Matches.uses (h : r.Matches w m rest) : ∀ c ∈ m, r.uses c = true := by
  intro c hc
  induction r generalizing w m rest with
  | eps =>
    obtain rfl := h
    cases hc
  | cls p =>
    obtain ⟨d, rfl, hd⟩ := h
    rwa [mem_singleton.mp hc]
  | many p => exact h c hc
  | seq a b iha ihb =>
    obtain ⟨m₁, m₂, rfl, ha, hb⟩ := h
    rcases mem_append.mp hc with hc | hc
    · rw [Regex.uses, iha ha hc, Bool.true_or]
    · rw [Regex.uses, ihb hb hc, Bool.or_true]
  | alt a b iha ihb =>
    rcases h with ha | hb
    · rw [Regex.uses, iha ha hc, Bool.true_or]
    · rw [Regex.uses, ihb hb hc, Bool.or_true]
  | opt a iha =>
    rcases h with ha | rfl
    · exact iha ha hc
    · cases hc
  | boundary =>
    obtain ⟨rfl, -⟩ := h
    cases hc

theorem Matches.nullable (h : r.Matches w [] rest) : r.nullable = true := by
  induction r generalizing w rest with
  | eps | many p | opt a iha | boundary => rfl
  | cls p =>
    obtain ⟨c, hc, -⟩ := h
    cases hc
  | seq a b iha ihb =>
    obtain ⟨m₁, m₂, hm, ha, hb⟩ := h
    obtain ⟨rfl, rfl⟩ := append_eq_nil_iff.mp hm.symm
    rw [Regex.nullable, iha ha, ihb hb, Bool.and_self]
  | alt a b iha ihb =>
    rcases h with ha | hb
    · rw [Regex.nullable, iha ha, Bool.true_or]
    · rw [Regex.nullable, ihb hb, Bool.or_true]

theorem Matches.ne_nil (hr : r.nullable = false) (h : r.Matches w m rest) : m ≠ [] := by
  rintro rfl
  rw [h.nullable] at hr
  cases hr

theorem matchLen_ne_none : r.matchLen w s ≠ none ↔ r.ends w s ≠ [] := by
  rw [matchLen, ne_eq, Option.map_eq_none_iff, head?_eq_none_iff]

end Regex

end LlmRouter.Lib
