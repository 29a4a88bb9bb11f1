import LlmRouter.Lib.Fields
import Mathlib.Algebra.Order.Field.Rat

/-!
# LlmRouter — which words are technical

`technicalDensity` (`internal/mlrouter/classifier.go`) is about words that contain digits,
underscores or camelCase, or are known keywords. But `isTechnical` looks for upper-case
letters after it has put the word into lower case.
-/

namespace LlmRouter.MlRouter

open Lib.Text

/-- The tables of package `unicode`, as far as digits, the underscore and lower case go. -/
structure Unicode where
  isSpace : Char → Bool
  isDigit : Char → Bool
  isUpper : Char → Bool
  toLower : Char → Char
  isDigit_toLower : ∀ c, isDigit (toLower c) = isDigit c
  toLower_underscore : ∀ c, toLower c = '_' ↔ c = '_'
  isUpper_of_toLower : ∀ c, isUpper (toLower c) = true → isUpper c = true

def technicalKeywords : List String :=
  ["function", "class", "interface", "algorithm", "optimize", "complexity", "runtime", "async",
   "goroutine", "concurrency", "distributed", "kubernetes", "tensor", "gradient", "neural",
   "regression", "theorem", "proof", "calculus", "differential", "api", "sql", "http", "json",
   "yaml"]

def punctuation : List Char := ".,;:!?\"'()[]\x7b\x7d".toList

def trim (cutset w : List Char) : List Char :=
  ((w.dropWhile (· ∈ cutset)).reverse.dropWhile (· ∈ cutset)).reverse

def clamp (v : ℚ) : ℚ := if v < 0 then 0 else if 1 < v then 1 else v

variable (u : Unicode)

variable (w : List Char)

def isTechnical : Bool :=
  let w := (trim punctuation w).map u.toLower
  if technicalKeywords.contains (String.ofList w) then true
  else if w.any u.isDigit then true
  else if w.contains '_' then true
  -- every character but the first has an index above 0
  else w.tail.any u.isUpper

def technicalDensity (text : List Char) : ℚ :=
  let words := fields u.isSpace text
  if words.length = 0 then 0
  else clamp ((words.countP (isTechnical u) : ℚ) / (words.length : ℚ) * 3)

def Marked : Prop :=
  String.ofList (w.map u.toLower) ∈ technicalKeywords ∨ (∃ c ∈ w, u.isDigit c = true) ∨ '_' ∈ w

def Documented : Prop := Marked u w ∨ ∃ c ∈ w.tail, u.isUpper c = true

theorem isTechnical_iff : isTechnical u w = true ↔ Marked u (trim punctuation w) ∨
        ∃ c ∈ (trim punctuation w).tail, u.isUpper (u.toLower c) = true := by
  rw [isTechnical]
  generalize trim punctuation w = t
  have hdigit : (t.map u.toLower).any u.isDigit = true ↔ ∃ c ∈ t, u.isDigit c = true := by
    simp [u.isDigit_toLower]
  have hunderscore : (t.map u.toLower).contains '_' = true ↔ '_' ∈ t := by
    simp [u.toLower_underscore]
  have hupper : (t.map u.toLower).tail.any u.isUpper = true ↔
      ∃ c ∈ t.tail, u.isUpper (u.toLower c) = true := by
    cases t <;> simp
  rw [Marked, ← hdigit, ← hunderscore, ← hupper, ← List.contains_iff_mem]
  split_ifs <;> simp_all

/-- Upper-case letters after the first do not decide about the word, or one of them has no
lower case. -/
def Plain : Prop :=
  Marked u w ∨ (∀ c ∈ w.tail, u.isUpper c = false) ∨
    ∃ c ∈ w.tail, u.isUpper (u.toLower c) = true

theorem counted_word_iff : (isTechnical u w = true ↔ Documented u (trim punctuation w)) ↔
      Plain u (trim punctuation w) := by
  rw [isTechnical_iff, Documented, Plain]
  generalize trim punctuation w = t
  have hkept : (∃ c ∈ t.tail, u.isUpper (u.toLower c) = true) → ∃ c ∈ t.tail, u.isUpper c = true :=
    fun ⟨c, hc, hup⟩ => ⟨c, hc, u.isUpper_of_toLower c hup⟩
  have hnone : (∀ c ∈ t.tail, u.isUpper c = false) ↔ ¬ ∃ c ∈ t.tail, u.isUpper c = true := by
    simp
  rw [hnone]
  constructor
  · intro h
    by_cases hup : ∃ c ∈ t.tail, u.isUpper c = true
    · exact (h.mpr (.inr hup)).imp_right .inr
    · exact .inr (.inl hup)
  · rintro (hmarked | hno | hleft)
    · exact iff_of_true (.inl hmarked) (.inl hmarked)
    · exact or_congr_right (iff_of_false (fun h => hno (hkept h)) hno)
    · exact iff_of_true (.inr hleft) (.inr (hkept hleft))

/-- **Technical words.** The words that `technicalDensity` counts are those documented iff each word
of the text is a keyword, has a digit or an underscore, or has no upper-case letter after its first
character but such as have no lower case. -/
theorem counted_iff (text : List Char) :
    (∀ w ∈ fields u.isSpace text,
      (isTechnical u w = true ↔ Documented u (trim punctuation w))) ↔
    ∀ w ∈ fields u.isSpace text, Plain u (trim punctuation w) :=
  forall₂_congr fun w _ => counted_word_iff u w

def upperU : Unicode where
  isSpace c := c == ' '
  isDigit := Char.isDigit
  isUpper c := c == 'U'
  toLower c := if c = 'U' then 'u' else c
  isDigit_toLower c := by
    split_ifs with h
    · rw [h]
      rfl
    · rfl
  toLower_underscore c := by
    split_ifs with h
    · rw [h]
      decide
    · rfl
  isUpper_of_toLower c := by
    split_ifs with h
    · exact fun hup => absurd hup (by decide)
    · exact id

theorem camelCase_is_missed :
    technicalDensity upperU "call getUser".toList = 0 ∧
      ¬ ∀ w ∈ fields upperU.isSpace "call getUser".toList,
        (isTechnical upperU w = true ↔ Documented upperU (trim punctuation w)) := by
  have hwords : fields upperU.isSpace "call getUser".toList =
      ["call".toList, "getUser".toList] := by decide
  have hnone : ["call".toList, "getUser".toList].countP (isTechnical upperU) = 0 := by decide
  constructor
  · simp only [technicalDensity, hwords, hnone]
    simp [clamp]
  · intro h
    rw [hwords] at h
    have hcounted := (h "getUser".toList (by simp)).mpr (.inr ⟨'U', by decide, rfl⟩)
    exact absurd hcounted (by decide)

end LlmRouter.MlRouter
