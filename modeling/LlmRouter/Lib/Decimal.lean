import LlmRouter.Lib.Text
import Mathlib.Tactic.Positivity

/-!
# Decimal floating-point texts

A finite binary floating-point number is represented by the shortest decimal that reads back to
it: a sign, its digits without trailing zeros, and a power of ten. `json` is its text in JSON,
with an exponent outside `[1e-6, 1e21)`.
-/

namespace LlmRouter.Lib

structure Decimal where
  neg : Bool
  digits : Nat
  exp : Int
  canonical : digits % 10 ≠ 0 ∨ digits = 0 ∧ exp = 0
  deriving DecidableEq, Repr

namespace Decimal

open Text List

def zero : Decimal := ⟨false, 0, 0, .inr ⟨rfl, rfl⟩⟩

/-- The same number: the two zeros differ in their sign only. -/
def Same (x y : Decimal) : Prop := x = y ∨ x.digits = 0 ∧ y.digits = 0

variable (x : Decimal)

/-- The number is `num / den`; both zeros are 0. -/
def num : Int := (if x.neg then -1 else 1) * (x.digits * 10 ^ x.exp.toNat : Nat)

@[inherit_doc num]
def den : Nat := 10 ^ (-x.exp).toNat

def ltInt (n : Int) : Bool := decide (x.num < n * x.den)

def gtInt (n : Int) : Bool := decide (n * x.den < x.num)

def width : Nat := (Nat.toDigits 10 x.digits).length

def lead : Int := x.exp + x.width - 1

def sign : List Char := if x.neg then ['-'] else []

def point (k n : Nat) : List Char :=
  if k = 0 then Nat.toDigits 10 n
  else Nat.toDigits 10 (n / 10 ^ k) ++ '.' :: pad k (n % 10 ^ k)

def formatF : List Char :=
  x.sign ++ point (-x.exp).toNat (x.digits * 10 ^ x.exp.toNat)

def exponent (minWidth : Nat) (e : Int) : List Char :=
  (if e < 0 then '-' else '+') :: pad minWidth e.natAbs

/-- Scientific notation (`'e'`, shortest), the exponent with at least
`minWidth` digits. -/
def formatE (minWidth : Nat) (x : Decimal) : List Char :=
  x.sign ++ (point (x.width - 1) x.digits ++ 'e' :: exponent minWidth x.lead)

def formatG : List Char :=
  if x.digits ≠ 0 ∧ (x.lead < -4 ∨ 6 ≤ x.lead) then formatE 2 x else formatF x

/-- The JSON text. An exponent is written without leading zeros. -/
def json : List Char :=
  if x.digits ≠ 0 ∧ (x.lead < -6 ∨ 21 ≤ x.lead) then formatE 1 x else formatF x

/-! ## Reading the texts back -/

def isNumberChar (c : Char) : Bool :=
  c.isDigit || c == '-' || c == '+' || c == '.' || c == 'e' || c == 'E'

variable {c : Char} {x y : Decimal}

theorem point_mem {k n : Nat} (h : c ∈ point k n) : c.isDigit = true ∨ c = '.' := by
  rw [point] at h
  split_ifs at h
  · exact .inl (isDigit_of_mem_toDigits h)
  · simp only [mem_append, mem_cons] at h
    rcases h with h | h | h
    · exact .inl (isDigit_of_mem_toDigits h)
    · exact .inr h
    · exact .inl (isDigit_of_mem_pad h)

theorem not_mem_toDigits (hc : c.isDigit = false) (n : Nat) : c ∉ Nat.toDigits 10 n := by
  intro h
  rw [isDigit_of_mem_toDigits h] at hc
  cases hc

theorem point_ne_nil (k n : Nat) : point k n ≠ [] := by
  rw [point]
  split_ifs
  · exact Nat.toDigits_ne_nil
  · simp

theorem point_inj {k k' n n' : Nat} (h : point k n = point k' n') : k = k' ∧ n = n' := by
  unfold point at h
  split_ifs at h with hk hk' hk'
  · exact ⟨hk.trans hk'.symm, toDigits_injective h⟩
  · exact absurd (h ▸ by simp : '.' ∈ Nat.toDigits 10 n) (not_mem_toDigits (by decide) n)
  · exact absurd (h ▸ by simp : '.' ∈ Nat.toDigits 10 n') (not_mem_toDigits (by decide) n')
  · obtain ⟨hint, hfrac⟩ := append_cons_inj (not_mem_toDigits (by decide) _)
      (not_mem_toDigits (by decide) _) h
    have hlen : k = k' := by
      have := congrArg length hfrac
      rwa [length_pad (by omega) (Nat.mod_lt _ (by positivity)),
        length_pad (by omega) (Nat.mod_lt _ (by positivity))] at this
    subst hlen
    refine ⟨rfl, ?_⟩
    rw [← Nat.div_add_mod n (10 ^ k), ← Nat.div_add_mod n' (10 ^ k), toDigits_injective hint,
      pad_injective k hfrac]

def Unsigned (a : List Char) : Prop := ∀ t, a ≠ '-' :: t

theorem unsigned_point_append (k n : Nat) (t : List Char) : Unsigned (point k n ++ t) := by
  intro r h
  cases hp : point k n with
  | nil => exact point_ne_nil k n hp
  | cons c cs =>
    rw [hp, cons_append, cons.injEq] at h
    rcases point_mem (hp ▸ mem_cons_self : c ∈ point k n) with hc | hc
    · rw [h.1] at hc
      cases hc
    · exact absurd (hc.symm.trans h.1) (by decide)

theorem sign_append_inj {a b : List Char} (ha : Unsigned a) (hb : Unsigned b)
    (h : x.sign ++ a = y.sign ++ b) : x.neg = y.neg ∧ a = b := by
  unfold sign at h
  cases hx : x.neg <;> cases hy : y.neg <;> simp only [hx, hy, Bool.false_eq_true, if_true,
    if_false, nil_append, singleton_append, cons.injEq, true_and] at h
  · exact ⟨rfl, h⟩
  · exact absurd h (ha b)
  · exact absurd h.symm (hb a)
  · exact ⟨rfl, h⟩

theorem shift_inj (hx : 0 ≤ x.exp) (h : x.digits * 10 ^ x.exp.toNat = y.digits * 10 ^ y.exp.toNat)
    (hlt : x.exp < y.exp) : False := by
  have hsplit : y.exp.toNat = x.exp.toNat + (y.exp.toNat - x.exp.toNat - 1) + 1 := by omega
  have hdigits : x.digits = y.digits * 10 ^ (y.exp.toNat - x.exp.toNat - 1) * 10 := by
    rw [hsplit, pow_succ, pow_add] at h
    refine Nat.eq_of_mul_eq_mul_right (Nat.pow_pos (by omega) : 0 < 10 ^ x.exp.toNat) ?_
    rw [h]
    ring
  rcases x.canonical with hc | ⟨hzero, -⟩
  · exact hc (by omega)
  · -- zero shifted is zero, and the only zero is not shifted
    rw [hzero, Nat.zero_mul] at h
    have hy : y.digits = 0 := by
      rcases Nat.mul_eq_zero.mp h.symm with hy | hy
      · exact hy
      · exact absurd hy (by positivity)
    rcases y.canonical with hc | ⟨-, hexp⟩
    · exact hc (by omega)
    · omega

theorem ext_of_shift (hneg : x.neg = y.neg) (hfrac : (-x.exp).toNat = (-y.exp).toNat)
    (h : x.digits * 10 ^ x.exp.toNat = y.digits * 10 ^ y.exp.toNat) : x = y := by
  have hexp : x.exp = y.exp := by
    rcases lt_trichotomy x.exp y.exp with hlt | heq | hgt
    · by_cases hx : 0 ≤ x.exp
      · exact (shift_inj hx h hlt).elim
      · omega
    · exact heq
    · by_cases hy : 0 ≤ y.exp
      · exact (shift_inj hy h.symm hgt).elim
      · omega
  have hdigits : x.digits = y.digits := by
    rw [hexp] at h
    exact Nat.eq_of_mul_eq_mul_right (Nat.pow_pos (by omega)) h
  cases x
  cases y
  simp_all

theorem formatF_injective : Function.Injective formatF := by
  intro x y h
  have happ : ∀ k n, Unsigned (point k n) := fun k n => by
    simpa using unsigned_point_append k n []
  obtain ⟨hneg, hpoint⟩ := sign_append_inj (happ _ _) (happ _ _) h
  obtain ⟨hfrac, hdigits⟩ := point_inj hpoint
  exact ext_of_shift hneg hfrac hdigits

theorem exponent_inj {m : Nat} {e e' : Int} (h : exponent m e = exponent m e') : e = e' := by
  simp only [exponent, cons.injEq] at h
  have habs := pad_injective m h.2
  have hsign := h.1
  split_ifs at hsign with h1 h2 h2
  · omega
  · exact absurd hsign (by decide)
  · exact absurd hsign (by decide)
  · omega

theorem not_mem_point (hc : isNumberChar c = false ∨ c = 'e') (k n : Nat) : c ∉ point k n := by
  intro h
  rcases point_mem h with hd | rfl
  · rcases hc with hc | rfl
    · simp [isNumberChar, hd] at hc
    · cases hd
  · rcases hc with hc | hc
    · cases hc
    · exact absurd hc (by decide)

theorem formatE_injective (m : Nat) : Function.Injective (formatE m) := by
  intro x y h
  obtain ⟨hneg, hrest⟩ :=
    sign_append_inj (unsigned_point_append _ _ _) (unsigned_point_append _ _ _) h
  obtain ⟨hpoint, hexp⟩ := append_cons_inj (not_mem_point (.inr rfl) _ _)
    (not_mem_point (.inr rfl) _ _) hrest
  have hdigits := (point_inj hpoint).2
  have hlead := exponent_inj hexp
  have hwidth : x.width = y.width := by rw [width, width, hdigits]
  have hexp' : x.exp = y.exp := by
    unfold lead at hlead
    omega
  cases x
  cases y
  simp_all

theorem not_mem_formatF : 'e' ∉ formatF x := by
  intro h
  rcases mem_append.mp h with h | h
  · rw [sign] at h
    split_ifs at h <;> simp at h
  · exact not_mem_point (.inr rfl) _ _ h

theorem mem_formatE {m : Nat} : 'e' ∈ formatE m x := by
  simp [formatE]

/-- **JSON texts of different numbers differ.** -/
theorem json_injective : Function.Injective json := by
  intro x y h
  unfold json at h
  split_ifs at h
  · exact formatE_injective 1 h
  · exact absurd (h ▸ mem_formatE) not_mem_formatF
  · exact absurd (h.symm ▸ mem_formatE) not_mem_formatF
  · exact formatF_injective h

/-! ## As a JSON literal -/

theorem isNumberChar_of_mem_point {k n : Nat} (h : c ∈ point k n) : isNumberChar c = true := by
  rcases point_mem h with hc | rfl
  · simp [isNumberChar, hc]
  · decide

theorem isNumberChar_of_mem_sign (h : c ∈ x.sign) : isNumberChar c = true := by
  rw [sign] at h
  split_ifs at h
  · rw [mem_singleton.mp h]
    decide
  · cases h

theorem isNumberChar_of_mem_json (h : c ∈ x.json) : isNumberChar c = true := by
  unfold json at h
  split_ifs at h
  · simp only [formatE, exponent, mem_append, mem_cons] at h
    rcases h with h | h | rfl | rfl | h
    · exact isNumberChar_of_mem_sign h
    · exact isNumberChar_of_mem_point h
    · decide
    · split_ifs <;> decide
    · simp [isNumberChar, isDigit_of_mem_pad h]
  · rcases mem_append.mp h with h | h
    · exact isNumberChar_of_mem_sign h
    · exact isNumberChar_of_mem_point h

theorem json_ne_nil (x : Decimal) : x.json ≠ [] := by
  unfold json formatE formatF
  split_ifs <;> simp [point_ne_nil]

end Decimal

end LlmRouter.Lib
