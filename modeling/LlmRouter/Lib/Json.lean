import LlmRouter.Lib.Decimal

/-!
# JSON values and their compact texts

`render` writes a value the way an HTML-escaping encoder does: no blanks,
object fields in the order given, `<`, `>`, `&` and the two Unicode line
separators escaped.
-/

namespace LlmRouter.Lib

open List

structure NumLit where
  text : List Char
  nonempty : text ≠ []
  chars : ∀ c ∈ text, Decimal.isNumberChar c = true
  deriving DecidableEq

/-- A JSON value; objects are ordered and may repeat a key. -/
inductive Json where
  | null
  | bool (b : Bool)
  | num (n : NumLit)
  | str (s : String)
  | arr (elems : List Json)
  | obj (fields : List (String × Json))

namespace Json

def ofDecimal (x : Decimal) : Json :=
  .num ⟨x.json, x.json_ne_nil, fun _ h => Decimal.isNumberChar_of_mem_json h⟩

theorem toList_toString_negSucc (n : Nat) :
    (toString (Int.negSucc n)).toList = '-' :: (toString (n + 1)).toList := by
  rw [show toString (Int.negSucc n) = "-" ++ toString (n + 1) from rfl, String.toList_append]
  rfl

variable {c : Char} {r r' : List Char}

theorem isNumberChar_of_mem_repr {i : Int} (h : c ∈ (toString i).toList) :
    Decimal.isNumberChar c = true := by
  have hdigit : ∀ n : Nat, c ∈ (toString n).toList → Decimal.isNumberChar c = true := by
    intro n hn
    rw [Text.toList_toString_nat] at hn
    simp [Decimal.isNumberChar, Text.isDigit_of_mem_toDigits hn]
  cases i with
  | ofNat n => exact hdigit n h
  | negSucc n =>
    rw [toList_toString_negSucc, mem_cons] at h
    rcases h with rfl | h
    · decide
    · exact hdigit _ h

theorem toList_toString_int_ne_nil (i : Int) : (toString i).toList ≠ [] := by
  have hnat : ∀ n : Nat, (toString n).toList ≠ [] := by
    intro n
    rw [Text.toList_toString_nat]
    exact Nat.toDigits_ne_nil
  cases i with
  | ofNat n => exact hnat n
  | negSucc n =>
    rw [toList_toString_negSucc]
    exact cons_ne_nil _ _

def ofInt (i : Int) : Json :=
  .num ⟨(toString i).toList, toList_toString_int_ne_nil i, fun _ h => isNumberChar_of_mem_repr h⟩

/-! ## Strings -/

def shortEscape (c : Char) : Option Char :=
  if c = '"' then some '"'
  else if c = '\\' then some '\\'
  else if c = '\n' then some 'n'
  else if c = '\r' then some 'r'
  else if c = '\t' then some 't'
  else if c = Char.ofNat 8 then some 'b'
  else if c = Char.ofNat 12 then some 'f'
  else none

def shortUnescape (e : Char) : Option Char :=
  if e = '"' then some '"'
  else if e = '\\' then some '\\'
  else if e = 'n' then some '\n'
  else if e = 'r' then some '\r'
  else if e = 't' then some '\t'
  else if e = 'b' then some (Char.ofNat 8)
  else if e = 'f' then some (Char.ofNat 12)
  else if e = '/' then some '/'
  else none

/-- Characters written as `\uXXXX`: the other control characters, those that
matter in HTML, and the two line separators. -/
def unicodeEscaped (c : Char) : Bool :=
  decide (c.toNat < 32) || c == '<' || c == '>' || c == '&' ||
    c.toNat == 0x2028 || c.toNat == 0x2029

def hex4 (n : Nat) : List Char :=
  [(n / 4096 % 16).digitChar, (n / 256 % 16).digitChar, (n / 16 % 16).digitChar,
    (n % 16).digitChar]

def escapeChar (c : Char) : List Char :=
  match shortEscape c with
  | some e => ['\\', e]
  | none => if unicodeEscaped c then '\\' :: 'u' :: hex4 c.toNat else [c]

def hexVal (c : Char) : Nat :=
  if c.isDigit then c.toNat - 48 else if c.toNat < 97 then c.toNat - 55 else c.toNat - 87

theorem shortEscape_cases {e : Char} (h : shortEscape c = some e) :
    e ≠ 'u' ∧ shortUnescape e = some c := by
  unfold shortEscape at h
  split_ifs at h <;> (cases h; subst_vars; decide)

theorem toNat_lt_of_unicodeEscaped (hc : unicodeEscaped c = true) : c.toNat < 65536 := by
  simp only [unicodeEscaped, Bool.or_eq_true, decide_eq_true_eq, beq_iff_eq] at hc
  rcases hc with ((((hc | rfl) | rfl) | rfl) | hc) | hc
  · omega
  · decide
  · decide
  · decide
  · omega
  · omega

def escape (cs : List Char) : List Char := cs.flatMap escapeChar

def quote (s : String) : List Char := '"' :: (escape s.toList ++ ['"'])

theorem escape_cons (c : Char) (cs : List Char) : escape (c :: cs) = escapeChar c ++ escape cs :=
  flatMap_cons ..

/-! ## Values -/

mutual

def render : Json → List Char
  | .null => ['n', 'u', 'l', 'l']
  | .bool true => ['t', 'r', 'u', 'e']
  | .bool false => ['f', 'a', 'l', 's', 'e']
  | .num n => n.text
  | .str s => quote s
  | .arr [] => ['[', ']']
  | .arr (v :: vs) => '[' :: (render v ++ renderElems vs)
  | .obj [] => ['{', '}']
  | .obj ((k, v) :: fs) => '{' :: (quote k ++ ':' :: (render v ++ renderFields fs))

def renderElems : List Json → List Char
  | [] => [']']
  | v :: vs => ',' :: (render v ++ renderElems vs)

def renderFields : List (String × Json) → List Char
  | [] => ['}']
  | (k, v) :: fs => ',' :: (quote k ++ ':' :: (render v ++ renderFields fs))

end

/-! ## No control characters -/

theorem le_of_mem_escapeChar {d : Char} (h : d ∈ escapeChar c) : 32 ≤ d.toNat := by
  have hdigit : ∀ n < 16, 32 ≤ n.digitChar.toNat := by decide
  unfold escapeChar at h
  cases hshort : shortEscape c with
  | some e =>
    rw [hshort] at h
    rcases mem_cons.mp h with rfl | h
    · decide
    · obtain rfl := mem_singleton.mp h
      unfold shortEscape at hshort
      split_ifs at hshort <;> cases hshort <;> decide
  | none =>
    rw [hshort] at h
    dsimp only at h
    split at h
    · simp only [hex4, mem_cons, not_mem_nil, or_false] at h
      rcases h with rfl | rfl | rfl | rfl | rfl | rfl
      · decide
      · decide
      all_goals exact hdigit _ (Nat.mod_lt _ (by decide))
    case isFalse hplain =>
      obtain rfl := mem_singleton.mp h
      by_contra hlt
      exact hplain (by simp [unicodeEscaped, Nat.lt_of_not_le hlt])

theorem le_of_mem_quote {s : String} (h : c ∈ quote s) : 32 ≤ c.toNat := by
  rcases mem_cons.mp h with rfl | h
  · decide
  · rcases mem_append.mp h with h | h
    · obtain ⟨d, -, hd⟩ := mem_flatMap.mp h
      exact le_of_mem_escapeChar hd
    · obtain rfl := mem_singleton.mp h
      decide

theorem le_of_isNumberChar (h : Decimal.isNumberChar c = true) : 32 ≤ c.toNat := by
  by_contra hlt
  have hsmall : ∀ n < 32, Decimal.isNumberChar (Char.ofNat n) = false := by decide
  have := hsmall c.toNat (Nat.lt_of_not_le hlt)
  rw [Char.ofNat_toNat, h] at this
  cases this

theorem le_of_mem_of_all {t : List Char} (ht : t.all (fun c => 32 ≤ c.toNat) = true) (h : c ∈ t) :
    32 ≤ c.toNat :=
  of_decide_eq_true (all_eq_true.mp ht c h)

mutual

/-- No control character is written. -/
theorem le_of_mem_render {c : Char} : ∀ v : Json, c ∈ render v → 32 ≤ c.toNat
  | .null, h => le_of_mem_of_all (by decide) h
  | .bool true, h => le_of_mem_of_all (by decide) h
  | .bool false, h => le_of_mem_of_all (by decide) h
  | .num n, h => le_of_isNumberChar (n.chars c (by rwa [render] at h))
  | .str s, h => le_of_mem_quote (by rwa [render] at h)
  | .arr [], h => le_of_mem_of_all (by decide) h
  | .arr (v :: vs), h => by
    rw [render, mem_cons, mem_append] at h
    rcases h with rfl | h | h
    · decide
    · exact le_of_mem_render v h
    · exact le_of_mem_renderElems vs h
  | .obj [], h => le_of_mem_of_all (by decide) h
  | .obj ((k, v) :: fs), h => by
    rw [render, mem_cons, mem_append, mem_cons, mem_append] at h
    rcases h with rfl | h | rfl | h | h
    · decide
    · exact le_of_mem_quote h
    · decide
    · exact le_of_mem_render v h
    · exact le_of_mem_renderFields fs h

theorem le_of_mem_renderElems {c : Char} : ∀ vs : List Json, c ∈ renderElems vs → 32 ≤ c.toNat
  | [], h => le_of_mem_of_all (by decide) h
  | v :: vs, h => by
    rw [renderElems, mem_cons, mem_append] at h
    rcases h with rfl | h | h
    · decide
    · exact le_of_mem_render v h
    · exact le_of_mem_renderElems vs h

theorem le_of_mem_renderFields {c : Char} :
    ∀ fs : List (String × Json), c ∈ renderFields fs → 32 ≤ c.toNat
  | [], h => le_of_mem_of_all (by decide) h
  | (k, v) :: fs, h => by
    rw [renderFields, mem_cons, mem_append, mem_cons, mem_append] at h
    rcases h with rfl | h | rfl | h | h
    · decide
    · exact le_of_mem_quote h
    · decide
    · exact le_of_mem_render v h
    · exact le_of_mem_renderFields fs h

end

def Stops (r : List Char) : Prop := ∀ c t, r = c :: t → Decimal.isNumberChar c = false

theorem stops_nil : Stops [] := by
  intro c t h
  cases h

theorem stops_cons (h : Decimal.isNumberChar c = false) (t : List Char) : Stops (c :: t) := by
  rintro _ _ ⟨⟩
  exact h

theorem stops_renderElems (vs : List Json) (r : List Char) : Stops (renderElems vs ++ r) := by
  cases vs <;> exact stops_cons (by decide) _

theorem stops_renderFields (fs : List (String × Json)) (r : List Char) :
    Stops (renderFields fs ++ r) := by
  cases fs <;> exact stops_cons (by decide) _

theorem render_head (v : Json) : ∃ c t, render v = c :: t ∧
    (Decimal.isNumberChar c = true ∨ c ∈ ['n', 't', 'f', '"', '[', '{']) := by
  match v with
  | .null | .bool true | .bool false | .arr [] | .arr (_ :: _) | .obj [] | .obj ((_, _) :: _) =>
    exact ⟨_, _, by rw [render], .inr (by decide)⟩
  | .num n =>
    cases htext : n.text with
    | nil => exact absurd htext n.nonempty
    | cons c t => exact ⟨c, t, by rw [render, htext], .inl (n.chars c (htext ▸ mem_cons_self))⟩
  | .str s => exact ⟨_, _, by rw [render, quote], .inr (by decide)⟩

/-! ## Numbers -/

theorem ofDecimal_injective : Function.Injective ofDecimal := by
  intro x y h
  simp only [ofDecimal, Json.num.injEq, NumLit.mk.injEq] at h
  exact Decimal.json_injective h

theorem ofInt_injective : Function.Injective ofInt := by
  intro i j h
  simp only [ofInt, Json.num.injEq, NumLit.mk.injEq] at h
  -- a minus sign never starts the digits of a natural number
  have hminus : ∀ m n : Nat, (toString m).toList ≠ '-' :: (toString n).toList := by
    intro m n hmn
    have := Text.not_mem_toString_nat (c := '-') (by decide) m
    exact this (hmn ▸ mem_cons_self)
  cases i with
  | ofNat m =>
    cases j with
    | ofNat n => exact congrArg Int.ofNat (Text.toString_nat_injective h)
    | negSucc n =>
      rw [toList_toString_negSucc] at h
      exact absurd h (hminus m (n + 1))
  | negSucc m =>
    rw [toList_toString_negSucc] at h
    cases j with
    | ofNat n => exact absurd h.symm (hminus n (m + 1))
    | negSucc n =>
      rw [toList_toString_negSucc, cons.injEq] at h
      have := Text.toString_nat_injective h.2
      rw [Nat.succ.inj this]

end Json

end LlmRouter.Lib
