import LlmRouter.Lib.Json

/-!
# Reading JSON texts

A scanner in the manner of the usual streaming decoders: one character at a
time, with a stack of the containers that are still open. `parse` accepts the
JSON grammar, blanks included; a `\u` escape that is half of a surrogate pair
stands for U+FFFD. There is no limit on the nesting depth.
-/

namespace LlmRouter.Lib

open List

/-! ## Numbers -/

/-- Where a number literal is: at its sign, a leading zero, the digits, the fraction or the
exponent. -/
inductive NumState where
  | start | neg | zero | int | dot | frac | e | sign | exp
  deriving DecidableEq, Repr

namespace NumState

def pointOrExp (c : Char) : Option NumState :=
  if c = '.' then some .dot else if c = 'e' ∨ c = 'E' then some .e else none

def firstDigit (c : Char) : Option NumState :=
  if c = '0' then some .zero else if c.isDigit then some .int else none

def next : NumState → Char → Option NumState
  | .start, c => if c = '-' then some .neg else firstDigit c
  | .neg, c => firstDigit c
  | .zero, c => pointOrExp c
  | .int, c => if c.isDigit then some .int else pointOrExp c
  | .dot, c => if c.isDigit then some .frac else none
  | .frac, c =>
    if c.isDigit then some .frac else if c = 'e' ∨ c = 'E' then some .e else none
  | .e, c => if c = '+' ∨ c = '-' then some .sign else if c.isDigit then some .exp else none
  | .sign, c => if c.isDigit then some .exp else none
  | .exp, c => if c.isDigit then some .exp else none

def final : NumState → Bool
  | .zero | .int | .frac | .exp => true
  | _ => false

def run : NumState → List Char → Option NumState
  | st, [] => some st
  | st, c :: t => (st.next c).bind (run · t)

theorem run_append (st : NumState) (a b : List Char) :
    st.run (a ++ b) = (st.run a).bind (run · b) := by
  induction a generalizing st with
  | nil => rfl
  | cons c a ih =>
    show (st.next c).bind (run · (a ++ b)) = ((st.next c).bind (run · a)).bind (run · b)
    cases st.next c with
    | none => rfl
    | some st' => exact ih st'

theorem next_of_not_numberChar {c : Char} (h : Decimal.isNumberChar c = false) (st : NumState) :
    st.next c = none := by
  simp only [Decimal.isNumberChar, Bool.or_eq_false_iff, beq_eq_false_iff_ne] at h
  obtain ⟨⟨⟨⟨⟨hd, hminus⟩, hplus⟩, hdot⟩, he⟩, hE⟩ := h
  have hzero : c ≠ '0' := by
    rintro rfl
    cases hd
  cases st <;> simp [next, firstDigit, pointOrExp, hd, hminus, hplus, hdot, he, hE, hzero]

variable {st : NumState}

theorem run_digits {t : List Char} (hst : ∀ c, c.isDigit = true → st.next c = some st)
    (ht : ∀ c ∈ t, c.isDigit = true) : st.run t = some st := by
  induction t with
  | nil => rfl
  | cons c t ih =>
    rw [run, hst c (ht c mem_cons_self)]
    exact ih fun d hd => ht d (mem_cons_of_mem _ hd)

theorem run_digits_cons {st' : NumState} {t : List Char}
    (hfirst : ∀ c, c.isDigit = true → st.next c = some st')
    (hst : ∀ c, c.isDigit = true → st'.next c = some st') (hne : t ≠ [])
    (ht : ∀ c ∈ t, c.isDigit = true) : st.run t = some st' := by
  cases t with
  | nil => exact absurd rfl hne
  | cons c t =>
    rw [run, hfirst c (ht c mem_cons_self)]
    exact run_digits hst fun d hd => ht d (mem_cons_of_mem _ hd)

theorem head_toDigits_ne_zero {n : Nat} (hn : n ≠ 0) :
    ∃ c t, Nat.toDigits 10 n = c :: t ∧ c ≠ '0' := by
  induction n using Nat.strong_induction_on with
  | _ n ih =>
    rcases Nat.lt_or_ge n 10 with hlt | hge
    · refine ⟨_, [], Nat.toDigits_of_lt_base hlt, ?_⟩
      have hall : ∀ m < 10, m ≠ 0 → m.digitChar ≠ '0' := by decide
      exact hall n hlt hn
    · obtain ⟨c, t, hdigits, hc⟩ := ih (n / 10) (by omega) (by omega)
      refine ⟨c, t ++ [(n % 10).digitChar], ?_, hc⟩
      rw [Nat.toDigits_of_base_le (by omega) hge, hdigits, cons_append]

theorem run_toDigits (hst : ∀ c, c ≠ '-' → st.next c = firstDigit c) (n : Nat) :
    st.run (Nat.toDigits 10 n) = some .zero ∨ st.run (Nat.toDigits 10 n) = some .int := by
  by_cases hn : n = 0
  · subst hn
    left
    rw [Nat.toDigits_zero, run, hst '0' (by decide)]
    rfl
  · right
    obtain ⟨c, t, hdigits, hc⟩ := head_toDigits_ne_zero hn
    have hd : ∀ d ∈ c :: t, d.isDigit = true := fun d hd =>
      Text.isDigit_of_mem_toDigits (hdigits ▸ hd)
    have hcd := hd c mem_cons_self
    have hfirst : st.next c = some .int := by
      rw [hst c (by rintro rfl; cases hcd), firstDigit, if_neg hc, if_pos hcd]
    rw [hdigits, run, hfirst]
    exact run_digits (fun d hd => by simp [next, hd]) fun d h => hd d (mem_cons_of_mem _ h)

def accepts (t : List Char) : Bool := (start.run t).any final

theorem next_start_or_neg (neg : Bool) {c : Char} (hc : c ≠ '-') :
    (if neg then NumState.neg else .start).next c = firstDigit c := by
  cases neg
  · simp [next, hc]
  · rfl

theorem run_sign (neg : Bool) :
    start.run (if neg then ['-'] else []) = some (if neg then .neg else .start) := by
  cases neg <;> rfl

end NumState

def NumLit.wellFormed (n : NumLit) : Bool := NumState.accepts n.text

namespace Json

open NumState

theorem accepts_sign_toDigits (neg : Bool) (n : Nat) :
    accepts ((if neg then ['-'] else []) ++ Nat.toDigits 10 n) = true := by
  rw [accepts, run_append, run_sign, Option.bind_some]
  rcases run_toDigits (fun c => next_start_or_neg neg) n with h | h <;> rw [h] <;> rfl

theorem wellFormed_ofInt (i : Int) : accepts (toString i).toList = true := by
  cases i with
  | ofNat n =>
    have h := accepts_sign_toDigits false n
    rw [← Text.toList_toString_nat] at h
    exact h
  | negSucc n =>
    have h := accepts_sign_toDigits true (n + 1)
    rw [← Text.toList_toString_nat] at h
    rw [toList_toString_negSucc]
    exact h

end Json

namespace Decimal

open NumState

theorem run_point {st : NumState} (hst : ∀ c, c ≠ '-' → st.next c = firstDigit c) (k n : Nat) :
    ∃ st', st.run (point k n) = some st' ∧ (st' = .zero ∨ st' = .int ∨ st' = .frac) := by
  rw [point]
  split_ifs with hk
  · rcases run_toDigits hst n with h | h
    · exact ⟨_, h, .inl rfl⟩
    · exact ⟨_, h, .inr (.inl rfl)⟩
  · have hpad : NumState.dot.run (Text.pad k (n % 10 ^ k)) = some .frac := by
      refine run_digits_cons (fun c hc => by simp [NumState.next, hc])
        (fun c hc => by simp [NumState.next, hc]) ?_ fun c hc => Text.isDigit_of_mem_pad hc
      intro hnil
      have := Text.length_pad (Nat.pos_of_ne_zero hk) (Nat.mod_lt n (by positivity : 0 < 10 ^ k))
      rw [hnil] at this
      exact hk this.symm
    refine ⟨.frac, ?_, .inr (.inr rfl)⟩
    rw [run_append]
    rcases run_toDigits hst (n / 10 ^ k) with h | h
    · rw [h]
      exact hpad
    · rw [h]
      exact hpad

theorem accepts_json (x : Decimal) : accepts x.json = true := by
  have hst := fun c => @next_start_or_neg x.neg c
  unfold json
  split_ifs
  · obtain ⟨st', hrun, hst'⟩ := run_point hst (x.width - 1) x.digits
    have hexp : NumState.e.run (exponent 1 x.lead) = some .exp := by
      have hdigits : NumState.sign.run (Text.pad 1 x.lead.natAbs) = some .exp := by
        refine run_digits_cons (fun c hc => by simp [NumState.next, hc])
          (fun c hc => by simp [NumState.next, hc]) ?_ fun c hc => Text.isDigit_of_mem_pad hc
        simp [Text.pad, Nat.toDigits_ne_nil]
      rw [exponent, run]
      split_ifs
      · exact hdigits
      · exact hdigits
    rw [formatE, accepts, run_append, sign, run_sign, Option.bind_some, run_append, hrun]
    rcases hst' with rfl | rfl | rfl <;>
      · show ((NumState.e).run (exponent 1 x.lead)).any final = true
        rw [hexp]
        rfl
  · obtain ⟨st', hrun, hst'⟩ := run_point hst (-x.exp).toNat (x.digits * 10 ^ x.exp.toNat)
    rw [formatF, accepts, run_append, sign, run_sign, Option.bind_some, hrun]
    rcases hst' with rfl | rfl | rfl <;> rfl

end Decimal

namespace Json

/-! ## Strings -/

/-- Between two characters of a string, after a backslash, or in a `\u` escape. -/
inductive StrState where
  | plain
  | esc
  | hex (left value : Nat)
  deriving DecidableEq, Repr

def hexDigit (c : Char) : Option Nat :=
  if c.isDigit || ('a' ≤ c && c ≤ 'f') || ('A' ≤ c && c ≤ 'F') then some (hexVal c) else none

/-- One more character of a body, and the code unit that it completes; a closing quote is none. -/
def StrState.next : StrState → Char → Option (StrState × Option Nat)
  | .plain, c =>
    if c = '"' then none
    else if c = '\\' then some (.esc, none)
    else if c.toNat < 32 then none
    else some (.plain, some c.toNat)
  | .esc, c =>
    if c = 'u' then some (.hex 3 0, none)
    else (shortUnescape c).map fun d => (.plain, some d.toNat)
  | .hex left value, c =>
    (hexDigit c).map fun d =>
      match left with
      | 0 => (.plain, some (value * 16 + d))
      | left + 1 => (.hex left (value * 16 + d), none)

def readBody : StrState → List Char → Option (List Nat)
  | .plain, [] => some []
  | _, [] => none
  | st, c :: t =>
    (st.next c).bind fun (st', unit) => (readBody st' t).map (unit.toList ++ ·)

def isHigh (u : Nat) : Bool := 0xD800 ≤ u && u < 0xDC00

def isLow (u : Nat) : Bool := 0xDC00 ≤ u && u < 0xE000

/-- A code unit on its own; half of a pair is U+FFFD. -/
def unitChar (u : Nat) : Char := if isHigh u || isLow u then Char.ofNat 0xFFFD else Char.ofNat u

/-- The characters of code units, surrogate pairs joined. -/
def ofUnits : List Nat → List Char
  | [] => []
  | [u] => [unitChar u]
  | u :: v :: t =>
    if isHigh u && isLow v then
      Char.ofNat (0x10000 + (u - 0xD800) * 0x400 + (v - 0xDC00)) :: ofUnits t
    else unitChar u :: ofUnits (v :: t)

theorem not_surrogate (c : Char) : isHigh c.toNat = false ∧ isLow c.toNat = false := by
  have h := c.valid
  have hval : c.val.toNat = c.toNat := rfl
  simp only [UInt32.isValidChar, Nat.isValidChar, hval] at h
  simp only [isHigh, isLow, Bool.and_eq_false_iff, decide_eq_false_iff_not]
  omega

theorem unitChar_toNat (c : Char) : unitChar c.toNat = c := by
  obtain ⟨hhigh, hlow⟩ := not_surrogate c
  rw [unitChar, hhigh, hlow]
  exact Char.ofNat_toNat c

theorem ofUnits_map_toNat (cs : List Char) : ofUnits (cs.map Char.toNat) = cs := by
  induction cs with
  | nil => rfl
  | cons c cs ih =>
    cases cs with
    | nil =>
      show [unitChar c.toNat] = [c]
      rw [unitChar_toNat]
    | cons d cs =>
      rw [map_cons, map_cons] at *
      rw [ofUnits, (not_surrogate c).1, Bool.false_and, if_neg Bool.false_ne_true, ih,
        unitChar_toNat]

theorem hexDigit_digitChar : ∀ n < 16, hexDigit n.digitChar = some n := by decide

theorem readBody_hex4 {n : Nat} (hn : n < 65536) (t : List Char) :
    readBody .plain ('\\' :: 'u' :: (hex4 n ++ t)) = (readBody .plain t).map (n :: ·) := by
  have h : ∀ k, hexDigit (k % 16).digitChar = some (k % 16) := fun k =>
    hexDigit_digitChar _ (Nat.mod_lt _ (by omega))
  have hsum : ((n / 4096 % 16 * 16 + n / 256 % 16) * 16 + n / 16 % 16) * 16 + n % 16 = n := by
    omega
  have hu : ('\\' : Char) ≠ '"' := by decide
  simp only [hex4, cons_append, nil_append, readBody, StrState.next, h, if_neg hu,
    if_true, Option.map_some, Option.bind_some, Nat.zero_mul, Nat.zero_add, hsum, Option.map_map]
  rfl

theorem readBody_escapeChar (c : Char) (t : List Char) :
    readBody .plain (escapeChar c ++ t) = (readBody .plain t).map (c.toNat :: ·) := by
  unfold escapeChar
  cases hs : shortEscape c with
  | some e =>
    obtain ⟨hu, hback⟩ := shortEscape_cases hs
    have hq : ('\\' : Char) ≠ '"' := by decide
    simp only [cons_append, nil_append, readBody, StrState.next, if_neg hq, if_true,
      if_neg hu, hback, Option.map_some, Option.bind_some, Option.map_map]
    rfl
  | none =>
    by_cases hc : unicodeEscaped c = true
    · simp only [hc, if_true, cons_append]
      exact readBody_hex4 (toNat_lt_of_unicodeEscaped hc) t
    · have hq : c ≠ '"' := by rintro rfl; cases hs
      have hb : c ≠ '\\' := by rintro rfl; cases hs
      have hctl : ¬ c.toNat < 32 := by
        intro hlt
        exact hc (by simp [unicodeEscaped, hlt])
      simp [hc, readBody, StrState.next, hq, hb, hctl]

theorem readBody_escape (cs : List Char) :
    readBody .plain (escape cs) = some (cs.map Char.toNat) := by
  induction cs with
  | nil => rfl
  | cons c cs ih => rw [escape_cons, readBody_escapeChar, ih, map_cons, Option.map_some]

/-! ## Values -/

def isBlank (c : Char) : Bool := c == ' ' || c == '\t' || c == '\n' || c == '\r'

/-- An open container, its parts last first; an object with the key whose value
is due. -/
inductive Frame where
  | arr (elems : List Json)
  | obj (fields : List (String × Json)) (key : String)

/-- What the scanner is about to read: a value, the first element or key or the end of a container,
another key, the colon, what follows a part, blanks after the whole value; or it is inside a word, a
string or a number, whose parts are kept last first. -/
inductive Mode where
  | value
  | elem
  | key
  | nextKey
  | colon
  | next
  | done (v : Json)
  | word (rest : List Char) (v : Json)
  | str (isKey : Bool) (st : StrState) (units : List Nat)
  | num (st : NumState) (text : List Char)

structure Scan where
  mode : Mode
  stack : List Frame

namespace Scan

def deliver (v : Json) : List Frame → Scan
  | [] => ⟨.done v, []⟩
  | .arr vs :: stack => ⟨.next, .arr (v :: vs) :: stack⟩
  | .obj fs k :: stack => ⟨.next, .obj ((k, v) :: fs) k :: stack⟩

def deliverString (isKey : Bool) (s : String) (stack : List Frame) : Option Scan :=
  if isKey then
    match stack with
    | .obj fs _ :: stack => some ⟨.colon, .obj fs s :: stack⟩
    | _ => none
  else some (deliver (.str s) stack)

def close (c : Char) : List Frame → Option Scan
  | .arr vs :: stack => if c = ']' then some (deliver (.arr vs.reverse) stack) else none
  | .obj fs _ :: stack => if c = '}' then some (deliver (.obj fs.reverse) stack) else none
  | [] => none

def beginValue (c : Char) (stack : List Frame) : Option Scan :=
  if c = '"' then some ⟨.str false .plain [], stack⟩
  else if c = '[' then some ⟨.elem, .arr [] :: stack⟩
  else if c = '{' then some ⟨.key, .obj [] "" :: stack⟩
  else if c = 'n' then some ⟨.word ['u', 'l', 'l'] .null, stack⟩
  else if c = 't' then some ⟨.word ['r', 'u', 'e'] (.bool true), stack⟩
  else if c = 'f' then some ⟨.word ['a', 'l', 's', 'e'] (.bool false), stack⟩
  else (NumState.start.next c).map fun st => ⟨.num st [c], stack⟩

def afterValue (s : Scan) (c : Char) : Option Scan :=
  if isBlank c then some s
  else
    match s.mode, s.stack with
    | .next, .arr vs :: stack =>
      if c = ',' then some ⟨.value, .arr vs :: stack⟩ else close c (.arr vs :: stack)
    | .next, .obj fs k :: stack =>
      if c = ',' then some ⟨.nextKey, .obj fs k :: stack⟩ else close c (.obj fs k :: stack)
    | _, _ => none

def number (st : NumState) (text : List Char) : Option NumLit :=
  if h : text.reverse ≠ [] ∧ text.reverse.all Decimal.isNumberChar = true then
    if st.final then some ⟨text.reverse, h.1, all_eq_true.mp h.2⟩ else none
  else none

def step (s : Scan) (c : Char) : Option Scan :=
  match s.mode with
  | .value => if isBlank c then some s else beginValue c s.stack
  | .elem =>
    if isBlank c then some s
    else if c = ']' then close c s.stack
    else beginValue c s.stack
  | .key =>
    if isBlank c then some s
    else if c = '"' then some ⟨.str true .plain [], s.stack⟩
    else close c s.stack
  | .nextKey =>
    if isBlank c then some s
    else if c = '"' then some ⟨.str true .plain [], s.stack⟩
    else none
  | .colon => if isBlank c then some s else if c = ':' then some ⟨.value, s.stack⟩ else none
  | .next => s.afterValue c
  | .done _ => s.afterValue c
  | .word rest v =>
    if rest = [c] then some (deliver v s.stack)
    else if rest.head? = some c then some ⟨.word rest.tail v, s.stack⟩
    else none
  | .str isKey st units =>
    if st = .plain ∧ c = '"' then
      deliverString isKey (String.ofList (ofUnits units.reverse)) s.stack
    else (st.next c).map fun (st', unit) => ⟨.str isKey st' (unit.toList ++ units), s.stack⟩
  | .num st text =>
    match st.next c with
    | some st' => some ⟨.num st' (c :: text), s.stack⟩
    | none => (number st text).bind fun n => (deliver (.num n) s.stack).afterValue c

def result (s : Scan) : Option Json :=
  match s.mode with
  | .done v => some v
  | .num st text => if s.stack.isEmpty then (number st text).map .num else none
  | _ => none

def read (s : Scan) : List Char → Option Json
  | [] => s.result
  | c :: t => (s.step c).bind (read · t)

end Scan

def parse (text : List Char) : Option Json := Scan.read ⟨.value, []⟩ text

/-! ## Reading what was written -/

namespace Scan

variable {stack : List Frame} {t : List Char}

theorem read_cons (s : Scan) (c : Char) (t : List Char) :
    s.read (c :: t) = (s.step c).bind (read · t) := rfl

theorem step_str (isKey : Bool) (st : StrState) (units : List Nat) (stack : List Frame) (c : Char) :
    step ⟨.str isKey st units, stack⟩ c =
      if st = .plain ∧ c = '"' then
        deliverString isKey (String.ofList (ofUnits units.reverse)) stack
      else (st.next c).map fun (st', unit) => ⟨.str isKey st' (unit.toList ++ units), stack⟩ := rfl

theorem step_num (st : NumState) (text : List Char) (stack : List Frame) (c : Char) :
    step ⟨.num st text, stack⟩ c =
      match st.next c with
      | some st' => some ⟨.num st' (c :: text), stack⟩
      | none => (number st text).bind fun n => (deliver (.num n) stack).afterValue c := rfl

theorem read_body {isKey : Bool} {st : StrState} {units us : List Nat} {raw : List Char}
    (h : readBody st raw = some us) :
    read ⟨.str isKey st units, stack⟩ (raw ++ '"' :: t) =
      (deliverString isKey (String.ofList (ofUnits (units.reverse ++ us))) stack).bind
        (read · t) := by
  induction raw generalizing st units us with
  | nil =>
    cases st with
    | plain =>
      obtain rfl : [] = us := by simpa [readBody] using h
      rw [append_nil]
      rfl
    | esc => cases h
    | hex left value => cases h
  | cons c raw ih =>
    rw [readBody] at h
    obtain ⟨⟨st', unit⟩, hnext, hmap⟩ := Option.bind_eq_some_iff.mp h
    obtain ⟨us', hrest, rfl⟩ := Option.map_eq_some_iff.mp hmap
    have hquote : ¬ (st = .plain ∧ c = '"') := by
      rintro ⟨rfl, rfl⟩
      cases hnext
    rw [cons_append, read_cons, step_str, if_neg hquote, hnext]
    show read ⟨.str isKey st' (unit.toList ++ units), stack⟩ _ = _
    have hunits : (unit.toList ++ units).reverse ++ us' = units.reverse ++ (unit.toList ++ us') := by
      cases unit <;> simp
    rw [ih hrest, hunits]

theorem read_quote (s : String) :
    read ⟨.value, stack⟩ (quote s ++ t) = read (deliver (.str s) stack) t := by
  have hbody := readBody_escape s.toList
  rw [quote, cons_append, append_assoc]
  show read ⟨.str false .plain [], stack⟩ (escape s.toList ++ '"' :: t) = _
  rw [read_body hbody, reverse_nil, nil_append, ofUnits_map_toNat, String.ofList_toList]
  rfl

theorem read_key {m : Mode} (hm : m = .key ∨ m = .nextKey) {fs : List (String × Json)}
    (k k' : String) :
    read ⟨m, .obj fs k' :: stack⟩ (quote k ++ ':' :: t) = read ⟨.value, .obj fs k :: stack⟩ t := by
  have hbody := readBody_escape k.toList
  have hstart : read ⟨m, .obj fs k' :: stack⟩ (quote k ++ ':' :: t) =
      read ⟨.str true .plain [], .obj fs k' :: stack⟩ (escape k.toList ++ '"' :: ':' :: t) := by
    rw [quote, cons_append, append_assoc]
    rcases hm with rfl | rfl <;> rfl
  rw [hstart, read_body hbody, reverse_nil, nil_append, ofUnits_map_toNat, String.ofList_toList]
  rfl

theorem read_run {st st' : NumState} {text acc : List Char} (h : st.run text = some st') :
    read ⟨.num st acc, stack⟩ (text ++ t) = read ⟨.num st' (text.reverse ++ acc), stack⟩ t := by
  induction text generalizing st acc with
  | nil =>
    obtain rfl : st = st' := by simpa [NumState.run] using h
    rfl
  | cons c text ih =>
    rw [NumState.run] at h
    obtain ⟨st₁, hnext, hrun⟩ := Option.bind_eq_some_iff.mp h
    rw [cons_append, read_cons, step_num, hnext]
    show read ⟨.num st₁ (c :: acc), stack⟩ (text ++ t) = _
    rw [ih hrun, reverse_cons, append_assoc]
    rfl

theorem read_number {st : NumState} {acc : List Char} {n : NumLit} (hn : number st acc = some n)
    (ht : Stops t) :
    read ⟨.num st acc, stack⟩ t = read (deliver (.num n) stack) t := by
  cases t with
  | nil =>
    cases stack with
    | nil => show (number st acc).map Json.num = some (.num n); rw [hn]; rfl
    | cons f stack => cases f <;> rfl
  | cons c t =>
    have hnext := NumState.next_of_not_numberChar (ht c t rfl) st
    rw [read_cons, read_cons, step_num, hnext]
    simp only [hn, Option.bind_some]
    cases stack with
    | nil => rfl
    | cons f stack => cases f <;> rfl

theorem read_numLit {n : NumLit} (hn : n.wellFormed = true) (ht : Stops t) :
    read ⟨.value, stack⟩ (n.text ++ t) = read (deliver (.num n) stack) t := by
  obtain ⟨st, hrun, hfinal⟩ : ∃ st, NumState.start.run n.text = some st ∧ st.final = true := by
    rw [NumLit.wellFormed, NumState.accepts, Option.any_eq_true] at hn
    exact hn
  have hnumber : number st n.text.reverse = some n := by
    have hchars : n.text.all Decimal.isNumberChar = true := all_eq_true.mpr n.chars
    rw [number, dif_pos (by rw [reverse_reverse]; exact ⟨n.nonempty, hchars⟩), if_pos hfinal]
    simp only [reverse_reverse]
  cases htext : n.text with
  | nil => exact absurd htext n.nonempty
  | cons c text =>
    have hchar := n.chars c (htext ▸ mem_cons_self)
    rw [htext, NumState.run] at hrun
    obtain ⟨st₁, hnext, hrest⟩ := Option.bind_eq_some_iff.mp hrun
    have hne : ∀ d, Decimal.isNumberChar d = false → c ≠ d := by
      rintro d hd rfl
      rw [hchar] at hd
      cases hd
    have hstep : step ⟨.value, stack⟩ c = some ⟨.num st₁ [c], stack⟩ := by
      simp [step, beginValue, isBlank, hne ' ' (by decide), hne '\t' (by decide),
        hne '\n' (by decide), hne '\r' (by decide), hne '"' (by decide), hne '[' (by decide),
        hne '\x7b' (by decide), hne 'n' (by decide), hne 't' (by decide), hne 'f' (by decide), hnext]
    rw [cons_append, read_cons, hstep, Option.bind_some, read_run hrest]
    have hacc : text.reverse ++ [c] = n.text.reverse := by rw [htext, reverse_cons]
    rw [hacc, read_number hnumber ht]

end Scan

mutual

def Valid : Json → Prop
  | .num n => n.wellFormed = true
  | .arr vs => ValidElems vs
  | .obj fs => ValidFields fs
  | _ => True

def ValidElems : List Json → Prop
  | [] => True
  | v :: vs => Valid v ∧ ValidElems vs

def ValidFields : List (String × Json) → Prop
  | [] => True
  | (_, v) :: fs => Valid v ∧ ValidFields fs

end

namespace Scan

theorem read_elem (v : Json) (stack : List Frame) (t : List Char) :
    read ⟨.elem, stack⟩ (v.render ++ t) = read ⟨.value, stack⟩ (v.render ++ t) := by
  obtain ⟨c, r, hr, hhead⟩ := render_head v
  have hne : ∀ d, Decimal.isNumberChar d = false → d ∉ ['n', 't', 'f', '"', '[', '{'] → c ≠ d := by
    rintro d hnum hd rfl
    rcases hhead with h | h
    · rw [h] at hnum
      cases hnum
    · exact hd h
  have hclose : c ≠ ']' := hne _ rfl (by decide)
  have hblank : isBlank c = false := by
    simp [isBlank, hne ' ' rfl (by decide), hne '\t' rfl (by decide), hne '\n' rfl (by decide),
      hne '\r' rfl (by decide)]
  rw [hr, cons_append, read_cons, read_cons]
  simp only [step, hblank, Bool.false_eq_true, if_false, if_neg hclose]

mutual

theorem read_render {t : List Char} (ht : Stops t) (stack : List Frame) :
    ∀ v : Json, v.Valid → read ⟨.value, stack⟩ (v.render ++ t) = read (deliver v stack) t
  | .null, _ | .bool true, _ | .bool false, _ | .arr [], _ | .obj [], _ => by rw [render]; rfl
  | .num n, hv => by
    rw [render]
    rw [Valid] at hv
    exact read_numLit hv ht
  | .str s, _ => by
    rw [render]
    exact read_quote s
  | .arr (v :: vs), hv => by
    rw [Valid, ValidElems] at hv
    rw [render, cons_append, append_assoc]
    show read ⟨.elem, .arr [] :: stack⟩ _ = _
    rw [read_elem, read_render (stops_renderElems _ _) _ v hv.1]
    exact read_renderElems ht stack [v] vs hv.2
  | .obj ((k, v) :: fs), hv => by
    rw [Valid, ValidFields] at hv
    rw [render, cons_append, append_assoc, cons_append, append_assoc]
    show read ⟨.key, .obj [] "" :: stack⟩ _ = _
    rw [read_key (.inl rfl), read_render (stops_renderFields _ _) _ v hv.1]
    exact read_renderFields ht stack [(k, v)] k fs hv.2

theorem read_renderElems {t : List Char} (ht : Stops t) (stack : List Frame) (acc : List Json) :
    ∀ vs : List Json, ValidElems vs →
      read ⟨.next, .arr acc :: stack⟩ (renderElems vs ++ t) =
        read (deliver (.arr (acc.reverse ++ vs)) stack) t
  | [], _ => by
    rw [renderElems, append_nil]
    rfl
  | v :: vs, hv => by
    rw [ValidElems] at hv
    rw [renderElems, cons_append, append_assoc]
    show read ⟨.value, .arr acc :: stack⟩ _ = _
    rw [read_render (stops_renderElems _ _) _ v hv.1]
    have h := read_renderElems ht stack (v :: acc) vs hv.2
    rw [reverse_cons, append_assoc] at h
    exact h

theorem read_renderFields {t : List Char} (ht : Stops t) (stack : List Frame)
    (acc : List (String × Json)) (k' : String) :
    ∀ fs : List (String × Json), ValidFields fs →
      read ⟨.next, .obj acc k' :: stack⟩ (renderFields fs ++ t) =
        read (deliver (.obj (acc.reverse ++ fs)) stack) t
  | [], _ => by
    rw [renderFields, append_nil]
    rfl
  | (k, v) :: fs, hv => by
    rw [ValidFields] at hv
    rw [renderFields, cons_append, append_assoc, cons_append, append_assoc]
    show read ⟨.nextKey, .obj acc k' :: stack⟩ _ = _
    rw [read_key (.inr rfl), read_render (stops_renderFields _ _) _ v hv.1]
    have h := read_renderFields ht stack ((k, v) :: acc) k fs hv.2
    rw [reverse_cons, append_assoc] at h
    exact h

end

end Scan

/-- **Reading undoes writing.** -/
theorem parse_render {v : Json} (hv : v.Valid) : parse v.render = some v := by
  have h := Scan.read_render stops_nil [] v hv
  rw [append_nil] at h
  exact h

theorem parse_render_newline {v : Json} (hv : v.Valid) : parse (v.render ++ ['\n']) = some v :=
  Scan.read_render (stops_cons (by decide) []) [] v hv

theorem eq_of_render {v v' : Json} (hv : v.Valid) (hv' : v'.Valid) (h : v.render = v'.render) :
    v = v' := by
  have hparse := parse_render hv
  rw [h, parse_render hv'] at hparse
  exact (Option.some.inj hparse).symm

theorem valid_ofDecimal (x : Decimal) : (Json.ofDecimal x).Valid := by
  rw [Json.ofDecimal, Json.Valid]
  exact x.accepts_json

theorem valid_ofInt (i : Int) : (Json.ofInt i).Valid := by
  rw [Json.ofInt, Json.Valid]
  exact wellFormed_ofInt i

/-! ## What is read is valid -/

theorem validElems_iff {vs : List Json} : ValidElems vs ↔ ∀ v ∈ vs, v.Valid := by
  induction vs with
  | nil => simp [ValidElems]
  | cons v vs ih => rw [ValidElems, ih, forall_mem_cons]

theorem valid_arr_map {α : Type*} {f : α → Json} {l : List α} (h : ∀ a ∈ l, (f a).Valid) :
    (Json.arr (l.map f)).Valid := by
  rw [Json.Valid, validElems_iff, forall_mem_map]
  exact h

theorem validFields_nil : ValidFields [] := by
  rw [ValidFields]
  trivial

theorem validFields_iff {fs : List (String × Json)} :
    ValidFields fs ↔ ∀ kv ∈ fs, kv.2.Valid := by
  induction fs with
  | nil => simp [ValidFields]
  | cons kv fs ih =>
    obtain ⟨k, v⟩ := kv
    rw [ValidFields, ih, forall_mem_cons]

def Frame.Valid : Frame → Prop
  | .arr vs => ValidElems vs
  | .obj fs _ => ValidFields fs

def Mode.Valid : Mode → Prop
  | .done v => v.Valid
  | .word _ v => v.Valid
  | .num st text => NumState.start.run text.reverse = some st
  | _ => True

def Mode.between : Mode → Bool
  | .word _ _ | .str _ _ _ | .num _ _ => false
  | _ => true

namespace Scan

/-! ### What one character can do -/

inductive Moves : Scan → Char → Scan → Prop where
  | blank {m stack c} (hm : m.between = true) (hc : isBlank c = true) :
      Moves ⟨m, stack⟩ c ⟨m, stack⟩
  | quote {m stack} (hm : m.between = true) (isKey : Bool) :
      Moves ⟨m, stack⟩ '"' ⟨.str isKey .plain [], stack⟩
  | openArr {m stack} (hm : m.between = true) : Moves ⟨m, stack⟩ '[' ⟨.elem, .arr [] :: stack⟩
  | openObj {m stack} (hm : m.between = true) : Moves ⟨m, stack⟩ '{' ⟨.key, .obj [] "" :: stack⟩
  | word {m stack c rest v} (hm : m.between = true) (hc : c.isAlpha = true)
      (hrest : rest.all Char.isAlpha = true) (hv : v.Valid) :
      Moves ⟨m, stack⟩ c ⟨.word rest v, stack⟩
  | number {m stack c st} (hm : m.between = true) (h : NumState.start.next c = some st) :
      Moves ⟨m, stack⟩ c ⟨.num st [c], stack⟩
  | closeArr {m vs stack} (hm : m.between = true) :
      Moves ⟨m, .arr vs :: stack⟩ ']' (deliver (.arr vs.reverse) stack)
  | closeObj {m fs k stack} (hm : m.between = true) :
      Moves ⟨m, .obj fs k :: stack⟩ '}' (deliver (.obj fs.reverse) stack)
  | comma {vs stack} : Moves ⟨.next, .arr vs :: stack⟩ ',' ⟨.value, .arr vs :: stack⟩
  | commaKey {fs k stack} : Moves ⟨.next, .obj fs k :: stack⟩ ',' ⟨.nextKey, .obj fs k :: stack⟩
  | colon {stack} : Moves ⟨.colon, stack⟩ ':' ⟨.value, stack⟩
  | letter {rest v stack c} (h : rest.head? = some c) :
      Moves ⟨.word rest v, stack⟩ c ⟨.word rest.tail v, stack⟩
  | lastLetter {v stack c} : Moves ⟨.word [c] v, stack⟩ c (deliver v stack)
  | char {isKey st st' unit units stack c} (hc : ¬ (st = .plain ∧ c = '"'))
      (h : st.next c = some (st', unit)) :
      Moves ⟨.str isKey st units, stack⟩ c ⟨.str isKey st' (unit.toList ++ units), stack⟩
  | endKey {units fs k stack} (key : String) :
      Moves ⟨.str true .plain units, .obj fs k :: stack⟩ '"' ⟨.colon, .obj fs key :: stack⟩
  | endString {units stack} (text : String) :
      Moves ⟨.str false .plain units, stack⟩ '"' (deliver (.str text) stack)
  | digit {st st' text stack c} (h : st.next c = some st') :
      Moves ⟨.num st text, stack⟩ c ⟨.num st' (c :: text), stack⟩
  | endNumber {st text n stack c s'} (hn : Scan.number st text = some n)
      (h : Moves (deliver (.num n) stack) c s') : Moves ⟨.num st text, stack⟩ c s'

variable {stack : List Frame} {c : Char} {s s' : Scan}

theorem between_deliver (v : Json) (stack : List Frame) : (deliver v stack).mode.between = true := by
  cases stack with
  | nil => rfl
  | cons f stack => cases f <;> rfl

section Between

variable {m : Mode} (hm : m.between = true)

include hm

theorem close_moves (h : close c stack = some s') : Moves ⟨m, stack⟩ c s' := by
  cases stack with
  | nil => cases h
  | cons f stack =>
    cases f with
    | arr vs =>
      obtain ⟨rfl, ⟨⟩⟩ := Option.ite_none_right_eq_some.mp h
      exact .closeArr hm
    | obj fs k =>
      obtain ⟨rfl, ⟨⟩⟩ := Option.ite_none_right_eq_some.mp h
      exact .closeObj hm

theorem beginValue_moves (h : beginValue c stack = some s') : Moves ⟨m, stack⟩ c s' := by
  unfold beginValue at h
  split_ifs at h <;> subst_vars
  · obtain ⟨⟩ := h
    exact .quote hm false
  · obtain ⟨⟩ := h
    exact .openArr hm
  · obtain ⟨⟩ := h
    exact .openObj hm
  · obtain ⟨⟩ := h
    exact .word hm rfl rfl trivial
  · obtain ⟨⟩ := h
    exact .word hm rfl rfl trivial
  · obtain ⟨⟩ := h
    exact .word hm rfl rfl trivial
  · obtain ⟨st, hst, rfl⟩ := Option.map_eq_some_iff.mp h
    exact .number hm hst

end Between

theorem afterValue_moves (hs : s.mode.between = true) (h : s.afterValue c = some s') :
    s.Moves c s' := by
  obtain ⟨mode, stack⟩ := s
  unfold afterValue at h
  by_cases hblank : isBlank c = true
  · rw [if_pos hblank] at h
    obtain ⟨⟩ := h
    exact .blank hs hblank
  · rw [if_neg hblank] at h
    split at h
    next hmode hstack =>
      obtain ⟨rfl, rfl⟩ : mode = .next ∧ stack = _ := ⟨hmode, hstack⟩
      split_ifs at h with hcomma
      · obtain ⟨⟩ := h
        exact hcomma ▸ .comma
      · exact close_moves hs h
    next hmode hstack =>
      obtain ⟨rfl, rfl⟩ : mode = .next ∧ stack = _ := ⟨hmode, hstack⟩
      split_ifs at h with hcomma
      · obtain ⟨⟩ := h
        exact hcomma ▸ .commaKey
      · exact close_moves hs h
    next => cases h

theorem step_moves (h : s.step c = some s') : s.Moves c s' := by
  obtain ⟨mode, stack⟩ := s
  cases mode <;> dsimp only [step] at h
  case value =>
    split_ifs at h with hblank
    · obtain ⟨⟩ := h
      exact .blank rfl hblank
    · exact beginValue_moves rfl h
  case elem =>
    split_ifs at h with hblank
    · obtain ⟨⟩ := h
      exact .blank rfl hblank
    · exact close_moves rfl h
    · exact beginValue_moves rfl h
  case key =>
    split_ifs at h with hblank hquote
    · obtain ⟨⟩ := h
      exact .blank rfl hblank
    · obtain ⟨⟩ := h
      exact hquote ▸ .quote rfl true
    · exact close_moves rfl h
  case nextKey =>
    split_ifs at h with hblank hquote
    · obtain ⟨⟩ := h
      exact .blank rfl hblank
    · obtain ⟨⟩ := h
      exact hquote ▸ .quote rfl true
  case colon =>
    split_ifs at h with hblank hcolon
    · obtain ⟨⟩ := h
      exact .blank rfl hblank
    · obtain ⟨⟩ := h
      exact hcolon ▸ .colon
  case next => exact afterValue_moves rfl h
  case done v => exact afterValue_moves rfl h
  case word rest v =>
    split_ifs at h with hlast hhead
    · obtain ⟨⟩ := h
      exact hlast ▸ .lastLetter
    · obtain ⟨⟩ := h
      exact .letter hhead
  case str isKey st units =>
    split_ifs at h with hquote
    · obtain ⟨rfl, rfl⟩ := hquote
      unfold deliverString at h
      split_ifs at h with hkey
      · subst hkey
        split at h
        next =>
          obtain ⟨⟩ := h
          exact .endKey _
        next => cases h
      · obtain rfl := Bool.eq_false_of_not_eq_true hkey
        obtain ⟨⟩ := h
        exact .endString _
    · obtain ⟨r, hnext, rfl⟩ := Option.map_eq_some_iff.mp h
      exact .char hquote hnext
  case num st text =>
    split at h
    next hnext =>
      obtain ⟨⟩ := h
      exact .digit hnext
    next =>
      obtain ⟨n, hn, hafter⟩ := Option.bind_eq_some_iff.mp h
      exact .endNumber hn (afterValue_moves (between_deliver _ _) hafter)

/-! ### What is read is valid -/

structure Valid (s : Scan) : Prop where
  mode : s.mode.Valid
  stack : ∀ f ∈ s.stack, f.Valid

theorem valid_deliver {v : Json} (hv : v.Valid) (hs : ∀ f ∈ stack, f.Valid) :
    (deliver v stack).Valid := by
  cases stack with
  | nil => exact ⟨hv, hs⟩
  | cons f stack =>
    obtain ⟨hf, hrest⟩ := forall_mem_cons.mp hs
    cases f with
    | arr vs =>
      have htop : ValidElems (v :: vs) := by
        rw [ValidElems]
        exact ⟨hv, hf⟩
      exact ⟨trivial, forall_mem_cons.mpr ⟨htop, hrest⟩⟩
    | obj fs k =>
      have htop : ValidFields ((k, v) :: fs) := by
        rw [ValidFields]
        exact ⟨hv, hf⟩
      exact ⟨trivial, forall_mem_cons.mpr ⟨htop, hrest⟩⟩

theorem valid_number {st : NumState} {text : List Char} {n : NumLit}
    (hrun : NumState.start.run text.reverse = some st) (h : number st text = some n) :
    (Json.num n).Valid := by
  unfold number at h
  split_ifs at h with hchars hfinal
  obtain ⟨⟩ := h
  rw [Json.Valid, NumLit.wellFormed, NumState.accepts, hrun]
  exact hfinal

theorem Moves.valid (h : s.Moves c s') (hs : s.Valid) : s'.Valid := by
  have hstack := hs.stack
  induction h with
  | blank => exact hs
  | quote | comma | commaKey | colon | char => exact ⟨trivial, hstack⟩
  | openArr | openObj => exact ⟨trivial, forall_mem_cons.mpr ⟨trivial, hstack⟩⟩
  | word _ _ _ hv => exact ⟨hv, hstack⟩
  | @number _ _ c st _ hst =>
    refine ⟨?_, hstack⟩
    show NumState.start.run [c] = some st
    rw [NumState.run, hst]
    rfl
  | closeArr =>
    obtain ⟨hf, hrest⟩ := forall_mem_cons.mp hstack
    refine valid_deliver ?_ hrest
    rw [Json.Valid, validElems_iff]
    exact fun v hv => validElems_iff.mp hf v (mem_reverse.mp hv)
  | closeObj =>
    obtain ⟨hf, hrest⟩ := forall_mem_cons.mp hstack
    refine valid_deliver ?_ hrest
    rw [Json.Valid, validFields_iff]
    exact fun v hv => validFields_iff.mp hf v (mem_reverse.mp hv)
  | letter => exact ⟨hs.mode, hstack⟩
  | lastLetter => exact valid_deliver hs.mode hstack
  | endKey =>
    obtain ⟨hf, hrest⟩ := forall_mem_cons.mp hstack
    exact ⟨trivial, forall_mem_cons.mpr ⟨hf, hrest⟩⟩
  | endString => exact valid_deliver trivial hstack
  | @digit st st' text _ c hnext =>
    have hrun : NumState.start.run text.reverse = some st := hs.mode
    refine ⟨?_, hstack⟩
    show NumState.start.run (c :: text).reverse = some st'
    rw [reverse_cons, NumState.run_append, hrun, Option.bind_some, NumState.run, hnext]
    rfl
  | endNumber hn _ ih =>
    have hvalid := valid_deliver (valid_number hs.mode hn) hstack
    exact ih hvalid hvalid.stack

theorem valid_read {t : List Char} {v : Json} (hs : s.Valid) (h : s.read t = some v) :
    v.Valid := by
  induction t generalizing s with
  | nil =>
    obtain ⟨mode, stack⟩ := s
    cases mode with
    | done w =>
      obtain ⟨⟩ := h
      exact hs.mode
    | num st text =>
      replace h : (if stack.isEmpty then (number st text).map Json.num else none) = some v := h
      rw [Option.ite_none_right_eq_some] at h
      obtain ⟨n, hn, rfl⟩ := Option.map_eq_some_iff.mp h.2
      exact valid_number hs.mode hn
    | _ => cases h
  | cons c t ih =>
    obtain ⟨s', hstep, hrest⟩ := Option.bind_eq_some_iff.mp h
    exact ih ((step_moves hstep).valid hs) hrest

end Scan

theorem valid_of_parse {text : List Char} {v : Json} (h : parse text = some v) : v.Valid := by
  have hstart : Scan.Valid ⟨.value, []⟩ := ⟨trivial, fun f hf => absurd hf not_mem_nil⟩
  exact Scan.valid_read hstart h

example : parse ['[', '1', ' ', ',', '-', '2', ']'] = some (.arr [.ofInt 1, .ofInt (-2)]) := by rfl

example : parse ['[', '1', ',', ']'] = none := by rfl

end Json

end LlmRouter.Lib
