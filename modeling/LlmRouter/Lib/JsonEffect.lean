import LlmRouter.Lib.JsonScan

/-!
# What one character does to the scanner

Seen from outside, the scanner of `parse` is in a string or outside of strings, and some
containers are open: its `Outline`, which each character moves on whatever the values are
(`step_effect`).
-/

namespace LlmRouter.Lib.Json

open List

def Frame.isObj : Frame → Bool
  | .arr _ => false
  | .obj _ _ => true

/-- Where the scanner is in a string, and which containers are open, the innermost
first; `true` is an object. -/
structure Outline where
  str : Option StrState
  kinds : List Bool
  deriving DecidableEq, Repr

namespace Outline

def pop (o : Outline) (kind : Bool) : Option Outline :=
  if o.kinds.head? = some kind then some { o with kinds := o.kinds.tail } else none

variable {o : Outline}

theorem pop_eq_some {o' : Outline} {kind : Bool} (h : o.pop kind = some o') :
    o = ⟨o'.str, kind :: o'.kinds⟩ := by
  obtain ⟨str, kinds⟩ := o
  obtain ⟨hhead, ⟨⟩⟩ := Option.ite_none_right_eq_some.mp h
  cases kinds with
  | nil => cases hhead
  | cons k ks =>
    obtain rfl : k = kind := Option.some.inj hhead
    rfl

def next (o : Outline) (c : Char) : Option Outline :=
  match o.str with
  | some st =>
    if st = .plain ∧ c = '"' then some { o with str := none }
    else (st.next c).map fun r => { o with str := some r.1 }
  | none =>
    if c = '"' then some { o with str := some .plain }
    else if c = '{' then some { o with kinds := true :: o.kinds }
    else if c = '[' then some { o with kinds := false :: o.kinds }
    else if c = '}' then o.pop true
    else if c = ']' then o.pop false
    else some o

def isInert (c : Char) : Bool := c != '"' && c != '{' && c != '[' && c != '}' && c != ']'

theorem next_of_isInert {c : Char} (ho : o.str = none) (hc : isInert c = true) :
    o.next c = some o := by
  simp only [isInert, Bool.and_eq_true, bne_iff_ne] at hc
  obtain ⟨⟨⟨⟨hquote, hbrace⟩, hbracket⟩, hbrace'⟩, hbracket'⟩ := hc
  rw [next, ho]
  show (if _ then _ else _ : Option Outline) = _
  rw [if_neg hquote, if_neg hbrace, if_neg hbracket, if_neg hbrace', if_neg hbracket']

theorem next_kinds {o' : Outline} {c : Char} (h : o.next c = some o') :
    o'.kinds = o.kinds ∨ (∃ kind, o'.kinds = kind :: o.kinds) ∨
      o.str = none ∧ (c = '}' ∧ o.kinds = true :: o'.kinds ∨
        c = ']' ∧ o.kinds = false :: o'.kinds) := by
  unfold next at h
  split at h
  case h_1 =>
    split_ifs at h
    · obtain ⟨⟩ := h
      exact .inl rfl
    · obtain ⟨r, -, rfl⟩ := Option.map_eq_some_iff.mp h
      exact .inl rfl
  case h_2 hstr =>
    split_ifs at h with hquote hbrace hbracket hbrace' hbracket'
    · obtain ⟨⟩ := h
      exact .inl rfl
    · obtain ⟨⟩ := h
      exact .inr (.inl ⟨true, rfl⟩)
    · obtain ⟨⟩ := h
      exact .inr (.inl ⟨false, rfl⟩)
    · exact .inr (.inr ⟨hstr, .inl ⟨hbrace', by rw [pop_eq_some h]⟩⟩)
    · exact .inr (.inr ⟨hstr, .inr ⟨hbracket', by rw [pop_eq_some h]⟩⟩)
    · obtain ⟨⟩ := h
      exact .inl rfl

end Outline

open Lib.Json.Outline (isInert)

section Inert

variable {c : Char}

theorem isInert_of_isBlank (hc : isBlank c = true) : isInert c = true := by
  simp only [isBlank, Bool.or_eq_true, beq_iff_eq] at hc
  rcases hc with ((rfl | rfl) | rfl) | rfl <;> rfl

theorem isInert_of_isAlpha (hc : c.isAlpha = true) : isInert c = true := by
  simp only [isInert, Bool.and_eq_true, bne_iff_ne]
  refine ⟨⟨⟨⟨?_, ?_⟩, ?_⟩, ?_⟩, ?_⟩ <;> rintro rfl <;> cases hc

theorem isInert_of_isNumberChar (hc : Decimal.isNumberChar c = true) : isInert c = true := by
  simp only [isInert, Bool.and_eq_true, bne_iff_ne]
  refine ⟨⟨⟨⟨?_, ?_⟩, ?_⟩, ?_⟩, ?_⟩ <;> rintro rfl <;> cases hc

theorem isNumberChar_of_next {st st' : NumState} (h : st.next c = some st') :
    Decimal.isNumberChar c = true := by
  cases hc : Decimal.isNumberChar c with
  | true => rfl
  | false =>
    rw [NumState.next_of_not_numberChar hc] at h
    cases h

end Inert

namespace Scan

def outline (s : Scan) : Outline where
  str :=
    match s.mode with
    | .str _ st _ => some st
    | _ => none
  kinds := s.stack.map Frame.isObj

/-- What is left of a word are letters, and nothing is open around a complete
value. -/
def Clean (s : Scan) : Prop :=
  match s.mode with
  | .word rest _ => ∀ c ∈ rest, c.isAlpha = true
  | .done _ => s.stack = []
  | _ => True

/-- What a character does: the outline moves on, and the end of an object completes
a value. -/
structure Effect (s : Scan) (c : Char) (s' : Scan) : Prop where
  clean : s'.Clean
  outline : s.outline.next c = some s'.outline
  closed : s.outline.str = none → c = '}' → ∃ v stack, s' = deliver v stack

variable {c : Char} {s s' : Scan}

theorem Effect.congr {t : Scan} (h : s.Effect c s') (ht : s.outline = t.outline) :
    t.Effect c s' :=
  ⟨h.clean, ht ▸ h.outline, ht ▸ h.closed⟩

theorem clean_deliver (v : Json) (stack : List Frame) : (deliver v stack).Clean := by
  cases stack with
  | nil => rfl
  | cons f stack => cases f <;> trivial

theorem outline_deliver (v : Json) (stack : List Frame) :
    (deliver v stack).outline = ⟨none, stack.map Frame.isObj⟩ := by
  cases stack with
  | nil => rfl
  | cons f stack => cases f <;> rfl

section Outside

variable (hs : s.outline.str = none)

include hs

theorem Effect.of_inert (hc : isInert c = true) (hclean : s'.Clean)
    (heq : s'.outline = s.outline) : s.Effect c s' := by
  refine ⟨hclean, ?_, fun _ hclose => ?_⟩
  · rw [heq, Outline.next_of_isInert hs hc]
  · rw [hclose] at hc
    cases hc

theorem Effect.of_quote (isKey : Bool) : s.Effect '"' ⟨.str isKey .plain [], s.stack⟩ := by
  refine ⟨trivial, ?_, fun _ h => absurd h (by decide)⟩
  rw [Outline.next, hs]
  rfl

end Outside

theorem outline_between {m : Mode} (hm : m.between = true) (stack : List Frame) :
    outline ⟨m, stack⟩ = ⟨none, stack.map Frame.isObj⟩ := by
  cases m with
  | word | str | num => cases hm
  | _ => rfl

theorem Moves.effect (h : s.Moves c s') (hclean : s.Clean) : s.Effect c s' := by
  induction h with
  | @blank m stack c hm hc =>
    have hout := outline_between hm stack
    exact .of_inert (hout ▸ rfl) (isInert_of_isBlank hc) hclean rfl
  | @quote m stack hm isKey =>
    have hout := outline_between hm stack
    exact .of_quote (s := ⟨m, stack⟩) (hout ▸ rfl) isKey
  | @openArr m stack hm | @openObj m stack hm =>
    refine ⟨trivial, ?_, fun _ h => absurd h (by decide)⟩
    rw [outline_between hm]
    rfl
  | @word m stack c rest v hm hc hrest =>
    have hout := outline_between hm stack
    exact .of_inert (hout ▸ rfl) (isInert_of_isAlpha hc) (all_eq_true.mp hrest) hout.symm
  | @number m stack c st hm hst =>
    have hout := outline_between hm stack
    exact .of_inert (hout ▸ rfl) (isInert_of_isNumberChar (isNumberChar_of_next hst)) trivial
      hout.symm
  | closeArr hm =>
    refine ⟨clean_deliver _ _, ?_, fun _ h => absurd h (by decide)⟩
    rw [outline_between hm, outline_deliver]
    rfl
  | closeObj hm =>
    refine ⟨clean_deliver _ _, ?_, fun _ _ => ⟨_, _, rfl⟩⟩
    rw [outline_between hm, outline_deliver]
    rfl
  | comma | commaKey | colon => exact .of_inert rfl rfl trivial rfl
  | letter hhead =>
    refine .of_inert rfl (isInert_of_isAlpha (hclean _ (mem_of_head? hhead))) ?_ rfl
    exact fun d hd => hclean d (mem_of_mem_tail hd)
  | @lastLetter v stack c =>
    exact .of_inert rfl (isInert_of_isAlpha (hclean c mem_cons_self)) (clean_deliver v stack)
      (outline_deliver v stack)
  | @char isKey st st' unit units stack c hc hnext =>
    refine ⟨trivial, ?_, fun h => nomatch h⟩
    show (if st = .plain ∧ c = '"' then some _ else (st.next c).map _) = _
    rw [if_neg hc, hnext]
    rfl
  | endKey => exact ⟨trivial, rfl, fun h => nomatch h⟩
  | endString => exact ⟨clean_deliver _ _, by rw [outline_deliver]; rfl, fun h => nomatch h⟩
  | digit hnext =>
    exact .of_inert rfl (isInert_of_isNumberChar (isNumberChar_of_next hnext)) trivial rfl
  | @endNumber st text n stack c s' hn h ih =>
    exact (ih (clean_deliver _ _)).congr (outline_deliver (.num n) stack)

/-- A character changes the outline as it stands in a string or outside. -/
theorem step_effect (hclean : s.Clean) (h : s.step c = some s') : s.Effect c s' :=
  (step_moves h).effect hclean

theorem result_eq_none (hclean : s.Clean) (hopen : s.outline.kinds ≠ []) : s.result = none := by
  obtain ⟨mode, stack⟩ := s
  cases mode with
  | done v =>
    obtain rfl : stack = [] := hclean
    exact absurd rfl hopen
  | num st text =>
    cases stack with
    | nil => exact absurd rfl hopen
    | cons f stack => rfl
  | _ => rfl

theorem isBlank_of_read_done {v w : Json} {t : List Char} (h : read ⟨.done v, []⟩ t = some w) :
    ∀ c ∈ t, isBlank c = true := by
  induction t with
  | nil => simp
  | cons c t ih =>
    obtain ⟨s', hstep, hrest⟩ := Option.bind_eq_some_iff.mp h
    replace hstep : (if isBlank c then some ⟨.done v, []⟩ else none) = some s' := hstep
    obtain ⟨hblank, ⟨⟩⟩ := Option.ite_none_right_eq_some.mp hstep
    exact forall_mem_cons.mpr ⟨hblank, ih hrest⟩

/-! ## Blanks around a value -/

theorem isNumberChar_of_isBlank (hc : isBlank c = true) : Decimal.isNumberChar c = false := by
  simp only [isBlank, Bool.or_eq_true, beq_iff_eq] at hc
  rcases hc with ((rfl | rfl) | rfl) | rfl <;> rfl

theorem isAlpha_of_isBlank (hc : isBlank c = true) : c.isAlpha = false := by
  simp only [isBlank, Bool.or_eq_true, beq_iff_eq] at hc
  rcases hc with ((rfl | rfl) | rfl) | rfl <;> rfl

theorem result_step_blank (hclean : s.Clean) (hc : isBlank c = true) :
    (s.step c).bind result = s.result := by
  obtain ⟨mode, stack⟩ := s
  have hstay : step ⟨mode, stack⟩ c = some ⟨mode, stack⟩ →
      (step ⟨mode, stack⟩ c).bind result = result ⟨mode, stack⟩ := by
    intro h
    rw [h]
    rfl
  cases mode with
  | word rest v =>
    have hrest : ∀ d ∈ rest, d ≠ c := by
      rintro d hd rfl
      have halpha := hclean d hd
      rw [isAlpha_of_isBlank hc] at halpha
      cases halpha
    have hstep : step ⟨.word rest v, stack⟩ c = none := by
      show (if rest = [c] then some (deliver v stack)
        else if rest.head? = some c then some ⟨.word rest.tail v, stack⟩ else none) = none
      have hlast : rest ≠ [c] := by
        rintro rfl
        exact hrest c mem_cons_self rfl
      rw [if_neg hlast, if_neg fun h => hrest c (mem_of_head? h) rfl]
    rw [hstep]
    rfl
  | str isKey st units =>
    rw [step_str, if_neg (by rintro ⟨-, rfl⟩; cases hc)]
    cases st.next c <;> rfl
  | num st text =>
    rw [step_num, NumState.next_of_not_numberChar (isNumberChar_of_isBlank hc)]
    show ((number st text).bind fun n => (deliver (.num n) stack).afterValue c).bind _ =
      if stack.isEmpty then (number st text).map Json.num else none
    cases number st text with
    | none => cases stack <;> rfl
    | some n =>
      have hafter : (deliver (.num n) stack).afterValue c = some (deliver (.num n) stack) :=
        if_pos hc
      rw [Option.bind_some, hafter]
      cases stack with
      | nil => rfl
      | cons f stack => cases f <;> rfl
  | _ => exact hstay (if_pos hc)

theorem read_append_blank (hclean : s.Clean) (t : List Char) (hc : isBlank c = true) :
    s.read (t ++ [c]) = s.read t := by
  induction t generalizing s with
  | nil => exact result_step_blank hclean hc
  | cons d t ih =>
    rw [cons_append, read_cons, read_cons]
    cases hstep : s.step d with
    | none => rfl
    | some s' => exact ih (step_effect hclean hstep).clean

end Scan

variable {b : List Char}

/-- Blanks after a value do not matter. -/
theorem parse_append_blanks (t : List Char) (hb : ∀ c ∈ b, isBlank c = true) :
    parse (t ++ b) = parse t := by
  induction b generalizing t with
  | nil => rw [append_nil]
  | cons c b ih =>
    rw [forall_mem_cons] at hb
    rw [← singleton_append, ← append_assoc, ih _ hb.2]
    exact Scan.read_append_blank (s := ⟨.value, []⟩) trivial t hb.1

theorem parse_blanks_append (hb : ∀ c ∈ b, isBlank c = true) (t : List Char) :
    parse (b ++ t) = parse t := by
  induction b with
  | nil => rfl
  | cons c b ih =>
    rw [forall_mem_cons] at hb
    have hstep : Scan.step ⟨.value, []⟩ c = some ⟨.value, []⟩ := if_pos hb.1
    rw [cons_append, parse, Scan.read_cons, hstep]
    exact ih hb.2

theorem parse_blanks (hb : ∀ c ∈ b, isBlank c = true) : parse b = none := by
  rw [← append_nil b, parse_blanks_append hb]
  rfl

end LlmRouter.Lib.Json
