import LlmRouter.Lib.JsonEffect

/-!
# A value at the end of a JSON text

When a text is a value and so is a part of it that begins on a new line and goes on to the end,
there are only blanks before that part (`blank_of_parse_append`). A character that JSON has no use
for cannot stand beside a value (`blanks_around`).
-/

namespace LlmRouter.Lib.Json

open List

/-! ## The outline of a part -/

namespace Outline

def run (o : Outline) : List Char → Option Outline
  | [] => some o
  | c :: t => (o.next c).bind (run · t)

def within (o : Outline) (ks : List Bool) : Outline := { o with kinds := o.kinds ++ ks }

variable {o o' : Outline} {c : Char}

theorem pop_within {kind : Bool} (h : o.pop kind = some o') (ks : List Bool) :
    (o.within ks).pop kind = some (o'.within ks) := by
  obtain rfl := pop_eq_some h
  exact if_pos rfl

theorem next_within (h : o.next c = some o') (ks : List Bool) :
    (o.within ks).next c = some (o'.within ks) := by
  obtain ⟨str, kinds⟩ := o
  unfold next within at *
  cases str with
  | some st =>
    simp only at h ⊢
    split_ifs at h ⊢
    · obtain ⟨⟩ := h
      rfl
    · obtain ⟨r, hr, rfl⟩ := Option.map_eq_some_iff.mp h
      rw [hr]
      rfl
  | none =>
    simp only at h ⊢
    split_ifs at h ⊢
    · obtain ⟨⟩ := h
      rfl
    · obtain ⟨⟩ := h
      rfl
    · obtain ⟨⟩ := h
      rfl
    · exact pop_within h ks
    · exact pop_within h ks
    · obtain ⟨⟩ := h
      rfl

theorem run_within {t : List Char} (h : o.run t = some o') (ks : List Bool) :
    (o.within ks).run t = some (o'.within ks) := by
  induction t generalizing o with
  | nil =>
    obtain ⟨⟩ := h
    rfl
  | cons c t ih =>
    obtain ⟨o₁, hnext, hrest⟩ := Option.bind_eq_some_iff.mp h
    rw [run, next_within hnext, Option.bind_some, ih hrest]

end Outline

namespace Scan

variable {s s' : Scan} {c : Char}

def after (s : Scan) : List Char → Option Scan
  | [] => some s
  | c :: t => (s.step c).bind (after · t)

theorem after_append (s : Scan) (x y : List Char) :
    s.after (x ++ y) = (s.after x).bind (·.after y) := by
  induction x generalizing s with
  | nil => rfl
  | cons c x ih =>
    rw [cons_append, after, after, Option.bind_assoc]
    exact Option.bind_congr fun s' _ => ih s'

theorem read_eq_after (s : Scan) (t : List Char) : s.read t = (s.after t).bind result := by
  induction t generalizing s with
  | nil => rfl
  | cons c t ih =>
    rw [read_cons, after, Option.bind_assoc]
    exact Option.bind_congr fun s' _ => ih s'

theorem read_append_eq_some {x y : List Char} {v : Json} (h : s.read (x ++ y) = some v) :
    ∃ s', s.after x = some s' ∧ s'.read y = some v := by
  rw [read_eq_after, after_append, Option.bind_assoc] at h
  obtain ⟨s', hx, hy⟩ := Option.bind_eq_some_iff.mp h
  exact ⟨s', hx, by rw [read_eq_after, hy]⟩

variable {t : List Char}

theorem after_outline (hclean : s.Clean) (h : s.after t = some s') :
    s'.Clean ∧ s.outline.run t = some s'.outline := by
  induction t generalizing s with
  | nil =>
    obtain ⟨⟩ := h
    exact ⟨hclean, rfl⟩
  | cons c t ih =>
    obtain ⟨s₁, hstep, hrest⟩ := Option.bind_eq_some_iff.mp h
    have heffect := step_effect hclean hstep
    obtain ⟨hclean', hrun⟩ := ih heffect.clean hrest
    exact ⟨hclean', by rw [Outline.run, heffect.outline]; exact hrun⟩

theorem outline_of_result (hclean : s.Clean) {v : Json} (h : s.result = some v) :
    s.outline = ⟨none, []⟩ := by
  have hkinds : s.outline.kinds = [] := by
    by_contra hopen
    rw [result_eq_none hclean hopen] at h
    cases h
  have hstr : s.outline.str = none := by
    obtain ⟨mode, stack⟩ := s
    cases mode with
    | str isKey st units => cases h
    | _ => rfl
  rw [← hkinds, ← hstr]

theorem run_of_read (hclean : s.Clean) {v : Json} (h : s.read t = some v) :
    s.outline.run t = some ⟨none, []⟩ := by
  rw [read_eq_after] at h
  obtain ⟨s', hafter, hresult⟩ := Option.bind_eq_some_iff.mp h
  obtain ⟨hclean', hrun⟩ := after_outline hclean hafter
  rw [hrun, outline_of_result hclean' hresult]

theorem run_value (hstr : s.outline.str = none) {y : List Char} {w : Json}
    (hy : parse y = some w) : s.outline.run y = some s.outline := by
  have hwithin : Outline.within ⟨none, []⟩ s.outline.kinds = s.outline := by
    rw [Outline.within, nil_append, ← hstr]
  rw [← hwithin]
  exact Outline.run_within (run_of_read (s := ⟨.value, []⟩) trivial hy) s.outline.kinds

theorem outline_of_read (hclean : s.Clean) (hstr : s.outline.str = none) {y : List Char}
    {v w : Json} (h : s.read y = some v) (hy : parse y = some w) : s.outline = ⟨none, []⟩ :=
  Option.some.inj ((run_value hstr hy).symm.trans (run_of_read hclean h))

/-! ## One value outside of all containers -/

/-- A value has begun: outside of all containers, it is being read or complete. -/
def Begun (s : Scan) : Prop :=
  match s.mode with
  | .done _ | .word _ _ | .str _ _ _ | .num _ _ => True
  | _ => s.stack ≠ []

theorem begun_deliver (v : Json) (stack : List Frame) : (deliver v stack).Begun := by
  cases stack with
  | nil => trivial
  | cons f stack => cases f <;> exact cons_ne_nil _ _

theorem Moves.begun (h : s.Moves c s') (hs : s.Begun ∨ s.mode = .value ∧ ¬ isBlank c = true) :
    s'.Begun := by
  induction h with
  | blank _ hc => exact hs.resolve_right fun h => h.2 hc
  | quote | word | number | letter | char | digit => trivial
  | openArr | openObj | comma | commaKey | endKey => exact cons_ne_nil _ _
  | closeArr | closeObj | lastLetter | endString => exact begun_deliver _ _
  | colon => exact hs.resolve_right fun h => nomatch h.1
  | endNumber _ _ ih => exact ih (.inl (begun_deliver _ _))

theorem begun_after (hs : s.Begun) (h : s.after t = some s') : s'.Begun := by
  induction t generalizing s with
  | nil =>
    obtain ⟨⟩ := h
    exact hs
  | cons c t ih =>
    obtain ⟨s₁, hstep, hrest⟩ := Option.bind_eq_some_iff.mp h
    exact ih ((step_moves hstep).begun (.inl hs)) hrest

theorem Moves.done (h : s.Moves c s') (hs : s.Begun) (hclean : s.Clean) (hc : isBlank c = true)
    (hout : s'.outline = ⟨none, []⟩) : ∃ v, s' = ⟨.done v, []⟩ := by
  have halpha := isAlpha_of_isBlank hc
  have hnum := isNumberChar_of_isBlank hc
  induction h with
  | @blank m stack c hm =>
    -- between tokens the state stays as it is, with its open containers
    obtain rfl : stack = [] := map_eq_nil_iff.mp (congrArg Outline.kinds hout)
    cases m with
    | done v => exact ⟨v, rfl⟩
    | word | str | num => cases hm
    | _ => exact absurd rfl hs
  | quote | openArr | openObj | closeArr | closeObj | comma | commaKey | colon | endKey
  | endString => cases hc
  | word _ h => cases halpha.symm.trans h
  | letter h => cases halpha.symm.trans (hclean _ (mem_of_head? h))
  | lastLetter => cases halpha.symm.trans (hclean _ mem_cons_self)
  | number _ h | digit h => cases hnum.symm.trans (isNumberChar_of_next h)
  | char => cases congrArg Outline.str hout
  | endNumber _ _ ih => exact ih (begun_deliver _ _) (clean_deliver _ _) hc hout halpha hnum

end Scan

theorem Outline.str_of_next_newline {o o' : Outline} (h : o.next '\n' = some o') :
    o'.str = none := by
  obtain ⟨str, kinds⟩ := o
  cases str with
  | none =>
    obtain ⟨⟩ := h
    rfl
  | some st => cases st <;> cases h

/-- **A value that begins on a new line and ends a value is the whole of it**, up to blanks. -/
theorem blank_of_parse_append {x y : List Char} {v w : Json} (h : parse (x ++ '\n' :: y) = some v)
    (hy : parse y = some w) : ∀ c ∈ x, isBlank c = true := by
  induction x with
  | nil => exact fun c hc => nomatch hc
  | cons c x ih =>
    by_cases hc : isBlank c = true
    · rw [cons_append, ← singleton_append, parse_blanks_append (by simpa using hc)] at h
      exact forall_mem_cons.mpr ⟨hc, ih h⟩
    · exfalso
      -- the value begins with this character, and the newline ends it
      obtain ⟨s₁, hbegin, hrest⟩ := Option.bind_eq_some_iff.mp h
      obtain ⟨s₂, hx, hrest⟩ := Scan.read_append_eq_some hrest
      obtain ⟨s₃, hnewline, hread⟩ := Option.bind_eq_some_iff.mp hrest
      have hclean₁ := (Scan.step_effect (s := ⟨.value, []⟩) trivial hbegin).clean
      have hclean₂ := (Scan.after_outline hclean₁ hx).1
      have heffect := Scan.step_effect hclean₂ hnewline
      have hbegun := Scan.begun_after ((Scan.step_moves hbegin).begun (.inr ⟨rfl, hc⟩)) hx
      have hout := Scan.outline_of_read heffect.clean
        (Outline.str_of_next_newline heffect.outline) hread hy
      obtain ⟨u, rfl⟩ := (Scan.step_moves hnewline).done hbegun hclean₂ rfl hout
      rw [parse_blanks (Scan.isBlank_of_read_done hread)] at hy
      cases hy

/-! ## Characters that stand beside no value -/

open Lib.Json.Outline (isInert)

def isStray (c : Char) : Bool :=
  !isBlank c && isInert c && c != ',' && c != ':' && !c.isAlpha && !Decimal.isNumberChar c

namespace Scan

theorem Moves.isStray_eq {s s' : Scan} {c : Char} (h : s.Moves c s') (hclean : s.Clean)
    (hstr : s.outline.str = none) : isStray c = false := by
  induction h with
  | blank _ hc | word _ hc => simp [isStray, hc]
  | quote | openArr | openObj | closeArr | closeObj | comma | commaKey | colon => rfl
  | letter h => simp [isStray, hclean _ (mem_of_head? h)]
  | lastLetter => simp [isStray, hclean _ mem_cons_self]
  | number _ h | digit h => simp [isStray, isNumberChar_of_next h]
  | char | endKey | endString => cases hstr
  | endNumber _ _ ih => exact ih (clean_deliver _ _) (by rw [outline_deliver])

def ReadsOut (t : List Char) (v : Json) : Prop :=
  ∃ s : Scan, s.Clean ∧ s.outline.str = none ∧ s.read t = some v

variable {t : List Char}

theorem ReadsOut.of_newline {p : List Char} {v : Json} (h : parse (p ++ '\n' :: t) = some v) :
    ReadsOut t v := by
  obtain ⟨s₁, hafter, hread⟩ := read_append_eq_some h
  obtain ⟨s₂, hstep, hread⟩ := Option.bind_eq_some_iff.mp hread
  have hclean := (after_outline (s := ⟨.value, []⟩) trivial hafter).1
  have heffect := step_effect hclean hstep
  exact ⟨s₂, heffect.clean, Outline.str_of_next_newline heffect.outline, hread⟩

theorem ReadsOut.of_value {y : List Char} {v w : Json} (hy : parse y = some w)
    (h : ReadsOut (y ++ t) v) : ReadsOut t v := by
  obtain ⟨s, hclean, hstr, hread⟩ := h
  obtain ⟨s', hafter, hread⟩ := read_append_eq_some hread
  obtain ⟨hclean', hrun⟩ := after_outline hclean hafter
  refine ⟨s', hclean', ?_, hread⟩
  rw [← Option.some.inj ((run_value hstr hy).symm.trans hrun)]
  exact hstr

theorem ReadsOut.of_blanks {cs : List Char} {v : Json}
    (hcs : ∀ c ∈ cs, isBlank c = true ∨ isStray c = true) (h : ReadsOut (cs ++ t) v) :
    (∀ c ∈ cs, isBlank c = true) ∧ ReadsOut t v := by
  induction cs with
  | nil => exact ⟨fun c hc => (nomatch hc), h⟩
  | cons c cs ih =>
    rw [forall_mem_cons] at hcs ⊢
    obtain ⟨s, hclean, hstr, hread⟩ := h
    obtain ⟨s', hstep, hrest⟩ := Option.bind_eq_some_iff.mp hread
    rcases hcs.1 with hblank | hstray
    · have heffect := step_effect hclean hstep
      have hsame : s'.outline = s.outline :=
        Option.some.inj (heffect.outline.symm.trans
          (Outline.next_of_isInert hstr (isInert_of_isBlank hblank)))
      obtain ⟨hall, hout⟩ := ih hcs.2 ⟨s', heffect.clean, hsame ▸ hstr, hrest⟩
      exact ⟨⟨hblank, hall⟩, hout⟩
    · cases hstray.symm.trans ((step_moves hstep).isStray_eq hclean hstr)

end Scan

/-- What stands on both sides of a value are blanks, if it begins a line and nothing of JSON stands
there. -/
theorem blanks_around {x us y ws : List Char} {v w : Json}
    (hx : x = [] ∨ ∃ p, x = p ++ ['\n']) (hus : ∀ c ∈ us, isBlank c = true ∨ isStray c = true)
    (hws : ∀ c ∈ ws, isBlank c = true ∨ isStray c = true)
    (h : parse (x ++ (us ++ (y ++ ws))) = some v) (hy : parse y = some w) :
    (∀ c ∈ x, isBlank c = true) ∧ (∀ c ∈ us, isBlank c = true) ∧ ∀ c ∈ ws, isBlank c = true := by
  have hline : Scan.ReadsOut (us ++ (y ++ ws)) v := by
    rcases hx with rfl | ⟨p, rfl⟩
    · exact ⟨⟨.value, []⟩, trivial, rfl, h⟩
    · rw [append_assoc] at h
      exact .of_newline h
  obtain ⟨hus, hvalue⟩ := hline.of_blanks hus
  have hend := hvalue.of_value hy
  rw [← append_nil ws] at hend
  obtain ⟨hws, -⟩ := hend.of_blanks hws
  refine ⟨?_, hus, hws⟩
  rcases hx with rfl | ⟨p, rfl⟩
  · exact fun c hc => nomatch hc
  · have hrest : parse (us ++ (y ++ ws)) = some w := by
      rw [parse_blanks_append hus, parse_append_blanks y hws, hy]
    rw [append_assoc] at h
    have hp := blank_of_parse_append h hrest
    exact fun c hc => (mem_append.mp hc).elim (hp c) fun hc => by
      rw [mem_singleton.mp hc]
      rfl

theorem isStray_of_other {c : Char} (hc : 128 ≤ c.toNat) : isStray c = true := by
  have hne : ∀ d : Char, d.toNat < 128 → (c == d) = false := by
    intro d hd
    rw [beq_eq_false_iff_ne]
    rintro rfl
    omega
  -- letters and digits end below 128
  have habove : ∀ d : Char, d.toNat < 128 → ¬ c.val ≤ d.val := by
    intro d hd hle
    have hle' : c.toNat ≤ d.toNat := UInt32.le_iff_toNat_le.mp hle
    omega
  have hupper : c.isUpper = false := decide_eq_false fun h => habove 'Z' (by decide) h.2
  have hlower : c.isLower = false := by
    show (decide (c.val ≥ 'a'.val) && decide (c.val ≤ 'z'.val)) = false
    rw [decide_eq_false (habove 'z' (by decide)), Bool.and_false]
  have halpha : c.isAlpha = false := by
    show (c.isUpper || c.isLower) = false
    rw [hupper, hlower, Bool.or_false]
  have hdigit : c.isDigit = false := by
    show (decide (c.val ≥ '0'.val) && decide (c.val ≤ '9'.val)) = false
    rw [decide_eq_false (habove '9' (by decide)), Bool.and_false]
  simp [isStray, isBlank, isInert, Decimal.isNumberChar, bne, hne, halpha, hdigit]

theorem parse_concat_other (t : List Char) {c : Char} (hc : 128 ≤ c.toNat) :
    parse (t ++ [c]) = none := by
  cases h : parse (t ++ [c]) with
  | none => rfl
  | some v =>
    obtain ⟨s, hafter, hread⟩ := Scan.read_append_eq_some h
    obtain ⟨s', hstep, hresult⟩ := Option.bind_eq_some_iff.mp hread
    have hclean := (Scan.after_outline (s := ⟨.value, []⟩) trivial hafter).1
    obtain ⟨mode, stack⟩ := s
    cases mode with
    | str isKey st units =>
      -- a string does not end with it
      have hquote : ¬ (st = .plain ∧ c = '"') := by
        rintro ⟨-, rfl⟩
        exact absurd hc (by decide)
      rw [Scan.step_str, if_neg hquote] at hstep
      obtain ⟨r, -, rfl⟩ := Option.map_eq_some_iff.mp hstep
      cases hresult
    | _ =>
      cases (isStray_of_other hc).symm.trans ((Scan.step_moves hstep).isStray_eq hclean rfl)

end LlmRouter.Lib.Json
