import LlmRouter.Provider.EventStream

/-!
# LlmRouter — where a JSON object ends

`findJSONEnd` (`internal/provider/bedrock/adapter.go`) finds the end of an object with a
depth and two flags. The texts of objects are given by the grammar of JSON, with any nesting,
any escapes and any white space. Within an object, every text of the grammar leaves the
scanner as it was (`run_grammar`).
-/

namespace LlmRouter.Streams

open Lib Lib.Json Utf8 BraceScan List

/-- The parts of a JSON text: a value, the entries of an array or object, and what is between
its brackets or braces. -/
inductive Part where
  | value
  | entries (object : Bool)
  | inside (object : Bool)

def Blanks (b : List Char) : Prop := ∀ c ∈ b, isBlank c = true

def quoted (body : List Char) : List Char := '"' :: (body ++ ['"'])

inductive Grammar : Part → List Char → Prop where
  | word {t : String} (h : t ∈ ["true", "false", "null"]) : Grammar .value t.toList
  | number {t : List Char} (h : NumState.accepts t = true) : Grammar .value t
  | string {body : List Char} (h : (readBody .plain body).isSome) : Grammar .value (quoted body)
  | array {t : List Char} (h : Grammar (.inside false) t) : Grammar .value ('[' :: (t ++ [']']))
  | object {t : List Char} (h : Grammar (.inside true) t) : Grammar .value ('{' :: (t ++ ['}']))
  | blank {k : Bool} {b : List Char} (h : Blanks b) : Grammar (.inside k) b
  | filled {k : Bool} {t : List Char} (h : Grammar (.entries k) t) : Grammar (.inside k) t
  | element {b b' t : List Char} (hb : Blanks b) (hb' : Blanks b') (h : Grammar .value t) :
      Grammar (.entries false) (b ++ t ++ b')
  | member {a a' b b' key t : List Char} (ha : Blanks a) (ha' : Blanks a')
      (hkey : (readBody .plain key).isSome) (hb : Blanks b) (hb' : Blanks b')
      (h : Grammar .value t) :
      Grammar (.entries true) (a ++ quoted key ++ a' ++ ':' :: (b ++ t ++ b'))
  | more {k : Bool} {t t' : List Char} (h : Grammar (.entries k) t)
      (h' : Grammar (.entries k) t') : Grammar (.entries k) (t ++ ',' :: t')

def Passes (t : List Char) : Prop :=
  ∀ n : Nat, run { depth := n + 1 } (encode t) = some { depth := n + 1 }

variable {t t' : List Char}

theorem Passes.append (h : Passes t) (h' : Passes t') : Passes (t ++ t') := by
  intro n
  rw [encode_append, run_append, h n, Option.bind_some, h' n]

theorem passes_of_plain (h : ∀ c ∈ t, c ≠ '"' ∧ c ≠ '{' ∧ c ≠ '}') : Passes t := by
  have hno (b : UInt8) (hb : b.toNat < 128)
      (hchar : Char.ofNat b.toNat = '"' ∨ Char.ofNat b.toNat = '{' ∨ Char.ofNat b.toNat = '}') :
      b ∉ encode t := by
    intro hmem
    have hc := h _ (mem_of_mem_encode hb hmem)
    rcases hchar with heq | heq | heq <;> simp [heq] at hc
  intro n
  rw [run_gap (hno 125 (by decide) (by decide)) (hno 34 (by decide) (by decide)),
    count_eq_zero_of_not_mem (hno 123 (by decide) (by decide))]
  simp

theorem passes_blanks (h : Blanks t) : Passes t := by
  refine passes_of_plain fun c hc => ?_
  have hblank := h c hc
  refine ⟨?_, ?_, ?_⟩ <;> rintro rfl <;> cases hblank

theorem passes_number (h : NumState.accepts t = true) : Passes t := by
  have hchars : ∀ {st st' : NumState} {t : List Char}, st.run t = some st' →
      ∀ c ∈ t, Decimal.isNumberChar c = true := by
    intro st st' t
    induction t generalizing st with
    | nil => simp
    | cons c t ih =>
      intro h
      obtain ⟨st₁, hnext, hrest⟩ := Option.bind_eq_some_iff.mp h
      exact forall_mem_cons.mpr ⟨isNumberChar_of_next hnext, ih hrest⟩
  obtain ⟨st, hrun⟩ : ∃ st, NumState.start.run t = some st := by
    cases hrun : NumState.start.run t with
    | none =>
      rw [NumState.accepts, hrun] at h
      cases h
    | some st => exact ⟨st, rfl⟩
  refine passes_of_plain fun c hc => ?_
  have hnum := hchars hrun c hc
  refine ⟨?_, ?_, ?_⟩ <;> rintro rfl <;> cases hnum

def inBody (n : Nat) (st : StrState) : BraceScan :=
  ofOutline ⟨some st, replicate (n + 1) true⟩

theorem run_body {st : StrState} {body : List Char} (h : (readBody st body).isSome) (n : Nat) :
    (inBody n st).run (encode body) = some (inBody n .plain) := by
  induction body generalizing st with
  | nil =>
    cases st with
    | plain => rfl
    | _ => cases h
  | cons c body ih =>
    cases hnext : st.next c with
    | none =>
      rw [readBody, hnext] at h
      cases h
    | some r =>
      obtain ⟨st', unit⟩ := r
      have hrest : (readBody st' body).isSome := by
        rw [readBody, hnext] at h
        simpa using h
      have hout : Outline.next ⟨some st, replicate (n + 1) true⟩ c =
          some ⟨some st', replicate (n + 1) true⟩ := by
        have hquote : ¬ (st = .plain ∧ c = '"') := by
          rintro ⟨rfl, rfl⟩
          cases hnext
        show (if st = .plain ∧ c = '"' then _ else (st.next c).map _) = _
        rw [if_neg hquote, hnext]
        rfl
      rw [encode_cons, run_append]
      by_cases hc : c.toNat < 128
      · have hbyte := toNat_ofNat_ascii hc
        have hstep : (inBody n st).next (UInt8.ofNat c.toNat) = some (inBody n st') := by
          refine next_ofOutline_str (by rw [hbyte]; exact hc) rfl ?_
          rw [hbyte, Char.ofNat_toNat]
          exact hout
        rw [utf8EncodeChar_ascii hc, run, hstep]
        exact ih hrest
      · -- a character outside ASCII is no escape, and none of its bytes counts
        have hc := Nat.le_of_not_lt hc
        obtain ⟨-, hsame, hesc⟩ := ofOutline_other hc hout
        have hstay : ∀ b ∈ String.utf8EncodeChar c, (inBody n st).next b = some (inBody n st) :=
          fun b hb => next_other hesc (le_of_mem_utf8EncodeChar hc hb)
        rw [run_of_stay hstay, ← show inBody n st' = inBody n st from hsame]
        exact ih hrest

theorem passes_quoted {body : List Char} (h : (readBody .plain body).isSome) :
    Passes (quoted body) := by
  intro n
  have hopen : BraceScan.next { depth := n + 1 } 34 = some (inBody n .plain) := by
    simp [BraceScan.next, inBody, ofOutline]
  have hclose : (inBody n .plain).next 34 = some { depth := n + 1 } := by
    simp [BraceScan.next, inBody, ofOutline]
  show run _ (34 :: encode (body ++ ['"'])) = _
  rw [run, hopen, Option.bind_some, encode_append, run_append, run_body h, Option.bind_some]
  show run _ [34] = _
  rw [run, hclose]
  rfl

theorem passes_braces (h : Passes t) : Passes ('{' :: (t ++ ['}'])) := by
  intro n
  have hopen : BraceScan.next { depth := n + 1 } 123 = some { depth := (n + 1 : Nat) + 1 } := by
    simp [BraceScan.next]
  have hclose : BraceScan.next { depth := (n + 1 : Nat) + 1 } 125 = some { depth := n + 1 } := by
    simp [BraceScan.next]
    omega
  show run _ (123 :: encode (t ++ ['}'])) = _
  rw [run, hopen, Option.bind_some, encode_append, run_append, h (n + 1), Option.bind_some]
  show run _ [125] = _
  rw [run, hclose]
  rfl

/-- **Every text of the grammar is passed**, by induction over its derivation. -/
theorem run_grammar {p : Part} (h : Grammar p t) : Passes t := by
  have hchar : ∀ c, c ≠ '"' ∧ c ≠ '{' ∧ c ≠ '}' → Passes [c] := fun c hc =>
    passes_of_plain fun d hd => mem_singleton.mp hd ▸ hc
  induction h with
  | word hword =>
    refine passes_of_plain ?_
    simp only [mem_cons, not_mem_nil, or_false] at hword
    rcases hword with rfl | rfl | rfl <;> simp
  | number hnum => exact passes_number hnum
  | string hbody => exact passes_quoted hbody
  | array _ ih => exact (hchar '[' (by decide)).append (ih.append (hchar ']' (by decide)))
  | object _ ih => exact passes_braces ih
  | blank hb => exact passes_blanks hb
  | filled _ ih => exact ih
  | element hb hb' _ ih => exact ((passes_blanks hb).append ih).append (passes_blanks hb')
  | member ha ha' hkey hb hb' _ ih =>
    have hname := ((passes_blanks ha).append (passes_quoted hkey)).append (passes_blanks ha')
    have hvalue := ((passes_blanks hb).append ih).append (passes_blanks hb')
    exact hname.append ((hchar ':' (by decide)).append hvalue)
  | more _ _ ih ih' => exact ih.append ((hchar ',' (by decide)).append ih')

/-- **The end of a JSON object.** For every text of an object and every bytes behind it,
`findJSONEnd` finds its closing brace; in a strict prefix of the text it finds nothing. -/
theorem findJSONEnd_object (h : Grammar (.inside true) t) :
    (∀ after, findJSONEnd (encode ('{' :: (t ++ ['}'])) ++ after) =
      some ((encode ('{' :: (t ++ ['}']))).length - 1)) ∧
    ∀ p, p <+: encode ('{' :: (t ++ ['}'])) → p ≠ encode ('{' :: (t ++ ['}'])) →
      findJSONEnd p = none := by
  have hbytes : encode ('{' :: (t ++ ['}'])) = (123 :: encode t) ++ [125] := by
    rw [← cons_append, encode_append]
    rfl
  have hinside : run {} (123 :: encode t) = some { depth := 1 } := run_grammar h 0
  rw [hbytes]
  constructor
  · intro after
    rw [append_assoc, singleton_append, findJSONEnd, find_append_of_run hinside, find]
    simp [BraceScan.next]
  · intro p hp hne
    obtain ⟨q, hq⟩ := hp
    -- the prefix ends before the closing brace
    obtain ⟨q', hq'⟩ : p <+: 123 :: encode t := by
      rcases eq_nil_or_concat' q with rfl | ⟨q', b, rfl⟩
      · exact absurd (by simpa using hq) hne
      · rw [← append_assoc] at hq
        exact ⟨q', (append_inj' hq rfl).1⟩
    rw [← hq', run_append] at hinside
    obtain ⟨s, hrun, -⟩ := Option.bind_eq_some_iff.mp hinside
    exact find_eq_none_of_run hrun

theorem findJSONEnd_string :
    findJSONEnd (encode "\x7b\"a\": \"\x7d\\\"\"\x7d rest".toList) = some 11 := by
  have hmember : Grammar (.entries true) "\"a\": \"\x7d\\\"\"".toList :=
    @Grammar.member [] [] [' '] [] ['a'] _
      (by simp [Blanks]) (by simp [Blanks]) rfl (by simp [Blanks, isBlank]) (by simp [Blanks])
      (@Grammar.string ['}', '\\', '"'] rfl)
  exact (findJSONEnd_object (.filled hmember)).1 (encode " rest".toList)

end LlmRouter.Streams
