import LlmRouter.Lib.Regex
import Mathlib.Data.List.Induction

/-!
# LlmRouter — rendering a prompt

`Render` fills in the placeholders of a template. Its meaning is given by the pieces of the
template: read from left to right, it is a placeholder wherever one begins and a single
character elsewhere. The text of a value or of a default is never a piece.
-/

namespace LlmRouter.Prompts

open Lib Lib.Regex List

/-! ## The renderer -/

structure VariableDef where
  name : String
  required : Bool := false
  default : String := ""

def varPattern : Regex := seqs [lit '{', lit '{', many1 isWordChar, lit '}', lit '}']

def defs (vars : List VariableDef) : String → Option VariableDef :=
  vars.foldl (fun defs v => Function.update defs v.name (some v)) fun _ => none

def replacement (defs : String → Option VariableDef) (values : String → Option String)
    (found : List Char) : List Char × List String :=
  -- without the braces
  let name := String.ofList ((found.take (found.length - 2)).drop 2)
  match values name with
  | some val => (val.toList, [])
  | none =>
    match defs name with
    | some d =>
      if d.default ≠ "" then (d.default.toList, [])
      else (found, if d.required then [name] else [])
    | none => (found, [])

def replaceAllStringFunc (f : List Char → List Char × List String) :
    (skip : Nat) → (word : Bool) → List Char → List Char × List String
  | _, _, [] => ([], [])
  | k + 1, _, c :: t => replaceAllStringFunc f k (isWordChar c) t
  | 0, w, c :: t =>
    match varPattern.matchLen w (c :: t) with
    | some n =>
      -- what a match is replaced by is not searched again
      let new := f ((c :: t).take n)
      let more := replaceAllStringFunc f (n - 1) (isWordChar c) t
      (new.1 ++ more.1, new.2 ++ more.2)
    | none =>
      let more := replaceAllStringFunc f 0 (isWordChar c) t
      (c :: more.1, more.2)

def render (template : String) (vars : List VariableDef) (values : String → Option String) :
    Except String String :=
  let out := replaceAllStringFunc (replacement (defs vars) values) 0 false template.toList
  if out.2 = [] then .ok (String.ofList out.1)
  else .error ("missing required variables: " ++ String.intercalate ", " out.2)

/-! ## The pieces of a template -/

def placeholder (name : List Char) : List Char := '{' :: '{' :: (name ++ ['}', '}'])

def IsWord (name : List Char) : Prop := name ≠ [] ∧ ∀ c ∈ name, isWordChar c = true

inductive Piece where
  | char (c : Char)
  | placeholder (name : List Char)

/-- The template consists of these pieces: from left to right, a placeholder wherever one
begins. -/
inductive Consists : List Char → List Piece → Prop where
  | nil : Consists [] []
  | placeholder {name rest : List Char} {ps : List Piece} (hname : IsWord name)
      (hrest : Consists rest ps) :
      Consists (placeholder name ++ rest) (.placeholder name :: ps)
  | char {c : Char} {t : List Char} {ps : List Piece}
      (hnone : ∀ name rest, IsWord name → c :: t ≠ placeholder name ++ rest)
      (hrest : Consists t ps) : Consists (c :: t) (.char c :: ps)

variable {s t name rest : List Char} {ps : List Piece} {w : Bool} {n : Nat}

theorem placeholder_inj {name' rest' : List Char} (hname : IsWord name) (hname' : IsWord name')
    (h : placeholder name ++ rest = placeholder name' ++ rest') : name = name' ∧ rest = rest' := by
  have hspan (a r : List Char) (ha : IsWord a) :
      ((placeholder a ++ r).drop 2).takeWhile isWordChar = a := by
    have hshape : (placeholder a ++ r).drop 2 = a ++ '}' :: '}' :: r := by simp [placeholder]
    rw [hshape, takeWhile_append_of_pos ha.2, takeWhile_cons_of_neg (by decide), append_nil]
  have heq : name = name' := by rw [← hspan name rest hname, h, hspan name' rest' hname']
  subst heq
  exact ⟨rfl, append_cancel_left h⟩

theorem matches_varPattern {m : List Char} :
    varPattern.Matches w m rest ↔ ∃ name, IsWord name ∧ m = placeholder name := by
  simp only [varPattern, seqs, lit, many1, Matches, beq_iff_eq]
  constructor
  · rintro ⟨_, _, rfl, ⟨_, rfl, rfl⟩, _, _, rfl, ⟨_, rfl, rfl⟩, _, _, rfl,
      ⟨_, more, rfl, ⟨c, rfl, hc⟩, hmore⟩, _, _, rfl, ⟨_, rfl, rfl⟩, _, _, rfl, ⟨_, rfl, rfl⟩, rfl⟩
    exact ⟨c :: more, ⟨cons_ne_nil _ _, forall_mem_cons.mpr ⟨hc, hmore⟩⟩, by simp [placeholder]⟩
  · rintro ⟨name, ⟨hne, hall⟩, rfl⟩
    obtain ⟨c, more, rfl⟩ := exists_cons_of_ne_nil hne
    obtain ⟨hc, hmore⟩ := forall_mem_cons.mp hall
    exact ⟨['{'], _, rfl, ⟨_, rfl, rfl⟩, ['{'], _, rfl, ⟨_, rfl, rfl⟩, c :: more, ['}', '}'], rfl,
      ⟨[c], more, rfl, ⟨c, rfl, hc⟩, hmore⟩, ['}'], ['}'], rfl, ⟨_, rfl, rfl⟩, ['}'], [], rfl,
      ⟨_, rfl, rfl⟩, rfl⟩

theorem matchLen_placeholder (hname : IsWord name) (w : Bool) (rest : List Char) :
    varPattern.matchLen w (placeholder name ++ rest) = some (placeholder name).length := by
  have hmem : (wordAfter w (placeholder name), rest) ∈
      varPattern.ends w (placeholder name ++ rest) :=
    mem_ends_iff.mpr ⟨_, rfl, rfl, matches_varPattern.mpr ⟨name, hname, rfl⟩⟩
  rw [matchLen]
  cases hends : varPattern.ends w (placeholder name ++ rest) with
  | nil => rw [hends] at hmem; cases hmem
  | cons x xs =>
    obtain ⟨m, heq, -, hm⟩ := mem_ends_iff.mp (show (x.1, x.2) ∈ _ from hends ▸ mem_cons_self)
    obtain ⟨name', hname', rfl⟩ := matches_varPattern.mp hm
    obtain ⟨rfl, rfl⟩ := placeholder_inj hname hname' heq
    simp

theorem matchLen_none (h : ∀ name rest, IsWord name → s ≠ placeholder name ++ rest) :
    varPattern.matchLen w s = none := by
  cases hlen : varPattern.matchLen w s with
  | none => rfl
  | some n =>
    obtain ⟨x, hx, -⟩ := Option.map_eq_some_iff.mp hlen
    obtain ⟨m, heq, -, hm⟩ := mem_ends_iff.mp (show (x.1, x.2) ∈ _ from mem_of_head? hx)
    obtain ⟨name, hname, rfl⟩ := matches_varPattern.mp hm
    exact absurd heq (h name x.2 hname)

theorem exists_consists (s : List Char) : ∃ ps, Consists s ps := by
  induction hn : s.length using Nat.strongRecOn generalizing s with
  | ind n ih =>
    subst hn
    -- a placeholder here is the first piece, whatever follows
    by_cases h : ∃ name rest, IsWord name ∧ s = placeholder name ++ rest
    · obtain ⟨name, rest, hname, rfl⟩ := h
      obtain ⟨ps, hps⟩ := ih rest.length (by simp [placeholder]; omega) rest rfl
      exact ⟨_, .placeholder hname hps⟩
    · cases s with
      | nil => exact ⟨_, .nil⟩
      | cons c t =>
        obtain ⟨ps, hps⟩ := ih t.length (by simp) t rfl
        exact ⟨_, .char (fun name rest hname heq => h ⟨name, rest, hname, heq⟩) hps⟩

theorem Consists.unique {qs : List Piece} (hp : Consists s ps) (hq : Consists s qs) : qs = ps := by
  induction hp generalizing qs with
  | nil => cases hq; rfl
  | @placeholder name rest ps hname _ ih =>
    generalize hs : Prompts.placeholder name ++ rest = s at hq
    cases hq with
    | nil => cases hs
    | placeholder hname' hrest' =>
      obtain ⟨rfl, rfl⟩ := placeholder_inj hname hname' hs
      rw [ih hrest']
    | char hnone => exact absurd hs.symm (hnone name rest hname)
  | @char c t ps hnone _ ih =>
    generalize hs : c :: t = s at hq
    cases hq with
    | nil => cases hs
    | placeholder hname' => exact absurd hs (hnone _ _ hname')
    | char _ hrest' =>
      cases hs
      rw [ih hrest']

/-! ## What is rendered -/

variable (f : List Char → List Char × List String)

theorem replaceAllStringFunc_skip (m : List Char) :
    replaceAllStringFunc f m.length w (m ++ t) = replaceAllStringFunc f 0 (wordAfter w m) t := by
  induction m generalizing w with
  | nil => rfl
  | cons c m ih => exact ih

/-- What a piece becomes, and the names it adds to `missing`. -/
def Piece.replaced : Piece → List Char × List String
  | char c => ([c], [])
  | placeholder name => f (Prompts.placeholder name)

theorem replaceAllStringFunc_eq (h : Consists s ps) (w : Bool) : replaceAllStringFunc f 0 w s =
      (ps.flatMap fun p => (p.replaced f).1, ps.flatMap fun p => (p.replaced f).2) := by
  induction h generalizing w with
  | nil => rfl
  | @placeholder name rest ps hname _ ih =>
    obtain ⟨c, m, hm⟩ := exists_cons_of_ne_nil (show placeholder name ≠ [] from nofun)
    have hlen := matchLen_placeholder hname w rest
    rw [hm, length_cons, cons_append] at hlen
    simp only [hm, cons_append, replaceAllStringFunc, hlen, Nat.add_sub_cancel,
      replaceAllStringFunc_skip, ih, flatMap_cons, take_succ_cons, take_left', Piece.replaced]
  | char hnone _ ih =>
    simp only [replaceAllStringFunc, matchLen_none hnone, ih, flatMap_cons, Piece.replaced,
      singleton_append, nil_append]

def lastDef (vars : List VariableDef) (name : String) : Option VariableDef :=
  (vars.filter fun v => v.name = name).getLast?

theorem defs_eq (vars : List VariableDef) (name : String) : defs vars name = lastDef vars name := by
  induction vars using List.reverseRecOn with
  | nil => rfl
  | append_singleton vars v ih =>
    rw [defs, foldl_append, lastDef, filter_append]
    by_cases hname : v.name = name
    · simp [hname]
    · rw [foldl_cons, foldl_nil, Function.update_of_ne (Ne.symm hname),
        filter_cons_of_neg (by simpa using hname), filter_nil, append_nil]
      exact ih

variable (vars : List VariableDef) (values : String → Option String)

def Missing (name : String) : Prop :=
  values name = none ∧ ∃ v, lastDef vars name = some v ∧ v.required = true ∧ v.default = ""

/-- A character stands for itself; a placeholder for its value, else a default that is not empty,
else itself. -/
def Piece.meaning : Piece → List Char
  | char c => [c]
  | placeholder name =>
    match values (String.ofList name), (lastDef vars (String.ofList name)).map (·.default) with
    | some val, _ => val.toList
    | none, none => Prompts.placeholder name
    | none, some default => if default = "" then Prompts.placeholder name else default.toList

theorem replacement_eq (name : List Char) :
    (replacement (defs vars) values (placeholder name)).1 =
        (Piece.placeholder name).meaning vars values ∧
      ((replacement (defs vars) values (placeholder name)).2 ≠ [] ↔
        Missing vars values (String.ofList name)) := by
  have hname : ((placeholder name).take ((placeholder name).length - 2)).drop 2 = name := by
    simp [placeholder]
  simp only [replacement, hname, defs_eq, Piece.meaning, Missing]
  cases values (String.ofList name) with
  | some val => simp
  | none =>
    cases lastDef vars (String.ofList name) with
    | none => simp
    | some d => by_cases hdefault : d.default = "" <;> simp [hdefault]

theorem flatMap_replaced (ps : List Piece) :
    (ps.flatMap fun p => (p.replaced (replacement (defs vars) values)).1) =
      ps.flatMap (Piece.meaning vars values) := by
  refine congrArg (flatMap · ps) (funext fun p => ?_)
  cases p with
  | char c => rfl
  | placeholder name => exact (replacement_eq vars values name).1

theorem flatMap_missing (ps : List Piece) :
    (ps.flatMap fun p => (p.replaced (replacement (defs vars) values)).2) ≠ [] ↔
      ∃ name, .placeholder name ∈ ps ∧ Missing vars values (String.ofList name) := by
  rw [Ne, flatMap_eq_nil_iff]
  constructor
  · intro h
    obtain ⟨p, hp, hne⟩ := not_forall₂.mp h
    cases p with
    | char c => exact absurd rfl hne
    | placeholder name => exact ⟨name, hp, (replacement_eq vars values name).2.mp hne⟩
  · rintro ⟨name, hp, hmiss⟩
    exact fun h => (replacement_eq vars values name).2.mpr hmiss (h _ hp)

/-- **Rendering.** Every template has its pieces in exactly one way. Rendering fails iff a
placeholder among them is missing; otherwise each piece is written as what it stands for. -/
theorem render_spec (template : String) :
    ∃ ps, Consists template.toList ps ∧ (∀ qs, Consists template.toList qs → qs = ps) ∧
      ((∃ err, render template vars values = .error err) ↔
        ∃ name, .placeholder name ∈ ps ∧ Missing vars values (String.ofList name)) ∧
      ((∀ name, .placeholder name ∈ ps → ¬ Missing vars values (String.ofList name)) →
        render template vars values =
          .ok (String.ofList (ps.flatMap (Piece.meaning vars values)))) := by
  obtain ⟨ps, hps⟩ := exists_consists template.toList
  have hout := replaceAllStringFunc_eq (replacement (defs vars) values) hps false
  generalize hrun : replaceAllStringFunc (replacement (defs vars) values) 0 false
    template.toList = out at hout
  have htext : out.1 = ps.flatMap (Piece.meaning vars values) := by
    rw [hout, flatMap_replaced]
  have hmissing : out.2 ≠ [] ↔
      ∃ name, .placeholder name ∈ ps ∧ Missing vars values (String.ofList name) := by
    rw [hout, flatMap_missing]
  have hrender : render template vars values = if out.2 = [] then .ok (String.ofList out.1)
      else .error ("missing required variables: " ++ String.intercalate ", " out.2) := by
    rw [render, hrun]
  refine ⟨ps, hps, fun qs => hps.unique, ?_, ?_⟩
  · rw [← hmissing, hrender]
    by_cases hnil : out.2 = [] <;> simp [hnil]
  · intro hall
    have hnil : out.2 = [] := by
      by_contra hne
      obtain ⟨name, hmem, hmiss⟩ := hmissing.mp hne
      exact hall name hmem hmiss
    rw [hrender, if_pos hnil, htext]

end LlmRouter.Prompts
