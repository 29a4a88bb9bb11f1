import LlmRouter.Lib.Regex

/-!
# What is left after replacing

Replacing every match of one expression can make matches of another where there were none.
`Undisturbed` says when it cannot (`match_of_replace`); for an expression and itself no match is
left. `Edited` says that a text is another with some pieces replaced, `Covered` that it consists
of such pieces.
-/

namespace LlmRouter.Lib.Regex

open List

variable {w' : Bool} {rest m : List Char} {r : Regex}

/-! ## Searching -/

theorem matchLen_eq_none_iff {w : Bool} {s : List Char} :
    r.matchLen w s = none ↔ ∀ m rest, s = m ++ rest → ¬ r.Matches w m rest := by
  rw [← not_iff_not, ← ne_eq, matchLen_ne_none]
  constructor
  · intro hne hnone
    obtain ⟨⟨w', rest⟩, hx⟩ := exists_mem_of_ne_nil _ hne
    obtain ⟨m, hs, -, hm⟩ := mem_ends_iff.mp hx
    exact hnone m rest hs hm
  · intro h hnil
    refine h fun m rest hs hm => ?_
    have hmem := mem_ends_iff.mpr ⟨m, hs, rfl, hm⟩
    rw [hnil] at hmem
    cases hmem

theorem matchLen_isSome_iff {w : Bool} {s : List Char} :
    (r.matchLen w s).isSome = true ↔ ∃ m rest, s = m ++ rest ∧ r.Matches w m rest := by
  rw [Option.isSome_iff_ne_none, ne_eq, matchLen_eq_none_iff]
  push Not
  rfl

theorem matchFrom_iff {w : Bool} {s : List Char} :
    r.matchFrom w s = true ↔
      ∃ pre m rest, s = pre ++ (m ++ rest) ∧ r.Matches (wordAfter w pre) m rest := by
  induction s generalizing w with
  | nil =>
    rw [matchFrom, matchLen_isSome_iff]
    constructor
    · rintro ⟨m, rest, hs, hm⟩
      exact ⟨[], m, rest, hs, hm⟩
    · rintro ⟨pre, m, rest, hs, hm⟩
      obtain ⟨rfl, hs'⟩ := append_eq_nil_iff.mp hs.symm
      exact ⟨m, rest, hs'.symm, hm⟩
  | cons c t ih =>
    rw [matchFrom, Bool.or_eq_true, matchLen_isSome_iff, ih]
    constructor
    · rintro (⟨m, rest, hs, hm⟩ | ⟨pre, m, rest, rfl, hm⟩)
      · exact ⟨[], m, rest, hs, hm⟩
      · exact ⟨c :: pre, m, rest, rfl, hm⟩
    · rintro ⟨pre, m, rest, hs, hm⟩
      cases pre with
      | nil => exact .inl ⟨m, rest, hs, hm⟩
      | cons d pre =>
        obtain ⟨rfl, rfl⟩ := cons.inj hs
        exact .inr ⟨pre, m, rest, rfl, hm⟩

/-! ## Expressions without boundaries -/

def free : Regex → Bool
  | seq a b => a.free && b.free
  | alt a b => a.free && b.free
  | opt a => a.free
  | boundary => false
  | _ => true

theorem Matches.of_free (hr : r.free = true) {w : Bool} {rest' : List Char} (h : r.Matches w m rest) :
    r.Matches w' m rest' := by
  induction r generalizing w w' m rest rest' with
  | eps | cls p | many p => exact h
  | seq a b iha ihb =>
    rw [free, Bool.and_eq_true] at hr
    obtain ⟨m₁, m₂, hm, ha, hb⟩ := h
    exact ⟨m₁, m₂, hm, iha hr.1 ha, ihb hr.2 hb⟩
  | alt a b iha ihb =>
    rw [free, Bool.and_eq_true] at hr
    rcases h with ha | hb
    · exact .inl (iha hr.1 ha)
    · exact .inr (ihb hr.2 hb)
  | opt a iha =>
    rcases h with ha | hm
    · exact .inl (iha hr ha)
    · exact .inr hm
  | boundary => cases hr

theorem matches_seqs_append {xs ys : List Regex} {w : Bool} :
    (seqs (xs ++ ys)).Matches w m rest ↔ ∃ m₁ m₂, m = m₁ ++ m₂ ∧
      (seqs xs).Matches w m₁ (m₂ ++ rest) ∧ (seqs ys).Matches (wordAfter w m₁) m₂ rest := by
  induction xs generalizing w m with
  | nil =>
    constructor
    · intro h
      exact ⟨[], m, rfl, rfl, h⟩
    · rintro ⟨m₁, m₂, rfl, rfl, h⟩
      exact h
  | cons x xs ih =>
    constructor
    · rintro ⟨m₁, m₂, rfl, hx, hrest⟩
      obtain ⟨m₃, m₄, rfl, hxs, hys⟩ := ih.mp hrest
      refine ⟨m₁ ++ m₃, m₄, (append_assoc ..).symm, ⟨m₁, m₃, rfl, ?_, hxs⟩, ?_⟩
      · rwa [append_assoc] at hx
      · rwa [wordAfter_append]
    · rintro ⟨m₁, m₂, rfl, ⟨m₃, m₄, rfl, hx, hxs⟩, hys⟩
      refine ⟨m₃, m₄ ++ m₂, append_assoc .., ?_, ih.mpr ⟨m₄, m₂, rfl, hxs, ?_⟩⟩
      · rwa [append_assoc]
      · rwa [wordAfter_append] at hys

theorem matches_bounded {body : List Regex} {w : Bool} :
    (seqs (boundary :: body ++ [boundary])).Matches w m rest ↔
      w ≠ startsWord (m ++ rest) ∧ (seqs body).Matches w m rest ∧
        wordAfter w m ≠ startsWord rest := by
  constructor
  · rintro ⟨m₁, m₂, rfl, ⟨rfl, hw⟩, hrest⟩
    obtain ⟨m₃, m₄, rfl, hbody, m₅, m₆, rfl, ⟨rfl, hend⟩, rfl⟩ := matches_seqs_append.mp hrest
    simp only [append_nil, nil_append, wordAfter_nil] at *
    exact ⟨hw, hbody, hend⟩
  · rintro ⟨hw, hbody, hend⟩
    refine ⟨[], m, rfl, ⟨rfl, hw⟩, matches_seqs_append.mpr ⟨m, [], (append_nil m).symm,
      hbody, [], [], rfl, ⟨rfl, hend⟩, rfl⟩⟩

/-! ## What a match ends with, and what is in it -/

def EndsIn (r : Regex) (p : Char → Bool) : Prop :=
  ∀ w m rest, r.Matches w m rest → ∃ m' c, m = m' ++ [c] ∧ p c = true

def EndsInOrEmpty (r : Regex) (p : Char → Bool) : Prop :=
  ∀ w m rest, r.Matches w m rest → m = [] ∨ ∃ m' c, m = m' ++ [c] ∧ p c = true

section Ends

variable {p : Char → Bool} {a b : Regex}

theorem endsIn_cls {q : Char → Bool} (h : ∀ c, q c = true → p c = true) : (cls q).EndsIn p := by
  rintro w m rest ⟨c, rfl, hc⟩
  exact ⟨[], c, rfl, h c hc⟩

theorem EndsIn.orEmpty (h : a.EndsIn p) : a.EndsInOrEmpty p :=
  fun w m rest hm => .inr (h w m rest hm)

theorem endsInOrEmpty_eps : eps.EndsInOrEmpty p := fun _ _ _ hm => .inl hm

theorem EndsInOrEmpty.opt (h : a.EndsInOrEmpty p) : (opt a).EndsInOrEmpty p := by
  rintro w m rest (hm | hm)
  · exact h w m rest hm
  · exact .inl hm

theorem EndsIn.seq_left (ha : a.EndsIn p) (hb : b.EndsInOrEmpty p) : EndsIn (.seq a b) p := by
  rintro w m rest ⟨m₁, m₂, rfl, hm₁, hm₂⟩
  rcases hb _ _ _ hm₂ with rfl | ⟨m', c, rfl, hc⟩
  · rw [append_nil]
    exact ha _ _ _ hm₁
  · exact ⟨m₁ ++ m', c, (append_assoc ..).symm, hc⟩

theorem EndsIn.times (ha : a.EndsIn p) (n : Nat) : (a.times (n + 1)).EndsIn p := by
  have horEmpty : ∀ n, (a.times n).EndsInOrEmpty p := by
    intro n
    induction n with
    | zero => exact endsInOrEmpty_eps
    | succ n ih => exact (ha.seq_left ih).orEmpty
  exact ha.seq_left (horEmpty n)

theorem EndsIn.seqs_concat (ha : a.EndsIn p) (rs : List Regex) : (seqs (rs ++ [a])).EndsIn p := by
  intro w m rest hm
  obtain ⟨m₁, m₂, rfl, -, m₃, m₄, rfl, hm₃, rfl⟩ := matches_seqs_append.mp hm
  obtain ⟨m', c, rfl, hc⟩ := ha _ _ _ hm₃
  exact ⟨m₁ ++ m', c, by simp, hc⟩

end Ends

/-! ## Between boundaries -/

/-- The expression stands between boundaries, has none inside, and its matches end with a
word character. -/
structure Bounded (r : Regex) (body : List Regex) : Prop where
  eq : r = seqs (boundary :: body ++ [boundary])
  free : (seqs body).free = true
  ends : (seqs body).EndsIn isWordChar

section Bounded

variable {c d r : Regex} {body bc bd : List Regex} {w : Bool} {m rest : List Char}

theorem Bounded.matches_iff (h : Bounded r body) : r.Matches w m rest ↔
    w ≠ startsWord (m ++ rest) ∧ (seqs body).Matches w m rest ∧
      wordAfter w m ≠ startsWord rest := by
  rw [h.eq]
  exact matches_bounded

theorem Bounded.startsWord_rest (h : Bounded r body) (hm : r.Matches w m rest) :
    startsWord rest = false := by
  obtain ⟨-, hbody, hend⟩ := h.matches_iff.mp hm
  obtain ⟨m', x, rfl, hx⟩ := h.ends _ _ _ hbody
  rw [wordAfter_concat, hx] at hend
  exact Bool.eq_false_iff.mpr hend.symm

theorem Bounded.startsWord_replaceFrom (h : Bounded r body) (repl : List Char)
    (hout : startsWord (r.replaceFrom repl 0 true rest) = false) : startsWord rest = false := by
  rw [← Bool.not_eq_true]
  intro hword
  cases rest with
  | nil => cases hword
  | cons x t =>
    have hnone : r.matchLen true (x :: t) = none := by
      refine matchLen_eq_none_iff.mpr fun m' t' heq hm => ?_
      obtain ⟨hstart, -, -⟩ := h.matches_iff.mp hm
      rw [← heq, hword] at hstart
      exact hstart rfl
    rw [replaceFrom_of_none hnone] at hout
    have hx : startsWord (x :: t) = false := hout
    rw [hword] at hx
    cases hx

theorem Bounded.stood (hc : Bounded c bc) (hd : Bounded d bd) (repl : List Char) {w' : Bool}
    (hm : c.Matches w' m (d.replaceFrom repl 0 (wordAfter w m) rest))
    (hw : w' = w ∨ w' = false ∧ ∃ w₀ m₀, d.Matches w₀ m₀ (m ++ rest)) : c.Matches w m rest := by
  obtain ⟨hstart, hbody, -⟩ := hc.matches_iff.mp hm
  obtain ⟨m', x, hx, hword⟩ := hc.ends _ _ _ hbody
  have hafter : wordAfter w m = true := by
    rw [hx, wordAfter_concat, hword]
  have hsame : ∀ t, startsWord (m ++ t) = startsWord m := by
    intro t
    rw [hx]
    cases m' <;> rfl
  refine hc.matches_iff.mpr ⟨?_, hbody.of_free hc.free, ?_⟩
  · rw [hsame] at hstart ⊢
    rcases hw with rfl | ⟨rfl, w₀, m₀, hm₀⟩
    · exact hstart
    · -- a replaced match stood before this one, and ends at a boundary
      have hrest := hd.startsWord_rest hm₀
      rw [hsame] at hrest
      exact absurd hrest.symm hstart
  · have hrest := hc.startsWord_rest hm
    rw [hafter] at hrest ⊢
    rw [hd.startsWord_replaceFrom repl hrest]
    exact Bool.noConfusion

end Bounded

/-! ## Replacing -/

section Replace

variable {c d : Regex} {repl : List Char}

theorem replaceFrom_skip (r : Regex) (repl : List Char) (w : Bool) (m rest : List Char) :
    r.replaceFrom repl m.length w (m ++ rest) = r.replaceFrom repl 0 (wordAfter w m) rest := by
  induction m generalizing w with
  | nil => rfl
  | cons x m ih => exact ih (isWordChar x)

theorem replaceFrom_match (hd : d.nullable = false) (repl : List Char) {w : Bool}
    {s : List Char} (h : d.matchLen w s ≠ none) :
    ∃ m rest, s = m ++ rest ∧ d.Matches w m rest ∧
      d.replaceFrom repl 0 w s = repl ++ d.replaceFrom repl 0 (wordAfter w m) rest := by
  obtain ⟨n, hn⟩ := Option.ne_none_iff_exists'.mp h
  obtain ⟨⟨w', rest⟩, hx, hlen⟩ := Option.map_eq_some_iff.mp hn
  obtain ⟨m, rfl, -, hm⟩ := mem_ends_iff.mp (mem_of_mem_head? hx)
  obtain ⟨x, m, rfl⟩ := exists_cons_of_ne_nil (hm.ne_nil hd)
  refine ⟨x :: m, rest, rfl, hm, ?_⟩
  have hn' : n - 1 = m.length := by
    rw [← hlen]
    simp only [length_append, length_cons]
    omega
  rw [cons_append] at hn ⊢
  rw [replaceFrom_of_some hn, hn', replaceFrom_skip]
  rfl

variable {m rest : List Char}

theorem copied (hd : d.nullable = false) {σ : Char} {more : List Char} (hrepl : repl = σ :: more)
    (hm : σ ∉ m) {w : Bool} {s : List Char} (h : d.replaceFrom repl 0 w s = m ++ rest) :
    ∃ rest', s = m ++ rest' ∧ rest = d.replaceFrom repl 0 (wordAfter w m) rest' := by
  induction m generalizing w s with
  | nil => exact ⟨s, rfl, h.symm⟩
  | cons x m ih =>
    rw [mem_cons, not_or] at hm
    cases s with
    | nil => cases h
    | cons y s =>
      by_cases hlen : d.matchLen w (y :: s) = none
      · rw [replaceFrom_of_none hlen] at h
        obtain ⟨rfl, htail⟩ := cons.inj h
        obtain ⟨rest', rfl, hrest⟩ := ih hm.2 htail
        exact ⟨rest', rfl, hrest⟩
      · obtain ⟨m₀, rest₀, -, -, hreplaced⟩ := replaceFrom_match hd repl hlen
        rw [hreplaced, hrepl] at h
        exact absurd (cons.inj h).1 hm.1

/-- Replacing the matches of `d` neither reaches into a match of `c` nor makes a new one. -/
structure Undisturbed (c d : Regex) (repl : List Char) : Prop where
  nullable : d.nullable = false
  first : ∃ σ more, repl = σ :: more ∧ c.uses σ = false
  last : ∃ more τ, repl = more ++ [τ] ∧ c.uses τ = false ∧ isWordChar τ = false
  needs : ∀ w m rest, c.Matches w m rest → ∃ x ∈ m, x ∉ repl
  stood : ∀ w w' m rest, c.Matches w' m (d.replaceFrom repl 0 (wordAfter w m) rest) →
    (w' = w ∨ w' = false ∧ ∃ w₀ m₀, d.Matches w₀ m₀ (m ++ rest)) → c.Matches w m rest

theorem Undisturbed.behind (h : Undisturbed c d repl) {w : Bool} {pre out : List Char}
    (hm : c.Matches w m rest) (heq : repl ++ out = pre ++ (m ++ rest)) :
    ∃ pre', pre = repl ++ pre' ∧ out = pre' ++ (m ++ rest) := by
  rcases append_eq_append_iff.mp heq with ⟨pre', rfl, hout⟩ | ⟨tail, hrepl, htail⟩
  · exact ⟨pre', rfl, hout⟩
  · -- `tail` is the end of the replacement from which the match begins
    cases eq_nil_or_concat tail with
    | inl hnil =>
      subst hnil
      exact ⟨[], by simpa using hrepl.symm, by simpa using htail.symm⟩
    | inr hconcat =>
      exfalso
      obtain ⟨tail', τ', rfl⟩ := hconcat
      rw [concat_eq_append] at hrepl htail
      obtain ⟨more, τ, hlast, hτ, -⟩ := h.last
      have hτ' : τ' = τ := by
        rw [hrepl, ← append_assoc] at hlast
        exact (append_inj' hlast rfl).2 |> singleton_inj.mp
      rcases append_eq_append_iff.mp htail with ⟨past, hpast, -⟩ | ⟨past, rfl, -⟩
      · obtain ⟨x, hx, hnot⟩ := h.needs w m rest hm
        exact hnot (by rw [hrepl, hpast]; simp [hx])
      · -- the match goes beyond the replacement, over its last character
        have huses := hm.uses τ' (by simp)
        rw [hτ', hτ] at huses
        cases huses

/-- **A match in the new text was a match in the old one**, at a place where no replaced match
began. -/
theorem Undisturbed.match_of_replace (h : Undisturbed c d repl) {s : List Char} {w w' : Bool}
    (hw : w' = w ∨ w' = false ∧ ∃ w₀ m₀, d.Matches w₀ m₀ s) {pre : List Char}
    (heq : d.replaceFrom repl 0 w s = pre ++ (m ++ rest)) (hm : c.Matches (wordAfter w' pre) m rest) :
    ∃ pre' rest', s = pre' ++ (m ++ rest') ∧ c.Matches (wordAfter w pre') m rest' ∧
      d.matchLen (wordAfter w pre') (m ++ rest') = none := by
  obtain ⟨σ, more, hσ, huses⟩ := h.first
  have hne : m ≠ [] := by
    rintro rfl
    obtain ⟨x, hx, -⟩ := h.needs _ _ _ hm
    cases hx
  have hfirst : σ ∉ m := fun hmem => by
    rw [hm.uses σ hmem] at huses
    cases huses
  induction hn : s.length using Nat.strongRecOn generalizing s w w' pre with
  | ind n ih =>
    cases s with
    | nil =>
      have hnil := (append_eq_nil_iff.mp heq.symm).2
      exact absurd (append_eq_nil_iff.mp hnil).1 hne
    | cons x s =>
      by_cases hlen : d.matchLen w (x :: s) = none
      · cases pre with
        | nil =>
          obtain ⟨rest', hs, rfl⟩ := copied h.nullable hσ hfirst heq
          rw [hs] at hw hlen ⊢
          exact ⟨[], rest', rfl, h.stood w w' m rest' hm hw, hlen⟩
        | cons y pre =>
          rw [replaceFrom_of_none hlen] at heq
          obtain ⟨rfl, htail⟩ := cons.inj heq
          obtain ⟨pre', rest', rfl, hm', hnone⟩ := ih s.length (by rw [← hn]; simp) (.inl rfl)
            htail hm rfl
          exact ⟨x :: pre', rest', rfl, hm', hnone⟩
      · obtain ⟨m₀, rest₀, hs, hm₀, hreplaced⟩ := replaceFrom_match h.nullable repl hlen
        rw [hreplaced] at heq
        obtain ⟨pre', rfl, hout⟩ := h.behind hm heq
        obtain ⟨more', τ, hτ, -, hword⟩ := h.last
        have hafter : wordAfter w' (repl ++ pre') = wordAfter false pre' := by
          rw [wordAfter_append, hτ, wordAfter_concat, hword]
        rw [hafter] at hm
        have hlt : rest₀.length < n := by
          have hpos := length_pos_iff.mpr (hm₀.ne_nil h.nullable)
          rw [← hn, hs, length_append]
          omega
        obtain ⟨pre'', rest', rfl, hm', hnone⟩ := ih rest₀.length hlt
          (.inr ⟨rfl, w, m₀, hm₀⟩) hout hm rfl
        refine ⟨m₀ ++ pre'', rest', by rw [hs, append_assoc], ?_, ?_⟩ <;>
          rwa [wordAfter_append]

theorem Undisturbed.matchString (h : Undisturbed c d repl) {s : List Char}
    (hm : c.matchString (d.replaceAll repl s) = true) : c.matchString s = true := by
  obtain ⟨pre, m, rest, heq, hm⟩ := matchFrom_iff.mp hm
  obtain ⟨pre', rest', hs, hm', -⟩ := h.match_of_replace (.inl rfl) heq hm
  exact matchFrom_iff.mpr ⟨pre', m, rest', hs, hm'⟩

theorem Undisturbed.self (h : Undisturbed d d repl) (s : List Char) :
    d.matchString (d.replaceAll repl s) = false := by
  rw [← Bool.not_eq_true]
  intro hm
  obtain ⟨pre, m, rest, heq, hm⟩ := matchFrom_iff.mp hm
  obtain ⟨pre', rest', -, hm', hnone⟩ := h.match_of_replace (.inl rfl) heq hm
  exact matchLen_eq_none_iff.mp hnone m rest' rfl hm'

end Replace

/-! ## Edits -/

abbrev Occurs := (word : Bool) → (m rest : List Char) → Prop

inductive Edited (occ : Occurs) : (word : Bool) → List Char → List Char → Prop where
  | nil {w} : Edited occ w [] []
  | keep {w c s t} : Edited occ (isWordChar c) s t → Edited occ w (c :: s) (c :: t)
  | replace {w s t} (m repl : List Char) : occ w m s → Edited occ (wordAfter w m) s t →
      Edited occ w (m ++ s) (repl ++ t)

inductive Covered (occ : Occurs) : (word : Bool) → List Char → Prop where
  | nil {w} : Covered occ w []
  | append {w s} (m : List Char) : occ w m s → Covered occ (wordAfter w m) s →
      Covered occ w (m ++ s)

theorem edited_nil_iff {occ : Occurs} {w : Bool} {s : List Char} :
    Edited occ w s [] ↔ Covered occ w s := by
  constructor
  · intro h
    generalize ht : ([] : List Char) = t at h
    induction h with
    | nil => exact .nil
    | keep => cases ht
    | replace m repl hm _ ih => exact .append m hm (ih (append_eq_nil_iff.mp ht.symm).2.symm)
  · intro h
    induction h with
    | nil => exact .nil
    | append m hm _ ih => exact Edited.replace m [] hm ih

theorem Covered.mem {occ : Occurs} {w : Bool} {s : List Char} (h : Covered occ w s) {c : Char}
    (hc : c ∈ s) : ∃ w m rest, occ w m rest ∧ c ∈ m := by
  induction h with
  | nil => cases hc
  | append m hm _ ih =>
    rcases mem_append.mp hc with hc | hc
    · exact ⟨_, m, _, hm, hc⟩
    · exact ih hc

theorem edited_replaceFrom {d : Regex} (hd : d.nullable = false) (repl : List Char) (w : Bool)
    (s : List Char) : Edited d.Matches w s (d.replaceFrom repl 0 w s) := by
  induction hn : s.length using Nat.strongRecOn generalizing s w with
  | ind n ih =>
    cases s with
    | nil => exact .nil
    | cons c s =>
      by_cases hlen : d.matchLen w (c :: s) = none
      · rw [replaceFrom_of_none hlen]
        exact .keep (ih s.length (by rw [← hn]; simp) _ s rfl)
      · obtain ⟨m, rest, hs, hm, hreplaced⟩ := replaceFrom_match hd repl hlen
        have hpos := length_pos_iff.mpr (hm.ne_nil hd)
        have hlt : rest.length < n := by
          rw [← hn, hs, length_append]
          omega
        rw [hreplaced, hs]
        exact .replace m repl hm (ih rest.length hlt _ rest rfl)

theorem replaceFrom_ne_nil {d : Regex} (hd : d.nullable = false) {repl : List Char}
    (hrepl : repl ≠ []) {w : Bool} {s : List Char} (hs : s ≠ []) :
    d.replaceFrom repl 0 w s ≠ [] := by
  cases s with
  | nil => exact absurd rfl hs
  | cons c s =>
    by_cases hlen : d.matchLen w (c :: s) = none
    · rw [replaceFrom_of_none hlen]
      exact cons_ne_nil _ _
    · obtain ⟨m, rest, -, -, hreplaced⟩ := replaceFrom_match hd repl hlen
      rw [hreplaced]
      exact append_ne_nil_of_left_ne_nil hrepl _

end LlmRouter.Lib.Regex
