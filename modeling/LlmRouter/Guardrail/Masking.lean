import LlmRouter.Guardrail.Builder
import LlmRouter.Lib.RegexMatch

/-!
# LlmRouter — what masking leaves of a message

Where a guard triggers with the action `mask`, its `Modified` is the text from then on. Only the
detector of personal data sets it; a message in which another guard with this action finds
something becomes empty.
-/

namespace LlmRouter.Guardrail

open Lib Lib.Json Gateway HotReload BuiltGuard List
open Lib.Regex (Occurs Edited)

/-! ## One guard -/

namespace BuiltGuard

variable (rt : GuardRuntime) (n : Nat)

def Masks (g : BuiltGuard) (text : String) : Prop :=
  ∃ r, (g.guard rt).check n text .input = .ok r ∧ r.triggered = true ∧ r.action = .mask

def action : BuiltGuard → Action
  | .pii action _ | .injection action | .judgedInjection _ action | .content action _
  | .judgedContent _ action | .keywords action _ => action

def isPII : BuiltGuard → Bool
  | .pii .. => true
  | _ => false

def detector (action : Action) (categories : List String) : Detector :=
  { action, categories, order := rt.categories, perm := rt.categories_perm }

def Occurs : BuiltGuard → Regex.Occurs
  | .pii action categories, w, m, rest =>
    ∃ c : Category, (detector rt action categories).enables c = true ∧ c.pattern.Matches w m rest
  | .injection _, w, m, rest => ∃ re ∈ injectionPatterns, re.Matches w m rest
  | .judgedInjection .., _, _, _ => False
  | .content _ categories, w, m, rest =>
    ∃ c : Topic, categories.contains c.name = true ∧ c.pattern.Matches w m rest
  | .judgedContent .., _, _, _ => False
  | .keywords _ blocked, _, m, _ => ∃ kw ∈ blocked, rt.toLower (String.ofList m) = rt.toLower kw

def EditedBy : List Regex.Occurs → List Char → List Char → Prop
  | [], s, t => t = s
  | occ :: occs, s, t => ∃ u, Edited occ false s u ∧ EditedBy occs u t

/-- The second text is the first one with only pieces replaced that the guard matches, in one pass
per category. -/
def Edits : BuiltGuard → (text text' : String) → Prop
  | .pii action categories, text, text' =>
    EditedBy (((detector rt action categories).found n text).map fun c => c.pattern.Matches)
      text.toList text'.toList
  | g, text, text' => Edited (g.Occurs rt) false text.toList text'.toList

theorem editedBy_redactAll (cs : List Category) (text : List Char) :
    EditedBy (cs.map fun c => c.pattern.Matches) text (Detector.redactAll cs text) := by
  induction cs generalizing text with
  | nil => rfl
  | cons c cs ih =>
    rw [Detector.redactAll_cons]
    exact ⟨c.redact text, Regex.edited_replaceFrom (by cases c <;> rfl) _ _ _, ih _⟩

theorem redactAll_ne_nil (cs : List Category) {text : List Char} (h : text ≠ []) :
    Detector.redactAll cs text ≠ [] := by
  induction cs generalizing text with
  | nil => exact h
  | cons c cs ih =>
    rw [Detector.redactAll_cons]
    exact ih (Regex.replaceFrom_ne_nil (by cases c <;> rfl) (cons_ne_nil _ _) h)

variable {g : BuiltGuard} {text : String} {r : Result}

section Masked

variable (hcheck : (g.guard rt).check n text .input = .ok r) (htriggered : r.triggered = true)
  (hmask : r.action = .mask)

include hcheck htriggered hmask

theorem modified_of_pii (hpii : g.isPII = true) :
    ∃ action categories, g = .pii action categories ∧ r.modified.toList =
      Detector.redactAll ((detector rt action categories).found n text) text.toList := by
  cases g with
  | pii action categories =>
    have hr : (detector rt action categories).check n text = r := Except.ok.inj hcheck
    subst hr
    obtain ⟨haction, hmodified⟩ :=
      ((detector rt action categories).check_eq n text).2 htriggered
    exact ⟨action, categories, rfl, hmodified (haction.symm.trans hmask)⟩
  | _ => cases hpii

/-- **The detector of personal data replaces only what it matches.** -/
theorem edits_of_pii (hpii : g.isPII = true) : g.Edits rt n text r.modified := by
  obtain ⟨action, categories, rfl, hmodified⟩ :=
    modified_of_pii rt n hcheck htriggered hmask hpii
  rw [Edits, hmodified]
  exact editedBy_redactAll _ _

theorem modified_ne_of_pii (hpii : g.isPII = true) (hne : text ≠ "") : r.modified ≠ "" := by
  obtain ⟨action, categories, rfl, hmodified⟩ :=
    modified_of_pii rt n hcheck htriggered hmask hpii
  rw [ne_eq, ← String.toList_eq_nil_iff] at hne ⊢
  rw [hmodified]
  exact redactAll_ne_nil _ hne

end Masked

theorem check_filter (hpii : g.isPII = false) (text : String) :
    ∃ name category, (g.guard rt).check n text .input =
      .ok (filterResult name g.action category) := by
  cases g with
  | pii => cases hpii
  | injection action =>
    simp only [guard, injectionGuard]
    split_ifs
    · exact ⟨"", none, rfl⟩
    · exact ⟨"prompt_injection", some "prompt_injection", rfl⟩
    · exact ⟨"", none, rfl⟩
  | judgedInjection judge action =>
    simp only [guard, promptInjectionGuard]
    split
    · exact ⟨"", none, rfl⟩
    · split
      · exact ⟨"", none, rfl⟩
      · split_ifs
        · exact ⟨"", none, rfl⟩
        · exact ⟨"prompt_injection", some "prompt_injection", rfl⟩
  | content | judgedContent => exact ⟨"content_filter", _, rfl⟩
  | keywords => exact ⟨"custom_keywords", _, rfl⟩

theorem modified_of_not_pii (hpii : g.isPII = false)
    (hcheck : (g.guard rt).check n text .input = .ok r) : r.modified = "" := by
  obtain ⟨name, category, hfilter⟩ := check_filter rt n hpii text
  cases Except.ok.inj (hcheck.symm.trans hfilter)
  cases category <;> rfl

theorem edits_empty_iff (hpii : g.isPII = false) :
    g.Edits rt n text "" ↔ Regex.Covered (g.Occurs rt) false text.toList := by
  cases g with
  | pii => cases hpii
  | _ => exact Regex.edited_nil_iff

theorem check_ok (g : BuiltGuard) (text : String) :
    ∃ r, (g.guard rt).check n text .input = .ok r := by
  cases hpii : g.isPII with
  | true =>
    cases g with
    | pii => exact ⟨_, rfl⟩
    | _ => cases hpii
  | false =>
    obtain ⟨name, category, hcheck⟩ := check_filter rt n hpii text
    exact ⟨_, hcheck⟩

def leaves (g : BuiltGuard) (text : String) : String :=
  match (g.guard rt).check n text .input with
  | .ok r => if r.triggered ∧ r.action = .mask then r.modified else text
  | .error _ => text

theorem leaves_of_masks
    (hcheck : (g.guard rt).check n text .input = .ok r) (htriggered : r.triggered = true)
    (hmask : r.action = .mask) : g.leaves rt n text = r.modified := by
  rw [leaves, hcheck]
  exact if_pos ⟨htriggered, hmask⟩

theorem leaves_of_not_masks (h : ¬ g.Masks rt n text) :
    g.leaves rt n text = text := by
  obtain ⟨r, hcheck⟩ := g.check_ok rt n text
  rw [leaves, hcheck]
  exact if_neg fun hmasks => h ⟨r, hcheck, hmasks⟩

theorem run_cons_leaves {gs : List BuiltGuard}
    (hpass : (run n .input text ((g :: gs).map (guard rt))).2 = none) :
    run n .input text ((g :: gs).map (guard rt)) =
      run n .input (g.leaves rt n text) (gs.map (guard rt)) := by
  obtain ⟨r, hcheck⟩ := g.check_ok rt n text
  rw [map_cons] at hpass ⊢
  rw [run_cons hcheck hpass, leaves, hcheck]

end BuiltGuard

/-! ## A run -/

section Run

variable (rt : GuardRuntime) (n : Nat)

def given : (text : String) → List BuiltGuard → List (BuiltGuard × String)
  | _, [] => []
  | text, g :: gs => (g, text) :: given (g.leaves rt n text) gs

inductive Rewritten : List BuiltGuard → (text out : String) → Prop where
  | nil {text} : Rewritten [] text text
  | pass {g gs text out} : ¬ g.Masks rt n text → Rewritten gs text out →
      Rewritten (g :: gs) text out
  | mask {g gs text out r} : (g.guard rt).check n text .input = .ok r → r.triggered = true →
      r.action = .mask → g.Edits rt n text r.modified → Rewritten gs r.modified out →
      Rewritten (g :: gs) text out

/-- A message keeps the text outside of what was matched, so it is empty only if matched as a whole. -/
structure Keeps (gs : List BuiltGuard) (text out : String) : Prop where
  rewritten : Rewritten rt n gs text out
  nonempty : text ≠ "" → out = "" → ∃ g t, (g, t) ∈ given rt n text gs ∧ g.Masks rt n t ∧
    Regex.Covered (g.Occurs rt) false t.toList

/-- Every guard that masks is the detector of personal data, or matches all of the text that it
is given. -/
def MasksOwn (gs : List BuiltGuard) (text : String) : Prop :=
  ∀ g t, (g, t) ∈ given rt n text gs → g.Masks rt n t →
    g.isPII = true ∨ Regex.Covered (g.Occurs rt) false t.toList

variable {rt n} {g : BuiltGuard} {gs : List BuiltGuard} {text : String}

theorem masksOwn_cons :
    MasksOwn rt n (g :: gs) text ↔
      (g.Masks rt n text → g.isPII = true ∨ Regex.Covered (g.Occurs rt) false text.toList) ∧
        MasksOwn rt n gs (g.leaves rt n text) := by
  constructor
  · intro h
    exact ⟨h g text (mem_cons_self ..), fun g' t hmem =>
      h g' t (mem_cons_of_mem _ hmem)⟩
  · rintro ⟨hhead, htail⟩ g' t hmem
    rcases mem_cons.mp hmem with heq | hmem
    · cases heq
      exact hhead
    · exact htail g' t hmem

theorem BuiltGuard.edits_iff {r : Result}
    (hcheck : (g.guard rt).check n text .input = .ok r) (htriggered : r.triggered = true)
    (hmask : r.action = .mask) : g.Edits rt n text r.modified ↔
      g.isPII = true ∨ Regex.Covered (g.Occurs rt) false text.toList := by
  cases hpii : g.isPII with
  | true => exact iff_of_true (edits_of_pii rt n hcheck htriggered hmask hpii) (.inl rfl)
  | false =>
    rw [modified_of_not_pii rt n hpii hcheck, edits_empty_iff rt n hpii]
    simp

theorem rewritten_iff
    (hpass : (run n .input text (gs.map (guard rt))).2 = none) :
    Rewritten rt n gs text (run n .input text (gs.map (guard rt))).1 ↔
      MasksOwn rt n gs text := by
  induction gs generalizing text with
  | nil =>
    refine iff_of_true .nil ?_
    intro g t hmem
    cases hmem
  | cons g gs ih =>
    have hrun := run_cons_leaves rt n hpass
    rw [hrun] at hpass ⊢
    rw [masksOwn_cons, ← ih hpass]
    by_cases hmasks : g.Masks rt n text
    · obtain ⟨r, hcheck, htriggered, hmask⟩ := id hmasks
      rw [leaves_of_masks rt n hcheck htriggered hmask, ← edits_iff hcheck htriggered hmask]
      constructor
      · intro h
        cases h with
        | pass hnot => exact absurd hmasks hnot
        | mask hcheck' _ _ hedits hrest =>
          cases Except.ok.inj (hcheck.symm.trans hcheck')
          exact ⟨fun _ => hedits, hrest⟩
      · rintro ⟨hedits, hrest⟩
        exact .mask hcheck htriggered hmask (hedits hmasks) hrest
    · rw [leaves_of_not_masks rt n hmasks]
      constructor
      · intro h
        cases h with
        | pass _ hrest => exact ⟨fun h => absurd h hmasks, hrest⟩
        | mask hcheck htriggered hmask => exact absurd ⟨_, hcheck, htriggered, hmask⟩ hmasks
      · rintro ⟨-, hrest⟩
        exact .pass hmasks hrest

theorem MasksOwn.nonempty (h : MasksOwn rt n gs text)
    (hpass : (run n .input text (gs.map (guard rt))).2 = none) (hne : text ≠ "")
    (hempty : (run n .input text (gs.map (guard rt))).1 = "") :
    ∃ g t, (g, t) ∈ given rt n text gs ∧ g.Masks rt n t ∧
      Regex.Covered (g.Occurs rt) false t.toList := by
  induction gs generalizing text with
  | nil => exact absurd hempty hne
  | cons g gs ih =>
    have hrun := run_cons_leaves rt n hpass
    rw [hrun] at hpass hempty
    obtain ⟨hhead, htail⟩ := masksOwn_cons.mp h
    by_cases hleft : g.leaves rt n text = ""
    · have hmasks : g.Masks rt n text := by
        by_contra hmasks
        rw [leaves_of_not_masks rt n hmasks] at hleft
        exact hne hleft
      rcases hhead hmasks with hpii | hcovered
      · obtain ⟨r, hcheck, htriggered, hmask⟩ := hmasks
        rw [leaves_of_masks rt n hcheck htriggered hmask] at hleft
        exact absurd hleft (modified_ne_of_pii rt n hcheck htriggered hmask hpii hne)
      · exact ⟨g, text, mem_cons_self .., hmasks, hcovered⟩
    · obtain ⟨g', t, hmem, hmasks⟩ := ih htail hpass hleft hempty
      exact ⟨g', t, mem_cons_of_mem _ hmem, hmasks⟩

theorem keeps_iff
    (hpass : (run n .input text (gs.map (guard rt))).2 = none) :
    Keeps rt n gs text (run n .input text (gs.map (guard rt))).1 ↔
      MasksOwn rt n gs text :=
  ⟨fun h => (rewritten_iff hpass).mp h.rewritten,
    fun h => ⟨(rewritten_iff hpass).mpr h, h.nonempty hpass⟩⟩

end Run

/-! ## Guards from records -/

theorem BuiltGuard.action_of_masks {rt : GuardRuntime} {n : Nat} {g : BuiltGuard} {text : String}
    (hpii : g.isPII = false) (h : g.Masks rt n text) : g.action = .mask := by
  obtain ⟨r, hcheck, htriggered, hmask⟩ := h
  obtain ⟨name, category, hfilter⟩ := check_filter rt n hpii text
  cases Except.ok.inj (hcheck.symm.trans hfilter)
  cases category with
  | none => cases htriggered
  | some category => exact hmask

/-- The types of record that make a guard other than the detector of personal data. -/
def filterTypes : List String := ["prompt_injection", "content_filter", "custom_keywords"]

def BuiltGuard.From (recs : List PolicyRecord) (g : BuiltGuard) : Prop :=
  g.isPII = true ∨ ∃ rec ∈ recs, rec.isEnabled = true ∧ rec.guardrailType ∈ filterTypes ∧
    g.action = Action.ofText rec.action

theorem Built.record_input (judge : Option Judge) (b : Built) (rec : PolicyRecord) :
    (b.record judge rec).input = b.input ∨
      ∃ g : BuiltGuard, (b.record judge rec).input = b.input ++ [g] ∧ g.From [rec] := by
  unfold Built.record
  split_ifs with hdisabled hpii hinjection hcontent hkeywords
  · exact .inl rfl
  · exact .inr ⟨_, rfl, .inl rfl⟩
  · have henabled : rec.isEnabled = true := by simpa using hdisabled
    unfold Built.injection
    split <;> exact .inr ⟨_, rfl, .inr ⟨rec, by simp, henabled, by simp [hinjection, filterTypes],
      rfl⟩⟩
  · have henabled : rec.isEnabled = true := by simpa using hdisabled
    unfold Built.content
    split <;> exact .inr ⟨_, rfl, .inr ⟨rec, by simp, henabled, by simp [hcontent, filterTypes],
      rfl⟩⟩
  · have henabled : rec.isEnabled = true := by simpa using hdisabled
    unfold Built.keywords
    split
    · exact .inr ⟨_, rfl, .inr ⟨rec, by simp, henabled, by simp [hkeywords, filterTypes], rfl⟩⟩
    · exact .inl rfl
  · exact .inl rfl

theorem Built.from_foldl (judge : Option Judge) {all recs : List PolicyRecord}
    (hsub : ∀ rec ∈ recs, rec ∈ all) {b : Built} (hb : ∀ g ∈ b.input, g.From all) :
    ∀ g ∈ (recs.foldl (Built.record judge) b).input, g.From all := by
  induction recs generalizing b with
  | nil => exact hb
  | cons rec recs ih =>
    rw [forall_mem_cons] at hsub
    refine ih hsub.2 ?_
    rcases b.record_input judge rec with heq | ⟨g, heq, hg⟩
    · rwa [heq]
    · rw [heq]
      intro g' hg'
      rcases mem_append.mp hg' with hg' | hg'
      · exact hb g' hg'
      · cases mem_singleton.mp hg'
        rcases hg with hpii | ⟨rec', hmem, hrec⟩
        · exact .inl hpii
        · cases mem_singleton.mp hmem
          exact .inr ⟨rec, hsub.1, hrec⟩

def inputGuards (b : Option Built) : List BuiltGuard := b.elim [] Built.input

theorem from_buildPipelineFromRecords (registry : JudgeRegistry) (recs : List PolicyRecord) :
    ∀ g ∈ inputGuards (buildPipelineFromRecords registry recs), g.From recs := by
  have hfold : ∀ g ∈ (recs.foldl (Built.record (recordJudge registry recs)) {}).input,
      g.From recs :=
    Built.from_foldl _ (fun _ h => h) (by simp)
  unfold buildPipelineFromRecords Built.orNil
  split
  · simp [inputGuards]
  · exact hfold

theorem check_input (rt : GuardRuntime) (b : Option Built) (n : Nat) (text : String) :
    check rt b .input n text = run n .input text ((inputGuards b).map (guard rt)) := by
  cases b <;> rfl

theorem Action.ofText_eq_mask {text : String} (h : Action.ofText text = .mask) :
    text = "mask" := by
  unfold Action.ofText at h
  split_ifs at h with _ hmask
  exact hmask

theorem mem_given {rt : GuardRuntime} {n : Nat} {gs : List BuiltGuard} {text : String}
    {g : BuiltGuard} {t : String} (h : (g, t) ∈ given rt n text gs) : g ∈ gs := by
  induction gs generalizing text with
  | nil => cases h
  | cons g' gs ih =>
    rcases mem_cons.mp h with heq | h
    · cases heq
      exact mem_cons_self
    · exact mem_cons_of_mem _ (ih h)

/-- **A message that is not blocked keeps what no guard matched exactly if every masking guard of
the run but the detector of personal data matches all of the text that it is given.** -/
theorem records_keep_iff (registry : JudgeRegistry) (recs : List PolicyRecord)
    (rt : GuardRuntime) (n : Nat) (text : String) :
    let b := buildPipelineFromRecords registry recs
    (((check rt b .input n text).2 = none →
        Keeps rt n (inputGuards b) text (check rt b .input n text).1) ↔
      ((check rt b .input n text).2 = none → MasksOwn rt n (inputGuards b) text)) ∧
    ((∀ rec ∈ recs, rec.isEnabled = true → rec.action = "mask" →
        rec.guardrailType ∉ filterTypes) →
      (check rt b .input n text).2 = none →
        Keeps rt n (inputGuards b) text (check rt b .input n text).1) := by
  intro b
  rw [check_input]
  refine ⟨⟨fun h hpass => (keeps_iff hpass).mp (h hpass),
    fun h hpass => (keeps_iff hpass).mpr (h hpass)⟩, fun h hpass => (keeps_iff hpass).mpr ?_⟩
  intro g t hmem hmasks
  cases hpii : g.isPII with
  | true => exact .inl rfl
  | false =>
    obtain ⟨rec, hrec, henabled, htype, haction⟩ :=
      (from_buildPipelineFromRecords registry recs g (mem_given hmem)).resolve_left (by simp [hpii])
    rw [action_of_masks hpii hmasks] at haction
    exact absurd htype (h rec hrec henabled (Action.ofText_eq_mask haction.symm))

def asciiRuntime : GuardRuntime where
  toLower s := String.ofList (s.toList.map Char.toLower)
  categories _ _ := Category.all
  categories_perm _ _ := .refl _
  topics _ _ := Topic.all
  topics_perm _ _ := .refl _

def maskSecret : PolicyRecord where
  guardrailType := "custom_keywords"
  isEnabled := true
  action := "mask"
  engine := ""
  configJSON := marshalStrings "blocked" (some ["secret"])
  sortOrder := 3

theorem build_maskSecret (registry : JudgeRegistry) :
    buildPipelineFromRecords registry [maskSecret] =
      some { input := [.keywords .mask ["secret"]], output := [.keywords .mask ["secret"]] } := by
  simp [buildPipelineFromRecords, Built.record, maskSecret, readStrings_marshalStrings,
    Built.keywords, Built.both, Built.orNil, Action.ofText]

theorem check_maskSecret :
    ((keywords .mask ["secret"]).guard asciiRuntime).check 0 "my secret?" .input =
      .ok { triggered := true, action := .mask, category := "secret",
            guardrail := "custom_keywords" } := by
  decide +kernel

theorem not_covered_maskSecret :
    ¬ Regex.Covered ((keywords .mask ["secret"]).Occurs asciiRuntime) false
      "my secret?".toList := by
  intro hcovered
  obtain ⟨w, m, rest, ⟨kw, hkw, heq⟩, hmem⟩ := hcovered.mem (c := '?') (by decide)
  cases mem_singleton.mp hkw
  have hlower : m.map Char.toLower = "secret".toList := by
    have h := congrArg String.toList heq
    simpa [asciiRuntime] using h
  have hmark : Char.toLower '?' ∈ m.map Char.toLower := mem_map_of_mem hmem
  rw [hlower] at hmark
  exact absurd hmark (by decide)

/-- A message with a keyword to mask becomes empty. -/
theorem masking_erases :
    let b := buildPipelineFromRecords (fun _ => none) [maskSecret]
    check asciiRuntime b .input 0 "my secret?" = ("", none) ∧
      ¬ Keeps asciiRuntime 0 (inputGuards b) "my secret?" "" := by
  intro b
  have hguards : inputGuards b = [.keywords .mask ["secret"]] := by
    rw [show b = some _ from build_maskSecret _]
    rfl
  have hrun : run 0 .input "my secret?"
      ([keywords .mask ["secret"]].map (guard asciiRuntime)) =
        ("", none) := by
    rw [map_singleton, run, check_maskSecret]
    rfl
  rw [check_input, hguards]
  refine ⟨hrun, fun hkeeps => ?_⟩
  have hout : (run 0 .input "my secret?"
      ([keywords .mask ["secret"]].map (guard asciiRuntime))).1 = "" :=
    congrArg Prod.fst hrun
  rw [← hout, keeps_iff (congrArg Prod.snd hrun)] at hkeeps
  rcases hkeeps _ _ (mem_cons_self ..) ⟨_, check_maskSecret, rfl, rfl⟩ with hpii | hcovered
  · cases hpii
  · exact not_covered_maskSecret hcovered

end LlmRouter.Guardrail
