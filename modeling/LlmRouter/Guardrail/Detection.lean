import LlmRouter.Guardrail.Guards
import LlmRouter.Lib.RegexMatch

/-!
# LlmRouter — what the detector of personal data leaves, and what it depends on

`pii.Detector.Check` goes over a map of patterns in any order. It asks every pattern whether it
matches the text *as it was given*, and replaces the matches in the text *as it is by then*. A tag
in the place of a match is seen by its neighbours as the boundary that was there before
(`Category.undisturbed`), except for an e-mail address, which may end within a word.
-/

namespace LlmRouter.Guardrail

open Lib Lib.Json List

/-! ## The patterns -/

namespace Category

open Regex

theorem endsIn_digit : digit.EndsIn Char.isDigit := endsIn_cls fun _ hc => hc

theorem endsIn_upTo3Digits : upTo3Digits.EndsIn Char.isDigit :=
  endsIn_digit.seq_left (endsIn_digit.seq_left endsIn_digit.orEmpty.opt).orEmpty.opt

theorem pattern_digits {c : Category} (h : c ≠ email) : ∃ body,
    c.pattern = seqs (.boundary :: body ++ [.boundary]) ∧ (seqs body).free = true ∧
      (seqs body).EndsIn Char.isDigit := by
  cases c with
  | creditCard =>
    exact ⟨[.times (.seq (.times digit 4) (.opt dashOrSpace)) 3, .times digit 4], rfl, rfl,
      (endsIn_digit.times 3).seqs_concat [_]⟩
  | ssn =>
    exact ⟨[.times digit 3, .lit '-', .times digit 2, .lit '-', .times digit 4], rfl, rfl,
      (endsIn_digit.times 3).seqs_concat [_, _, _, _]⟩
  | email => exact absurd rfl h
  | phoneUS =>
    exact ⟨[.opt (.seqs [.lit '+', .lit '1', .opt dashDotOrSpace]), .opt (.lit '('),
      .times digit 3, .opt (.lit ')'), .opt dashDotOrSpace, .times digit 3, .opt dashDotOrSpace,
      .times digit 4], rfl, rfl, (endsIn_digit.times 3).seqs_concat [_, _, _, _, _, _, _]⟩
  | ipAddress =>
    exact ⟨[.times (.seq upTo3Digits (.lit '.')) 3, upTo3Digits], rfl, rfl,
      endsIn_upTo3Digits.seqs_concat [_]⟩
  | koreanRRN =>
    exact ⟨[.times digit 6, .lit '-', .cls fun c => '1' ≤ c && c ≤ '4', .times digit 6], rfl, rfl,
      (endsIn_digit.times 5).seqs_concat [_, _, _]⟩

theorem bounded {c : Category} (h : c ≠ email) : ∃ body, Bounded c.pattern body := by
  obtain ⟨body, hpattern, hfree, hends⟩ := pattern_digits h
  refine ⟨body, hpattern, hfree, fun w m rest hm => ?_⟩
  obtain ⟨m', x, rfl, hx⟩ := hends w m rest hm
  exact ⟨m', x, rfl, by simp [isWordChar, Char.isAlphanum, hx]⟩

theorem redacted_not_digit (d : Category) : (redacted d.tag).all (fun x => !x.isDigit) = true := by
  cases d <;> decide

theorem redacted_not_at (d : Category) : (redacted d.tag).all (· != '@') = true := by
  cases d <;> decide

theorem exists_not_mem_redacted {c : Category} {w : Bool} {m rest : List Char}
    (hm : c.pattern.Matches w m rest) (d : Category) : ∃ x ∈ m, x ∉ redacted d.tag := by
  by_cases hc : c = email
  · subst hc
    obtain ⟨m₁, _, rfl, -, _, m₃, rfl, ⟨x, rfl, hx⟩, -⟩ := hm
    rw [beq_iff_eq] at hx
    refine ⟨x, by simp, fun hmem => ?_⟩
    have hne := all_eq_true.mp (redacted_not_at d) x hmem
    simp [hx] at hne
  · obtain ⟨body, hpattern, -, hends⟩ := pattern_digits hc
    rw [hpattern] at hm
    obtain ⟨m', x, rfl, hx⟩ := hends _ _ _ (matches_bounded.mp hm).2.1
    refine ⟨x, by simp, fun hmem => ?_⟩
    have hne := all_eq_true.mp (redacted_not_digit d) x hmem
    simp [hx] at hne

/-- Masking disturbs no match of another category, unless it is e-mail addresses that are
masked. -/
theorem undisturbed {c d : Category} (h : d = email → c = email) :
    Undisturbed c.pattern d.pattern (redacted d.tag) where
  nullable := by cases d <;> rfl
  first := ⟨'[', _, rfl, by cases c <;> rfl⟩
  last := ⟨'[' :: d.tag, ']', rfl, by cases c <;> rfl, rfl⟩
  needs _ _ _ hm := exists_not_mem_redacted hm d
  stood w w' m rest hm hw := by
    by_cases hc : c = email
    · subst hc
      exact hm.of_free rfl
    · obtain ⟨bc, hbc⟩ := bounded hc
      obtain ⟨bd, hbd⟩ := bounded (c := d) fun hd => hc (h hd)
      exact hbc.stood hbd _ hm hw

theorem not_finds_redact {c d : Category} (h : d = email → c = email) {text : List Char}
    (hc : c.finds text = false) : c.finds (d.redact text) = false := by
  rw [← Bool.not_eq_true] at hc ⊢
  exact fun hfinds => hc ((undisturbed h).matchString hfinds)

theorem not_finds_redact_self (c : Category) (text : List Char) :
    c.finds (c.redact text) = false :=
  (undisturbed fun _ => ‹_›).self text

end Category

/-! ## A check -/

structure DetectorConfig where
  enabled : Bool
  action : Action
  categories : List String

def DetectorConfig.looksFor (cfg : DetectorConfig) (c : Category) : Bool :=
  cfg.enabled && (cfg.categories.isEmpty || cfg.categories.contains c.name)

namespace Detector

variable (d : Detector)

def config : DetectorConfig := ⟨d.enabled, d.action, d.categories⟩

/-- The text after a check of a masking detector: `Modified`, or the text itself if nothing
was found. -/
def masked (n : Nat) (text : String) : String :=
  if (d.check n text).triggered then (d.check n text).modified else text

variable {text : String}

theorem mem_found_of_looksFor {n : Nat} {c : Category} (hc : d.config.looksFor c = true) :
    c ∈ d.found n text ↔ c.finds text.toList = true := by
  rw [d.mem_found]
  exact and_iff_right (Bool.and_eq_true_iff.mp hc).2

theorem toList_masked (hmask : d.action = .mask) (n : Nat) (text : String) :
    (d.masked n text).toList =
      if d.enabled then redactAll (d.found n text) text.toList else text.toList := by
  obtain ⟨htriggered, hmodified⟩ := d.check_eq n text
  unfold masked
  cases htrue : (d.check n text).triggered with
  | true =>
    have henabled : d.enabled = true := by
      rw [htrue] at htriggered
      exact (Bool.and_eq_true_iff.mp htriggered.symm).1
    rw [if_pos rfl, if_pos henabled]
    exact (hmodified htrue).2 hmask
  | false =>
    rw [htrue] at htriggered
    rw [if_neg Bool.false_ne_true]
    split
    · next henabled =>
      rw [henabled, Bool.true_and] at htriggered
      have hnil : d.found n text = [] := by simpa using htriggered.symm
      rw [hnil]
      rfl
    · rfl

theorem masked_of_not_finds {n : Nat}
    (h : ∀ c, d.config.looksFor c = true → c.finds text.toList = false) :
    d.masked n text = text := by
  obtain ⟨htriggered, -⟩ := d.check_eq n text
  have hfalse : (d.check n text).triggered = false := by
    rw [htriggered, Bool.and_eq_false_imp]
    intro henabled
    rw [Bool.not_eq_false', List.isEmpty_iff, List.eq_nil_iff_forall_not_mem]
    intro c hc
    obtain ⟨henables, hfinds⟩ := d.mem_found.mp hc
    have hlooks : d.config.looksFor c = true := Bool.and_eq_true_iff.mpr ⟨henabled, henables⟩
    rw [h c hlooks] at hfinds
    cases hfinds
  rw [masked, hfalse, if_neg Bool.false_ne_true]

/-- Masking was complete: no category is found any more, and masking again, in whatever order,
changes nothing. -/
structure Complete (n : Nat) (text : String) : Prop where
  clean : ∀ c, d.config.looksFor c = true → c.finds (d.masked n text).toList = false
  again : ∀ d' : Detector, d'.config = d.config → ∀ n',
    d'.masked n' (d.masked n text) = d.masked n text

theorem complete_of_clean {n : Nat}
    (h : ∀ c, d.config.looksFor c = true → c.finds (d.masked n text).toList = false) :
    d.Complete n text where
  clean := h
  again d' hconfig _ := d'.masked_of_not_finds fun c hc => h c (hconfig ▸ hc)

end Detector

theorem Detector.not_finds_redactAll {c : Category} {cs : List Category}
    (h : ∀ e ∈ cs, e = .email → c = .email) {text : List Char} (hc : c.finds text = false) :
    c.finds (redactAll cs text) = false := by
  induction cs generalizing text with
  | nil => exact hc
  | cons e cs ih =>
    rw [forall_mem_cons] at h
    rw [redactAll_cons]
    exact ih h.2 (Category.not_finds_redact h.1 hc)

theorem Detector.not_finds_redactAll_of_mem {c : Category} {cs : List Category}
    (h : ∀ e ∈ cs, e = .email → c = .email) (hc : c ∈ cs) (text : List Char) :
    c.finds (redactAll cs text) = false := by
  induction cs generalizing text with
  | nil => cases hc
  | cons e cs ih =>
    rw [forall_mem_cons] at h
    rw [redactAll_cons]
    rcases mem_cons.mp hc with rfl | hc
    · exact not_finds_redactAll h.2 (c.not_finds_redact_self text)
    · exact ih h.2 hc _

theorem Detector.complete_of_not_email (d : Detector) (hmask : d.action = .mask) (n : Nat)
    (text : String) (h : d.config.looksFor .email = true →
      Category.email.finds text.toList = true → ∀ c, d.config.looksFor c = true → c = .email) :
    d.Complete n text := by
  refine d.complete_of_clean fun c hc => ?_
  have henabled : d.enabled = true := (Bool.and_eq_true_iff.mp hc).1
  have hfound : ∀ e ∈ d.found n text, e = .email → c = .email := by
    rintro e he rfl
    obtain ⟨henables, hfinds⟩ := d.mem_found.mp he
    exact h (Bool.and_eq_true_iff.mpr ⟨henabled, henables⟩) hfinds c hc
  rw [d.toList_masked hmask, if_pos henabled]
  cases hfinds : c.finds text.toList with
  | true => exact not_finds_redactAll_of_mem hfound ((d.mem_found_of_looksFor hc).mpr hfinds) _
  | false => exact not_finds_redactAll hfound hfinds

/-! ## Behind an e-mail address -/

def behindEmail : Category → String
  | .creditCard => "a@b.co1234123412341234"
  | .ssn => "a@b.co123-45-6789"
  | .email => "a@b.co"
  | .phoneUS => "a@b.co1234567890"
  | .ipAddress => "a@b.co1.2.3.4"
  | .koreanRRN => "a@b.co123456-1234567"

theorem finds_behindEmail (c e : Category) :
    e.finds (behindEmail c).toList = decide (e = .email) := by
  cases c <;> cases e <;> decide +kernel

theorem finds_redact_behindEmail {c : Category} (h : c ≠ .email) :
    c.finds (Category.email.redact (behindEmail c).toList) = true := by
  cases c with
  | email => exact absurd rfl h
  | _ => decide +kernel

theorem Detector.found_behindEmail (d : Detector) (henables : d.enables .email = true) (n : Nat)
    (c : Category) : d.found n (behindEmail c) = [.email] := by
  have hfilter : (fun e => d.enables e && e.finds (behindEmail c).toList) =
      (· == Category.email) := by
    funext e
    rw [finds_behindEmail]
    by_cases he : e = .email
    · subst he
      simp [henables]
    · simp [he]
  have hnodup : (d.order n (behindEmail c)).Nodup := (d.perm n _).nodup_iff.mpr (by decide)
  rw [found, hfilter, filter_beq, count_eq_one_of_mem hnodup
    ((d.perm n _).mem_iff.mpr (Category.mem_all _))]
  rfl

theorem Detector.not_complete_behindEmail (d : Detector) (hmask : d.action = .mask)
    (hemail : d.config.looksFor .email = true) {c : Category} (hc : d.config.looksFor c = true)
    (hne : c ≠ .email) (n : Nat) : ¬ d.Complete n (behindEmail c) := by
  intro hcomplete
  obtain ⟨henabled, henables⟩ := Bool.and_eq_true_iff.mp hemail
  have hclean := hcomplete.clean c hc
  rw [d.toList_masked hmask, if_pos (show d.enabled = true from henabled),
    d.found_behindEmail henables, redactAll_cons] at hclean
  have hfinds : c.finds (redactAll [] (Category.email.redact (behindEmail c).toList)) = true :=
    finds_redact_behindEmail hne
  rw [hclean] at hfinds
  cases hfinds

/-- **Masking is complete for every text and every order exactly for the configurations that do not
look for e-mail addresses beside another category**, and always for texts without an e-mail address. -/
theorem masking_complete_iff (enabled : Bool) (categories : List String) :
    ((∀ d : Detector, d.config = ⟨enabled, .mask, categories⟩ → ∀ n text, d.Complete n text) ↔
      (DetectorConfig.looksFor ⟨enabled, .mask, categories⟩ .email = true →
        ∀ c, DetectorConfig.looksFor ⟨enabled, .mask, categories⟩ c = true → c = .email)) ∧
    ∀ d : Detector, d.config = ⟨enabled, .mask, categories⟩ → ∀ n text,
      Category.email.finds text.toList = false → d.Complete n text := by
  refine ⟨⟨fun h hemail c hc => ?_, fun h d hd n text => ?_⟩, fun d hd n text hfinds => ?_⟩
  · by_contra hne
    let d : Detector := { enabled, action := .mask, categories }
    exact d.not_complete_behindEmail rfl hemail hc hne 0 (h d rfl 0 _)
  · refine d.complete_of_not_email (congrArg DetectorConfig.action hd) n text fun hemail _ => ?_
    rw [hd] at hemail ⊢
    exact h hemail
  · refine d.complete_of_not_email (congrArg DetectorConfig.action hd) n text fun _ htrue => ?_
    rw [hfinds] at htrue
    cases htrue

/-- A detector of e-mail addresses and social security numbers masks one of each and leaves
the number. -/
theorem masking_leaves_ssn :
    let d : Detector := { action := .mask, categories := ["email", "ssn"] }
    d.config.looksFor .ssn = true ∧
      (d.masked 0 "a@b.co123-45-6789").toList = "[EMAIL_REDACTED]123-45-6789".toList ∧
      Category.ssn.finds (d.masked 0 "a@b.co123-45-6789").toList = true ∧
      ¬ d.Complete 0 "a@b.co123-45-6789" := by
  intro d
  have hmasked : (d.masked 0 "a@b.co123-45-6789").toList =
      "[EMAIL_REDACTED]123-45-6789".toList := by
    have hfound : d.found 0 "a@b.co123-45-6789" = [.email] :=
      d.found_behindEmail (by decide) 0 .ssn
    rw [d.toList_masked rfl, if_pos rfl, hfound]
    decide +kernel
  have hleft : ¬ d.Complete 0 (behindEmail .ssn) :=
    d.not_complete_behindEmail rfl (by decide) (by decide) (by decide) 0
  refine ⟨by decide, hmasked, ?_, hleft⟩
  rw [hmasked]
  decide +kernel

/-! ## The order of iteration -/

namespace Detector

variable (d : Detector)

theorem foldl_found (n : Nat) (text : String) (f : Finding) :
    (d.order n text).foldl (d.step text) f = (d.found n text).foldl (d.step text) f := by
  rw [found, foldl_filter]
  congr 1
  funext f c
  unfold step
  cases d.enables c <;> cases c.finds text.toList <;> rfl

theorem name_ne_empty (c : Category) : c.name ≠ "" := by
  cases c <;> decide

theorem foldl_firstCategory (text : String) (cs : List Category) {f : Finding}
    (hf : f.firstCategory ≠ "") :
    (cs.foldl (d.step text) f).firstCategory = f.firstCategory := by
  induction cs generalizing f with
  | nil => rfl
  | cons c cs ih =>
    have hstep : (d.step text f c).firstCategory = f.firstCategory := by
      unfold step
      split
      · rfl
      · split
        · rfl
        · rfl
    rw [foldl_cons, ih (hstep ▸ hf), hstep]

variable {n : Nat} {text : String} {d' : Detector}

theorem check_category (henabled : d.enabled = true) {c : Category} {cs : List Category}
    (hfound : d.found n text = c :: cs) : (d.check n text).category = c.name := by
  obtain ⟨henables, hfinds⟩ := d.mem_found.mp (hfound ▸ mem_cons_self : c ∈ d.found n text)
  have hstep : (d.step text { modified := text } c).firstCategory = c.name := by
    simp [step, henables, hfinds]
  have hfirst : ((d.order n text).foldl (d.step text) { modified := text }).firstCategory =
      c.name := by
    rw [d.foldl_found, hfound, foldl_cons, d.foldl_firstCategory, hstep]
    rw [hstep]
    exact name_ne_empty c
  have htriggered : (d.check n text).triggered = true := by
    rw [(d.check_eq n text).1, henabled, hfound]
    rfl
  unfold check at htriggered ⊢
  rw [henabled] at htriggered ⊢
  simp only [Bool.not_true, Bool.false_eq_true, if_false] at htriggered ⊢
  split at htriggered
  · cases htriggered
  · next hfold =>
    rw [if_neg hfold]
    exact hfirst

theorem modified_check (henabled : d.enabled = true) (hmask : d.action = .mask)
    (hfound : d.found n text ≠ []) :
    (d.check n text).modified.toList = redactAll (d.found n text) text.toList := by
  obtain ⟨htriggered, hmodified⟩ := d.check_eq n text
  refine (hmodified ?_).2 hmask
  simp [htriggered, henabled, hfound]

theorem check_congr {d : Detector} (hconfig : d.config = d'.config) {n' : Nat}
    (hfound : d.found n text = d'.found n' text) : d.check n text = d'.check n' text := by
  unfold check
  rw [d.foldl_found, d'.foldl_found, hfound]
  cases d
  cases d'
  obtain ⟨rfl, rfl, rfl⟩ := DetectorConfig.mk.inj hconfig
  rfl

theorem found_perm {d : Detector} (hconfig : d.config = d'.config) (n n' : Nat) (text : String) :
    (d.found n text).Perm (d'.found n' text) := by
  have henables : d.enables = d'.enables := by
    funext c
    rw [enables, enables, (DetectorConfig.mk.inj hconfig).2.2]
  rw [found, found, henables]
  exact ((d.perm n text).trans (d'.perm n' text).symm).filter _

theorem found_nodup (n : Nat) (text : String) : (d.found n text).Nodup := by
  have hall : Category.all.Nodup := by decide
  exact ((d.perm n text).nodup_iff.mpr hall).filter _

theorem found_eq {d : Detector} (hconfig : d.config = d'.config) {n' : Nat}
    (h : ∀ c ∈ d.found n text, ∀ e ∈ d.found n text, c = e) :
    d.found n text = d'.found n' text := by
  have hperm := found_perm hconfig n n' text
  have hnodup := d.found_nodup n text
  match hfound : d.found n text with
  | [] =>
    rw [hfound] at hperm
    exact hperm.nil_eq
  | [c] =>
    rw [hfound] at hperm
    exact singleton_perm.mp hperm
  | c :: e :: cs =>
    rw [hfound] at h hnodup
    have heq : c = e := h c (by simp) e (by simp)
    exact absurd (heq ▸ mem_cons_self) (nodup_cons.mp hnodup).1

def beginningWith (c : Category) : Detector :=
  { d with
    order := fun _ _ => c :: Category.all.erase c
    perm := fun _ _ => (perm_cons_erase (Category.mem_all c)).symm }

theorem check_beginningWith {c : Category} (hc : d.config.looksFor c = true)
    (hfinds : c.finds text.toList = true) :
    ((d.beginningWith c).check 0 text).category = c.name := by
  obtain ⟨henabled, henables⟩ := Bool.and_eq_true_iff.mp hc
  have hp : (d.enables c && c.finds text.toList) = true :=
    Bool.and_eq_true_iff.mpr ⟨henables, hfinds⟩
  exact (d.beginningWith c).check_category henabled (filter_cons_of_pos hp)

end Detector

/-- **The report of a check does not depend on the order exactly if at most one of the enabled
categories is found.** -/
theorem deterministic_iff (cfg : DetectorConfig) (text : String) :
    (∀ d d' : Detector, d.config = cfg → d'.config = cfg → ∀ n n',
      (d.check n text).triggered = (d'.check n' text).triggered ∧
      (d.check n text).modified = (d'.check n' text).modified ∧
      (d.check n text).category = (d'.check n' text).category) ↔
    ∀ c e, cfg.looksFor c = true → cfg.looksFor e = true →
      c.finds text.toList = true → e.finds text.toList = true → c = e := by
  constructor
  · intro h c e hc he hcfinds hefinds
    let d : Detector :=
      { enabled := cfg.enabled, action := cfg.action, categories := cfg.categories }
    obtain ⟨-, -, hcategory⟩ := h (d.beginningWith c) (d.beginningWith e) rfl rfl 0 0
    rw [d.check_beginningWith hc hcfinds, d.check_beginningWith he hefinds] at hcategory
    cases c <;> cases e <;> first | rfl | exact absurd hcategory (by decide)
  · intro h d d' hd hd' n n'
    have hconfig : d.config = d'.config := hd.trans hd'.symm
    have hcheck : d.check n text = d'.check n' text := by
      cases henabled : d.enabled with
      | false =>
        have henabled' : d'.enabled = false := (DetectorConfig.mk.inj hconfig).1 ▸ henabled
        simp [Detector.check, henabled, henabled']
      | true =>
        refine Detector.check_congr hconfig (Detector.found_eq hconfig fun c hc e he => ?_)
        have hlooks : ∀ {c}, c ∈ d.found n text → cfg.looksFor c = true := fun hc =>
          hd ▸ Bool.and_eq_true_iff.mpr ⟨henabled, (d.mem_found.mp hc).1⟩
        exact h c e (hlooks hc) (hlooks he) (d.mem_found.mp hc).2 (d.mem_found.mp he).2
    rw [hcheck]
    exact ⟨rfl, rfl, rfl⟩

/-- An e-mail address and an address of a computer: report and text depend on which comes first. -/
theorem order_matters :
    let d : Detector := { action := .mask }
    ((d.beginningWith .email).check 0 "1.2.3.4@b.co").category = "email" ∧
      ((d.beginningWith .ipAddress).check 0 "1.2.3.4@b.co").category = "ip_address" ∧
      ((d.beginningWith .email).check 0 "1.2.3.4@b.co").modified.toList =
        "[EMAIL_REDACTED]".toList ∧
      ((d.beginningWith .ipAddress).check 0 "1.2.3.4@b.co").modified.toList =
        "[IP_ADDRESS_REDACTED]@b.co".toList := by
  intro d
  have hemail : (d.beginningWith .email).found 0 "1.2.3.4@b.co" = [.email, .ipAddress] := by
    decide +kernel
  have hip : (d.beginningWith .ipAddress).found 0 "1.2.3.4@b.co" = [.ipAddress, .email] := by
    decide +kernel
  refine ⟨Detector.check_category _ rfl hemail, Detector.check_category _ rfl hip, ?_, ?_⟩
  · rw [Detector.modified_check _ rfl rfl (by rw [hemail]; decide), hemail]
    decide +kernel
  · rw [Detector.modified_check _ rfl rfl (by rw [hip]; decide), hip]
    decide +kernel

end LlmRouter.Guardrail
