import LlmRouter.Gateway.Codec
import LlmRouter.Guardrail.Pipeline
import LlmRouter.Lib.Regex

/-!
# LlmRouter — the guards that a pipeline is built of

The guards of `pii`, `content`, `keyword` and `llmjudge` on the output side. The detector of
personal data replaces what it finds by a tag. The others say that they found something and leave
`Modified` empty.
-/

namespace LlmRouter.Guardrail

open Gateway Lib Lib.Json

/-! ## Personal data -/

def redacted (tag : List Char) : List Char := '[' :: (tag ++ [']'])

inductive Category where
  | creditCard
  | ssn
  | email
  | phoneUS
  | ipAddress
  | koreanRRN
  deriving DecidableEq, Repr

namespace Category

def all : List Category := [creditCard, ssn, email, phoneUS, ipAddress, koreanRRN]

def name : Category → String
  | creditCard => "credit_card"
  | ssn => "ssn"
  | email => "email"
  | phoneUS => "phone_us"
  | ipAddress => "ip_address"
  | koreanRRN => "korean_rrn"

/-- `\s`. -/
def isSpace (c : Char) : Bool :=
  c == '\t' || c == '\n' || c == Char.ofNat 12 || c == '\r' || c == ' '

/-- `\d`. -/
def digit : Regex := .cls Char.isDigit

/-- `[-\s]`. -/
def dashOrSpace : Regex := .cls fun c => c == '-' || isSpace c

/-- `[-.\s]`. -/
def dashDotOrSpace : Regex := .cls fun c => c == '-' || c == '.' || isSpace c

/-- `\d{1,3}`. -/
def upTo3Digits : Regex := .seq digit (.opt (.seq digit (.opt digit)))

/-- `[a-zA-Z0-9._%+\-]`. -/
def isLocalChar (c : Char) : Bool :=
  c.isAlphanum || c == '.' || c == '_' || c == '%' || c == '+' || c == '-'

/-- `[a-zA-Z0-9.\-]`. -/
def isDomainChar (c : Char) : Bool := c.isAlphanum || c == '.' || c == '-'

/-- `pii.patterns`. -/
def pattern : Category → Regex
  | creditCard => .seqs [.boundary, .times (.seq (.times digit 4) (.opt dashOrSpace)) 3,
      .times digit 4, .boundary]
  | ssn => .seqs [.boundary, .times digit 3, .lit '-', .times digit 2, .lit '-', .times digit 4,
      .boundary]
  | email => .seqs [.many1 isLocalChar, .lit '@', .many1 isDomainChar, .lit '.',
      .cls Char.isAlpha, .cls Char.isAlpha, .many Char.isAlpha]
  | phoneUS => .seqs [.boundary, .opt (.seqs [.lit '+', .lit '1', .opt dashDotOrSpace]),
      .opt (.lit '('), .times digit 3, .opt (.lit ')'), .opt dashDotOrSpace, .times digit 3,
      .opt dashDotOrSpace, .times digit 4, .boundary]
  | ipAddress => .seqs [.boundary, .times (.seq upTo3Digits (.lit '.')) 3, upTo3Digits, .boundary]
  | koreanRRN => .seqs [.boundary, .times digit 6, .lit '-', .cls fun c => '1' ≤ c && c ≤ '4',
      .times digit 6, .boundary]

def tag (c : Category) : List Char := c.name.toList.map Char.toUpper ++ "_REDACTED".toList

/-- `re.MatchString`. -/
def finds (c : Category) (text : List Char) : Bool := c.pattern.matchString text

/-- `re.ReplaceAllStringFunc` with `[%s_REDACTED]`. -/
def redact (c : Category) (text : List Char) : List Char :=
  c.pattern.replaceAll (redacted c.tag) text

theorem mem_all (c : Category) : c ∈ all := by
  cases c <;> decide

end Category

/-- `pii.Detector`, with the categories of `NewDetector`, iterated in any order. -/
structure Detector where
  enabled : Bool := true
  action : Action
  categories : List String := []
  order : (n : Nat) → (text : String) → List Category := fun _ _ => Category.all
  perm : ∀ n text, (order n text).Perm Category.all := by intro _ _; exact .refl _

/-- The variables of the loop of `Detector.Check`. -/
structure Finding where
  modified : String
  triggered : Bool := false
  firstCategory : String := ""

namespace Detector

variable (d : Detector)

def enables (c : Category) : Bool := d.categories.isEmpty || d.categories.contains c.name

def step (text : String) (f : Finding) (c : Category) : Finding :=
  if !d.enables c then f
  else if !c.finds text.toList then f
  else
    { modified :=
        if d.action = .mask then String.ofList (c.redact f.modified.toList) else f.modified
      triggered := true
      firstCategory := if f.firstCategory = "" then c.name else f.firstCategory }

def check (n : Nat) (text : String) : Result :=
  if !d.enabled then {}
  else
    let f := (d.order n text).foldl (d.step text) { modified := text }
    if !f.triggered then {}
    else
      { triggered := true, action := d.action, modified := f.modified, category := f.firstCategory,
        guardrail := "pii" }

def guard : Guard where
  name := "pii"
  check n text _ := .ok (d.check n text)

def found (n : Nat) (text : String) : List Category :=
  (d.order n text).filter fun c => d.enables c && c.finds text.toList

def redactAll (cs : List Category) (text : List Char) : List Char :=
  cs.foldl (fun t c => c.redact t) text

theorem redactAll_cons (c : Category) (cs : List Category) (text : List Char) :
    redactAll (c :: cs) text = redactAll cs (c.redact text) :=
  List.foldl_cons ..

theorem mem_found {n : Nat} {text : String} {c : Category} :
    c ∈ d.found n text ↔ d.enables c = true ∧ c.finds text.toList = true := by
  rw [found, List.mem_filter, (d.perm n text).mem_iff, Bool.and_eq_true]
  exact and_iff_right (Category.mem_all c)

theorem foldl_step (text : String) (cs : List Category) (f : Finding) :
    (cs.foldl (d.step text) f).triggered =
        (f.triggered || cs.any fun c => d.enables c && c.finds text.toList) ∧
      (d.action = .mask → (cs.foldl (d.step text) f).modified.toList =
        redactAll (cs.filter fun c => d.enables c && c.finds text.toList) f.modified.toList) := by
  induction cs generalizing f with
  | nil => exact ⟨(Bool.or_false _).symm, fun _ => rfl⟩
  | cons c cs ih =>
    rw [List.foldl_cons, List.any_cons, List.filter_cons]
    obtain ⟨htriggered, hmodified⟩ := ih (d.step text f c)
    cases hc : d.enables c && c.finds text.toList with
    | false =>
      have hstep : d.step text f c = f := by
        unfold step
        rcases Bool.and_eq_false_iff.mp hc with hc | hc <;> simp [hc]
      rw [hstep] at htriggered hmodified ⊢
      exact ⟨htriggered, hmodified⟩
    | true =>
      obtain ⟨henables, hfinds⟩ := Bool.and_eq_true_iff.mp hc
      have htrue : (d.step text f c).triggered = true := by simp [step, henables, hfinds]
      refine ⟨by rw [htriggered, htrue]; simp, fun hmask => ?_⟩
      have hstep : (d.step text f c).modified.toList = c.redact f.modified.toList := by
        simp [step, henables, hfinds, hmask]
      rw [hmodified hmask, hstep, if_pos rfl, redactAll_cons]

/-- What a check reports and masks, whatever the order of the categories. -/
theorem check_eq (n : Nat) (text : String) :
    ((d.check n text).triggered = (d.enabled && !(d.found n text).isEmpty)) ∧
      ((d.check n text).triggered = true → (d.check n text).action = d.action ∧
        (d.action = .mask →
          (d.check n text).modified.toList = redactAll (d.found n text) text.toList)) := by
  obtain ⟨htriggered, hmodified⟩ := d.foldl_step text (d.order n text) { modified := text }
  have hany : ((d.order n text).any fun c => d.enables c && c.finds text.toList) =
      !(d.found n text).isEmpty := by
    rw [found, Bool.eq_iff_iff]
    simp
  rw [Bool.false_or, hany] at htriggered
  cases henabled : d.enabled with
  | false => exact ⟨by simp [check, henabled], fun h => by simp [check, henabled] at h⟩
  | true =>
    cases hfound : !(d.found n text).isEmpty with
    | false =>
      rw [hfound] at htriggered
      exact ⟨by simp [check, henabled, htriggered],
        fun h => by simp [check, henabled, htriggered] at h⟩
    | true =>
      rw [hfound] at htriggered
      refine ⟨by simp [check, henabled, htriggered], fun _ => ⟨?_, fun hmask => ?_⟩⟩
      · simp [check, henabled, htriggered]
      · have hcheck : (d.check n text).modified =
            ((d.order n text).foldl (d.step text) { modified := text }).modified := by
          simp [check, henabled, htriggered]
        rw [hcheck]
        exact hmodified hmask

end Detector

/-! ## Filters -/

def filterResult (guardrail : String) (action : Action) : (category : Option String) → Result
  | none => {}
  | some category =>
    { triggered := true, action := action, category := category, guardrail := guardrail }

/-- The keys of `content.categoryPatterns`. -/
inductive Topic where
  | hate
  | violence
  | sexual
  deriving DecidableEq, Repr

namespace Topic

def all : List Topic := [hate, violence, sexual]

def name : Topic → String
  | hate => "hate"
  | violence => "violence"
  | sexual => "sexual"

/-- A word, in any case (`(?i)`). -/
def word (s : String) : Regex :=
  .seqs (s.toList.map fun x => .cls fun c => foldChar c == foldChar x)

def phrase : List String → Regex
  | [] => .eps
  | [s] => word s
  | s :: ss => .seqs [word s, .many1 Category.isSpace, phrase ss]

/-- `content.categoryPatterns`. -/
def pattern : Topic → Regex
  | hate => .seqs [.boundary, .alt (phrase ["hate", "speech"]) (.alt (phrase ["racial", "slur"])
      (.alt (phrase ["ethnic", "slur"]) (word "bigot"))), .boundary]
  | violence => .seqs [.boundary, .alt (.seqs [phrase ["how", "to"], .many1 Category.isSpace,
      .alt (word "kill") (.alt (word "murder") (.alt (word "bomb") (word "shoot")))])
      (.alt (phrase ["build", "a", "bomb"]) (phrase ["make", "a", "weapon"])), .boundary]
  | sexual => .seqs [.boundary, .alt (phrase ["explicit", "sexual"]) (.alt (word "pornography")
      (phrase ["child", "sexual"])), .boundary]

end Topic

/-- `content.Filter`; the map of patterns is iterated in any order. -/
structure ContentFilter where
  enabled : Bool := true
  action : Action
  categories : List String := []
  order : (n : Nat) → (text : String) → List Topic := fun _ _ => Topic.all
  perm : ∀ n text, (order n text).Perm Topic.all := by intro _ _; exact .refl _

def ContentFilter.find (f : ContentFilter) (n : Nat) (text : String) : Option String :=
  if !f.enabled then none
  else
    ((f.order n text).find? fun c =>
      f.categories.contains c.name && c.pattern.matchString text.toList).map Topic.name

structure KeywordFilter where
  enabled : Bool := true
  action : Action
  keywords : List String
  toLower : String → String

def KeywordFilter.find (f : KeywordFilter) (text : String) : Option String :=
  if !f.enabled || f.keywords.length == 0 then none
  else
    (f.keywords.map f.toLower).find? fun kw => decide (kw.toList <:+: (f.toLower text).toList)

/-- `llmjudge.safetyResult`; nothing reads the reason. -/
structure SafetyResult where
  safe : Bool
  category : String := ""

def SafetyResult.ofFields (fs : List (String × Json)) : Option SafetyResult := do
  let safe ← field intoBool false "safe" fs
  let category ← field intoString "" "category" fs
  let _ ← field intoString "" "reason" fs
  return { safe := safe, category := category }

/-- `llmjudge.ContentFilterGuard`; `complete` is what the judge's model answers to the
`n`-th check. -/
structure ContentFilterGuard where
  action : Action
  complete : (n : Nat) → (text : String) → Except String String

/-- `Judge.classify`. An answer that is not JSON counts as safe. -/
def ContentFilterGuard.classify (g : ContentFilterGuard) (n : Nat) (text : String) :
    Except String SafetyResult :=
  (g.complete n text).map fun raw =>
    ((parse raw.toList).bind (Encoding.decodeStruct SafetyResult.ofFields)).getD { safe := true }

def ContentFilterGuard.find (g : ContentFilterGuard) (n : Nat) (text : String) : Option String :=
  match g.classify n text with
  | .error _ => none
  | .ok result =>
    if result.safe then none
    else some (if result.category = "" then "other" else result.category)

inductive OutputGuard where
  | pii (d : Detector)
  | content (f : ContentFilter)
  | judge (g : ContentFilterGuard)
  | keyword (f : KeywordFilter)

namespace OutputGuard

def guard : OutputGuard → Guard
  | pii d => d.guard
  | content f =>
    { name := "content_filter"
      check := fun n text _ => .ok (filterResult "content_filter" f.action (f.find n text)) }
  | judge g =>
    { name := "content_filter"
      check := fun n text _ => .ok (filterResult "content_filter" g.action (g.find n text)) }
  | keyword f =>
    { name := "custom_keywords"
      check := fun _ text _ => .ok (filterResult "custom_keywords" f.action (f.find text)) }

end OutputGuard

theorem run_cons {g : Guard} {guards : List Guard} {n : Nat} {dir : Direction} {text : String}
    {result : Result} (hcheck : g.check n text dir = .ok result)
    (hpass : (run n dir text (g :: guards)).2 = none) :
    run n dir text (g :: guards) =
      run n dir (if result.triggered ∧ result.action = .mask then result.modified else text)
        guards := by
  rw [run, hcheck] at hpass ⊢
  cases htriggered : result.triggered with
  | false => simp [htriggered]
  | true =>
    cases haction : result.action with
    | block => simp [htriggered, haction] at hpass
    | _ => simp [htriggered, haction]

end LlmRouter.Guardrail
