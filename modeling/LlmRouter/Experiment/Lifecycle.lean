import LlmRouter.Experiment.Middleware

/-!
# LlmRouter — the life of an experiment

`UpdateStatus` writes whatever status it is given, and the winner or its absence with it.
`lifecycle_iff` says, for every interleaving, when the documented life is kept all the same.
-/

namespace LlmRouter.Experiments

open Lib

abbrev Running := Pool Shared Point

def Final (x : String) (s : Shared) : Prop :=
  ∀ w, s.promoted x = some w →
    ∃ e, s.row x = some e ∧ e.status = .completed ∧ e.winner = some w

/-- A `Start` leaves an experiment alone that is neither draft nor paused. -/
def StartsOnly (x : String) (t : Point) (s s' : Shared) : Prop :=
  t.action = some (.start, x) →
    ∀ e, s.row x = some e → e.status ≠ .draft → e.status ≠ .paused → s'.row x = some e

def Sound (x : String) (p : Running) (m : Move Call Input) : Prop :=
  ∀ p', p.step experimentCode m = some p' → Final x p'.shared ∧
    match m with
    | .start _ => True
    | .advance i _ => ∀ t, p.threads[i]? = some t → StartsOnly x t p.shared p'.shared

def Action.Allowed (status : Status) : Action → Prop
  | .start => status = .draft ∨ status = .paused ∨ status = .running
  | .pause | .stop => status ≠ .completed
  | .promote _ => True

instance (status : Status) (a : Action) : Decidable (a.Allowed status) := by
  unfold Action.Allowed
  split <;> infer_instance

/-- An action that an operation writes may find the status that is there. -/
def Lawful (x : String) (s : Shared) (inp : Input) (t : Point) : Prop :=
  inp.fault = false → ∀ a, t.action = some (a, x) → ∀ e, s.row x = some e → a.Allowed e.status

theorem lawful_iff (x : String) (s : Shared) (inp : Input) (t : Point) :
    Lawful x s inp t ↔ (inp.fault = false → ∀ r ∈ t.action, r.2 = x →
      ∀ e ∈ s.row x, r.1.Allowed e.status) := by
  refine imp_congr_right fun _ => ⟨?_, fun h a hact e he => h (a, x) hact rfl e he⟩
  rintro h ⟨a, id⟩ hact rfl e he
  exact h a hact e he

instance (x : String) (s : Shared) (inp : Input) (t : Point) : Decidable (Lawful x s inp t) :=
  decidable_of_iff _ (lawful_iff x s inp t).symm

/-- The row is completed with the winner of the last promotion, or neither completed nor with a
winner. -/
structure Agrees (x : String) (s : Shared) : Prop where
  row : ∃ e, s.row x = some e ∧
    ((s.promoted x = none ∧ e.status ≠ .completed ∧ e.winner = none) ∨
      ∃ w, s.promoted x = some w ∧ e.status = .completed ∧ e.winner = some w)

variable {x : String} {s : Shared}

theorem Agrees.final (h : Agrees x s) : Final x s := by
  intro w hw
  obtain ⟨e, he, ⟨hnone, -⟩ | ⟨w', hw', hstatus, hwinner⟩⟩ := h.row
  · rw [hnone] at hw
    cases hw
  · rw [hw] at hw'
    exact ⟨e, he, hstatus, hwinner.trans hw'.symm⟩

theorem Agrees.congr {s' : Shared} (h : Agrees x s) (hrow : s'.row x = s.row x)
    (hpromoted : s'.promoted x = s.promoted x) : Agrees x s' := by
  obtain ⟨hrow'⟩ := h
  rw [← hrow, ← hpromoted] at hrow'
  exact ⟨hrow'⟩

/-! ## One write -/

section Write

variable {x : String} {s : Shared}

theorem wrote_other {id : String} (hne : id ≠ x) (a : Action) (w : Option String) :
    (s.wrote a id w).row x = s.row x ∧ (s.wrote a id w).promoted x = s.promoted x := by
  constructor
  · rw [row_wrote]
    cases he : s.row x with
    | none => rfl
    | some e =>
      have hid : e.id ≠ id := (row_id he).trans_ne hne.symm
      simp [Experiment.updated, hid]
  · cases a with
    | promote winner => exact Function.update_of_ne (Ne.symm hne) _ _
    | start | pause | stop => rfl

theorem wrote_row {e : Experiment} (he : s.row x = some e) (a : Action) (w : Option String) :
    (s.wrote a x w).row x = some { e with status := a.target.1, winner := w } := by
  rw [row_wrote, he, Option.map_some, Experiment.updated, if_pos (row_id he)]

variable {w : Option String}

theorem written_promote {winner : String} (h : (Action.promote winner).written = some w) :
    ∃ v, w = some v ∧ (storedWinner winner).bind (fun w => w) = some v := by
  by_cases hempty : winner = ""
  · subst hempty
    cases h
  · have hne : Action.promote winner ≠ .promote "" := fun heq => hempty (Action.promote.inj heq)
    rw [Action.written, if_neg hne] at h
    have h : storedWinner winner = some w := h
    simp only [storedWinner, if_neg hempty] at h
    obtain ⟨v, hv, rfl⟩ := Option.map_eq_some_iff.mp h
    exact ⟨v, rfl, by simp [storedWinner, hempty, hv]⟩

theorem written_other {a : Action} (h : a.written = some w) (ha : ∀ winner, a ≠ .promote winner) :
    w = none ∧ a.target.1 ≠ .completed := by
  cases a with
  | promote winner => exact absurd rfl (ha winner)
  | start | pause | stop => exact ⟨(Option.some.inj h).symm, by decide⟩

theorem Agrees.wrote_promote (h : Agrees x s) {winner : String}
    (hw : (Action.promote winner).written = some w) : Agrees x (s.wrote (.promote winner) x w) := by
  obtain ⟨e, he, -⟩ := h.row
  obtain ⟨v, rfl, hv⟩ := written_promote hw
  refine ⟨⟨_, wrote_row he _ _, .inr ⟨v, ?_, rfl, rfl⟩⟩⟩
  show Function.update s.promoted x _ x = some v
  rw [Function.update_self, hv]

theorem Agrees.wrote_other_iff (h : Agrees x s) {a : Action} (hw : a.written = some w)
    (ha : ∀ winner, a ≠ .promote winner) {e : Experiment} (he : s.row x = some e) :
    (e.status ≠ .completed → Agrees x (s.wrote a x w)) ∧
      (Final x (s.wrote a x w) → e.status ≠ .completed) := by
  obtain ⟨rfl, htarget⟩ := written_other hw ha
  have hrow := wrote_row he a none
  have hpromoted : (s.wrote a x none).promoted x = s.promoted x := by
    cases a with
    | promote winner => exact absurd rfl (ha winner)
    | start | pause | stop => rfl
  obtain ⟨e', he', hcases⟩ := h.row
  obtain rfl : e' = e := Option.some.inj (he'.symm.trans he)
  constructor
  · intro hstatus
    rcases hcases with ⟨hnone, -, -⟩ | ⟨w, -, hcompleted, -⟩
    · exact ⟨⟨_, hrow, .inl ⟨hpromoted.trans hnone, htarget, rfl⟩⟩⟩
    · exact absurd hcompleted hstatus
  · intro hfinal hcompleted
    rcases hcases with ⟨-, hstatus, -⟩ | ⟨w, hw, -, -⟩
    · exact hstatus hcompleted
    · obtain ⟨e'', he'', hstatus, -⟩ := hfinal w (hpromoted.trans hw)
      rw [hrow, Option.some.injEq] at he''
      subst he''
      exact htarget hstatus

end Write

/-! ## One operation, one move -/

section Moves

variable {x : String} {s s' : Shared} {inp : Input} {t t' : Point}

theorem allowed_of_not_written {a : Action} (h : a.written = none) (status : Status) :
    a.Allowed status := by
  cases a with
  | promote winner => trivial
  | start | pause | stop => cases h

theorem startsOnly_wrote_iff (h : Agrees x s) {e : Experiment} (he : s.row x = some e) :
    StartsOnly x (.admin .start x) s (s.wrote .start x none) ↔ Action.start.Allowed e.status := by
  have hrow := wrote_row he .start none
  constructor
  · intro hstarts
    by_contra hnot
    simp only [Action.Allowed, not_or] at hnot
    have hsame := hstarts rfl e he hnot.1 hnot.2.1
    rw [hrow, Option.some.injEq] at hsame
    exact hnot.2.2 (congrArg Experiment.status hsame).symm
  · intro hallowed _ e' he' hdraft hpaused
    obtain rfl : e = e' := Option.some.inj (he.symm.trans he')
    have hrunning : e.status = .running :=
      (hallowed.resolve_left hdraft).resolve_left hpaused
    obtain ⟨e', he', ⟨-, -, hwinner⟩ | ⟨w, -, hcompleted, -⟩⟩ := h.row
    · obtain rfl : e = e' := Option.some.inj (he.symm.trans he')
      rw [hrow, show Action.start.target.1 = e.status from hrunning.symm, ← hwinner]
    · obtain rfl : e = e' := Option.some.inj (he.symm.trans he')
      rw [hrunning] at hcompleted
      cases hcompleted

/-- **One operation keeps the documented life exactly when it is lawful.** -/
theorem Agrees.op (h : Agrees x s) (hnext : next s inp t = some (s', t')) :
    (Final x s' ∧ StartsOnly x t s s' ↔ Lawful x s inp t) ∧
      (Lawful x s inp t → Agrees x s') := by
  rcases next_cases hnext with ⟨a, id, w, hact, hfault, hw, rfl⟩ | ⟨hidle, htable, hpromoted⟩
  · by_cases hid : id = x
    · subst hid
      obtain ⟨e, he, -⟩ := h.row
      have hlawful : Lawful id s inp t ↔ a.Allowed e.status := by
        constructor
        · intro hl
          exact hl hfault a hact e he
        · intro hallowed _ a' hact' e' he'
          rw [hact, Option.some.injEq, Prod.mk.injEq] at hact'
          obtain rfl := hact'.1
          rwa [← Option.some.inj (he.symm.trans he')]
      rw [hlawful]
      -- which other action is written does not matter for `Start`
      have hstart : a ≠ .start → StartsOnly id t s (s.wrote a id w) := by
        intro hne hact'
        rw [hact, Option.some.injEq, Prod.mk.injEq] at hact'
        exact absurd hact'.1 hne
      cases a with
      | promote winner =>
        have hagrees := h.wrote_promote hw
        exact ⟨iff_of_true ⟨hagrees.final, hstart (by simp)⟩ trivial, fun _ => hagrees⟩
      | pause | stop =>
        obtain ⟨hkeep, honly⟩ := h.wrote_other_iff hw (by simp) he
        refine ⟨⟨fun hsound => honly hsound.1, fun hallowed => ?_⟩, hkeep⟩
        exact ⟨(hkeep hallowed).final, hstart (by decide)⟩
      | start =>
        obtain ⟨hkeep, -⟩ := h.wrote_other_iff hw (by simp) he
        obtain rfl : none = w := Option.some.inj hw
        have hstarts : StartsOnly id t s (s.wrote .start id none) ↔
            Action.start.Allowed e.status := by
          rw [← startsOnly_wrote_iff h he]
          exact ⟨fun hs _ => hs hact, fun hs _ => hs rfl⟩
        have hnot : Action.start.Allowed e.status → e.status ≠ .completed := by
          rintro (hs | hs | hs) <;> rw [hs] <;> decide
        refine ⟨⟨fun hsound => hstarts.mp hsound.2, fun hallowed => ?_⟩,
          fun hallowed => hkeep (hnot hallowed)⟩
        exact ⟨(hkeep (hnot hallowed)).final, hstarts.mpr hallowed⟩
    · -- the write is to another experiment
      obtain ⟨hrow, hpromoted⟩ := wrote_other (s := s) hid a w
      have hagrees := h.congr hrow hpromoted
      refine ⟨iff_of_true ⟨hagrees.final, fun hact' => ?_⟩ fun _ a' hact' => ?_, fun _ => hagrees⟩
      · rw [hact, Option.some.injEq, Prod.mk.injEq] at hact'
        exact absurd hact'.2 hid
      · rw [hact, Option.some.injEq, Prod.mk.injEq] at hact'
        exact absurd hact'.2 hid
  · have hrow : s'.row x = s.row x := by rw [Shared.row, htable, ← Shared.row]
    have hagrees := h.congr hrow (congrFun hpromoted x)
    refine ⟨iff_of_true ⟨hagrees.final, fun _ e he _ _ => hrow.trans he⟩ ?_, fun _ => hagrees⟩
    intro hfault a hact e he
    rcases hidle a x hact with hf | hnone
    · rw [hfault] at hf
      cases hf
    · exact allowed_of_not_written hnone e.status

/-- **One move.** -/
theorem sound_iff {p : Running} (h : Agrees x p.shared) (m : Move Call Input) :
    Sound x p m ↔ p.Ok (Lawful x) m := by
  cases m with
  | start c =>
    refine iff_of_true (fun p' hp' => ⟨?_, trivial⟩) trivial
    obtain rfl : _ = p' := Option.some.inj hp'
    exact h.final
  | advance i inp =>
    constructor
    · intro hsound t ht
      cases hnext : next p.shared inp t with
      | none => exact fun _ a hact => absurd hnext (next_ne_none hact _ _)
      | some r =>
        have hstep : p.step experimentCode (.advance i inp) = some ⟨r.1, p.threads.set i r.2⟩ := by
          simp [Pool.step, ht, experimentCode, hnext]
        obtain ⟨hfinal, hstarts⟩ := hsound _ hstep
        exact (h.op hnext).1.mp ⟨hfinal, hstarts t ht⟩
    · intro hok p' hp'
      obtain ⟨t, s', t', ht, hnext, rfl⟩ := Pool.step_advance hp'
      obtain ⟨hfinal, hstarts⟩ := (h.op hnext).1.mpr (hok t ht)
      refine ⟨hfinal, fun u hu => ?_⟩
      obtain rfl : t = u := Option.some.inj (ht.symm.trans hu)
      exact hstarts

end Moves

/-! ## The law -/

/-- A run stays sound iff every write of it finds a status it may find. -/
theorem sound_run_iff {p : Running} (h : Agrees x p.shared) (ms : List (Move Call Input)) :
    AlongFrom (Pool.step experimentCode) (Sound x) p ms ↔
      AlongFrom (Pool.step experimentCode) (Pool.Ok (Lawful x)) p ms := by
  refine alongFrom_iff (P := fun p : Running => Agrees x p.shared)
    (fun p m hp => sound_iff hp m) (fun p m p' hp hok hstep => ?_) h ms
  cases m with
  | start c =>
    obtain rfl : _ = p' := Option.some.inj hstep
    exact hp
  | advance i inp =>
    obtain ⟨t, s', t', ht, hnext, rfl⟩ := Pool.step_advance hstep
    exact (hp.op hnext).2 (hok t ht)

/-- An experiment that was not promoted yet, whatever the middleware's list says. -/
structure Unpromoted (x : String) (s : Shared) : Prop where
  row : ∃ e, s.row x = some e ∧ e.status ≠ .completed ∧ e.winner = none
  promoted : s.promoted x = none

theorem Unpromoted.agrees (h : Unpromoted x s) : Agrees x s := by
  obtain ⟨e, he, hstatus, hwinner⟩ := h.row
  exact ⟨⟨e, he, .inl ⟨h.promoted, hstatus, hwinner⟩⟩⟩

/-- **The life of an experiment.** In every interleaving, a `Start` takes effect only on a draft or
paused experiment and a promotion is final, iff every write of a `Start` finds it draft, paused or
running, and every write of a `Pause`, a `Stop` or an automatic stop finds it not completed. -/
theorem lifecycle_iff {x : String} {s : Shared} (h : Unpromoted x s)
    (ms : List (Move Call Input)) :
    AlongFrom (Pool.step experimentCode) (Sound x) (Pool.init s) ms ↔
      AlongFrom (Pool.step experimentCode) (Pool.Ok (Lawful x)) (Pool.init s) ms :=
  sound_run_iff h.agrees ms

def draft : Experiment where
  id := "exp"
  status := .draft
  trafficSplit := [⟨"control", 50⟩, ⟨"treatment", 50⟩]
  sampleRate := 1
  startAt := none
  endAt := none
  winner := none

def oneDraft : Shared where
  table := [draft]
  results := []
  tests := []
  promoted := fun _ => none

theorem oneDraft_unpromoted : Unpromoted "exp" oneDraft :=
  ⟨⟨draft, by decide +kernel, by decide, rfl⟩, rfl⟩

def fine : Input where
  fault := false
  now := 0
  requestID := ""
  error := false

def request (i : Nat) (a : Action) : List (Move Call Input) :=
  [.start (.admin a "exp"), .advance i fine, .advance i fine, .advance i fine]

theorem lifecycle_to_promotion :
    AlongFrom (Pool.step experimentCode) (Sound "exp") (Pool.init oneDraft)
      (request 0 .start ++ request 1 .pause ++ request 2 .start ++
        request 3 (.promote "treatment")) := by
  refine (lifecycle_iff oneDraft_unpromoted _).mpr ?_
  decide +kernel

theorem pause_reopens_promoted :
    ((runFrom (Pool.step experimentCode) (Pool.init oneDraft)
      (request 0 .start ++ request 1 (.promote "treatment") ++ request 2 .pause)).bind
        fun p => (p.shared.row "exp").map fun e => (e.status, e.winner)) =
      some (.paused, none) ∧
    ¬ AlongFrom (Pool.step experimentCode) (Sound "exp") (Pool.init oneDraft)
      (request 0 .start ++ request 1 (.promote "treatment") ++ request 2 .pause) := by
  rw [sound_run_iff oneDraft_unpromoted.agrees]
  decide +kernel

-- a stopped experiment starts again
example : ((runFrom (Pool.step experimentCode) (Pool.init oneDraft)
    (request 0 .stop ++ request 1 .start)).bind
      fun p => (p.shared.row "exp").map Experiment.status) = some .running := by
  decide +kernel

end LlmRouter.Experiments
