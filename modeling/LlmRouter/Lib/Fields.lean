import Mathlib.Data.List.Basic

/-!
# The words of a text

`fields` cuts a text at its white space, whatever it is and however much of it there is
between two words. Joined with one separator the words make the text again exactly if every
white space of the text is that separator, between two characters that are none
(`joined_eq_iff`).
-/

namespace LlmRouter.Lib.Text

open List

section Fields

variable {α : Type*} (space : α → Bool) (sep : α)

def fields (s : List α) : List (List α) := (s.splitOnP space).filter fun w => !w.isEmpty

def joined (s : List α) : List α := [sep].intercalate (fields space s)

/-- Every white space is the separator, and stands between two characters that are none. -/
def SingleSpaced (s : List α) : Prop :=
  ∀ a c b, s = a ++ c :: b → space c = true → c = sep ∧
    (∃ a' x, a = a' ++ [x] ∧ space x = false) ∧ ∃ y b', b = y :: b' ∧ space y = false

variable {sep}

theorem exists_first (s : List α) :
    (∀ c ∈ s, space c = false) ∨
      ∃ a c b, s = a ++ c :: b ∧ (∀ x ∈ a, space x = false) ∧ space c = true := by
  induction s with
  | nil => exact .inl (by simp)
  | cons x s ih =>
    cases hx : space x with
    | true => exact .inr ⟨[], x, s, rfl, by simp, hx⟩
    | false =>
      rcases ih with hall | ⟨a, c, b, rfl, ha, hc⟩
      · exact .inl (forall_mem_cons.mpr ⟨hx, hall⟩)
      · exact .inr ⟨x :: a, c, b, rfl, forall_mem_cons.mpr ⟨hx, ha⟩, hc⟩

variable {space}

variable {s a b : List α} {c : α}

theorem fields_word (h : ∀ c ∈ s, space c = false) (hne : s ≠ []) : fields space s = [s] := by
  rw [fields, splitOnP_eq_singleton h]
  simp [hne]

@[simp] theorem fields_nil : fields space [] = [] := by
  rw [fields, splitOnP_nil]
  rfl

theorem fields_append_cons (a b : List α) (hc : space c = true) :
    fields space (a ++ c :: b) = fields space a ++ fields space b := by
  rw [fields, splitOnP_append_cons a b hc, filter_append]
  rfl

theorem append_cons_cases {a' b' : List α} {c' : α} (ha : ∀ x ∈ a, space x = false)
    (hc' : space c' = true) (h : a ++ c :: b = a' ++ c' :: b') :
    (a' = a ∧ c' = c ∧ b' = b) ∨ ∃ t, a' = a ++ c :: t ∧ b = t ++ c' :: b' := by
  rcases append_eq_append_iff.mp h with ⟨t, rfl, ht⟩ | ⟨t, rfl, ht⟩
  · cases t with
    | nil =>
      obtain ⟨rfl, rfl⟩ := cons.inj ht
      exact .inl ⟨by simp, rfl, rfl⟩
    | cons y t =>
      obtain ⟨rfl, rfl⟩ := cons.inj ht
      exact .inr ⟨t, rfl, rfl⟩
  · cases t with
    | nil =>
      obtain ⟨rfl, rfl⟩ := cons.inj ht
      exact .inl ⟨by simp, rfl, rfl⟩
    | cons y t =>
      obtain ⟨rfl, -⟩ := cons.inj ht
      rw [ha c' (by simp)] at hc'
      cases hc'

theorem singleSpaced_word (h : ∀ c ∈ s, space c = false) : SingleSpaced space sep s := by
  rintro a c b rfl hc
  rw [h c (by simp)] at hc
  cases hc

theorem singleSpaced_append_cons (ha : ∀ x ∈ a, space x = false) (hc : space c = true) :
    SingleSpaced space sep (a ++ c :: b) ↔
      a ≠ [] ∧ c = sep ∧ b ≠ [] ∧ SingleSpaced space sep b := by
  constructor
  · intro h
    obtain ⟨hsep, ⟨a', x, hax, -⟩, y, b', hby, -⟩ := h a c b rfl hc
    refine ⟨by simp [hax], hsep, by simp [hby], ?_⟩
    rintro a₂ c₂ b₂ rfl hc₂
    obtain ⟨hsep₂, ⟨a', x, hax, hx⟩, hnext⟩ := h (a ++ c :: a₂) c₂ b₂ (by simp) hc₂
    refine ⟨hsep₂, ?_, hnext⟩
    rcases eq_nil_or_concat a₂ with rfl | ⟨a₃, z, rfl⟩
    · -- two white spaces side by side
      have hlast := (append_inj' hax rfl).2
      rw [cons.injEq] at hlast
      rw [← hlast.1, hc] at hx
      cases hx
    · rw [concat_eq_append, ← cons_append, ← append_assoc] at hax
      have hlast := (append_inj' hax rfl).2
      rw [cons.injEq] at hlast
      exact ⟨a₃, z, concat_eq_append, hlast.1 ▸ hx⟩
  · rintro ⟨hane, rfl, hbne, hb⟩ a' c' b' heq hc'
    rcases append_cons_cases ha hc' heq with ⟨rfl, rfl, rfl⟩ | ⟨t, rfl, rfl⟩
    · refine ⟨rfl, ?_, ?_⟩
      · rcases eq_nil_or_concat a' with rfl | ⟨a₂, x, rfl⟩
        · exact absurd rfl hane
        · exact ⟨a₂, x, concat_eq_append, ha x (by simp)⟩
      · cases b' with
        | nil => exact absurd rfl hbne
        | cons y b₂ =>
          refine ⟨y, b₂, rfl, Bool.eq_false_iff.mpr fun hy => ?_⟩
          -- nothing stands before the first character
          obtain ⟨-, ⟨a₂, x, hax, -⟩, -⟩ := hb [] y b₂ rfl hy
          simp at hax
    · obtain ⟨hsep, ⟨a₂, x, rfl, hx⟩, hnext⟩ := hb t c' b' rfl hc'
      exact ⟨hsep, ⟨a ++ c :: a₂, x, by simp, hx⟩, hnext⟩

theorem joined_word (h : ∀ c ∈ s, space c = false) : joined space sep s = s := by
  by_cases hne : s = []
  · subst hne
    simp [joined]
  · rw [joined, fields_word h hne, intercalate_singleton]

theorem joined_append_cons (ha : ∀ x ∈ a, space x = false) (hc : space c = true) :
    joined space sep (a ++ c :: b) =
      if a = [] then joined space sep b
      else if fields space b = [] then a
      else a ++ sep :: joined space sep b := by
  rw [joined, fields_append_cons a b hc]
  split_ifs with hane hb
  · rw [hane, fields_nil]
    rfl
  · rw [fields_word ha hane, hb, append_nil, intercalate_singleton]
  · obtain ⟨w, ws, hws⟩ := exists_cons_of_ne_nil hb
    rw [fields_word ha hane, joined, hws, singleton_append, intercalate_cons_cons, append_assoc]
    rfl

theorem length_joined_le (s : List α) : (joined space sep s).length ≤ s.length := by
  induction hn : s.length using Nat.strongRecOn generalizing s with
  | ind n ih =>
    subst hn
    rcases exists_first space s with hall | ⟨a, c, b, rfl, ha, hc⟩
    · exact Nat.le_of_eq (congrArg length (joined_word hall))
    · rw [joined_append_cons ha hc]
      have hb := ih b.length (by simp; omega) b rfl
      split_ifs <;> simp <;> omega

/-- **The words joined with the separator are the text exactly if it is single-spaced.** -/
theorem joined_eq_iff (s : List α) : joined space sep s = s ↔ SingleSpaced space sep s := by
  induction hn : s.length using Nat.strongRecOn generalizing s with
  | ind n ih =>
    subst hn
    rcases exists_first space s with hall | ⟨a, c, b, rfl, ha, hc⟩
    · exact iff_of_true (joined_word hall) (singleSpaced_word hall)
    · rw [joined_append_cons ha hc, singleSpaced_append_cons ha hc,
        ← ih b.length (by simp; omega) b rfl]
      have hle : (joined space sep b).length ≤ b.length := length_joined_le b
      split_ifs with hane hb
      · -- white space in front is lost
        refine iff_of_false (fun heq => ?_) (fun h => h.1 hane)
        have hlen := congrArg length heq
        simp at hlen
        omega
      · -- white space at the end is lost
        refine iff_of_false (fun heq => ?_) ?_
        · have hlen := congrArg length heq
          simp at hlen
        · rintro ⟨-, -, hbne, heq⟩
          rw [joined, hb] at heq
          exact hbne heq.symm
      · rw [append_cancel_left_eq, cons.injEq]
        have hbne : b ≠ [] := by
          rintro rfl
          exact hb fields_nil
        constructor
        · rintro ⟨rfl, heq⟩
          exact ⟨hane, rfl, hbne, heq⟩
        · rintro ⟨-, rfl, -, heq⟩
          exact ⟨rfl, heq⟩

end Fields

end LlmRouter.Lib.Text
