import LlmRouter.Lib.JsonScan

/-!
# LlmRouter — what an audit entry says

The middleware names an event after the first entry of `auditableEndpoints` that matches; three
entries are never reached (`mostSpecific_iff`). `BuildChanges` goes through the keys of `after`
only, so it misses what a change removed (`complete_iff`).
-/

namespace LlmRouter.Audit

open Lib Lib.Json List

/-! ## The event of a request -/

structure Endpoint where
  method : String
  pathPrefix : String
  eventType : String
  action : String
  deriving DecidableEq, Repr

def auditableEndpoints : List Endpoint :=
  [⟨"POST", "/admin/keys", "virtual_key.created", "create"⟩,
   ⟨"PATCH", "/admin/keys", "virtual_key.updated", "update"⟩,
   ⟨"DELETE", "/admin/keys", "virtual_key.deactivated", "delete"⟩,
   ⟨"POST", "/admin/keys/", "virtual_key.rotated", "rotate"⟩,
   ⟨"POST", "/admin/provider-keys", "provider_key.created", "create"⟩,
   ⟨"PUT", "/admin/provider-keys", "provider_key.updated", "update"⟩,
   ⟨"DELETE", "/admin/provider-keys", "provider_key.deleted", "delete"⟩,
   ⟨"POST", "/admin/routing/rules", "routing_rule.created", "create"⟩,
   ⟨"PUT", "/admin/routing/rules", "routing_rule.updated", "update"⟩,
   ⟨"DELETE", "/admin/routing/rules", "routing_rule.deleted", "delete"⟩,
   ⟨"POST", "/admin/routing/reload", "routing.reloaded", "reload"⟩,
   ⟨"PUT", "/admin/routing", "routing.reloaded", "update"⟩,
   ⟨"POST", "/admin/users", "user.created", "create"⟩,
   ⟨"PUT", "/admin/users", "user.updated", "update"⟩,
   ⟨"DELETE", "/admin/users", "user.deleted", "delete"⟩,
   ⟨"POST", "/admin/users/", "user.role_assigned", "assign_role"⟩,
   ⟨"POST", "/admin/budgets", "budget.created", "create"⟩,
   ⟨"POST", "/admin/budgets/", "budget.reset", "reset"⟩,
   ⟨"POST", "/admin/circuit-breakers", "circuit_breaker.reset", "reset"⟩,
   ⟨"DELETE", "/admin/cache", "cache.deleted", "delete"⟩]

def Endpoint.Matches (e : Endpoint) (method path : String) : Prop :=
  e.method = method ∧ e.pathPrefix.toList <+: path.toList

instance (e : Endpoint) (method path : String) : Decidable (e.Matches method path) :=
  inferInstanceAs (Decidable (_ ∧ _))

def inferEventType (method path : String) : String × String :=
  match auditableEndpoints.find? fun e => decide (e.Matches method path) with
  | some e => (e.eventType, e.action)
  | none => ("", "")

def MostSpecific (method path : String) (event : String × String) : Prop :=
  (∃ e ∈ auditableEndpoints, e.Matches method path ∧ event = (e.eventType, e.action) ∧
    ∀ e' ∈ auditableEndpoints, e'.Matches method path →
      e'.pathPrefix.toList.length ≤ e.pathPrefix.toList.length) ∨
  (∀ e ∈ auditableEndpoints, ¬ e.Matches method path) ∧ event = ("", "")

def shadowed : List Endpoint :=
  [⟨"POST", "/admin/keys/", "virtual_key.rotated", "rotate"⟩,
   ⟨"POST", "/admin/users/", "user.role_assigned", "assign_role"⟩,
   ⟨"POST", "/admin/budgets/", "budget.reset", "reset"⟩]

theorem pairwise_endpoints : auditableEndpoints.Pairwise fun e e' =>
    e.method = e'.method → e.pathPrefix.toList <+: e'.pathPrefix.toList → e' ∈ shadowed := by
  decide

theorem shadowed_spec : ∀ e ∈ shadowed, e ∈ auditableEndpoints ∧
    (∃ e' ∈ auditableEndpoints.takeWhile (· ≠ e), e'.method = e.method ∧
      e'.pathPrefix.toList <+: e.pathPrefix.toList) ∧
    ∀ e' ∈ auditableEndpoints, e'.method = e.method →
      e.pathPrefix.toList <+: e'.pathPrefix.toList ∨ (e'.eventType, e'.action) =
        (e.eventType, e.action) → e' = e := by
  decide

variable {method path : String}

theorem find?_endpoints {e : Endpoint}
    (h : (auditableEndpoints.find? fun e => decide (e.Matches method path)) = some e) :
    e.Matches method path ∧ ∃ pre post, auditableEndpoints = pre ++ e :: post ∧
      ∀ e' ∈ pre, ¬ e'.Matches method path := by
  obtain ⟨hmatch, pre, post, hsplit, hpre⟩ := find?_eq_some_iff_append.mp h
  exact ⟨of_decide_eq_true hmatch, pre, post, hsplit, fun e' he' => by simpa using hpre e' he'⟩

/-- **The most specific endpoint.** `inferEventType` names the matching entry with the longest
prefix iff none of the entries behind a shorter one matches. -/
theorem mostSpecific_iff (method path : String) :
    MostSpecific method path (inferEventType method path) ↔
      ∀ e ∈ shadowed, ¬ e.Matches method path := by
  rw [inferEventType]
  cases hfind : auditableEndpoints.find? fun e => decide (e.Matches method path) with
  | none =>
    have hnone : ∀ e ∈ auditableEndpoints, ¬ e.Matches method path := by
      simpa using find?_eq_none.mp hfind
    exact iff_of_true (.inr ⟨hnone, rfl⟩) fun e he => hnone e (shadowed_spec e he).1
  | some f =>
    obtain ⟨hf, pre, post, hsplit, hpre⟩ := find?_endpoints hfind
    constructor
    · rintro hspec e he hmatch
      obtain ⟨htable, ⟨e', he', hmethod, hle⟩, honly⟩ := shadowed_spec e he
      -- the longest match is the entry itself, so it is what was found
      obtain rfl : f = e := by
        rcases hspec with ⟨g, hg, hgmatch, hevent, hlongest⟩ | ⟨hnone, -⟩
        · have hlong :=
            prefix_of_prefix_length_le hmatch.2 hgmatch.2 (hlongest e htable hmatch)
          obtain rfl := honly g hg (hgmatch.1.trans hmatch.1.symm) (.inl hlong)
          exact honly f (hsplit ▸ mem_append_right pre mem_cons_self)
            (hf.1.trans hmatch.1.symm) (.inr hevent)
        · exact absurd hmatch (hnone e htable)
      -- but an entry in front of it matches as well
      have hfront : auditableEndpoints.takeWhile (· ≠ f) = pre := by
        rw [hsplit, takeWhile_append_of_pos, takeWhile_cons_of_neg (by simp), append_nil]
        intro a ha
        refine decide_eq_true fun heq => ?_
        exact hpre a ha (heq ▸ hmatch)
      rw [hfront] at he'
      exact hpre e' he' ⟨hmethod.trans hmatch.1, hle.trans hmatch.2⟩
    · intro hno
      refine .inl ⟨f, hsplit ▸ mem_append_right pre mem_cons_self, hf, rfl, ?_⟩
      intro e he hmatch
      by_contra hlong
      -- a longer match extends what was found, and stands behind it
      have hle := prefix_of_prefix_length_le hf.2 hmatch.2 (not_le.mp hlong).le
      rw [hsplit] at he
      rcases mem_append.mp he with he | he
      · exact hpre e he hmatch
      · rcases mem_cons.mp he with rfl | he
        · exact hlong (Nat.le_refl _)
        · have hpairs := pairwise_endpoints
          rw [hsplit, pairwise_append] at hpairs
          exact hno e ((pairwise_cons.mp hpairs.2.1).1 e he (hf.1.trans hmatch.1.symm) hle)
            hmatch

theorem rotation_is_a_creation :
    inferEventType "POST" "/admin/keys/7/regenerate" = ("virtual_key.created", "create") ∧
      ¬ MostSpecific "POST" "/admin/keys/7/regenerate"
        (inferEventType "POST" "/admin/keys/7/regenerate") := by
  have hevent : inferEventType "POST" "/admin/keys/7/regenerate" =
      ("virtual_key.created", "create") := by decide
  refine ⟨hevent, ?_⟩
  rw [hevent]
  unfold MostSpecific
  decide

/-! ## The fields of a change -/

structure Snapshot where
  fields : List (String × Json)
  nodup : (fields.map Prod.fst).Nodup
  valid : ∀ kv ∈ fields, kv.2.Valid

namespace Snapshot

variable (m : Snapshot)

/-- `m[k]`: nothing is `nil`, which is written as `null`. -/
def get (k : String) : Json := (m.fields.lookup k).getD .null

def keys : List String := m.fields.map Prod.fst

def mask (redact : List String) : List (String × Json) :=
  m.fields.map fun kv => (kv.1, if kv.1 ∈ redact then .str "[REDACTED]" else kv.2)

end Snapshot

structure Changes where
  before : List (String × Json)
  after : List (String × Json)
  changedFields : List String

/-- `BuildChanges`; a map is iterated in any order. -/
def buildChanges (before after : Snapshot) (redactFields : List String) : Changes where
  before := before.mask redactFields
  after := after.mask redactFields
  -- the loop is over `after`; both values are compared as their JSON
  changedFields := after.keys.filter fun k =>
    decide ((before.get k).render ≠ (after.get k).render) && decide (k ∉ redactFields)

def Redacted (m : Snapshot) (redact : List String) (out : List (String × Json)) : Prop :=
  ∀ k, out.lookup k =
    (m.fields.lookup k).map fun v => if k ∈ redact then .str "[REDACTED]" else v

/-- The changes name every field with another value once, and keep the values but for the
redacted ones. -/
structure Complete (before after : Snapshot) (redact : List String) (c : Changes) : Prop where
  nodup : c.changedFields.Nodup
  fields : ∀ k, k ∈ c.changedFields ↔ k ∉ redact ∧ before.get k ≠ after.get k
  before : Redacted before redact c.before
  after : Redacted after redact c.after

variable {m before after : Snapshot} {redact : List String} {k : String}

theorem redacted_mask (m : Snapshot) (redact : List String) :
    Redacted m redact (m.mask redact) := by
  intro k
  rw [Snapshot.mask]
  induction m.fields with
  | nil => rfl
  | cons kv fs ih =>
    obtain ⟨key, v⟩ := kv
    simp only [map_cons, lookup_cons, ih]
    by_cases hk : k = key
    · subst hk
      simp
    · simp [beq_eq_false_iff_ne.mpr hk]

theorem valid_get (m : Snapshot) (k : String) : (m.get k).Valid := by
  cases hlookup : m.fields.lookup k with
  | none =>
    rw [Snapshot.get, hlookup, Option.getD_none]
    simp [Json.Valid]
  | some v =>
    obtain ⟨pre, post, hsplit, -⟩ := lookup_eq_some_iff.mp hlookup
    rw [Snapshot.get, hlookup, Option.getD_some]
    exact m.valid (k, v) (by rw [hsplit]; simp)

theorem get_of_not_mem (h : k ∉ m.keys) : m.get k = .null := by
  rw [Snapshot.get, lookup_eq_none_iff.mpr, Option.getD_none]
  intro kv hkv
  exact bne_iff_ne.mpr fun hk => h (mem_map.mpr ⟨kv, hkv, hk.symm⟩)

theorem mem_changedFields : k ∈ (buildChanges before after redact).changedFields ↔
    k ∈ after.keys ∧ k ∉ redact ∧ before.get k ≠ after.get k := by
  have hrender : (before.get k).render ≠ (after.get k).render ↔ before.get k ≠ after.get k :=
    not_congr ⟨eq_of_render (valid_get before k) (valid_get after k), fun h => by rw [h]⟩
  simp only [buildChanges, mem_filter, Bool.and_eq_true, decide_eq_true_eq, hrender]
  tauto

/--
**Which audit diffs are complete.** The changes of two maps are complete if and only if every
field that only `before` has is redacted or `null`.
-/
theorem complete_iff (before after : Snapshot) (redact : List String) :
    Complete before after redact (buildChanges before after redact) ↔
      ∀ k, k ∉ redact → k ∉ after.keys → before.get k = .null := by
  constructor
  · intro h k hredact hafter
    by_contra hvalue
    rw [← get_of_not_mem hafter] at hvalue
    exact hafter (mem_changedFields.mp ((h.fields k).mpr ⟨hredact, hvalue⟩)).1
  · intro h
    refine ⟨List.Nodup.filter _ after.nodup, fun k => mem_changedFields.trans ⟨And.right, ?_⟩,
      redacted_mask before redact, redacted_mask after redact⟩
    rintro ⟨hredact, hvalue⟩
    refine ⟨?_, hredact, hvalue⟩
    by_contra hafter
    exact hvalue ((h k hredact hafter).trans (get_of_not_mem hafter).symm)

theorem removed_field_is_missed :
    let before : Snapshot := ⟨[("limit", .str "100")], by decide, by simp [Json.Valid]⟩
    let after : Snapshot := ⟨[], by decide, by simp⟩
    (buildChanges before after []).changedFields = [] ∧
      ¬ Complete before after [] (buildChanges before after []) := by
  intro before after
  refine ⟨rfl, fun h => ?_⟩
  have hvalue : before.get "limit" ≠ after.get "limit" := by rintro ⟨⟩
  have hmissed := (h.fields "limit").mpr ⟨by decide, hvalue⟩
  cases hmissed

end LlmRouter.Audit
