import LlmRouter.Mcp.Proxy

/-!
# LlmRouter — which tool calls share a cache key

`resultCache.key` writes the server, the tool and the arguments to a hash, each argument as its
name and the JSON of its value with nothing in between. So a call with two arguments shares its
key with one of one argument; `key_unique_iff` says which calls have a key of their own. Assumed
is that the hash and the texts of values are injective (`Keying`).
-/

namespace LlmRouter.Mcp

open Lib Lib.Json Lib.Utf8 Lib.Text List

/-! ## The bytes of a key -/

structure Keying (α κ : Type) where
  text : α → String
  text_injective : Function.Injective text
  text_ne_empty : ∀ v, text v ≠ ""
  hash : Bytes → κ
  hash_injective : Function.Injective hash

structure NamedCall (α : Type) extends ToolCallRequest α where
  server_nul : Char.ofNat 0 ∉ server.toList
  tool_nul : Char.ofNat 0 ∉ tool.toList

namespace Keying

variable {α κ : Type} (K : Keying α κ)

def key (c : NamedCall α) : κ := K.hash (keyBytes (fun v => bytes (K.text v)) c.toToolCallRequest)

def argText (kv : String × α) : List Char := kv.1.toList ++ (K.text kv.2).toList

def argsText (args : List (String × α)) : List Char := args.flatMap K.argText

theorem argsText_cons (kv : String × α) (args : List (String × α)) :
    K.argsText (kv :: args) = K.argText kv ++ K.argsText args :=
  flatMap_cons ..

theorem encode_argsText (args : List (String × α)) :
    encode (K.argsText args) = args.flatMap fun kv => bytes kv.1 ++ bytes (K.text kv.2) := by
  induction args with
  | nil => rfl
  | cons kv args ih =>
    rw [argsText_cons, encode_append, ih, argText, encode_append]
    rfl

theorem keyBytes_eq (c : NamedCall α) :
    keyBytes (fun v => bytes (K.text v)) c.toToolCallRequest =
      encode (c.server.toList ++ Char.ofNat 0 :: (c.tool.toList ++ Char.ofNat 0 ::
        K.argsText c.arguments)) := by
  have hnul : String.utf8EncodeChar (Char.ofNat 0) = [0] := by decide
  rw [encode_append, encode_cons, encode_append, encode_cons, encode_argsText, hnul, keyBytes]
  simp only [bytes, append_assoc]

theorem key_eq_iff (c c' : NamedCall α) : K.key c' = K.key c ↔
    c'.server = c.server ∧ c'.tool = c.tool ∧ K.argsText c'.arguments = K.argsText c.arguments := by
  rw [key, key, K.hash_injective.eq_iff, keyBytes_eq, keyBytes_eq]
  constructor
  · intro h
    have htext := congrArg decode h
    rw [decode_encode, decode_encode] at htext
    obtain ⟨hserver, hrest⟩ := append_cons_inj c'.server_nul c.server_nul htext
    obtain ⟨htool, hargs⟩ := append_cons_inj c'.tool_nul c.tool_nul hrest
    exact ⟨String.toList_inj.mp hserver, String.toList_inj.mp htool, hargs⟩
  · rintro ⟨hserver, htool, hargs⟩
    rw [hserver, htool, hargs]

/-! ## Texts of arguments -/

variable {K}

theorem argText_ne_nil (kv : String × α) : K.argText kv ≠ [] := by
  intro h
  exact K.text_ne_empty kv.2 (String.toList_eq_nil_iff.mp (append_eq_nil_iff.mp h).2)

variable {args : List (String × α)}

theorem argsText_eq_nil_iff : K.argsText args = [] ↔ args = [] := by
  constructor
  · intro h
    cases args with
    | nil => rfl
    | cons kv args =>
      rw [argsText_cons] at h
      exact absurd (append_eq_nil_iff.mp h).1 (argText_ne_nil kv)
  · rintro rfl
    rfl

def lastName (K : Keying α κ) (args : List (String × α)) (name : String) : String :=
  String.ofList (K.argsText args ++ name.toList)

theorem argsText_lastName (args : List (String × α)) (kv : String × α) :
    K.argsText [(K.lastName args kv.1, kv.2)] = K.argsText (args ++ [kv]) := by
  simp [argsText, argText, lastName]

theorem argsText_singleton (kv : String × α) : K.argsText [kv] = K.argText kv := by
  simp [argsText]

theorem lt_append {s t : String} (h : s < t) (more : List Char) :
    s < String.ofList (t.toList ++ more) := by
  rw [String.lt_iff_toList_lt] at h ⊢
  rw [String.toList_ofList]
  generalize s.toList = a at h
  generalize t.toList = b at h
  induction a generalizing b with
  | nil =>
    cases b with
    | nil => cases h
    | cons y b => exact List.Lex.nil
  | cons x a ih =>
    cases b with
    | nil => cases h
    | cons y b =>
      rcases cons_lt_cons_iff.mp h with hlt | ⟨rfl, hlt⟩
      · exact cons_lt_cons_iff.mpr (.inl hlt)
      · exact cons_lt_cons_iff.mpr (.inr ⟨rfl, ih b hlt⟩)

/-- A single argument whose text is no other's. -/
structure Alone (K : Keying α κ) (k : String) (v : α) : Prop where
  value : ∀ k' v', K.argText (k', v') = K.argText (k, v) → v' = v
  name : ∀ p v' q, k.toList = K.argText (p, v') ++ q.toList → ¬ p < q

theorem Alone.eq {k : String} {v : α} (h : K.Alone k v) (hsorted : SortedKeys args)
    (htext : K.argsText args = K.argText (k, v)) : args = [(k, v)] := by
  rcases eq_nil_or_concat args with rfl | ⟨init, ⟨kn, vn⟩, rfl⟩
  · exact absurd htext.symm (argText_ne_nil _)
  · rw [concat_eq_append] at hsorted htext ⊢
    rw [← argsText_lastName, argsText_singleton] at htext
    obtain rfl : vn = v := h.value _ _ htext
    have hname : K.argsText init ++ kn.toList = k.toList := by
      have hcancel := append_cancel_right htext
      rwa [lastName, String.toList_ofList] at hcancel
    cases init with
    | nil =>
      have hk : kn = k := String.toList_inj.mp hname
      rw [hk]
      rfl
    | cons kv init =>
      exfalso
      rw [argsText_cons, append_assoc] at hname
      have hlt : kv.1 < String.ofList (K.argsText init ++ kn.toList) := by
        rw [cons_append, SortedKeys, pairwise_cons] at hsorted
        cases init with
        | nil =>
          have hlt := hsorted.1 (kn, vn) (by simp)
          simpa [argsText] using hlt
        | cons kv' init =>
          have hlt := lt_append (hsorted.1 kv' (by simp))
            ((K.text kv'.2).toList ++ (K.argsText init ++ kn.toList))
          simpa [argsText_cons, argText] using hlt
      refine h.name kv.1 kv.2 (String.ofList (K.argsText init ++ kn.toList)) ?_ hlt
      rw [String.toList_ofList]
      exact hname.symm

theorem argsText_unique_iff (hsorted : SortedKeys args) :
    (∀ args', SortedKeys args' → K.argsText args' = K.argsText args → args' = args) ↔
      args = [] ∨ ∃ k v, args = [(k, v)] ∧ K.Alone k v := by
  have hone : ∀ kv : String × α, SortedKeys [kv] := fun kv => pairwise_singleton _ _
  constructor
  · intro h
    rcases eq_nil_or_concat args with rfl | ⟨init, ⟨k, v⟩, rfl⟩
    · exact .inl rfl
    · rw [concat_eq_append] at h ⊢
      -- the call of one argument with the same text
      have heq := h _ (hone _) (argsText_lastName init (k, v))
      obtain rfl : init = [] := by
        have hlen := congrArg length heq
        simpa using hlen
      refine .inr ⟨k, v, rfl, ⟨fun k' v' htext => ?_, fun p v' q hname hlt => ?_⟩⟩
      · have hsame := h [(k', v')] (hone _) (by simpa [argsText] using htext)
        exact congrArg Prod.snd (singleton_inj.mp hsame)
      · have hsame := h [(p, v'), (q, v)] (by simpa [SortedKeys] using hlt)
          (by simp [argsText, argText, hname])
        have hlen := congrArg length hsame
        simp at hlen
  · rintro (rfl | ⟨k, v, rfl, halone⟩) args' hsorted' htext
    · exact argsText_eq_nil_iff.mp htext
    · exact halone.eq hsorted' (by simpa [argsText_singleton] using htext)

end Keying

/-- **A call has a key of its own exactly if it has no arguments, or one that is alone.** -/
theorem key_unique_iff {α κ : Type} (K : Keying α κ) (c : NamedCall α) :
    (∀ c' : NamedCall α, K.key c' = K.key c → c' = c) ↔
      c.arguments = [] ∨ ∃ k v, c.arguments = [(k, v)] ∧ K.Alone k v := by
  rw [← Keying.argsText_unique_iff c.sorted]
  constructor
  · intro h args hsorted htext
    let c' : NamedCall α := { c with arguments := args, sorted := hsorted }
    have hsame := h c' ((K.key_eq_iff c c').mpr ⟨rfl, rfl, htext⟩)
    exact congrArg (fun c : NamedCall α => c.arguments) hsame
  · intro h c' hkey
    obtain ⟨hserver, htool, htext⟩ := (K.key_eq_iff c c').mp hkey
    have hargs := h c'.arguments c'.sorted htext
    obtain ⟨⟨_, _, _, _⟩, _, _⟩ := c
    obtain ⟨⟨_, _, _, _⟩, _, _⟩ := c'
    cases hserver
    cases htool
    cases hargs
    rfl

def numberKeying : Keying Nat Bytes where
  text n := toString n
  text_injective m n h := toString_nat_injective (congrArg String.toList h)
  text_ne_empty n h := by
    have hlen : Nat.toDigits 10 n = [] := by
      rw [← toList_toString_nat, h]
      rfl
    exact absurd hlen (Nat.toDigits_ne_nil)
  hash bs := bs
  hash_injective _ _ h := h

def twoArguments : NamedCall Nat where
  server := "srv"
  tool := "get"
  arguments := [("a", 1), ("b", 2)]
  sorted := by
    rw [SortedKeys]
    decide
  server_nul := by decide
  tool_nul := by decide

def oneArgument : NamedCall Nat :=
  { twoArguments with arguments := [("a1b", 2)], sorted := pairwise_singleton _ _ }

theorem keys_collide :
    numberKeying.key oneArgument = numberKeying.key twoArguments ∧ oneArgument ≠ twoArguments := by
  refine ⟨(numberKeying.key_eq_iff _ _).mpr ⟨rfl, rfl, by decide⟩, fun h => ?_⟩
  have hargs := congrArg (fun c : NamedCall Nat => c.arguments.length) h
  exact absurd hargs (by decide)

end LlmRouter.Mcp
