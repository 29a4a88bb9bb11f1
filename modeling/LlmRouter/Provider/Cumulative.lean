import LlmRouter.Provider.Producers

/-!
# LlmRouter — the cumulative texts of gemini

Every event of a gemini stream repeats the text of the answer so far, and the adapter sends
what is new in it. The new text is cut off by its number of bytes; as long as every text
begins with the one before, the cut is between two characters.
-/

namespace LlmRouter.Streams

open Lib Lib.Json Gateway Proxy Adapters Utf8
open List (Forall₂ IsChain)

namespace Gemini

variable (errorText : Bytes → String) {e : SSEEvent} {gr last : Gemini.Response} {s : String}
  {c : List Char} {es : List SSEEvent} {grs : List Gemini.Response}

def Carries (e : SSEEvent) (gr : Gemini.Response) : Prop :=
  unmarshal (Encoding.decodeStruct Gemini.response) e.data = some gr

def text (gr : Gemini.Response) : String :=
  String.join (gr.candidates.head?.elim [] fun cand => elems cand.parts)

def finished (gr : Gemini.Response) : Bool := gr.candidates.head?.any finishes

def deltas (c : List Char) : List StreamChunk :=
  if c = [] then [] else [{ delta := String.ofList c }]

theorem encode_eq_nil : encode c = [] ↔ c = [] := by
  refine ⟨fun h => ?_, fun h => by rw [h]; rfl⟩
  rw [← decode_encode c, h, decode_nil]

theorem join_deltas (c : List Char) :
    String.join ((deltas c).map StreamChunk.delta) = String.ofList c := by
  rw [deltas]
  split <;> simp [*, String.join_cons]

theorem finishReason_of_mem_deltas {chunk : StreamChunk} (h : chunk ∈ deltas c) :
    chunk.finishReason = none := by
  rw [deltas] at h
  split at h
  · cases h
  · rw [List.mem_singleton.mp h]

/-! ## One event -/

theorem read_eq {cand : Gemini.Candidate} {rest : List Gemini.Candidate} (h : Carries e gr)
    (hcand : gr.candidates = cand :: rest) (hext : (text gr).toList = s.toList ++ c) :
    (stage errorText).read (bytes s) e =
      if finishes cand then
        (deltas c ++ [{ finishReason := some (Gemini.mapFinishReason cand.finishReason)
                        usage := if 0 < gr.usage.totalTokens then some gr.usage else none }], none)
      else (deltas c, some (bytes (text gr))) := by
  have htext : text gr = String.join (elems cand.parts) := by rw [text, hcand]; rfl
  have hbytes : bytes (text gr) = bytes s ++ encode c := by
    rw [bytes, hext, encode_append]
    rfl
  have hdelta : (bytes (text gr)).drop (bytes s).length = encode c := by
    rw [hbytes, List.drop_left]
  have hsent : (if encode c = [] then [] else [{ delta := String.ofList (decode (encode c)) }] :
      List StreamChunk) = deltas c := by
    rw [decode_encode, deltas]
    exact if_congr encode_eq_nil rfl rfl
  -- where nothing is new, the old text is kept, and it is this one
  have hkept : (if (bytes s).length < (bytes (text gr)).length then bytes (text gr) else bytes s) =
      bytes (text gr) := by
    split
    · rfl
    · rename_i hshort
      rw [hbytes, List.length_append] at hshort
      rw [hbytes, List.eq_nil_of_length_eq_zero (l := encode c) (by omega), List.append_nil]
  simp only [stage, show unmarshal (Encoding.decodeStruct Gemini.response) e.data = some gr from h,
    hcand, ← htext, hdelta, hsent, hkept]

theorem read_more (h : Carries e gr) (hext : (text gr).toList = s.toList ++ c)
    (hopen : finished gr = false) :
    (stage errorText).read (bytes s) e = (deltas c, some (bytes (text gr))) := by
  cases hcand : gr.candidates with
  | nil =>
    -- without a candidate the text is empty, and so was the one before
    have htext : text gr = "" := by rw [text, hcand]; rfl
    rw [htext] at hext
    obtain ⟨hs, hc⟩ := List.append_eq_nil_iff.mp hext.symm
    rw [htext, hc, String.toList_inj.mp (hs.trans String.toList_empty.symm)]
    simp only [stage, show unmarshal (Encoding.decodeStruct Gemini.response) e.data = some gr
      from h, hcand]
    rfl
  | cons cand rest =>
    rw [finished, hcand] at hopen
    exact (read_eq errorText h hcand hext).trans (if_neg (Bool.eq_false_iff.mp hopen))

theorem read_last (h : Carries e gr) (hext : (text gr).toList = s.toList ++ c)
    (hlast : finished gr = true) :
    ∃ fin : StreamChunk, fin.delta = "" ∧ fin.finishReason.isSome ∧
      (stage errorText).read (bytes s) e = (deltas c ++ [fin], none) := by
  cases hcand : gr.candidates with
  | nil => simp [finished, hcand] at hlast
  | cons cand rest =>
    rw [finished, hcand] at hlast
    refine ⟨_, ?_, ?_, (read_eq errorText h hcand hext).trans (if_pos hlast)⟩ <;> rfl

/-! ## A whole stream -/

theorem run_eq (hread : Forall₂ Carries es (grs ++ [last]))
    (hgrow : IsChain (fun a b => a.toList <+: b.toList) (s :: (grs ++ [last]).map text))
    (hopen : ∀ gr ∈ grs, finished gr = false) (hlast : finished last = true) :
    ∃ (body : List StreamChunk) (fin : StreamChunk),
      ((stage errorText).run (bytes s) es).1 = body ++ [fin] ∧
      (∀ chunk ∈ body, chunk.finishReason = none) ∧ fin.delta = "" ∧ fin.finishReason.isSome ∧
      s ++ String.join (body.map StreamChunk.delta) = text last := by
  induction grs generalizing es s with
  | nil =>
    obtain ⟨e, rfl, he⟩ : ∃ e, es = [e] ∧ Carries e last := by
      cases hread with
      | cons he hnil => cases hnil; exact ⟨_, rfl, he⟩
    -- the last event: its delta goes first, the reason alone behind it
    obtain ⟨c, hext⟩ := (List.isChain_cons_cons.mp hgrow).1
    obtain ⟨fin, hdelta, hreason, heq⟩ := read_last errorText he hext.symm hlast
    refine ⟨deltas c, fin, ?_, fun _ => finishReason_of_mem_deltas, hdelta, hreason, ?_⟩
    · rw [Stage.run_cons, heq]
      rfl
    · rw [join_deltas, ← String.toList_inj, String.toList_append, String.toList_ofList, hext]
  | cons gr grs ih =>
    obtain ⟨e, es, rfl, he, htail⟩ : ∃ e es', es = e :: es' ∧ Carries e gr ∧
        Forall₂ Carries es' (grs ++ [last]) := by
      cases hread with
      | cons he htail => exact ⟨_, _, rfl, he, htail⟩
    obtain ⟨⟨c, hext⟩, hgrow⟩ := List.isChain_cons_cons.mp hgrow
    obtain ⟨body, fin, heq, hbody, hdelta, hreason, hjoin⟩ :=
      ih htail hgrow fun gr hgr => hopen gr (List.mem_cons_of_mem _ hgr)
    refine ⟨deltas c ++ body, fin, ?_, ?_, hdelta, hreason, ?_⟩
    · rw [Stage.run_cons, read_more errorText he hext.symm (hopen gr List.mem_cons_self),
        List.append_assoc, ← heq]
      rfl
    · intro chunk hchunk
      rcases List.mem_append.mp hchunk with hnew | hlater
      · exact finishReason_of_mem_deltas hnew
      · exact hbody chunk hlater
    · have htext : text gr = s ++ String.ofList c := by
        rw [← String.toList_inj, String.toList_append, String.toList_ofList, hext]
      rw [List.map_append, String.join_append, join_deltas, ← String.append_assoc, ← htext, hjoin]

end Gemini

/-- **Cumulative texts.** Where every text begins with the one before and only the last event says
why the answer ends, the deltas make up the last text, no chunk has both a delta and a reason, and
only the last has a reason. -/
theorem gemini_deltas (errorText : Bytes → String) {es : List SSEEvent}
    {grs : List Gemini.Response} {last : Gemini.Response}
    (hread : Forall₂ Gemini.Carries es (grs ++ [last]))
    (hgrow : IsChain (fun a b => (Gemini.text a).toList <+: (Gemini.text b).toList) (grs ++ [last]))
    (hopen : ∀ gr ∈ grs, Gemini.finished gr = false) (hlast : Gemini.finished last = true) :
    String.join ((StreamAdapter.gemini.chunks errorText es).map StreamChunk.delta) =
        Gemini.text last ∧
      (∀ chunk ∈ StreamAdapter.gemini.chunks errorText es,
        chunk.delta = "" ∨ chunk.finishReason = none) ∧
      ∃ body fin, StreamAdapter.gemini.chunks errorText es = body ++ [fin] ∧
        fin.finishReason.isSome ∧ ∀ chunk ∈ body, chunk.finishReason = none := by
  have hstart : IsChain (fun a b => a.toList <+: b.toList)
      ("" :: (grs ++ [last]).map Gemini.text) := by
    refine List.isChain_cons.mpr ⟨fun b _ => ?_, (List.isChain_map Gemini.text).mpr hgrow⟩
    rw [String.toList_empty]
    exact List.nil_prefix
  obtain ⟨body, fin, heq, hbody, hdelta, hreason, hjoin⟩ :=
    Gemini.run_eq errorText hread hstart hopen hlast
  have hchunks : StreamAdapter.gemini.chunks errorText es = body ++ [fin] := heq
  rw [hchunks]
  refine ⟨?_, ?_, body, fin, rfl, hreason, hbody⟩
  · rw [← hjoin, List.map_append, String.join_append, List.map_singleton, hdelta]
    simp
  · intro chunk hchunk
    rcases List.mem_append.mp hchunk with hsent | hfin
    · exact .inr (hbody chunk hsent)
    · exact .inl (List.mem_singleton.mp hfin ▸ hdelta)

def geminiEvent (text finishReason : String) : SSEEvent :=
  { data := bytes ("\x7b\"candidates\":[\x7b\"content\":\x7b\"parts\":[\x7b\"text\":\"" ++ text ++
      "\"\x7d]\x7d,\"finishReason\":\"" ++ finishReason ++ "\"\x7d]\x7d") }

theorem gemini_deltas_hello :
    String.join ((StreamAdapter.gemini.chunks (fun _ => "")
      [geminiEvent "Hel" "", geminiEvent "Hello" "STOP"]).map StreamChunk.delta) = "Hello" := by
  obtain ⟨a, b, ha, hb, ⟨htexta, htextb⟩, hopen, hlast⟩ :
      ∃ a b, Gemini.Carries (geminiEvent "Hel" "") a ∧
        Gemini.Carries (geminiEvent "Hello" "STOP") b ∧
        (Gemini.text a = "Hel" ∧ Gemini.text b = "Hello") ∧
        Gemini.finished a = false ∧ Gemini.finished b = true :=
    ⟨_, _, rfl, rfl, by decide +kernel⟩
  have hread : Forall₂ Gemini.Carries [geminiEvent "Hel" "", geminiEvent "Hello" "STOP"]
      ([a] ++ [b]) := .cons ha (.cons hb .nil)
  refine (gemini_deltas (fun _ => "") hread ?_ ?_ hlast).1.trans htextb
  · refine List.isChain_pair.mpr ?_
    rw [htexta, htextb]
    decide
  · intro gr hgr
    rw [List.mem_singleton.mp hgr, hopen]

end LlmRouter.Streams
