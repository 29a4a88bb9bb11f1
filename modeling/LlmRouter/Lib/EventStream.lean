import LlmRouter.Lib.Utf8

/-!
# Event streams

The HTML standard's own algorithm for an event stream: it is decoded, cut into lines, and the
lines fill buffers that an empty line dispatches. Of the decoder only matters that bytes of ASCII
are characters of their own and no other bytes are read as such (`TextDecoder`).
-/

namespace LlmRouter.Lib

open List

/-! ## Decoders -/

theorem toNat_char {n : Nat} (h : n < 128) : (Char.ofNat n).toNat = n := by
  rw [Char.ofNat, dif_pos (.inl (by omega))]
  rfl

structure TextDecoder where
  decode : Bytes → List Char
  nil : decode [] = []
  ascii : ∀ (before : Bytes) {b : UInt8}, b.toNat < 128 → ∀ after : Bytes,
    decode (before ++ b :: after) = decode before ++ Char.ofNat b.toNat :: decode after
  other : ∀ bs : Bytes, bs ≠ [] → (∀ b ∈ bs, 128 ≤ b.toNat) →
    decode bs ≠ [] ∧ ∀ c ∈ decode bs, 128 ≤ c.toNat

namespace TextDecoder

variable (dec : TextDecoder)

/-- "UTF-8 decode": a byte order mark is dropped. -/
def decodeStream : Bytes → List Char
  | 0xEF :: 0xBB :: 0xBF :: rest => dec.decode rest
  | bs => dec.decode bs

variable {bs : Bytes}

theorem decodeStream_of_not_bom (h : ¬ [0xEF, 0xBB, 0xBF] <+: bs) :
    dec.decodeStream bs = dec.decode bs := by
  unfold decodeStream
  split
  next rest => exact absurd ⟨rest, rfl⟩ h
  · rfl

theorem decode_cons {b : UInt8} (hb : b.toNat < 128) (bs : Bytes) :
    dec.decode (b :: bs) = Char.ofNat b.toNat :: dec.decode bs := by
  rw [← nil_append (b :: bs), dec.ascii [] hb, dec.nil, nil_append]

theorem cut (bs : Bytes) :
    (∀ b ∈ bs, 128 ≤ b.toNat) ∨ ∃ before b after, bs = before ++ b :: after ∧ b.toNat < 128 ∧
      ∀ x ∈ before, 128 ≤ x.toNat := by
  induction bs with
  | nil => exact .inl (by simp)
  | cons b bs ih =>
    by_cases hb : b.toNat < 128
    · exact .inr ⟨[], b, bs, rfl, hb, by simp⟩
    · rcases ih with hall | ⟨before, x, after, rfl, hx, hbefore⟩
      · exact .inl (forall_mem_cons.mpr ⟨Nat.le_of_not_lt hb, hall⟩)
      · exact .inr ⟨b :: before, x, after, rfl, hx,
          forall_mem_cons.mpr ⟨Nat.le_of_not_lt hb, hbefore⟩⟩

theorem decode_eq_cons {c : Char} {cs : List Char} (hc : c.toNat < 128)
    (h : dec.decode bs = c :: cs) :
    ∃ b rest, bs = b :: rest ∧ Char.ofNat b.toNat = c ∧ b.toNat < 128 ∧ dec.decode rest = cs := by
  cases bs with
  | nil =>
    rw [dec.nil] at h
    cases h
  | cons b bs =>
    by_cases hb : b.toNat < 128
    · rw [dec.decode_cons hb] at h
      obtain ⟨hhead, htail⟩ := cons.inj h
      exact ⟨b, bs, rfl, hhead, hb, htail⟩
    · -- then the first character is not of ASCII either
      exfalso
      have hfirst : ∀ before : Bytes, before ≠ [] → (∀ x ∈ before, 128 ≤ x.toNat) → ∀ more,
          dec.decode before ++ more ≠ c :: cs := by
        intro before hne hbefore more heq
        obtain ⟨hne', hall⟩ := dec.other before hne hbefore
        obtain ⟨d, ds, hd⟩ := exists_cons_of_ne_nil hne'
        rw [hd, cons_append] at heq
        have hge := hall d (by rw [hd]; exact mem_cons_self)
        rw [(cons.inj heq).1] at hge
        omega
      rcases cut (b :: bs) with hall | ⟨before, x, after, hsplit, hx, hbefore⟩
      · exact hfirst _ (cons_ne_nil b bs) hall [] (by rw [append_nil, h])
      · have hne : before ≠ [] := by
          rintro rfl
          exact hb ((cons.inj hsplit).1 ▸ hx)
        rw [hsplit, dec.ascii before hx] at h
        exact hfirst before hne hbefore _ h

theorem mem_of_mem_decode {c : Char} (hc : c.toNat < 128) (h : c ∈ dec.decode bs) :
    ∃ b ∈ bs, Char.ofNat b.toNat = c ∧ b.toNat < 128 := by
  induction hn : bs.length using Nat.strongRecOn generalizing bs with
  | ind n ih =>
    have hnone : ∀ before : Bytes, (∀ x ∈ before, 128 ≤ x.toNat) → c ∉ dec.decode before := by
      intro before hbefore hmem
      have hne : before ≠ [] := by
        rintro rfl
        rw [dec.nil] at hmem
        cases hmem
      have := (dec.other before hne hbefore).2 c hmem
      omega
    rcases cut bs with hall | ⟨before, b, after, rfl, hb, hbefore⟩
    · exact absurd h (hnone bs hall)
    · rw [dec.ascii before hb, mem_append, mem_cons] at h
      rcases h with h | rfl | h
      · exact absurd h (hnone before hbefore)
      · exact ⟨b, by simp, rfl, hb⟩
      · have hlt : after.length < n := by
          rw [← hn, length_append, length_cons]
          omega
        obtain ⟨x, hx, hrest⟩ := ih after.length hlt h rfl
        exact ⟨x, by simp [hx], hrest⟩

theorem not_mem_decode {b : UInt8} (hb : b.toNat < 128) (h : b ∉ bs) :
    Char.ofNat b.toNat ∉ dec.decode bs := by
  intro hmem
  obtain ⟨x, hx, hxb, hx128⟩ := dec.mem_of_mem_decode (by rw [toNat_char hb]; exact hb) hmem
  have hsame : x = b := by
    apply UInt8.toNat_inj.mp
    rw [← toNat_char hx128, hxb, toNat_char hb]
  exact h (hsame ▸ hx)

theorem decode_ne_nil (h : bs ≠ []) : dec.decode bs ≠ [] := by
  rcases cut bs with hall | ⟨before, b, after, rfl, hb, -⟩
  · exact (dec.other bs h hall).1
  · rw [dec.ascii before hb]
    simp

/-- Bytes that decode to ASCII are its bytes. -/
theorem eq_of_decode_eq {cs : List Char} (hcs : ∀ c ∈ cs, c.toNat < 128) (h : dec.decode bs = cs) :
    bs = cs.map fun c => UInt8.ofNat c.toNat := by
  induction cs generalizing bs with
  | nil => exact not_not.mp fun hne => dec.decode_ne_nil hne h
  | cons c cs ih =>
    rw [forall_mem_cons] at hcs
    obtain ⟨b, rest, rfl, rfl, hb, hrest⟩ := dec.decode_eq_cons hcs.1 h
    rw [map_cons, ← ih hcs.2 hrest, toNat_char hb, UInt8.ofNat_toNat]

end TextDecoder

/-- Go's decoder, which reads each wrong byte as a replacement character. -/
def goDecoder : TextDecoder where
  decode := Utf8.decode
  nil := rfl
  ascii before b hb after := by rw [Utf8.decode_append_ascii before hb, Utf8.decode_ascii hb]
  other bs hne hbs := by
    induction hn : bs.length using Nat.strongRecOn generalizing bs with
    | ind n ih =>
      obtain ⟨b, rest, rfl⟩ := exists_cons_of_ne_nil hne
      obtain ⟨c, a, rest', hc, rfl, -, hread, -⟩ :=
        Utf8.decode_other (hbs b mem_cons_self) rest
      rw [hread]
      refine ⟨cons_ne_nil _ _, forall_mem_cons.mpr ⟨hc, ?_⟩⟩
      by_cases hrest : rest' = []
      · subst hrest
        exact fun d hd => nomatch hd
      · refine (ih rest'.length ?_ rest' hrest (fun x hx => hbs x (by simp [hx])) rfl).2
        rw [← hn, length_cons, length_append]
        omega

/-! ## The interpretation of a stream -/

namespace EventStream

/-- The lines of a stream; `cur` is the beginning of the current one. What follows the last end is
discarded. -/
def lines : (cur : List Char) → List Char → List (List Char)
  | _, [] => []
  | cur, '\r' :: '\n' :: rest => cur :: lines [] rest
  | cur, c :: rest =>
    if c = '\n' ∨ c = '\r' then cur :: lines [] rest else lines (cur ++ [c]) rest

structure Buffers where
  data : List Char := []
  eventType : List Char := []
  lastEventID : List Char := []
  reconnectionTime : Option (List Char) := none
  deriving DecidableEq, Repr

structure MessageEvent where
  type : List Char
  data : List Char
  lastEventID : List Char
  deriving DecidableEq, Repr

def processField (b : Buffers) (name value : List Char) : Buffers :=
  if name = "event".toList then { b with eventType := value }
  else if name = "data".toList then { b with data := b.data ++ value ++ ['\n'] }
  else if name = "id".toList then
    if Char.ofNat 0 ∈ value then b else { b with lastEventID := value }
  else if name = "retry".toList then
    if value.all Char.isDigit then { b with reconnectionTime := some value } else b
  else b

def fieldValue (v : List Char) : List Char :=
  match v with
  | ' ' :: rest => rest
  | _ => v

def processLine (b : Buffers) (line : List Char) : Buffers :=
  if line.head? = some ':' then b
  else if ':' ∈ line then
    processField b (line.takeWhile (· != ':')) (fieldValue (line.dropWhile (· != ':')).tail)
  else processField b line []

def dispatch (b : Buffers) : List MessageEvent :=
  if b.data = [] then []
  else
    [{ type := if b.eventType = [] then "message".toList else b.eventType
       data := if b.data.getLast? = some '\n' then b.data.dropLast else b.data
       lastEventID := b.lastEventID }]

def interpret : Buffers → List (List Char) → List MessageEvent
  | _, [] => []
  | b, line :: rest =>
    if line = [] then dispatch b ++ interpret { b with data := [], eventType := [] } rest
    else interpret (processLine b line) rest

def dispatched (stream : List Char) : List MessageEvent := interpret {} (lines [] stream)

variable {text : List Char}

theorem lines_append (hlf : '\n' ∉ text) (hcr : '\r' ∉ text) (cur rest : List Char) :
    lines cur (text ++ rest) = lines (cur ++ text) rest := by
  induction text generalizing cur with
  | nil => simp
  | cons c text ih =>
    rw [mem_cons, not_or] at hlf hcr
    have hstep : lines cur (c :: (text ++ rest)) = lines (cur ++ [c]) (text ++ rest) := by
      rw [lines]
      · rw [if_neg (not_or.mpr ⟨Ne.symm hlf.1, Ne.symm hcr.1⟩)]
      · rintro _ rfl
        exact absurd rfl hcr.1
    rw [cons_append, hstep, ih hlf.2 hcr.2, append_assoc]
    rfl

theorem lines_lf (hlf : '\n' ∉ text) (hcr : '\r' ∉ text) (rest : List Char) :
    lines [] (text ++ '\n' :: rest) = text :: lines [] rest := by
  rw [lines_append hlf hcr, nil_append, lines]
  · rw [if_pos (.inl rfl)]
  · rintro _ h
    cases h

theorem lines_crlf (hlf : '\n' ∉ text) (hcr : '\r' ∉ text) (rest : List Char) :
    lines [] (text ++ '\r' :: '\n' :: rest) = text :: lines [] rest := by
  rw [lines_append hlf hcr, nil_append, lines]

theorem processLine_comment (b : Buffers) (text : List Char) : processLine b (':' :: text) = b :=
  if_pos rfl

theorem processLine_field (b : Buffers) {name : List Char} (hname : ':' ∉ name) (hne : name ≠ [])
    (value : List Char) :
    processLine b (name ++ ':' :: value) = processField b name (fieldValue value) := by
  have hall : ∀ c ∈ name, (c != ':') = true := by
    intro c hc
    exact bne_iff_ne.mpr fun h => hname (h ▸ hc)
  obtain ⟨c, cs, rfl⟩ := exists_cons_of_ne_nil hne
  rw [processLine, if_neg, if_pos (by simp), takeWhile_append_of_pos hall,
    dropWhile_append_of_pos hall]
  · simp
  · rw [cons_append, head?_cons, Option.some.injEq]
    exact bne_iff_ne.mp (hall c mem_cons_self)

end EventStream

end LlmRouter.Lib
