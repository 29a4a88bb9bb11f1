import LlmRouter.Provider.LineReaders

/-!
# LlmRouter — the event stream of bedrock

Bedrock sends binary frames. The adapter does not read them; it looks for JSON objects by their
braces, with `findJSONEnd`. A payload is found whole (`find_payload`), but the other bytes of a
frame may hold a brace too, such as that of the length 123.
-/

namespace LlmRouter.Streams

open Lib Lib.Json Gateway Proxy Utf8 BraceScan List

/-! ## Braces as a JSON reader sees them -/

namespace BraceScan

/-- What `findJSONEnd` keeps of the outline of a JSON reader. -/
def ofOutline (o : Outline) : BraceScan where
  depth := o.kinds.count true
  inString := o.str.isSome
  escaped := o.str = some .esc

theorem ofNat_eq_iff {b : UInt8} (hb : b.toNat < 128) (x : UInt8) (hx : x.toNat < 128) :
    Char.ofNat b.toNat = Char.ofNat x.toNat ↔ b = x := by
  constructor
  · intro h
    have hnat : ∀ n < 128, (Char.ofNat n).toNat = n := by decide
    have htoNat := congrArg Char.toNat h
    rw [hnat _ hb, hnat _ hx] at htoNat
    exact UInt8.toNat_inj.mp htoNat
  · rintro rfl
    rfl

section Ascii

variable {o o' : Outline} {b : UInt8} (hb : b.toNat < 128)

include hb

theorem next_ofOutline_str {st : StrState} (ho : o.str = some st)
    (h : o.next (Char.ofNat b.toNat) = some o') : (ofOutline o).next b = some (ofOutline o') := by
  have hquote : Char.ofNat b.toNat = '"' ↔ b = 34 := ofNat_eq_iff hb 34 (by decide)
  have hslash : Char.ofNat b.toNat = '\\' ↔ b = 92 := ofNat_eq_iff hb 92 (by decide)
  rw [Outline.next, ho] at h
  replace h : (if st = .plain ∧ Char.ofNat b.toNat = '"' then some { o with str := none }
    else (st.next (Char.ofNat b.toNat)).map fun r => { o with str := some r.1 }) = some o' := h
  cases st with
  | esc =>
    rw [if_neg (by simp)] at h
    obtain ⟨⟨st', unit⟩, hst, rfl⟩ := Option.map_eq_some_iff.mp h
    have hne : st' ≠ .esc := by
      rintro rfl
      rw [StrState.next] at hst
      split at hst
      · cases hst
      · obtain ⟨d, -, hd⟩ := Option.map_eq_some_iff.mp hst
        cases hd
    simp [next, ofOutline, ho, hne]
  | plain =>
    by_cases h34 : b = 34
    · rw [if_pos ⟨rfl, hquote.mpr h34⟩] at h
      obtain rfl := Option.some.inj h
      simp [next, ofOutline, ho, h34]
    · have hnot : Char.ofNat b.toNat ≠ '"' := fun h => h34 (hquote.mp h)
      rw [if_neg fun h => hnot h.2] at h
      obtain ⟨⟨st', unit⟩, hst, rfl⟩ := Option.map_eq_some_iff.mp h
      rw [StrState.next, if_neg hnot] at hst
      by_cases h92 : b = 92
      · rw [if_pos (hslash.mpr h92)] at hst
        cases hst
        simp [next, ofOutline, ho, h92]
      · rw [if_neg fun h => h92 (hslash.mp h)] at hst
        split at hst
        · cases hst
        · cases hst
          simp [next, ofOutline, ho, h34, h92]
  | hex left value =>
    rw [if_neg (by simp)] at h
    obtain ⟨⟨st', unit⟩, hst, rfl⟩ := Option.map_eq_some_iff.mp h
    obtain ⟨d, hd, hst⟩ := Option.map_eq_some_iff.mp hst
    have h34 : b ≠ 34 := by
      rintro rfl
      cases hd
    have h92 : b ≠ 92 := by
      rintro rfl
      cases hd
    have hne : st' ≠ .esc := by
      rintro rfl
      cases left <;> cases hst
    simp [next, ofOutline, ho, h34, h92, hne]

theorem next_ofOutline_none (ho : o.str = none) (h : o.next (Char.ofNat b.toNat) = some o') :
    (ofOutline o).next b =
      if b = 125 ∧ o.kinds.count true = 1 then none else some (ofOutline o') := by
  have hquote : Char.ofNat b.toNat = '"' ↔ b = 34 := ofNat_eq_iff hb 34 (by decide)
  have hopen : Char.ofNat b.toNat = '{' ↔ b = 123 := ofNat_eq_iff hb 123 (by decide)
  have hopen' : Char.ofNat b.toNat = '[' ↔ b = 91 := ofNat_eq_iff hb 91 (by decide)
  have hclose : Char.ofNat b.toNat = '}' ↔ b = 125 := ofNat_eq_iff hb 125 (by decide)
  have hclose' : Char.ofNat b.toNat = ']' ↔ b = 93 := ofNat_eq_iff hb 93 (by decide)
  obtain ⟨str, kinds⟩ := o
  obtain rfl : str = none := ho
  simp only [Outline.next, hquote, hopen, hopen', hclose, hclose'] at h
  split_ifs at h with h34 h123 h91 h125 h93
  · obtain rfl := Option.some.inj h
    simp [next, ofOutline, h34]
  · obtain rfl := Option.some.inj h
    simp [next, ofOutline, h123]
  · obtain rfl := Option.some.inj h
    simp [next, ofOutline, h91]
  · obtain ⟨hstr, rfl⟩ := Outline.mk.inj (Outline.pop_eq_some h)
    have hcount : ((o'.kinds.count true + 1 : Nat) : Int) - 1 = o'.kinds.count true := by omega
    rw [count_cons_self]
    simp only [next, ofOutline, h125, count_cons_self, hcount, ← hstr]
    by_cases hzero : o'.kinds.count true = 0 <;> simp [hzero]
  · obtain ⟨hstr, rfl⟩ := Outline.mk.inj (Outline.pop_eq_some h)
    simp [next, ofOutline, h93, ← hstr]
  · obtain rfl := Option.some.inj h
    simp [next, ofOutline, h34, h123, h125]

end Ascii

theorem next_esc_other {st : StrState} {c : Char} (hc : 128 ≤ c.toNat) (hst : st ≠ .plain) :
    st.next c = none := by
  have hne : ∀ d : Char, d.toNat < 128 → c ≠ d := by
    rintro d hd rfl
    omega
  cases st with
  | plain => exact absurd rfl hst
  | esc =>
    have hshort : shortUnescape c = none := by
      rw [shortUnescape, if_neg (hne _ (by decide)), if_neg (hne _ (by decide)),
        if_neg (hne _ (by decide)), if_neg (hne _ (by decide)), if_neg (hne _ (by decide)),
        if_neg (hne _ (by decide)), if_neg (hne _ (by decide)), if_neg (hne _ (by decide))]
    rw [StrState.next, if_neg (hne 'u' (by decide)), hshort]
    rfl
  | hex left value =>
    have hdigit : hexDigit c = none := by
      have hle : ∀ d : Char, d.toNat < 128 → ¬ c ≤ d := by
        intro d hd hcd
        have hval : c.toNat ≤ d.toNat := UInt32.le_iff_toNat_le.mp hcd
        omega
      have hnot : c.isDigit = false := by
        rw [Char.isDigit, Bool.and_eq_false_iff]
        exact .inr (decide_eq_false (hle '9' (by decide)))
      refine if_neg ?_
      simp [hnot, hle]
    rw [StrState.next, hdigit]
    rfl

theorem ofOutline_other {o o' : Outline} {c : Char} (hc : 128 ≤ c.toNat)
    (h : o.next c = some o') :
    o'.kinds = o.kinds ∧ ofOutline o' = ofOutline o ∧ (ofOutline o).escaped = false := by
  have hne : ∀ d : Char, d.toNat < 128 → c ≠ d := by
    rintro d hd rfl
    omega
  obtain ⟨str, kinds⟩ := o
  cases str with
  | none =>
    have hinert : Outline.isInert c = true := by
      simp only [Outline.isInert, Bool.and_eq_true, bne_iff_ne]
      exact ⟨⟨⟨⟨hne _ (by decide), hne _ (by decide)⟩, hne _ (by decide)⟩, hne _ (by decide)⟩,
        hne _ (by decide)⟩
    rw [Outline.next_of_isInert rfl hinert] at h
    obtain rfl := Option.some.inj h
    exact ⟨rfl, rfl, rfl⟩
  | some st =>
    replace h : (if st = .plain ∧ c = '"' then some ⟨none, kinds⟩
      else (st.next c).map fun r => (⟨some r.1, kinds⟩ : Outline)) = some o' := h
    rw [if_neg fun h => hne '"' (by decide) h.2] at h
    by_cases hst : st = .plain
    · subst hst
      rw [StrState.next, if_neg (hne _ (by decide)), if_neg (hne _ (by decide)),
        if_neg (by omega)] at h
      obtain rfl := Option.some.inj h
      exact ⟨rfl, rfl, rfl⟩
    · rw [next_esc_other hc hst] at h
      cases h

theorem next_other {s : BraceScan} {b : UInt8} (hs : s.escaped = false) (hb : 128 ≤ b.toNat) :
    s.next b = some s := by
  have hne : ∀ x : UInt8, x.toNat < 128 → b ≠ x := by
    rintro x hx rfl
    omega
  rw [next, hs, if_neg (by decide), if_neg fun h => hne 92 (by decide) h.1,
    if_neg (hne 34 (by decide)), if_neg (hne 123 (by decide)), if_neg (hne 125 (by decide))]
  exact ite_self _

def run : BraceScan → Bytes → Option BraceScan
  | s, [] => some s
  | s, b :: bs => (s.next b).bind (run · bs)

theorem run_append (s : BraceScan) (a b : Bytes) : s.run (a ++ b) = (s.run a).bind (run · b) := by
  induction a generalizing s with
  | nil => rfl
  | cons x a ih =>
    rw [cons_append, run, run]
    cases s.next x with
    | none => rfl
    | some s' => exact ih s'

theorem run_of_stay {s : BraceScan} {a : Bytes} (ha : ∀ b ∈ a, s.next b = some s) :
    s.run a = some s := by
  induction a with
  | nil => rfl
  | cons b a ih =>
    rw [forall_mem_cons] at ha
    rw [run, ha.1]
    exact ih ha.2

theorem find_append_of_run {s s' : BraceScan} {a : Bytes} (h : s.run a = some s') (bs : Bytes) :
    s.find (a ++ bs) = (s'.find bs).map (· + a.length) := by
  induction a generalizing s with
  | nil =>
    cases h
    simp
  | cons b a ih =>
    obtain ⟨t, hnext, hrest⟩ := Option.bind_eq_some_iff.mp h
    rw [cons_append, find, hnext]
    show (t.find (a ++ bs)).map _ = _
    rw [ih hrest, Option.map_map]
    rfl

end BraceScan

theorem blank_of_decode {bs : Bytes} (h : ∀ c ∈ decode bs, isBlank c = true) : Blank bs := by
  induction bs with
  | nil => exact fun b hb => nomatch hb
  | cons b bs ih =>
    by_cases hb : b.toNat < 128
    · rw [decode_ascii hb, forall_mem_cons] at h
      have hall : ∀ n < 128, isBlank (Char.ofNat n) = true → n = 9 ∨ n = 10 ∨ n = 13 ∨ n = 32 := by
        decide
      have hn := hall b.toNat hb h.1
      have hmem : b ∈ ([9, 10, 13, 32] : Bytes) := by
        simp only [mem_cons, not_mem_nil, or_false, ← UInt8.toNat_inj]
        exact hn
      intro x hx
      rcases mem_cons.mp hx with rfl | hx
      · exact hmem
      · exact ih h.2 x hx
    · obtain ⟨c, a, rest, hc, -, -, hread, -⟩ := decode_other (Nat.le_of_not_lt hb) bs
      rw [hread, forall_mem_cons] at h
      have hsmall : isBlank c = true → c.toNat < 128 := by
        intro hblank
        simp only [isBlank, Bool.or_eq_true, beq_iff_eq] at hblank
        rcases hblank with ((rfl | rfl) | rfl) | rfl <;> decide
      exact absurd (hsmall h.1) (Nat.not_lt.mpr hc)

theorem getLast?_kinds_next {o o' : Outline} {c : Char} (h : o.next c = some o')
    (hbottom : o.kinds.getLast? = some true)
    (hopen : ¬ (o.str = none ∧ c = '}' ∧ o.kinds.count true = 1)) :
    o'.kinds.getLast? = some true := by
  have hcons : ∀ k, ∀ ks : List Bool, ks ≠ [] → (k :: ks).getLast? = ks.getLast? := by
    intro k ks hks
    rw [getLast?_cons_of_ne_nil hks]
  rcases Outline.next_kinds h with hsame | ⟨k, hpush⟩ | ⟨hstr, ⟨rfl, hpop⟩ | ⟨-, hpop⟩⟩
  · rwa [hsame]
  · have hne : o.kinds ≠ [] := by
      intro hnil
      rw [hnil] at hbottom
      cases hbottom
    rwa [hpush, hcons k _ hne]
  · have hne : o'.kinds ≠ [] := by
      intro hnil
      exact hopen ⟨hstr, rfl, by rw [hpop, hnil]; rfl⟩
    rwa [hpop, hcons true _ hne] at hbottom
  · have hne : o'.kinds ≠ [] := by
      intro hnil
      rw [hpop, hnil] at hbottom
      cases hbottom
    rwa [hpop, hcons false _ hne] at hbottom

theorem done_of_close {s s' : Scan} (heffect : s.Effect '}' s') (hstr : s.outline.str = none)
    (hbottom : s.outline.kinds.getLast? = some true) (hcount : s.outline.kinds.count true = 1) :
    ∃ v, s' = ⟨.done v, []⟩ := by
  have hpop : s.outline.pop true = some s'.outline := by
    rw [← heffect.outline, Outline.next, hstr]
    rfl
  have hkinds : s.outline.kinds = true :: s'.outline.kinds := by rw [Outline.pop_eq_some hpop]
  have hnil : s'.outline.kinds = [] := by
    by_contra hne
    rw [hkinds, getLast?_cons_of_ne_nil hne] at hbottom
    rw [hkinds, count_cons_self] at hcount
    have hpos : 0 < s'.outline.kinds.count true :=
      count_pos_iff.mpr (mem_of_getLast? hbottom)
    omega
  obtain ⟨v, stack, rfl⟩ := heffect.closed hstr rfl
  rw [Scan.outline_deliver] at hnil
  obtain rfl : stack = [] := map_eq_nil_iff.mp hnil
  exact ⟨v, rfl⟩

/-- From inside an object, `findJSONEnd` finds the brace that ends it, where a JSON
reader does; blanks may follow. -/
theorem find_object {s : Scan} (hclean : s.Clean) {p : Bytes} {v : Json}
    (hread : s.read (decode p) = some v) (hbottom : s.outline.kinds.getLast? = some true) :
    ∃ obj tail e, p = obj ++ tail ∧ Blank tail ∧ obj.length = e + 1 ∧
      ∀ more, (ofOutline s.outline).find (obj ++ more) = some e := by
  induction hn : p.length using Nat.strongRecOn generalizing p s with
  | ind n ih =>
    subst hn
    cases p with
    | nil =>
      have hopen : s.outline.kinds ≠ [] := by
        intro hnil
        rw [hnil] at hbottom
        cases hbottom
      rw [decode_nil] at hread
      cases (Scan.result_eq_none hclean hopen).symm.trans hread
    | cons b p =>
      by_cases hb : b.toNat < 128
      · rw [decode_ascii hb] at hread
        obtain ⟨s', hstep, hrest⟩ := Option.bind_eq_some_iff.mp hread
        have heffect := Scan.step_effect hclean hstep
        by_cases hclose : s.outline.str = none ∧ b = 125 ∧ s.outline.kinds.count true = 1
        · obtain ⟨hstr, rfl, hcount⟩ := hclose
          obtain ⟨w, rfl⟩ := done_of_close heffect hstr hbottom hcount
          refine ⟨[125], p, 0, rfl, blank_of_decode (Scan.isBlank_of_read_done hrest), rfl, ?_⟩
          intro more
          rw [singleton_append, find,
            next_ofOutline_none hb hstr heffect.outline, if_pos ⟨rfl, hcount⟩]
        · have hchar : Char.ofNat b.toNat = '}' ↔ b = 125 :=
            ofNat_eq_iff hb 125 (by decide)
          have hnext : (ofOutline s.outline).next b =
              some (ofOutline s'.outline) := by
            cases hstr : s.outline.str with
            | none =>
              rw [next_ofOutline_none hb hstr heffect.outline, if_neg fun h => hclose ⟨hstr, h⟩]
            | some st => exact next_ofOutline_str hb hstr heffect.outline
          have hbottom' := getLast?_kinds_next heffect.outline hbottom (by rwa [hchar])
          obtain ⟨obj, tail, e, rfl, htail, hlen, hfind⟩ :=
            ih p.length (Nat.lt_succ_self _) heffect.clean hrest hbottom' rfl
          refine ⟨b :: obj, tail, e + 1, rfl, htail, by rw [length_cons, hlen], ?_⟩
          intro more
          rw [cons_append, find, hnext]
          show ((ofOutline s'.outline).find (obj ++ more)).map _ = _
          rw [hfind more]
          rfl
      · have hb := Nat.le_of_not_lt hb
        obtain ⟨c, a, rest, hc, rfl, ha, hdecode, -⟩ := decode_other hb p
        rw [hdecode] at hread
        obtain ⟨s', hstep, hrest⟩ := Option.bind_eq_some_iff.mp hread
        have heffect := Scan.step_effect hclean hstep
        obtain ⟨hkinds, hsame, hesc⟩ := ofOutline_other hc heffect.outline
        have hlt : rest.length < (b :: (a ++ rest)).length := by
          simp only [length_cons, length_append]
          omega
        obtain ⟨obj, tail, e, rfl, htail, hlen, hfind⟩ :=
          ih rest.length hlt heffect.clean hrest (by rwa [hkinds]) rfl
        have hstay : ∀ x ∈ b :: a, (ofOutline s.outline).next x =
            some (ofOutline s.outline) := by
          rw [forall_mem_cons]
          exact ⟨next_other hesc hb, fun x hx => next_other hesc (ha x hx)⟩
        refine ⟨b :: a ++ obj, tail, e + (b :: a).length, by simp, htail, ?_, ?_⟩
        · rw [length_append, hlen]
          omega
        · intro more
          rw [append_assoc, find_append_of_run (run_of_stay hstay), ← hsame, hfind more]
          rfl

/-! ## Frames -/

def be32 (n : Nat) : Bytes :=
  [.ofNat (n / 2 ^ 24), .ofNat (n / 2 ^ 16), .ofNat (n / 2 ^ 8), .ofNat n]

structure EventFrame where
  preludeCRC : Bytes
  headers : Bytes
  payload : Bytes
  crc : Bytes
  event : ConverseStreamEvent
  length_preludeCRC : preludeCRC.length = 4
  length_crc : crc.length = 4
  length_lt : 16 + headers.length + payload.length < 2 ^ 32
  brace : payload.head? = some 123
  object : ∃ fs, parse (decode payload) = some (.obj fs) ∧ converseStreamEvent fs = some event

namespace EventFrame

variable (f : EventFrame)

def head : Bytes :=
  be32 (16 + f.headers.length + f.payload.length) ++ be32 f.headers.length ++ f.preludeCRC ++
    f.headers

def bytes : Bytes := f.head ++ (f.payload ++ f.crc)

def chunks : List StreamChunk := f.event.chunks

def Outside (b : UInt8) : Prop := b ∈ f.head ∨ b ∈ f.crc

instance (f : EventFrame) (b : UInt8) : Decidable (f.Outside b) :=
  inferInstanceAs (Decidable (_ ∨ _))

theorem unmarshal_payload :
    unmarshal (Encoding.decodeStruct converseStreamEvent) f.payload = some f.event := by
  obtain ⟨fs, hparse, hevent⟩ := f.object
  rw [unmarshal, hparse]
  exact hevent

theorem find_payload :
    ∃ obj tail e, f.payload = 123 :: obj ++ tail ∧ Blank tail ∧ obj.length = e + 1 ∧
      ∀ more, find { depth := 1 } (obj ++ more) = some e := by
  obtain ⟨fs, hparse, -⟩ := f.object
  obtain ⟨rest, hpayload⟩ : ∃ rest, f.payload = 123 :: rest :=
    ⟨_, eq_cons_of_mem_head? f.brace⟩
  rw [hpayload, decode_ascii (by decide)] at hparse
  obtain ⟨obj, tail, e, rfl, htail, hlen, hfind⟩ :
      ∃ obj tail e, rest = obj ++ tail ∧ Blank tail ∧ obj.length = e + 1 ∧
        ∀ more, (ofOutline ⟨none, [true]⟩).find (obj ++ more) = some e :=
    find_object (s := ⟨.key, [.obj [] ""]⟩) trivial hparse rfl
  exact ⟨obj, tail, e, hpayload, htail, hlen, hfind⟩

end EventFrame

theorem fromBrace_eq_nil {buf : Bytes} (h : 123 ∉ buf) : fromBrace buf = [] := by
  rw [fromBrace, dropWhile_eq_nil_iff]
  intro b hb
  exact bne_iff_ne.mpr fun heq => h (heq ▸ hb)

theorem fromBrace_cons (buf : Bytes) : fromBrace (123 :: buf) = 123 :: buf := rfl

theorem Blank.no_brace {bs : Bytes} (h : Blank bs) : 123 ∉ bs := fun hmem =>
  absurd (h 123 hmem) (by decide)

theorem parse_frame (f : EventFrame) (hhead : 123 ∉ f.head) (rest : Bytes) :
    (parseBedrockStreamChunks.parse (f.head ++ (f.payload ++ rest))).1 =
      f.chunks ++ (parseBedrockStreamChunks.parse rest).1 := by
  obtain ⟨obj, tail, e, hpayload, htail, hlen, hfind⟩ := f.find_payload
  have hcut : bedrockCut (f.payload ++ rest) =
      .item (bedrockChunks (123 :: obj)) (tail ++ rest) := by
    have hend : findJSONEnd (fromBrace (f.payload ++ rest)) = some (e + 1) := by
      rw [hpayload, cons_append, cons_append, fromBrace_cons, findJSONEnd, find, append_assoc]
      show (find { depth := 1 } (obj ++ (tail ++ rest))).map _ = _
      rw [hfind]
      rfl
    rw [bedrockCut_of_find hend, hpayload, cons_append, cons_append, fromBrace_cons,
      append_assoc, take_succ_cons, drop_succ_cons, ← hlen, take_left,
      drop_left]
  have hchunks : bedrockChunks (123 :: obj) = f.chunks := by
    have hblanks := unmarshal_blanks (Encoding.decodeStruct converseStreamEvent) (l := [])
      (by decide) htail (123 :: obj)
    rw [nil_append, ← hpayload, f.unmarshal_payload] at hblanks
    rw [bedrockChunks, ← hblanks]
    rfl
  rw [parseBedrock_skip (fromBrace_eq_nil hhead), Cutter.parse_item hcut, hchunks,
    parseBedrock_skip (fromBrace_eq_nil htail.no_brace)]

/-! ## A brace that is not closed -/

namespace BraceScan

variable {s : BraceScan}

theorem find_eq_none_of_run {s' : BraceScan} {bs : Bytes} (h : s.run bs = some s') :
    s.find bs = none := by
  rw [← append_nil bs, find_append_of_run h]
  rfl

theorem run_gap {bs : Bytes} (hclose : 125 ∉ bs) (hquote : 34 ∉ bs) (d : Int) :
    run { depth := d } bs = some { depth := d + bs.count 123 } := by
  induction bs generalizing d with
  | nil => simp [run]
  | cons b bs ih =>
    rw [mem_cons, not_or] at hclose hquote
    by_cases hopen : b = 123
    · have hnext : next { depth := d } b = some { depth := d + 1 } := by simp [next, hopen]
      rw [run, hnext, Option.bind_some, ih hclose.2 hquote.2, hopen, count_cons_self,
        Int.natCast_succ, Int.add_assoc, Int.add_comm 1]
    · have hnext : next { depth := d } b = some { depth := d } := by
        simp [next, hopen, Ne.symm hclose.1, Ne.symm hquote.1]
      rw [run, hnext, Option.bind_some, ih hclose.2 hquote.2, count_cons_of_ne hopen]

def raise (s : BraceScan) (k : Int) : BraceScan := { s with depth := s.depth + k }

theorem next_raise_none {b : UInt8} (h : s.next b = none) {k : Int} (hk : 1 ≤ k) :
    (s.raise k).next b = some { depth := k } := by
  obtain ⟨depth, inString, escaped⟩ := s
  unfold next at h
  split_ifs at h with hesc hslash hquote hstr hopen hclose hend
  obtain rfl : escaped = false := by simpa using hesc
  obtain rfl : inString = false := by simpa using hstr
  obtain rfl : depth = 1 := by
    have : depth - 1 = 0 := hend
    omega
  have hne : k ≠ 0 := by omega
  have heq : (1 : Int) + k - 1 = k := by omega
  simp [next, raise, hclose, hne, heq]

theorem next_raise_some {s' : BraceScan} {b : UInt8} (hdepth : 1 ≤ s.depth) (h : s.next b = some s')
    {k : Int} (hk : 1 ≤ k) : (s.raise k).next b = some (s'.raise k) ∧ 1 ≤ s'.depth := by
  obtain ⟨depth, inString, escaped⟩ := s
  replace hdepth : 1 ≤ depth := hdepth
  unfold next at h
  split_ifs at h with hesc hslash hquote hstr hopen hclose hend
  · obtain rfl := Option.some.inj h
    exact ⟨by simp_all [next, raise], hdepth⟩
  · obtain rfl := Option.some.inj h
    exact ⟨by simp_all [next, raise], hdepth⟩
  · obtain rfl := Option.some.inj h
    exact ⟨by simp_all [next, raise], hdepth⟩
  · obtain rfl := Option.some.inj h
    exact ⟨by simp_all [next, raise], hdepth⟩
  · obtain rfl := Option.some.inj h
    refine ⟨?_, by show 1 ≤ depth + 1; omega⟩
    have heq : depth + k + 1 = depth + 1 + k := by omega
    simp_all [next, raise]
  · obtain rfl := Option.some.inj h
    replace hend : ¬ depth - 1 = 0 := hend
    refine ⟨?_, by show 1 ≤ depth - 1; omega⟩
    have hne : ¬ depth + k - 1 = 0 := by omega
    have heq : depth + k - 1 = depth - 1 + k := by omega
    simp_all [next, raise]
  · obtain rfl := Option.some.inj h
    exact ⟨by simp_all [next, raise], hdepth⟩

theorem run_object {obj : Bytes} {e : Nat} (hdepth : 1 ≤ s.depth) (hfind : s.find obj = some e)
    (hlen : obj.length = e + 1) {k : Int} (hk : 1 ≤ k) :
    (s.raise k).run obj = some { depth := k } := by
  induction obj generalizing s e with
  | nil => cases hfind
  | cons b obj ih =>
    rw [find] at hfind
    cases hnext : s.next b with
    | none =>
      rw [hnext] at hfind
      obtain rfl := Option.some.inj hfind
      obtain rfl : obj = [] := length_eq_zero_iff.mp (Nat.succ.inj hlen)
      rw [run, next_raise_none hnext hk]
      rfl
    | some s' =>
      rw [hnext] at hfind
      obtain ⟨i, hi, rfl⟩ := Option.map_eq_some_iff.mp hfind
      obtain ⟨hraise, hdepth'⟩ := next_raise_some hdepth hnext hk
      rw [run, hraise]
      exact ih hdepth' hi (Nat.succ.inj hlen)

end BraceScan

theorem EventFrame.run_payload (f : EventFrame) {d : Int} (hd : 1 ≤ d) :
    run { depth := d } f.payload = some { depth := d } := by
  obtain ⟨obj, tail, e, hpayload, htail, hlen, hfind⟩ := f.find_payload
  have hobj : find { depth := 1 } obj = some e := by
    rw [← append_nil obj]
    exact hfind []
  have hnext : next { depth := d } 123 = some (raise { depth := 1 } d) := by
    simp [BraceScan.next, raise, Int.add_comm]
  rw [hpayload, cons_append, run, hnext, Option.bind_some, run_append,
    run_object (Int.le_refl 1) hobj hlen hd, Option.bind_some,
    run_gap (fun h => absurd (htail _ h) (by decide))
      (fun h => absurd (htail _ h) (by decide)), count_eq_zero.mpr htail.no_brace]
  simp

/-- Neither a closing brace nor a quote stands outside of the payload. -/
def EventFrame.Unclosed (f : EventFrame) : Prop := ¬ f.Outside 125 ∧ ¬ f.Outside 34

instance (f : EventFrame) : Decidable f.Unclosed := inferInstanceAs (Decidable (_ ∧ _))

theorem run_frames {fs : List EventFrame} (hfs : ∀ f ∈ fs, f.Unclosed) {d : Int} (hd : 1 ≤ d) :
    ∃ d', run { depth := d } (fs.flatMap EventFrame.bytes) = some { depth := d' } := by
  induction fs generalizing d with
  | nil => exact ⟨d, rfl⟩
  | cons f fs ih =>
    rw [forall_mem_cons] at hfs
    obtain ⟨⟨hclose, hquote⟩, hrest⟩ := hfs
    rw [EventFrame.Outside, not_or] at hclose hquote
    obtain ⟨d', hd'⟩ := ih hrest (d := d + f.head.count 123 + f.crc.count 123) (by omega)
    refine ⟨d', ?_⟩
    rw [flatMap_cons, EventFrame.bytes, run_append, run_append,
      run_gap hclose.1 hquote.1, Option.bind_some, run_append,
      f.run_payload (by omega), Option.bind_some, run_gap hclose.2 hquote.2,
      Option.bind_some, hd']

theorem parse_stray {gap rest : Bytes} (hopen : 123 ∈ gap) (hclose : 125 ∉ gap) (hquote : 34 ∉ gap)
    (hrest : ∀ d, 1 ≤ d → ∃ d', run { depth := d } rest = some { depth := d' }) :
    (parseBedrockStreamChunks.parse (gap ++ rest)).1 = [] := by
  obtain ⟨before, after, rfl, hbefore⟩ := eq_append_cons_of_mem hopen
  have hafter : 125 ∉ after ∧ 34 ∉ after :=
    ⟨fun h => hclose (by simp [h]), fun h => hquote (by simp [h])⟩
  have hfrom : fromBrace (before ++ 123 :: after ++ rest) = 123 :: (after ++ rest) := by
    rw [append_assoc, fromBrace_append_of_eq (fromBrace_eq_nil hbefore), cons_append,
      fromBrace_cons]
  have hend : findJSONEnd (fromBrace (before ++ 123 :: after ++ rest)) = none := by
    obtain ⟨d', hd'⟩ := hrest (1 + after.count 123) (by omega)
    have hrun : run { depth := 1 } (after ++ rest) = some { depth := d' } := by
      rw [run_append, run_gap hafter.1 hafter.2, Option.bind_some, hd']
    rw [hfrom, findJSONEnd, find]
    show (find { depth := 1 } (after ++ rest)).map _ = none
    rw [find_eq_none_of_run hrun]
    rfl
  have hcut : bedrockCut (before ++ 123 :: after ++ rest) =
      .wait (before ++ 123 :: after ++ rest) := by
    rw [bedrockCut, hend, if_neg (by rw [hfrom]; exact cons_ne_nil _ _)]
  rw [Cutter.parse_wait hcut]

/-! ## Which frames are lost -/

def fromStray : List EventFrame → List EventFrame
  | [] => []
  | f :: fs => if f.Outside 123 then f :: fs else fromStray fs

/-- The frames whose payload comes after such a brace. -/
def lost : List EventFrame → List EventFrame
  | [] => []
  | f :: fs => if 123 ∈ f.head then f :: fs else if 123 ∈ f.crc then fs else lost fs

variable {frames : List EventFrame}

theorem parse_frames (h : ∀ f ∈ fromStray frames, f.Unclosed) :
    (parseBedrockStreamChunks.parse (frames.flatMap EventFrame.bytes)).1 ++
        (lost frames).flatMap EventFrame.chunks =
      frames.flatMap EventFrame.chunks := by
  induction frames with
  | nil => rfl
  | cons f fs ih =>
    rw [lost, flatMap_cons, flatMap_cons, EventFrame.bytes, append_assoc, append_assoc]
    by_cases hhead : 123 ∈ f.head
    · rw [fromStray, if_pos (.inl hhead), forall_mem_cons] at h
      obtain ⟨⟨hclose, hquote⟩, hrest⟩ := h
      rw [EventFrame.Outside, not_or] at hclose hquote
      have hswallow : ∀ d, 1 ≤ d → ∃ d', run { depth := d }
          (f.payload ++ (f.crc ++ fs.flatMap EventFrame.bytes)) = some { depth := d' } := by
        intro d hd
        obtain ⟨d', hd'⟩ := run_frames hrest (d := d + f.crc.count 123) (by omega)
        refine ⟨d', ?_⟩
        rw [run_append, f.run_payload hd, Option.bind_some, run_append,
          run_gap hclose.2 hquote.2, Option.bind_some, hd']
      rw [if_pos hhead, parse_stray hhead hclose.1 hquote.1 hswallow, nil_append, flatMap_cons]
    · rw [if_neg hhead, parse_frame f hhead, append_assoc]
      congr 1
      by_cases hcrc : 123 ∈ f.crc
      · rw [fromStray, if_pos (.inr hcrc), forall_mem_cons] at h
        obtain ⟨⟨hclose, hquote⟩, hrest⟩ := h
        rw [EventFrame.Outside, not_or] at hclose hquote
        rw [if_pos hcrc, parse_stray hcrc hclose.2 hquote.2 fun d hd => run_frames hrest hd,
          nil_append]
      · have hnot : ¬ f.Outside 123 := not_or.mpr ⟨hhead, hcrc⟩
        rw [fromStray, if_neg hnot] at h
        rw [if_neg hcrc, parseBedrock_skip (fromBrace_eq_nil hcrc), ih h]

theorem lost_eq_nil (h : ∀ f ∈ frames, ¬ f.Outside 123) :
    fromStray frames = [] ∧ lost frames = [] := by
  induction frames with
  | nil => exact ⟨rfl, rfl⟩
  | cons f fs ih =>
    rw [forall_mem_cons] at h
    have hout := h.1
    rw [EventFrame.Outside, not_or] at hout
    rw [fromStray, if_neg h.1, lost, if_neg hout.1, if_neg hout.2]
    exact ih h.2

/-- The reader sends the chunks of all payloads in order, for any sizes of the
reads. -/
def AllSent (toLower : String → String) (frames : List EventFrame) : Prop :=
  ∀ reads : List Bytes, reads.flatten = frames.flatMap EventFrame.bytes →
    Reader.stream toLower .bedrock reads = frames.flatMap EventFrame.chunks

theorem allSent_iff (toLower : String → String) (h : ∀ f ∈ fromStray frames, f.Unclosed) :
    AllSent toLower frames ↔ ∀ f ∈ lost frames, f.chunks = [] := by
  have hparse := parse_frames h
  have hstream : ∀ reads : List Bytes, reads.flatten = frames.flatMap EventFrame.bytes →
      Reader.stream toLower .bedrock reads =
        (parseBedrockStreamChunks.parse (frames.flatMap EventFrame.bytes)).1 := by
    intro reads hreads
    rw [Reader.stream_eq, hreads]
    rfl
  rw [← flatMap_eq_nil_iff]
  constructor
  · intro hall
    have hsent := hall [frames.flatMap EventFrame.bytes] (flatten_singleton ..)
    rw [hstream _ (flatten_singleton ..), ← hparse] at hsent
    exact self_eq_append_right.mp hsent
  · intro hnil reads hreads
    rw [hstream reads hreads, ← hparse, hnil, append_nil]

/-- **Frames of bedrock.** If no byte of the lengths, checksums and headers is an opening brace, the
chunks of all payloads are sent in order. If from the first such brace on these bytes hold no
closing brace and no quote, that is so iff no payload behind the brace has a chunk. -/
theorem bedrock_frames_iff (toLower : String → String) (frames : List EventFrame) :
    ((∀ f ∈ frames, ¬ f.Outside 123) → AllSent toLower frames) ∧
      ((∀ f ∈ fromStray frames, f.Unclosed) →
        (AllSent toLower frames ↔ ∀ f ∈ lost frames, f.chunks = [])) := by
  refine ⟨fun hstray => ?_, allSent_iff toLower⟩
  obtain ⟨hfrom, hlost⟩ := lost_eq_nil hstray
  refine (allSent_iff toLower ?_).mpr ?_
  · rw [hfrom]
    exact fun f hf => nomatch hf
  · rw [hlost]
    exact fun f hf => nomatch hf

def deltaEvent (text : String) : Json :=
  .obj [("contentBlockDelta",
    .obj [("delta", .obj [("text", .str text)]), ("contentBlockIndex", .ofInt 0)])]

def textFrame (n : Fin 256) : EventFrame where
  preludeCRC := [0, 0, 0, 0]
  headers := replicate n 0
  payload := marshal (deltaEvent "Hi")
  crc := [0, 0, 0, 0]
  event := { contentBlockDelta := some "Hi" }
  length_preludeCRC := rfl
  length_crc := rfl
  length_lt := by
    have hlen : (marshal (deltaEvent "Hi")).length = 67 := by decide
    rw [length_replicate, hlen]
    have := n.isLt
    omega
  brace := by decide
  object := by
    have hvalid : (deltaEvent "Hi").Valid := by
      simp [deltaEvent, Json.Valid, ValidFields, valid_ofInt]
    rw [marshal, decode_encode, parse_render hvalid]
    exact ⟨_, rfl, rfl⟩

theorem bedrock_frames_two :
    AllSent id [textFrame 10, textFrame 20] :=
  (bedrock_frames_iff id _).1 (by decide)

/-- A frame of 123 bytes, whose length is written with an opening brace: neither its
payload nor the next is sent. -/
theorem frame_of_length_123 :
    (textFrame 40).bytes.length = 123 ∧
      Reader.stream id .bedrock [(textFrame 40).bytes ++ (textFrame 10).bytes] = [] ∧
      [textFrame 40, textFrame 10].flatMap EventFrame.chunks =
        [{ delta := "Hi" }, { delta := "Hi" }] := by
  have hstray : fromStray [textFrame 40, textFrame 10] = [textFrame 40, textFrame 10] :=
    if_pos (by decide)
  have hlost : lost [textFrame 40, textFrame 10] = [textFrame 40, textFrame 10] :=
    if_pos (by decide)
  have hopen : ∀ f ∈ fromStray [textFrame 40, textFrame 10], f.Unclosed := by
    rw [hstray]
    decide
  have hsent := parse_frames hopen
  rw [hlost] at hsent
  refine ⟨by decide, ?_, rfl⟩
  rw [Reader.stream_eq, flatten_singleton]
  exact append_left_eq_self.mp hsent

end LlmRouter.Streams
