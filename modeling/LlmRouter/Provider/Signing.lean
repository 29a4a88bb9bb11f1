import Mathlib.Data.List.Sort
import LlmRouter.Lib.Percent
import LlmRouter.Lib.Text

/-!
# LlmRouter — the canonical request of Signature Version 4

`signRequest` of the Bedrock adapter takes the path as `EscapedPath` writes it and the query as
`Values.Encode` does. The specification has every byte of a path segment escaped but letters,
digits and `-._~`; `EscapedPath` leaves `:` alone, and every model that the adapter lists has one.

Delimiters are given by their bytes: 35 is `#`, 38 `&`, 43 `+`, 45 `-`, 47 `/`, 58 `:`, 59 `;`, 61
`=` and 63 `?`.
-/

namespace LlmRouter.Bedrock

open Lib Lib.Percent List
open Lib.Utf8 (bytes)

/-! ## net/url -/

def unreserved (b : UInt8) : Bool :=
  (48 ≤ b && b ≤ 57) || (65 ≤ b && b ≤ 90) || (97 ≤ b && b ≤ 122) || (bytes "-._~").contains b

/-- The bytes that `escape` leaves alone in a path: not `shouldEscape(c, encodePath)`. -/
def keepPath (b : UInt8) : Bool := unreserved b || (bytes "$&+,/:;=@").contains b

def validEncoded (s : Bytes) : Bool :=
  s.all fun b => keepPath b || (bytes "!'()*[]%").contains b

def cut (sep : UInt8) (s : Bytes) : Bytes × Bytes :=
  (s.takeWhile (· != sep), (s.dropWhile (· != sep)).drop 1)

structure URL where
  host : Bytes
  path : Bytes
  rawPath : Bytes
  rawQuery : Bytes
deriving DecidableEq

/-- What the requests go through: the host of an authority, the host as it is sent, and
`strings.TrimSpace`. -/
structure Net where
  parseAuthority : Bytes → Option Bytes
  wireHost : Bytes → Bytes
  trimSpace : Bytes → Bytes

def pathText (text : Bytes) : Bytes := (cut 63 (cut 35 text).1).1.dropWhile (· != 47)

def queryText (text : Bytes) : Bytes := (cut 63 (cut 35 text).1).2

variable (net : Net)

/-- `url.Parse` of `https://` and `text`. -/
def parse (text : Bytes) : Option URL := do
  -- a fragment is not sent, but has to be well-formed
  let _ ← decode (cut 35 text).2
  guard ((cut 35 text).1.all fun b => 32 ≤ b && b != 127)
  let host ← net.parseAuthority ((cut 63 (cut 35 text).1).1.takeWhile (· != 47))
  let path ← decode (pathText text)
  return {
    host
    path
    -- `setPath` keeps the text only where `escape` would write another
    rawPath := if pathText text = encode keepPath path then [] else pathText text
    rawQuery := queryText text }

/-- `EscapedPath`: the text of the path, unless it has a byte that must not stand there. -/
def URL.escapedPath (u : URL) : Bytes :=
  if u.rawPath ≠ [] ∧ validEncoded u.rawPath ∧ decode u.rawPath = some u.path then u.rawPath
  else if u.path = bytes "*" then bytes "*"
  else encode keepPath u.path

def URL.sentPath (u : URL) : Bytes := if u.escapedPath = [] then [47] else u.escapedPath

def queryUnescape (s : Bytes) : Option Bytes := decode (s.map fun b => if b = 43 then 32 else b)

def queryEscape (s : Bytes) : Bytes :=
  s.flatMap fun b => if b = 32 then [43] else encodeByte unreserved b

def parsePiece (piece : Bytes) : Option (Bytes × Bytes) := do
  guard (piece ≠ [] ∧ 59 ∉ piece)
  let key ← queryUnescape (cut 61 piece).1
  let value ← queryUnescape (cut 61 piece).2
  return (key, value)

/-- `URL.Query`: the pairs of the query; pieces with a `;` or a bad escape are dropped. -/
def parseQuery (query : Bytes) : List (Bytes × Bytes) := (query.splitOn 38).filterMap parsePiece

/-- `name=value`, joined by `&`. -/
def joinPairs (pairs : List (Bytes × Bytes)) : Bytes :=
  [38].intercalate (pairs.map fun p => p.1 ++ 61 :: p.2)

def encodeValues (pairs : List (Bytes × Bytes)) : Bytes :=
  joinPairs ((pairs.insertionSort fun p q => p.1 ≤ q.1).map
    fun p => (queryEscape p.1, queryEscape p.2))

/-! ## net/http -/

def canonicalHeaderKey (upper : Bool) : Bytes → Bytes
  | [] => []
  | b :: bs =>
    (if upper ∧ 97 ≤ b ∧ b ≤ 122 then b - 32
      else if ¬ upper ∧ 65 ≤ b ∧ b ≤ 90 then b + 32 else b) :: canonicalHeaderKey (b = 45) bs

abbrev Header := List (Bytes × Bytes)

def Header.set (h : Header) (key value : Bytes) : Header :=
  (canonicalHeaderKey true key, value) :: h.filter (·.1 ≠ canonicalHeaderKey true key)

def Header.get (h : Header) (key : Bytes) : Bytes :=
  (h.lookup (canonicalHeaderKey true key)).getD []

structure Request where
  method : Bytes
  url : URL
  host : Bytes
  header : Header
deriving DecidableEq

structure Sent where
  method : Bytes
  path : Bytes
  query : Bytes
  header : Header
  body : Bytes

def Request.send (r : Request) (body : Bytes) : Sent where
  method := r.method
  path := r.url.sentPath
  query := r.url.rawQuery
  header := (bytes "Host", net.wireHost r.host) :: r.header
  body

/-! ## The adapter -/

structure Crypto where
  hashHex : Bytes → Bytes
  hmacBytes : Bytes → Bytes → Bytes
  hex : Bytes → Bytes

structure AuthConfig where
  accessKeyID : Bytes
  secretAccessKey : Bytes
  sessionToken : Bytes

structure Now where
  dateTime : Bytes
  date : Bytes

inductive Call where
  | chatCompletion
  | chatCompletionStream

def Call.suffix : Call → Bytes
  | chatCompletion => bytes "/converse"
  | chatCompletionStream => bytes "/converse-stream"

/-- The text of the URL after `https://`. -/
def Call.url (call : Call) (base model : Bytes) : Bytes :=
  base ++ bytes "/model/" ++ model ++ call.suffix

def requestFor (url : URL) : Request where
  method := bytes "POST"
  url
  host := url.host
  header := Header.set [] (bytes "Content-Type") (bytes "application/json")

def newRequest (call : Call) (base model : Bytes) : Option Request :=
  (parse net (call.url base model)).map requestFor

def lines (ls : List Bytes) : Bytes := [10].intercalate ls

def headersToSign (sessionToken : Bytes) : List Bytes :=
  ([bytes "content-type", bytes "host", bytes "x-amz-content-sha256", bytes "x-amz-date"] ++
    if sessionToken ≠ [] then [bytes "x-amz-security-token"] else []).insertionSort (· ≤ ·)

def buildCanonicalHeaders (r : Request) (names : List Bytes) : Bytes :=
  names.flatMap fun h =>
    let val :=
      if h = bytes "host" then if r.host = [] then r.url.host else r.host
      else net.trimSpace (r.header.get h)
    h ++ 58 :: val ++ [10]

variable (c : Crypto) (auth : AuthConfig) (now : Now)

def setHeaders (body : Bytes) (h : Header) : Header :=
  let h := h.set (bytes "X-Amz-Date") now.dateTime
  let h := if auth.sessionToken ≠ [] then h.set (bytes "X-Amz-Security-Token") auth.sessionToken
    else h
  h.set (bytes "X-Amz-Content-Sha256") (c.hashHex body)

def canonicalRequest (c : Crypto) (auth : AuthConfig) (body : Bytes) (r : Request) : Bytes :=
  lines [r.method, r.url.sentPath, encodeValues (parseQuery r.url.rawQuery),
    buildCanonicalHeaders net r (headersToSign auth.sessionToken),
    [59].intercalate (headersToSign auth.sessionToken), c.hashHex body]

def credentialScope (now : Now) (region service : Bytes) : Bytes :=
  [47].intercalate [now.date, region, service, bytes "aws4_request"]

def buildSigningKey (c : Crypto) (secretKey : Bytes) (now : Now) (region service : Bytes) :
    Bytes :=
  let kDate := c.hmacBytes (bytes "AWS4" ++ secretKey) now.date
  let kRegion := c.hmacBytes kDate region
  let kService := c.hmacBytes kRegion service
  c.hmacBytes kService (bytes "aws4_request")

def signature (region service request : Bytes) : Bytes :=
  c.hex (c.hmacBytes (buildSigningKey c auth.secretAccessKey now region service)
    (lines [bytes "AWS4-HMAC-SHA256", now.dateTime, credentialScope now region service,
      c.hashHex request]))

def Request.prepare (body : Bytes) (r : Request) : Request :=
  { r with header := setHeaders c auth now body r.header }

def signRequest (region service : Bytes) (body : Bytes) (r : Request) : Request :=
  let r := r.prepare c auth now body
  let request := canonicalRequest net c auth body r
  let authorization := bytes "AWS4-HMAC-SHA256 Credential=" ++ auth.accessKeyID ++
    47 :: credentialScope now region service ++ bytes ", SignedHeaders=" ++
    [59].intercalate (headersToSign auth.sessionToken) ++ bytes ", Signature=" ++
    signature c auth now region service request
  { r with header := r.header.set (bytes "Authorization") authorization }

/-! ## The specification -/

/-- Everything but the unreserved bytes is escaped. Dot and empty segments are not removed here. -/
def canonicalURI (path : Bytes) : Bytes := encode (fun b => unreserved b || b == 47) path

def Plain (path : Bytes) : Prop := ∀ b ∈ path, (unreserved b || b == 47) = true

instance (path : Bytes) : Decidable (Plain path) :=
  inferInstanceAs (Decidable (∀ b ∈ path, _))

theorem canonicalURI_eq_self_iff (path : Bytes) : canonicalURI path = path ↔ Plain path :=
  encode_eq_self_iff

/-- A name or value of a query, with its escapes undone if they are well-formed. -/
def uriDecode (s : Bytes) : Bytes := (decode s).getD s

def pieces (query : Bytes) : List Bytes := (query.splitOn 38).filter (· ≠ [])

def decoded (piece : Bytes) : Bytes × Bytes :=
  (uriDecode (cut 61 piece).1, uriDecode (cut 61 piece).2)

def escaped (p : Bytes × Bytes) : Bytes × Bytes := (encode unreserved p.1, encode unreserved p.2)

/-- By name, then by value. -/
def PairLe (p q : Bytes × Bytes) : Prop := p.1 < q.1 ∨ p.1 = q.1 ∧ p.2 ≤ q.2

instance : DecidableRel PairLe := fun p q =>
  inferInstanceAs (Decidable (p.1 < q.1 ∨ p.1 = q.1 ∧ p.2 ≤ q.2))

/-- Names and values are escaped, then sorted by name and value. -/
def canonicalQueryString (query : Bytes) : Bytes :=
  joinPairs (((pieces query).map fun piece => escaped (decoded piece)).insertionSort PairLe)

def lowercase (name : Bytes) : Bytes := name.map fun b => if 65 ≤ b ∧ b ≤ 90 then b + 32 else b

/-- The signed headers of a request, by their names in lower case and with trimmed values. -/
def signedHeaders (header : Header) (names : List Bytes) : Header :=
  ((header.map fun h => (lowercase h.1, net.trimSpace h.2)).filter fun h =>
    names.contains h.1).insertionSort fun h k => h.1 ≤ k.1

def headerLine (h : Bytes × Bytes) : Bytes := h.1 ++ 58 :: h.2 ++ [10]

def specified (c : Crypto) (sent : Sent) (names : List Bytes) : Bytes :=
  let signed := signedHeaders net sent.header names
  lines [sent.method, canonicalURI sent.path, canonicalQueryString sent.query,
    signed.flatMap headerLine,
    [59].intercalate (signed.map (·.1)), c.hashHex sent.body]

/-! ## No line break within a line -/

theorem newline_not_mem_encode {keep : UInt8 → Bool} (hkeep : keep 10 = false) (bs : Bytes) :
    (10 : UInt8) ∉ encode keep bs := by
  intro h
  rcases mem_of_mem_encode h with h | h
  · rw [hkeep] at h
    cases h
  · revert h
    decide

theorem newline_not_mem_canonicalURI (path : Bytes) : (10 : UInt8) ∉ canonicalURI path :=
  newline_not_mem_encode (by decide) path

theorem newline_not_mem_joinPairs {pairs : List (Bytes × Bytes)}
    (h : ∀ p ∈ pairs, (10 : UInt8) ∉ p.1 ∧ (10 : UInt8) ∉ p.2) :
    (10 : UInt8) ∉ joinPairs pairs := by
  induction pairs with
  | nil => exact not_mem_nil
  | cons p pairs ih =>
    have hp := h p mem_cons_self
    have hfirst : (10 : UInt8) ∉ p.1 ++ 61 :: p.2 := by
      simp [hp]
    cases pairs with
    | nil =>
      rw [joinPairs]
      simpa [intercalate] using hfirst
    | cons q pairs =>
      have hrest := ih fun p' hp' => h p' (mem_cons_of_mem _ hp')
      have hjoin : joinPairs (p :: q :: pairs) =
          (p.1 ++ 61 :: p.2) ++ 38 :: joinPairs (q :: pairs) := by
        simp [joinPairs, intercalate]
      rw [hjoin, mem_append, mem_cons]
      rintro (h | h | h)
      · exact hfirst h
      · cases h
      · exact hrest h

theorem newline_not_mem_queryEscape (s : Bytes) : (10 : UInt8) ∉ queryEscape s := by
  intro h
  obtain ⟨b, -, hb⟩ := mem_flatMap.mp h
  split_ifs at hb
  · revert hb
    decide
  · refine newline_not_mem_encode (by decide : unreserved 10 = false) [b] ?_
    -- one byte is encoded as the text of this byte
    simpa [encode] using hb

theorem newline_not_mem_encodeValues (pairs : List (Bytes × Bytes)) :
    (10 : UInt8) ∉ encodeValues pairs := by
  refine newline_not_mem_joinPairs fun p hp => ?_
  obtain ⟨q, -, rfl⟩ := mem_map.mp hp
  exact ⟨newline_not_mem_queryEscape _, newline_not_mem_queryEscape _⟩

theorem newline_not_mem_canonicalQueryString (query : Bytes) :
    (10 : UInt8) ∉ canonicalQueryString query := by
  refine newline_not_mem_joinPairs fun p hp => ?_
  rw [mem_insertionSort] at hp
  obtain ⟨piece, -, rfl⟩ := mem_map.mp hp
  exact ⟨newline_not_mem_encode (by decide) _, newline_not_mem_encode (by decide) _⟩

theorem newline_not_mem_sentPath (u : URL) : (10 : UInt8) ∉ u.sentPath := by
  have hescaped : (10 : UInt8) ∉ u.escapedPath := by
    rw [URL.escapedPath]
    split_ifs with hraw
    · intro h
      have hbyte := all_eq_true.mp hraw.2.1 10 h
      revert hbyte
      decide
    · decide
    · exact newline_not_mem_encode (by decide) _
  rw [URL.sentPath]
  split_ifs
  · decide
  · exact hescaped

/-! ## The query -/

/-- No `;`, no `+`, well-formed escapes, and no space. -/
structure PlainPiece (piece : Bytes) : Prop where
  bytes : 59 ∉ piece ∧ 43 ∉ piece
  name : ∃ name, decode (cut 61 piece).1 = some name ∧ 32 ∉ name
  value : ∃ value, decode (cut 61 piece).2 = some value ∧ 32 ∉ value

/-- A query of plain pieces whose pairs, sorted by name, are also sorted as specified. -/
structure PlainQuery (query : Bytes) : Prop where
  plain : ∀ piece ∈ pieces query, PlainPiece piece
  sorted : ((((pieces query).map decoded).insertionSort fun p q => p.1 ≤ q.1).map
    escaped).Pairwise PairLe

instance : Std.Total PairLe where
  total p q := by
    rcases Decidable.em (p.1 < q.1) with h | h
    · exact .inl (.inl h)
    rcases Decidable.em (q.1 < p.1) with h' | h'
    · exact .inr (.inl h')
    have heq : p.1 = q.1 := List.le_antisymm h' h
    rcases List.le_total p.2 q.2 with hle | hle
    · exact .inl (.inr ⟨heq, hle⟩)
    · exact .inr (.inr ⟨heq.symm, hle⟩)

instance : IsTrans _ PairLe where
  trans p q r := by
    rintro (h | ⟨heq, h⟩) (h' | ⟨heq', h'⟩)
    · exact .inl (List.lt_trans h h')
    · exact .inl (heq' ▸ h)
    · exact .inl (heq ▸ h')
    · exact .inr ⟨heq.trans heq', List.le_trans h h'⟩

instance : Std.Antisymm PairLe where
  antisymm p q := by
    rintro (h | ⟨heq, h⟩) (h' | ⟨heq', h'⟩)
    · exact absurd h' (List.lt_asymm h)
    · exact absurd (heq' ▸ h) (List.lt_irrefl _)
    · exact absurd (heq ▸ h') (List.lt_irrefl _)
    · exact Prod.ext heq (List.le_antisymm h h')

/-- Neither separator of a query. -/
def Joinable (p : Bytes × Bytes) : Prop := ∀ b ∈ p.1 ++ p.2, b ≠ 38 ∧ b ≠ 61

/-- The pairs can be read back from their text, except from an empty one. -/
theorem split_joinPairs {pairs : List (Bytes × Bytes)} (h : ∀ p ∈ pairs, Joinable p)
    (hne : pairs ≠ []) : ((joinPairs pairs).splitOn 38).map (cut 61) = pairs := by
  have hsplit : (joinPairs pairs).splitOn 38 = pairs.map fun p => p.1 ++ 61 :: p.2 := by
    refine splitOn_intercalate 38 (fun piece hpiece hmem => ?_) (by simpa using hne)
    obtain ⟨p, hp, rfl⟩ := mem_map.mp hpiece
    rw [mem_append, mem_cons] at hmem
    rcases hmem with hmem | hmem | hmem
    · exact (h p hp 38 (mem_append_left _ hmem)).1 rfl
    · cases hmem
    · exact (h p hp 38 (mem_append_right _ hmem)).1 rfl
  rw [hsplit, map_map]
  refine (map_congr_left fun p hp => ?_).trans (map_id _)
  have hname : ∀ b ∈ p.1, (b != 61) = true := fun b hb =>
    bne_iff_ne.mpr (h p hp b (mem_append_left _ hb)).2
  simp [cut, takeWhile_append_of_pos hname, dropWhile_append_of_pos hname]

theorem joinPairs_inj {ps qs : List (Bytes × Bytes)} (hps : ∀ p ∈ ps, Joinable p)
    (hqs : ∀ q ∈ qs, Joinable q) : joinPairs ps = joinPairs qs ↔ ps = qs := by
  have hnil : ∀ (p : Bytes × Bytes) ps, joinPairs (p :: ps) ≠ [] := by
    intro p ps h
    cases ps <;> simp [joinPairs, intercalate] at h
  refine ⟨fun h => ?_, congrArg _⟩
  match ps, qs with
  | [], [] => rfl
  | [], q :: qs => exact absurd h.symm (hnil q qs)
  | p :: ps, [] => exact absurd h (hnil p ps)
  | p :: ps, q :: qs =>
    rw [← split_joinPairs hps (cons_ne_nil _ _), h, split_joinPairs hqs (cons_ne_nil _ _)]

variable {s : Bytes}

theorem queryEscape_of_no_space (h : 32 ∉ s) : queryEscape s = encode unreserved s := by
  refine flatMap_congr fun b hb => if_neg ?_
  rintro rfl
  exact h hb

theorem plus_mem_queryEscape (h : 32 ∈ s) : 43 ∈ queryEscape s :=
  mem_flatMap.mpr ⟨32, h, by decide⟩

theorem mem_queryEscape {b : UInt8} (h : b ∈ queryEscape s) :
    b = 43 ∨ unreserved b = true ∨ b ∈ 37 :: upperhex := by
  obtain ⟨c, -, hc⟩ := mem_flatMap.mp h
  split_ifs at hc
  · exact .inl (mem_singleton.mp hc)
  · have hmem : b ∈ encode unreserved [c] := by simpa [encode] using hc
    exact .inr (mem_of_mem_encode hmem)

theorem joinable_escaped (p : Bytes × Bytes) : Joinable (escaped p) := by
  intro b hb
  have hb' : unreserved b = true ∨ b ∈ 37 :: upperhex := by
    rcases mem_append.mp hb with hb | hb <;> exact mem_of_mem_encode hb
  constructor <;> rintro rfl <;> revert hb' <;> decide

theorem joinable_queryEscape (p : Bytes × Bytes) : Joinable (queryEscape p.1, queryEscape p.2) := by
  intro b hb
  have hb' : b = 43 ∨ unreserved b = true ∨ b ∈ 37 :: upperhex := by
    rcases mem_append.mp hb with hb | hb <;> exact mem_queryEscape hb
  constructor <;> rintro rfl <;> revert hb' <;> decide

/-- A space is no digit of an escape, so it is decoded as it is. -/
theorem space_mem_decode {s d : Bytes} (h : decode s = some d) (hs : 32 ∈ s) : 32 ∈ d := by
  fun_induction decode s generalizing d with
  | case1 => cases hs
  | case2 x y rest ih =>
    simp only [bind, Option.bind_eq_some_iff, pure, Option.some.injEq] at h
    obtain ⟨hi, hx, lo, hy, ds, hds, rfl⟩ := h
    rcases mem_cons.mp hs with hs | hs
    · cases hs
    rcases mem_cons.mp hs with rfl | hs
    · cases hx
    rcases mem_cons.mp hs with rfl | hs
    · cases hy
    exact mem_cons_of_mem _ (ih hds hs)
  | case3 => cases h
  | case4 b bs hb ih =>
    obtain ⟨ds, hds, rfl⟩ := Option.map_eq_some_iff.mp h
    rcases mem_cons.mp hs with rfl | hs
    · exact mem_cons_self
    · exact mem_cons_of_mem _ (ih hds hs)

theorem queryUnescape_of_no_plus (h : 43 ∉ s) : queryUnescape s = decode s := by
  have hmap : s.map (fun b => if b = 43 then 32 else b) = s := by
    refine (map_congr_left fun b hb => if_neg ?_).trans (map_id' s)
    rintro rfl
    exact h hb
  rw [queryUnescape, hmap]

theorem no_plus_of_queryUnescape {s d : Bytes} (h : queryUnescape s = some d) (hd : 32 ∉ d) :
    43 ∉ s := fun hs =>
  hd (space_mem_decode h (mem_map.mpr ⟨43, hs, rfl⟩))

theorem mem_cut {sep b : UInt8} (h : b ∈ s) (hne : b ≠ sep) :
    b ∈ (cut sep s).1 ∨ b ∈ (cut sep s).2 := by
  rw [← takeWhile_append_dropWhile (p := (· != sep)) (l := s), mem_append] at h
  refine h.imp_right fun h => ?_
  show b ∈ (s.dropWhile (· != sep)).drop 1
  match hdrop : s.dropWhile (· != sep), h with
  | c :: rest, h =>
    have hc := head_dropWhile_not (· != sep) (l := s) (by simp [hdrop])
    simp only [hdrop, head_cons, bne_eq_false_iff_eq] at hc
    exact (mem_cons.mp h).resolve_left fun heq => hne (heq.trans hc)

theorem parsePiece_eq_some_iff {piece : Bytes} {p : Bytes × Bytes} :
    parsePiece piece = some p ↔ piece ≠ [] ∧ 59 ∉ piece ∧
      queryUnescape (cut 61 piece).1 = some p.1 ∧ queryUnescape (cut 61 piece).2 = some p.2 := by
  by_cases hpiece : piece ≠ [] ∧ 59 ∉ piece
  · simp [parsePiece, hpiece, Option.bind_eq_some_iff, Prod.ext_iff]
  · exact iff_of_false (by simp [parsePiece, hpiece]) fun h => hpiece ⟨h.1, h.2.1⟩

theorem PlainPiece.parsePiece {piece : Bytes} (h : PlainPiece piece) (hne : piece ≠ []) :
    parsePiece piece = some (decoded piece) ∧ 32 ∉ (decoded piece).1 ∧ 32 ∉ (decoded piece).2 := by
  obtain ⟨name, hname, hname'⟩ := h.name
  obtain ⟨value, hvalue, hvalue'⟩ := h.value
  have hdecoded : decoded piece = (name, value) := by simp [decoded, uriDecode, hname, hvalue]
  have hsub : ∀ b, b ∈ (cut 61 piece).1 ∨ b ∈ (cut 61 piece).2 → b ∈ piece := by
    rintro b (hb | hb)
    · exact takeWhile_subset _ hb
    · exact dropWhile_subset _ (mem_of_mem_drop hb)
  rw [hdecoded, parsePiece_eq_some_iff,
    queryUnescape_of_no_plus fun hb => h.bytes.2 (hsub _ (.inl hb)),
    queryUnescape_of_no_plus fun hb => h.bytes.2 (hsub _ (.inr hb))]
  exact ⟨⟨hne, h.bytes.1, hname, hvalue⟩, hname', hvalue'⟩

theorem plain_of_parsePiece {piece : Bytes} {p : Bytes × Bytes} (h : parsePiece piece = some p)
    (hname : 32 ∉ p.1) (hvalue : 32 ∉ p.2) : PlainPiece piece := by
  obtain ⟨-, hsemicolon, hkey, hval⟩ := parsePiece_eq_some_iff.mp h
  have hplus := no_plus_of_queryUnescape hkey hname
  have hplus' := no_plus_of_queryUnescape hval hvalue
  rw [queryUnescape_of_no_plus hplus] at hkey
  rw [queryUnescape_of_no_plus hplus'] at hval
  exact ⟨⟨hsemicolon, fun hb => (mem_cut hb (by decide)).elim hplus hplus'⟩, ⟨_, hkey, hname⟩,
    ⟨_, hval, hvalue⟩⟩

theorem parseQuery_eq (query : Bytes) : parseQuery query = (pieces query).filterMap parsePiece := by
  rw [parseQuery, pieces, filterMap_filter]
  refine filterMap_congr fun piece _ => ?_
  by_cases hpiece : piece = []
  · simp [hpiece, parsePiece]
  · simp [hpiece]

/-- What `Encode` joins: the pairs in the order of their names, escaped. -/
def encodedPairs (query : Bytes) : List (Bytes × Bytes) :=
  ((parseQuery query).insertionSort fun p q => p.1 ≤ q.1).map
    fun p => (queryEscape p.1, queryEscape p.2)

/-- What the specification joins. -/
def specifiedPairs (query : Bytes) : List (Bytes × Bytes) :=
  ((pieces query).map fun piece => escaped (decoded piece)).insertionSort PairLe

theorem encodedPairs_of_plain {query : Bytes} (h : ∀ piece ∈ pieces query, PlainPiece piece) :
    encodedPairs query =
      (((pieces query).map decoded).insertionSort fun p q => p.1 ≤ q.1).map escaped := by
  have hne : ∀ piece ∈ pieces query, piece ≠ [] := fun piece hpiece => by
    simpa using (mem_filter.mp hpiece).2
  have hparse : parseQuery query = (pieces query).map decoded := by
    rw [parseQuery_eq, filterMap_eq_map_iff_forall_eq_some]
    exact fun piece hpiece => ((h piece hpiece).parsePiece (hne piece hpiece)).1
  rw [encodedPairs, hparse]
  refine map_congr_left fun p hp => ?_
  obtain ⟨piece, hpiece, rfl⟩ := mem_map.mp ((mem_insertionSort _).mp hp)
  obtain ⟨-, hname, hvalue⟩ := (h piece hpiece).parsePiece (hne piece hpiece)
  rw [queryEscape_of_no_space hname, queryEscape_of_no_space hvalue, escaped]

theorem plain_of_encodedPairs {query : Bytes} (h : encodedPairs query = specifiedPairs query)
    {piece : Bytes} (hpiece : piece ∈ pieces query) : PlainPiece piece := by
  -- no piece is dropped, and what is specified has no `+`
  have hlength := congrArg length h
  rw [encodedPairs, specifiedPairs, length_map, length_insertionSort, length_insertionSort,
    length_map, parseQuery_eq, filterMap_length_eq_length] at hlength
  obtain ⟨p, hp⟩ := Option.isSome_iff_exists.mp (hlength piece hpiece)
  have hmem : (queryEscape p.1, queryEscape p.2) ∈ specifiedPairs query := by
    rw [← h]
    refine mem_map.mpr ⟨p, (mem_insertionSort _).mpr ?_, rfl⟩
    rw [parseQuery_eq]
    exact mem_filterMap.mpr ⟨piece, hpiece, hp⟩
  obtain ⟨piece', -, heq⟩ := mem_map.mp ((mem_insertionSort _).mp hmem)
  obtain ⟨hname, hvalue⟩ := Prod.mk.inj heq
  have hplus : ∀ s, (43 : UInt8) ∉ encode unreserved s := fun s hs =>
    absurd (mem_of_mem_encode hs) (by decide)
  refine plain_of_parsePiece hp (fun hs => ?_) fun hs => ?_
  · exact hplus _ (hname ▸ plus_mem_queryEscape hs)
  · exact hplus _ (hvalue ▸ plus_mem_queryEscape hs)

theorem encodeValues_eq_iff (query : Bytes) :
    encodeValues (parseQuery query) = canonicalQueryString query ↔ PlainQuery query := by
  have hcode : ∀ p ∈ encodedPairs query, Joinable p := by
    intro p hp
    obtain ⟨q, -, rfl⟩ := mem_map.mp hp
    exact joinable_queryEscape q
  have hspec : ∀ p ∈ specifiedPairs query, Joinable p := by
    intro p hp
    obtain ⟨piece, -, rfl⟩ := mem_map.mp ((mem_insertionSort _).mp hp)
    exact joinable_escaped _
  refine (joinPairs_inj hcode hspec).trans ⟨fun h => ?_, fun h => ?_⟩
  · have hplain : ∀ piece ∈ pieces query, PlainPiece piece := fun _ => plain_of_encodedPairs h
    refine ⟨hplain, ?_⟩
    rw [← encodedPairs_of_plain hplain, h]
    exact pairwise_insertionSort _ _
  · rw [encodedPairs_of_plain h.plain]
    refine List.Perm.eq_of_pairwise' h.sorted (pairwise_insertionSort _ _) ?_
    refine ((perm_insertionSort _ _).map _).trans ?_
    rw [map_map]
    exact (perm_insertionSort _ _).symm

/-! ## The lines -/

theorem lines_inj {m u u' q q' a x x' b s p : Bytes} (hu : 10 ∉ u) (hu' : 10 ∉ u') (hq : 10 ∉ q)
    (hq' : 10 ∉ q') :
    lines [m, u, q, a ++ x ++ b, s, p] = lines [m, u', q', a ++ x' ++ b, s, p] ↔
      u = u' ∧ q = q' ∧ x = x' := by
  have hlines : ∀ u q h, lines [m, u, q, h, s, p] =
      m ++ 10 :: (u ++ 10 :: (q ++ 10 :: (h ++ 10 :: (s ++ 10 :: p)))) := by
    intro u q h
    simp [lines, intercalate]
  refine ⟨fun h => ?_, fun ⟨hu, hq, hx⟩ => by rw [hu, hq, hx]⟩
  -- path and query end at the first line breaks; what is left has the same ends
  rw [hlines, hlines] at h
  have htail := cons.inj (append_cancel_left h)
  obtain ⟨hueq, h⟩ := Text.append_cons_inj hu hu' htail.2
  obtain ⟨hqeq, h⟩ := Text.append_cons_inj hq hq' h
  have hhost := append_cancel_right (append_cancel_right h)
  exact ⟨hueq, hqeq, append_cancel_left hhost⟩

section Headers

variable (net : Net) (c : Crypto) (auth : AuthConfig) (now : Now) (region body : Bytes) (url : URL)

def signedWith (host : Bytes) : Header :=
  (bytes "content-type", net.trimSpace (bytes "application/json")) :: (bytes "host", host) ::
    ([(bytes "x-amz-content-sha256", net.trimSpace (c.hashHex body)),
      (bytes "x-amz-date", net.trimSpace now.dateTime)] ++
      if auth.sessionToken ≠ [] then
        [(bytes "x-amz-security-token", net.trimSpace auth.sessionToken)] else [])

theorem signedHeaders_eq :
    signedHeaders net ((signRequest net c auth now region (bytes "bedrock") body
        (requestFor url)).send net body).header (headersToSign auth.sessionToken) =
      signedWith net c auth now body (net.trimSpace (net.wireHost url.host)) := by
  obtain ⟨accessKeyID, secretAccessKey, sessionToken⟩ := auth
  -- with or without a token, the names are closed texts and the sorts can be run
  cases sessionToken <;> rfl

theorem buildCanonicalHeaders_eq :
    buildCanonicalHeaders net ((requestFor url).prepare c auth now body)
        (headersToSign auth.sessionToken) =
      (signedWith net c auth now body url.host).flatMap headerLine := by
  -- the adapter has set `Host` from the URL, so the fallback of the code changes nothing
  have hhost : (if url.host = [] then url.host else url.host) = url.host := ite_self _
  change (headersToSign auth.sessionToken).flatMap (fun h => h ++
    58 :: (if h = bytes "host" then if url.host = [] then url.host else url.host
      else net.trimSpace ((setHeaders c auth now body (requestFor url).header).get h)) ++ [10]) = _
  rw [hhost]
  obtain ⟨accessKeyID, secretAccessKey, sessionToken⟩ := auth
  cases sessionToken <;> rfl

theorem names_signedWith (host : Bytes) :
    (signedWith net c auth now body host).map (·.1) = headersToSign auth.sessionToken := by
  obtain ⟨accessKeyID, secretAccessKey, sessionToken⟩ := auth
  cases sessionToken <;> rfl

theorem exists_signedWith_split : ∃ a b, ∀ host,
    (signedWith net c auth now body host).flatMap headerLine = a ++ host ++ b := by
  refine ⟨headerLine (bytes "content-type", net.trimSpace (bytes "application/json")) ++
    (bytes "host" ++ [58]), [10] ++ flatMap headerLine
    ([(bytes "x-amz-content-sha256", net.trimSpace (c.hashHex body)),
      (bytes "x-amz-date", net.trimSpace now.dateTime)] ++
      if auth.sessionToken ≠ [] then
        [(bytes "x-amz-security-token", net.trimSpace auth.sessionToken)] else []), ?_⟩
  intro host
  rw [signedWith, flatMap_cons, flatMap_cons]
  simp only [headerLine, append_assoc, cons_append, nil_append]

theorem canonicalRequest_eq_iff :
    canonicalRequest net c auth body ((requestFor url).prepare c auth now body) =
        specified net c ((signRequest net c auth now region (bytes "bedrock") body
          (requestFor url)).send net body) (headersToSign auth.sessionToken) ↔
      Plain url.sentPath ∧ PlainQuery url.rawQuery ∧
        url.host = net.trimSpace (net.wireHost url.host) := by
  obtain ⟨a, b, hsplit⟩ := exists_signedWith_split net c auth now body
  rw [canonicalRequest, specified, buildCanonicalHeaders_eq, signedHeaders_eq, names_signedWith,
    hsplit, hsplit, ← canonicalURI_eq_self_iff, eq_comm (a := canonicalURI _),
    ← encodeValues_eq_iff]
  exact lines_inj (newline_not_mem_sentPath url) (newline_not_mem_canonicalURI _)
    (newline_not_mem_encodeValues _) (newline_not_mem_canonicalQueryString _)

structure SignedAsSpecified (r : Request) : Prop where
  canonical : canonicalRequest net c auth body (r.prepare c auth now body) =
    specified net c ((signRequest net c auth now region (bytes "bedrock") body r).send net body)
      (headersToSign auth.sessionToken)
  signature : signature c auth now region (bytes "bedrock")
      (canonicalRequest net c auth body (r.prepare c auth now body)) =
    signature c auth now region (bytes "bedrock")
      (specified net c ((signRequest net c auth now region (bytes "bedrock") body r).send net body)
        (headersToSign auth.sessionToken))

end Headers

/-- **Signing.** Whatever SHA-256 and HMAC are, the canonical request is the one specified iff the
path that is sent has only letters, digits, `-._~` and `/`, its query has no `;`, no space and
well-formed escapes and is sorted by name as in escaped form, and the host is sent, trimmed, as it
is. -/
theorem signRequest_iff (net : Net) (c : Crypto) (auth : AuthConfig) (now : Now)
    (region body base model : Bytes) (call : Call) {r : Request}
    (h : newRequest net call base model = some r) :
    SignedAsSpecified net c auth now region body r ↔
      Plain r.url.sentPath ∧ PlainQuery r.url.rawQuery ∧
        r.url.host = net.trimSpace (net.wireHost r.url.host) := by
  obtain ⟨url, -, rfl⟩ := Option.map_eq_some_iff.mp h
  have hcanonical := canonicalRequest_eq_iff net c auth now region body url
  refine ⟨fun hs => hcanonical.mp hs.canonical, fun hcond => ?_⟩
  have heq := hcanonical.mpr hcond
  exact ⟨heq, by rw [heq]⟩

def plainNet : Net where
  parseAuthority := some
  wireHost := id
  trimSpace := id

def anyCrypto : Crypto where
  hashHex := id
  hmacBytes key data := key ++ data
  hex := id

def someAuth : AuthConfig where
  accessKeyID := bytes "AKID"
  secretAccessKey := bytes "secret"
  sessionToken := []

def someTime : Now where
  dateTime := bytes "20260102T030405Z"
  date := bytes "20260102"

def usEast1 : Bytes := bytes "bedrock-runtime.us-east-1.amazonaws.com"

def urlFor (model : Bytes) : URL where
  host := usEast1
  path := bytes "/model/" ++ model ++ bytes "/converse"
  rawPath := []
  rawQuery := []

theorem signed_plain :
    SignedAsSpecified plainNet anyCrypto someAuth someTime (bytes "us-east-1") []
      (requestFor (urlFor (bytes "ai21.j2-mid"))) :=
  (signRequest_iff plainNet anyCrypto someAuth someTime (bytes "us-east-1") [] usEast1
    (bytes "ai21.j2-mid") .chatCompletion (by decide +kernel)).mpr
    ⟨by decide +kernel, ⟨nofun, List.Pairwise.nil⟩, rfl⟩

theorem colon_is_not_escaped :
    newRequest plainNet .chatCompletion usEast1 (bytes "amazon.nova-pro-v1:0") =
        some (requestFor (urlFor (bytes "amazon.nova-pro-v1:0"))) ∧
      (urlFor (bytes "amazon.nova-pro-v1:0")).sentPath =
        bytes "/model/amazon.nova-pro-v1:0/converse" ∧
      canonicalURI (bytes "/model/amazon.nova-pro-v1:0/converse") =
        bytes "/model/amazon.nova-pro-v1%3A0/converse" ∧
      ¬ SignedAsSpecified plainNet anyCrypto someAuth someTime (bytes "us-east-1") []
        (requestFor (urlFor (bytes "amazon.nova-pro-v1:0"))) := by
  refine ⟨by decide +kernel, by decide +kernel, by decide +kernel, fun h => ?_⟩
  have hcanonical := h.canonical
  revert hcanonical
  decide +kernel

end LlmRouter.Bedrock
