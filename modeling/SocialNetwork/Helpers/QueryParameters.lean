import SocialNetwork.Helpers.UrlText

/-!
# Percent-encoding and query parameters

`Url::encode` writes a text in which delimiters stand for themselves only where they are not
reserved, and `Url::decode` reads any string back from it. The query parameters rest on this: names
and values are encoded with `&` and `=` reserved, so that the nested loop of
`get_query_parameters` splits the query where `add_query_parameter` joined it.
-/

namespace SocialNetwork.Helpers

open Foundation

/-! ## Encoding under both kinds of `char`

Whether `char` is signed is up to the compiler, and `encode` compares characters with `<=`. -/

/-- The value of a `char`. -/
def charValue (signed : Bool) (c : UInt8) : Int :=
  if signed ∧ 0x80 ≤ c then c.toNat - 256 else c.toNat

/-- One character of `Url::encode`, as the comparisons of `char` values decide it. -/
def encodeCharAs (signed : Bool) (reserved : Bytes) (c : UInt8) : Bytes :=
  let v := charValue signed c
  if (charValue signed (chr 'a') ≤ v ∧ v ≤ charValue signed (chr 'z')) ∨
      (charValue signed (chr 'A') ≤ v ∧ v ≤ charValue signed (chr 'Z')) ∨
      (charValue signed (chr '0') ≤ v ∧ v ≤ charValue signed (chr '9')) ∨
      (c = chr '-' ∨ c = chr '_' ∨ c = chr '.' ∨ c = chr '~') then [c]
  else if (v ≤ 0x20 ∨ v ≥ 0x7F) ∨ c ∈ urlIllegal ∨ c ∈ reserved then
    [chr '%', hexByte (c.toNat / 16), hexByte (c.toNat % 16)]
  else [c]

/-- `Url::encode` where `char` is signed, or not. -/
def encodeAs (signed : Bool) (s reserved : Bytes) : Bytes := s.flatMap (encodeCharAs signed reserved)

/-- The sign of `char` makes no difference to `encode`. -/
theorem encodeCharAs_eq (signed : Bool) (reserved : Bytes) (c : UInt8) :
    encodeCharAs signed reserved c = encodeChar reserved c := by
  have hkeep : ∀ signed : Bool, ∀ c : UInt8,
      ((charValue signed (chr 'a') ≤ charValue signed c ∧
          charValue signed c ≤ charValue signed (chr 'z')) ∨
        (charValue signed (chr 'A') ≤ charValue signed c ∧
          charValue signed c ≤ charValue signed (chr 'Z')) ∨
        (charValue signed (chr '0') ≤ charValue signed c ∧
          charValue signed c ≤ charValue signed (chr '9')) ∨
        (c = chr '-' ∨ c = chr '_' ∨ c = chr '.' ∨ c = chr '~')) ↔ isUnreserved c = true := by
    intro signed
    apply forall_byte
    cases signed <;> decide +kernel
  have hrange : ∀ signed : Bool, ∀ c : UInt8,
      (charValue signed c ≤ 0x20 ∨ charValue signed c ≥ 0x7F) ↔ (c ≤ 0x20 ∨ c ≥ 0x7F) := by
    intro signed
    apply forall_byte
    cases signed <;> decide +kernel
  simp only [encodeCharAs, encodeChar, hkeep, hrange, Bool.or_eq_true, decide_eq_true_eq, or_assoc]

/-- The sign of `char` makes no difference to a text. -/
theorem encodeAs_eq (signed : Bool) (s reserved : Bytes) :
    encodeAs signed s reserved = encode s reserved := by
  rw [encodeAs, encode, funext (encodeCharAs_eq signed reserved)]

/-! ## What an encoded text consists of -/

/-- An escape sequence starts here: a percent sign and two hexadecimal digits. -/
def startsEscape : Bytes → Bool
  | c :: hi :: lo :: _ => c = chr '%' && (hexDigitValue hi).isSome && (hexDigitValue lo).isSome
  | _ => false

/-- The characters that `encode` copies. -/
def Copied (reserved : Bytes) (c : UInt8) : Prop :=
  isUnreserved c = true ∨ (0x20 < c ∧ c < 0x7F) ∧ c ∉ urlIllegal ∧ c ∉ reserved

/-- Each character of an encoded character starts an escape sequence or is copied. -/
theorem encodeChar_split {reserved before rest tail : Bytes} {x c : UInt8}
    (h : encodeChar reserved x = before ++ c :: rest) :
    startsEscape (c :: (rest ++ tail)) = true ∨ Copied reserved c := by
  unfold encodeChar at h
  split at h
  · rename_i hkeep
    obtain ⟨-, rfl, -⟩ : before = [] ∧ c = x ∧ rest = [] := by
      simpa [List.singleton_eq_append_iff, and_assoc] using h
    exact .inr (.inl hkeep)
  · split at h
    · have hlt := x.toNat_lt
      have hdiv : x.toNat / 16 < 16 := by omega
      have hmod : x.toNat % 16 < 16 := Nat.mod_lt _ (by norm_num)
      -- the percent sign starts the sequence, the two digits are unreserved
      rcases before with _ | ⟨b, _ | ⟨b', before⟩⟩
      · obtain ⟨rfl, rfl⟩ : chr '%' = c ∧
            [hexByte (x.toNat / 16), hexByte (x.toNat % 16)] = rest := by simpa using h
        left
        simp [startsEscape, hexDigitValue_hexByte hdiv, hexDigitValue_hexByte hmod]
      · obtain ⟨-, rfl, -⟩ : chr '%' = b ∧ hexByte (x.toNat / 16) = c ∧ _ := by simpa using h
        exact .inr (.inl (isUnreserved_hexByte hdiv))
      · obtain ⟨-, -, hc⟩ : chr '%' = b ∧ hexByte (x.toNat / 16) = b' ∧
            [hexByte (x.toNat % 16)] = before ++ c :: rest := by simpa using h
        obtain ⟨-, rfl, -⟩ : before = [] ∧ c = hexByte (x.toNat % 16) ∧ rest = [] := by
          simpa [List.singleton_eq_append_iff, and_assoc] using hc
        exact .inr (.inl (isUnreserved_hexByte hmod))
    · rename_i hkeep
      obtain ⟨-, rfl, -⟩ : before = [] ∧ c = x ∧ rest = [] := by
        simpa [List.singleton_eq_append_iff, and_assoc] using h
      refine .inr (.inr ?_)
      simpa [not_or, and_assoc] using hkeep

/-- Each character of an encoded text starts an escape sequence or is copied. -/
theorem encode_split {s reserved before rest : Bytes} {c : UInt8}
    (h : encode s reserved = before ++ c :: rest) :
    startsEscape (c :: rest) = true ∨ Copied reserved c := by
  induction s generalizing before with
  | nil => simp [encode] at h
  | cons x s ih =>
      rw [encode, List.flatMap_cons, ← encode] at h
      rcases List.append_eq_append_iff.mp h with ⟨b, -, hb⟩ | ⟨b, hb, htail⟩
      · exact ih hb
      · cases b with
        | nil =>
            have hnil : encode s reserved = [] ++ c :: rest := htail.symm
            exact ih hnil
        | cons y b =>
            obtain ⟨rfl, rfl⟩ : c = y ∧ rest = b ++ encode s reserved := by simpa using htail
            exact encodeChar_split hb

/-- An escape sequence starts with a percent sign. -/
theorem head_of_startsEscape {c : UInt8} {rest : Bytes} (h : startsEscape (c :: rest) = true) :
    c = chr '%' := by
  rcases rest with _ | ⟨hi, _ | ⟨lo, rest⟩⟩
  · cases h
  · cases h
  · simp only [startsEscape, Bool.and_eq_true, decide_eq_true_eq] at h
    exact h.1.1

/-- Characters that stand for themselves are printable and not illegal. -/
theorem isUnreserved_facts : ∀ c : UInt8, isUnreserved c = true →
    (0x20 < c ∧ c < 0x7F) ∧ c ∉ urlIllegal :=
  forall_byte (by decide +kernel)

/-- **Percent-decoding undoes percent-encoding.** The encoded text is printable ASCII, an illegal
character in it is the percent sign of an escape sequence, and so is a reserved one that is not
unreserved.
Source: `helpers/url.cpp`, `Url::encode`, `Url::decode` -/
theorem decode_encodeAs (signed : Bool) (s reserved : Bytes) :
    (∀ decoded, decodeInto (encodeAs signed s reserved) decoded false = s) ∧
    (∀ c ∈ encodeAs signed s reserved, 0x20 < c ∧ c < 0x7F) ∧
    (∀ before c rest, encodeAs signed s reserved = before ++ c :: rest →
      (c ∈ urlIllegal → startsEscape (c :: rest) = true) ∧
      (c ∈ reserved → isUnreserved c = true ∨ startsEscape (c :: rest) = true)) ∧
    (chr '?' ∉ encodeAs signed s urlReservedPath ∧ chr '#' ∉ encodeAs signed s urlReservedPath) := by
  simp only [encodeAs_eq]
  refine ⟨fun decoded => ?_, fun c hc => ?_, fun before c rest h => ?_, ?_, ?_⟩
  · rw [decodeInto, decodeLoop_encode]
    rfl
  · obtain ⟨before, rest, h⟩ := List.append_of_mem hc
    rcases encode_split h with hesc | hun | ⟨hrange, -⟩
    · rw [head_of_startsEscape hesc]
      decide
    · exact (isUnreserved_facts c hun).1
    · exact hrange
  · rcases encode_split h with hesc | hun | ⟨-, hillegal, hres⟩
    · exact ⟨fun _ => hesc, fun _ => .inr hesc⟩
    · exact ⟨fun hmem => absurd hmem (isUnreserved_facts c hun).2, fun _ => .inl hun⟩
    · exact ⟨fun hmem => absurd hmem hillegal, fun hmem => absurd hmem hres⟩
  · exact not_mem_encode (by decide) (by decide) (by decide)
  · exact not_mem_encode (by decide) (by decide) (by decide)

/-! ## Query parameters -/

/-- `URL_RESERVED_QUERY_PARAM`. -/
def urlReservedQueryParam : Bytes := str "?#/:;+@&="

namespace Url

/-- `Url::add_query_parameter`. -/
def addQueryParameter (url : Url) (param val : Bytes) : Url :=
  { url with
    query := url.query ++ (if url.query ≠ [] then str "&" else []) ++
      encode param urlReservedQueryParam ++ str "=" ++ encode val urlReservedQueryParam }

/-- `Url::set_query_parameters`. -/
def setQueryParameters (url : Url) (params : List (Bytes × Bytes)) : Url :=
  params.foldl (fun url p => url.addQueryParameter p.1 p.2) { url with query := [] }

/-- A character of a name or a value in `get_query_parameters`. -/
def queryChar (plusIsSpace : Bool) (c : UInt8) : UInt8 :=
  if plusIsSpace ∧ c = chr '+' then chr ' ' else c

/-- The name loop of `get_query_parameters`: the name, and what is left. -/
def queryName (it : Bytes) : Bytes × Bytes := it.span fun c => c ≠ chr '=' && c ≠ chr '&'

/-- The value loop of `get_query_parameters`: the value, and what is left. -/
def queryValue : Bytes → Bytes × Bytes
  | c :: it => if c = chr '=' then it.span (· ≠ chr '&') else ([], c :: it)
  | [] => ([], [])

/-- Reading a name uses up the text. -/
theorem length_queryName_le (it : Bytes) : (queryName it).2.length ≤ it.length := by
  rw [queryName, List.span_eq_takeWhile_dropWhile]
  exact (List.dropWhile_suffix _).length_le

/-- What is left after a value and a separator is shorter. -/
theorem length_queryValue_lt {it : Bytes} (h : it ≠ []) :
    ((queryValue it).2.drop 1).length < it.length := by
  cases it with
  | nil => exact absurd rfl h
  | cons c it =>
      simp only [queryValue]
      split
      · have hle := (List.dropWhile_suffix (fun c => decide (c ≠ chr '&')) (l := it)).length_le
        rw [List.span_eq_takeWhile_dropWhile, List.length_drop, List.length_cons]
        dsimp only
        omega
      · exact Nat.lt_succ_self _

/-- The outer loop of `get_query_parameters`. -/
def queryLoop (plusIsSpace : Bool) : Bytes → List (Bytes × Bytes)
  | [] => []
  | c :: it =>
      let name := queryName (c :: it)
      let value := queryValue name.2
      (decode (name.1.map (queryChar plusIsSpace)), decode (value.1.map (queryChar plusIsSpace))) ::
        queryLoop plusIsSpace (value.2.drop 1)
  termination_by it => it.length
  decreasing_by
    have hname := length_queryName_le (c :: it)
    by_cases hnil : (queryName (c :: it)).2 = []
    · rw [hnil]
      exact Nat.succ_pos _
    · exact (length_queryValue_lt hnil).trans_le hname

/-- `Url::get_query_parameters`. -/
def getQueryParameters (url : Url) (plusIsSpace : Bool) : List (Bytes × Bytes) :=
  queryLoop plusIsSpace url.query

/-! ### What the setter writes -/

/-- A name and a value as the setter writes them. -/
def queryPair (p : Bytes × Bytes) : Bytes :=
  encode p.1 urlReservedQueryParam ++ chr '=' :: encode p.2 urlReservedQueryParam

/-- A parameter is printed as something: it has its `=`. -/
theorem queryPair_ne_nil (p : Bytes × Bytes) : queryPair p ≠ [] := by simp [queryPair]

/-- The parameters after the first one are appended with a separator. -/
theorem query_foldl {url : Url} (h : url.query ≠ []) (params : List (Bytes × Bytes)) :
    (params.foldl (fun url p => url.addQueryParameter p.1 p.2) url).query =
      url.query ++ params.flatMap fun p => chr '&' :: queryPair p := by
  induction params generalizing url with
  | nil => simp
  | cons p params ih =>
      have hquery : (url.addQueryParameter p.1 p.2).query =
          url.query ++ chr '&' :: queryPair p := by
        simp [addQueryParameter, queryPair, h, str]
      rw [List.foldl_cons, ih (by simp [hquery]), hquery, List.flatMap_cons, List.append_assoc]

/-- The query that `set_query_parameters` writes. -/
theorem query_setQueryParameters (url : Url) (p : Bytes × Bytes) (params : List (Bytes × Bytes)) :
    (url.setQueryParameters (p :: params)).query =
      queryPair p ++ params.flatMap fun p => chr '&' :: queryPair p := by
  have hquery : (addQueryParameter { url with query := [] } p.1 p.2).query = queryPair p := by
    simp [addQueryParameter, queryPair, str]
  rw [setQueryParameters, List.foldl_cons, query_foldl (by rw [hquery]; exact queryPair_ne_nil p),
    hquery]

/-! ### What the getter reads -/

/-- An encoded name or value has no separator and no plus sign. -/
theorem separator_not_mem_encode (s : Bytes) :
    ∀ c ∈ encode s urlReservedQueryParam, c ≠ chr '=' ∧ c ≠ chr '&' ∧ c ≠ chr '+' := by
  intro c hc
  refine ⟨?_, ?_, ?_⟩
  all_goals
    rintro rfl
    exact not_mem_encode (by decide) (by decide) (by decide) hc

/-- Reading an encoded name or value. -/
theorem decode_map_queryChar (plusIsSpace : Bool) (s : Bytes) :
    decode ((encode s urlReservedQueryParam).map (queryChar plusIsSpace)) = s := by
  have hmap : (encode s urlReservedQueryParam).map (queryChar plusIsSpace) =
      encode s urlReservedQueryParam := by
    conv_rhs => rw [← List.map_id (encode s urlReservedQueryParam)]
    refine List.map_congr_left fun c hc => ?_
    exact if_neg fun hplus => (separator_not_mem_encode s c hc).2.2 hplus.2
  rw [hmap, decode_encode]

/-- One turn of the outer loop reads one pair. -/
theorem queryLoop_pair (plusIsSpace : Bool) (p : Bytes × Bytes) {rest : Bytes}
    (hrest : ∀ c, rest.head? = some c → c = chr '&') :
    queryLoop plusIsSpace (queryPair p ++ rest) = p :: queryLoop plusIsSpace (rest.drop 1) := by
  have hname : queryName (queryPair p ++ rest) = (encode p.1 urlReservedQueryParam,
      chr '=' :: (encode p.2 urlReservedQueryParam ++ rest)) := by
    rw [queryPair, List.append_assoc, List.cons_append, queryName]
    refine span_append_cons (fun c hc => ?_) (by decide)
    obtain ⟨heq, hamp, -⟩ := separator_not_mem_encode p.1 c hc
    simp [heq, hamp]
  have hvalue : queryValue (chr '=' :: (encode p.2 urlReservedQueryParam ++ rest)) =
      (encode p.2 urlReservedQueryParam, rest) := by
    have hplain : ∀ c ∈ encode p.2 urlReservedQueryParam, decide (c ≠ chr '&') = true := by
      intro c hc
      simp [(separator_not_mem_encode p.2 c hc).2.1]
    rw [queryValue, if_pos rfl]
    cases rest with
    | nil => rw [List.append_nil, span_eq_self hplain]
    | cons c rest =>
        obtain rfl := hrest c rfl
        exact span_append_cons hplain (by decide)
  obtain ⟨c, it, hcons⟩ := List.exists_cons_of_ne_nil
    (List.append_ne_nil_of_left_ne_nil (queryPair_ne_nil p) rest)
  rw [hcons, queryLoop, ← hcons, hname, hvalue, decode_map_queryChar, decode_map_queryChar]

/-- The outer loop reads all pairs. -/
theorem queryLoop_pairs (plusIsSpace : Bool) (p : Bytes × Bytes) (params : List (Bytes × Bytes)) :
    queryLoop plusIsSpace (queryPair p ++ params.flatMap fun p => chr '&' :: queryPair p) =
      p :: params := by
  induction params generalizing p with
  | nil =>
      rw [List.flatMap_nil, queryLoop_pair plusIsSpace p (by simp)]
      simp [queryLoop]
  | cons q params ih =>
      rw [List.flatMap_cons, List.cons_append, queryLoop_pair plusIsSpace p (by simp)]
      rw [List.drop_one, List.tail_cons, ih]

/-- **Query parameters survive the text.** `get_query_parameters` returns what
`set_query_parameters` was given, with and without plus signs read as spaces.
Source: `helpers/url.cpp`, `Url::set_query_parameters`, `Url::get_query_parameters` -/
theorem getQueryParameters_setQueryParameters (url : Url) (params : List (Bytes × Bytes))
    (plusIsSpace : Bool) :
    (url.setQueryParameters params).getQueryParameters plusIsSpace = params := by
  cases params with
  | nil =>
      show queryLoop plusIsSpace [] = []
      rw [queryLoop]
  | cons p params =>
      rw [getQueryParameters, query_setQueryParameters, queryLoop_pairs]

end Url

end SocialNetwork.Helpers
