import SocialNetwork.Foundation.Paths
import SocialNetwork.Helpers.UrlText

/-!
# Normalised paths

`Url::normalize` and `Url::build_path`, against what a path means: the directory that it leads to
from a base directory (`resolve`).

The segments are shortened on a stack (`normalizedSegments_eq`), and the rebuilt text has the
segments that were kept, after a `.` where the first of them has a colon
(`getPathSegments_normalize`). A second normalisation therefore changes nothing. The path keeps its
meaning unless all its segments cancel: then `build_path` writes no leading slash, and the trailing
slash, if there is one, is read as a leading one (`resolve_normalize_of_nil`).
-/

namespace SocialNetwork.Helpers

open Foundation

namespace Url

variable (url : Url)

/-! ## The code -/

/-- `Url::is_relative`. -/
def isRelative : Bool := url.scheme = []

/-- What `build_path` writes in front of a segment. -/
def beforeSegment (leadingSlash first : Bool) (s : Bytes) : Bytes :=
  if first then
    if leadingSlash then str "/"
    else if url.scheme = [] && chr ':' ∈ s then str "./" else []
  else str "/"

/-- The loop of `build_path`. -/
def buildPathLoop (leadingSlash : Bool) : Bool → List Bytes → Bytes
  | _, [] => []
  | first, s :: segments =>
      url.beforeSegment leadingSlash first s ++ s ++ buildPathLoop leadingSlash false segments

/-- `Url::build_path`. -/
def buildPath (segments : List Bytes) (leadingSlash trailingSlash : Bool) : Url :=
  { url with path := url.buildPathLoop leadingSlash true segments ++
      if trailingSlash then str "/" else [] }

/-- What `normalize` does with a segment. -/
def normalizeStep (removeLeading : Bool) (normalized : List Bytes) (s : Bytes) : List Bytes :=
  if s = str ".." then
    if normalized ≠ [] then
      if normalized.getLast? = some (str "..") then normalized ++ [s] else normalized.dropLast
    else if !removeLeading then normalized ++ [s] else normalized
  else if s ≠ str "." then normalized ++ [s] else normalized

/-- The segments that `normalize` keeps. -/
def normalizedSegments : List Bytes :=
  url.getPathSegments.foldl (normalizeStep !url.isRelative) []

/-- `Url::normalize`. -/
def normalize : Url :=
  if url.path = [] then url
  else url.buildPath url.normalizedSegments (url.path.head? = some (chr '/'))
    (url.path.getLast? = some (chr '/'))

/-! ## What a path denotes -/

/-- The segments that stay in a directory. -/
def isIdle (s : Bytes) : Bool := s = [] || s = str "."

/-- The directory that a path leads to: from the root if it begins with a slash, else from the base
directory. -/
def resolve (base : List Bytes) (path : Bytes) : List Bytes :=
  walk isIdle (str "..") (if path.head? = some (chr '/') then [] else base) (path.splitOn (chr '/'))

/-- `..` is not idle. -/
theorem isIdle_up : isIdle (str "..") = false := by decide

/-! ## Segments -/

variable {url}

/-- The segments of a path are what is between the slashes. -/
theorem segmentsLoop_eq {seg : Bytes} (hseg : chr '/' ∉ seg) (s : Bytes) :
    segmentsLoop seg s = ((seg ++ s).splitOn (chr '/')).filter (· ≠ []) := by
  induction s generalizing seg with
  | nil =>
      rw [List.append_nil, List.splitOn_eq_singleton hseg, segmentsLoop]
      by_cases h : seg = []
      · rw [if_pos h, List.filter_cons_of_neg (by simpa using h), List.filter_nil]
      · rw [if_neg h, List.filter_cons_of_pos (by simpa using h), List.filter_nil]
  | cons c s ih =>
      rw [segmentsLoop]
      by_cases hc : c = chr '/'
      · rw [if_pos hc, hc, List.splitOn_append_cons_self_of_not_mem hseg, ih List.not_mem_nil,
          List.nil_append]
        by_cases h : seg = []
        · rw [if_pos h, List.filter_cons_of_neg (by simpa using h)]
        · rw [if_neg h, List.filter_cons_of_pos (by simpa using h)]
      · have hseg' : chr '/' ∉ seg ++ [c] := by
          simp only [List.mem_append, List.mem_singleton, not_or]
          exact ⟨hseg, Ne.symm hc⟩
        rw [if_neg hc, ih hseg', List.append_assoc, List.singleton_append]

/-- The segments of a path are what stands between its slashes, but for what is empty. -/
theorem getPathSegments_eq :
    url.getPathSegments = (url.path.splitOn (chr '/')).filter (· ≠ []) := by
  rw [getPathSegments, segmentsLoop_eq List.not_mem_nil, List.nil_append]

/-- A segment is not empty and has no slash. -/
theorem of_mem_getPathSegments {s : Bytes} (h : s ∈ url.getPathSegments) :
    s ≠ [] ∧ chr '/' ∉ s := by
  have hloop : ∀ seg : Bytes, chr '/' ∉ seg → s ∈ segmentsLoop seg url.path →
      s ≠ [] ∧ chr '/' ∉ s := by
    clear h
    induction url.path with
    | nil =>
        intro seg hseg h
        rw [segmentsLoop] at h
        split_ifs at h with hnil
        · cases h
        · rw [List.mem_singleton.mp h]
          exact ⟨hnil, hseg⟩
    | cons c it ih =>
        intro seg hseg h
        rw [segmentsLoop] at h
        split_ifs at h with hc hnil
        · exact ih [] List.not_mem_nil h
        · rcases List.mem_cons.mp h with rfl | h
          · exact ⟨hnil, hseg⟩
          · exact ih [] List.not_mem_nil h
        · refine ih (seg ++ [c]) ?_ h
          simp only [List.mem_append, List.mem_singleton, not_or]
          exact ⟨hseg, Ne.symm hc⟩
  exact hloop [] List.not_mem_nil h

/-- The directory of a path by its segments. -/
theorem resolve_eq (base : List Bytes) : resolve base url.path =
    walk isIdle (str "..") (if url.path.head? = some (chr '/') then [] else base)
      url.getPathSegments := by
  rw [getPathSegments_eq, walk_filter, resolve]
  intro s hs
  have hnil : s = [] := by simpa using hs
  rw [hnil]
  rfl

/-- **The stack of `normalize`.** -/
theorem normalizedSegments_eq :
    url.normalizedSegments = shorten isIdle (str "..") url.isRelative url.getPathSegments := by
  have hstep : ∀ s ∈ url.getPathSegments, ∀ stack, normalizeStep (!url.isRelative) stack s =
      shortenStep isIdle (str "..") url.isRelative stack s := by
    intro s hs stack
    have hnil : s ≠ [] := (of_mem_getPathSegments hs).1
    have hidle : isIdle s = decide (s = str ".") := by simp [isIdle, hnil]
    simp only [normalizeStep, shortenStep, hidle, Bool.not_not, decide_eq_true_eq, ne_eq, ite_not]
  exact List.foldl_ext _ _ _ fun stack s hs => hstep s hs stack

/-- The normalised segments are not empty and have no slash. -/
theorem of_mem_normalizedSegments {s : Bytes} (h : s ∈ url.normalizedSegments) :
    s ≠ [] ∧ chr '/' ∉ s := by
  rw [normalizedSegments_eq] at h
  exact of_mem_getPathSegments (mem_of_mem_shorten h)

/-! ## The rebuilt path -/

variable {leading trailing : Bool} {segments : List Bytes}

/-- A slash does not count. -/
theorem segmentsLoop_slash (s : Bytes) : segmentsLoop [] (chr '/' :: s) = segmentsLoop [] s := by
  rw [segmentsLoop, if_pos rfl, if_pos rfl]

/-- A segment that is read to its end. -/
theorem segmentsLoop_append {s : Bytes} (hs : s ≠ [] ∧ chr '/' ∉ s) {rest : Bytes}
    (hrest : ∀ c, rest.head? = some c → c = chr '/') :
    segmentsLoop [] (s ++ rest) = s :: segmentsLoop [] rest := by
  rw [segmentsLoop_eq List.not_mem_nil, List.nil_append]
  cases rest with
  | nil =>
      rw [List.append_nil, List.splitOn_eq_singleton hs.2,
        List.filter_cons_of_pos (by simpa using hs.1)]
      rfl
  | cons c rest =>
      rw [hrest c rfl, List.splitOn_append_cons_self_of_not_mem hs.2,
        List.filter_cons_of_pos (by simpa using hs.1), segmentsLoop_slash,
        segmentsLoop_eq List.not_mem_nil, List.nil_append]

/-- A path that does not begin with its first segment begins with a slash. -/
theorem head_buildPathLoop_false (leading trailing : Bool) (segments : List Bytes) {c : UInt8}
    (h : (url.buildPathLoop leading false segments ++ if trailing then str "/" else []).head? =
      some c) : c = chr '/' := by
  cases segments with
  | nil =>
      cases trailing with
      | false => cases h
      | true => exact (Option.some.inj h).symm
  | cons s segments => exact (Option.some.inj h).symm

/-- After the first segment, `build_path` writes slashes and segments. -/
theorem segmentsLoop_buildPathLoop (hsegs : ∀ s ∈ segments, s ≠ [] ∧ chr '/' ∉ s) :
    segmentsLoop [] (url.buildPathLoop leading false segments ++
      if trailing then str "/" else []) = segments := by
  induction segments with
  | nil => cases trailing <;> rfl
  | cons s segments ih =>
      have hrest := ih fun x hx => hsegs x (List.mem_cons_of_mem _ hx)
      have hslash : url.beforeSegment leading false s = [chr '/'] := rfl
      rw [buildPathLoop, hslash, List.append_assoc, List.append_assoc, List.singleton_append,
        segmentsLoop_slash, segmentsLoop_append (hsegs s List.mem_cons_self)
          fun c => head_buildPathLoop_false leading trailing segments, hrest]

/-- The segment that keeps a colon from being read as the end of a scheme. -/
def colonGuard (url : Url) (leading : Bool) (segments : List Bytes) : List Bytes :=
  if !leading && url.scheme = [] && chr ':' ∈ segments.headD [] then [str "."] else []

/-- The text depends on the scheme only. -/
theorem buildPathLoop_scheme {url' : Url} (h : url'.scheme = url.scheme) (leading first : Bool)
    (segments : List Bytes) :
    url'.buildPathLoop leading first segments = url.buildPathLoop leading first segments := by
  induction segments generalizing first with
  | nil => rfl
  | cons s segments ih => rw [buildPathLoop, buildPathLoop, ih, beforeSegment, beforeSegment, h]

/-- A path that is built again. -/
theorem buildPath_buildPath (segments segments' : List Bytes) (leading trailing leading' trailing' :
    Bool) : (url.buildPath segments leading trailing).buildPath segments' leading' trailing' =
      url.buildPath segments' leading' trailing' := by
  have hscheme : (url.buildPath segments leading trailing).scheme = url.scheme := rfl
  rw [buildPath, buildPathLoop_scheme hscheme]
  rfl

/-- What stands in front of the first segment. -/
theorem segmentsLoop_beforeSegment (s : Bytes) (segments : List Bytes) (rest : Bytes) :
    segmentsLoop [] (url.beforeSegment leading true s ++ rest) =
      url.colonGuard leading (s :: segments) ++ segmentsLoop [] rest := by
  rw [beforeSegment, if_pos rfl, colonGuard, List.headD_cons]
  cases leading with
  | true =>
      rw [if_pos rfl, if_neg (by simp)]
      exact segmentsLoop_slash rest
  | false =>
      rw [if_neg (by simp)]
      by_cases hcolon : (url.scheme = [] && chr ':' ∈ s) = true
      · have hdot : str "." ≠ [] ∧ chr '/' ∉ str "." := by decide
        have htext : str "./" ++ rest = str "." ++ chr '/' :: rest := rfl
        have hhead : ∀ c, (chr '/' :: rest).head? = some c → c = chr '/' := fun c hc =>
          (Option.some.inj hc).symm
        rw [if_pos hcolon, if_pos (by simpa using hcolon), htext, segmentsLoop_append hdot hhead,
          segmentsLoop_slash]
        rfl
      · rw [if_neg hcolon, if_neg (by simpa using hcolon), List.nil_append, List.nil_append]

/-- **The segments of a rebuilt path.** -/
theorem getPathSegments_buildPath (hsegs : ∀ s ∈ segments, s ≠ [] ∧ chr '/' ∉ s)
    (leading trailing : Bool) : (url.buildPath segments leading trailing).getPathSegments =
      url.colonGuard leading segments ++ segments := by
  rw [getPathSegments, buildPath]
  cases segments with
  | nil =>
      have hguard : url.colonGuard leading [] = [] := if_neg (by simp)
      rw [hguard]
      cases trailing <;> rfl
  | cons s segments =>
      rw [buildPathLoop, List.append_assoc, List.append_assoc,
        segmentsLoop_beforeSegment s segments, segmentsLoop_append (hsegs s List.mem_cons_self)
          fun c => head_buildPathLoop_false leading trailing segments,
        segmentsLoop_buildPathLoop fun x hx => hsegs x (List.mem_cons_of_mem _ hx)]

/-- A rebuilt path with a segment begins with a slash as it should. -/
theorem head_buildPath (hsegs : ∀ s ∈ segments, s ≠ [] ∧ chr '/' ∉ s) (hne : segments ≠ [])
    (leading trailing : Bool) :
    decide ((url.buildPath segments leading trailing).path.head? = some (chr '/')) = leading := by
  cases segments with
  | nil => exact absurd rfl hne
  | cons s segments =>
      obtain ⟨hnil, hslash⟩ := hsegs s List.mem_cons_self
      cases s with
      | nil => exact absurd rfl hnil
      | cons c s =>
          have hc : c ≠ chr '/' := fun h => hslash (h ▸ List.mem_cons_self)
          rw [buildPath, buildPathLoop, beforeSegment, if_pos rfl]
          cases leading with
          | true => rfl
          | false =>
              rw [if_neg (by simp)]
              split
              · rfl
              · simpa using hc

/-- A rebuilt path with a segment ends with a slash as it should. -/
theorem getLast_buildPath (hsegs : ∀ s ∈ segments, s ≠ [] ∧ chr '/' ∉ s) (hne : segments ≠ [])
    (leading trailing : Bool) :
    decide ((url.buildPath segments leading trailing).path.getLast? = some (chr '/')) =
      trailing := by
  cases trailing with
  | true => simp [buildPath, str]
  | false =>
      have hloop : ∀ first, (url.buildPathLoop leading first segments).getLast? ≠
          some (chr '/') := by
        induction segments with
        | nil => exact absurd rfl hne
        | cons s segments ih =>
            intro first
            obtain ⟨hnil, hslash⟩ := hsegs s List.mem_cons_self
            have hlast : ∀ p : Bytes, (p ++ s).getLast? ≠ some (chr '/') := fun p h => by
              rw [List.getLast?_append_of_ne_nil p hnil] at h
              exact hslash (List.mem_of_getLast? h)
            rw [buildPathLoop]
            cases segments with
            | nil =>
                rw [buildPathLoop, List.append_nil]
                exact hlast _
            | cons x segments =>
                rw [List.getLast?_append_of_ne_nil _ (by
                  rw [buildPathLoop, beforeSegment, if_neg (by simp)]
                  exact List.cons_ne_nil _ _)]
                exact ih (fun y hy => hsegs y (List.mem_cons_of_mem _ hy)) (List.cons_ne_nil _ _) _
      have hpath : (url.buildPath segments leading false).path =
          url.buildPathLoop leading true segments := List.append_nil _
      exact decide_eq_false (hpath ▸ hloop true)

/-! ## Normalising -/

/-- A path that is not empty is rebuilt from the segments that are kept. -/
theorem normalize_of_ne_nil (h : url.path ≠ []) :
    url.normalize = url.buildPath url.normalizedSegments (url.path.head? = some (chr '/'))
      (url.path.getLast? = some (chr '/')) := if_neg h

/-- Only the path changes. -/
theorem normalize_eq (url : Url) : url.normalize = { url with path := url.normalize.path } := by
  by_cases h : url.path = []
  · rw [normalize, if_pos h]
  · rw [normalize_of_ne_nil h]
    rfl

/-- An empty path has no segments. -/
theorem normalizedSegments_nil (h : url.path = []) : url.normalizedSegments = [] := by
  rw [normalizedSegments, getPathSegments, h]
  rfl

/-- If segments are kept, the path begins with a slash as it did. -/
theorem head_normalize (hne : url.normalizedSegments ≠ []) :
    decide (url.normalize.path.head? = some (chr '/')) =
      decide (url.path.head? = some (chr '/')) := by
  rw [normalize_of_ne_nil fun hnil => hne (normalizedSegments_nil hnil)]
  exact head_buildPath (fun s => of_mem_normalizedSegments) hne _ _

/-- **The segments of a normalised path.** -/
theorem getPathSegments_normalize (url : Url) : url.normalize.getPathSegments =
    url.colonGuard (url.path.head? = some (chr '/')) url.normalizedSegments ++
      url.normalizedSegments := by
  by_cases h : url.path = []
  · have hguard : url.colonGuard (url.path.head? = some (chr '/')) [] = [] := if_neg (by simp)
    rw [normalizedSegments_nil h, hguard, normalize, if_pos h, getPathSegments, h]
    rfl
  · rw [normalize_of_ne_nil h, getPathSegments_buildPath fun s => of_mem_normalizedSegments]

/-- The segments that were kept are kept again. -/
theorem normalizedSegments_normalize (url : Url) :
    url.normalize.normalizedSegments = url.normalizedSegments := by
  have hrel : url.normalize.isRelative = url.isRelative := by
    rw [normalize_eq]
    rfl
  have hguard : ∀ l : List Bytes, shorten isIdle (str "..") url.isRelative
      (url.colonGuard (url.path.head? = some (chr '/')) url.normalizedSegments ++ l) =
      shorten isIdle (str "..") url.isRelative l := by
    intro l
    unfold colonGuard
    split <;> rfl
  rw [normalizedSegments_eq, hrel, getPathSegments_normalize, hguard, normalizedSegments_eq,
    shorten_shorten isIdle_up]

/-- **Normalising twice.** -/
theorem normalize_normalize (url : Url) : url.normalize.normalize = url.normalize := by
  by_cases h : url.path = []
  · have hsame : url.normalize = url := if_pos h
    rw [hsame, hsame]
  · by_cases hpath : url.normalize.path = []
    · rw [normalize, if_pos hpath]
    · rw [normalize_of_ne_nil hpath, normalizedSegments_normalize, normalize_of_ne_nil h]
      by_cases hnil : url.normalizedSegments = []
      · -- all segments cancel: what is left is empty or a slash
        rw [hnil, buildPath_buildPath]
        cases htrailing : decide (url.path.getLast? = some (chr '/')) <;> rfl
      · rw [head_buildPath (fun s => of_mem_normalizedSegments) hnil,
          getLast_buildPath (fun s => of_mem_normalizedSegments) hnil, buildPath_buildPath]

/-! ## The normal form -/

/-- The segments that are kept: a run of `..`, if the URL is relative, and names. -/
theorem canonical_normalizedSegments (url : Url) :
    Canonical isIdle (str "..") url.isRelative url.normalizedSegments := by
  rw [normalizedSegments_eq]
  exact canonical_shorten isIdle_up _ _

/-- A `.` is put in front only of a relative path without a scheme whose first segment has a colon.
-/
theorem colonGuard_cases (url : Url) (leading : Bool) (segments : List Bytes) :
    url.colonGuard leading segments = [] ∨
    (url.colonGuard leading segments = [str "."] ∧ leading = false ∧ url.scheme = [] ∧
      ∃ s rest, segments = s :: rest ∧ chr ':' ∈ s) := by
  unfold colonGuard
  split
  · rename_i h
    simp only [Bool.and_eq_true, Bool.not_eq_true', decide_eq_true_eq] at h
    obtain ⟨⟨hleading, hscheme⟩, hcolon⟩ := h
    cases segments with
    | nil => cases hcolon
    | cons s rest => exact .inr ⟨rfl, hleading, hscheme, s, rest, rfl, hcolon⟩
  · exact .inl rfl

/-- No segment that is kept is a `.`. -/
theorem dot_not_mem_normalizedSegments (url : Url) : str "." ∉ url.normalizedSegments := by
  obtain ⟨n, names, heq, -, hnames⟩ := canonical_normalizedSegments url
  intro h
  rw [heq] at h
  rcases List.mem_append.mp h with h | h
  · exact absurd (List.eq_of_mem_replicate h) (by decide)
  · exact absurd (hnames _ h).1 (by decide)

/-- **Where a `.` stands**: before a first segment with a colon. -/
theorem dot_normalize {url : Url} {i : Nat}
    (h : url.normalize.getPathSegments[i]? = some (str ".")) :
    i = 0 ∧ url.scheme = [] ∧ url.normalize.path.head? ≠ some (chr '/') ∧
      ∃ s, url.normalize.getPathSegments[1]? = some s ∧ chr ':' ∈ s := by
  have hmem := dot_not_mem_normalizedSegments url
  rw [getPathSegments_normalize] at h ⊢
  rcases colonGuard_cases url (url.path.head? = some (chr '/')) url.normalizedSegments with
    hguard | ⟨hguard, hleading, hscheme, s, rest, hsegs, hcolon⟩
  · rw [hguard, List.nil_append] at h
    exact absurd (List.mem_of_getElem? h) hmem
  · rw [hguard, List.singleton_append] at h ⊢
    refine ⟨?_, hscheme, fun hhead => ?_, s, by rw [hsegs]; rfl, hcolon⟩
    · cases i with
      | zero => rfl
      | succ i =>
          rw [List.getElem?_cons_succ] at h
          exact absurd (List.mem_of_getElem? h) hmem
    · have hne : url.normalizedSegments ≠ [] := by
        rw [hsegs]
        exact List.cons_ne_nil _ _
      have hbuilt := head_normalize hne
      rw [hleading] at hbuilt
      exact absurd hhead (of_decide_eq_false hbuilt)

/-- **Where a `..` stands**: in an initial run of a relative URL's path. -/
theorem up_normalize {url : Url} {i : Nat}
    (h : url.normalize.getPathSegments[i]? = some (str "..")) :
    url.scheme = [] ∧ ∀ j ≤ i, url.normalize.getPathSegments[j]? = some (str "..") := by
  obtain ⟨n, names, heq, hrel, hnames⟩ := canonical_normalizedSegments url
  have hup : str ".." ∉ names := fun hm => (hnames _ hm).2 rfl
  rw [getPathSegments_normalize] at h ⊢
  rcases colonGuard_cases url (url.path.head? = some (chr '/')) url.normalizedSegments with
    hguard | ⟨hguard, -, -, s, rest, hsegs, hcolon⟩
  · rw [hguard, List.nil_append, heq] at h ⊢
    have hlt : i < n := by
      by_contra hge
      rw [List.getElem?_append_right (by simpa using hge)] at h
      exact hup (List.mem_of_getElem? h)
    constructor
    · have hrelative : url.isRelative = true := by
        by_contra hfalse
        have hn := hrel (by simpa using hfalse)
        omega
      exact of_decide_eq_true hrelative
    · intro j hj
      rw [List.getElem?_append_left (by rw [List.length_replicate]; omega),
        List.getElem?_replicate_of_lt (by omega)]
  · -- a first segment with a colon is a name, and no `..` follows a name
    have hn : n = 0 := by
      cases n with
      | zero => rfl
      | succ n =>
          rw [hsegs, List.replicate_succ, List.cons_append] at heq
          rw [(List.cons.inj heq).1] at hcolon
          exact absurd hcolon (by decide)
    rw [hguard, heq, hn, List.replicate_zero, List.nil_append] at h
    rcases List.mem_append.mp (List.mem_of_getElem? h) with hm | hm
    · exact absurd (List.mem_singleton.mp hm) (by decide)
    · exact absurd hm hup

/-- **The normal form of a path.** `Url::normalize` changes only the path and is idempotent. In the
path that it leaves, a `.` is the first segment of a relative path and stands before a segment with a
colon, and a `..` belongs to an initial run of them, in an URL without scheme.

Source: `Url::normalize`, `Url::build_path`, `Url::get_path_segments`. -/
theorem normalize_canonical (url : Url) :
    url.normalize.normalize = url.normalize ∧
    url.normalize = { url with path := url.normalize.path } ∧
    (∀ i : Nat, url.normalize.getPathSegments[i]? = some (str ".") →
      i = 0 ∧ url.scheme = [] ∧ url.normalize.path.head? ≠ some (chr '/') ∧
        ∃ s, url.normalize.getPathSegments[1]? = some s ∧ chr ':' ∈ s) ∧
    ∀ i : Nat, url.normalize.getPathSegments[i]? = some (str "..") →
      url.scheme = [] ∧ ∀ j ≤ i, url.normalize.getPathSegments[j]? = some (str "..") :=
  ⟨normalize_normalize url, normalize_eq url, fun _ => dot_normalize, fun _ => up_normalize⟩

/-! ## What the normal form denotes -/

/-- The path leads back to where it starts: from every directory in a relative URL, from the root in
an URL with a scheme. -/
def LeadsBack (url : Url) : Prop :=
  (url.isRelative = true → ∀ dir, walk isIdle (str "..") dir url.getPathSegments = dir) ∧
  (url.isRelative = false → walk isIdle (str "..") [] url.getPathSegments = [])

/-- All segments cancel. -/
theorem leadsBack_iff {url : Url} : url.LeadsBack ↔ url.normalizedSegments = [] := by
  rw [normalizedSegments_eq, LeadsBack]
  cases url.isRelative with
  | true =>
      rw [shorten_eq_nil_iff isIdle_up]
      simp only [forall_const, Bool.true_eq_false, false_imp_iff, and_true]
  | false =>
      rw [shorten_eq_nil_iff_root isIdle_up]
      simp only [forall_const, Bool.false_eq_true, false_imp_iff, true_and]

/-- Where a path starts. -/
theorem resolve_start (base : List Bytes) {leading : Bool} {path : Bytes}
    (h : decide (path.head? = some (chr '/')) = leading) :
    (if path.head? = some (chr '/') then [] else base) = if leading then [] else base := by
  subst h
  simp only [decide_eq_true_eq]

/-- A path of which something is kept. -/
theorem resolve_normalize_of_ne_nil {url : Url} (hne : url.normalizedSegments ≠ [])
    (h : url.isRelative = true ∨ url.path.head? = some (chr '/')) (base : List Bytes) :
    resolve base url.normalize.path = resolve base url.path := by
  have hhead := head_normalize hne
  have hguard : ∀ dir, walk isIdle (str "..") dir
      (url.colonGuard (url.path.head? = some (chr '/')) url.normalizedSegments) = dir := by
    intro dir
    unfold colonGuard
    split <;> rfl
  have hstart : url.isRelative = true ∨
      (if url.path.head? = some (chr '/') then [] else base) = [] :=
    h.imp_right fun hslash => if_pos hslash
  rw [resolve_eq, resolve_start base hhead, ← resolve_start base rfl, getPathSegments_normalize,
    walk_append, hguard, normalizedSegments_eq, walk_shorten isIdle_up hstart, ← resolve_eq]

/-- **A path of which nothing is kept**: the trailing slash is all that is left, and is now a leading
one. -/
theorem resolve_normalize_of_nil {url : Url} (hpath : url.path ≠ [])
    (hnil : url.normalizedSegments = []) (base : List Bytes) :
    resolve base url.normalize.path =
      if url.path.getLast? = some (chr '/') then [] else base := by
  rw [normalize_of_ne_nil hpath, hnil]
  by_cases htrailing : url.path.getLast? = some (chr '/')
  · rw [if_pos htrailing, decide_eq_true htrailing]
    rfl
  · rw [if_neg htrailing, decide_eq_false htrailing]
    rfl

/-- **What `Url::normalize` keeps of the meaning of a path.** The path of a relative URL, or a path
that begins with a slash, leads to the same directory as before, exactly if the base is the root, or
the path does not lead back to where it starts, or it has a slash at both ends or at neither.

Source: `Url::normalize`, `Url::build_path`, `Url::get_path_segments`. -/
theorem resolve_normalize_iff (url : Url) (base : List Bytes)
    (h : url.isRelative = true ∨ url.path.head? = some (chr '/')) :
    resolve base url.normalize.path = resolve base url.path ↔
      base = [] ∨ (url.LeadsBack →
        (url.path.head? = some (chr '/') ↔ url.path.getLast? = some (chr '/'))) := by
  rw [leadsBack_iff]
  by_cases hpath : url.path = []
  · have hsame : url.normalize = url := if_pos hpath
    rw [hsame, hpath]
    exact iff_of_true rfl (.inr fun _ => by simp)
  · by_cases hnil : url.normalizedSegments = []
    · have hback : resolve base url.path =
          if url.path.head? = some (chr '/') then [] else base := by
        have hstart : url.isRelative = true ∨
            (if url.path.head? = some (chr '/') then [] else base) = [] :=
          h.imp_right fun hslash => if_pos hslash
        rw [resolve_eq, ← walk_shorten isIdle_up hstart, ← normalizedSegments_eq, hnil, walk_nil]
      rw [resolve_normalize_of_nil hpath hnil, hback]
      by_cases hhead : url.path.head? = some (chr '/') <;>
        by_cases hlast : url.path.getLast? = some (chr '/') <;>
        simp [hhead, hlast, hnil, eq_comm]
    · exact iff_of_true (resolve_normalize_of_ne_nil hnil h base) (.inr fun hback =>
        absurd hback hnil)

/-- The path of a relative URL that goes down and up again, with a slash at the end. -/
def downAndUp : Url := { empty with path := str "a/../" }

/-- The sample, in a directory `d`. -/
theorem resolve_normalize_downAndUp :
    (resolve [str "d"] downAndUp.normalize.path = resolve [str "d"] downAndUp.path ↔
      [str "d"] = [] ∨ (downAndUp.LeadsBack →
        (downAndUp.path.head? = some (chr '/') ↔ downAndUp.path.getLast? = some (chr '/')))) :=
  resolve_normalize_iff downAndUp [str "d"] (.inl rfl)

/-- `a/../` leads to the base, its normal form `/` to the root. -/
theorem normalize_leaves_base : ¬∀ (url : Url) (base : List Bytes),
    url.isRelative = true ∨ url.path.head? = some (chr '/') →
      resolve base url.normalize.path = resolve base url.path := by
  intro h
  have hsame := h downAndUp [str "d"] (.inl rfl)
  have hnormal : downAndUp.normalize.path = str "/" := by decide
  rw [hnormal] at hsame
  exact absurd hsame (by decide)

end Url

end SocialNetwork.Helpers
