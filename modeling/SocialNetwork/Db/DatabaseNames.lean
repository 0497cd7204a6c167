import SocialNetwork.Db.UsableUrls

/-!
# The database that a URL names

The path of a database URL names the database, and a URL without a path stands for `postgres`. A path
that is not percent-encoded properly should be an error. But `Url::decode` leaves its output empty for
such a path, so that `validate` takes it for an absent one and fills in `postgres`; and so it does for
a path whose slashes are escaped. `names_database_iff` is the exact condition under which a node that
passes the validation names its own database.
-/

namespace SocialNetwork.Db

open Foundation Helpers Net Config

variable {R : Resolver}

/-- The text of the path of a URL: after the authority, up to the first `?` or `#`. -/
def rawPath (url : Bytes) : Bytes := (UrlText.ofBytes (withScheme url)).path

/-- The database name that `db_start` takes from a stored URL. -/
def databaseName (node : Pgsql) : Except Bytes Bytes := do
  let url ← Url.parse node.url
  substr url.path 1

/-- The name that `db_start` takes is the one that the path stands for: `postgres` for a path of
slashes, and otherwise the value of the path without its leading slash. -/
def NamesDatabase (path : Bytes) (node : Pgsql) : Prop :=
  ((∀ c ∈ path, c = chr '/') ∧ databaseName node = .ok (str "postgres")) ∨
    ∃ value, Escapes path value ∧ databaseName node = .ok (value.drop 1)

/-- The path is percent-encoded, and it has a segment after decoding, unless it was written without
one in a URL with a scheme. -/
def NamedPath (url : Bytes) : Prop :=
  ∃ value, Escapes (rawPath url) value ∧
    ((∃ c ∈ value, c ≠ chr '/') ∨
      (UrlText.ofBytes (withScheme url)).scheme.getD [] ≠ [] ∧ ∀ c ∈ rawPath url, c = chr '/')

/-! ## Paths of slashes -/

/-- A path of slashes stands for itself. -/
theorem escapes_slashes {path : Bytes} (h : ∀ c ∈ path, c = chr '/') : Escapes path path := by
  induction path with
  | nil => exact .nil
  | cons c path ih =>
      rw [List.forall_mem_cons] at h
      exact .plain (by rw [h.1]; decide) (ih h.2)

/-- A value of slashes contains no letter. -/
theorem ne_drop_of_slashes {value name : Bytes} (h : ∀ c ∈ value, c = chr '/')
    (hname : ∃ c ∈ name, c ≠ chr '/') : name ≠ value.drop 1 := by
  rintro rfl
  obtain ⟨c, hc, hne⟩ := hname
  exact hne (h c (List.mem_of_mem_drop hc))

/-! ## The stored name -/

/-- The name of the database in a stored URL whose path is known. -/
theorem databaseName_of_parse {node : Pgsql} {url : Url} {c : UInt8} {name : Bytes}
    (hparse : Url.parse node.url = .ok url) (hpath : url.path = c :: name) :
    databaseName node = .ok name := by
  simp only [databaseName, hparse, bind, Except.bind]
  rw [substr, if_neg (by rw [hpath]; exact Nat.not_lt.mpr (Nat.le_add_left 1 name.length)), hpath]
  rfl

/-- A node that passes the validation: the name of its database, by the segments of the path. -/
theorem databaseName_validateNode {node : Pgsql} (h : (validateNode R node).2 = []) :
    ((∀ c ∈ decode (rawPath node.url), c = chr '/') → databaseName (validateNode R node).1 =
      .ok (if (UrlText.ofBytes (withScheme node.url)).scheme.getD [] = [] then str "ostgres"
        else str "postgres")) ∧
    ((¬∀ c ∈ decode (rawPath node.url), c = chr '/') → databaseName (validateNode R node).1 =
      .ok ((decode (rawPath node.url)).drop 1)) := by
  obtain ⟨parsed, sockAddr, port, hresolving, -, -, hurl⟩ := stored_of_no_errors h
  have hwf := Url.wellFormed_of_parse hresolving.parse
  have hhead := Url.path_of_host hresolving.parse hresolving.host.1
  have hdecoded : parsed.path = decode (rawPath node.url) := (Url.reads_of_parse hresolving.parse).path
  have hsegments : parsed.getPathSegments = [] ↔ ∀ c ∈ decode (rawPath node.url), c = chr '/' := by
    rw [Url.getPathSegments, Url.segmentsLoop_eq_nil_iff, hdecoded]
  have hkept (hnot : ¬∀ c ∈ decode (rawPath node.url), c = chr '/') :
      parsed.path = chr '/' :: (decode (rawPath node.url)).drop 1 := by
    cases hcons : parsed.path with
    | nil =>
        rw [← hdecoded, hcons] at hnot
        exact absurd (fun c hc => by cases hc) hnot
    | cons c path =>
        rw [hcons] at hhead
        obtain rfl : c = chr '/' := by simpa using hhead
        rw [← hdecoded, hcons]
        rfl
  have hscheme := hresolving.scheme_eq_nil
  rcases hresolving.scheme with hnil | hpg
  · have hparse := parse_storedUrl_noScheme hwf hnil hhead port
    rw [← hurl] at hparse
    rw [if_pos (hscheme.mp hnil)]
    constructor
    · intro hslashes
      exact databaseName_of_parse hparse (if_pos (hsegments.mpr hslashes))
    · intro hslashes
      have hpath : (storedUrl parsed port).path = chr '/' :: (decode (rawPath node.url)).drop 1 :=
        (if_neg (hsegments.not.mpr hslashes)).trans (hkept hslashes)
      exact databaseName_of_parse hparse hpath
  · have hopen : parsed.host.head? = some (chr '[') → chr ':' ∈ parsed.host :=
      fun hopen => absurd hopen hresolving.host.2
    have hparse := parse_storedUrl_eq hwf hpg hopen port
    rw [← hurl, printedPath_storedUrl hpg hhead] at hparse
    rw [if_neg (hscheme.not.mp (by rw [hpg]; decide))]
    constructor
    · intro hslashes
      exact databaseName_of_parse hparse (if_pos (hsegments.mpr hslashes))
    · intro hslashes
      exact databaseName_of_parse hparse ((if_neg (hsegments.not.mpr hslashes)).trans (hkept hslashes))

/-! ## The condition -/

/-- A node that passes the validation names its database exactly if its path does. -/
theorem namesDatabase_iff {node : Pgsql} (h : (validateNode R node).2 = []) :
    NamesDatabase (rawPath node.url) (validateNode R node).1 ↔ NamedPath node.url := by
  obtain ⟨hdefault, hname⟩ := databaseName_validateNode h
  have hpostgres : ∃ c ∈ str "postgres", c ≠ chr '/' := ⟨chr 'p', by decide, by decide⟩
  have hostgres : ∃ c ∈ str "ostgres", c ≠ chr '/' := ⟨chr 'o', by decide, by decide⟩
  unfold NamesDatabase NamedPath
  by_cases hslashes : ∀ c ∈ decode (rawPath node.url), c = chr '/'
  · rw [hdefault hslashes]
    constructor
    · rintro (⟨hpath, hstored⟩ | ⟨value, hvalue, hkept⟩)
      · refine ⟨_, escapes_slashes hpath, .inr ⟨fun hnil => ?_, hpath⟩⟩
        rw [if_pos hnil] at hstored
        exact absurd (Except.ok.inj hstored) (by decide)
      · rw [hvalue.decode] at hslashes
        have heq := Except.ok.inj hkept
        split at heq
        · exact absurd heq (ne_drop_of_slashes hslashes hostgres)
        · exact absurd heq (ne_drop_of_slashes hslashes hpostgres)
    · rintro ⟨value, hvalue, ⟨c, hc, hne⟩ | ⟨hscheme, hpath⟩⟩
      · rw [hvalue.decode] at hslashes
        exact absurd (hslashes c hc) hne
      · rw [if_neg hscheme]
        exact .inl ⟨hpath, rfl⟩
  · rw [hname hslashes]
    have hvalue : Escapes (rawPath node.url) (decode (rawPath node.url)) :=
      escapes_decode fun hnil => hslashes (by rw [hnil]; exact fun c hc => by cases hc)
    refine iff_of_true (.inr ⟨_, hvalue, rfl⟩) ⟨_, hvalue, .inl ?_⟩
    push Not at hslashes
    exact hslashes

/-- **Which validated nodes name their own database**: the master, and each replica, that is validated
without an error names the database of its URL exactly if the path is percent-encoded and has a
segment after decoding, or has only slashes in a URL with a scheme.
Source: `Url::decode`, `Url::parse_path`, `config_s::validate`, `App::db_start` -/
theorem names_database_iff (dns : Nat → Resolver) (cfg : ConfigS) :
    ((validateReports dns cfg).2[0]? = some [] →
      (NamesDatabase (rawPath cfg.pgsqlMaster.url) (validate dns cfg).1.pgsqlMaster ↔
        NamedPath cfg.pgsqlMaster.url)) ∧
    ∀ i node, cfg.pgsqlReplica[i]? = some node → (validateReports dns cfg).2[i + 1]? = some [] →
      ∃ node', (validate dns cfg).1.pgsqlReplica[i]? = some node' ∧
        (NamesDatabase (rawPath node.url) node' ↔ NamedPath node.url) := by
  constructor
  · intro hreport
    rw [validate_master.2] at hreport
    rw [validate_master.1]
    exact namesDatabase_iff (Option.some.inj hreport)
  · intro i node hreplica hreport
    rw [(validate_replica hreplica).2] at hreport
    exact ⟨_, (validate_replica hreplica).1, namesDatabase_iff (Option.some.inj hreport)⟩

/-- A configuration whose master has a malformed escape in its path. -/
def malformedConfig : ConfigS :=
  { aliceConfig with pgsqlMaster := ⟨str "postgresql://127.0.0.1:5432/app%zz", [], []⟩ }

theorem malformedConfig_valid :
    (validateReports (fun _ => knowingResolver) malformedConfig).2 = [[], [], [], [], [], []] := by
  decide

theorem names_database_malformed :
    (NamesDatabase (rawPath malformedConfig.pgsqlMaster.url)
        (validate (fun _ => knowingResolver) malformedConfig).1.pgsqlMaster ↔
      NamedPath malformedConfig.pgsqlMaster.url) ∧
    ∃ node', (validate (fun _ => knowingResolver) malformedConfig).1.pgsqlReplica[0]? = some node' ∧
      (NamesDatabase (rawPath aliceUrl.node.url) node' ↔ NamedPath aliceUrl.node.url) := by
  have hreport : ∀ i < 2, (validateReports (fun _ => knowingResolver) malformedConfig).2[i]? =
      some [] := by
    rw [malformedConfig_valid]
    decide
  obtain ⟨hmaster, hreplica⟩ := names_database_iff (fun _ => knowingResolver) malformedConfig
  exact ⟨hmaster (hreport 0 (by norm_num)), hreplica 0 aliceUrl.node rfl (hreport 1 (by norm_num))⟩

/-- The path `/app%zz` is not percent-encoded. -/
theorem not_escapes_malformed (value : Bytes) : ¬Escapes (str "/app%zz") value := by
  intro h
  have hpercent : ∀ v, ¬Escapes [chr '%', chr 'z', chr 'z'] v := by
    intro v hv
    cases hv with
    | plain hc _ => exact hc rfl
    | escape hhi _ _ => exact absurd hhi (by rw [show hexDigitValue (chr 'z') = none by decide]; simp)
  have hplain : ∀ {c : UInt8} {text v : Bytes}, c ≠ chr '%' → Escapes (c :: text) v →
      ∃ v', Escapes text v' := by
    intro c text v hc hv
    cases hv with
    | plain _ hrest => exact ⟨_, hrest⟩
    | escape _ _ _ => exact absurd rfl hc
  obtain ⟨v₁, h₁⟩ := hplain (by decide) h
  obtain ⟨v₂, h₂⟩ := hplain (by decide) h₁
  obtain ⟨v₃, h₃⟩ := hplain (by decide) h₂
  obtain ⟨v₄, h₄⟩ := hplain (by decide) h₃
  exact hpercent v₄ h₄

/-- The malformed path is not reported, and `db_start` connects to `postgres`. -/
theorem not_names_database_malformed :
    (validate (fun _ => knowingResolver) malformedConfig).2 = [] ∧
      databaseName (validate (fun _ => knowingResolver) malformedConfig).1.pgsqlMaster =
        .ok (str "postgres") ∧
      (¬∃ value, Escapes (rawPath malformedConfig.pgsqlMaster.url) value) ∧
      ¬NamesDatabase (rawPath malformedConfig.pgsqlMaster.url)
        (validate (fun _ => knowingResolver) malformedConfig).1.pgsqlMaster := by
  have hpath : rawPath malformedConfig.pgsqlMaster.url = str "/app%zz" := by decide
  have hvalid : (validateNode knowingResolver malformedConfig.pgsqlMaster).2 = [] := by decide
  have hdecode : decode (str "/app%zz") = [] :=
    by_contra fun hne => not_escapes_malformed _ (escapes_decode hne)
  have hscheme :
      (UrlText.ofBytes (withScheme malformedConfig.pgsqlMaster.url)).scheme.getD [] ≠ [] := by
    decide
  refine ⟨by rw [validate, malformedConfig_valid]; rfl, ?_, ?_, ?_⟩
  · have hslashes : ∀ c ∈ decode (rawPath malformedConfig.pgsqlMaster.url), c = chr '/' := by
      rw [hpath, hdecode]
      exact List.forall_mem_nil _
    rw [validate_master.1, (databaseName_validateNode hvalid).1 hslashes, if_neg hscheme]
  · rw [hpath]
    rintro ⟨value, hvalue⟩
    exact not_escapes_malformed value hvalue
  · rw [hpath]
    rintro (⟨hslashes, -⟩ | ⟨value, hvalue, -⟩)
    · exact absurd (hslashes (chr 'a') (by decide)) (by decide)
    · exact not_escapes_malformed value hvalue

end SocialNetwork.Db
