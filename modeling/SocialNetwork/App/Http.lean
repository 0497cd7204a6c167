import SocialNetwork.Helpers.Strings

/-!
# Requests, responses and what the handlers read in them

The data of `app.cpp`: the parts of `httplib::Request` and `httplib::Response` that the handlers of
`/login`, `/user/register` and `/user/get/:id` touch, the JSON values they read and build,
`is_valid_uuid_`, and `std::get_time` with the format of a birth date.

The third-party functions are fields of `Externals`: the JSON parser, BCrypt and the reason phrase
of a status code.
-/

namespace SocialNetwork.App

open Foundation Helpers

/-! ## JSON -/

/-- `nlohmann::json`. The handlers look into objects and strings only, and build integers. -/
inductive Json
  | null
  | boolean (value : Bool)
  | number (value : Int)
  | string (value : Bytes)
  | array (items : List Json)
  | object (members : List (Bytes × Json))

namespace Json

/-- The value of a member, if this is an object that has it. -/
def find (key : Bytes) : Json → Option Json
  | .object members => (members.find? fun m => m.1 = key).map Prod.snd
  | _ => none

/-- `json.contains(key)`. -/
def contains (json : Json) (key : Bytes) : Bool := (json.find key).isSome

/-- `json[key]`, on an object; a missing member reads as `null`. -/
def member (json : Json) (key : Bytes) : Json := (json.find key).getD .null

/-- `json.is_string()`. -/
def isString : Json → Bool
  | .string _ => true
  | _ => false

/-- `json.get<std::string>()`, of a string (it is not called on anything else). -/
def getString : Json → Bytes
  | .string value => value
  | _ => []

/-- The text of a string member. -/
def text (json : Json) (key : Bytes) : Option Bytes :=
  match json.find key with
  | some (.string value) => some value
  | _ => none

/-- A member that passed `contains` and `is_string` has a text, which is what is read. -/
theorem text_eq {json : Json} {key : Bytes} (h : (json.member key).isString = true) :
    json.text key = some (json.member key).getString := by
  unfold member at h ⊢
  unfold text
  cases hfind : json.find key with
  | none => simp [hfind, isString] at h
  | some value =>
      cases value with
      | string s => rfl
      | _ => simp [hfind, isString] at h

/-- A member with a text passes both checks. -/
theorem of_text {json : Json} {key s : Bytes} (h : json.text key = some s) :
    json.contains key = true ∧ (json.member key).isString = true ∧ (json.member key).getString = s := by
  unfold text at h
  unfold contains member
  split at h
  · rename_i value hfind
    cases h
    rw [hfind]
    exact ⟨rfl, rfl, rfl⟩
  · cases h

end Json

/-! ## Requests and responses -/

/-- `httplib::Request`. -/
structure HttpRequest where
  method : Bytes
  path : Bytes
  body : Bytes
  pathParams : List (Bytes × Bytes)

/-- `req.path_params.at(key)`, if `req.path_params.contains(key)`. -/
def HttpRequest.pathParam (req : HttpRequest) (key : Bytes) : Option Bytes :=
  (req.pathParams.find? fun m => m.1 = key).map Prod.snd

/-- The body of a response: a dumped JSON value, or text. -/
inductive Content
  | json (value : Json)
  | html (text : Bytes)

/-- `httplib::Response`; the status is `-1` (here `none`) until it is set. -/
structure HttpResponse where
  status : Option Nat
  content : Option Content

namespace HttpResponse

/-- The response a handler is given. -/
def fresh : HttpResponse := ⟨none, none⟩

/-- `res.status = code`. -/
def setStatus (res : HttpResponse) (code : Nat) : HttpResponse := { res with status := some code }

/-- `res.set_content(value.dump(), "application/json")`. -/
def setJson (res : HttpResponse) (value : Json) : HttpResponse :=
  { res with content := some (.json value) }

/-- `res.set_content(text, "text/html")`. -/
def setHtml (res : HttpResponse) (text : Bytes) : HttpResponse :=
  { res with content := some (.html text) }

end HttpResponse

/-- The functions of the libraries that the handlers call. -/
structure Externals where
  /-- `nlohmann::json::parse`, or the text of its exception. -/
  parse : Bytes → Except Bytes Json
  /-- `BCrypt::generateHash(password, workload)`, with the salt it draws. -/
  generateHash : Bytes → Nat → Bytes → Bytes
  /-- `BCrypt::validatePassword(password, hash)`. -/
  validatePassword : Bytes → Bytes → Bool
  /-- `httplib::status_message`. -/
  statusMessage : Nat → Bytes

/-- An ideal BCrypt: a hash validates the password it was made from and no other. -/
def Externals.IdealBcrypt (X : Externals) : Prop :=
  ∀ p q workload salt, X.validatePassword p (X.generateHash q workload salt) = true ↔ p = q

/-! ## UUIDs -/

/-- `[0-9a-fA-F]`. -/
def isHexDigit (c : UInt8) : Bool :=
  isDigit c || (chr 'a' ≤ c && c ≤ chr 'f') || (chr 'A' ≤ c && c ≤ chr 'F')

/-- Groups of hexadecimal digits of the given lengths, with `-` between them and nothing after. -/
def matchGroups : List Nat → Bytes → Bool
  | [], s => s.isEmpty
  | [n], s => s.length = n && s.all isHexDigit
  | n :: ns, s =>
      (s.take n).length = n && (s.take n).all isHexDigit && (s.drop n).head? = some (chr '-') &&
        matchGroups ns (s.drop (n + 1))

/-- `is_valid_uuid_`. -/
def isValidUuid (id : Bytes) : Bool := matchGroups [8, 4, 4, 4, 12] id

/-- The regular expression allows both cases. -/
theorem isHexDigit_toLowercaseCh (c : UInt8) : isHexDigit (toLowercaseCh c) = isHexDigit c := by
  have hupper : ∀ n < 26, isHexDigit (toLowercaseCh (UInt8.ofNat (65 + n))) =
      isHexDigit (UInt8.ofNat (65 + n)) := by
    decide
  rcases toLowercaseCh_cases c with h | ⟨n, hn, rfl⟩
  · rw [h]
  · exact hupper n hn

theorem toLowercaseCh_eq_dash (c : UInt8) : toLowercaseCh c = chr '-' ↔ c = chr '-' := by
  refine ⟨eq_of_toLowercaseCh (by decide), ?_⟩
  rintro rfl
  rfl

theorem matchGroups_toLowercase (ns : List Nat) (s : Bytes) :
    matchGroups ns (toLowercase s) = matchGroups ns s := by
  have hall : ∀ s : Bytes, (toLowercase s).all isHexDigit = s.all isHexDigit := fun s => by
    simp [toLowercase, List.all_map, Function.comp_def, isHexDigit_toLowercaseCh]
  have hhead : ∀ s : Bytes, decide ((toLowercase s).head? = some (chr '-')) =
      decide (s.head? = some (chr '-')) := fun s => by
    cases s <;> simp [toLowercase, toLowercaseCh_eq_dash]
  have htake : ∀ (s : Bytes) n, (toLowercase s).take n = toLowercase (s.take n) := fun s n =>
    List.map_take.symm
  have hdrop : ∀ (s : Bytes) n, (toLowercase s).drop n = toLowercase (s.drop n) := fun s n =>
    List.map_drop.symm
  have hlen : ∀ s : Bytes, (toLowercase s).length = s.length := fun s => List.length_map _
  induction ns generalizing s with
  | nil => cases s <;> rfl
  | cons n ns ih =>
      cases ns with
      | nil => simp only [matchGroups, hlen, hall]
      | cons m ns => simp only [matchGroups, htake, hdrop, hlen, hall, hhead, ih]

/-- A UUID stays one in lower case, and only a UUID becomes one. -/
theorem isValidUuid_toLowercase (id : Bytes) : isValidUuid (toLowercase id) = isValidUuid id :=
  matchGroups_toLowercase _ id

/-! ## `std::get_time` -/

/-- A decimal number of at most `len` digits in a range. -/
def getNumber (lo hi len : Nat) (s : Bytes) : Option (Nat × Bytes) :=
  let digits := (s.take len).takeWhile isDigit
  if digits = [] ∨ numeral digits < lo ∨ hi < numeral digits then none
  else some (numeral digits, s.drop digits.length)

/-- A character of the format that stands for itself. -/
def getLiteral (c : UInt8) (s : Bytes) : Option Bytes :=
  if s.head? = some c then some s.tail else none

/-- `ss >> std::get_time(&t, "%Y-%m-%d")`: `t.tm_year`, or `none` if the stream fails. White space
is skipped, leading zeros may be left out, and what follows the date is not read. -/
def getTime (s : Bytes) : Option Int := do
  let (year, s) ← getNumber 0 9999 4 (s.dropWhile isSpace)
  let s ← getLiteral (chr '-') s
  let (_, s) ← getNumber 1 12 2 s
  let s ← getLiteral (chr '-') s
  let _ ← getNumber 1 31 2 s
  return year - 1900

end SocialNetwork.App
