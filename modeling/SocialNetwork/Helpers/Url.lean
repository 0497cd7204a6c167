import SocialNetwork.Helpers.Numbers

/-!
# `Url`

The model of `helpers/url.cpp`: percent-encoding, the parser with its error paths, the accessors and
`to_string`. A parsing function that takes an iterator returns what is left of the text. The
`std::runtime_error` of the parser is the `Except` of its message.
-/

namespace SocialNetwork.Helpers

open Foundation

/-! ## Percent-encoding -/

/-- `URL_RESERVED_PATH`. -/
def urlReservedPath : Bytes := str "?#"

/-- `URL_RESERVED_FRAGMENT`. -/
def urlReservedFragment : Bytes := []

/-- `URL_ILLEGAL`. -/
def urlIllegal : Bytes := str "%<>\x7b\x7d|\\\"^\x60!*'()$,[]"

/-- The characters that `encode` keeps whatever is reserved. -/
def isUnreserved (c : UInt8) : Bool :=
  (chr 'a' ≤ c && c ≤ chr 'z') || (chr 'A' ≤ c && c ≤ chr 'Z') || isDigit c ||
    c = chr '-' || c = chr '_' || c = chr '.' || c = chr '~'

/-- One character of `encode`. A `char` from `0x80` on is negative where `char` is signed, and so is
below `0x20`; `format` prints the code unit as an unsigned number. -/
def encodeChar (reserved : Bytes) (c : UInt8) : Bytes :=
  if isUnreserved c then [c]
  else if c ≤ 0x20 || c ≥ 0x7F || c ∈ urlIllegal || c ∈ reserved then
    [chr '%', hexByte (c.toNat / 16), hexByte (c.toNat % 16)]
  else [c]

/-- What `Url::encode` appends. -/
def encode (s reserved : Bytes) : Bytes := s.flatMap (encodeChar reserved)

/-- The loop of `Url::decode`; `none` is `invalid`. -/
def decodeLoop (plusAsSpace : Bool) : Bool → Bytes → Option Bytes
  | _, [] => some []
  | inQuery, c :: it =>
      let inQuery := inQuery || c = chr '?'
      if inQuery && plusAsSpace && c = chr '+' then
        (decodeLoop plusAsSpace inQuery it).map (chr ' ' :: ·)
      else if c = chr '%' then
        match it with
        | hi :: lo :: it =>
            match hexDigitValue hi, hexDigitValue lo with
            | some c1, some c2 =>
                (decodeLoop plusAsSpace inQuery it).map (UInt8.ofNat (16 * c1 + c2) :: ·)
            | _, _ => none
        | _ => none
      else (decodeLoop plusAsSpace inQuery it).map (c :: ·)

/-- What `Url::decode` leaves in its second argument: an invalid text leaves it as it was. -/
def decodeInto (s decoded : Bytes) (plusAsSpace : Bool) : Bytes :=
  (decodeLoop plusAsSpace false s).getD decoded

/-- `Url::decode` into an empty string. -/
def decode (s : Bytes) : Bytes := decodeInto s [] false

/-! ## The class -/

/-- `Url`. -/
structure Url where
  scheme : Bytes
  userInfo : Bytes
  host : Bytes
  port : UInt16
  path : Bytes
  query : Bytes
  fragment : Bytes
  deriving DecidableEq, Repr

/-- `URL_WELL_KNOWN_PORTS`. -/
def urlWellKnownPorts : List (Bytes × UInt16) :=
  [(str "ftp", 21), (str "ssh", 22), (str "telnet", 23), (str "smtp", 25), (str "dns", 53),
   (str "http", 80), (str "ws", 80), (str "nntp", 119), (str "imap", 143), (str "ldap", 389),
   (str "https", 443), (str "wss", 443), (str "smtps", 465), (str "rtsp", 554),
   (str "ldaps", 636), (str "dnss", 853), (str "imaps", 993), (str "sip", 5060),
   (str "sips", 5061), (str "xmpp", 5222), (str "postgresql", 5432), (str "amqp", 5672)]

namespace Url

/-- `Url()`. -/
def empty : Url := ⟨[], [], [], 0, [], [], []⟩

/-! ### Parsing -/

/-- The loop of `parse_authority`: `user_info`, `part` and what is left of the text. -/
def authorityLoop (userInfo part : Bytes) : Bytes → Bytes × Bytes × Bytes
  | [] => (userInfo, part, [])
  | c :: it =>
      if c = chr '/' || c = chr '?' || c = chr '#' then (userInfo, part, c :: it)
      else if c = chr '@' then authorityLoop part [] it
      else authorityLoop userInfo (part ++ [c]) it

/-- The port of `parse_host_and_port`, after the colon. -/
def parsePort (port : Bytes) : Except Bytes UInt16 :=
  if port = [] then .ok 0
  else
    let invalid := str "bad or invalid port number (" ++ port ++ str ")"
    match tryParseInt port with
    | some nport =>
        if 0 < nport ∧ nport < 65536 then .ok (UInt16.ofNat nport.toNat) else .error invalid
    | none => .error invalid

/-- The host of `parse_host_and_port` and what follows it. -/
def parseHost (part : Bytes) : Except Bytes (Bytes × Bytes) :=
  match part with
  | [] => .ok ([], [])
  | c :: it =>
      if c = chr '[' then
        match it.span (· ≠ chr ']') with
        | (_, []) => .error (str "unterminated IPv6 address")
        | (host, _ :: it) => .ok (host, it)
      else .ok (part.span (· ≠ chr ':'))

/-- What `parse_host_and_port` does with the text after the host. -/
def parsePortPart : Bytes → Except Bytes UInt16
  | c :: port => if c = chr ':' then parsePort port else .ok 0
  | [] => .ok 0

/-- `Url::parse_host_and_port` of an URL whose host and port are not set yet. -/
def parseHostAndPort (part : Bytes) : Except Bytes (Bytes × UInt16) := do
  let (host, it) ← parseHost part
  let port ← parsePortPart it
  return (if host.head? = some (chr '%') then host else toLowercase host, port)

/-- `Url::parse_path_query_fragment` of an URL without path, query and fragment. -/
def parsePathQueryFragment (url : Url) (it : Bytes) : Url :=
  let (path, it) := it.span fun c => c ≠ chr '?' && c ≠ chr '#'
  let (query, it) := match it with
    | c :: rest => if c = chr '?' then rest.span (· ≠ chr '#') else ([], it)
    | [] => ([], [])
  { url with path := decode path, query := query, fragment := it.drop 1 }

/-- `Url::parse_authority`, and what is left of the text. -/
def parseAuthority (url : Url) (it : Bytes) : Except Bytes (Url × Bytes) := do
  let (userInfo, part, it) := authorityLoop [] [] it
  let (host, port) ← parseHostAndPort part
  return ({ url with userInfo := userInfo, host := host, port := port }, it)

/-- `Url(const std::string&)`. -/
def parse (url : Bytes) : Except Bytes Url :=
  match url with
  | [] => .ok empty
  | start :: _ =>
      if start = chr '/' || start = chr '.' || start = chr '?' || start = chr '#' then
        .ok (parsePathQueryFragment empty url)
      else
        match url.span fun c => c ≠ chr ':' && c ≠ chr '?' && c ≠ chr '#' && c ≠ chr '/' with
        | (_, []) => .ok (parsePathQueryFragment empty url)
        | (scheme, c :: it) =>
            if c = chr ':' then
              if it = [] then
                .error (str "URL scheme must be followed by authority or path (" ++ url ++ str ")")
              else
                let res := { empty with scheme := toLowercase scheme }
                if str "//" <+: it then do
                  let (res, it) ← parseAuthority res (it.drop 2)
                  return parsePathQueryFragment res it
                else .ok (parsePathQueryFragment res it)
            else .ok (parsePathQueryFragment empty url)

/-! ### Accessors -/

variable (url : Url)

/-- `Url::get_port`. -/
def getPort : UInt16 := if url.port ≠ 0 then url.port else (urlWellKnownPorts.lookup url.scheme).getD 0

/-- `Url::set_port`. -/
def setPort (port : UInt16) : Url := { url with port := port }

/-- `Url::set_user_info`. -/
def setUserInfo (userInfo : Bytes) : Url := { url with userInfo := decode userInfo }

/-- `Url::set_path`. -/
def setPath (path : Bytes) : Url := { url with path := decode path }

/-- `Url::set_fragment`. -/
def setFragment (fragment : Bytes) : Url :=
  { url with fragment := encode fragment urlReservedFragment }

/-- The loop of `get_path_segments`. -/
def segmentsLoop (seg : Bytes) : Bytes → List Bytes
  | [] => if seg = [] then [] else [seg]
  | c :: it =>
      if c = chr '/' then
        if seg = [] then segmentsLoop [] it else seg :: segmentsLoop [] it
      else segmentsLoop (seg ++ [c]) it

/-- `Url::get_path_segments`. -/
def getPathSegments : List Bytes := segmentsLoop [] url.path

/-- `Url::get_authority`. -/
def getAuthority : Bytes :=
  (if url.userInfo = [] then [] else url.userInfo ++ str "@") ++
  (if chr ':' ∈ url.host then str "[" ++ url.host ++ str "]" else url.host) ++
  if url.port ≠ 0 then str ":" ++ decimal url.port.toNat
  else match urlWellKnownPorts.lookup url.scheme with
    | some port => str ":" ++ decimal port.toNat
    | none => []

/-- The path in `to_string`, after the authority. -/
def pathToString (auth : Bytes) : Bytes :=
  if url.path ≠ [] then
    (if auth ≠ [] ∧ url.path.head? ≠ some (chr '/') then str "/" else []) ++
      encode url.path urlReservedPath
  else if url.query ≠ [] ∨ url.fragment ≠ [] then str "/" else []

/-- `Url::to_string`. -/
def toString : Bytes :=
  (if url.scheme = [] then encode url.path urlReservedPath
   else
    let auth := url.getAuthority
    url.scheme ++ str ":" ++
      (if auth ≠ [] ∨ url.scheme = str "file" then str "//" ++ auth else []) ++
      url.pathToString auth) ++
  (if url.query = [] then [] else str "?" ++ url.query) ++
  if url.fragment = [] then [] else str "#" ++ url.fragment

end Url

end SocialNetwork.Helpers
