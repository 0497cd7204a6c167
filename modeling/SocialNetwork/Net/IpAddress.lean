import SocialNetwork.Helpers.Strings
import SocialNetwork.Net.InetPton

/-!
# `IpAddress`

The model of `helpers/ip_address.cpp` on a little-endian host: the sixteen bytes of `data_`, the
views of them as `uint32_t` and `uint16_t`, the constructors from `sockaddr_in` and `sockaddr_in6`,
parsing and printing. An IPv4 address uses the first four bytes; the others are zero.
-/

namespace SocialNetwork.Net

open Foundation Helpers

/-! ## Byte order -/

/-- A `uint32_t` read from memory on a little-endian host. -/
def load32 (b₀ b₁ b₂ b₃ : UInt8) : Nat :=
  b₀.toNat + 256 * b₁.toNat + 65536 * b₂.toNat + 16777216 * b₃.toNat

/-- The bytes of a `uint32_t` in memory on a little-endian host. -/
def store32 (x : Nat) : Bytes :=
  [UInt8.ofNat x, UInt8.ofNat (x / 256), UInt8.ofNat (x / 65536), UInt8.ofNat (x / 16777216)]

/-- `ntohl`: reverses the four bytes. -/
def ntohl (x : Nat) : Nat :=
  x % 256 * 16777216 + x / 256 % 256 * 65536 + x / 65536 % 256 * 256 + x / 16777216 % 256

/-- The two bytes of a 16-bit number, swapped. -/
def swap16 (x : Nat) : Nat := x % 256 * 256 + x / 256 % 256

/-- `htons` and `ntohs`. -/
def htons (x : UInt16) : UInt16 := UInt16.ofNat (swap16 x.toNat)

/-- `in_addr`: four bytes in network order. -/
structure InAddr where
  b₀ : UInt8
  b₁ : UInt8
  b₂ : UInt8
  b₃ : UInt8
  deriving DecidableEq, Repr

/-- `sockaddr_in`; the port is in network order. -/
structure SockaddrIn where
  sinPort : UInt16
  sinAddr : InAddr
  deriving DecidableEq, Repr

/-- `sockaddr_in6`; the port is in network order. -/
structure SockaddrIn6 where
  sin6Port : UInt16
  sin6Addr : Vector UInt8 16
  deriving DecidableEq, Repr

/-! ## The class -/

/-- `IpAddress::family_t`. -/
inductive Family
  | v4
  | v6
  deriving DecidableEq, Repr

/-- `AF_INET` and `AF_INET6`. -/
def Family.af : Family → Nat
  | .v4 => 2
  | .v6 => 10

/-- `IpAddress`. -/
structure IpAddress where
  family : Family
  data : Vector UInt8 16
  deriving DecidableEq, Repr

/-- `data_` zeroed and then overwritten from its start. -/
def toData (bytes : Bytes) : Vector UInt8 16 := Vector.ofFn fun i => bytes.getD i 0

/-- Sixteen bytes fill the array. -/
theorem toList_toData {b : Bytes} (h : b.length = 16) : (toData b).toList = b := by
  refine List.ext_getElem (by simp [h]) fun i hi hi' => ?_
  simp [toData, hi']

namespace IpAddress

variable (ip : IpAddress)

/-- `IpAddress(family_t)`. -/
def ofFamily (family : Family) : IpAddress := ⟨family, toData []⟩

/-- `IpAddress(const struct sockaddr_in&)`: stores the host-order value of the address. -/
def ofSockaddrIn (sockaddr : SockaddrIn) : IpAddress :=
  let addr := sockaddr.sinAddr
  ⟨.v4, toData (store32 (ntohl (load32 addr.b₀ addr.b₁ addr.b₂ addr.b₃)))⟩

/-- `IpAddress(const struct sockaddr_in6&)`: copies the sixteen bytes. -/
def ofSockaddrIn6 (sockaddr : SockaddrIn6) : IpAddress := ⟨.v6, sockaddr.sin6Addr⟩

/-- `IpAddress::length`. -/
def length : Nat :=
  match ip.family with
  | .v6 => 16
  | .v4 => 4

/-- `IpAddress::operator==`: the families, and the bytes that count. -/
def equals (rsh : IpAddress) : Bool :=
  ip.family = rsh.family && ip.data.toList.take ip.length = rsh.data.toList.take ip.length

/-- The byte `i` of `data_`. The view `value[4]` of `is_loopback` lies behind the array; it is read
as zero here and is out of reach of `to_string`. -/
def byte (i : Nat) : UInt8 := ip.data.toList.getD i 0

/-- `reinterpret_cast<const uint32_t*>(data_)[i]`. -/
def value (i : Nat) : Nat :=
  load32 (ip.byte (4 * i)) (ip.byte (4 * i + 1)) (ip.byte (4 * i + 2)) (ip.byte (4 * i + 3))

/-- `reinterpret_cast<const uint16_t*>(data_)[i]`. -/
def word (i : Nat) : Nat := (ip.byte (2 * i)).toNat + 256 * (ip.byte (2 * i + 1)).toNat

/-- `IpAddress::is_ipv4_compatible`. -/
def isIpv4Compatible : Bool :=
  match ip.family with
  | .v4 => true
  | .v6 => ip.value 0 &&& 0xFFFFFFFF = 0 && ip.value 1 &&& 0xFFFFFFFF = 0 &&
      ip.value 2 &&& 0xFFFFFFFF = 0

/-- `IpAddress::is_ipv4_mapped`. -/
def isIpv4Mapped : Bool :=
  match ip.family with
  | .v4 => false
  | .v6 => ip.value 0 &&& 0xFFFFFFFF = 0 && ip.value 1 &&& 0xFFFFFFFF = 0 &&
      ip.value 2 &&& 0xFFFFFFFF = 0x0000FFFF

/-- `IpAddress::is_loopback`. -/
def isLoopback : Bool :=
  match ip.family with
  | .v4 => ip.value 0 &&& 0xFF000000 = 0x7F000000
  | .v6 =>
      if ip.isIpv4Mapped then ip.value 4 &&& 0xFF000000 = 0x7F000000
      else ip.value 0 = 0 && ip.value 1 = 0 && ip.value 2 = 0 && ip.value 3 = 1

/-! ## Parsing -/

/-- `IpAddress::is_v4_format`. -/
def isV4Format (addr : Bytes) : Bool := addr.count (chr '.') = 3

/-- `IpAddress::is_v6_format`. -/
def isV6Format (addr : Bytes) : Bool :=
  addr.count (chr ':') = 7 || (addr.count (chr ':') < 7 && str "::" <:+: addr)

/-- `IpAddress::try_family`. -/
def tryFamily (addr : Bytes) : Option Family :=
  match isV4Format addr, isV6Format addr with
  | true, false => some .v4
  | false, true => some .v6
  | _, _ => none

/-- The count of `::` in `trim_v6_string`, not overlapping. -/
def countDoubleColons : Bytes → Nat
  | a :: b :: rest =>
      if a = chr ':' ∧ b = chr ':' then 1 + countDoubleColons rest else countDoubleColons (b :: rest)
  | _ => 0

/-- `while (s.find(src) != npos) replace_in_place(s, src, dst)`, for a shorter `dst`. -/
def replaceWhile (src dst : Bytes) : Nat → Bytes → Bytes
  | 0, s => s
  | fuel + 1, s => if src <:+: s then replaceWhile src dst fuel (replaceInPlace s src dst) else s

/-- `IpAddress::trim_v6_string`. -/
def trimV6String (addr : Bytes) : Bytes :=
  if countDoubleColons addr > 1 ||
      (addr.length ≥ 2 && addr.getD (addr.length - 1) 0 = chr ':' &&
        addr.getD (addr.length - 2) 0 ≠ chr ':') then addr
  else
    let v6Addr := addr.dropWhile (· = chr '0')
    let v6Addr := replaceWhile (str ":0") (str ":") v6Addr.length v6Addr
    replaceWhile (str ":::") (str "::") v6Addr.length v6Addr

/-- `IpAddress::try_parse` with a family; `none` is `false`. -/
def tryParseFamily (addr : Bytes) (family : Family) : Option IpAddress :=
  let addrStr := trim addr
  if addrStr = [] then some (ofFamily family)
  else
    match family with
    | .v4 => (inetPton4 (cStr addrStr)).map fun bytes => ⟨.v4, toData bytes⟩
    | .v6 =>
        let addrV6Str := trimV6String addrStr
        let unscopedAddr :=
          if chr '%' ∈ addrV6Str then
            let beforeScope := addrV6Str.takeWhile (· ≠ chr '%')
            if addrV6Str.head? = some (chr '[') then beforeScope.drop 1 else beforeScope
          else addrV6Str
        (inetPton6 (cStr unscopedAddr)).map fun bytes => ⟨.v6, toData bytes⟩

/-- `IpAddress::try_parse`. -/
def tryParse (addr : Bytes) : Option IpAddress :=
  (tryFamily addr).bind (tryParseFamily addr)

/-- `IpAddress(const std::string&)`; `none` is the `std::runtime_error`. -/
def ofString (addr : Bytes) : Option IpAddress := tryParse addr

/-! ## Printing -/

/-- The loop of `to_string` over the words from `i` on. -/
def groupsToString : Nat → Nat → Bool → List Nat → Bytes
  | fuel + 1, i, zeroSequence, w :: words =>
      let zeros := if !zeroSequence && w = 0 then ((w :: words).takeWhile (· = 0)).length else 0
      if zeros > 1 then
        str ":" ++ str ":" ++
          match (w :: words).drop zeros with
          | [] => []
          | v :: rest =>
              padLeft 4 (hex (swap16 v)) ++ groupsToString fuel (i + zeros + 1) true rest
      else
        (if i > 0 then str ":" else []) ++ padLeft 4 (hex (swap16 w)) ++
          groupsToString fuel (i + 1) zeroSequence words
  | _, _, _, _ => []

/-- The eight `words` of `to_string`. -/
def words : List Nat := (List.range 8).map ip.word

/-- The test of `to_string` for the forms with a dotted tail. -/
def hasIpv4Form : Bool := (ip.isIpv4Compatible && !ip.isLoopback) || ip.isIpv4Mapped

/-- `IpAddress::to_string`. -/
def toString : Bytes :=
  match ip.family with
  | .v4 => dotted (ip.byte 0) (ip.byte 1) (ip.byte 2) (ip.byte 3)
  | .v6 =>
      if ip.hasIpv4Form then
        (if ip.word 5 = 0 then str "::" else str "::ffff:") ++
          if ip.byte 12 = 0 then dotted (ip.byte 12) (ip.byte 13) (ip.byte 14) (ip.byte 15) else []
      else groupsToString 8 0 false ip.words

end IpAddress

end SocialNetwork.Net
