import SocialNetwork.Net.RoundTrip

/-!
# The forms of an address

The ways to build an `IpAddress` that `helpers/ip_address.cpp` offers beside its text: raw bytes, an
`in_addr`, a `sockaddr`, a pointer with a length, and `set_ntohl_v4`. The text and the raw bytes keep
the four bytes of an IPv4 address in network order; the other forms store the host-order value, which
on a little-endian host reverses them. The forms agree exactly on the addresses that read the same
in both directions. An address is read back from its own text if it is an IPv4 address, or an IPv6
address that is printed in groups with a `Plain` text.
-/

namespace SocialNetwork.Net

open Foundation Helpers

/-- `s_addr`: the `uint32_t` whose bytes in memory are the address in network order. -/
def InAddr.sAddr (addr : InAddr) : Nat := load32 addr.b₀ addr.b₁ addr.b₂ addr.b₃

/-- `sockaddr`, by `sa_family`. -/
inductive Sockaddr
  | inet (sockaddr : SockaddrIn)
  | inet6 (sockaddr : SockaddrIn6)
  | other (saFamily : Nat)
  deriving DecidableEq, Repr

namespace IpAddress

variable (ip : IpAddress)

/-! ## Constructors and the word of an IPv4 address

Where a constructor throws `std::runtime_error` its model is `none`. -/

/-- `IpAddress(const uint8_t*, size_t, family_t)`. -/
def ofRaw (raw : Bytes) (family : Family) : Option IpAddress :=
  match family with
  | .v4 => if raw.length ≠ 4 then none else some ⟨.v4, toData raw⟩
  | .v6 => if raw.length ≠ 16 then none else some ⟨.v6, toData raw⟩

/-- `IpAddress(const struct in_addr&)`. -/
def ofInAddr (addr : InAddr) : IpAddress := ⟨.v4, toData (store32 (ntohl addr.sAddr))⟩

/-- `IpAddress(const struct sockaddr&)`. -/
def ofSockaddr : Sockaddr → Option IpAddress
  | .inet sockaddr => some ⟨.v4, toData (store32 (ntohl sockaddr.sinAddr.sAddr))⟩
  | .inet6 sockaddr => some ⟨.v6, sockaddr.sin6Addr⟩
  | .other _ => none

/-- `IpAddress(const void*, socklen_t)`: the bytes behind the pointer, or the null pointer. -/
def ofPointer : Option Bytes → Option IpAddress
  | none => none
  | some [b₀, b₁, b₂, b₃] => some ⟨.v4, toData (store32 (ntohl (load32 b₀ b₁ b₂ b₃)))⟩
  | some mem => if mem.length = 16 then some ⟨.v6, toData mem⟩ else none

/-- `IpAddress::get_htonl_v4`; `htonl` reverses the bytes like `ntohl`. -/
def getHtonlV4 : Nat :=
  match ip.family with
  | .v4 => ntohl (ip.value 0)
  | .v6 => 0

/-- `IpAddress::set_ntohl_v4`: overwrites the first four bytes of `data_`. -/
def setNtohlV4 (addr : Nat) : IpAddress :=
  ⟨.v4, toData (store32 (ntohl addr) ++ ip.data.toList.drop 4)⟩

/-! ## The bytes of an IPv4 address -/

/-- The four bytes that an IPv4 address stores. -/
def Stores (w x y z : UInt8) : Prop := ip.family = .v4 ∧ ip.data.toList.take 4 = [w, x, y, z]

variable {ip}

theorem stores_toData (w x y z : UInt8) (tail : Bytes) :
    Stores ⟨.v4, toData ([w, x, y, z] ++ tail)⟩ w x y z :=
  ⟨rfl, by rw [toData, Vector.toList_ofFn]; rfl⟩

variable {w x y z : UInt8}

/-- The stored bytes, one by one. -/
theorem Stores.byte (h : ip.Stores w x y z) :
    ip.byte 0 = w ∧ ip.byte 1 = x ∧ ip.byte 2 = y ∧ ip.byte 3 = z := by
  have hbyte : ∀ i < 4, ip.byte i = [w, x, y, z].getD i 0 := by
    intro i hi
    rw [← h.2, IpAddress.byte, List.getD_eq_getElem?_getD, List.getD_eq_getElem?_getD,
      List.getElem?_take_of_lt hi]
  exact ⟨hbyte 0 (by norm_num), hbyte 1 (by norm_num), hbyte 2 (by norm_num), hbyte 3 (by norm_num)⟩

/-- An IPv4 address is printed from its stored bytes. -/
theorem Stores.toString (h : ip.Stores w x y z) : ip.toString = dotted w x y z := by
  obtain ⟨h₀, h₁, h₂, h₃⟩ := h.byte
  rw [IpAddress.toString, h.1, h₀, h₁, h₂, h₃]

/-- `get_htonl_v4` reverses the stored bytes. -/
theorem Stores.getHtonlV4 (h : ip.Stores w x y z) : ip.getHtonlV4 = load32 z y x w := by
  obtain ⟨h₀, h₁, h₂, h₃⟩ := h.byte
  rw [IpAddress.getHtonlV4, h.1, IpAddress.value, h₀, h₁, h₂, h₃]
  exact ntohl_load32 w x y z

/-- IPv4 addresses are equal if they store the same bytes. -/
theorem Stores.equals_iff {ip' : IpAddress} {w' x' y' z' : UInt8} (h : ip.Stores w x y z)
    (h' : ip'.Stores w' x' y' z') : ip.equals ip' = true ↔ [w, x, y, z] = [w', x', y', z'] := by
  rw [IpAddress.equals, IpAddress.length, h.1, h'.1, h.2, h'.2]
  simp

theorem ofInAddr_stores (a b c d : UInt8) : (ofInAddr ⟨a, b, c, d⟩).Stores d c b a := by
  rw [ofInAddr, InAddr.sAddr, ntohl_load32, store32_load32]
  exact stores_toData d c b a []

/-! ## Agreement -/

/-- The addresses that are built for the octets `a`, `b`, `c`, `d`: from the text, from the raw
bytes, from an `in_addr`, a `sockaddr_in`, a `sockaddr` and a pointer, and by `set_ntohl_v4` on any
address. -/
def ipv4Forms (ip : IpAddress) (sinPort : UInt16) (a b c d : UInt8) : List (Option IpAddress) :=
  let addr : InAddr := ⟨a, b, c, d⟩
  [ofString (dotted a b c d), ofRaw [a, b, c, d] .v4, some (ofInAddr addr),
    some (ofSockaddrIn ⟨sinPort, addr⟩), ofSockaddr (.inet ⟨sinPort, addr⟩),
    ofPointer (some [a, b, c, d]), some (ip.setNtohlV4 addr.sAddr)]

/-- The forms are built, are equal to each other, print `a.b.c.d`, and give back the word in network
order. -/
def FormsAgree (ip : IpAddress) (sinPort : UInt16) (a b c d : UInt8) : Prop :=
  ∀ form ∈ ipv4Forms ip sinPort a b c d, ∃ ip₁, form = some ip₁ ∧ ip₁.toString = dotted a b c d ∧
    ip₁.getHtonlV4 = (⟨a, b, c, d⟩ : InAddr).sAddr ∧
    ∀ form' ∈ ipv4Forms ip sinPort a b c d, ∃ ip₂, form' = some ip₂ ∧ ip₁.equals ip₂ = true

/-- Text and raw bytes are stored in network order, every other form in the reverse order. -/
theorem ipv4Forms_stores (ip : IpAddress) (sinPort : UInt16) (a b c d : UInt8) :
    ∀ form ∈ ipv4Forms ip sinPort a b c d,
      ∃ ip₁, form = some ip₁ ∧ (ip₁.Stores a b c d ∨ ip₁.Stores d c b a) := by
  have hkept := stores_toData a b c d []
  have hreversed := stores_toData d c b a []
  have hset : (ip.setNtohlV4 (⟨a, b, c, d⟩ : InAddr).sAddr).Stores d c b a := by
    rw [setNtohlV4, InAddr.sAddr, ntohl_load32, store32_load32]
    exact stores_toData d c b a _
  have hstore : store32 (ntohl (⟨a, b, c, d⟩ : InAddr).sAddr) = [d, c, b, a] := by
    rw [InAddr.sAddr, ntohl_load32, store32_load32]
  simp only [ipv4Forms, List.forall_mem_cons, List.not_mem_nil, false_imp_iff, implies_true,
    and_true]
  refine ⟨⟨_, tryParse_dotted a b c d, .inl hkept⟩, ⟨_, rfl, .inl hkept⟩,
    ⟨_, rfl, .inr (ofInAddr_stores a b c d)⟩, ⟨_, rfl, .inr ?_⟩, ⟨_, rfl, .inr ?_⟩, ⟨_, rfl, .inr ?_⟩,
    ⟨_, rfl, .inr hset⟩⟩
  · rw [ofSockaddrIn_eq]
    exact hreversed
  · rw [hstore]
    exact hreversed
  · rw [show load32 a b c d = (⟨a, b, c, d⟩ : InAddr).sAddr from rfl, hstore]
    exact hreversed

/-- **The forms of an IPv4 address agree exactly if its bytes read the same in both directions.**
Source: the constructors of `IpAddress`, `set_ntohl_v4`, `get_htonl_v4`, `try_parse` -/
theorem formsAgree_iff (ip : IpAddress) (sinPort : UInt16) (a b c d : UInt8) :
    FormsAgree ip sinPort a b c d ↔ a = d ∧ b = c := by
  constructor
  · intro h
    obtain ⟨ip₁, hsome, htext, -⟩ := h (some (ofInAddr ⟨a, b, c, d⟩)) (by simp [ipv4Forms])
    obtain rfl := Option.some.inj hsome
    rw [(ofInAddr_stores a b c d).toString, dotted_inj] at htext
    exact reverse_eq_iff.mp htext
  · rintro ⟨rfl, rfl⟩
    have hstores : ∀ form ∈ ipv4Forms ip sinPort a b b a, ∃ ip₁, form = some ip₁ ∧
        ip₁.Stores a b b a := fun form hform => by
      obtain ⟨ip₁, hsome, h | h⟩ := ipv4Forms_stores ip sinPort a b b a form hform
      · exact ⟨ip₁, hsome, h⟩
      · exact ⟨ip₁, hsome, h⟩
    intro form hform
    obtain ⟨ip₁, hsome, h⟩ := hstores form hform
    refine ⟨ip₁, hsome, h.toString, h.getHtonlV4, fun form' hform' => ?_⟩
    obtain ⟨ip₂, hsome', h'⟩ := hstores form' hform'
    exact ⟨ip₂, hsome', (h.equals_iff h').mpr rfl⟩

/-- For `127.0.0.1` the text and the `in_addr` give different addresses. -/
theorem forms_disagree :
    ¬FormsAgree (ofFamily .v4) 0 127 0 0 1 ∧ ofString (dotted 127 0 0 1) =
      some ⟨.v4, toData [127, 0, 0, 1]⟩ ∧
      ofInAddr ⟨127, 0, 0, 1⟩ = ⟨.v4, toData [1, 0, 0, 127]⟩ := by
  refine ⟨fun h => ?_, tryParse_dotted 127 0 0 1, by decide⟩
  obtain ⟨ip₁, hsome, htext, -⟩ := h (some (ofInAddr ⟨127, 0, 0, 1⟩)) (by simp [ipv4Forms])
  obtain rfl := Option.some.inj hsome
  exact absurd htext (by decide)

/-! ## The text of an address, parsed -/

/-- The text of the address is parsed to an address that is equal to it. -/
def TextParsed (ip : IpAddress) : Prop := ∃ ip', tryParse ip.toString = some ip' ∧ ip'.equals ip = true

/-- Every IPv4 address is read back. -/
theorem textParsed_v4 (data : Vector UInt8 16) : TextParsed ⟨.v4, data⟩ := by
  obtain ⟨w, x, y, z, h⟩ : ∃ w x y z, data.toList.take 4 = [w, x, y, z] := by
    obtain ⟨w, x, y, z, hlist⟩ := List.length_eq_four.mp
      (show (data.toList.take 4).length = 4 by simp)
    exact ⟨w, x, y, z, hlist⟩
  have hstores : (⟨.v4, data⟩ : IpAddress).Stores w x y z := ⟨rfl, h⟩
  refine ⟨_, by rw [hstores.toString]; exact tryParse_dotted w x y z, ?_⟩
  exact ((stores_toData w x y z []).equals_iff hstores).mpr rfl

/-- A text with a dotted tail is refused, and without its tail it stands for another address. -/
theorem not_textParsed_ipv4Form (v : Vector UInt8 16)
    (hform : (⟨.v6, v⟩ : IpAddress).hasIpv4Form = true) : ¬TextParsed ⟨.v6, v⟩ := by
  have htext := toString_ipv4Form v hform
  rintro ⟨ip', hparse, hequals⟩
  rw [htext] at hparse
  split at hparse
  · rw [tryParse_dotted_tail] at hparse
    cases hparse
  · rename_i hbyte
    rw [List.append_nil, tryParse_double_colon, Option.some.injEq] at hparse
    subst hparse
    rw [equals_v6, toData_eq_iff] at hequals
    exact hbyte (hequals 12 (by norm_num)).symm

/-- An address that is printed in groups is read back if its text is plain. -/
theorem textParsed_groups (v : Vector UInt8 16)
    (hform : (⟨.v6, v⟩ : IpAddress).hasIpv4Form = false) :
    TextParsed ⟨.v6, v⟩ ↔ Plain (⟨.v6, v⟩ : IpAddress).groups := by
  have hparse := tryParse_spelled (length_groups ⟨.v6, v⟩) fun g hg => groups_lt ⟨.v6, v⟩ hg
  rw [← toString_groups v hform] at hparse
  rw [TextParsed, hparse]
  split
  · rename_i hplain
    refine iff_of_true ⟨_, rfl, ?_⟩ hplain
    rw [equals_v6, toData_groups]
  · rename_i hplain
    refine iff_of_false ?_ hplain
    rintro ⟨ip', hsome, -⟩
    cases hsome

/-- **Which addresses are read back from their text.** Every IPv4 address, and the IPv6 addresses
that are printed in groups with a plain text.
Source: `IpAddress::to_string`, `IpAddress::try_parse` -/
theorem textParsed_iff (ip : IpAddress) :
    TextParsed ip ↔ ip.family = .v4 ∨ ip.hasIpv4Form = false ∧ Plain ip.groups := by
  obtain ⟨family, data⟩ := ip
  cases family with
  | v4 => exact iff_of_true (textParsed_v4 data) (.inl rfl)
  | v6 =>
      cases hform : (⟨.v6, data⟩ : IpAddress).hasIpv4Form with
      | true =>
          apply iff_of_false (not_textParsed_ipv4Form data hform)
          rintro (h | h)
          · cases h
          · cases h.1
      | false =>
          rw [textParsed_groups data hform]
          simp

/-- `fe80::1` is printed with blanks, and refused. -/
theorem linklocal_not_parsed :
    ¬TextParsed ⟨.v6, toData ([0xFE, 0x80] ++ List.replicate 13 0 ++ [1])⟩ ∧
      toString ⟨.v6, toData ([0xFE, 0x80] ++ List.replicate 13 0 ++ [1])⟩ = str "fe80::   1" := by
  have htext : toString ⟨.v6, toData ([0xFE, 0x80] ++ List.replicate 13 0 ++ [1])⟩ =
      str "fe80::   1" := by decide
  refine ⟨?_, htext⟩
  rintro ⟨ip', hparse, -⟩
  rw [htext, show tryParse (str "fe80::   1") = none by decide] at hparse
  cases hparse

end IpAddress

end SocialNetwork.Net
