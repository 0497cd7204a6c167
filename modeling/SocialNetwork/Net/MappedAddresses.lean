import SocialNetwork.Net.Classification
import SocialNetwork.Net.Subnets

/-!
# IPv4 addresses inside IPv6

`get_ipv4_mapped_from_ipv4` and `get_v4_from_ipv4_mapped`. They are inverse to each other between the
IPv4 addresses and the addresses that `is_ipv4_mapped` accepts, and keep the order (`mapped_iso`). The
mark `0x0000FFFF` is written as one word of a little-endian host, so that these addresses are
`::ffff:0:a.b.c.d` in network order and not the `::ffff:a.b.c.d` of the name.
-/

namespace SocialNetwork.Net

open Foundation Helpers

namespace IpAddress

variable (ip : IpAddress)

/-! ## The code -/

/-- `IpAddress(const uint32_t*, size_t, family_t)`: copies the words as they lie in memory. -/
def ofRaw32 (raw : List Nat) (family : Family) : Option IpAddress :=
  match family with
  | .v4 => if raw.length ≠ 1 then none else some ⟨.v4, toData (raw.flatMap store32)⟩
  | .v6 => if raw.length ≠ 4 then none else some ⟨.v6, toData (raw.flatMap store32)⟩

/-- `IpAddress::get_v4_from_ipv4_mapped`. -/
def getV4FromIpv4Mapped : Option IpAddress :=
  if ip.isIpv4Mapped then ofRaw32 [ip.value 3] .v4 else none

/-- `IpAddress::get_ipv4_mapped_from_ipv4`. -/
def getIpv4MappedFromIpv4 : Option IpAddress :=
  if ip.family = .v4 then ofRaw32 [0x00000000, 0x00000000, 0x0000FFFF, ip.value 0] .v6 else none

/-! ## The bytes of a mapped address -/

/-- The bytes before those of the IPv4 address. -/
def mappedMark : Bytes := [0, 0, 0, 0, 0, 0, 0, 0, 0xFF, 0xFF, 0, 0]

/-- A mapped address stores the mark and four bytes. -/
def StoresMapped (w x y z : UInt8) : Prop :=
  ip.family = .v6 ∧ ip.data.toList = mappedMark ++ [w, x, y, z]

variable {ip} {w x y z : UInt8}

/-- A word of an address whose bytes are known. -/
theorem value_of_toList (before after : Bytes) {i : Nat} {a b c d : UInt8}
    (h : ip.data.toList = before ++ [a, b, c, d] ++ after) (hlen : before.length = 4 * i) :
    ip.value i = load32 a b c d := by
  have hbyte : ∀ j < 4, ip.byte (4 * i + j) = [a, b, c, d].getD j 0 := by
    intro j hj
    have hlt : j < [a, b, c, d].length := hj
    rw [IpAddress.byte, h, List.getD_eq_getElem?_getD, List.getD_eq_getElem?_getD, ← hlen,
      List.append_assoc, List.getElem?_append_right (Nat.le_add_right _ _), Nat.add_sub_cancel_left,
      List.getElem?_append_left hlt]
  have h₀ := hbyte 0 (by norm_num)
  have h₁ := hbyte 1 (by norm_num)
  have h₂ := hbyte 2 (by norm_num)
  have h₃ := hbyte 3 (by norm_num)
  rw [Nat.add_zero] at h₀
  rw [IpAddress.value, h₀, h₁, h₂, h₃]
  rfl

/-- The first four of some bytes. -/
theorem exists_word {l : Bytes} {n : Nat} (h : l.length = n + 4) :
    ∃ a b c d rest, l = [a, b, c, d] ++ rest ∧ rest.length = n := by
  obtain ⟨a, l₁, rfl⟩ := List.exists_cons_of_length_eq_add_one h
  obtain ⟨b, l₂, rfl⟩ := List.exists_cons_of_length_eq_add_one (Nat.succ.inj h)
  obtain ⟨c, l₃, rfl⟩ := List.exists_cons_of_length_eq_add_one (Nat.succ.inj (Nat.succ.inj h))
  obtain ⟨d, rest, rfl⟩ :=
    List.exists_cons_of_length_eq_add_one (Nat.succ.inj (Nat.succ.inj (Nat.succ.inj h)))
  exact ⟨a, b, c, d, rest, rfl, by simpa using h⟩

/-- The bytes of `data_` are those of its words. -/
theorem toList_eq_words (ip : IpAddress) : ip.data.toList =
    store32 (ip.value 0) ++ store32 (ip.value 1) ++ store32 (ip.value 2) ++ store32 (ip.value 3) := by
  obtain ⟨a, b, c, d, l₁, h₀, hlen₁⟩ := exists_word (n := 12) ip.data.length_toList
  obtain ⟨e, f, g, h, l₂, rfl, hlen₂⟩ := exists_word (n := 8) hlen₁
  obtain ⟨i, j, k, l, l₃, rfl, hlen₃⟩ := exists_word (n := 4) hlen₂
  obtain ⟨w, x, y, z, l₄, rfl, hlen₄⟩ := exists_word (n := 0) hlen₃
  obtain rfl := List.eq_nil_of_length_eq_zero hlen₄
  rw [value_of_toList (i := 0) [] _ h₀ rfl, value_of_toList (i := 1) [a, b, c, d] _ h₀ rfl,
    value_of_toList (i := 2) [a, b, c, d, e, f, g, h] _ h₀ rfl,
    value_of_toList (i := 3) [a, b, c, d, e, f, g, h, i, j, k, l] [] h₀ rfl,
    store32_load32, store32_load32, store32_load32, store32_load32, h₀]
  rfl

/-- The word after the mark. -/
theorem StoresMapped.value (h : ip.StoresMapped w x y z) : ip.value 3 = load32 w x y z :=
  value_of_toList mappedMark [] (by rw [h.2, List.append_nil]) rfl

/-- **`is_ipv4_mapped`** asks for the mark. -/
theorem isIpv4Mapped_iff_stores : ip.isIpv4Mapped = true ↔ ∃ w x y z, ip.StoresMapped w x y z := by
  rw [isIpv4Mapped_eq_true]
  constructor
  · rintro ⟨hfamily, h₀, h₁, h₂⟩
    refine ⟨ip.byte 12, ip.byte 13, ip.byte 14, ip.byte 15, hfamily, ?_⟩
    rw [toList_eq_words, h₀, h₁, h₂, IpAddress.value, store32_load32]
    rfl
  · rintro ⟨w, x, y, z, hfamily, hlist⟩
    refine ⟨hfamily, ?_, ?_, ?_⟩
    · exact value_of_toList (i := 0) [] _ hlist rfl
    · exact value_of_toList (i := 1) [0, 0, 0, 0] _ hlist rfl
    · exact value_of_toList (i := 2) [0, 0, 0, 0, 0, 0, 0, 0] _ hlist rfl

/-! ## There and back -/

/-- A mapped address is made of the four bytes. -/
theorem Stores.mapped (h : ip.Stores w x y z) :
    ∃ y', ip.getIpv4MappedFromIpv4 = some y' ∧ y'.StoresMapped w x y z := by
  refine ⟨⟨.v6, toData (mappedMark ++ [w, x, y, z])⟩, ?_, rfl, toList_toData rfl⟩
  have hbytes : [0x00000000, 0x00000000, 0x0000FFFF, ip.value 0].flatMap store32 =
      mappedMark ++ [w, x, y, z] := by
    rw [h.value, List.flatMap_cons, List.flatMap_cons, List.flatMap_cons, List.flatMap_cons,
      store32_load32]
    rfl
  rw [getIpv4MappedFromIpv4, if_pos h.1, ofRaw32, if_neg (by simp), hbytes]

/-- The four bytes are taken out again. -/
theorem StoresMapped.unmapped (h : ip.StoresMapped w x y z) :
    ∃ x', ip.getV4FromIpv4Mapped = some x' ∧ x'.Stores w x y z := by
  refine ⟨⟨.v4, toData [w, x, y, z]⟩, ?_, stores_toData w x y z []⟩
  have hmapped : ip.isIpv4Mapped = true := isIpv4Mapped_iff_stores.mpr ⟨w, x, y, z, h⟩
  rw [getV4FromIpv4Mapped, if_pos hmapped, ofRaw32, if_neg (by simp), h.value, List.flatMap_cons,
    store32_load32]
  rfl

/-- The number of a mapped address. -/
theorem StoresMapped.addressValue {v : IpAddress} (h : ip.StoresMapped w x y z)
    (hv : v.Stores w x y z) :
    ip.addressValue = 256 ^ 4 * wordValue 256 (mappedMark.map UInt8.toNat) + v.addressValue := by
  have hbytes : ip.addressBytes = mappedMark ++ [w, x, y, z] := by
    rw [addressBytes, h.2, length, h.1]
    rfl
  rw [IpAddress.addressValue, IpAddress.addressValue, hbytes, hv.addressBytes, List.map_append,
    wordValue, List.reverse_append, Nat.ofDigits_append, wordValue, wordValue, List.length_reverse,
    Nat.add_comm]
  rfl

/-- What is mapped is an IPv4 address, and its number is moved by that of the mark. -/
theorem mapped_value {v m : IpAddress} (h : v.getIpv4MappedFromIpv4 = some m) :
    v.family = .v4 ∧ m.family = .v6 ∧ m.addressValue =
      256 ^ 4 * wordValue 256 (mappedMark.map UInt8.toNat) + v.addressValue := by
  have hv : v.family = .v4 := by
    by_contra hother
    rw [getIpv4MappedFromIpv4, if_neg hother] at h
    cases h
  obtain ⟨w, x, y, z, hstores⟩ := exists_stores hv
  obtain ⟨m', hm', hmapped⟩ := hstores.mapped
  obtain rfl := Option.some.inj (hm'.symm.trans h)
  exact ⟨hv, hmapped.1, hmapped.addressValue hstores⟩

/-- **The IPv4 addresses are, in their order, the addresses that `is_ipv4_mapped` accepts.** Every IPv4
address is mapped to one of these and read back from it; every one of these is the image of the IPv4
address read from it; nothing else is mapped or read; and of two IPv4 addresses the smaller one has the
smaller image.

Source: `get_ipv4_mapped_from_ipv4`, `get_v4_from_ipv4_mapped`, `is_ipv4_mapped` and the comparison
operators of `IpAddress`. -/
theorem mapped_iso :
    (∀ v : IpAddress, v.family = .v4 → ∃ m, v.getIpv4MappedFromIpv4 = some m ∧
      m.isIpv4Mapped = true ∧ ∃ v', m.getV4FromIpv4Mapped = some v' ∧ v'.equals v = true) ∧
    (∀ m : IpAddress, m.isIpv4Mapped = true → ∃ v, m.getV4FromIpv4Mapped = some v ∧
      v.family = .v4 ∧ v.getIpv4MappedFromIpv4 = some m) ∧
    (∀ ip : IpAddress, ip.family ≠ .v4 → ip.getIpv4MappedFromIpv4 = none) ∧
    (∀ ip : IpAddress, ip.isIpv4Mapped = false → ip.getV4FromIpv4Mapped = none) ∧
    ∀ v v' m m' : IpAddress, v.getIpv4MappedFromIpv4 = some m → v'.getIpv4MappedFromIpv4 = some m' →
      m.less m' = v.less v' := by
  refine ⟨fun v hv => ?_, fun m hm => ?_, fun ip h => if_neg h, fun ip h => ?_,
    fun v v' m m' hm hm' => ?_⟩
  · obtain ⟨w, x, y, z, hstores⟩ := exists_stores hv
    obtain ⟨m, hm, hmapped⟩ := hstores.mapped
    obtain ⟨v', hv', hback⟩ := hmapped.unmapped
    exact ⟨m, hm, isIpv4Mapped_iff_stores.mpr ⟨w, x, y, z, hmapped⟩, v', hv',
      (hback.equals_iff hstores).mpr rfl⟩
  · obtain ⟨w, x, y, z, hstores⟩ := isIpv4Mapped_iff_stores.mp hm
    obtain ⟨v, hv, hback⟩ := hstores.unmapped
    obtain ⟨m', hm', hagain⟩ := hback.mapped
    refine ⟨v, hv, hback.1, hm'.trans (congrArg some ?_)⟩
    obtain ⟨family, data⟩ := m
    obtain ⟨family', data'⟩ := m'
    obtain ⟨rfl, hdata⟩ := hstores
    obtain ⟨rfl, hdata'⟩ := hagain
    exact congrArg (IpAddress.mk .v6) (Vector.toList_inj.mp (hdata'.trans hdata.symm))
  · rw [getV4FromIpv4Mapped, h]
    rfl
  · obtain ⟨hv, hmf, hvalue⟩ := mapped_value hm
    obtain ⟨hv', hmf', hvalue'⟩ := mapped_value hm'
    rw [Bool.eq_iff_iff, less_iff, less_iff, addressKey_lt_iff, addressKey_lt_iff, hv, hv', hmf, hmf',
      hvalue, hvalue']
    simp only [lt_irrefl, true_and, false_or]
    exact Nat.add_lt_add_iff_left

end IpAddress

end SocialNetwork.Net
