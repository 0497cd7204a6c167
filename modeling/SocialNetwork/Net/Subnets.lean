import SocialNetwork.Foundation.Masks
import SocialNetwork.Net.AddressOrder
import SocialNetwork.Net.AddressForms

/-!
# Masks and subnets

The bitwise operators of `IpAddress`, `inverse` and the two `mask` functions. The operators work byte
by byte, so that they are the bitwise operations on the number of an address (`yields_bitAnd` and its
siblings); `mask` works on the four bytes as one little-endian word and is the operators again
(`inPlace_operators`).

The addresses that a mask does not tell from `x` are those between the first and the last address of
the subnet, in the order of the comparison operators, exactly if the mask consists of leading ones; and
then `increment` runs through them (`subnet_interval`).
-/

namespace SocialNetwork.Net

open Foundation Helpers

namespace IpAddress

variable (ip : IpAddress)

/-! ## The code -/

/-- What `IpAddress(const uint8_t*, size_t, family_t)` throws at a wrong size. -/
def rawSizeError : Family → Bytes
  | .v4 => str "invalid raw data size for IPv4 address passed to IpAddress()"
  | .v6 => str "invalid raw data size for IPv6 address passed to IpAddress()"

/-- The end of the operators: `IpAddress(ret_data, data_sz, family_)`. -/
def ofRetData (retData : Bytes) : Except Bytes IpAddress :=
  match ofRaw retData ip.family with
  | some result => .ok result
  | none => .error (rawSizeError ip.family)

/-- A binary operator, by what its loop does with two bytes. -/
def combine (op : UInt8 → UInt8 → UInt8) (rsh : IpAddress) : Except Bytes IpAddress :=
  if ip.family ≠ rsh.family then .error (str "different address families")
  else ip.ofRetData (List.zipWith op ip.addressBytes (rsh.data.toList.take ip.length))

/-- `IpAddress::operator&`. -/
def bitAnd : IpAddress → Except Bytes IpAddress := ip.combine (· &&& ·)

/-- `IpAddress::operator|`. -/
def bitOr : IpAddress → Except Bytes IpAddress := ip.combine (· ||| ·)

/-- `IpAddress::operator^`. -/
def bitXor : IpAddress → Except Bytes IpAddress := ip.combine (· ^^^ ·)

/-- `IpAddress::operator~`. -/
def bitNot : Except Bytes IpAddress := ip.ofRetData (ip.addressBytes.map (~~~·))

/-- `IpAddress::inverse`. -/
def inverse : IpAddress :=
  ⟨ip.family, toData (ip.addressBytes.map (~~~·) ++ ip.data.toList.drop ip.length)⟩

/-- `IpAddress::mask(const IpAddress&, const IpAddress&)`. The mask and the set are other objects than
the address: the code reads them again after its first assignment, so that `x.mask(m, x)` gives
`x & m`. -/
def maskWith (maskIp setIp : IpAddress) : IpAddress :=
  if ip.family ≠ .v4 then ip
  else if ip.family ≠ maskIp.family || ip.family ≠ setIp.family then ip
  else
    let selfValue := ip.value 0 &&& maskIp.value 0
    let selfValue := selfValue ||| (setIp.value 0 &&& (0xFFFFFFFF ^^^ maskIp.value 0))
    ⟨ip.family, toData (store32 selfValue ++ ip.data.toList.drop 4)⟩

/-- `IpAddress::mask(const IpAddress&)`, with a mask that is another object than the address. -/
def mask (maskIp : IpAddress) : IpAddress := ip.maskWith maskIp (ofFamily .v4)

/-- What the comment on `mask` says: `(address & mask) | (set & ~mask)`. -/
def masked (maskIp setIp : IpAddress) : Except Bytes IpAddress := do
  let net ← ip.bitAnd maskIp
  let rest ← maskIp.bitNot
  let host ← setIp.bitAnd rest
  net.bitOr host

/-- `IpAddress::operator<=`. -/
def lessEqual (rsh : IpAddress) : Bool := if ip.equals rsh then true else ip.less rsh

/-! ## The operators on numbers -/

/-- The bits of the addresses of a family. -/
def bits : Nat := 8 * ip.length

/-- The computation returns the address of the family with this number. -/
def Yields (x : Except Bytes IpAddress) (family : Family) (n : Nat) : Prop :=
  ∃ r, x = .ok r ∧ r.family = family ∧ r.addressValue = n

variable {ip}

/-- An address is a number of its bits. -/
theorem addressValue_lt_bits (ip : IpAddress) : ip.addressValue < 2 ^ ip.bits := by
  have hlt := ip.addressValue_lt
  rwa [show (256 : Nat) = 2 ^ 8 by norm_num, ← Nat.pow_mul] at hlt

/-- Addresses of one family have the same number of bits. -/
theorem bits_eq_of_family {x y : IpAddress} (h : x.family = y.family) : x.bits = y.bits := by
  rw [bits, bits, length_eq_of_family h]

/-- Bytes that are copied to the start of `data_`. -/
theorem take_toData {raw : Bytes} {n : Nat} (h : raw.length = n) (hn : n ≤ 16) :
    (toData raw).toList.take n = raw := by
  subst n
  refine List.ext_getElem (by simpa using hn) fun i hi hi' => ?_
  simp [toData, hi']

/-- The constructor accepts what the loops make. -/
theorem ofRetData_ok {retData : Bytes} (h : retData.length = ip.length) :
    ∃ r, ip.ofRetData retData = .ok r ∧ r.family = ip.family ∧ r.addressBytes = retData := by
  obtain ⟨family, data⟩ := ip
  cases family with
  | v4 =>
      have hlen : retData.length = 4 := h
      refine ⟨⟨.v4, toData retData⟩, by rw [ofRetData, ofRaw, if_neg (not_not.mpr hlen)], rfl, ?_⟩
      exact take_toData hlen (show 4 ≤ 16 by norm_num)
  | v6 =>
      have hlen : retData.length = 16 := h
      refine ⟨⟨.v6, toData retData⟩, by rw [ofRetData, ofRaw, if_neg (not_not.mpr hlen)], rfl, ?_⟩
      exact take_toData hlen le_rfl

/-- A binary operator on addresses of one family. -/
theorem combine_ok {x y : IpAddress} (op : UInt8 → UInt8 → UInt8) (h : x.family = y.family) :
    ∃ r, x.combine op y = .ok r ∧ r.family = x.family ∧
      r.addressBytes = List.zipWith op x.addressBytes y.addressBytes := by
  have hlen : (List.zipWith op x.addressBytes y.addressBytes).length = x.length := by
    rw [List.length_zipWith, length_addressBytes, length_addressBytes, length_eq_of_family h,
      Nat.min_self]
  obtain ⟨r, hr, hfamily, hbytes⟩ := ofRetData_ok hlen
  refine ⟨r, ?_, hfamily, hbytes⟩
  rw [combine, if_neg (not_not.mpr h), length_eq_of_family h]
  exact hr

/-- Addresses of different families are refused. -/
theorem combine_error {x y : IpAddress} (op : UInt8 → UInt8 → UInt8) (h : x.family ≠ y.family) :
    x.combine op y = .error (str "different address families") := if_pos h

/-- A binary operator on bytes that is bitwise is bitwise on the numbers. -/
theorem yields_combine {x y : IpAddress} {op : UInt8 → UInt8 → UInt8} {f : Bool → Bool → Bool}
    (hf : f false false = false) (hop : ∀ a b, (op a b).toNat = Nat.bitwise f a.toNat b.toNat)
    (h : x.family = y.family) :
    Yields (x.combine op y) x.family (Nat.bitwise f x.addressValue y.addressValue) := by
  obtain ⟨r, hr, hfamily, hbytes⟩ := combine_ok op h
  refine ⟨r, hr, hfamily, ?_⟩
  have hdigits : (List.zipWith op x.addressBytes y.addressBytes).map UInt8.toNat =
      List.zipWith (Nat.bitwise f) (x.addressBytes.map UInt8.toNat)
        (y.addressBytes.map UInt8.toNat) := by
    rw [List.map_zipWith, List.zipWith_map]
    simp only [hop]
  have hlen : (x.addressBytes.map UInt8.toNat).length = (y.addressBytes.map UInt8.toNat).length := by
    rw [List.length_map, List.length_map, length_addressBytes, length_addressBytes,
      length_eq_of_family h]
  rw [addressValue, hbytes, hdigits]
  exact wordValue_zipWith (k := 8) hf hlen (digits_lt _) (digits_lt _)

/-- **`&`** on numbers. -/
theorem yields_bitAnd {x y : IpAddress} (h : x.family = y.family) :
    Yields (x.bitAnd y) x.family (x.addressValue &&& y.addressValue) :=
  yields_combine rfl UInt8.toNat_and h

/-- **`|`** on numbers. -/
theorem yields_bitOr {x y : IpAddress} (h : x.family = y.family) :
    Yields (x.bitOr y) x.family (x.addressValue ||| y.addressValue) :=
  yields_combine rfl UInt8.toNat_or h

/-- **`~`** on numbers. -/
theorem yields_bitNot (x : IpAddress) :
    Yields x.bitNot x.family (2 ^ x.bits - 1 - x.addressValue) := by
  have hlen : (x.addressBytes.map (~~~·)).length = x.length := by
    rw [List.length_map, length_addressBytes]
  obtain ⟨r, hr, hfamily, hbytes⟩ := ofRetData_ok hlen
  refine ⟨r, hr, hfamily, ?_⟩
  have hdigits : (x.addressBytes.map (~~~·)).map UInt8.toNat =
      (x.addressBytes.map UInt8.toNat).map fun d => 256 - 1 - d := by
    rw [List.map_map, List.map_map]
    exact List.map_congr_left fun a _ => UInt8.toNat_not a
  rw [addressValue, hbytes, hdigits, wordValue_complement (by norm_num) (digits_lt _),
    List.length_map, length_addressBytes, bits, Nat.pow_mul]
  rfl

/-- **The operators are bitwise on the numbers**, and the binary ones throw at different families. -/
theorem operators_bitwise (x y : IpAddress) :
    (x.family = y.family →
      Yields (x.bitAnd y) x.family (x.addressValue &&& y.addressValue) ∧
      Yields (x.bitOr y) x.family (x.addressValue ||| y.addressValue) ∧
      Yields (x.bitXor y) x.family (x.addressValue ^^^ y.addressValue)) ∧
    (x.family ≠ y.family → ∀ op ∈ [x.bitAnd, x.bitOr, x.bitXor],
      op y = .error (str "different address families")) ∧
    Yields x.bitNot x.family (2 ^ x.bits - 1 - x.addressValue) := by
  refine ⟨fun h => ⟨yields_bitAnd h, yields_bitOr h, yields_combine rfl UInt8.toNat_xor h⟩, ?_,
    yields_bitNot x⟩
  intro hmixed op hop
  simp only [List.mem_cons, List.not_mem_nil, or_false] at hop
  rcases hop with rfl | rfl | rfl <;> exact combine_error _ hmixed

/-- Addresses with one family and one number are equal. -/
theorem Yields.equals {x : Except Bytes IpAddress} {n : Nat} {y : IpAddress}
    (h : Yields x y.family n) (hy : y.addressValue = n) : ∃ r, x = .ok r ∧ y.equals r = true := by
  obtain ⟨r, hr, hfamily, hvalue⟩ := h
  refine ⟨r, hr, ?_⟩
  rw [equals_iff, addressKey_eq_iff]
  exact ⟨hfamily.symm, hy.trans hvalue.symm⟩

/-! ## In place -/

section inPlace

/-- A bitwise operation on little-endian words works byte by byte. -/
theorem load32_bitwise {op : UInt8 → UInt8 → UInt8} {f : Bool → Bool → Bool}
    (hf : f false false = false) (hop : ∀ a b, (op a b).toNat = Nat.bitwise f a.toNat b.toNat)
    (a₀ a₁ a₂ a₃ b₀ b₁ b₂ b₃ : UInt8) :
    Nat.bitwise f (load32 a₀ a₁ a₂ a₃) (load32 b₀ b₁ b₂ b₃) =
      load32 (op a₀ b₀) (op a₁ b₁) (op a₂ b₂) (op a₃ b₃) := by
  have hdigits : ∀ c₀ c₁ c₂ c₃ : UInt8,
      load32 c₀ c₁ c₂ c₃ = Nat.ofDigits (2 ^ 8) ([c₀, c₁, c₂, c₃].map UInt8.toNat) := by
    intro c₀ c₁ c₂ c₃
    simp only [load32, List.map_cons, List.map_nil, Nat.ofDigits_cons, Nat.ofDigits_nil]
    omega
  have hbits := ofDigits_zipWith (k := 8) (v := [a₀, a₁, a₂, a₃].map UInt8.toNat)
    (w := [b₀, b₁, b₂, b₃].map UInt8.toNat) hf rfl (digits_lt _) (digits_lt _)
  rw [hdigits, hdigits, hdigits, ← hbits]
  simp only [List.map_cons, List.map_nil, List.zipWith_cons_cons, List.zipWith_nil_left, hop]

/-- The complement of a little-endian word. -/
theorem load32_complement (a₀ a₁ a₂ a₃ : UInt8) :
    0xFFFFFFFF ^^^ load32 a₀ a₁ a₂ a₃ = load32 (~~~a₀) (~~~a₁) (~~~a₂) (~~~a₃) := by
  have hbyte : ∀ a : UInt8, 0xFF ^^^ a = ~~~a := fun a => UInt8.neg_one_xor
  rw [← hbyte, ← hbyte, ← hbyte, ← hbyte]
  exact load32_bitwise rfl UInt8.toNat_xor 0xFF 0xFF 0xFF 0xFF a₀ a₁ a₂ a₃

/-- An IPv4 address stores four bytes. -/
theorem exists_stores (h : ip.family = .v4) : ∃ w x y z, ip.Stores w x y z := by
  obtain ⟨w, x, y, z, hlist⟩ := List.length_eq_four.mp
    (show (ip.data.toList.take 4).length = 4 by simp)
  exact ⟨w, x, y, z, h, hlist⟩

/-- The word of an address with the given bytes. -/
theorem Stores.value {w x y z : UInt8} (h : ip.Stores w x y z) : ip.value 0 = load32 w x y z := by
  obtain ⟨h₀, h₁, h₂, h₃⟩ := h.byte
  rw [IpAddress.value, h₀, h₁, h₂, h₃]

/-- `mask` on the stored bytes. -/
theorem Stores.maskWith {m s : IpAddress} {w x y z w' x' y' z' w'' x'' y'' z'' : UInt8}
    (h : ip.Stores w x y z) (hm : m.Stores w' x' y' z') (hs : s.Stores w'' x'' y'' z'') :
    (ip.maskWith m s).Stores (w &&& w' ||| (w'' &&& ~~~w')) (x &&& x' ||| (x'' &&& ~~~x'))
      (y &&& y' ||| (y'' &&& ~~~y')) (z &&& z' ||| (z'' &&& ~~~z')) := by
  have hmixed : ¬((ip.family ≠ m.family || ip.family ≠ s.family : Bool) = true) := by
    simp [h.1, hm.1, hs.1]
  have hand := load32_bitwise (f := and) rfl UInt8.toNat_and
  have hor := load32_bitwise (f := or) rfl UInt8.toNat_or
  rw [IpAddress.maskWith, if_neg (not_not.mpr h.1), if_neg hmixed, h.value, hm.value, hs.value, h.1,
    load32_complement]
  change Stores ⟨.v4, toData (store32 (Nat.bitwise or (Nat.bitwise and _ _) (Nat.bitwise and _ _)) ++
    ip.data.toList.drop 4)⟩ _ _ _ _
  rw [hand, hand, hor, store32_load32]
  exact stores_toData _ _ _ _ _

/-- The stored bytes are the bytes that count. -/
theorem Stores.addressBytes {w x y z : UInt8} (h : ip.Stores w x y z) :
    ip.addressBytes = [w, x, y, z] := by
  rw [IpAddress.addressBytes, IpAddress.length, h.1]
  exact h.2

/-- Addresses of one family with the same bytes are equal. -/
theorem equals_of_addressBytes {x y : IpAddress} (hfamily : x.family = y.family)
    (hbytes : x.addressBytes = y.addressBytes) : x.equals y = true := by
  rw [equals_iff, addressKey_eq_iff, addressValue, addressValue, hbytes]
  exact ⟨hfamily, rfl⟩

/-- `(address & mask) | (set & ~mask)`, step by step. -/
theorem masked_eq {x m s net rest host : IpAddress} (hnet : x.bitAnd m = .ok net)
    (hrest : m.bitNot = .ok rest) (hhost : s.bitAnd rest = .ok host) :
    x.masked m s = net.bitOr host := by
  rw [masked, hnet, hrest]
  change (s.bitAnd rest >>= fun host => net.bitOr host) = _
  rw [hhost]
  rfl

/-- The bytes of `(address & mask) | (set & ~mask)`. -/
theorem masked_ok {x m s : IpAddress} (hm : m.family = x.family) (hs : s.family = x.family) :
    ∃ r, x.masked m s = .ok r ∧ r.family = x.family ∧ r.addressBytes =
      List.zipWith (· ||| ·) (List.zipWith (· &&& ·) x.addressBytes m.addressBytes)
        (List.zipWith (· &&& ·) s.addressBytes (m.addressBytes.map (~~~·))) := by
  obtain ⟨net, hnet, hnf, hnb⟩ := combine_ok (· &&& ·) hm.symm
  have hlen : (m.addressBytes.map (~~~·)).length = m.length := by
    rw [List.length_map, length_addressBytes]
  obtain ⟨rest, hrest, hrf, hrb⟩ := ofRetData_ok hlen
  obtain ⟨host, hhost, hhf, hhb⟩ := combine_ok (· &&& ·) (hs.trans (hm.symm.trans hrf.symm))
  obtain ⟨r, hr, hf, hb⟩ := combine_ok (· ||| ·) (hnf.trans (hs.symm.trans hhf.symm))
  refine ⟨r, ?_, hf.trans hnf, by rw [hb, hnb, hhb, hrb]⟩
  rw [masked_eq hnet hrest hhost]
  exact hr

/-- The number of `(address & mask) | (set & ~mask)`. -/
theorem yields_masked {x m s : IpAddress} (hm : m.family = x.family) (hs : s.family = x.family) :
    Yields (x.masked m s) x.family ((x.addressValue &&& m.addressValue) |||
      (s.addressValue &&& (2 ^ m.bits - 1 - m.addressValue))) := by
  obtain ⟨net, hnet, hnf, hnv⟩ := yields_bitAnd hm.symm
  obtain ⟨rest, hrest, hrf, hrv⟩ := yields_bitNot m
  obtain ⟨host, hhost, hhf, hhv⟩ := yields_bitAnd (hs.trans (hm.symm.trans hrf.symm))
  obtain ⟨r, hr, hf, hv⟩ := yields_bitOr (hnf.trans (hs.symm.trans hhf.symm))
  refine ⟨r, ?_, hf.trans hnf, by rw [hv, hnv, hhv, hrv]⟩
  rw [masked_eq hnet hrest hhost]
  exact hr

/-- `mask` is what the comment says. -/
theorem maskWith_masked {x m s : IpAddress} (hx : x.family = .v4) (hm : m.family = .v4)
    (hs : s.family = .v4) : ∃ r, x.masked m s = .ok r ∧ (x.maskWith m s).equals r = true := by
  obtain ⟨x₀, x₁, x₂, x₃, hx'⟩ := exists_stores hx
  obtain ⟨m₀, m₁, m₂, m₃, hm'⟩ := exists_stores hm
  obtain ⟨s₀, s₁, s₂, s₃, hs'⟩ := exists_stores hs
  have hresult := hx'.maskWith hm' hs'
  obtain ⟨r, hr, hfamily, hbytes⟩ := masked_ok (hm.trans hx.symm) (hs.trans hx.symm)
  refine ⟨r, hr, equals_of_addressBytes (hresult.1.trans (hx.symm.trans hfamily.symm)) ?_⟩
  rw [hbytes, hresult.addressBytes, hx'.addressBytes, hm'.addressBytes, hs'.addressBytes]
  rfl

/-- `inverse` is the operator. -/
theorem inverse_bitNot (x : IpAddress) : ∃ r, x.bitNot = .ok r ∧ x.inverse.equals r = true := by
  have hlen : (x.addressBytes.map (~~~·)).length = x.length := by
    rw [List.length_map, length_addressBytes]
  obtain ⟨r, hr, hfamily, hbytes⟩ := ofRetData_ok hlen
  refine ⟨r, hr, equals_of_addressBytes hfamily.symm ?_⟩
  have hle : x.length ≤ 16 := by
    unfold length
    split <;> omega
  have hall : (x.addressBytes.map (~~~·) ++ x.data.toList.drop x.length).length = 16 := by
    rw [List.length_append, hlen, List.length_drop, Vector.length_toList]
    omega
  have hinverse : x.inverse.length = x.length := length_eq_of_family rfl
  rw [hbytes, addressBytes, hinverse, inverse, toList_toData hall]
  exact List.take_left' hlen

end inPlace

/-! ## Subnets -/

/-- `x` and `y` are one address under the mask. -/
def SameSubnet (maskIp x y : IpAddress) : Prop :=
  ∃ r s, x.bitAnd maskIp = .ok r ∧ y.bitAnd maskIp = .ok s ∧ s.equals r = true

/-- `x | ~mask`, the last address of the subnet of `x`. -/
def broadcast (maskIp x : IpAddress) : Except Bytes IpAddress := do
  let host ← maskIp.bitNot
  x.bitOr host

/-- `y` lies between the first and the last address of the subnet of `x`. -/
def InRange (maskIp x y : IpAddress) : Prop :=
  ∃ first last, x.bitAnd maskIp = .ok first ∧ broadcast maskIp x = .ok last ∧
    first.lessEqual y = true ∧ y.lessEqual last = true

/-- A mask of `len` leading ones. -/
def IsNetmask (maskIp : IpAddress) (len : Nat) : Prop :=
  len ≤ maskIp.bits ∧ maskIp.addressValue = 2 ^ maskIp.bits - 2 ^ (maskIp.bits - len)

section subnets

variable {m x y : IpAddress}

/-- **`<=`** compares the numbers of addresses of one family. -/
theorem lessEqual_iff (h : x.family = y.family) :
    x.lessEqual y = true ↔ x.addressValue ≤ y.addressValue := by
  unfold lessEqual
  split
  · rename_i heq
    rw [equals_iff, addressKey_eq_iff] at heq
    exact iff_of_true rfl heq.2.le
  · rename_i hne
    rw [equals_iff, addressKey_eq_iff] at hne
    rw [less_iff, addressKey_lt_iff, h]
    have hdiffer : x.addressValue ≠ y.addressValue := fun heq => hne ⟨h, heq⟩
    simp only [lt_irrefl, true_and, false_or]
    omega

/-- Two addresses are in one subnet if they agree under the mask, as numbers. -/
theorem sameSubnet_iff (hx : x.family = m.family) (hy : y.family = m.family) :
    SameSubnet m x y ↔
      y.addressValue &&& m.addressValue = x.addressValue &&& m.addressValue := by
  obtain ⟨r, hr, hrf, hrv⟩ := yields_bitAnd hx
  obtain ⟨s, hs, hsf, hsv⟩ := yields_bitAnd hy
  have hfamily : s.family = r.family := by rw [hsf, hrf, hx, hy]
  rw [← hrv, ← hsv]
  constructor
  · rintro ⟨r', s', hr', hs', heq⟩
    obtain rfl := Except.ok.inj (hr.symm.trans hr')
    obtain rfl := Except.ok.inj (hs.symm.trans hs')
    rw [equals_iff, addressKey_eq_iff] at heq
    exact heq.2
  · intro heq
    refine ⟨r, s, hr, hs, ?_⟩
    rw [equals_iff, addressKey_eq_iff]
    exact ⟨hfamily, heq⟩

/-- `mask` keeps the address under the mask, and takes the rest from `set`. -/
theorem maskWith_sameSubnet {s : IpAddress} (hx : x.family = .v4) (hm : m.family = .v4)
    (hs : s.family = .v4) : SameSubnet m x (x.maskWith m s) ∧
      ∀ rest, m.bitNot = .ok rest → SameSubnet rest s (x.maskWith m s) := by
  obtain ⟨r, hr, heq⟩ := maskWith_masked hx hm hs
  obtain ⟨r', hr', hfamily, hvalue⟩ := yields_masked (hm.trans hx.symm) (hs.trans hx.symm)
  obtain rfl := Except.ok.inj (hr'.symm.trans hr)
  rw [equals_iff, addressKey_eq_iff, hvalue, hfamily] at heq
  obtain ⟨hkeep, htake⟩ := select_bits (addressValue_lt_bits m) x.addressValue s.addressValue
  have hkept : (x.maskWith m s).family = m.family := heq.1.trans (hx.trans hm.symm)
  constructor
  · rw [sameSubnet_iff (hx.trans hm.symm) hkept, heq.2]
    exact hkeep
  · intro rest hrest
    obtain ⟨rest', hrest', hrf, hrv⟩ := yields_bitNot m
    obtain rfl := Except.ok.inj (hrest'.symm.trans hrest)
    rw [sameSubnet_iff (hs.trans (hm.symm.trans hrf.symm)) (hkept.trans hrf.symm), heq.2, hrv]
    exact htake

/-- `mask` with one argument is `&`. -/
theorem mask_bitAnd (hx : x.family = .v4) (hm : m.family = .v4) :
    ∃ r, x.bitAnd m = .ok r ∧ (x.mask m).equals r = true := by
  have hnull : (ofFamily .v4).addressValue = 0 := by decide
  obtain ⟨r, hr, heq⟩ := maskWith_masked (s := ofFamily .v4) hx hm rfl
  obtain ⟨r', hr', hfamily, hvalue⟩ :=
    yields_masked (s := ofFamily .v4) (hm.trans hx.symm) hx.symm
  obtain rfl := Except.ok.inj (hr'.symm.trans hr)
  rw [equals_iff, addressKey_eq_iff, hfamily, hvalue, hnull, Nat.zero_and, Nat.or_zero] at heq
  have hnumber := yields_bitAnd (hx.trans hm.symm)
  rw [← heq.1] at hnumber
  exact hnumber.equals heq.2

/-- **The in-place functions are the operators.** `inverse` is `~`; on IPv4 addresses `mask`, which
works on the four bytes as one word of a little-endian host, is `address & mask`, and with a second
argument `(address & mask) | (set & ~mask)`, so that it keeps the address under the mask and takes the
rest from `set`; and with any other family it changes nothing.

Source: `inverse`, `mask` and the bitwise operators of `IpAddress`. -/
theorem inPlace_operators (x m s : IpAddress) :
    (∃ r, x.bitNot = .ok r ∧ x.inverse.equals r = true) ∧
    (x.family = .v4 ∧ m.family = .v4 → ∃ r, x.bitAnd m = .ok r ∧ (x.mask m).equals r = true) ∧
    (x.family = .v4 ∧ m.family = .v4 ∧ s.family = .v4 →
      (∃ r, x.masked m s = .ok r ∧ (x.maskWith m s).equals r = true) ∧
      SameSubnet m x (x.maskWith m s) ∧
      ∀ rest, m.bitNot = .ok rest → SameSubnet rest s (x.maskWith m s)) ∧
    (¬(x.family = .v4 ∧ m.family = .v4 ∧ s.family = .v4) → x.maskWith m s = x) := by
  refine ⟨inverse_bitNot x, fun ⟨hx, hm⟩ => mask_bitAnd hx hm, ?_, fun hmixed => ?_⟩
  · rintro ⟨hx, hm, hs⟩
    exact ⟨maskWith_masked hx hm hs, maskWith_sameSubnet hx hm hs⟩
  · rw [maskWith]
    by_cases hx : x.family = .v4
    · have hother : (x.family ≠ m.family || x.family ≠ s.family : Bool) = true := by
        rw [Bool.or_eq_true, decide_eq_true_eq, decide_eq_true_eq, hx]
        by_contra hsame
        push Not at hsame
        exact hmixed ⟨hx, hsame.1.symm, hsame.2.symm⟩
      rw [if_neg (not_not.mpr hx), if_pos hother]
    · rw [if_pos hx]

/-- The last address, as a number. -/
theorem yields_broadcast (hx : x.family = m.family) : Yields (broadcast m x) x.family
    (x.addressValue ||| (2 ^ m.bits - 1 - m.addressValue)) := by
  obtain ⟨host, hhost, hfamily, hvalue⟩ := yields_bitNot m
  rw [broadcast, hhost, ← hvalue]
  exact yields_bitOr (hx.trans hfamily.symm)

/-- The range of a subnet, as numbers: from `x & m` to `x | ~m`. -/
theorem inRange_iff (hx : x.family = m.family) (hy : y.family = m.family) :
    InRange m x y ↔ x.addressValue &&& m.addressValue ≤ y.addressValue ∧
      y.addressValue ≤ x.addressValue ||| (2 ^ m.bits - 1 - m.addressValue) := by
  obtain ⟨first, hfirst, hff, hfv⟩ := yields_bitAnd hx
  obtain ⟨last, hlast, hlf, hlv⟩ := yields_broadcast hx
  have hlow := lessEqual_iff (hff.trans (hx.trans hy.symm))
  have hhigh := lessEqual_iff (hy.trans (hx.symm.trans hlf.symm))
  rw [← hfv, ← hlv, ← hlow, ← hhigh]
  constructor
  · rintro ⟨first', last', hfirst', hlast', hbetween⟩
    obtain rfl := Except.ok.inj (hfirst.symm.trans hfirst')
    obtain rfl := Except.ok.inj (hlast.symm.trans hlast')
    exact hbetween
  · exact fun hbetween => ⟨first, last, hfirst, hlast, hbetween⟩

/-- Counting up reaches every number of the family. -/
theorem exists_iterate {n : Nat} (hn : n < 2 ^ x.bits) :
    ∃ k, (increment^[k] x).addressValue = n := by
  have hsize : 2 ^ x.bits = 256 ^ x.length := by rw [bits, Nat.pow_mul]
  obtain ⟨k, -, hk⟩ := counter_surjective (a := fun k => (increment^[k] x).addressValue)
    (addressValue_iterate x) (addressValue_lt x) (hsize ▸ hn)
  exact ⟨k, hk⟩

/-- Counting up without coming to the end. -/
theorem addressValue_iterate_of_lt {k : Nat} (h : x.addressValue + k < 2 ^ x.bits) :
    (increment^[k] x).addressValue = x.addressValue + k := by
  have hsize : 2 ^ x.bits = 256 ^ x.length := by rw [bits, Nat.pow_mul]
  have hcount := counter_eq (a := fun k => (increment^[k] x).addressValue)
    (addressValue_iterate x) (addressValue_lt x) k
  rw [hsize] at h
  exact hcount.trans (Nat.mod_eq_of_lt h)

/-- The mask tells the numbers from their neighbours exactly if it is one of leading ones. -/
theorem sameSubnet_inRange_iff (m : IpAddress) :
    (∀ x y : IpAddress, x.family = m.family → y.family = m.family →
      (SameSubnet m x y ↔ InRange m x y)) ↔ ∃ len, IsNetmask m len := by
  have hm := addressValue_lt_bits m
  have hnumbers : (∀ x y : IpAddress, x.family = m.family → y.family = m.family →
      (SameSubnet m x y ↔ InRange m x y)) ↔ ∀ a < 2 ^ m.bits, ∀ b < 2 ^ m.bits,
        (b &&& m.addressValue = a &&& m.addressValue ↔
          a &&& m.addressValue ≤ b ∧ b ≤ a ||| (2 ^ m.bits - 1 - m.addressValue)) := by
    constructor
    · intro h a ha b hb
      obtain ⟨i, rfl⟩ := exists_iterate ha
      obtain ⟨j, rfl⟩ := exists_iterate hb
      have hi := iterate_increment_family m i
      have hj := iterate_increment_family m j
      rw [← sameSubnet_iff hi hj, ← inRange_iff hi hj]
      exact h _ _ hi hj
    · intro h x y hx hy
      rw [sameSubnet_iff hx hy, inRange_iff hx hy]
      exact h _ (bits_eq_of_family hx ▸ addressValue_lt_bits x) _
        (bits_eq_of_family hy ▸ addressValue_lt_bits y)
  rw [hnumbers, agree_between_iff hm]
  constructor
  · rintro ⟨k, hk, hvalue⟩
    refine ⟨m.bits - k, Nat.sub_le _ _, ?_⟩
    rw [hvalue, Nat.sub_sub_self hk]
  · rintro ⟨len, hlen, hvalue⟩
    exact ⟨m.bits - len, Nat.sub_le _ _, hvalue⟩

/-- Under a netmask, the subnet of `x` is what counting up from its first address gives. -/
theorem sameSubnet_iterate_iff {len : Nat} (hm : IsNetmask m len) (hx : x.family = m.family)
    {net : IpAddress} (hnet : x.bitAnd m = .ok net) (hy : y.family = m.family) :
    SameSubnet m x y ↔ ∃ k < 2 ^ (m.bits - len), (increment^[k] net).equals y = true := by
  obtain ⟨hlen, hvalue⟩ := hm
  obtain ⟨net', hnet', hfamily, hstart⟩ := yields_bitAnd hx
  obtain rfl := Except.ok.inj (hnet'.symm.trans hnet)
  have hx' := bits_eq_of_family hx ▸ addressValue_lt_bits x
  have hy' := bits_eq_of_family hy ▸ addressValue_lt_bits y
  have hk : m.bits - len ≤ m.bits := Nat.sub_le _ _
  generalize hj : m.bits - len = j at hk hvalue ⊢
  have hpos : 0 < 2 ^ j := Nat.two_pow_pos j
  have hbits : net'.bits = m.bits := bits_eq_of_family (hfamily.trans hx)
  rw [hvalue, and_prefixMask hk hx'] at hstart
  -- the last address of the subnet is one of the family
  have hroom : ∀ k < 2 ^ j, net'.addressValue + k < 2 ^ net'.bits := by
    intro k hlt
    have hblock : x.addressValue / 2 ^ j + 1 ≤ 2 ^ (m.bits - j) := by
      apply Nat.div_lt_of_lt_mul
      rwa [← Nat.pow_add, Nat.add_sub_cancel' hk]
    calc net'.addressValue + k < x.addressValue / 2 ^ j * 2 ^ j + 2 ^ j := by omega
      _ = (x.addressValue / 2 ^ j + 1) * 2 ^ j := (Nat.succ_mul _ _).symm
      _ ≤ 2 ^ (m.bits - j) * 2 ^ j := Nat.mul_le_mul_right _ hblock
      _ = 2 ^ net'.bits := by rw [← Nat.pow_add, Nat.sub_add_cancel hk, hbits]
  rw [sameSubnet_iff hx hy, hvalue, and_prefixMask hk hx', and_prefixMask hk hy',
    Nat.mul_left_inj hpos.ne']
  constructor
  · intro heq
    refine ⟨y.addressValue % 2 ^ j, Nat.mod_lt _ hpos, ?_⟩
    rw [equals_iff, addressKey_eq_iff, iterate_increment_family,
      addressValue_iterate_of_lt (hroom _ (Nat.mod_lt _ hpos)), hstart, ← heq]
    exact ⟨hfamily.trans (hx.trans hy.symm), Nat.div_add_mod' _ _⟩
  · rintro ⟨k, hlt, heq⟩
    rw [equals_iff, addressKey_eq_iff, addressValue_iterate_of_lt (hroom k hlt), hstart] at heq
    rw [← heq.2, Nat.add_comm, Nat.add_mul_div_right _ _ hpos, Nat.div_eq_of_lt hlt, Nat.zero_add]

/-- **A subnet is an interval, and `increment` runs through it.** The addresses that a mask does not
tell from `x` are those from `x & mask` to `x | ~mask` in the order of `<=`, for every `x`, exactly if
the mask consists of leading ones. With `len` of them, the `2 ^ (bits - len)` addresses that `increment`
makes of `x & mask`, one after the other, are the subnet of `x`.

Source: `operator&`, `operator|`, `operator~`, `operator<=`, `operator==` and `increment` of
`IpAddress`. -/
theorem subnet_interval (m : IpAddress) :
    ((∀ x y : IpAddress, x.family = m.family → y.family = m.family →
      (SameSubnet m x y ↔ InRange m x y)) ↔ ∃ len, IsNetmask m len) ∧
    ∀ len, IsNetmask m len → ∀ x : IpAddress, x.family = m.family →
      ∃ net, x.bitAnd m = .ok net ∧ ∀ y : IpAddress, y.family = m.family →
        (SameSubnet m x y ↔ ∃ k < 2 ^ (m.bits - len), (increment^[k] net).equals y = true) := by
  refine ⟨sameSubnet_inRange_iff m, fun len hm x hx => ?_⟩
  obtain ⟨net, hnet, -⟩ := yields_bitAnd hx
  exact ⟨net, hnet, fun y hy => sameSubnet_iterate_iff hm hx hnet hy⟩

end subnets

end IpAddress

end SocialNetwork.Net
