import SocialNetwork.Foundation.Exceptions
import SocialNetwork.Net.FamilyAddresses
import SocialNetwork.Net.SunPath

/-!
# The bytes of a socket address

`sockaddr()` and `length()` hand out the structure behind the pointer that is set, and the constructor
`SocketAddress(const struct sockaddr*, size_t)` copies such a structure. What was handed out is copied
back unchanged, and reads as before (`sockaddr_roundTrip`).

The constructor copies the whole structure of the family. For the addresses of the internet the given
length is that of the structure; a `sockaddr_un` may be shorter, and then the copy reads behind it
(`ofSockaddr_fault_iff`).
-/

namespace SocialNetwork.Net

open Foundation Helpers Object

/-! ## The code -/

/-- The bytes of a `uint16_t` in memory on a little-endian host. -/
def store16 (x : UInt16) : Bytes := [UInt8.ofNat x.toNat, UInt8.ofNat (x.toNat / 256)]

/-- A `uint16_t` read from memory on a little-endian host. -/
def load16 (b₀ b₁ : UInt8) : UInt16 := UInt16.ofNat (b₀.toNat + 256 * b₁.toNat)

namespace SocketFamily

/-- `AF_UNIX`, `AF_INET` and `AF_INET6`. -/
def af : SocketFamily → UInt16
  | .unixLocal => 1
  | .ipv4 => 2
  | .ipv6 => 10

/-- `SocketAddress::length`: the size of `sockaddr_un`, `sockaddr_in` and `sockaddr_in6`. -/
def size : SocketFamily → Nat
  | .unixLocal => 2 + SocketMemory.sunPathSize
  | .ipv4 => 16
  | .ipv6 => 28

end SocketFamily

/-- The structure behind the pointer that is set. -/
structure SockaddrObject where
  family : SocketFamily
  bytes : Bytes
  deriving DecidableEq

/-- What the accessors read in the structure. -/
def SockaddrObject.address (object : SockaddrObject) : SocketAddress :=
  let byte (i : Nat) : UInt8 := object.bytes.getD i 0
  match object.family with
  | .ipv4 => .ipv4 ⟨load16 (byte 2) (byte 3), ⟨byte 4, byte 5, byte 6, byte 7⟩⟩
  | .ipv6 => .ipv6 ⟨load16 (byte 2) (byte 3), Vector.ofFn fun i => byte (8 + i)⟩
  | .unixLocal => .unixLocal (object.bytes.drop 2)

namespace SocketMemory

/-- `SocketAddress::sockaddr`: what the functions `init` have written into a structure of zeros. -/
def sockaddr : SocketAddress → Except Fault SockaddrObject
  | .ipv4 sa =>
      let addr := sa.sinAddr
      .ok ⟨.ipv4, store16 SocketFamily.ipv4.af ++ store16 sa.sinPort ++
        [addr.b₀, addr.b₁, addr.b₂, addr.b₃] ++ List.replicate 8 0⟩
  | .ipv6 sa =>
      .ok ⟨.ipv6, store16 SocketFamily.ipv6.af ++ store16 sa.sin6Port ++ List.replicate 4 0 ++
        sa.sin6Addr.toList ++ List.replicate 4 0⟩
  | .unixLocal path => do
      return ⟨.unixLocal, store16 SocketFamily.unixLocal.af ++ (← init path)⟩

/-- `sockaddr->sa_family`. -/
def saFamily (object : Bytes) : Except Fault UInt16 := do
  return load16 (← load object 0) (← load object 1)

/-- `std::make_unique` of the structure of a family, and `std::memcpy` of all its bytes. -/
def copy (family : SocketFamily) (object : Bytes) : Except Fault SockaddrObject := do
  return ⟨family, ← memcpy (List.replicate family.size 0) object family.size⟩

/-- `SocketAddress(const struct sockaddr*, size_t)`; `none` is the null pointer. -/
def ofSockaddr (sockaddr : Option Bytes) (len : Nat) : Except Failure SockaddrObject :=
  let invalid : Except Failure SockaddrObject :=
    .error (.thrown (.runtime (str "invalid address length or family passed to SocketAddress()")))
  match sockaddr with
  | none => invalid
  | some object => do
      let family ← access (saFamily object)
      if family = SocketFamily.ipv4.af ∧ len = SocketFamily.ipv4.size then access (copy .ipv4 object)
      else if family = SocketFamily.ipv6.af ∧ len = SocketFamily.ipv6.size then
        access (copy .ipv6 object)
      else if family = SocketFamily.unixLocal.af ∧ 0 < len ∧ len ≤ SocketFamily.unixLocal.size then
        access (copy .unixLocal object)
      else invalid

/-! ## What is accepted -/

/-- The bytes start with the family, and the length is one that is accepted for it. -/
def Accepts (object : Bytes) (len : Nat) (family : SocketFamily) : Prop :=
  object.take 2 = store16 family.af ∧
    (len = family.size ∨ family = .unixLocal ∧ 0 < len ∧ len ≤ family.size)

/-- Two bytes are a number. -/
theorem load16_eq_iff {b₀ b₁ : UInt8} {x : UInt16} : load16 b₀ b₁ = x ↔ [b₀, b₁] = store16 x := by
  have h₀ := b₀.toNat_lt
  have h₁ := b₁.toNat_lt
  have hx := x.toNat_lt
  rw [load16, store16, List.cons.injEq, List.cons.injEq, ← UInt16.toNat_inj, ← UInt8.toNat_inj,
    ← UInt8.toNat_inj]
  simp only [UInt16.toNat_ofNat', UInt8.toNat_ofNat', and_true]
  omega

theorem store16_inj {x y : UInt16} : store16 x = store16 y ↔ x = y := by
  have hread : ∀ z, load16 (UInt8.ofNat z.toNat) (UInt8.ofNat (z.toNat / 256)) = z := fun z =>
    load16_eq_iff.mpr rfl
  constructor
  · intro h
    obtain ⟨hlow, htail⟩ := List.cons.inj h
    rw [← hread x, hlow, (List.cons.inj htail).1, hread]
  · rintro rfl
    rfl

/-- No two families have one number. -/
theorem af_inj {family family' : SocketFamily} (h : family.af = family'.af) : family = family' := by
  revert h
  cases family <;> cases family' <;> decide

/-- The copy of a structure that may be too short. -/
theorem copy_eq (family : SocketFamily) (object : Bytes) : copy family object =
    if family.size ≤ object.length then .ok ⟨family, object.take family.size⟩ else .error .read := by
  unfold copy
  split
  · rename_i hsize
    rw [memcpy_eq hsize (by simp)]
    simp [bind, Except.bind, pure, Except.pure]
  · rename_i hsize
    rw [memcpy_read (not_le.mp hsize) (by simp)]
    rfl

/-- The first two bytes of an object that has them. -/
theorem saFamily_eq {object : Bytes} {family : UInt16} :
    saFamily object = .ok family ↔ object.take 2 = store16 family := by
  rcases object with _ | ⟨b₀, _ | ⟨b₁, object⟩⟩
  · exact iff_of_false nofun (by simp [store16])
  · exact iff_of_false nofun (by simp [store16])
  · have hread : saFamily (b₀ :: b₁ :: object) = .ok (load16 b₀ b₁) := rfl
    rw [hread, Except.ok.injEq, load16_eq_iff]
    rfl

/-- An object without a family is read behind its end. -/
theorem saFamily_short {object : Bytes} (h : object.length < 2) : saFamily object = .error .read := by
  rcases object with _ | ⟨b₀, _ | ⟨b₁, object⟩⟩
  · rfl
  · rfl
  · simp at h

/-- An accepted structure is copied. -/
theorem ofSockaddr_of_accepts {object : Bytes} {len : Nat} {family : SocketFamily}
    (h : Accepts object len family) : ofSockaddr (some object) len = access (copy family object) := by
  obtain ⟨hbytes, hlen⟩ := h
  rw [ofSockaddr, saFamily_eq.mpr hbytes, access_ok]
  simp only [bind, Except.bind]
  cases family with
  | ipv4 =>
      obtain rfl : len = SocketFamily.ipv4.size := by simpa using hlen
      rw [if_pos ⟨rfl, rfl⟩]
  | ipv6 =>
      obtain rfl : len = SocketFamily.ipv6.size := by simpa using hlen
      rw [if_neg (by decide), if_pos ⟨rfl, rfl⟩]
  | unixLocal =>
      have hrange : 0 < len ∧ len ≤ SocketFamily.unixLocal.size := by
        rcases hlen with rfl | ⟨-, hrange⟩
        · decide
        · exact hrange
      have hne : ∀ family : SocketFamily, family ≠ .unixLocal →
          ¬(SocketFamily.unixLocal.af = family.af ∧ len = family.size) :=
        fun family hfamily h => hfamily (af_inj h.1).symm
      rw [if_neg (hne _ (by decide)), if_neg (hne _ (by decide)), if_pos ⟨rfl, hrange⟩]

/-- Everything else is refused. -/
theorem ofSockaddr_refused {object : Bytes} {len : Nat} (hsize : 2 ≤ object.length)
    (h : ∀ family, ¬Accepts object len family) : ofSockaddr (some object) len =
      .error (.thrown (.runtime (str "invalid address length or family passed to SocketAddress()"))) := by
  obtain ⟨family, hfamily⟩ : ∃ family, saFamily object = .ok family := by
    rcases object with _ | ⟨b₀, _ | ⟨b₁, object⟩⟩
    · simp at hsize
    · simp at hsize
    · exact ⟨_, rfl⟩
  have hbytes := saFamily_eq.mp hfamily
  rw [ofSockaddr, hfamily, access_ok]
  simp only [bind, Except.bind]
  rw [if_neg, if_neg, if_neg]
  · rintro ⟨rfl, hrange⟩
    exact h .unixLocal ⟨hbytes, .inr ⟨rfl, hrange⟩⟩
  · rintro ⟨rfl, hlen⟩
    exact h .ipv6 ⟨hbytes, .inl hlen⟩
  · rintro ⟨rfl, hlen⟩
    exact h .ipv4 ⟨hbytes, .inl hlen⟩

/-- **What the constructor makes**: the structure at the start of the object, if family and length are
accepted and the object is large enough. -/
theorem ofSockaddr_ok_iff {object : Bytes} {len : Nat} {result : SockaddrObject} :
    ofSockaddr (some object) len = .ok result ↔ Accepts object len result.family ∧
      result.family.size ≤ object.length ∧ result.bytes = object.take result.family.size := by
  constructor
  · intro h
    by_cases hshort : object.length < 2
    · rw [ofSockaddr, saFamily_short hshort] at h
      cases h
    by_cases haccepts : ∃ family, Accepts object len family
    · obtain ⟨family, haccepts⟩ := haccepts
      rw [ofSockaddr_of_accepts haccepts, copy_eq] at h
      split at h
      · cases h
        exact ⟨haccepts, ‹_›, rfl⟩
      · cases h
    · rw [ofSockaddr_refused (not_lt.mp hshort) (not_exists.mp haccepts)] at h
      cases h
  · rintro ⟨haccepts, hsize, hbytes⟩
    rw [ofSockaddr_of_accepts haccepts, copy_eq, if_pos hsize, access_ok, ← hbytes]

/-- **When the constructor reads behind the object**: if there is no family in it, or if the structure
of its family is larger. -/
theorem ofSockaddr_fault_iff {object : Bytes} {len : Nat} :
    (∃ f, ofSockaddr (some object) len = .error (.fault f)) ↔
      object.length < 2 ∨ ∃ family, Accepts object len family ∧ object.length < family.size := by
  by_cases hshort : object.length < 2
  · refine iff_of_true ⟨.read, ?_⟩ (.inl hshort)
    rw [ofSockaddr, saFamily_short hshort]
    rfl
  by_cases haccepts : ∃ family, Accepts object len family
  · obtain ⟨family, haccepts⟩ := haccepts
    have hsame : ∀ family', Accepts object len family' → family' = family := by
      intro family' haccepts'
      exact af_inj (store16_inj.mp (haccepts'.1.symm.trans haccepts.1))
    rw [ofSockaddr_of_accepts haccepts, copy_eq]
    by_cases hsize : family.size ≤ object.length
    · rw [if_pos hsize]
      refine iff_of_false ?_ ?_
      · rintro ⟨_, h⟩
        cases h
      rintro (h | ⟨family', haccepts', hlarge⟩)
      · exact hshort h
      · rw [hsame family' haccepts'] at hlarge
        omega
    · rw [if_neg hsize]
      exact iff_of_true ⟨.read, rfl⟩ (.inr ⟨family, haccepts, not_le.mp hsize⟩)
  · rw [ofSockaddr_refused (not_lt.mp hshort) (not_exists.mp haccepts)]
    refine iff_of_false ?_ ?_
    · rintro ⟨_, h⟩
      cases h
    rintro (h | ⟨family, h, -⟩)
    · exact hshort h
    · exact haccepts ⟨family, h⟩

/-! ## What is handed out -/

/-- What is handed out starts with its family and has the size of its structure. -/
theorem accepts_sockaddr {sa : SocketAddress} {object : SockaddrObject}
    (h : sockaddr sa = .ok object) :
    object.family = sa.socketFamily ∧ object.bytes.length = object.family.size ∧
      object.bytes.take 2 = store16 object.family.af := by
  cases sa with
  | ipv4 sa =>
      cases h
      exact ⟨rfl, rfl, rfl⟩
  | ipv6 sa =>
      cases h
      refine ⟨rfl, ?_, rfl⟩
      simp [store16, SocketFamily.size]
  | unixLocal path =>
      rw [sockaddr, bind_eq_ok] at h
      obtain ⟨sunPath, hpath, h⟩ := h
      cases h
      refine ⟨rfl, ?_, rfl⟩
      have hfits : path.length ≤ sunPathSize := by
        by_contra hlarge
        rw [init_write (not_le.mp hlarge)] at hpath
        cases hpath
      rw [init_eq hfits] at hpath
      cases hpath
      simp only [SocketFamily.size, store16, List.length_append, List.length_cons, List.length_nil,
        List.length_replicate]
      omega

/-- An address whose text leaves no room for a zero in `sun_path`. -/
def Unterminated (sa : SocketAddress) : Prop :=
  sa.socketFamily = .unixLocal ∧ sunPathSize ≤ sa.toString.length

/-- The accessors read in the structure what they read in the address. The path of a local one is padded
with zeros; if it fills `sun_path`, `to_string` reads behind it. -/
theorem address_sockaddr {sa : SocketAddress} {object : SockaddrObject}
    (h : sockaddr sa = .ok object) :
    (¬Unterminated sa → toString object.address = .ok sa.toString) ∧
      (Unterminated sa → toString object.address = .error .read) ∧
      object.address.host = sa.host ∧ object.address.port = sa.port := by
  have hport : ∀ x : UInt16, load16 (UInt8.ofNat x.toNat) (UInt8.ofNat (x.toNat / 256)) = x := fun x =>
    load16_eq_iff.mpr rfl
  cases sa with
  | ipv4 sa =>
      cases h
      have hsame : SockaddrObject.address ⟨.ipv4, store16 SocketFamily.ipv4.af ++ store16 sa.sinPort ++
          [sa.sinAddr.b₀, sa.sinAddr.b₁, sa.sinAddr.b₂, sa.sinAddr.b₃] ++ List.replicate 8 0⟩ =
            .ipv4 sa :=
        congrArg (fun port => SocketAddress.ipv4 ⟨port, sa.sinAddr⟩) (hport sa.sinPort)
      rw [hsame]
      exact ⟨fun _ => rfl, fun hfull => absurd hfull.1 (by simp [SocketAddress.socketFamily]), rfl,
        rfl⟩
  | ipv6 sa =>
      cases h
      have haddr : (Vector.ofFn fun i : Fin 16 => (store16 SocketFamily.ipv6.af ++
          store16 sa.sin6Port ++ List.replicate 4 0 ++ sa.sin6Addr.toList ++
            List.replicate 4 (0 : UInt8)).getD (8 + i) 0) = sa.sin6Addr := by
        ext i hi
        rw [Vector.getElem_ofFn, List.getD_eq_getElem?_getD, List.getElem?_append_left (by
          simp [store16]; omega), List.getElem?_append_right (by simp [store16])]
        simp [store16, hi]
      have hsame : SockaddrObject.address ⟨.ipv6, store16 SocketFamily.ipv6.af ++
          store16 sa.sin6Port ++ List.replicate 4 0 ++ sa.sin6Addr.toList ++ List.replicate 4 0⟩ =
            .ipv6 sa := by
        obtain ⟨port, addr⟩ := sa
        exact congr (congrArg (fun port addr => SocketAddress.ipv6 ⟨port, addr⟩) (hport port)) haddr
      rw [hsame]
      exact ⟨fun _ => rfl, fun hfull => absurd hfull.1 (by simp [SocketAddress.socketFamily]), rfl,
        rfl⟩
  | unixLocal path =>
      rw [sockaddr, bind_eq_ok] at h
      obtain ⟨sunPath, hpath, h⟩ := h
      cases h
      have hfits : path.length ≤ sunPathSize := by
        by_contra hlarge
        rw [init_write (not_le.mp hlarge)] at hpath
        cases hpath
      rw [init_eq hfits] at hpath
      cases hpath
      have htext : toString (.unixLocal (path ++ List.replicate (sunPathSize - path.length) 0)) =
          if (cStr path).length < sunPathSize then .ok (cStr path) else .error .read := by
        rw [toString_padded, Nat.add_sub_cancel' hfits]
      refine ⟨fun hroom => htext.trans (if_pos ?_), fun hfull => htext.trans (if_neg ?_), rfl, rfl⟩
      · exact not_le.mp fun hlen => hroom ⟨rfl, hlen⟩
      · exact not_lt.mpr hfull.2

/-- **The bytes of a socket address.** What `sockaddr()` and `length()` hand out is accepted by the
constructor, which copies it, and the copy reads as the address; only a path that fills `sun_path` is
not printed, but read behind its end. For any object, the constructor returns
the structure at its start if the object begins with a family, the length is one that is accepted for the
family, and the object is large enough; and it reads behind the object if it is not.
Source: `SocketAddress(const struct sockaddr*, size_t)`, `SocketAddress::sockaddr`,
`SocketAddress::length` -/
theorem sockaddr_roundTrip :
    (∀ sa object, sockaddr sa = .ok object →
      ofSockaddr (some object.bytes) object.family.size = .ok object ∧
        object.family = sa.socketFamily ∧
        (¬Unterminated sa → toString object.address = .ok sa.toString) ∧
        (Unterminated sa → toString object.address = .error .read) ∧
        object.address.host = sa.host ∧ object.address.port = sa.port) ∧
    (∀ object len result, ofSockaddr (some object) len = .ok result ↔
      Accepts object len result.family ∧ result.family.size ≤ object.length ∧
        result.bytes = object.take result.family.size) ∧
    ∀ object len, (∃ f, ofSockaddr (some object) len = .error (.fault f)) ↔
      object.length < 2 ∨ ∃ family, Accepts object len family ∧ object.length < family.size := by
  refine ⟨fun sa object h => ?_, fun _ _ _ => ofSockaddr_ok_iff, fun _ _ => ofSockaddr_fault_iff⟩
  obtain ⟨hfamily, hsize, hbytes⟩ := accepts_sockaddr h
  refine ⟨?_, hfamily, address_sockaddr h⟩
  rw [ofSockaddr_ok_iff]
  exact ⟨⟨hbytes, .inl rfl⟩, hsize.ge, by rw [← hsize, List.take_length]⟩

/-- A `sockaddr_un` with a family and nothing else, as an unnamed socket has it. -/
def unnamedSocket : Bytes := store16 SocketFamily.unixLocal.af

/-- Its two bytes are accepted, and the copy reads behind them. -/
theorem unnamedSocket_fault : ∃ f, ofSockaddr (some unnamedSocket) 2 = .error (.fault f) :=
  ofSockaddr_fault_iff.mpr (.inr ⟨.unixLocal, ⟨rfl, .inr ⟨rfl, by decide⟩⟩, by decide⟩)

end SocketMemory

end SocialNetwork.Net
