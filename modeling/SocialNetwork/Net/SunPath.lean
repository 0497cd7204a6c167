import SocialNetwork.Net.HostPort

/-!
# The memory that `SocketAddress(const std::string&)` touches

The constructor with its accesses to the text and to `sun_path`. The resolver and the parsers of
addresses work on strings of their own and are taken as they are. A text that stays in bounds is
built into what `SocketAddress.ofString` builds (`ofString_host`, `ofString_path`); the texts that do
are those of `staysInBounds_iff`: not the empty text, whose first byte is read, and no path that does
not fit into `sun_path` with a zero after it.
-/

namespace SocialNetwork.Net

open Foundation Helpers Object

namespace SocketMemory

/-! ## The code -/

/-- `sizeof(sockaddr_un::sun_path)`. -/
def sunPathSize : Nat := 108

/-- `SocketAddress::init(const std::string& path)`: `sun_path`, zero before the copy. `path.c_str()`
points to the path and a zero. -/
def init (path : Bytes) : Except Fault Bytes :=
  memcpy (List.replicate sunPathSize 0) (path ++ [0]) path.length

/-- `addr.size() && (addr[0] == '/')`. -/
def isPath (addr : Bytes) : Except Fault Bool := do
  if addr.length = 0 then return false
  else return (← load addr 0) = chr '/'

/-- `SocketAddress(const std::string&)`. -/
def ofString (R : Resolver) (addr : Bytes) : Except Failure SocketAddress := do
  if ← access (isPath addr) then
    let sunPath ← access (init addr)
    return .unixLocal sunPath
  else
    let (host, port) ← splitToHostAndPort addr
    let port ← raise (Dns.resolveServiceToPort R port)
    raise (SocketAddress.initByName R host port)

/-- `SocketAddress::to_string`: `sun_path` is read up to its terminating zero. -/
def toString : SocketAddress → Except Fault Bytes
  | .unixLocal sunPath => cString sunPath
  | addr => .ok addr.toString

/-- The constructor throws or returns without an access outside of the text or `sun_path`, and the
address of a path that it returns is terminated and reads as the path. -/
structure StaysInBounds (R : Resolver) (addr : Bytes) : Prop where
  noFault : ∀ f, ofString R addr ≠ .error (.fault f)
  readsBack : ∀ sunPath, ofString R addr = .ok (.unixLocal sunPath) →
    toString (.unixLocal sunPath) = .ok (cStr addr)

/-! ## The two branches -/

variable (R : Resolver) {addr : Bytes}

theorem isPath_eq (addr : Bytes) : isPath addr = .ok (decide (addr.head? = some (chr '/'))) := by
  cases addr with
  | nil => rfl
  | cons c tail =>
      rw [isPath, if_neg (by simp), show load (c :: tail) 0 = .ok c from rfl]
      simp [bind, Except.bind, pure, Except.pure]

/-- A path that fits, and the zeros after it. -/
theorem init_eq (h : addr.length ≤ sunPathSize) :
    init addr = .ok (addr ++ List.replicate (sunPathSize - addr.length) 0) := by
  rw [init, memcpy_eq (by simp) (by simpa using h), List.take_left, List.drop_replicate]

/-- A path that does not fit. -/
theorem init_write (h : sunPathSize < addr.length) : init addr = .error .write :=
  memcpy_write (by simp) (by simpa using h)

theorem ofString_of_path (h : addr.head? = some (chr '/')) :
    ofString R addr = access (init addr) >>= fun sunPath => .ok (.unixLocal sunPath) := by
  rw [ofString, isPath_eq, decide_eq_true h]
  rfl

/-- **A path that fits** is built into the address of the path. -/
theorem ofString_path (h : addr.head? = some (chr '/')) (hfits : addr.length ≤ sunPathSize) :
    ofString R addr =
      .ok (.unixLocal (addr ++ List.replicate (sunPathSize - addr.length) 0)) := by
  rw [ofString_of_path R h, init_eq hfits]
  rfl

/-- **A host and a port** are built into what the constructor computes without its accesses. -/
theorem ofString_host (h : addr.head? ≠ some (chr '/')) (hne : addr ≠ []) :
    ofString R addr = raise (SocketAddress.ofString R addr) := by
  rw [ofString, isPath_eq, decide_eq_false h, splitToHostAndPort_eq hne, SocketAddress.ofString,
    if_neg h]
  cases SocketAddress.splitToHostAndPort addr with
  | error e => rfl
  | ok parts =>
      simp only [access_ok, raise_ok, bind, Except.bind, Bool.false_eq_true, if_false]
      cases Dns.resolveServiceToPort R parts.2 with
      | error e => rfl
      | ok port => rfl

/-- The constructor of a host does not build the address of a path. -/
theorem ne_unixLocal_of_ofString {a : SocketAddress} (h : addr.head? ≠ some (chr '/'))
    (ha : SocketAddress.ofString R addr = .ok a) (sunPath : Bytes) : a ≠ .unixLocal sunPath := by
  rw [SocketAddress.ofString, if_neg h] at ha
  rintro rfl
  split at ha
  · cases ha
  · split at ha
    · cases ha
    · cases SocketAddress.port_initByName ha

/-! ## Bounds -/

/-- A C string is shorter than its bytes exactly if one of them is a zero. -/
theorem length_cStr_lt_iff (s : Bytes) : (cStr s).length < s.length ↔ 0 ∈ s := by
  constructor
  · intro hlt
    by_contra hfree
    rw [cStr_eq_self hfree] at hlt
    exact lt_irrefl _ hlt
  · intro hzero
    apply lt_of_le_of_ne (List.takeWhile_prefix _).length_le
    intro hlen
    have hself : cStr s = s := (List.takeWhile_prefix _).eq_of_length hlen
    rw [← hself] at hzero
    simpa using List.mem_takeWhile_imp hzero

/-- The zeros after a path end it, if it does not end before them; without one the read leaves
`sun_path`. -/
theorem toString_padded (path : Bytes) (n : Nat) :
    toString (.unixLocal (path ++ List.replicate n 0)) =
      if (cStr path).length < path.length + n then .ok (cStr path) else .error .read := by
  have hzero : 0 ∈ path ++ List.replicate n (0 : UInt8) ↔ (cStr path).length < path.length + n := by
    have hle : (cStr path).length ≤ path.length := (List.takeWhile_prefix _).length_le
    have hpath := length_cStr_lt_iff path
    rw [List.mem_append, List.mem_replicate, ← hpath]
    simp only [and_true]
    omega
  have hpadded : cStr (path ++ List.replicate n 0) = cStr path := by
    rw [cStr, List.takeWhile_append]
    split
    · next hlen =>
        have hself : cStr path = path := (List.takeWhile_prefix _).eq_of_length hlen
        rw [hself]
        simp
    · rfl
  rw [toString, cString_eq, hpadded]
  simp only [hzero]

/-- **What stays in bounds**: a text that is not empty and, if it is a path, has at most 108 bytes
and fewer than 108 before its first zero.

Source: the constructor, `init`, `split_to_host_and_port` and `to_string` of `SocketAddress`. -/
theorem staysInBounds_iff (R : Resolver) (addr : Bytes) : StaysInBounds R addr ↔
    addr ≠ [] ∧ (addr.head? = some (chr '/') →
      addr.length ≤ sunPathSize ∧ (cStr addr).length < sunPathSize) := by
  constructor
  · intro hbounds
    constructor
    · rintro rfl
      exact hbounds.noFault .read rfl
    · intro hslash
      have hfits : addr.length ≤ sunPathSize := by
        by_contra hlarge
        apply hbounds.noFault .write
        rw [ofString_of_path R hslash, init_write (not_le.mp hlarge)]
        rfl
      have hread := hbounds.readsBack _ (ofString_path R hslash hfits)
      rw [toString_padded, Nat.add_sub_cancel' hfits] at hread
      by_contra hlong
      rw [if_neg fun hlt => hlong ⟨hfits, hlt⟩] at hread
      cases hread
  · rintro ⟨hne, hpath⟩
    by_cases hslash : addr.head? = some (chr '/')
    · obtain ⟨hfits, hlt⟩ := hpath hslash
      have hbuilt := ofString_path R hslash hfits
      constructor
      · intro f hf
        cases hbuilt.symm.trans hf
      · intro sunPath hsun
        cases hbuilt.symm.trans hsun
        rw [toString_padded, Nat.add_sub_cancel' hfits, if_pos hlt]
    · have hbuilt := ofString_host R hslash hne
      constructor
      · intro f hf
        rw [hbuilt] at hf
        cases hresult : SocketAddress.ofString R addr <;> rw [hresult] at hf <;> cases hf
      · intro sunPath hsun
        rw [hbuilt, raise_eq_ok_iff] at hsun
        exact absurd rfl (ne_unixLocal_of_ofString R hslash hsun sunPath)

/-- A path of 109 bytes is copied past the end of `sun_path`. -/
theorem long_path_leaves_bounds : ¬∀ R addr, StaysInBounds R addr := by
  intro h
  have R : Resolver :=
    ⟨fun _ => .error .noname, fun _ => .hostNotFound, fun _ => .error .hostNotFound, fun _ => none⟩
  apply (h R (chr '/' :: List.replicate 108 (chr 'a'))).noFault .write
  rw [ofString_of_path R rfl, init_write (by simp [sunPathSize])]
  rfl

end SocketMemory

end SocialNetwork.Net
