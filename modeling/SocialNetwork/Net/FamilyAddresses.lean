import SocialNetwork.Foundation.StableSort
import SocialNetwork.Net.SocketAddress

/-!
# Socket addresses of a given family

The constructor `SocketAddress(family_t, const std::string&)` and the `init` behind it. Of the addresses
of a name they take the first one of the family. The constructor without a family takes the first one
after a stable sort by family, and so is the one for IPv4 where that succeeds and otherwise the one for
IPv6 (`ofString_families`).
-/

namespace SocialNetwork.Net

open Foundation Helpers

/-- `SocketAddress::family_t`. -/
inductive SocketFamily
  | unixLocal
  | ipv4
  | ipv6
  deriving DecidableEq, Repr

namespace SocketAddress

/-! ## The code -/

/-- `SocketAddress::family`, as a member of `family_t`. -/
def socketFamily : SocketAddress → SocketFamily
  | .unixLocal _ => .unixLocal
  | .ipv4 _ => .ipv4
  | .ipv6 _ => .ipv6

/-- `SocketAddress::init(family_t, const std::string& addr, uint16_t)`. -/
def initByFamily (R : Resolver) (family : SocketFamily) (addr : Bytes) (port : UInt16) :
    Except SocketError SocketAddress :=
  if family = .unixLocal then .error (.runtime (str "unexpected IP address family"))
  else
    let ipFamily : Family := if family = .ipv4 then .v4 else .v6
    match IpAddress.tryParse addr with
    | some ip =>
        if ipFamily ≠ ip.family then .error (.runtime (str "mismatch IP address family"))
        else .ok (init ip port)
    | none =>
        match Dns.hostByName R addr with
        | .error e => .error e
        | .ok addresses =>
            if addresses.length > 0 then
              match addresses.find? fun ip => ip.family = ipFamily with
              | some ip => .ok (init ip port)
              | none => .error (.runtime (str "addresses found, but address family mismatch for host '" ++
                  addr ++ str "'"))
            else .error (.runtime (str "no address found for host '" ++ addr ++ str "'"))

/-- `SocketAddress(family_t, const std::string&)`. -/
def ofFamilyString (R : Resolver) (family : SocketFamily) (addr : Bytes) :
    Except SocketError SocketAddress :=
  if family = .unixLocal then
    if addr.head? = some (chr '/') then .ok (.unixLocal addr)
    else .error (.runtime (str "invalid UNIX local address"))
  else
    match splitToHostAndPort addr with
    | .error e => .error e
    | .ok (host, port) =>
        match Dns.resolveServiceToPort R port with
        | .error e => .error e
        | .ok port => initByFamily R family host port

/-! ## One family -/

variable {R : Resolver} {addr : Bytes} {port : UInt16} {sa : SocketAddress}

/-- The address that a member of `family_t` other than `UNIX_LOCAL` stands for. -/
def SocketFamily.ofIp : Family → SocketFamily
  | .v4 => .ipv4
  | .v6 => .ipv6

theorem socketFamily_init (ip : IpAddress) (port : UInt16) :
    (init ip port).socketFamily = SocketFamily.ofIp ip.family := by
  unfold init
  cases ip.family <;> rfl

/-- What an address text or a name stands for: the candidates, in their order. -/
def candidates (R : Resolver) (addr : Bytes) : List IpAddress :=
  match IpAddress.tryParse addr with
  | some ip => [ip]
  | none =>
      match Dns.hostByName R addr with
      | .error _ => []
      | .ok addresses => addresses

/-- With a family, the first candidate of the family is taken. -/
theorem initByFamily_ok_iff (f : Family) : initByFamily R (SocketFamily.ofIp f) addr port = .ok sa ↔
    ∃ ip, (candidates R addr).find? (fun ip => ip.family = f) = some ip ∧ sa = init ip port := by
  have hunix : SocketFamily.ofIp f ≠ .unixLocal := by cases f <;> decide
  have hfamily : (if SocketFamily.ofIp f = .ipv4 then Family.v4 else .v6) = f := by cases f <;> rfl
  unfold initByFamily candidates
  rw [if_neg hunix, hfamily]
  dsimp only
  cases IpAddress.tryParse addr with
  | some ip =>
      by_cases h : f = ip.family
      · simp [h, eq_comm]
      · simp [h, Ne.symm h]
  | none =>
      cases Dns.hostByName R addr with
      | error e => simp
      | ok addresses =>
          dsimp only
          by_cases hlen : addresses.length > 0
          · rw [if_pos hlen]
            cases addresses.find? fun ip => ip.family = f <;> simp [eq_comm]
          · have hnil : addresses = [] := List.eq_nil_of_length_eq_zero (by omega)
            simp [hnil]

/-- Without a family, the first candidate after sorting is taken. -/
theorem initByName_ok_iff_head : initByName R addr port = .ok sa ↔
    ∃ ip, ((candidates R addr).insertionSort fun ip₁ ip₂ => ip₁.family.af ≤ ip₂.family.af).head? =
      some ip ∧ sa = init ip port := by
  unfold initByName candidates
  cases IpAddress.tryParse addr with
  | some ip => simp [eq_comm]
  | none =>
      cases Dns.hostByName R addr with
      | error e => simp
      | ok addresses =>
          dsimp only
          split
          · rename_i hsort
            simp [hsort, eq_comm]
          · rename_i hsort
            simp [hsort]

/-! ## Both families -/

/-- The first candidate after sorting: the first one for IPv4, if there is one, else that for IPv6. -/
theorem head?_candidates (l : List IpAddress) :
    (l.insertionSort fun ip₁ ip₂ => ip₁.family.af ≤ ip₂.family.af).head? =
      (l.find? fun ip => ip.family = .v4).or (l.find? fun ip => ip.family = .v6) := by
  have haf : ∀ (f : Family), (fun ip : IpAddress => decide (ip.family.af = f.af)) =
      fun ip => decide (ip.family = f) := by
    intro f
    funext ip
    cases ip.family <;> cases f <;> rfl
  by_cases hv4 : ∃ ip ∈ l, ip.family = .v4
  · have hmin : ∀ ip ∈ l, Family.v4.af ≤ ip.family.af := by
      intro ip _
      cases ip.family <;> decide
    have hfind : (l.find? fun ip => ip.family = .v4).isSome = true := by
      rw [List.find?_isSome]
      simpa using hv4
    obtain ⟨ip, hip, hfamily⟩ := hv4
    rw [head?_insertionSort (fun ip : IpAddress => ip.family.af) hmin
      ⟨ip, hip, congrArg Family.af hfamily⟩, haf, Option.or_of_isSome hfind]
  · have hv6 : ∀ ip ∈ l, ip.family = .v6 := by
      intro ip hip
      cases hfamily : ip.family with
      | v4 => exact absurd ⟨ip, hip, hfamily⟩ hv4
      | v6 => rfl
    have hnone : (l.find? fun ip => ip.family = .v4) = none := by
      rw [List.find?_eq_none]
      intro ip hip
      rw [hv6 ip hip]
      decide
    rw [hnone, Option.none_or]
    cases l with
    | nil => rfl
    | cons ip rest =>
        rw [head?_insertionSort (fun ip : IpAddress => ip.family.af) (k := Family.v6.af) ?_
          ⟨ip, List.mem_cons_self, congrArg Family.af (hv6 ip List.mem_cons_self)⟩, haf]
        intro ip' hip'
        rw [hv6 ip' hip']

/-- Without a family, IPv4 is tried first. -/
theorem initByName_families : initByName R addr port = .ok sa ↔
    initByFamily R .ipv4 addr port = .ok sa ∨
      (∀ sa', initByFamily R .ipv4 addr port ≠ .ok sa') ∧ initByFamily R .ipv6 addr port = .ok sa := by
  have h4 : ∀ sa', initByFamily R .ipv4 addr port = .ok sa' ↔
      ∃ ip, (candidates R addr).find? (fun ip => ip.family = .v4) = some ip ∧ sa' = init ip port :=
    fun _ => initByFamily_ok_iff .v4
  have h6 : initByFamily R .ipv6 addr port = .ok sa ↔ _ := initByFamily_ok_iff .v6
  rw [initByName_ok_iff_head, head?_candidates, h6]
  simp only [ne_eq, h4]
  cases (candidates R addr).find? fun ip => ip.family = .v4 with
  | some ip => simp
  | none => simp

/-- A constructor with a family makes addresses of this family. -/
theorem socketFamily_ofFamilyString {family : SocketFamily}
    (h : ofFamilyString R family addr = .ok sa) : sa.socketFamily = family := by
  have hip : ∀ (f : Family) (host : Bytes) (p : UInt16),
      initByFamily R (SocketFamily.ofIp f) host p = .ok sa → sa.socketFamily = SocketFamily.ofIp f := by
    intro f host p hinit
    obtain ⟨ip, hfind, rfl⟩ := (initByFamily_ok_iff f).mp hinit
    have hfamily : ip.family = f := by simpa using List.find?_some hfind
    rw [socketFamily_init, hfamily]
  rw [ofFamilyString] at h
  by_cases hunix : family = .unixLocal
  · rw [if_pos hunix] at h
    split at h
    · obtain rfl := Except.ok.inj h
      exact hunix.symm
    · cases h
  · obtain ⟨f, rfl⟩ : ∃ f, family = SocketFamily.ofIp f := by
      cases family with
      | unixLocal => exact absurd rfl hunix
      | ipv4 => exact ⟨.v4, rfl⟩
      | ipv6 => exact ⟨.v6, rfl⟩
    rw [if_neg hunix] at h
    split at h
    · cases h
    · split at h
      · cases h
      · exact hip f _ _ h

/-- **A socket address without a family is the one for IPv4 where there is one**, and otherwise the one
for IPv6; a path is the one of a local socket. And a constructor with a family makes addresses of this
family only.

Source: `SocketAddress(const std::string&)`, `SocketAddress(family_t, const std::string&)` and the three
`init` that they call. -/
theorem ofString_families (R : Resolver) (addr : Bytes) (sa : SocketAddress) :
    (ofString R addr = .ok sa ↔
      ofFamilyString R .unixLocal addr = .ok sa ∨
      addr.head? ≠ some (chr '/') ∧ (ofFamilyString R .ipv4 addr = .ok sa ∨
        (∀ sa', ofFamilyString R .ipv4 addr ≠ .ok sa') ∧ ofFamilyString R .ipv6 addr = .ok sa)) ∧
    ∀ family, ofFamilyString R family addr = .ok sa → sa.socketFamily = family := by
  refine ⟨?_, fun family => socketFamily_ofFamilyString⟩
  by_cases hslash : addr.head? = some (chr '/')
  · simp [ofString, ofFamilyString, hslash]
  · have hunix : ofFamilyString R .unixLocal addr ≠ .ok sa := by
      rw [ofFamilyString, if_pos rfl, if_neg hslash]
      exact nofun
    have h4 : SocketFamily.ipv4 ≠ .unixLocal := by decide
    have h6 : SocketFamily.ipv6 ≠ .unixLocal := by decide
    simp only [hunix, false_or, hslash, ne_eq, not_false_eq_true, true_and]
    rw [ofString, if_neg hslash]
    simp only [ofFamilyString, h4, h6, if_false]
    cases splitToHostAndPort addr with
    | error e => simp
    | ok hostAndPort =>
        dsimp only
        cases Dns.resolveServiceToPort R hostAndPort.2 with
        | error e => simp
        | ok p => exact initByName_families

end SocketAddress

end SocialNetwork.Net
