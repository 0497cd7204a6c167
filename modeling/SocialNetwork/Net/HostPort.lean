import SocialNetwork.Foundation.Objects
import SocialNetwork.Net.RoundTrip

/-!
# Splitting an address into host and port

`SocketAddress::split_to_host_and_port` with its iterators. The first loop is entered after `*it` was
read once without a comparison with `end`; for every text but the empty one the loops compute what
the spans of `SocketAddress.splitToHostAndPort` compute (`splitToHostAndPort_eq`). The accepted texts
are `[host]:port` and `host:port` (`splitToHostAndPort_grammar`).
-/

namespace SocialNetwork.Net

open Foundation Helpers Object

/-- How the code leaves the constructor without a result: an exception, or an access outside of an
object. -/
inductive Failure
  | thrown (e : SocketError)
  | fault (f : Fault)
  deriving DecidableEq, Repr

/-- What may throw. -/
def raise {α : Type} (x : Except SocketError α) : Except Failure α := x.mapError .thrown

/-- What may leave an object. -/
def access {α : Type} (x : Except Fault α) : Except Failure α := x.mapError .fault

/-- A value is no exception. -/
@[simp]
theorem raise_ok {α : Type} (a : α) : raise (.ok a) = .ok a := rfl

/-- An access in bounds is no fault. -/
@[simp]
theorem access_ok {α : Type} (a : α) : access (.ok a) = .ok a := rfl

namespace SocketMemory

/-! ## The code -/

/-- `SocketAddress::split_to_host_and_port`, up to the host: `host` and `it`. -/
def scanHost (addr : Bytes) : Except Failure (Bytes × Nat) := do
  if (← access (load addr 0)) = chr '[' then
    let (host, it) ← access (scan addr (· ≠ chr ']') [] 1)
    if it = addr.length then .error (.thrown (.runtime (str "malformed IPv6 address")))
    else return (host, it + 1)
  else access (scan addr (· ≠ chr ':') [] 0)

/-- `SocketAddress::split_to_host_and_port`, after the host: `port`. -/
def scanPort (addr : Bytes) (it : Nat) : Except Fault Bytes := do
  if it = addr.length then return []
  else if (← load addr it) = chr ':' then
    let (port, _) ← scan addr (fun _ => true) [] (it + 1)
    return port
  else return []

/-- `SocketAddress::split_to_host_and_port`. -/
def splitToHostAndPort (addr : Bytes) : Except Failure (Bytes × Bytes) := do
  let (host, it) ← scanHost addr
  let port ← access (scanPort addr it)
  if host = [] || port = [] then
    .error (.thrown (.runtime (str "missing host and/or port number")))
  else return (host, port)

/-! ## The loops -/

/-- A loop up to a delimiter, or to the end of the text. -/
theorem scan_delimiter {d : UInt8} {text : Bytes} (rest pre : Bytes) (hfree : d ∉ text)
    (hrest : ∀ c ∈ rest.head?, c = d) :
    scan (pre ++ (text ++ rest)) (· ≠ d) [] pre.length = .ok (text, (pre ++ text).length) := by
  have hspan := span_delimiter rest hfree hrest
  rw [List.span_eq_takeWhile_dropWhile] at hspan
  have htake : (text ++ rest).takeWhile (· ≠ d) = text := congrArg Prod.fst hspan
  rw [scan_append, htake]
  rfl

/-- What the code takes as the port in the text after the host. -/
def portAfter : Bytes → Bytes
  | c :: port => if c = chr ':' then port else []
  | [] => []

/-- The port is read from where the host ends. -/
theorem scanPort_append (pre rest : Bytes) :
    scanPort (pre ++ rest) pre.length = .ok (portAfter rest) := by
  cases rest with
  | nil => simp [scanPort, portAfter, pure, Except.pure]
  | cons c port =>
      have hscan := scan_append (fun _ => true) (pre ++ [c]) port []
      rw [List.append_assoc, List.singleton_append, List.length_append, List.length_singleton] at hscan
      rw [scanPort, if_neg (by simp), load_append]
      simp only [bind, Except.bind, hscan]
      by_cases hc : c = chr ':'
      · simp [hc, portAfter, pure, Except.pure, List.takeWhile_eq_self_iff]
      · simp [hc, portAfter, pure, Except.pure]

/-- The end of the function: the parts, if none is empty. -/
def checked (host port : Bytes) : Except SocketError (Bytes × Bytes) :=
  if host = [] || port = [] then .error (.runtime (str "missing host and/or port number"))
  else .ok (host, port)

/-- Host and port must not be empty. -/
theorem checked_eq_ok_iff {host port : Bytes} {r : Bytes × Bytes} :
    checked host port = .ok r ↔ (host, port) = r ∧ host ≠ [] ∧ port ≠ [] := by
  unfold checked
  split
  · next h =>
      refine iff_of_false (fun hok => by cases hok) ?_
      rintro ⟨-, hhost, hport⟩
      simp [hhost, hport] at h
  · next h =>
      simp only [Bool.or_eq_true, decide_eq_true_eq, not_or] at h
      rw [Except.ok.injEq]
      exact ⟨fun hr => ⟨hr, h⟩, And.left⟩

/-- Once the host is read, the port is read after it, and both are checked. -/
theorem splitToHostAndPort_of_scanHost {pre rest host : Bytes}
    (h : scanHost (pre ++ rest) = .ok (host, pre.length)) :
    splitToHostAndPort (pre ++ rest) = raise (checked host (portAfter rest)) := by
  rw [splitToHostAndPort, h]
  simp only [bind, Except.bind, scanPort_append, access_ok, pure, Except.pure, checked]
  split <;> rfl

/-! ## The three ways through the code -/

/-- How a text begins: with a bracket that is not closed, with a host in brackets, or with a host
that ends at a colon or at the end of the text. -/
inductive HostView : Bytes → Prop
  | opened {tail : Bytes} (hfree : chr ']' ∉ tail) : HostView (chr '[' :: tail)
  | brackets {host rest : Bytes} (hfree : chr ']' ∉ host) :
      HostView ((chr '[' :: host ++ [chr ']']) ++ rest)
  | plain {host rest : Bytes} (hne : host ++ rest ≠ []) (hfree : chr ':' ∉ host)
      (hbracket : (host ++ rest).head? ≠ some (chr '[')) (hrest : ∀ c ∈ rest.head?, c = chr ':') :
      HostView (host ++ rest)

/-- Every text but the empty one begins in one of these ways. -/
theorem hostView {addr : Bytes} (h : addr ≠ []) : HostView addr := by
  by_cases hc : addr.head? = some (chr '[')
  · obtain ⟨tail, rfl⟩ := List.head?_eq_some_iff.mp hc
    by_cases hclosed : chr ']' ∈ tail
    · obtain ⟨host, rest, rfl, hfree⟩ := List.eq_append_cons_of_mem hclosed
      have htext : chr '[' :: (host ++ chr ']' :: rest) =
          (chr '[' :: host ++ [chr ']']) ++ rest := by
        simp
      rw [htext]
      exact .brackets hfree
    · exact .opened hclosed
  · by_cases hcolon : chr ':' ∈ addr
    · obtain ⟨host, rest, rfl, hfree⟩ := List.eq_append_cons_of_mem hcolon
      exact .plain h hfree hc fun c he => (Option.some.inj he).symm
    · rw [← List.append_nil addr] at h hc ⊢
      exact .plain h hcolon hc fun c he => by cases he

/-- An opening bracket that is not closed is an exception. -/
theorem splitToHostAndPort_opened {tail : Bytes} (hfree : chr ']' ∉ tail) :
    splitToHostAndPort (chr '[' :: tail) =
      .error (.thrown (.runtime (str "malformed IPv6 address"))) := by
  have hscan := scan_delimiter [] [chr '['] hfree fun c he => by cases he
  rw [List.append_nil] at hscan
  rw [splitToHostAndPort, scanHost, show load (chr '[' :: tail) 0 = .ok (chr '[') from rfl,
    show scan (chr '[' :: tail) (· ≠ chr ']') [] 1 = _ from hscan]
  simp [bind, Except.bind]

/-- A host in brackets, and what follows them. -/
theorem splitToHostAndPort_brackets {host : Bytes} (hfree : chr ']' ∉ host) (rest : Bytes) :
    splitToHostAndPort ((chr '[' :: host ++ [chr ']']) ++ rest) =
      raise (checked host (portAfter rest)) := by
  apply splitToHostAndPort_of_scanHost
  have htext : (chr '[' :: host ++ [chr ']']) ++ rest = chr '[' :: (host ++ chr ']' :: rest) := by
    simp
  have hscan := scan_delimiter (chr ']' :: rest) [chr '['] hfree fun c he =>
    (Option.some.inj he).symm
  rw [htext, scanHost, show load (chr '[' :: (host ++ chr ']' :: rest)) 0 = .ok (chr '[') from rfl,
    show scan (chr '[' :: (host ++ chr ']' :: rest)) (· ≠ chr ']') [] 1 = _ from hscan]
  simp [bind, Except.bind, pure, Except.pure]

/-- A host without brackets, and what follows its first colon. -/
theorem splitToHostAndPort_plain {host rest : Bytes} (hne : host ++ rest ≠ [])
    (hfree : chr ':' ∉ host) (hbracket : (host ++ rest).head? ≠ some (chr '['))
    (hrest : ∀ c ∈ rest.head?, c = chr ':') :
    splitToHostAndPort (host ++ rest) = raise (checked host (portAfter rest)) := by
  apply splitToHostAndPort_of_scanHost
  have hscan := scan_delimiter rest [] hfree hrest
  obtain ⟨c, hc⟩ := Option.ne_none_iff_exists'.mp (mt List.head?_eq_none_iff.mp hne)
  have hload : load (host ++ rest) 0 = .ok c := by rw [load, ← List.head?_eq_getElem?, hc]
  have hcb : c ≠ chr '[' := fun he => hbracket (he ▸ hc)
  rw [scanHost, hload, show scan (host ++ rest) (· ≠ chr ':') [] 0 = _ from hscan]
  exact if_neg hcb

/-- **The loops compute the spans**: on every text but the empty one. -/
theorem splitToHostAndPort_eq {addr : Bytes} (h : addr ≠ []) :
    splitToHostAndPort addr = raise (SocketAddress.splitToHostAndPort addr) := by
  cases hostView h with
  | opened hfree =>
      have hspan := span_delimiter [] hfree fun c he => by cases he
      rw [List.append_nil] at hspan
      rw [splitToHostAndPort_opened hfree]
      simp only [SocketAddress.splitToHostAndPort, if_true, hspan]
      rfl
  | @brackets host rest hfree =>
      have htext : (chr '[' :: host ++ [chr ']']) ++ rest = chr '[' :: (host ++ chr ']' :: rest) := by
        simp
      have hspan := span_delimiter (chr ']' :: rest) hfree fun c he =>
        (Option.some.inj he).symm
      rw [splitToHostAndPort_brackets hfree, htext]
      simp only [SocketAddress.splitToHostAndPort, if_true, hspan]
      rfl
  | @plain host rest hne hfree hbracket hrest =>
      have hspan := span_delimiter rest hfree hrest
      rw [splitToHostAndPort_plain hne hfree hbracket hrest]
      cases htext : host ++ rest with
      | nil => exact absurd htext hne
      | cons c tail =>
          rw [htext] at hspan hbracket
          have hc : c ≠ chr '[' := fun he => hbracket (by rw [he]; rfl)
          simp only [SocketAddress.splitToHostAndPort, hc, if_false, hspan]
          rfl

/-! ## The grammar -/

/-- The texts that name a host and a port: `[host]:port` and `host:port`. -/
inductive HostPort : Bytes → Bytes → Bytes → Prop
  | brackets {host port : Bytes} (hhost : host ≠ []) (hfree : chr ']' ∉ host) (hport : port ≠ []) :
      HostPort (str "[" ++ host ++ str "]:" ++ port) host port
  | plain {host port : Bytes} (hhost : host ≠ []) (hfree : chr ':' ∉ host)
      (hbracket : host.head? ≠ some (chr '[')) (hport : port ≠ []) :
      HostPort (host ++ str ":" ++ port) host port

/-- A text of the grammar is split into its parts. -/
theorem HostPort.split_eq {addr host port : Bytes} (h : HostPort addr host port) :
    SocketAddress.splitToHostAndPort addr = .ok (host, port) := by
  cases h with
  | brackets hhost hfree hport =>
      exact SocketAddress.splitToHostAndPort_brackets hhost hport hfree
  | plain hhost hfree hbracket hport =>
      exact SocketAddress.splitToHostAndPort_plain hhost hport hbracket hfree

/-- A port stands after a colon. -/
theorem eq_of_portAfter {rest port : Bytes} (h : portAfter rest = port) (hport : port ≠ []) :
    rest = chr ':' :: port := by
  cases rest with
  | nil => exact absurd h.symm hport
  | cons c rest =>
      by_cases hc : c = chr ':'
      · rw [portAfter, if_pos hc] at h
        rw [hc, h]
      · rw [portAfter, if_neg hc] at h
        exact absurd h.symm hport

/-- A value that is returned after an exception could have been raised is the value. -/
theorem raise_eq_ok_iff {α : Type} {x : Except SocketError α} {a : α} :
    raise x = .ok a ↔ x = .ok a := by
  cases x with
  | error e => exact iff_of_false (fun h => by cases h) fun h => by cases h
  | ok b => rw [raise_ok, Except.ok.injEq, Except.ok.injEq]

/-- **The split returns the parts of the grammar**, and nothing else. -/
theorem splitToHostAndPort_iff {addr : Bytes} (h : addr ≠ []) (host port : Bytes) :
    splitToHostAndPort addr = .ok (host, port) ↔ HostPort addr host port := by
  constructor
  · intro hok
    cases hostView h with
    | opened hfree =>
        rw [splitToHostAndPort_opened hfree] at hok
        cases hok
    | @brackets host' rest hfree =>
        rw [splitToHostAndPort_brackets hfree, raise_eq_ok_iff, checked_eq_ok_iff] at hok
        obtain ⟨hparts, hhost, hport⟩ := hok
        obtain ⟨rfl, hafter⟩ := Prod.mk.inj hparts
        rw [hafter] at hport
        rw [eq_of_portAfter hafter hport]
        simpa [str] using HostPort.brackets hhost hfree hport
    | @plain host' rest hne hfree hbracket hrest =>
        rw [splitToHostAndPort_plain hne hfree hbracket hrest, raise_eq_ok_iff,
          checked_eq_ok_iff] at hok
        obtain ⟨hparts, hhost, hport⟩ := hok
        obtain ⟨rfl, hafter⟩ := Prod.mk.inj hparts
        rw [hafter] at hport
        rw [List.head?_append_of_ne_nil _ hhost] at hbracket
        rw [eq_of_portAfter hafter hport]
        simpa [str] using HostPort.plain hhost hfree hbracket hport
  · intro hgrammar
    rw [splitToHostAndPort_eq h, hgrammar.split_eq, raise_ok]

/-- **Splitting accepts the grammar, unambiguously**: it returns the parts of a text of the grammar,
there are no other parts, and it throws on every other text.

Source: `split_to_host_and_port` of `SocketAddress`. -/
theorem splitToHostAndPort_grammar {addr : Bytes} (h : addr ≠ []) :
    (∀ host port, splitToHostAndPort addr = .ok (host, port) ↔ HostPort addr host port) ∧
    (∀ host port host' port', HostPort addr host port → HostPort addr host' port' →
      host = host' ∧ port = port') ∧
    ((¬∃ host port, HostPort addr host port) →
      ∃ e, splitToHostAndPort addr = .error (.thrown e)) := by
  constructor
  · exact splitToHostAndPort_iff h
  constructor
  · intro host port host' port' hparts hparts'
    have hok := hparts.split_eq.symm.trans hparts'.split_eq
    exact Prod.mk.inj (Except.ok.inj hok)
  · intro hnone
    rw [splitToHostAndPort_eq h]
    cases hsplit : SocketAddress.splitToHostAndPort addr with
    | error e => exact ⟨e, rfl⟩
    | ok parts =>
        have hok : splitToHostAndPort addr = .ok parts := by
          rw [splitToHostAndPort_eq h, hsplit, raise_ok]
        exact absurd ⟨_, _, (splitToHostAndPort_iff h _ _).mp hok⟩ hnone

/-- The address `[::1]:80` is split into `::1` and `80`. -/
theorem splitToHostAndPort_loopback :
    splitToHostAndPort (str "[::1]:80") = .ok (str "::1", str "80") := by
  have hparts : HostPort (str "[" ++ str "::1" ++ str "]:" ++ str "80") (str "::1") (str "80") :=
    .brackets (by decide) (by decide) (by decide)
  exact ((splitToHostAndPort_grammar (by decide)).1 _ _).mpr hparts

end SocketMemory

end SocialNetwork.Net
