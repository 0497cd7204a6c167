import SocialNetwork.Helpers.Numbers
import SocialNetwork.Net.IpAddress
import Mathlib.Data.List.Sort

/-!
# `Dns`, `SocketAddress` and the listening address

The model of `helpers/dns_address.cpp` and `helpers/socket_address.cpp`. The resolver of the C
library is a parameter: what `getaddrinfo`, `gethostbyname` and `getservbyname` answer. A member
function that may throw returns `Except SocketError`, with the two kinds of exceptions that its
callers tell apart. A path of a local socket is assumed to fit into `sun_path`; the accesses to memory
are in `SocketMemory`.
-/

namespace SocialNetwork.Net

open Foundation Helpers

/-! ## The resolver -/

/-- `DnsException`, and every other exception (they are all `std::runtime_error`). -/
inductive SocketError
  | dns (msg : Bytes)
  | runtime (msg : Bytes)
  deriving DecidableEq, Repr

/-- An address in the list of `getaddrinfo` or in a `hostent`. -/
inductive AddrInfo
  | inet (addr : InAddr)
  | inet6 (addr : Vector UInt8 16)
  | other
  deriving DecidableEq, Repr

/-- The error codes of `getaddrinfo` that `host_by_name` tells apart. -/
inductive EaiError
  | again
  | fail
  | noname
  | nodata
  | system
  | other
  deriving DecidableEq, Repr

/-- The values of `h_errno` that `host_by_name` tells apart. -/
inductive HErrno
  | notReady
  | notInitialized
  | tryAgain
  | noRecovery
  | hostNotFound
  | noData
  | other
  deriving DecidableEq, Repr

/-- What the C library answers: `getaddrinfo`, `h_errno` after it, `gethostbyname`, and the
`s_port` (in network order) that `getservbyname` finds. -/
structure Resolver where
  getaddrinfo : Bytes → Except EaiError (List AddrInfo)
  hErrno : Bytes → HErrno
  gethostbyname : Bytes → Except HErrno (List AddrInfo)
  getservbyname : Bytes → Option Nat

/-- The address that `HostEntry` stores; entries of other families are skipped. -/
def AddrInfo.toIpAddress : AddrInfo → Option IpAddress
  | .inet addr => some (.ofSockaddrIn ⟨0, addr⟩)
  | .inet6 addr => some (.ofSockaddrIn6 ⟨0, addr⟩)
  | .other => none

/-- `remove_duplicates`: keeps the first occurrences, in order. -/
def removeDuplicates : List IpAddress → List IpAddress
  | [] => []
  | ip :: rest => ip :: (removeDuplicates rest).filter (· ≠ ip)

/-- The addresses of a `HostEntry`. -/
def hostEntry (infos : List AddrInfo) : List IpAddress :=
  removeDuplicates (infos.filterMap AddrInfo.toIpAddress)

namespace Dns

/-- The messages that name the host. -/
def resolving (what hostname : Bytes) : SocketError := .dns (what ++ str " '" ++ hostname ++ str "'")

/-- The exception for a value of `h_errno`; `none` is the `default: break`. -/
def hErrnoException (hostname : Bytes) : HErrno → Option SocketError
  | .notReady => some (.dns (str "net subsystem not ready"))
  | .notInitialized => some (.dns (str "net subsystem not initialized"))
  | .tryAgain => some (resolving (str "temporary DNS error while resolving") hostname)
  | .noRecovery => some (resolving (str "non recoverable DNS error while resolving") hostname)
  | .hostNotFound => some (resolving (str "host not found for") hostname)
  | .noData => some (resolving (str "no address found for") hostname)
  | .other => none

/-- The exception for a return code of `getaddrinfo`; `none` is the `default: break`. -/
def eaiException (hostname : Bytes) (hErrno : HErrno) : EaiError → Option SocketError
  | .again => some (resolving (str "temporary DNS error while resolving") hostname)
  | .fail => some (resolving (str "non recoverable DNS error while resolving") hostname)
  | .noname => some (resolving (str "host not found for") hostname)
  | .nodata => some (resolving (str "no address found for") hostname)
  | .system => hErrnoException hostname hErrno
  | .other => none

/-- `Dns::host_by_name`. -/
def hostByName (R : Resolver) (hostname : Bytes) : Except SocketError (List IpAddress) :=
  match R.getaddrinfo (cStr hostname) with
  | .ok infos => .ok (hostEntry infos)
  | .error rc =>
      match eaiException hostname (R.hErrno (cStr hostname)) rc with
      | some e => .error e
      | none =>
          match R.gethostbyname (cStr hostname) with
          | .ok infos => .ok (hostEntry infos)
          | .error hErrno =>
              .error ((hErrnoException hostname hErrno).getD (.dns (str "net exception")))

/-- `Dns::resolve_service_to_port`. -/
def resolveServiceToPort (R : Resolver) (service : Bytes) : Except SocketError UInt16 :=
  let byName : Except SocketError UInt16 :=
    match R.getservbyname (cStr service) with
    | some sPort => .ok (htons (UInt16.ofNat sPort))
    | none => .error (.dns (str "service porn not found by service name = '" ++ service ++ str "'"))
  match tryParseUint service with
  | some port => if port ≤ 0xFFFF then .ok (UInt16.ofNat port) else byName
  | none => byName

end Dns

/-! ## `SocketAddress` -/

/-- `SocketAddress`: the one of its three pointers that is set. -/
inductive SocketAddress
  | ipv4 (sockaddr : SockaddrIn)
  | ipv6 (sockaddr : SockaddrIn6)
  | unixLocal (sunPath : Bytes)
  deriving DecidableEq, Repr

namespace SocketAddress

/-- `SocketAddress::init(const IpAddress&, uint16_t)`. -/
def init (hostIp : IpAddress) (port : UInt16) : SocketAddress :=
  match hostIp.family with
  | .v4 => .ipv4 ⟨htons port, ⟨hostIp.byte 0, hostIp.byte 1, hostIp.byte 2, hostIp.byte 3⟩⟩
  | .v6 => .ipv6 ⟨htons port, hostIp.data⟩

/-- `SocketAddress::init(const std::string& addr, uint16_t)`: an address, or a name to resolve. Of
the addresses of a name the first one in a stable order by family is taken. -/
def initByName (R : Resolver) (addr : Bytes) (port : UInt16) : Except SocketError SocketAddress :=
  match IpAddress.tryParse addr with
  | some ip => .ok (init ip port)
  | none =>
      match Dns.hostByName R addr with
      | .error e => .error e
      | .ok addresses =>
          match addresses.insertionSort fun ip₁ ip₂ => ip₁.family.af ≤ ip₂.family.af with
          | ip :: _ => .ok (init ip port)
          | [] => .error (.runtime (str "no address found for host '" ++ addr ++ str "'"))

/-- `SocketAddress::split_to_host_and_port`. -/
def splitToHostAndPort (addr : Bytes) : Except SocketError (Bytes × Bytes) :=
  let check (host rest : Bytes) : Except SocketError (Bytes × Bytes) :=
    let port := match rest with
      | c :: port => if c = chr ':' then port else []
      | [] => []
    if host = [] || port = [] then .error (.runtime (str "missing host and/or port number"))
    else .ok (host, port)
  match addr with
  | [] => check [] []
  | c :: tail =>
      if c = chr '[' then
        match tail.span (· ≠ chr ']') with
        | (_, []) => .error (.runtime (str "malformed IPv6 address"))
        | (host, _ :: rest) => check host rest
      else
        match addr.span (· ≠ chr ':') with
        | (host, rest) => check host rest

/-- `SocketAddress(const std::string&)`. -/
def ofString (R : Resolver) (addr : Bytes) : Except SocketError SocketAddress :=
  if addr.head? = some (chr '/') then .ok (.unixLocal addr)
  else
    match splitToHostAndPort addr with
    | .error e => .error e
    | .ok (host, port) =>
        match Dns.resolveServiceToPort R port with
        | .error e => .error e
        | .ok port => initByName R host port

/-- `SocketAddress::host`. -/
def host : SocketAddress → Except SocketError IpAddress
  | .ipv4 sockaddr => .ok (.ofSockaddrIn sockaddr)
  | .ipv6 sockaddr => .ok (.ofSockaddrIn6 sockaddr)
  | .unixLocal _ => .error (.runtime (str "local socket address does not have host IP address"))

/-- `SocketAddress::port`. -/
def port : SocketAddress → Except SocketError UInt16
  | .ipv4 sockaddr => .ok (htons sockaddr.sinPort)
  | .ipv6 sockaddr => .ok (htons sockaddr.sin6Port)
  | .unixLocal _ => .error (.runtime (str "local socket address does not have port number"))

/-- `SocketAddress::to_string`. -/
def toString : SocketAddress → Bytes
  | .ipv4 sockaddr => (IpAddress.ofSockaddrIn sockaddr).toString ++ str ":" ++
      decimal (htons sockaddr.sinPort).toNat
  | .ipv6 sockaddr => str "[" ++ (IpAddress.ofSockaddrIn6 sockaddr).toString ++ str "]:" ++
      decimal (htons sockaddr.sin6Port).toNat
  | .unixLocal sunPath => cStr sunPath

/-- `SocketAddress::operator==`. -/
def equals (lhs rsh : SocketAddress) : Except SocketError Bool :=
  match lhs with
  | .unixLocal sunPath => .ok (cStr sunPath = rsh.toString)
  | _ => do
      let host ← lhs.host
      let rshHost ← rsh.host
      if host.equals rshHost then
        let port ← lhs.port
        let rshPort ← rsh.port
        return port = rshPort
      else
        return false

end SocketAddress

/-- The arguments that `App::http_start` passes to `bind_to_port`. -/
def httpStartBind (R : Resolver) (httpListening : Bytes) : Except SocketError (Bytes × UInt16) := do
  let sockAddr ← SocketAddress.ofString R httpListening
  let host ← sockAddr.host
  let port ← sockAddr.port
  return (host.toString, port)

end SocialNetwork.Net
