import HybridInference.Library.IpAddress
import HybridInference.Library.Json

/-!
# Who the client of a request is

`get_client_ip_info` of `serving.utils.request_ip`. Texts are lists of characters;
header names and values are their bytes decoded as Latin-1. The warning that an
unresolved identity logs is left out.
-/

namespace HybridInference.ClientIp

open Library

def maxForwardedHops : ℕ := 32

def pseudoIpv4Network : Network := .v4 0xf0000000#32 4

def nonRoutableNetworks : List Network :=
  [.v4 0x00000000#32 8, .v4 0x0a000000#32 8, .v4 0xac100000#32 12, .v4 0xc0a80000#32 16,
    .v4 0xc0000000#32 24, .v4 0x64400000#32 10, .v4 0xc0000200#32 24, .v4 0xc6336400#32 24,
    .v4 0xcb007100#32 24, .v4 0xc6120000#32 15, .v4 0xf0000000#32 4,
    .v6 0xfc000000000000000000000000000000#128 7, .v6 0x20010db8000000000000000000000000#128 32,
    .v6 0x0064ff9b000100000000000000000000#128 48, .v6 0x01000000000000000000000000000000#128 64,
    .v6 0x01000000000000010000000000000000#128 64, .v6 0x20010002000000000000000000000000#128 48,
    .v6 0x3fff0000000000000000000000000000#128 20, .v6 0x5f000000000000000000000000000000#128 16,
    .v6 0xfec00000000000000000000000000000#128 10]

structure Settings where
  trustProxyHeaders : Bool
  trustCloudflareHeaders : Bool
  trustXRealIp : Bool
  trustKubernetesProxyDiscovery : Bool
  trustedProxies : List Network
  trustedDirectClient : List Network
  trustedCloudflare : List Network

inductive Source where
  | cfConnectingIp
  | cfConnectingIpv6
  | xForwardedFor
  | xRealIp
  | socket
  | unknown
  deriving DecidableEq

structure ClientIpInfo where
  clientIp : List Char
  peerIp : List Char
  source : Source
  trustedProxyHeaders : Bool
  resolved : Bool
  xForwardedFor : Option (List Char)
  xRealIp : Option (List Char)
  cfConnectingIp : Option (List Char)
  cfConnectingIpv6 : Option (List Char)
  trustedForwardedHeaders : Bool
  trustedCloudflareHeaders : Bool
  deriving DecidableEq

structure HeaderLine where
  name : List Char
  value : List Char
  deriving DecidableEq

structure Request where
  /-- The host of `request.client`. -/
  client : Option (List Char)
  headers : List HeaderLine
  /-- The networks in the state of the request, when they are a tuple of networks. -/
  snapshot : Option (List Network) := none
  cached : Option ClientIpInfo := none
  deriving DecidableEq

def dynamicProxyNetworks (request : Request) : List Network :=
  match request.snapshot with
  | none => []
  | some networks => if networks.any (fun network => !network.isSingle) then [] else networks

def fieldLines (name : List Char) (headers : List HeaderLine) : List (List Char) :=
  (headers.filter fun line => line.name.map Char.toLower = name).map HeaderLine.value

def headerValues (headers : List HeaderLine) (name : String) : List (List Char) :=
  (fieldLines name.toList headers).map Text.strip

def singletonHeader (headers : List HeaderLine) (name : String) : Bool × Option (List Char) :=
  match headerValues headers name with
  | [value] => (true, if value = [] then none else some value)
  | values => (!values.isEmpty, none)

def parseIp (value : List Char) : Option Address :=
  match Address.parse value with
  | some (.v6 bits scope) =>
    match Address.v4Mapped bits with
    | some mapped => some (.v4 mapped)
    | none => some (.v6 bits scope)
  | parsed => parsed

def isReportableIp (value : List Char) : Bool :=
  match parseIp value with
  | none => false
  | some address =>
    !address.isLocal && !nonRoutableNetworks.any fun network => network.contains address

def isInNetworks (value : List Char) (networks : List Network) : Bool :=
  match parseIp value with
  | none => false
  | some address => networks.any fun network => network.contains address

def pseudoIpv4Origin (connectingIp : List Char) (connectingIpv6 : Option (List Char)) :
    Option (List Char) :=
  match connectingIpv6 with
  | none => none
  | some connectingIpv6 =>
    match Address.parse connectingIp, Address.parse connectingIpv6 with
    | some (.v4 synthetic), some (.v6 bits scope) =>
      if pseudoIpv4Network.contains (.v4 synthetic) then
        some (Address.writeScoped bits scope)
      else none
    | _, _ => none

/-- `raw.rsplit(",", limit)`. -/
def rsplit (limit : ℕ) (raw : List Char) : List (List Char) :=
  let parts := raw.splitOn ','
  if parts.length ≤ limit + 1 then parts
  else
    [','].intercalate (parts.take (parts.length - limit)) :: parts.drop (parts.length - limit)

def parseForwardedChain (raw : List Char) : List (List Char) :=
  if raw = [] then [] else (rsplit maxForwardedHops raw).map Text.strip

structure Identity where
  clientIp : List Char
  source : Source
  resolved : Bool
  deriving DecidableEq

def unresolved (source : Source) : Identity := ⟨"unknown".toList, source, false⟩

def resolvedAs (clientIp : List Char) (source : Source) : Identity := ⟨clientIp, source, true⟩

/-- The loop over the hops, from the right; `inspected` hops were looked at before. -/
def walkHops (networks : List Network) : ℕ → List (List Char) → Identity
  | _, [] => unresolved .xForwardedFor
  | inspected, hop :: rest =>
    if maxForwardedHops < inspected + 1 then unresolved .xForwardedFor
    else if isInNetworks hop networks then walkHops networks (inspected + 1) rest
    else if isReportableIp hop then resolvedAs hop .xForwardedFor
    else unresolved .xForwardedFor

section Trust

variable (settings : Settings) (request : Request)

def peerIp : List Char := request.client.getD "unknown".toList

def proxyNetworks : List Network :=
  if settings.trustKubernetesProxyDiscovery then dynamicProxyNetworks request
  else settings.trustedProxies

def peerIsTrustedProxy : Bool :=
  settings.trustProxyHeaders && isInNetworks (peerIp request) (proxyNetworks settings request)

def peerIsCloudflare : Bool :=
  !settings.trustKubernetesProxyDiscovery && settings.trustProxyHeaders &&
    settings.trustCloudflareHeaders && isInNetworks (peerIp request) settings.trustedCloudflare

/-- The joined `X-Forwarded-For` lines, where there is one. -/
def xForwardedFor : Option (List Char) :=
  match headerValues request.headers "x-forwarded-for" with
  | [] => none
  | values => some ([',', ' '].intercalate values)

/-- What a Cloudflare address asserts in `CF-Connecting-IP`. -/
def cloudflareIdentity (connectingIp : List Char) : Identity :=
  match pseudoIpv4Origin connectingIp (singletonHeader request.headers "cf-connecting-ipv6").2 with
  | some origin =>
    if isReportableIp origin then resolvedAs origin .cfConnectingIpv6
    else unresolved .cfConnectingIpv6
  | none =>
    if (parseIp connectingIp).any (fun address => pseudoIpv4Network.contains address) then
      unresolved .cfConnectingIp
    else if isReportableIp connectingIp then resolvedAs connectingIp .cfConnectingIp
    else unresolved .cfConnectingIp

def proxyIdentity : Option Identity :=
  match xForwardedFor request with
  | some raw =>
    some (walkHops (proxyNetworks settings request) 0 (parseForwardedChain raw).reverse)
  | none =>
    let realIp := singletonHeader request.headers "x-real-ip"
    if settings.trustXRealIp && realIp.1 then
      match realIp.2 with
      | some value =>
        some (if isReportableIp value then resolvedAs value .xRealIp else unresolved .xRealIp)
      | none => some (unresolved .xRealIp)
    else none

def socketIdentity : Identity :=
  if isReportableIp (peerIp request) then resolvedAs (peerIp request) .socket
  else if isInNetworks (peerIp request) settings.trustedDirectClient then
    resolvedAs (peerIp request) .socket
  else unresolved .unknown

def uncertifiedIdentity : Identity :=
  if peerIsTrustedProxy settings request then
    (proxyIdentity settings request).getD (unresolved .unknown)
  else if peerIsCloudflare settings request then unresolved .unknown
  else socketIdentity settings request

/-- The chain of branches of `get_client_ip_info`. -/
def resolveIdentity : Identity :=
  let connectingIp := singletonHeader request.headers "cf-connecting-ip"
  if settings.trustKubernetesProxyDiscovery && !peerIsTrustedProxy settings request then
    unresolved .unknown
  else if peerIsCloudflare settings request && (connectingIp.1 && connectingIp.2.isNone) &&
      !peerIsTrustedProxy settings request then
    unresolved .cfConnectingIp
  else
    match peerIsCloudflare settings request, connectingIp.2 with
    | true, some connectingIp => cloudflareIdentity request connectingIp
    | _, _ => uncertifiedIdentity settings request

/-- `get_client_ip_info`: the identity, and the request that keeps it. -/
def getClientIpInfo : ClientIpInfo × Request :=
  match request.cached with
  | some info => (info, request)
  | none =>
    let identity := resolveIdentity settings request
    let info : ClientIpInfo :=
      { clientIp := identity.clientIp
        peerIp := peerIp request
        source := identity.source
        trustedProxyHeaders :=
          peerIsTrustedProxy settings request || peerIsCloudflare settings request
        resolved := identity.resolved
        xForwardedFor := xForwardedFor request
        xRealIp := (singletonHeader request.headers "x-real-ip").2
        cfConnectingIp := (singletonHeader request.headers "cf-connecting-ip").2
        cfConnectingIpv6 := (singletonHeader request.headers "cf-connecting-ipv6").2
        trustedForwardedHeaders := peerIsTrustedProxy settings request
        trustedCloudflareHeaders := peerIsCloudflare settings request }
    (info, { request with cached := some info })

end Trust

end HybridInference.ClientIp
