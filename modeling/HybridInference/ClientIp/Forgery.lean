import HybridInference.ClientIp.Resolution
import HybridInference.Library.Strip

/-!
# Forwarding headers cannot forge the client

What a peer without authority sends in forwarding headers changes nothing, and what
is put in front of the chain of a trusted proxy is never reached.
-/

namespace HybridInference.ClientIp

open Library

def hops (text : List Char) : List (List Char) := (text.splitOn ',').map Text.strip

theorem hops_append_comma (first second : List Char) :
    hops (first ++ ',' :: second) = hops first ++ hops second := by
  simp [hops, List.splitOn_append_cons_self]

theorem not_comma_of_space {c : Char} (space : Text.isSpace c = true) : c ≠ ',' := by
  rintro rfl
  exact absurd space (by decide)

theorem hops_cons_space {c : Char} (space : Text.isSpace c = true) (text : List Char) :
    hops (c :: text) = hops text := by
  have different : (c == ',') = false := by simpa using not_comma_of_space space
  cases parts : text.splitOn ',' with
  | nil => exact absurd parts (List.splitOn_ne_nil _ _)
  | cons head rest =>
    simp [hops, List.splitOn_cons_eq_if_modifyHead, different, parts,
      Text.strip_cons_of_space space]

theorem hops_append_space {c : Char} (space : Text.isSpace c = true) (text : List Char) :
    hops (text ++ [c]) = hops text := by
  induction length_eq : text.length using Nat.strongRecOn generalizing text with
  | ind length ih =>
    by_cases comma : ',' ∈ text
    · rcases List.append_of_mem comma with ⟨first, second, rfl⟩
      have shorter : second.length < length := by
        simp only [List.length_append, List.length_cons] at length_eq
        omega
      rw [List.append_assoc, List.cons_append, hops_append_comma, hops_append_comma,
        ih second.length shorter second rfl]
    · have noComma : ',' ∉ text ++ [c] := by
        simp [comma, (not_comma_of_space space).symm]
      simp [hops, List.splitOn_eq_singleton comma, List.splitOn_eq_singleton noComma,
        Text.strip_append_of_space space]

theorem hops_strip (text : List Char) : hops (Text.strip text) = hops text := by
  have fromLeft (text : List Char) : hops (text.dropWhile Text.isSpace) = hops text := by
    induction text with
    | nil => rfl
    | cons c rest ih =>
      by_cases space : Text.isSpace c = true
      · rw [List.dropWhile_cons_of_pos space, ih, hops_cons_space space]
      · rw [List.dropWhile_cons_of_neg space]
  have fromRight (text : List Char) :
      hops (text.dropWhile Text.isSpace).reverse = hops text.reverse := by
    induction text with
    | nil => rfl
    | cons c rest ih =>
      by_cases space : Text.isSpace c = true
      · rw [List.dropWhile_cons_of_pos space, ih, List.reverse_cons, hops_append_space space]
      · rw [List.dropWhile_cons_of_neg space]
  rw [Text.strip, fromRight, List.reverse_reverse, fromLeft]

theorem hops_intercalate {values : List (List Char)} (some : values ≠ []) :
    hops ([',', ' '].intercalate values) = values.flatMap hops := by
  induction values with
  | nil => exact absurd rfl some
  | cons value rest ih =>
    cases rest with
    | nil => simp
    | cons second later =>
      have joined : [',', ' '].intercalate (value :: second :: later) =
          value ++ ',' :: ' ' :: [',', ' '].intercalate (second :: later) := by
        simp [List.intercalate]
      rw [joined, hops_append_comma, hops_cons_space (by decide), ih (by simp)]
      rfl

theorem parseForwardedChain_reverse {raw : List Char} (some : raw ≠ []) :
    ∃ left, (parseForwardedChain raw).reverse =
      (hops raw).reverse.take maxForwardedHops ++ left := by
  unfold parseForwardedChain rsplit
  rw [if_neg some]
  simp only
  split_ifs with short
  · exact ⟨(hops raw).reverse.drop maxForwardedHops, by rw [List.take_append_drop]; rfl⟩
  · refine ⟨[Text.strip ([','].intercalate
      ((raw.splitOn ',').take ((raw.splitOn ',').length - maxForwardedHops)))], ?_⟩
    rw [List.map_cons, List.reverse_cons, List.take_reverse, hops, List.length_map, List.map_drop]

section Walks

variable {networks : List Network} {inspected : ℕ} {near : List (List Char)}

theorem walkHops_append (boundary : ∃ hop ∈ near, isInNetworks hop networks = false)
    (left : List (List Char)) :
    walkHops networks inspected (near ++ left) = walkHops networks inspected near := by
  induction near generalizing inspected with
  | nil =>
    rcases boundary with ⟨hop, hopMem, -⟩
    cases hopMem
  | cons hop rest ih =>
    rcases boundary with ⟨outside, outsideMem, isOutside⟩
    cases inside : isInNetworks hop networks with
    | false => simp [walkHops, inside]
    | true =>
      have later : ∃ hop ∈ rest, isInNetworks hop networks = false := by
        rcases List.mem_cons.mp outsideMem with rfl | inRest
        · rw [inside] at isOutside
          cases isOutside
        · exact ⟨outside, inRest, isOutside⟩
      simp only [List.cons_append, walkHops, inside, if_true, ih later]

/-- The walk ends at no hop or at a reportable one outside the trusted networks. -/
theorem walkHops_cases (networks : List Network) (inspected : ℕ) (chain : List (List Char)) :
    walkHops networks inspected chain = unresolved .xForwardedFor ∨
      ∃ hop, walkHops networks inspected chain = resolvedAs hop .xForwardedFor ∧
        isReportableIp hop = true ∧ isInNetworks hop networks = false := by
  induction chain generalizing inspected with
  | nil => exact Or.inl rfl
  | cons hop rest ih =>
    unfold walkHops
    split_ifs with tooMany inside reportable
    · exact Or.inl rfl
    · exact ih (inspected + 1)
    · exact Or.inr ⟨hop, rfl, reportable, by simpa using inside⟩
    · exact Or.inl rfl

end Walks

section Identity

def identify (settings : Settings) (request : Request) : ClientIpInfo :=
  (getClientIpInfo settings { request with cached := none }).1

def ClientIpInfo.identity (info : ClientIpInfo) : Identity :=
  ⟨info.clientIp, info.source, info.resolved⟩

def isAuthorized (settings : Settings) (request : Request) : Bool :=
  peerIsTrustedProxy settings request || peerIsCloudflare settings request

/-- Two requests of one peer, whatever their headers say. -/
structure SamePeer (first second : Request) : Prop where
  client : first.client = second.client
  snapshot : first.snapshot = second.snapshot

/-- The second chain is the first with something put in front. -/
inductive Fronted : List (List Char) → List (List Char) → Prop where
  | wholeLines (front : List (List Char)) (first : List Char) (rest : List (List Char)) :
      Fronted (first :: rest) (front ++ first :: rest)
  | furtherHops (front : List (List Char)) (further first : List Char) (rest : List (List Char)) :
      Fronted (first :: rest) (front ++ (further ++ ',' :: first) :: rest)

def NoCloudflareAssertion (settings : Settings) (request : Request) : Prop :=
  peerIsCloudflare settings request = false ∨
    (singletonHeader request.headers "cf-connecting-ip").2 = none

def HasBoundary (settings : Settings) (request : Request) : Prop :=
  ∃ raw, xForwardedFor request = some raw ∧ ∃ hop ∈ (hops raw).reverse.take maxForwardedHops,
      isInNetworks hop (proxyNetworks settings request) = false

variable {settings : Settings} {request first second : Request}

theorem identify_identity :
    (identify settings request).identity = resolveIdentity settings request :=
  rfl

theorem SamePeer.peerIsTrustedProxy_eq (same : SamePeer first second) :
    peerIsTrustedProxy settings first = peerIsTrustedProxy settings second := by
  simp [peerIsTrustedProxy, peerIp, proxyNetworks, dynamicProxyNetworks, same.client, same.snapshot]

theorem SamePeer.peerIsCloudflare_eq (same : SamePeer first second) :
    peerIsCloudflare settings first = peerIsCloudflare settings second := by
  simp [peerIsCloudflare, peerIp, same.client]

theorem SamePeer.proxyNetworks_eq (same : SamePeer first second) :
    proxyNetworks settings first = proxyNetworks settings second := by
  simp [proxyNetworks, dynamicProxyNetworks, same.snapshot]

theorem resolveIdentity_of_unauthorized (unauthorized : isAuthorized settings request = false) :
    resolveIdentity settings request =
      if settings.trustKubernetesProxyDiscovery then unresolved .unknown
      else socketIdentity settings request := by
  simp only [isAuthorized, Bool.or_eq_false_iff] at unauthorized
  simp [resolveIdentity, uncertifiedIdentity, unauthorized.1, unauthorized.2]

theorem resolveIdentity_of_proxy (proxy : peerIsTrustedProxy settings request = true)
    (uncertified : NoCloudflareAssertion settings request) :
    resolveIdentity settings request =
      (proxyIdentity settings request).getD (unresolved .unknown) := by
  rcases uncertified with notCloudflare | noValue
  · simp [resolveIdentity, uncertifiedIdentity, proxy, notCloudflare]
  · simp [resolveIdentity, uncertifiedIdentity, proxy, noValue]

theorem headerValues_of_fieldLines {name : String}
    (same : fieldLines name.toList first.headers = fieldLines name.toList second.headers) :
    headerValues first.headers name = headerValues second.headers name := by
  rw [headerValues, headerValues, same]

theorem hops_of_lines (lines : List (List Char)) :
    (lines.map Text.strip).flatMap hops = lines.flatMap hops := by
  simp [List.flatMap_map, hops_strip]

theorem Fronted.flatMap_hops {before after : List (List Char)} (fronted : Fronted before after) :
    before ≠ [] ∧ after ≠ [] ∧ ∃ extra, after.flatMap hops = extra ++ before.flatMap hops := by
  cases fronted with
  | wholeLines front line rest =>
    exact ⟨by simp, by simp, front.flatMap hops, by simp⟩
  | furtherHops front further line rest =>
    exact ⟨by simp, by simp, front.flatMap hops ++ hops further, by simp [hops_append_comma]⟩

theorem xForwardedFor_of_lines (some_ : fieldLines "x-forwarded-for".toList request.headers ≠ []) :
    ∃ raw, xForwardedFor request = some raw ∧
      hops raw = (fieldLines "x-forwarded-for".toList request.headers).flatMap hops := by
  have values : headerValues request.headers "x-forwarded-for" ≠ [] := by
    simpa [headerValues] using some_
  refine ⟨_, ?_, (hops_intercalate values).trans (hops_of_lines _)⟩
  unfold xForwardedFor
  split
  next none_ => exact absurd none_ values
  next => rfl

variable {networks : List Network}

theorem walk_of_boundary {raw : List Char} {near : List (List Char)}
    (boundary : ∃ hop ∈ near, isInNetworks hop networks = false)
    (chain : ∃ left, (hops raw).reverse.take maxForwardedHops = near ++ left) :
    walkHops networks 0 (parseForwardedChain raw).reverse = walkHops networks 0 near := by
  by_cases empty : raw = []
  · subst empty
    rcases boundary with ⟨hop, hopMem, outside⟩
    rcases chain with ⟨left, whole⟩
    have only : (hops []).reverse.take maxForwardedHops = [[]] := by decide
    obtain rfl : near = [[]] := by
      rw [only] at whole
      cases near with
      | nil => cases hopMem
      | cons head rest =>
        simp only [List.cons_append, List.cons.injEq] at whole
        have restNil := (List.append_eq_nil_iff.mp whole.2.symm).1
        rw [← whole.1, restNil]
    have unread : parseIp [] = none := by decide
    have nothing : (parseForwardedChain []).reverse = [] := rfl
    simp [nothing, walkHops, isInNetworks, isReportableIp, unread, maxForwardedHops]
  · rcases parseForwardedChain_reverse empty with ⟨further, walked⟩
    rcases chain with ⟨left, whole⟩
    rw [walked, whole, List.append_assoc]
    exact walkHops_append boundary _

theorem resolveIdentity_of_fronted (same : SamePeer first second)
    (proxy : peerIsTrustedProxy settings first = true)
    (uncertified : NoCloudflareAssertion settings first) (boundary : HasBoundary settings first)
    (connectingIp : fieldLines "cf-connecting-ip".toList first.headers =
      fieldLines "cf-connecting-ip".toList second.headers)
    (fronted : Fronted (fieldLines "x-forwarded-for".toList first.headers)
      (fieldLines "x-forwarded-for".toList second.headers)) :
    resolveIdentity settings second = resolveIdentity settings first := by
  have alsoUncertified : NoCloudflareAssertion settings second := by
    unfold NoCloudflareAssertion singletonHeader at uncertified ⊢
    rwa [← same.peerIsCloudflare_eq, ← headerValues_of_fieldLines connectingIp]
  have alsoProxy : peerIsTrustedProxy settings second = true := by
    rw [← same.peerIsTrustedProxy_eq]
    exact proxy
  rw [resolveIdentity_of_proxy proxy uncertified,
    resolveIdentity_of_proxy alsoProxy alsoUncertified]
  rcases fronted.flatMap_hops with ⟨firstLines, secondLines, extra, longer⟩
  rcases xForwardedFor_of_lines firstLines with ⟨raw, isRaw, rawHops⟩
  rcases xForwardedFor_of_lines secondLines with ⟨other, isOther, otherHops⟩
  rcases boundary with ⟨joined, isJoined, boundary⟩
  obtain rfl : raw = joined := Option.some.inj (isRaw.symm.trans isJoined)
  have firstWalk := walk_of_boundary boundary ⟨[], (List.append_nil _).symm⟩
  have secondWalk : walkHops (proxyNetworks settings first) 0 (parseForwardedChain other).reverse =
      walkHops (proxyNetworks settings first) 0 ((hops raw).reverse.take maxForwardedHops) := by
    refine walk_of_boundary boundary ⟨extra.reverse.take
      (maxForwardedHops - (hops raw).reverse.length), ?_⟩
    rw [otherHops, longer, ← rawHops, List.reverse_append, List.take_append]
  simp only [proxyIdentity, isRaw, isOther, Option.getD_some, ← same.proxyNetworks_eq]
  rw [firstWalk, secondWalk]

/-- Where an identity comes from. -/
inductive Told (settings : Settings) (request : Request) : Identity → Prop where
  | unresolved (source : Source) : Told settings request (unresolved source)
  | cloudflareIpv6 (value : List Char) (bits : BitVec 128) (scope : Option (List Char))
      (cloudflare : peerIsCloudflare settings request = true)
      (header : (singletonHeader request.headers "cf-connecting-ipv6").2 = some value)
      (parsed : Address.parse value = some (.v6 bits scope))
      (reportable : isReportableIp (Address.writeScoped bits scope) = true) :
      Told settings request (resolvedAs (Address.writeScoped bits scope) .cfConnectingIpv6)
  | cloudflare (value : List Char) (cloudflare : peerIsCloudflare settings request = true)
      (header : (singletonHeader request.headers "cf-connecting-ip").2 = some value)
      (reportable : isReportableIp value = true) :
      Told settings request (resolvedAs value .cfConnectingIp)
  | forwarded (hop : List Char) (proxy : peerIsTrustedProxy settings request = true)
      (outside : isInNetworks hop (proxyNetworks settings request) = false)
      (reportable : isReportableIp hop = true) :
      Told settings request (resolvedAs hop .xForwardedFor)
  | realIp (value : List Char) (proxy : peerIsTrustedProxy settings request = true)
      (enabled : settings.trustXRealIp = true) (absent : xForwardedFor request = none)
      (header : (singletonHeader request.headers "x-real-ip").2 = some value)
      (reportable : isReportableIp value = true) :
      Told settings request (resolvedAs value .xRealIp)
  | socket (unauthorized : isAuthorized settings request = false)
      (acceptable : isReportableIp (peerIp request) = true ∨
        isInNetworks (peerIp request) settings.trustedDirectClient = true) :
      Told settings request (resolvedAs (peerIp request) .socket)

theorem told_cloudflareIdentity {connectingIp : List Char}
    (cloudflare : peerIsCloudflare settings request = true)
    (header : (singletonHeader request.headers "cf-connecting-ip").2 = some connectingIp) :
    Told settings request (cloudflareIdentity request connectingIp) := by
  unfold cloudflareIdentity
  split
  next origin pseudo =>
    unfold pseudoIpv4Origin at pseudo
    split at pseudo
    · cases pseudo
    next value ipv6Header =>
      split at pseudo
      next synthetic bits scope _ parsed =>
        split_ifs at pseudo
        obtain rfl := Option.some.inj pseudo
        split_ifs with reportable
        · exact .cloudflareIpv6 value bits scope cloudflare ipv6Header parsed reportable
        · exact .unresolved _
      · cases pseudo
  next =>
    split_ifs with classE reportable
    · exact .unresolved _
    · exact .cloudflare connectingIp cloudflare header reportable
    · exact .unresolved _

theorem told_proxyIdentity (proxy : peerIsTrustedProxy settings request = true) :
    Told settings request ((proxyIdentity settings request).getD (unresolved .unknown)) := by
  unfold proxyIdentity
  split
  next raw isRaw =>
    rcases walkHops_cases (proxyNetworks settings request) 0 (parseForwardedChain raw).reverse with
      nothing | ⟨hop, found, reportable, outside⟩
    · rw [nothing]
      exact .unresolved _
    · rw [found]
      exact .forwarded hop proxy outside reportable
  next absent =>
    simp only
    split_ifs with asserted
    · rw [Bool.and_eq_true] at asserted
      split
      next value header =>
        split_ifs with reportable
        · exact .realIp value proxy asserted.1 absent header reportable
        · exact .unresolved _
      · exact .unresolved _
    · exact .unresolved _

theorem told_resolveIdentity : Told settings request (resolveIdentity settings request) := by
  by_cases unauthorized : isAuthorized settings request = false
  · rw [resolveIdentity_of_unauthorized unauthorized]
    unfold socketIdentity
    split_ifs with discovery reportable direct
    · exact .unresolved _
    · exact .socket unauthorized (Or.inl reportable)
    · exact .socket unauthorized (Or.inr direct)
    · exact .unresolved _
  · have authorized : peerIsTrustedProxy settings request = true ∨
        peerIsCloudflare settings request = true := by
      simpa only [isAuthorized, Bool.not_eq_false, Bool.or_eq_true] using unauthorized
    unfold resolveIdentity
    simp only
    split_ifs with undiscovered ambiguous
    · exact .unresolved _
    · exact .unresolved _
    · split
      next connectingIp cloudflare header => exact told_cloudflareIdentity cloudflare header
      next =>
        unfold uncertifiedIdentity
        split_ifs with proxy cloudflare
        · exact told_proxyIdentity proxy
        · exact .unresolved _
        · simp [proxy, cloudflare] at authorized

theorem parseIp_of_isInNetworks {value : List Char}
    (inside : isInNetworks value networks = true) : (parseIp value).isSome = true := by
  unfold isInNetworks at inside
  split at inside
  · cases inside
  next found => rw [found]; rfl

theorem peerIp_ne_unknown (authorized : isAuthorized settings request = true) :
    peerIp request ≠ "unknown".toList := by
  intro unknown
  have unread : parseIp "unknown".toList = none := by decide
  simp only [isAuthorized, Bool.or_eq_true] at authorized
  rcases authorized with proxy | cloudflare
  · simp only [peerIsTrustedProxy, Bool.and_eq_true] at proxy
    have read := parseIp_of_isInNetworks proxy.2
    rw [unknown, unread] at read
    cases read
  · simp only [peerIsCloudflare, Bool.and_eq_true] at cloudflare
    have read := parseIp_of_isInNetworks cloudflare.2
    rw [unknown, unread] at read
    cases read

/-- How far a client can be sure of not being forged through forwarding headers. -/
structure Unforgeable (settings : Settings) : Prop where
  /-- The headers of a peer without authority are ignored. -/
  ignored : ∀ first second, SamePeer first second → isAuthorized settings first = false →
    (identify settings first).identity = (identify settings second).identity
  /-- What stands in front of the chain of a trusted proxy is ignored, and so is
  `X-Real-IP`. -/
  fronted : ∀ first second, SamePeer first second → peerIsTrustedProxy settings first = true →
    NoCloudflareAssertion settings first → HasBoundary settings first →
    fieldLines "cf-connecting-ip".toList first.headers =
      fieldLines "cf-connecting-ip".toList second.headers →
    Fronted (fieldLines "x-forwarded-for".toList first.headers)
      (fieldLines "x-forwarded-for".toList second.headers) →
    (identify settings second).identity = (identify settings first).identity
  /-- Who was resolved is reportable, or a direct client. -/
  reportable : ∀ request, (identify settings request).resolved = true →
    isReportableIp (identify settings request).clientIp = true ∨
      (identify settings request).clientIp = peerIp request ∧
        isInNetworks (peerIp request) settings.trustedDirectClient = true
  /-- The address of a peer with authority is reported only when a header that it may assert
  names that address. -/
  named : ∀ request, isAuthorized settings request = true →
    (identify settings request).clientIp = peerIp request →
    (identify settings request).source = .xRealIp ∧
        (singletonHeader request.headers "x-real-ip").2 = some (peerIp request) ∨
      (identify settings request).source = .cfConnectingIp ∧
        (singletonHeader request.headers "cf-connecting-ip").2 = some (peerIp request) ∨
      (identify settings request).source = .cfConnectingIpv6 ∧ ∃ value bits scope,
        (singletonHeader request.headers "cf-connecting-ipv6").2 = some value ∧
          Address.parse value = some (.v6 bits scope) ∧
          Address.writeScoped bits scope = peerIp request
  /-- In discovery mode a peer outside the snapshot is never resolved. -/
  undiscovered : ∀ request, settings.trustKubernetesProxyDiscovery = true →
    isInNetworks (peerIp request) (dynamicProxyNetworks request) = false →
    (identify settings request).identity = unresolved .unknown

/-- Headers change who is identified only where the peer may assert them. -/
theorem forwarding_headers_cannot_forge_client (settings : Settings) : Unforgeable settings where
  ignored := by
    intro first second same unauthorized
    have alsoUnauthorized : isAuthorized settings second = false := by
      rw [isAuthorized, ← same.peerIsTrustedProxy_eq, ← same.peerIsCloudflare_eq]
      exact unauthorized
    rw [identify_identity, identify_identity, resolveIdentity_of_unauthorized unauthorized,
      resolveIdentity_of_unauthorized alsoUnauthorized]
    have peer : peerIp first = peerIp second := by rw [peerIp, peerIp, same.client]
    simp only [socketIdentity, peer]
  fronted := by
    intro first second same proxy uncertified boundary connectingIp fronted
    rw [identify_identity, identify_identity]
    exact resolveIdentity_of_fronted same proxy uncertified boundary connectingIp fronted
  reportable := by
    intro request resolved
    have told := @told_resolveIdentity settings request
    rw [← identify_identity] at told
    generalize identity_eq : (identify settings request).identity = identity at told
    have clientIp : (identify settings request).clientIp = identity.clientIp := by
      rw [← identity_eq]
      rfl
    have isResolved : identity.resolved = true := by
      rw [← identity_eq]
      exact resolved
    rw [clientIp]
    cases told with
    | unresolved source => cases isResolved
    | cloudflareIpv6 value bits scope cloudflare header parsed reportable => exact Or.inl reportable
    | cloudflare value cloudflare header reportable => exact Or.inl reportable
    | forwarded hop proxy outside reportable => exact Or.inl reportable
    | realIp value proxy enabled absent header reportable => exact Or.inl reportable
    | socket unauthorized acceptable =>
      rcases acceptable with reportable | direct
      · exact Or.inl reportable
      · exact Or.inr ⟨rfl, direct⟩
  named := by
    intro request authorized own
    have told := @told_resolveIdentity settings request
    rw [← identify_identity] at told
    generalize identity_eq : (identify settings request).identity = identity at told
    have clientIp : identity.clientIp = peerIp request := by
      rw [← identity_eq]
      exact own
    have source : (identify settings request).source = identity.source := by
      rw [← identity_eq]
      rfl
    rw [source]
    cases told with
    | unresolved source => exact absurd clientIp.symm (peerIp_ne_unknown authorized)
    | cloudflareIpv6 value bits scope cloudflare header parsed reportable =>
      exact Or.inr (Or.inr ⟨rfl, value, bits, scope, header, parsed, clientIp⟩)
    | cloudflare value cloudflare header reportable =>
      exact Or.inr (Or.inl ⟨rfl, header.trans (congrArg some clientIp)⟩)
    | forwarded hop proxy outside reportable =>
      have same : hop = peerIp request := clientIp
      simp only [peerIsTrustedProxy, Bool.and_eq_true] at proxy
      rw [same, proxy.2] at outside
      cases outside
    | realIp value proxy enabled absent header reportable =>
      exact Or.inl ⟨rfl, header.trans (congrArg some clientIp)⟩
    | socket unauthorized acceptable =>
      rw [unauthorized] at authorized
      cases authorized
  undiscovered := by
    intro request discovery outside
    have noProxy : peerIsTrustedProxy settings request = false := by
      simp [peerIsTrustedProxy, proxyNetworks, discovery, outside]
    rw [identify_identity]
    simp [resolveIdentity, discovery, noProxy]

/-- A proxy with a public address that is trusted, also for `X-Real-IP`. -/
def publicProxySettings : Settings where
  trustProxyHeaders := true
  trustCloudflareHeaders := false
  trustXRealIp := true
  trustKubernetesProxyDiscovery := false
  trustedProxies := [.v4 0x08080808#32 32]
  trustedDirectClient := []
  trustedCloudflare := []

def selfNamingRequest : Request where
  client := some "8.8.8.8".toList
  headers := [⟨"X-Real-IP".toList, "8.8.8.8".toList⟩]

/-- A trusted proxy that names its own address is reported as the client. -/
theorem proxy_address_is_reported :
    ¬∀ (settings : Settings) (request : Request), isAuthorized settings request = true →
      (identify settings request).clientIp ≠ peerIp request := by
  intro never
  exact never publicProxySettings selfNamingRequest (by decide +kernel) (by decide +kernel)

end Identity

end HybridInference.ClientIp
