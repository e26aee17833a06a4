import ProxboxApi.IpAddress

/-! The check of an endpoint's host against internal and blocked addresses. -/

namespace ProxboxApi.Ssrf

open IpAddress

/-- What `is_ip_blocked` reads of the settings. -/
structure Settings where
  ssrfProtectionEnabled : Bool := true
  allowPrivateIps : Bool := true
  allowedIpRanges : List Network := []
  blockedIpRanges : List Network := []

def privateIpRanges : List Network :=
  [.v4 (.of (quad 10 0 0 0) 8), .v4 (.of (quad 172 16 0 0) 12), .v4 (.of (quad 192 168 0 0) 16)]

def internalIpRanges : List Network :=
  privateIpRanges ++
  ([.v4 (.of (quad 127 0 0 0) 8), .v4 (.of (quad 169 254 0 0) 16), .v4 (.of (quad 0 0 0 0) 8),
    .v4 (.of (quad 100 64 0 0) 10), .v4 (.of (quad 192 0 0 0) 24), .v4 (.of (quad 192 0 2 0) 24),
    .v4 (.of (quad 198 51 100 0) 24), .v4 (.of (quad 203 0 113 0) 24),
    .v4 (.of (quad 224 0 0 0) 4), .v4 (.of (quad 240 0 0 0) 4),
    .v6 (.of 1 128), .v6 (.of (0xfc00 <<< 112) 7), .v6 (.of (0xfe80 <<< 112) 10)] : List Network)

/-- The hosts of the stored endpoints, and what the names of hosts mean: the Unicode tables of
regular expressions, and the resolver (`none` is an error). -/
structure World where
  py : Python
  isWord : Char → Bool
  sameLetter : Char → Char → Bool
  registeredIps : List String
  registeredDomains : List String
  getaddrinfo : String → Option (List String)

inductive Reason where
  | emptyHost
  | blockedRange (ip : String) (network : Network)
  | internalAddress (ip : String)
  | localhost
  | internalDomain (host : String)
  | unresolved (host : String)
  | resolvesTo (host ip : String) (reason : Reason)

/-- `[\w.-]+\.(local|lan|internal|private)`, ignoring case, over a whole host. -/
def looksInternal (w : World) (host : List Char) : Bool :=
  ["local", "lan", "internal", "private"].any fun word =>
    let ending := '.' :: word.toList
    let name := host.take (host.length - ending.length)
    let rest := host.drop (host.length - ending.length)
    !name.isEmpty && name.all (fun c => w.isWord c || c == '.' || c == '-') &&
      rest.length == ending.length && (rest.zip ending).all fun p => w.sameLetter p.1 p.2

/-- The ranges of `is_ip_blocked`, in its order. -/
def checkRanges (settings : Settings) (ip : String) (addr : Address) : Option Reason :=
  match settings.blockedIpRanges.find? (·.contains addr) with
  | some network => some (.blockedRange ip network)
  | none =>
    if settings.allowedIpRanges.any (·.contains addr) then none
    else if settings.allowPrivateIps && privateIpRanges.any (·.contains addr) then none
    else if internalIpRanges.any (·.contains addr) then some (.internalAddress ip)
    else none

namespace World

variable (w : World)

def isRegisteredEndpoint (host : String) : Bool :=
  w.registeredDomains.contains (w.py.lower (Text.strip host)) ||
    (ipAddress host).isSome && w.registeredIps.contains host

/-- `is_ip_blocked`; `none` is "OK". -/
def isIpBlocked (settings : Settings) (ip : String) : Option Reason :=
  match ipAddress ip with
  | none => none
  | some addr =>
    if w.isRegisteredEndpoint ip then none
    else if !settings.ssrfProtectionEnabled then none
    else checkRanges settings ip addr

/-- Every resolved address is checked again. -/
def checkResolved (settings : Settings) (host : String) : Option Reason :=
  match w.getaddrinfo host with
  | none | some [] => some (.unresolved host)
  | some resolved => resolved.findSome? fun ip =>
    (w.isIpBlocked settings ip).map (.resolvesTo host ip)

/-- The names of hosts that are not resolved. -/
def checkName (host : String) : Option Reason :=
  if ["localhost", "localhost.localdomain"].contains (w.py.lower host) then some .localhost
  else if looksInternal w host.toList then some (.internalDomain host)
  else none

/-- `validate_endpoint_host` of a stripped host. -/
def validateStripped (settings : Settings) (host : String) : Option Reason :=
  if w.isRegisteredEndpoint host then none
  else match w.isIpBlocked settings host with
    | some reason => some reason
    | none =>
      if (ipAddress host).isSome then none
      else (w.checkName host).or (w.checkResolved settings host)

/-- `validate_endpoint_host`; `none` is a safe host. -/
def validateEndpointHost (settings : Settings) (host : Option String) : Option Reason :=
  if host.getD "" = "" then some .emptyHost
  else w.validateStripped settings (Text.strip (host.getD ""))

/-- The texts of the addresses that a host denotes. -/
def denoted (host : String) : List String :=
  if (ipAddress host).isSome then [host] else (w.getaddrinfo host).getD []

end World

/-- The settings let an endpoint have this address. -/
def Permitted (settings : Settings) (a : Address) : Prop :=
  (∀ n ∈ settings.blockedIpRanges, n.contains a = false) ∧
    ((∀ n ∈ internalIpRanges, n.contains a = false) ∨
      (∃ n ∈ settings.allowedIpRanges, n.contains a = true) ∨
      settings.allowPrivateIps = true ∧ ∃ n ∈ privateIpRanges, n.contains a = true)

instance (settings : Settings) (a : Address) : Decidable (Permitted settings a) :=
  inferInstanceAs (Decidable (_ ∧ (_ ∨ _ ∨ _)))

/-- More ranges are blocked and fewer are allowed. -/
structure Stricter (settings settings' : Settings) : Prop where
  enabled : settings'.ssrfProtectionEnabled = settings.ssrfProtectionEnabled
  allowPrivate : settings'.allowPrivateIps = settings.allowPrivateIps
  allowed : settings'.allowedIpRanges ⊆ settings.allowedIpRanges
  blocked : settings.blockedIpRanges ⊆ settings'.blockedIpRanges

variable {w : World} {settings settings' : Settings} {host ip : String} {a : Address}

theorem checkRanges_eq_none_iff : checkRanges settings ip a = none ↔ Permitted settings a := by
  unfold checkRanges Permitted
  cases hfind : settings.blockedIpRanges.find? (·.contains a) with
  | some network =>
    have hin := List.find?_some hfind
    have hmem := List.mem_of_find?_eq_some hfind
    constructor
    · intro hnone
      cases hnone
    · rintro ⟨houtside, -⟩
      simp [houtside network hmem] at hin
  | none =>
    have houtside : ∀ n ∈ settings.blockedIpRanges, n.contains a = false := by
      intro n hn
      simpa using List.find?_eq_none.mp hfind n hn
    dsimp only
    rw [and_iff_right houtside, ← List.any_eq_true, ← List.any_eq_true, ← Bool.and_eq_true_iff]
    split_ifs with hallowed hprivate hinternal
    · simp [hallowed]
    · simp [hprivate]
    · obtain ⟨n, hn, hin⟩ := List.any_eq_true.mp hinternal
      constructor
      · intro hnone
        cases hnone
      · rintro (hout | hin' | hin')
        · simp [hout n hn] at hin
        · exact absurd hin' hallowed
        · exact absurd hin' hprivate
    · refine iff_of_true rfl (Or.inl ?_)
      intro n hn
      by_contra hin
      exact hinternal (List.any_eq_true.mpr ⟨n, hn, by simpa using hin⟩)

theorem isIpBlocked_eq_none_iff : w.isIpBlocked settings ip = none ↔
    ∀ a ∈ ipAddress ip, w.isRegisteredEndpoint ip = false →
      settings.ssrfProtectionEnabled = true → Permitted settings a := by
  unfold World.isIpBlocked
  cases ipAddress ip with
  | none => simp
  | some addr =>
    dsimp only
    split_ifs with hregistered hdisabled
    · simp [hregistered]
    · simp at hdisabled
      simp [hdisabled]
    · rw [checkRanges_eq_none_iff]
      simp at hregistered hdisabled
      simp [hregistered, hdisabled]

theorem checkResolved_eq_none_iff : w.checkResolved settings host = none ↔
    ∃ resolved, w.getaddrinfo host = some resolved ∧ resolved ≠ [] ∧
      ∀ ip ∈ resolved, w.isIpBlocked settings ip = none := by
  unfold World.checkResolved
  rcases w.getaddrinfo host with _ | _ | ⟨ip, resolved⟩
  · simp
  · simp
  · simp

/-- A stripped host that is safe: the names alone, or the settings, decide. -/
theorem validateStripped_eq_none_iff : w.validateStripped settings host = none ↔
    w.isRegisteredEndpoint host = true ∨
      w.isIpBlocked settings host = none ∧
        ((ipAddress host).isSome = true ∨
          w.checkName host = none ∧ w.checkResolved settings host = none) := by
  unfold World.validateStripped
  by_cases hregistered : w.isRegisteredEndpoint host = true
  · simp [hregistered]
  · rw [if_neg hregistered]
    cases hblocked : w.isIpBlocked settings host with
    | some reason => simp [hregistered]
    | none =>
      dsimp only
      by_cases hliteral : (ipAddress host).isSome = true
      · simp [hliteral]
      · rw [if_neg hliteral, Option.or_eq_none_iff]
        simp [hregistered, hliteral]

/-- A safe host that is not registered denotes no blocked address. -/
theorem denoted_not_blocked (hsafe : w.validateStripped settings host = none)
    (hnew : w.isRegisteredEndpoint host = false) :
    ∀ text ∈ w.denoted host, w.isIpBlocked settings text = none := by
  intro text htext
  unfold World.denoted at htext
  rcases validateStripped_eq_none_iff.mp hsafe with hregistered | ⟨hblocked, hrest⟩
  · simp [hnew] at hregistered
  · split_ifs at htext with hliteral
    · rw [List.mem_singleton.mp htext]
      exact hblocked
    · rcases hrest with hsome | ⟨-, hresolved⟩
      · exact absurd hsome hliteral
      · obtain ⟨resolved, hinfos, -, hall⟩ := checkResolved_eq_none_iff.mp hresolved
        rw [hinfos] at htext
        exact hall text htext

theorem permitted_of_stricter (hstricter : Stricter settings settings')
    (h : Permitted settings' a) : Permitted settings a := by
  obtain ⟨houtside, hinside⟩ := h
  refine ⟨fun n hn => houtside n (hstricter.blocked hn), ?_⟩
  rcases hinside with hinternal | ⟨n, hn, hin⟩ | ⟨hprivate, hin⟩
  · exact Or.inl hinternal
  · exact Or.inr (Or.inl ⟨n, hstricter.allowed hn, hin⟩)
  · exact Or.inr (Or.inr ⟨hstricter.allowPrivate ▸ hprivate, hin⟩)

theorem not_blocked_of_stricter (hstricter : Stricter settings settings')
    (h : w.isIpBlocked settings' ip = none) : w.isIpBlocked settings ip = none := by
  rw [isIpBlocked_eq_none_iff] at h ⊢
  intro a ha hnew henabled
  exact permitted_of_stricter hstricter (h a ha hnew (hstricter.enabled.trans henabled))

theorem safe_of_stricter (hstricter : Stricter settings settings')
    (h : w.validateStripped settings' host = none) :
    w.validateStripped settings host = none := by
  rw [validateStripped_eq_none_iff] at h ⊢
  rcases h with hregistered | ⟨hblocked, hliteral | ⟨hname, hresolved⟩⟩
  · exact Or.inl hregistered
  · exact Or.inr ⟨not_blocked_of_stricter hstricter hblocked, Or.inl hliteral⟩
  · obtain ⟨resolved, hinfos, hne, hall⟩ := checkResolved_eq_none_iff.mp hresolved
    have hresolved := checkResolved_eq_none_iff.mpr
      ⟨resolved, hinfos, hne, fun ip hip => not_blocked_of_stricter hstricter (hall ip hip)⟩
    exact Or.inr ⟨not_blocked_of_stricter hstricter hblocked, Or.inr ⟨hname, hresolved⟩⟩

theorem unsafe_of_stricter (hstricter : Stricter settings settings') {host : Option String}
    (hrefuses : w.validateEndpointHost settings host ≠ none) :
    w.validateEndpointHost settings' host ≠ none := by
  unfold World.validateEndpointHost at hrefuses ⊢
  split_ifs at hrefuses ⊢
  · exact hrefuses
  · intro hsafe
    exact hrefuses (safe_of_stricter hstricter hsafe)

/-- Every address that a safe host denotes is one that the settings permit, where neither the host
nor the address is registered; an IPv4-mapped address is not looked at here. Stricter settings
find no more hosts safe. -/
theorem verdicts_sound (w : World) (settings : Settings)
    (henabled : settings.ssrfProtectionEnabled = true) :
    (∀ host, w.validateEndpointHost settings (some host) = none →
      w.isRegisteredEndpoint (Text.strip host) = false →
      ∀ text ∈ w.denoted (Text.strip host), w.isRegisteredEndpoint text = false →
        ∀ a, ipAddress text = some a → mapped a = none → Permitted settings (embedded a)) ∧
    ∀ settings', Stricter settings settings' → ∀ host,
      w.validateEndpointHost settings host ≠ none →
        w.validateEndpointHost settings' host ≠ none := by
  constructor
  · intro host hsafe hnew text htext hunregistered a ha hmapped
    unfold World.validateEndpointHost at hsafe
    split_ifs at hsafe
    have hblocked := denoted_not_blocked hsafe hnew text htext
    rw [embedded_of_not_mapped hmapped]
    exact isIpBlocked_eq_none_iff.mp hblocked a ha hunregistered henabled
  · intro settings' hstricter host hrefuses
    exact unsafe_of_stricter hstricter hrefuses

/-- A resolver that knows one name, and one registered address. -/
def office : World where
  py := .ascii
  isWord c := c.isAlphanum || c == '_'
  sameLetter c d := c.toLower == d.toLower
  registeredIps := ["10.0.0.5"]
  registeredDomains := []
  getaddrinfo host := if host = "pve.example.org" then some ["10.0.0.5", "8.8.8.8"] else none

theorem verdicts_sound_office :
    Permitted {} (embedded (.v4 (quad 8 8 8 8))) ∧
      office.validateEndpointHost { blockedIpRanges := [.v4 (.of (quad 8 0 0 0) 8)] }
        (some "169.254.169.254") ≠ none := by
  have hsound := verdicts_sound office {} rfl
  have hsafe : office.validateEndpointHost {} (some "pve.example.org") = none :=
    Option.isNone_iff_eq_none.mp (by decide +kernel)
  have hrefuses : office.validateEndpointHost {} (some "169.254.169.254") ≠ none :=
    Option.isSome_iff_ne_none.mp (by decide +kernel)
  constructor
  · exact hsound.1 "pve.example.org" hsafe (by decide +kernel) "8.8.8.8" (by decide +kernel)
      (by decide +kernel) (.v4 (quad 8 8 8 8)) (by decide +kernel) rfl
  · exact hsound.2 _ ⟨rfl, rfl, fun _ h => h, by simp⟩ _ hrefuses

/-- A host that is let through and is not registered denotes permitted addresses only, a mapped
one as the IPv4 address in it. -/
def Sound (w : World) (settings : Settings) (host : String) : Prop :=
  w.validateEndpointHost settings (some host) = none →
    w.isRegisteredEndpoint (Text.strip host) = false →
    ∀ text ∈ w.denoted (Text.strip host), ∀ a, ipAddress text = some a →
      Permitted settings (embedded a)

/-- A registered address is let through behind every name, and a mapped loopback address
whatever the settings. -/
theorem not_sound_office :
    ¬ Sound office { allowPrivateIps := false } "pve.example.org" ∧
      ¬ Sound office {} "::ffff:127.0.0.1" := by
  have hname : office.validateEndpointHost { allowPrivateIps := false } (some "pve.example.org") =
      none := Option.isNone_iff_eq_none.mp (by decide +kernel)
  have hmapped : office.validateEndpointHost {} (some "::ffff:127.0.0.1") = none :=
    Option.isNone_iff_eq_none.mp (by decide +kernel)
  constructor
  · intro hsound
    have hpermitted := hsound hname (by decide +kernel) "10.0.0.5" (by decide +kernel)
      (.v4 (quad 10 0 0 5)) (by decide +kernel)
    revert hpermitted
    decide +kernel
  · intro hsound
    have hpermitted := hsound hmapped (by decide +kernel) "::ffff:127.0.0.1" (by decide +kernel)
      (.v6 0xffff7f000001#128) (by decide +kernel)
    revert hpermitted
    decide +kernel

end ProxboxApi.Ssrf
