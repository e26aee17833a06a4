import ProxboxApi.IpAddress
import ProxboxApi.Runs

/-! The cache of the hosts of the registered endpoints. -/

namespace ProxboxApi.EndpointCache

/-- What the cache reads of a stored endpoint; no domain is an empty one. -/
structure Endpoint where
  ipAddress : String
  domain : String
  deriving DecidableEq, Repr

/-- The endpoints of the database, by table. -/
structure Stored where
  proxmox : List Endpoint
  netBox : List Endpoint
  deriving DecidableEq, Repr

def Stored.all (stored : Stored) : List Endpoint := stored.proxmox ++ stored.netBox

/-- How the reading of the two tables goes; an exception is passed over. -/
inductive Outcome where
  | complete
  | proxmoxFails
  | netBoxFails
  deriving DecidableEq, Repr

/-- The rows that are read before an exception. -/
def Outcome.rows (stored : Stored) : Outcome → List Endpoint
  | .complete => stored.all
  | .proxmoxFails => []
  | .netBoxFails => stored.proxmox

/-- The caches, the database, and the hosts that were pre-allowed since the last clear. -/
structure State where
  ips : List String
  domains : List String
  stored : Stored
  allowed : List String

variable (py : Python)

/-- `ip_address.split("/")[0]`. -/
def Endpoint.address (e : Endpoint) : String :=
  String.ofList (e.ipAddress.toList.takeWhile (· ≠ '/'))

def addressesOf (rows : List Endpoint) : List String :=
  (rows.filter (·.ipAddress ≠ "")).map (·.address)

def domainsOf (rows : List Endpoint) : List String :=
  (rows.filter (·.domain ≠ "")).map fun e => py.lower (Text.strip e.domain)

def isIp (host : String) : Bool := (IpAddress.ipAddress host).isSome

/-- Nothing is cached, which is also how a cache that was not loaded is told. -/
def State.isEmpty (s : State) : Bool := s.ips.isEmpty && s.domains.isEmpty

/-- `get_registered_endpoints`. -/
def getRegisteredEndpoints (outcome : Outcome) (s : State) : State :=
  if s.isEmpty then
    { s with
      ips := addressesOf (outcome.rows s.stored)
      domains := domainsOf py (outcome.rows s.stored) }
  else s

/-- `clear_endpoint_cache`. -/
def clearEndpointCache (s : State) : State := { s with ips := [], domains := [], allowed := [] }

/-- The hosts of a call that are left after stripping. -/
def effective (hosts : List String) : List String := (hosts.map Text.strip).filter (· ≠ "")

def allowedIps (hosts : List String) : List String := (effective hosts).filter isIp

def allowedDomains (hosts : List String) : List String :=
  ((effective hosts).filter (!isIp ·)).map py.lower

/-- `pre_allow_endpoint_hosts`. -/
def preAllowEndpointHosts (hosts : List String) (s : State) : State :=
  { s with
    ips := s.ips ++ allowedIps hosts
    domains := s.domains ++ allowedDomains py hosts
    allowed := s.allowed ++ hosts }

/-- The look-up of `is_registered_endpoint`. -/
def found (ips domains : List String) (host : String) : Bool :=
  domains.contains (py.lower (Text.strip host)) || (isIp host && ips.contains host)

/-- `is_registered_endpoint`, with the reading of the database that it may cause. -/
def isRegisteredEndpoint (outcome : Outcome) (s : State) (host : String) : Bool :=
  let s := getRegisteredEndpoints py outcome s
  found py s.ips s.domains host

inductive Op where
  | getRegisteredEndpoints (outcome : Outcome)
  | preAllowEndpointHosts (hosts : List String)
  | clearEndpointCache
  /-- Rows are committed or deleted, and the cache is cleared. -/
  | commit (stored : Stored)

def step (s : State) : Op → Option State
  | .getRegisteredEndpoints outcome => some (getRegisteredEndpoints py outcome s)
  | .preAllowEndpointHosts hosts => some (preAllowEndpointHosts py hosts s)
  | .clearEndpointCache => some (clearEndpointCache s)
  | .commit stored => some (clearEndpointCache { s with stored := stored })

def start (stored : Stored) : State := ⟨[], [], stored, []⟩

/-- The host is the address or the domain of a stored endpoint. -/
def Registered (stored : Stored) (host : String) : Prop :=
  ∃ e ∈ stored.all, (e.ipAddress ≠ "" ∧ host = e.address) ∨
    (e.domain ≠ "" ∧ py.lower (Text.strip host) = py.lower (Text.strip e.domain))

/-- The host is one of the pre-allowed ones: the same address, or the same name. -/
def PreAllowed (allowed : List String) (host : String) : Prop :=
  ∃ h ∈ allowed, Text.strip h ≠ "" ∧ if isIp (Text.strip h) then host = Text.strip h
    else py.lower (Text.strip host) = py.lower (Text.strip h)

/-- The cache tells the truth of every host, as far as the database can be read. -/
def Truthful (s : State) : Prop :=
  ∀ host, isRegisteredEndpoint py .complete s host = true ↔
    Registered py s.stored host ∨ PreAllowed py s.allowed host

/-- Every host of a stored endpoint is found. -/
def Covers (ips domains : List String) (stored : Stored) : Prop :=
  ∀ host, Registered py stored host → found py ips domains host = true

/-- What is loaded from the database covers it. -/
def SelfCovering (stored : Stored) : Prop :=
  Covers py (addressesOf stored.all) (domainsOf py stored.all) stored

/-- A step fills an empty cache only with hosts that cover the database, and a step that empties it
leaves a database that covers itself. -/
def Ok (s : State) : Op → Prop
  | .getRegisteredEndpoints outcome => s.isEmpty = true →
      (addressesOf (outcome.rows s.stored) = [] ∧ domainsOf py (outcome.rows s.stored) = []) ∨
        Covers py (addressesOf (outcome.rows s.stored)) (domainsOf py (outcome.rows s.stored))
          s.stored
  | .preAllowEndpointHosts hosts => s.isEmpty = true → effective hosts ≠ [] →
      Covers py (allowedIps hosts) (allowedDomains py hosts) s.stored
  | .clearEndpointCache => SelfCovering py s.stored
  | .commit stored => SelfCovering py stored

/-- The caches hold the hosts of some stored rows and those that were pre-allowed. -/
def Inv (s : State) : Prop :=
  ∃ rows, (∀ e ∈ rows, e ∈ s.stored.all) ∧
    (∀ t, t ∈ s.ips ↔ t ∈ addressesOf rows ∨ t ∈ allowedIps s.allowed) ∧
    ∀ t, t ∈ s.domains ↔ t ∈ domainsOf py rows ∨ t ∈ allowedDomains py s.allowed

variable {py} {s t : State} {host : String} {rows : List Endpoint}

theorem mem_addressesOf {text : String} :
    text ∈ addressesOf rows ↔ ∃ e ∈ rows, e.ipAddress ≠ "" ∧ e.address = text := by
  simp [addressesOf, and_assoc]

theorem mem_domainsOf {text : String} :
    text ∈ domainsOf py rows ↔
      ∃ e ∈ rows, e.domain ≠ "" ∧ py.lower (Text.strip e.domain) = text := by
  simp [domainsOf, and_assoc]

theorem mem_effective {hosts : List String} {text : String} :
    text ∈ effective hosts ↔ ∃ h ∈ hosts, Text.strip h = text ∧ text ≠ "" := by
  simp only [effective, List.mem_filter, List.mem_map, decide_eq_true_eq]
  constructor
  · rintro ⟨⟨h, hmem, rfl⟩, hne⟩
    exact ⟨h, hmem, rfl, hne⟩
  · rintro ⟨h, hmem, rfl, hne⟩
    exact ⟨⟨h, hmem, rfl⟩, hne⟩

theorem effective_append (hosts hosts' : List String) :
    effective (hosts ++ hosts') = effective hosts ++ effective hosts' := by
  simp [effective]

theorem found_iff {ips domains : List String} : found py ips domains host = true ↔
    py.lower (Text.strip host) ∈ domains ∨ (isIp host = true ∧ host ∈ ips) := by
  simp [found]

/-- The pre-allowed hosts are those that their own cache entries find. -/
theorem preAllowed_iff {allowed : List String} : PreAllowed py allowed host ↔
    found py (allowedIps allowed) (allowedDomains py allowed) host = true := by
  rw [found_iff]
  simp only [allowedIps, allowedDomains, List.mem_map, List.mem_filter, mem_effective,
    Bool.not_eq_true']
  constructor
  · rintro ⟨h, hmem, hne, hsame⟩
    by_cases hip : isIp (Text.strip h) = true
    · rw [if_pos hip] at hsame
      subst hsame
      exact Or.inr ⟨hip, ⟨h, hmem, rfl, hne⟩, hip⟩
    · rw [if_neg hip] at hsame
      rw [Bool.not_eq_true] at hip
      exact Or.inl ⟨Text.strip h, ⟨⟨h, hmem, rfl, hne⟩, hip⟩, hsame.symm⟩
  · rintro (⟨text, ⟨⟨h, hmem, rfl, hne⟩, hip⟩, hsame⟩ | ⟨hip, ⟨h, hmem, heq, hne⟩, -⟩)
    · refine ⟨h, hmem, hne, ?_⟩
      rw [hip, if_neg Bool.false_ne_true]
      exact hsame.symm
    · subst heq
      refine ⟨h, hmem, hne, ?_⟩
      rw [if_pos hip]

/-- What the entries of stored rows find is registered. -/
theorem registered_of_found {stored : Stored} (hrows : ∀ e ∈ rows, e ∈ stored.all)
    (h : found py (addressesOf rows) (domainsOf py rows) host = true) :
    Registered py stored host := by
  rcases found_iff.mp h with hdomain | ⟨-, haddress⟩
  · obtain ⟨e, he, hne, heq⟩ := mem_domainsOf.mp hdomain
    exact ⟨e, hrows e he, Or.inr ⟨hne, heq.symm⟩⟩
  · obtain ⟨e, he, hne, heq⟩ := mem_addressesOf.mp haddress
    exact ⟨e, hrows e he, Or.inl ⟨hne, heq.symm⟩⟩

/-- A look-up in the union of two caches. -/
theorem found_union {ips domains ips' domains' ips'' domains'' : List String}
    (hips : ∀ t, t ∈ ips ↔ t ∈ ips' ∨ t ∈ ips'')
    (hdomains : ∀ t, t ∈ domains ↔ t ∈ domains' ∨ t ∈ domains'') :
    found py ips domains host = true ↔
      found py ips' domains' host = true ∨ found py ips'' domains'' host = true := by
  rw [found_iff, found_iff, found_iff, hips, hdomains]
  tauto

theorem outcome_rows_subset {stored : Stored} (outcome : Outcome) :
    ∀ e ∈ outcome.rows stored, e ∈ stored.all := by
  intro e he
  cases outcome with
  | complete => exact he
  | proxmoxFails => simp [Outcome.rows] at he
  | netBoxFails => exact List.mem_append_left _ he

/-- An empty cache has nothing pre-allowed. -/
theorem Inv.allowed_of_isEmpty (hs : Inv py s) (hempty : s.isEmpty = true) :
    allowedIps s.allowed = [] ∧ allowedDomains py s.allowed = [] := by
  obtain ⟨rows, -, hips, hdomains⟩ := hs
  simp only [State.isEmpty, Bool.and_eq_true, List.isEmpty_iff] at hempty
  obtain ⟨hnoIps, hnoDomains⟩ := hempty
  rw [hnoIps] at hips
  rw [hnoDomains] at hdomains
  constructor
  · exact List.eq_nil_iff_forall_not_mem.mpr fun t ht => List.not_mem_nil ((hips t).mpr (Or.inr ht))
  · exact List.eq_nil_iff_forall_not_mem.mpr
      fun t ht => List.not_mem_nil ((hdomains t).mpr (Or.inr ht))

theorem Inv.get (hs : Inv py s) (outcome : Outcome) :
    Inv py (getRegisteredEndpoints py outcome s) := by
  unfold getRegisteredEndpoints
  split_ifs with hempty
  · obtain ⟨hnoIps, hnoDomains⟩ := hs.allowed_of_isEmpty hempty
    refine ⟨outcome.rows s.stored, outcome_rows_subset outcome, ?_, ?_⟩
    · intro t
      simp [hnoIps]
    · intro t
      simp [hnoDomains]
  · exact hs

theorem Inv.step (hs : Inv py s) {op : Op} (h : step py s op = some t) : Inv py t := by
  have hclear : ∀ stored, Inv py (clearEndpointCache { s with stored := stored }) := by
    intro stored
    refine ⟨[], by simp, ?_, ?_⟩
    · intro t
      simp [clearEndpointCache, addressesOf, allowedIps, effective]
    · intro t
      simp [clearEndpointCache, domainsOf, allowedDomains, effective]
  cases op with
  | getRegisteredEndpoints outcome =>
    obtain rfl := Option.some.inj h
    exact hs.get outcome
  | preAllowEndpointHosts hosts =>
    obtain rfl := Option.some.inj h
    obtain ⟨rows, hrows, hips, hdomains⟩ := hs
    refine ⟨rows, hrows, ?_, ?_⟩
    · intro t
      simp only [preAllowEndpointHosts, allowedIps, effective_append, List.filter_append,
        List.mem_append] at hips ⊢
      rw [hips, or_assoc]
    · intro t
      simp only [preAllowEndpointHosts, allowedDomains, effective_append, List.filter_append,
        List.map_append, List.mem_append] at hdomains ⊢
      rw [hdomains, or_assoc]
  | clearEndpointCache =>
    obtain rfl := Option.some.inj h
    exact hclear s.stored
  | commit stored =>
    obtain rfl := Option.some.inj h
    exact hclear stored

/-- A truthful cache is one that covers the database, once it is loaded. -/
theorem truthful_iff (hs : Inv py s) : Truthful py s ↔
    Covers py (getRegisteredEndpoints py .complete s).ips
      (getRegisteredEndpoints py .complete s).domains s.stored := by
  have hkept : (getRegisteredEndpoints py .complete s).stored = s.stored ∧
      (getRegisteredEndpoints py .complete s).allowed = s.allowed := by
    unfold getRegisteredEndpoints
    split_ifs <;> exact ⟨rfl, rfl⟩
  obtain ⟨rows, hrows, hips, hdomains⟩ := hs.get .complete
  rw [hkept.1] at hrows
  rw [hkept.2] at hips hdomains
  have hunion : ∀ host, found py (getRegisteredEndpoints py .complete s).ips
      (getRegisteredEndpoints py .complete s).domains host = true ↔
      found py (addressesOf rows) (domainsOf py rows) host = true ∨
        found py (allowedIps s.allowed) (allowedDomains py s.allowed) host = true :=
    fun host => found_union hips hdomains
  constructor
  · intro h host hregistered
    exact (h host).mpr (Or.inl hregistered)
  · intro h host
    unfold isRegisteredEndpoint
    dsimp only
    constructor
    · intro hfound
      rcases (hunion host).mp hfound with hrow | hallowed
      · exact Or.inl (registered_of_found hrows hrow)
      · exact Or.inr (preAllowed_iff.mpr hallowed)
    · rintro (hregistered | hallowed)
      · exact h host hregistered
      · exact (hunion host).mpr (Or.inr (preAllowed_iff.mp hallowed))

theorem get_of_isEmpty (h : s.isEmpty = true) (outcome : Outcome) :
    getRegisteredEndpoints py outcome s = { s with
      ips := addressesOf (outcome.rows s.stored)
      domains := domainsOf py (outcome.rows s.stored) } := by
  unfold getRegisteredEndpoints
  rw [if_pos h]

theorem get_of_not_isEmpty (h : ¬ s.isEmpty = true) (outcome : Outcome) :
    getRegisteredEndpoints py outcome s = s := by
  unfold getRegisteredEndpoints
  rw [if_neg h]

theorem isEmpty_iff : s.isEmpty = true ↔ s.ips = [] ∧ s.domains = [] := by
  simp [State.isEmpty]

theorem effective_eq_nil_iff {hosts : List String} : effective hosts = [] ↔
    allowedIps hosts = [] ∧ allowedDomains py hosts = [] := by
  unfold allowedIps allowedDomains
  rw [List.map_eq_nil_iff, List.filter_eq_nil_iff, List.filter_eq_nil_iff]
  constructor
  · intro h
    simp [h]
  · rintro ⟨hip, hname⟩
    refine List.eq_nil_iff_forall_not_mem.mpr fun text htext => ?_
    exact hname text htext (by simpa using hip text htext)

theorem found_mono {ips domains ips' domains' : List String} (hips : ips ⊆ ips')
    (hdomains : domains ⊆ domains') (h : found py ips domains host = true) :
    found py ips' domains' host = true := by
  rw [found_iff] at h ⊢
  exact h.imp (fun hmem => hdomains hmem) fun hmem => ⟨hmem.1, hips hmem.2⟩

/-- A step from a truthful cache leads to a truthful one exactly if it is allowed. -/
theorem truthful_step_iff (hs : Inv py s) (htrue : Truthful py s) {op : Op}
    (h : step py s op = some t) : Truthful py t ↔ Ok py s op := by
  rw [truthful_iff (hs.step h)]
  rw [truthful_iff hs] at htrue
  cases op with
  | getRegisteredEndpoints outcome =>
    obtain rfl := Option.some.inj h
    unfold Ok
    by_cases hempty : s.isEmpty = true
    · rw [get_of_isEmpty hempty] at htrue
      rw [get_of_isEmpty hempty]
      by_cases hrows : addressesOf (outcome.rows s.stored) = [] ∧
          domainsOf py (outcome.rows s.stored) = []
      · rw [get_of_isEmpty (isEmpty_iff.mpr hrows)]
        simp only [hrows, and_self, true_or, implies_true, iff_true]
        exact htrue
      · rw [get_of_not_isEmpty fun h => hrows (isEmpty_iff.mp h)]
        simp only [hempty, hrows, false_or, true_implies]
    · rw [get_of_not_isEmpty hempty] at htrue
      rw [get_of_not_isEmpty hempty, get_of_not_isEmpty hempty]
      simp only [hempty, Bool.false_eq_true, false_implies, iff_true]
      exact htrue
  | preAllowEndpointHosts hosts =>
    obtain rfl := Option.some.inj h
    unfold Ok
    by_cases hempty : s.isEmpty = true
    · obtain ⟨hips, hdomains⟩ := isEmpty_iff.mp hempty
      rw [get_of_isEmpty hempty] at htrue
      by_cases hhosts : effective hosts = []
      · obtain ⟨hnoIps, hnoDomains⟩ :
            allowedIps hosts = [] ∧ allowedDomains py hosts = [] := effective_eq_nil_iff.mp hhosts
        have hstill : (preAllowEndpointHosts py hosts s).isEmpty = true := by
          rw [isEmpty_iff]
          simp [preAllowEndpointHosts, hips, hdomains, hnoIps, hnoDomains]
        rw [get_of_isEmpty hstill]
        simp only [hhosts, ne_eq, not_true_eq_false, false_implies, implies_true, iff_true]
        exact htrue
      · have hfilled : ¬ (preAllowEndpointHosts py hosts s).isEmpty = true := by
          rw [isEmpty_iff]
          simp only [preAllowEndpointHosts, hips, hdomains, List.nil_append]
          exact fun h => hhosts (effective_eq_nil_iff.mpr h)
        rw [get_of_not_isEmpty hfilled]
        simp only [preAllowEndpointHosts, hips, hdomains, List.nil_append, hempty, hhosts, ne_eq,
          not_false_eq_true, true_implies]
    · rw [get_of_not_isEmpty hempty] at htrue
      have hfilled : ¬ (preAllowEndpointHosts py hosts s).isEmpty = true := by
        rw [isEmpty_iff] at hempty ⊢
        simp only [preAllowEndpointHosts, List.append_eq_nil_iff]
        exact fun h => hempty ⟨h.1.1, h.2.1⟩
      rw [get_of_not_isEmpty hfilled]
      simp only [hempty, Bool.false_eq_true, false_implies, iff_true]
      intro host hregistered
      exact found_mono (List.subset_append_left _ _) (List.subset_append_left _ _)
        (htrue host hregistered)
  | clearEndpointCache =>
    obtain rfl := Option.some.inj h
    rfl
  | commit stored =>
    obtain rfl := Option.some.inj h
    rfl

/-- The cache tells the truth in every state of a run exactly if the database covers itself at the
start and every step is allowed. -/
theorem cache_truthful_iff (py : Python) (stored : Stored) (ops : List Op) :
    Runs.Throughout (step py) (Truthful py) (start stored) ops ↔
      SelfCovering py stored ∧ Runs.Guarded (step py) (Ok py) (start stored) ops := by
  have hstart : Inv py (start stored) := by
    refine ⟨[], by simp, ?_, ?_⟩
    · intro t
      simp [start, addressesOf, allowedIps, effective]
    · intro t
      simp [start, domainsOf, allowedDomains, effective]
  have hrun : Runs.Throughout (step py) (Truthful py) (start stored) ops ↔
      Truthful py (start stored) ∧ Runs.Guarded (step py) (Ok py) (start stored) ops :=
    Runs.throughout_iff_guarded (Inv py) (Truthful py) (fun _ _ _ hs h => hs.step h)
      (fun _ _ _ hs htrue h => truthful_step_iff hs htrue h) hstart
  rw [hrun, truthful_iff hstart]
  rfl

/-- A host is pre-allowed before the cache was loaded, and the stored endpoint is not found. -/
theorem stored_endpoint_hidden : ¬ Runs.Throughout (step .ascii) (Truthful .ascii)
    (start ⟨[⟨"10.0.0.1", ""⟩], []⟩) [.preAllowEndpointHosts ["10.0.0.2"]] := by
  intro h
  have htrue := h [.preAllowEndpointHosts ["10.0.0.2"]] (List.prefix_refl _) _ rfl "10.0.0.1"
  have hregistered : Registered .ascii ⟨[⟨"10.0.0.1", ""⟩], []⟩ "10.0.0.1" :=
    ⟨⟨"10.0.0.1", ""⟩, by decide, Or.inl ⟨by decide, by decide⟩⟩
  have hfound := htrue.mpr (Or.inl hregistered)
  exact absurd hfound (by decide +kernel)

end ProxboxApi.EndpointCache
