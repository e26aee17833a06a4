import ProxboxApi.InterfaceIps
import ProxboxApi.IpText

/-! `_resolve_vm_interface_ips`: the addresses that a guest reports for an interface are reconciled
one by one, and then the tagged records of the interface at other addresses are deleted. -/

namespace ProxboxApi.StaleIps

open InterfaceIps (IpRecord isSkippableIp cleanAddress vmInterface)
open IpAddress (Address Interface Rendering ipAddress ipInterface)
open VmQueue (field)

variable (py : Python) (m : Rendering)

/-- `ip_address`, with what `_is_skippable_ip` uses of it. -/
def hostOf (s : String) : Option InterfaceIps.Host :=
  (ipAddress s).map fun a => ⟨m.loopback a, m.linkLocal a, m.text a⟩

/-- `guest_agent_ip_with_prefix`. -/
def guestAgentIpWithPrefix (addr : Json.Fields) (ignoreIpv6LinkLocal : Bool) : Option String :=
  let ipText := if Python.truthy (field "ip_address" addr) then py.str (field "ip_address" addr)
    else ""
  (isSkippableIp (hostOf m) (Text.strip ipText) ignoreIpv6LinkLocal).map fun cleaned =>
    match field "prefix" addr with
    -- a `bool` is an `int`, and both lie between 0 and 128
    | .bool b => cleaned ++ "/" ++ py.str (.bool b)
    | .int n => if 0 ≤ n ∧ n ≤ 128 then cleaned ++ "/" ++ toString n else cleaned
    | _ => cleaned

/-- The entries of `ip_addresses` that are dictionaries. -/
def guestAddresses (guestIface : Json.Fields) : List Json.Fields :=
  match field "ip_addresses" guestIface with
  | .arr items => items.filterMap fun
    | .obj addr => some addr
    | _ => none
  | _ => []

/-- The key of the sort by preference. -/
def rank (preferIpv4 : Bool) (address : String) : ℕ :=
  let host := String.ofList ((Text.strip address).toList.takeWhile (· ≠ '/'))
  match ((ipInterface address).map Interface.address).or (ipAddress host) with
  | none => 2
  | some (.v4 _) => if preferIpv4 then 0 else 1
  | some (.v6 _) => if preferIpv4 then 1 else 0

/-- `preferred_primary_ip_order`: the sort keeps the order within a rank. -/
def preferredPrimaryIpOrder (preferIpv4 : Bool) (addresses : List String) : List String :=
  [0, 1, 2].flatMap fun k => addresses.filter fun address => rank preferIpv4 address = k

/-- `all_guest_agent_ips`. -/
def allGuestAgentIps (guestIface : Json.Fields) (ignoreIpv6LinkLocal preferIpv4 : Bool) :
    List String :=
  preferredPrimaryIpOrder preferIpv4 ((guestAddresses guestIface).filterMap fun addr =>
    guestAgentIpWithPrefix py m addr ignoreIpv6LinkLocal)

/-- The arguments that decide which addresses are reconciled and which records are deleted. -/
structure Call where
  interfaceId : Option ℕ
  createIp : Bool
  guestIface : Option Json.Fields
  configIp : Json
  ignoreIpv6LinkLocal : Bool
  preferIpv4 : Bool
  tagSlug : String

/-- What the calls to NetBox come to: the id that the reconcile of each address returns, if any, and
the records when those of the interface are listed, if they can be. The list is one page of at most
500 records; an interface is taken to have no more. -/
structure Env where
  reconciled : ℕ → Option ℤ
  listFails : Bool
  ips : List IpRecord
  distinct : (ips.map IpRecord.id).Nodup

/-- The addresses that the guest agent reports, without those to be skipped. -/
def reported (c : Call) : List String :=
  match c.guestIface with
  | none => []
  | some guestIface => allGuestAgentIps py m guestIface c.ignoreIpv6LinkLocal c.preferIpv4

/-- The addresses of the loop: those reported, or else that of the configuration. -/
def allIps (c : Call) : List String :=
  let ips := reported py m c
  let ips := if !ips.isEmpty then ips
    else if Python.truthy c.configIp && !Json.pyEq c.configIp (.str "dhcp")
    then [py.str c.configIp] else []
  preferredPrimaryIpOrder c.preferIpv4 ips

/-- The results of the loop. -/
def results (c : Call) (env : Env) : List (ℤ × String) :=
  (allIps py m c).zipIdx.filterMap fun entry =>
    if entry.1 = "dhcp" then none
    else (cleanAddress (hostOf m) c.ignoreIpv6LinkLocal entry.1).bind fun ipAddr =>
      (env.reconciled entry.2).map fun ipId => (ipId, ipAddr)

/-- An address as the cleanup compares it. -/
def normalizedAddress (address : String) : String :=
  match ipInterface address with
  | some i => m.str i
  | none => address

/-- The records that NetBox lists for an interface and a tag. -/
def managed (interfaceId : ℕ) (tagSlug : String) (r : IpRecord) : Bool :=
  r.assigned = some (vmInterface, interfaceId) && r.tags.any fun t => t.slug = tagSlug

/-- The ids that `cleanup_stale_ips_for_interface` deletes. -/
def staleIds (interfaceId : ℕ) (currentIps : List String) (tagSlug : String)
    (ips : List IpRecord) : List ℕ :=
  let normalizedCurrent := currentIps.map (normalizedAddress m)
  ((ips.filter (managed interfaceId tagSlug)).filter fun r =>
    !normalizedCurrent.contains (normalizedAddress m r.address)).map IpRecord.id

/-- The ids that `_resolve_vm_interface_ips` deletes. -/
def deletedIds (c : Call) (env : Env) : List ℕ :=
  match c.interfaceId with
  | none => []
  | some interfaceId =>
    if !c.createIp then []
    else
      let results := results py m c env
      if results.isEmpty || env.listFails then []
      else staleIds m interfaceId (results.map Prod.snd) c.tagSlug env.ips

/-- Whether the cleanup is about a record. -/
def Call.manages (c : Call) (r : IpRecord) : Prop :=
  ∃ interfaceId, c.interfaceId = some interfaceId ∧ managed interfaceId c.tagSlug r = true

/-- What is deleted is a tagged record of the interface, at an address that the guest does not
report. -/
def Spares (c : Call) (env : Env) : Prop :=
  ∀ id ∈ deletedIds py m c env, ∃ r ∈ env.ips, r.id = id ∧ c.manages r ∧
    ∀ ip ∈ reported py m c, ∀ i, ipInterface ip = some i → ipInterface r.address ≠ some i

/-- There is no cleanup, or for every reported address that a tagged record of the interface has,
the reconcile of that address returned an id. -/
def Covered (c : Call) (env : Env) : Prop :=
  c.createIp = false ∨ env.listFails = true ∨
    (∀ k < (allIps py m c).length, env.reconciled k = none) ∨
    ∀ ip ∈ reported py m c, ∀ i, ipInterface ip = some i → ∀ r ∈ env.ips, c.manages r →
      ipInterface r.address = some i →
        ∃ k ip', (allIps py m c)[k]? = some ip' ∧ ipInterface ip' = some i ∧
          (env.reconciled k).isSome = true

theorem rank_le (preferIpv4 : Bool) (address : String) : rank preferIpv4 address ≤ 2 := by
  unfold rank
  dsimp only
  split
  · exact le_refl 2
  · split
    · decide
    · decide
  · split
    · decide
    · decide

theorem mem_preferredPrimaryIpOrder {preferIpv4 : Bool} {addresses : List String} {ip : String} :
    ip ∈ preferredPrimaryIpOrder preferIpv4 addresses ↔ ip ∈ addresses := by
  unfold preferredPrimaryIpOrder
  rw [List.mem_flatMap]
  constructor
  · rintro ⟨k, -, hk⟩
    exact (List.mem_filter.mp hk).1
  · intro hip
    refine ⟨rank preferIpv4 ip, ?_, List.mem_filter.mpr ⟨hip, by simp⟩⟩
    have hle := rank_le preferIpv4 ip
    simp only [List.mem_cons, List.not_mem_nil, or_false]
    omega

section Reported

variable {py m}

/-- A reported address: the text of one that is not skipped, alone or with a prefix. -/
structure Written (ignoreIpv6LinkLocal : Bool) (ip : String) (a : Address) : Prop where
  accepted : (m.loopback a || (ignoreIpv6LinkLocal && m.linkLocal a)) = false
  text : ip = m.text a ∨ ∃ p, p ≠ "" ∧ ip = m.text a ++ "/" ++ p

theorem written_of_isSkippableIp {text cleaned : String} {ignoreIpv6LinkLocal : Bool}
    (h : isSkippableIp (hostOf m) text ignoreIpv6LinkLocal = some cleaned) :
    ∃ a, (m.loopback a || (ignoreIpv6LinkLocal && m.linkLocal a)) = false ∧
      cleaned = m.text a := by
  unfold isSkippableIp at h
  dsimp only at h
  split at h
  · cases h
  · split at h
    · cases h
    · rename_i host hhost
      obtain ⟨a, -, rfl⟩ := Option.map_eq_some_iff.mp hhost
      split at h
      · cases h
      · rename_i haccepted
        exact ⟨a, by simpa using haccepted, (Option.some.inj h).symm⟩

theorem isSkippableIp_text {a : Address} {ignoreIpv6LinkLocal : Bool}
    (haccepted : (m.loopback a || (ignoreIpv6LinkLocal && m.linkLocal a)) = false) :
    isSkippableIp (hostOf m) (m.text a) ignoreIpv6LinkLocal = some (m.text a) := by
  have hstrip : Text.strip (m.text a) = m.text a := by
    unfold Text.strip
    rw [Text.stripChars_of_forall fun c hc => (m.plain a c hc).2, String.ofList_toList]
  have htake : (m.text a).toList.takeWhile (· ≠ '%') = (m.text a).toList := by
    rw [List.takeWhile_eq_self_iff]
    intro c hc
    simpa using (m.plain a c hc).1
  have hne : (m.text a).toList ≠ [] := by
    intro hnil
    exact m.text_ne_empty a (String.toList_eq_nil_iff.mp hnil)
  unfold isSkippableIp hostOf
  simp only [hstrip, htake, if_neg hne, String.ofList_toList, m.reads, Option.map_some, haccepted]
  rfl

/-- Whatever its spelling and its zone, a guest's address is reported as the address itself, with
the prefix length that the guest gives. -/
theorem ipInterface_guestAgentIp {addr : Json.Fields} {text : String} {n : ℕ} {a : Address}
    {ignoreIpv6LinkLocal : Bool} (htext : field "ip_address" addr = .str text)
    (hgiven : field "prefix" addr = .int n) (hn : n ≤ a.width)
    (hread : ipAddress (String.ofList ((Text.strip text).toList.takeWhile (· ≠ '%'))) = some a)
    (haccepted : (m.loopback a || (ignoreIpv6LinkLocal && m.linkLocal a)) = false) :
    (guestAgentIpWithPrefix py m addr ignoreIpv6LinkLocal).bind ipInterface =
      some ⟨a, "", n⟩ := by
  have hstrip : Text.strip (Text.strip text) = Text.strip text := by
    unfold Text.strip
    rw [String.toList_ofList, Text.stripChars_stripChars]
  have hnone : ipAddress "" = none := by decide +kernel
  have hne : (Text.strip text).toList.takeWhile (fun c => decide (c ≠ '%')) ≠ [] := by
    intro hnil
    rw [hnil, String.ofList_nil, hnone] at hread
    cases hread
  have htruthy : Python.truthy (.str text) = true := by
    have hempty : text ≠ "" := by
      rintro rfl
      exact hne (by decide)
    simpa [Python.truthy] using hempty
  have hclean : isSkippableIp (hostOf m) (Text.strip text) ignoreIpv6LinkLocal =
      some (m.text a) := by
    unfold isSkippableIp hostOf
    simp only [hstrip, if_neg hne, hread, Option.map_some, haccepted]
    rfl
  have hrange : (0 : ℤ) ≤ n ∧ (n : ℤ) ≤ 128 := by
    have hwidth : a.width ≤ 128 := by
      cases a with
      | v4 bits => show 32 ≤ 128; decide
      | v6 bits => exact le_refl 128
    omega
  unfold guestAgentIpWithPrefix
  simp only [htext, htruthy, if_pos, Python.str, hclean, Option.map_some, hgiven, if_pos hrange,
    Option.bind_some]
  exact m.ipInterface_prefix hn

theorem written_of_reported {c : Call} {ip : String} (h : ip ∈ reported py m c) :
    ∃ a, Written (m := m) c.ignoreIpv6LinkLocal ip a := by
  unfold reported at h
  split at h
  · simp at h
  · rw [allGuestAgentIps, mem_preferredPrimaryIpOrder] at h
    obtain ⟨addr, -, haddr⟩ := List.mem_filterMap.mp h
    unfold guestAgentIpWithPrefix at haddr
    dsimp only at haddr
    obtain ⟨cleaned, hcleaned, hip⟩ := Option.map_eq_some_iff.mp haddr
    obtain ⟨a, haccepted, rfl⟩ := written_of_isSkippableIp hcleaned
    refine ⟨a, haccepted, ?_⟩
    split at hip
    · rename_i b _
      refine Or.inr ⟨py.str (.bool b), ?_, hip.symm⟩
      cases b with
      | true => exact show "True" ≠ "" by decide
      | false => exact show "False" ≠ "" by decide
    · rename_i n _
      split at hip
      · refine Or.inr ⟨toString n, ?_, hip.symm⟩
        intro hempty
        have hread := Vmid.parseAscii_toString n
        have hnone : Python.parseAscii "" = none := by decide +kernel
        rw [hempty, hnone] at hread
        cases hread
      · exact Or.inl hip.symm
    · exact Or.inl hip.symm

theorem Written.cleanAddress {ignoreIpv6LinkLocal : Bool} {ip : String} {a : Address}
    (h : Written (m := m) ignoreIpv6LinkLocal ip a) :
    cleanAddress (hostOf m) ignoreIpv6LinkLocal ip = some ip := by
  have hslash := m.slash_not_mem a
  have hall : ∀ c ∈ (m.text a).toList, (decide (c ≠ '/')) = true := by
    intro c hc
    rw [decide_eq_true_eq]
    rintro rfl
    exact hslash hc
  unfold InterfaceIps.cleanAddress
  rcases h.text with rfl | ⟨p, hp, rfl⟩
  · have htake := List.takeWhile_eq_self_iff.mpr hall
    have hdrop := List.dropWhile_eq_nil_iff.mpr hall
    simp only [htake, hdrop, String.ofList_toList, isSkippableIp_text h.accepted, List.drop_nil,
      Option.map_some, if_pos]
  · have htext : (m.text a ++ "/" ++ p).toList = (m.text a).toList ++ '/' :: p.toList := by simp
    have htake : ((m.text a).toList ++ '/' :: p.toList).takeWhile (fun c => decide (c ≠ '/')) =
        (m.text a).toList := by
      rw [List.takeWhile_append_of_pos hall]
      simp
    have hdrop : ((m.text a).toList ++ '/' :: p.toList).dropWhile (fun c => decide (c ≠ '/')) =
        '/' :: p.toList := by
      rw [List.dropWhile_append_of_pos hall]
      simp
    have hne : p.toList ≠ [] := fun hnil => hp (String.toList_eq_nil_iff.mp hnil)
    simp only [htext, htake, hdrop, String.ofList_toList, isSkippableIp_text h.accepted,
      List.drop_succ_cons, List.drop_zero, Option.map_some, if_neg hne]

theorem Written.ne_dhcp {ignoreIpv6LinkLocal : Bool} {ip : String} {a : Address}
    (h : Written (m := m) ignoreIpv6LinkLocal ip a) : ip ≠ "dhcp" := by
  rintro rfl
  have hclean := h.cleanAddress
  have hparse : ipAddress "dhcp" = none := by decide +kernel
  have hskip : InterfaceIps.cleanAddress (hostOf m) ignoreIpv6LinkLocal "dhcp" = none := by
    have htake : "dhcp".toList.takeWhile (fun c => decide (c ≠ '/')) = "dhcp".toList := by decide
    have hstrip : (Text.strip "dhcp").toList.takeWhile (fun c => decide (c ≠ '%')) =
        "dhcp".toList := by decide
    unfold InterfaceIps.cleanAddress isSkippableIp hostOf
    simp only [htake, hstrip, String.ofList_toList, hparse, Option.map_none]
    rfl
  rw [hskip] at hclean
  cases hclean

/-- The interface of a reported address has no scope. -/
theorem Written.scope {ignoreIpv6LinkLocal : Bool} {ip : String} {a : Address}
    (h : Written (m := m) ignoreIpv6LinkLocal ip a) {i : Interface}
    (hi : ipInterface ip = some i) : i.scope = "" := by
  obtain ⟨-, htext⟩ := h
  rcases htext with rfl | ⟨p, -, rfl⟩
  · rw [m.ipInterface_text] at hi
    exact (Option.some.inj hi) ▸ rfl
  · have htext : (m.text a ++ "/" ++ p).toList = (m.text a).toList ++ '/' :: p.toList := by simp
    unfold ipInterface at hi
    rw [htext, List.splitOn_append_cons_self_of_not_mem (m.slash_not_mem a)] at hi
    split at hi
    · rename_i addr heq
      obtain ⟨rfl, -⟩ := List.cons.inj heq
      obtain ⟨b, -, rfl⟩ := Option.map_eq_some_iff.mp hi
      exact m.scopeId_text a
    · rename_i addr mask heq
      obtain ⟨rfl, -⟩ := List.cons.inj heq
      obtain ⟨b, -, hi⟩ := Option.bind_eq_some_iff.mp hi
      obtain ⟨n, -, rfl⟩ := Option.map_eq_some_iff.mp hi
      exact m.scopeId_text a
    · cases hi

/-- An address is compared as an interface without a scope exactly if it is read as it. -/
theorem normalizedAddress_eq_iff {ip : String} {i : Interface} (hscope : i.scope = "")
    (hlength : i.length ≤ i.address.width) :
    normalizedAddress m ip = m.str i ↔ ipInterface ip = some i := by
  unfold normalizedAddress
  cases hread : ipInterface ip with
  | none =>
    refine ⟨?_, fun heq => by cases heq⟩
    intro heq
    -- the text of an interface is read, the address is not
    have hstr := m.ipInterface_str hscope hlength
    rw [← heq, hread] at hstr
    cases hstr
  | some j =>
    constructor
    · intro heq
      exact congrArg some (m.eq_of_str_eq heq hscope (Rendering.length_le hread) hlength)
    · intro heq
      exact congrArg m.str (Option.some.inj heq)

end Reported

section Cleanup

variable {py m} {c : Call} {env : Env}

theorem mem_allIps (h : reported py m c ≠ []) {ip : String} :
    ip ∈ allIps py m c ↔ ip ∈ reported py m c := by
  unfold allIps
  dsimp only
  rw [mem_preferredPrimaryIpOrder, if_pos (by simpa using h)]

/-- What the loop makes of a guest's addresses: each one whose reconcile returns an id. -/
theorem mem_results (h : reported py m c ≠ []) {ipId : ℤ} {ip : String} :
    (ipId, ip) ∈ results py m c env ↔
      ∃ k, (allIps py m c)[k]? = some ip ∧ env.reconciled k = some ipId := by
  have hpass : ∀ {ip'}, ip' ∈ allIps py m c →
      ip' ≠ "dhcp" ∧ cleanAddress (hostOf m) c.ignoreIpv6LinkLocal ip' = some ip' := by
    intro ip' hip'
    obtain ⟨a, ha⟩ := written_of_reported ((mem_allIps h).mp hip')
    exact ⟨ha.ne_dhcp, ha.cleanAddress⟩
  unfold results
  rw [List.mem_filterMap]
  constructor
  · rintro ⟨⟨ip', k⟩, hmem, hresult⟩
    have hget := List.mem_zipIdx_iff_getElem?.mp hmem
    obtain ⟨hdhcp, hclean⟩ := hpass (List.mem_of_getElem? hget)
    rw [if_neg hdhcp, hclean, Option.bind_some] at hresult
    obtain ⟨n, hn, heq⟩ := Option.map_eq_some_iff.mp hresult
    obtain ⟨rfl, rfl⟩ := Prod.mk.inj heq
    exact ⟨k, hget, hn⟩
  · rintro ⟨k, hget, hn⟩
    obtain ⟨hdhcp, hclean⟩ := hpass (List.mem_of_getElem? hget)
    refine ⟨(ip, k), List.mem_zipIdx_iff_getElem?.mpr hget, ?_⟩
    rw [if_neg hdhcp, hclean, Option.bind_some, hn, Option.map_some]

theorem mem_staleIds {interfaceId : ℕ} {currentIps : List String} {tagSlug : String}
    {ips : List IpRecord} {id : ℕ} : id ∈ staleIds m interfaceId currentIps tagSlug ips ↔
      ∃ r ∈ ips, r.id = id ∧ managed interfaceId tagSlug r = true ∧
        ∀ ip ∈ currentIps, normalizedAddress m ip ≠ normalizedAddress m r.address := by
  unfold staleIds
  dsimp only
  rw [List.mem_map]
  constructor
  · rintro ⟨r, hr, hid⟩
    obtain ⟨hr, hstale⟩ := List.mem_filter.mp hr
    obtain ⟨hr, hmanaged⟩ := List.mem_filter.mp hr
    refine ⟨r, hr, hid, hmanaged, ?_⟩
    intro ip hip heq
    have hmem := List.mem_map_of_mem (f := normalizedAddress m) hip
    rw [heq] at hmem
    simp [hmem] at hstale
  · rintro ⟨r, hr, hid, hmanaged, hapart⟩
    refine ⟨r, List.mem_filter.mpr ⟨List.mem_filter.mpr ⟨hr, hmanaged⟩, ?_⟩, hid⟩
    rw [Bool.not_eq_true', ← Bool.not_eq_true, List.contains_iff_mem]
    intro hmem
    obtain ⟨ip, hip, heq⟩ := List.mem_map.mp hmem
    exact hapart ip hip heq

/-- The records that are deleted. -/
theorem mem_deletedIds {id : ℕ} : id ∈ deletedIds py m c env ↔
    c.createIp = true ∧ env.listFails = false ∧ results py m c env ≠ [] ∧
      ∃ r ∈ env.ips, r.id = id ∧ c.manages r ∧
        ∀ result ∈ results py m c env,
          normalizedAddress m result.2 ≠ normalizedAddress m r.address := by
  unfold deletedIds Call.manages
  cases c.interfaceId with
  | none => simp
  | some interfaceId =>
    cases hcreate : c.createIp with
    | false => simp
    | true =>
      cases hlist : env.listFails with
      | true => simp
      | false =>
        by_cases hnil : results py m c env = []
        · simp [hnil]
        · have hcleanup : ((results py m c env).isEmpty || false) = false := by
            simpa using hnil
          simp only [Bool.not_true, Bool.false_eq_true, if_false, hcleanup, mem_staleIds,
            List.forall_mem_map, Option.some.injEq, exists_eq_left', true_and, ne_eq, hnil,
            not_false_eq_true]

/-- With distinct ids a deleted record is at no address that the guest reports. -/
theorem spares_iff_of_reported (h : reported py m c ≠ []) (hcreate : c.createIp = true)
    (hlist : env.listFails = false) (hresults : results py m c env ≠ []) :
    Spares py m c env ↔ ∀ ip ∈ reported py m c, ∀ i, ipInterface ip = some i → ∀ r ∈ env.ips,
      c.manages r → ipInterface r.address = some i →
        ∃ k ip', (allIps py m c)[k]? = some ip' ∧ ipInterface ip' = some i ∧
          (env.reconciled k).isSome = true := by
  have hcompare : ∀ {ip i}, ip ∈ reported py m c → ipInterface ip = some i →
      ∀ {r : IpRecord}, ipInterface r.address = some i → ∀ {ip'},
        normalizedAddress m ip' = normalizedAddress m r.address ↔ ipInterface ip' = some i := by
    intro ip i hip hi r hr ip'
    obtain ⟨a, ha⟩ := written_of_reported hip
    have hrecord : normalizedAddress m r.address = m.str i := by
      unfold normalizedAddress
      rw [hr]
    rw [hrecord]
    exact normalizedAddress_eq_iff (ha.scope hi) (Rendering.length_le hi)
  constructor
  · intro hspares ip hip i hi r hr hmanages hri
    by_contra hnone
    -- no result is at the address of the record, which is deleted
    have hdeleted : r.id ∈ deletedIds py m c env := by
      refine mem_deletedIds.mpr ⟨hcreate, hlist, hresults, r, hr, rfl, hmanages, ?_⟩
      rintro ⟨ipId, ip'⟩ hresult heq
      obtain ⟨k, hget, hreconciled⟩ := (mem_results h).mp hresult
      refine hnone ⟨k, ip', hget, (hcompare hip hi hri).mp heq, ?_⟩
      rw [hreconciled]
      rfl
    obtain ⟨r', hr', hid, -, hapart⟩ := hspares r.id hdeleted
    obtain rfl : r' = r := List.inj_on_of_nodup_map env.distinct hr' hr hid
    exact hapart ip hip i hi hri
  · intro hcovered id hid
    obtain ⟨-, -, -, r, hr, hrid, hmanages, hstale⟩ := mem_deletedIds.mp hid
    refine ⟨r, hr, hrid, hmanages, ?_⟩
    intro ip hip i hi hri
    obtain ⟨k, ip', hget, hi', hreconciled⟩ := hcovered ip hip i hi r hr hmanages hri
    obtain ⟨ipId, hipId⟩ := Option.isSome_iff_exists.mp hreconciled
    exact hstale (ipId, ip') ((mem_results h).mpr ⟨k, hget, hipId⟩)
      ((hcompare hip hi hri).mpr hi')

/-- Without a cleanup nothing is deleted. -/
theorem spares_of_no_cleanup
    (h : c.createIp = false ∨ env.listFails = true ∨ results py m c env = []) :
    Spares py m c env := by
  intro id hid
  obtain ⟨hcreate, hlist, hresults, -⟩ := mem_deletedIds.mp hid
  rcases h with h | h | h
  · rw [h] at hcreate
    cases hcreate
  · rw [h] at hlist
    cases hlist
  · exact absurd h hresults

theorem spares_of_no_report (h : reported py m c = []) : Spares py m c env := by
  intro id hid
  obtain ⟨-, -, -, r, hr, hrid, hmanages, -⟩ := mem_deletedIds.mp hid
  refine ⟨r, hr, hrid, hmanages, ?_⟩
  intro ip hip
  rw [h] at hip
  cases hip

end Cleanup

/-- The cleanup deletes only tagged records of the interface at addresses that the guest does not
report, exactly if every reported address that such a record has was reconciled, or there is no
cleanup. -/
theorem spares_iff (c : Call) (env : Env) : Spares py m c env ↔ Covered py m c env := by
  by_cases hreported : reported py m c = []
  · have hcovered : Covered py m c env := by
      refine Or.inr (Or.inr (Or.inr ?_))
      intro ip hip
      rw [hreported] at hip
      cases hip
    exact iff_of_true (spares_of_no_report hreported) hcovered
  · have hresults : results py m c env = [] ↔
        ∀ k < (allIps py m c).length, env.reconciled k = none := by
      constructor
      · intro hnil k hk
        by_contra hsome
        obtain ⟨ipId, hipId⟩ := Option.ne_none_iff_exists'.mp hsome
        have hmem : (ipId, (allIps py m c)[k]) ∈ results py m c env :=
          (mem_results hreported).mpr ⟨k, List.getElem?_eq_getElem hk, hipId⟩
        rw [hnil] at hmem
        cases hmem
      · intro hnone
        rw [List.eq_nil_iff_forall_not_mem]
        rintro ⟨ipId, ip⟩ hmem
        obtain ⟨k, hget, hipId⟩ := (mem_results hreported).mp hmem
        obtain ⟨hk, -⟩ := List.getElem?_eq_some_iff.mp hget
        rw [hnone k hk] at hipId
        cases hipId
    unfold Covered
    rw [← hresults]
    by_cases hcleanup : c.createIp = false ∨ env.listFails = true ∨ results py m c env = []
    · refine iff_of_true (spares_of_no_cleanup hcleanup) ?_
      rcases hcleanup with h | h | h
      · exact Or.inl h
      · exact Or.inr (Or.inl h)
      · exact Or.inr (Or.inr (Or.inl h))
    · rw [not_or, not_or] at hcleanup
      obtain ⟨hcreate, hlist, hnil⟩ := hcleanup
      rw [spares_iff_of_reported hreported (by simpa using hcreate) (by simpa using hlist) hnil]
      simp only [hcreate, hlist, hnil, Bool.true_eq_false, Bool.false_eq_true, false_or]

theorem proxbox_ne : "proxbox" ≠ "" := by decide

def proxboxTag : DeviceEnsure.TagRef := ⟨none, "proxbox", none, proxbox_ne⟩

/-- A tagged record of interface 7. -/
def ownIp (id : ℕ) (address : String) : IpRecord :=
  ⟨id, address, some (vmInterface, 7), "active", "", [proxboxTag], none⟩

/-- The guest reports two addresses of interface 7. -/
def twoAddresses : Call where
  interfaceId := some 7
  createIp := true
  guestIface := some [("ip_addresses", .arr
    [.obj [("ip_address", .str "10.0.0.5"), ("prefix", .int 24)],
      .obj [("ip_address", .str "10.0.0.6"), ("prefix", .int 24)]])]
  configIp := .null
  ignoreIpv6LinkLocal := true
  preferIpv4 := true
  tagSlug := "proxbox"

/-- NetBox has both, and the reconcile of the first one fails. -/
def firstFails : Env where
  reconciled k := if k = 0 then none else some 2
  listFails := false
  ips := [ownIp 1 "10.0.0.5/24", ownIp 2 "10.0.0.6/24"]
  distinct := by decide

/-- The record of the first address is deleted. -/
theorem current_ip_deleted : ¬ Spares Python.ascii IpAddress.exploded twoAddresses firstFails := by
  intro h
  obtain ⟨r, hr, hid, -, hapart⟩ := h 1 (by decide +kernel)
  have haddress : r.address = "10.0.0.5/24" := by
    have hall : ∀ r ∈ firstFails.ips, r.id = 1 → r.address = "10.0.0.5/24" := by decide
    exact hall r hr hid
  have hread : ipInterface "10.0.0.5/24" =
      some ⟨.v4 (IpAddress.quad 10 0 0 5), "", 24⟩ := by decide +kernel
  exact hapart "10.0.0.5/24" (by decide +kernel) _ hread (haddress ▸ hread)

end ProxboxApi.StaleIps
