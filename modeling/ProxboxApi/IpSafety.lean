import ProxboxApi.IpOwnership

/-! No address is taken from another object in a run whose writes rest on reads that are up to
date. -/

namespace ProxboxApi.IpOwnership

open Requests Reconcile SyncSchemas
open VmQueue (field)

variable {py : Python} {parsers : Parsers} {maxRetries : ℕ} {filters : IpFilters}
  {log : List (Prog.Exchange Request Reply)} {id : ℤ} {owner : String × ℤ}

theorem assignedOf_serialize (ip : IpAddress) : assignedOf ip.serialize = ip.assigned := by
  obtain ⟨id, assigned, fields⟩ := ip
  cases assigned <;> rfl

theorem shown_append (log log' : List (Prog.Exchange Request Reply)) :
    shown id (log ++ log') = shown id log ++ shown id log' := List.flatMap_append ..

/-- What a list of addresses shows of one of them. -/
theorem mem_shown {query : Json.Fields} {records : List Record} {record : Record}
    (hrecord : record ∈ records) (hid : field "id" record = .int id)
    (hlog : (⟨.list ipPath query, .ok records⟩ : Prog.Exchange Request Reply) ∈ log) :
    assignedOf record ∈ shown id log := by
  refine List.mem_flatMap.mpr ⟨_, hlog, ?_⟩
  simp only [if_true]
  refine List.mem_map_of_mem (List.mem_filter.mpr ⟨hrecord, ?_⟩)
  simp [hid, Json.pyEq, Json.number]

/-- The replies that NetBox gives: the addresses that a query admits, and interfaces by id. -/
def Allowed (filters : IpFilters) : (q : Request) → Reply q → Prop
  | .list path query, .ok records =>
    (path = ipPath → ∀ record ∈ records, ∃ ip : IpAddress, record = ip.serialize ∧
      filters.admits query ip = true) ∧
    (path = interfacePath → ∀ record ∈ records, ∃ id, field "id" record = .int id)
  | _, _ => True

/-- Some read has shown the address unassigned, or assigned to the object it is for. -/
def Known (id : ℤ) (owner : String × ℤ) (log : List (Prog.Exchange Request Reply)) : Prop :=
  none ∈ shown id log ∨ some owner ∈ shown id log

theorem Known.append (h : Known id owner log) (log' : List (Prog.Exchange Request Reply)) :
    Known id owner (log ++ log') := by
  unfold Known
  rw [shown_append]
  exact h.imp (List.mem_append_left _) (List.mem_append_left _)

/-- A read that has just shown it. -/
theorem known_of_reply {query : Json.Fields} {records : List Record} {record : Record}
    (hrecord : record ∈ records) (hid : field "id" record = .int id)
    (hassigned : assignedOf record = none ∨ assignedOf record = some owner) :
    Known id owner (log ++ [⟨.list ipPath query, .ok records⟩]) := by
  have hlast : (⟨.list ipPath query, .ok records⟩ : Prog.Exchange Request Reply) ∈
      log ++ [⟨.list ipPath query, .ok records⟩] := by simp
  have hshown := mem_shown hrecord hid hlast
  rcases hassigned with h | h
  · rw [h] at hshown
    exact Or.inl hshown
  · rw [h] at hshown
    exact Or.inr hshown

/-- A payload that assigns to the object, if it assigns at all. -/
def AssignsTo (owner : String × ℤ) (payload : Record) : Prop :=
  (∀ objectType, field "assigned_object_type" payload = .str objectType → objectType = owner.1) ∧
    ∀ objectId, field "assigned_object_id" payload = .int objectId → objectId = owner.2

/-- A PATCH of an address rests on a read that has shown it free or its own. -/
def Rests (log : List (Prog.Exchange Request Reply)) : Request → Prop
  | .patch path target payload => path = ipPath → ∃ id owner, field "id" target = .int id ∧
    AssignsTo owner payload ∧ Known id owner log
  | _ => True

theorem strOf_cases {payload : Record} (h : AssignsTo owner payload) :
    strOf (field "assigned_object_type" payload) = none ∨
      strOf (field "assigned_object_type" payload) = some owner.1 := by
  cases htype : field "assigned_object_type" payload with
  | str objectType =>
    right
    rw [h.1 objectType htype]
    rfl
  | _ => exact Or.inl rfl

theorem intOf_cases {payload : Record} (h : AssignsTo owner payload) :
    intOf (field "assigned_object_id" payload) = none ∨
      intOf (field "assigned_object_id" payload) = some owner.2 := by
  cases hid : field "assigned_object_id" payload with
  | int objectId =>
    right
    rw [h.2 objectId hid]
    rfl
  | _ => exact Or.inl rfl

/-- A PATCH leaves an address of the object with it. -/
theorem AssignsTo.keeps {payload : Record} (h : AssignsTo owner payload) :
    patchedAssignment payload (some owner) = some owner := by
  unfold patchedAssignment
  rcases strOf_cases h with htype | htype <;> rcases intOf_cases h with hid | hid <;>
    simp [htype, hid, assignment]

/-- A PATCH of a free address assigns it to the object or not at all. -/
theorem AssignsTo.adopts {payload : Record} (h : AssignsTo owner payload) :
    patchedAssignment payload none = none ∨ patchedAssignment payload none = some owner := by
  unfold patchedAssignment
  rcases strOf_cases h with htype | htype <;> rcases intOf_cases h with hid | hid <;>
    simp [htype, hid, assignment]

/-- The PATCH of `ensure_ip_assigned_to_vm` adopts an address that was read as free. -/
theorem ensureIpAssignedToVm_always (ipId vmId : ℤ) (log : List (Prog.Exchange Request Reply)) :
    (ensureIpAssignedToVm maxRetries ipId vmId).Always (Allowed filters) Rests
      (fun _ _ => True) log := by
  refine ⟨trivial, ?_⟩
  intro reply hreply
  match reply with
  | .error e => trivial
  | .ok [] => trivial
  | .ok (ipRecord :: others) =>
    refine ⟨trivial, ?_⟩
    intro ifaces hifaces
    match ifaces with
    | .error e => trivial
    | .ok [] => trivial
    | .ok (first :: rest) =>
      dsimp only
      split
      · trivial
      · split
        · trivial
        · rename_i hfree
          rw [Prog.always_bind]
          obtain ⟨ip, rfl, hadmits⟩ := hreply.1 rfl ipRecord (List.mem_cons_self ..)
          obtain ⟨firstId, hfirst⟩ := hifaces.2 rfl first (List.mem_cons_self ..)
          have hip : ip.id = ipId := filters.byId _ _ _ rfl hadmits
          have hunassigned : ip.assigned = none := by
            cases hassigned : ip.assigned with
            | none => rfl
            | some a =>
              simp [IpAddress.serialize, hassigned, field, Dict.get, relationId,
                Json.isNull] at hfree
          have hknown : Known ipId (InterfaceKind.vmInterface.objectType, firstId)
              (log ++ [⟨.list ipPath [("id", .int ipId)], .ok (ip.serialize :: others)⟩]) := by
            refine known_of_reply (List.mem_cons_self ..) (congrArg Json.int hip) (Or.inl ?_)
            rw [assignedOf_serialize, hunassigned]
          refine (restPatch_rule ?_).mono fun _ a _ => by cases a <;> trivial
          intro later _
          refine ⟨ipId, _, rfl, ⟨?_, ?_⟩, (hknown.append _).append later⟩
          · intro objectType htype
            exact (Json.str.inj htype).symm
          · intro objectId hid
            have hid : field "id" first = .int objectId := hid
            rw [hfirst] at hid
            exact (Json.int.inj hid).symm

theorem vmPatch_rests {target payload : Record} : Rests log (.patch vmPath target payload) :=
  fun h => absurd h (by decide)

/-- The PATCHes of the end of `set_primary_ip` are of the VM. -/
theorem patchPrimaryIp_always (virtualMachine : Record) (vmId primaryIpId : ℤ)
    (log : List (Prog.Exchange Request Reply)) :
    (patchPrimaryIp py parsers maxRetries virtualMachine vmId primaryIpId).Always
      (Allowed filters) Rests (fun _ _ => True) log := by
  refine ⟨trivial, ?_⟩
  intro reply _
  match reply with
  | .error e => trivial
  | .ok [] => trivial
  | .ok (ipRecord :: others) =>
    dsimp only
    split
    · trivial
    · split
      · trivial
      · rw [Prog.always_bind]
        refine (restPatch_rule fun _ => vmPatch_rests).mono ?_
        rintro log (e | record) -
        · dsimp only
          split
          · trivial
          · split
            · rw [Prog.always_bind]
              refine (restPatch_rule fun _ => vmPatch_rests).mono ?_
              rintro _ (e | record) - <;> trivial
            · trivial
        · trivial

theorem setPrimaryIp_always (virtualMachine : Record) (vmId : ℤ) (primaryIpId : Option ℤ)
    (log : List (Prog.Exchange Request Reply)) :
    (setPrimaryIp py parsers maxRetries virtualMachine vmId primaryIpId).Always
      (Allowed filters) Rests (fun _ _ => True) log := by
  unfold setPrimaryIp
  split
  · trivial
  · rename_i ipId
    split
    · trivial
    · rw [Prog.always_bind]
      refine (ensureIpAssignedToVm_always ipId vmId log).mono ?_
      rintro log (_ | _) -
      · rw [if_neg (by simp), Prog.always_bind]
        refine (ensureIpAssignedToVm_always ipId vmId log).mono ?_
        rintro log (_ | _) -
        · trivial
        · rw [if_pos rfl]
          exact patchPrimaryIp_always ..
      · rw [if_pos rfl]
        exact patchPrimaryIp_always ..

theorem keys_dump (s : IpAddressState) : (Dict.keys s.dump).Sublist ipAddressFields := by
  have hopt := VmQueue.keys_optionalField
  have hsplit : ipAddressFields = ["address"] ++ ["assigned_object_type"] ++
      ["assigned_object_id"] ++ ["status", "dns_name", "tags", "custom_fields"] := rfl
  rw [hsplit]
  simp only [IpAddressState.dump, Dict.keys, List.map_append]
  apply List.Sublist.append _ (List.Sublist.refl _)
  exact ((List.Sublist.refl _).append (hopt _ _)).append (hopt _ _)

/-- The object that an address is for. -/
def InterfaceIp.object (ip : InterfaceIp) : String × ℤ := (ip.kind.objectType, ip.interfaceId)

/-- A payload that is accepted assigns to the interface. -/
theorem desired_assigns {ip : InterfaceIp} {desired : Record}
    (h : dumpIpAddress py ip.payload = some desired) :
    ∃ s : IpAddressState, desired = s.dump ∧ s.assignedObjectType = some ip.kind.objectType ∧
      s.assignedObjectId = some ip.interfaceId := by
  rw [dumpIpAddress, Option.map_eq_some_iff] at h
  obtain ⟨s, hs, rfl⟩ := h
  refine ⟨s, rfl, ?_⟩
  unfold IpAddressState.validate at hs
  simp only [Option.bind_eq_bind, Option.bind_eq_some_iff, Option.some.injEq] at hs
  obtain ⟨-, -, address, -, objectType, htype, objectId, hid, tags, -, customFields, -, rfl⟩ := hs
  cases htype
  cases hid
  exact ⟨rfl, rfl⟩

/-- A patch is made of fields of the payload. -/
theorem patch_assigns {ip : InterfaceIp} {lookup current : Record} {s : IpAddressState}
    (htype : s.assignedObjectType = some ip.kind.objectType)
    (hid : s.assignedObjectId = some ip.interfaceId) :
    AssignsTo ip.object ((ip.call py lookup).patchPayload s.dump current) := by
  have hmem : ∀ key value, field key ((ip.call py lookup).patchPayload s.dump current) = value →
      value ≠ .null → Dict.get key s.dump = some value := by
    intro key value hfield hne
    have hget : Dict.get key ((ip.call py lookup).patchPayload s.dump current) = some value := by
      cases hcase : Dict.get key ((ip.call py lookup).patchPayload s.dump current) with
      | none =>
        rw [field, hcase] at hfield
        exact absurd hfield.symm hne
      | some x =>
        rw [field, hcase] at hfield
        exact congrArg some hfield
    have hpatch : (key, value) ∈ s.dump.filter
        (fun kv => !(field kv.1 current).pyEq kv.2) ++ [] := Dict.mem_of_get hget
    rw [List.append_nil] at hpatch
    exact Dict.get_of_mem ((keys_dump s).nodup (by decide)) (List.mem_filter.mp hpatch).1
  have hdump : Dict.get "assigned_object_type" s.dump = some (.str ip.kind.objectType) ∧
      Dict.get "assigned_object_id" s.dump = some (.int ip.interfaceId) := by
    unfold IpAddressState.dump
    rw [htype, hid]
    exact ⟨rfl, rfl⟩
  constructor
  · intro objectType h
    have := hmem _ _ h (by simp)
    rw [hdump.1] at this
    exact (Json.str.inj (Option.some.inj this)).symm
  · intro objectId h
    have := hmem _ _ h (by simp)
    rw [hdump.2] at this
    exact (Json.int.inj (Option.some.inj this)).symm

/-- An address that is chosen is the interface's own or free. -/
theorem target_cases {ip : InterfaceIp} {existing : List Record} {record : Record}
    (hexisting : ∀ record ∈ existing, ∃ addr : IpAddress, record = addr.serialize)
    (h : ip.target py existing = some record) : ∃ addr : IpAddress, record = addr.serialize ∧
      record ∈ existing ∧ (addr.assigned = none ∨ addr.assigned = some ip.object) := by
  rcases Option.or_eq_some_iff.mp h with hown | ⟨-, hfree⟩
  · have hmem := List.mem_of_find?_eq_some hown
    obtain ⟨addr, rfl⟩ := hexisting record hmem
    refine ⟨addr, rfl, hmem, Or.inr ?_⟩
    have howns := List.find?_some hown
    obtain ⟨id, assigned, fields⟩ := addr
    cases assigned with
    | none => simp [InterfaceIp.owns, IpAddress.serialize, field, Dict.get, Json.pyEq] at howns
    | some a =>
      have hparts : a.1 = ip.kind.objectType ∧ a.2 = ip.interfaceId := by
        simpa [InterfaceIp.owns, IpAddress.serialize, field, Dict.get, Json.pyEq, relationIdOrNone,
          relationId, Python.int] using howns
      exact congrArg some (Prod.ext hparts.1 hparts.2)
  · have hmem := List.mem_of_find?_eq_some hfree
    obtain ⟨addr, rfl⟩ := hexisting record hmem
    refine ⟨addr, rfl, hmem, Or.inl ?_⟩
    have hadoptable := List.find?_some hfree
    obtain ⟨id, assigned, fields⟩ := addr
    cases assigned with
    | none => rfl
    | some a =>
      simp [adoptable, IpAddress.serialize, field, Dict.get, relationIdOrNone, relationId,
        Python.int] at hadoptable

/-- A scan misses all records: the lookup has a field that no address has under the schema. -/
theorem scan_misses {ip : InterfaceIp} {lookup : Record}
    (h : ∃ kv ∈ lookup, kv.1 ∉ ipAddressFields ∧ Json.null.pyEq kv.2 = false)
    (records : List Record) : records.find? ((ip.call py lookup).matchesAny [lookup]) = none := by
  obtain ⟨kv, hkv, hkey, hvalue⟩ := h
  rw [List.find?_eq_none]
  intro record _
  unfold Call.matchesAny
  cases hcurrent : (ip.call py lookup).current record with
  | none => simp
  | some current =>
    have hdump : dumpIpAddress py (ipAddressCurrentNormalizer record) = some current := hcurrent
    rw [dumpIpAddress, Option.map_eq_some_iff] at hdump
    obtain ⟨s, -, rfl⟩ := hdump
    have hfalse : lookup.all (fun kv => (field kv.1 s.dump).pyEq kv.2) = false := by
      rw [List.all_eq_false]
      exact ⟨kv, hkv, by rw [VmQueue.field_eq_null (keys_dump _) hkey, hvalue]; simp⟩
    simp only [List.any_cons, List.any_nil, hfalse, Bool.or_false, Bool.false_eq_true,
      not_false_eq_true]

/-- The reconciliation of an address, whose lookup selects addresses by id or by the interface. -/
theorem reconcile_always {ip : InterfaceIp} {lookup : Record}
    (before : List (Prog.Exchange Request Reply) → Prop)
    (hgrows : ∀ log later, before log → before (log ++ later))
    (hfound : ∀ log (addr : IpAddress) (records : List Record), before log →
      filters.admits ((ip.call py lookup).queryOf lookup) addr = true →
        Known addr.id ip.object (log ++ [⟨.list ipPath ((ip.call py lookup).queryOf lookup),
          .ok (addr.serialize :: records)⟩]))
    (hscan : ∃ kv ∈ lookup, kv.1 ∉ ipAddressFields ∧ Json.null.pyEq kv.2 = false)
    {log : List (Prog.Exchange Request Reply)} (hlog : before log) :
    (reconcile (ip.call py lookup)).Always (Allowed filters) Rests (fun _ _ => True) log := by
  cases hdump : dumpIpAddress py ip.payload with
  | none =>
    rw [reconcile_invalid hdump]
    trivial
  | some desired =>
    obtain ⟨s, rfl, htype, hid⟩ := desired_assigns hdump
    have hcandidates : (ip.call py lookup).candidates s.dump = some [lookup] := rfl
    have hsearches : Searches (ip.call py lookup) (Allowed filters) Rests s.dump before before := by
      refine ⟨?_, ?_, ?_⟩
      · intro log hlog
        unfold findExisting
        rw [hcandidates]
        refine findFirst_cons trivial ?_ ?_ ?_
        · intro e _
          refine ⟨?_, fun _ => hgrows _ _ hlog⟩
          intro existing heq
          split at heq <;> simp at heq
        · intro record records hreply
          obtain ⟨addr, rfl, hadmits⟩ := hreply.1 rfl record (List.mem_cons_self ..)
          refine ⟨?_, by simp⟩
          intro existing heq
          obtain rfl : addr.serialize = existing := by simpa using heq
          refine reconcileRecord_rule ?_
          intro current _ _
          exact ⟨addr.id, ip.object, rfl, patch_assigns htype hid, hfound log addr records hlog hadmits⟩
        · intro _
          exact ⟨by simp, fun _ => hgrows _ _ hlog⟩
      · intro log hlog
        refine scanExisting_rule hcandidates trivial ?_ ?_
        · intro e _
          exact ⟨by simp, by simp⟩
        · intro records _
          rw [scan_misses hscan]
          exact ⟨by simp, fun _ => hgrows _ _ hlog⟩
      · intro log hlog
        exact ⟨trivial, fun e => hgrows _ _ hlog⟩
    exact hsearches.reconcile hdump rfl hlog

theorem byId_always {ip : InterfaceIp} {recordId : ℤ} (hknown : Known recordId ip.object log) :
    (reconcile (ip.call py [("id", .int recordId)])).Always (Allowed filters) Rests
      (fun _ _ => True) log := by
  refine reconcile_always (Known recordId ip.object) (fun _ later h => h.append later) ?_ ?_ hknown
  · intro log addr records hlog hadmits
    have hid : addr.id = recordId := filters.byId _ _ _ rfl hadmits
    rw [hid]
    exact hlog.append _
  · exact ⟨_, List.mem_singleton_self _, by simp [ipAddressFields], rfl⟩

theorem byInterface_always (ip : InterfaceIp) (log : List (Prog.Exchange Request Reply)) :
    (reconcile (ip.call py [("address", .str ip.address),
      (ip.kind.lookupField, .int ip.interfaceId)])).Always (Allowed filters) Rests
        (fun _ _ => True) log := by
  refine reconcile_always (fun _ => True) (fun _ _ _ => trivial) ?_ ?_ trivial
  · intro log addr records _ hadmits
    have hget : Dict.get ip.kind.lookupField ((ip.call py [("address", .str ip.address),
        (ip.kind.lookupField, .int ip.interfaceId)]).queryOf [("address", .str ip.address),
          (ip.kind.lookupField, .int ip.interfaceId)]) = some (.int ip.interfaceId) := by
      cases ip.kind <;> rfl
    have hassigned := filters.byInterface ip.kind _ addr _ hget hadmits
    refine known_of_reply (List.mem_cons_self ..) rfl (Or.inr ?_)
    rw [assignedOf_serialize, hassigned]
    rfl
  · refine ⟨(ip.kind.lookupField, .int ip.interfaceId), by simp, ?_, rfl⟩
    cases ip.kind <;> simp [InterfaceKind.lookupField, ipAddressFields]

theorem done_always (log : List (Prog.Exchange Request Reply))
    (result : Except Failure (Record × Status)) :
    Prog.Always (Allowed filters) Rests (fun _ _ => True) log (match result with
      | .error _ => .ret (none : Option ℤ)
      | .ok (record, _) => .ret (relationIdOrNone py (field "id" record))) := by
  rcases result with e | ⟨record, status⟩ <;> trivial

/-- Every PATCH of `_reconcile_interface_ip` rests on a read that has shown the address free or
assigned to the interface: the read of the owners, or the lookup on the interface. -/
theorem reconcileInterfaceIp_always (ip : InterfaceIp) (log : List (Prog.Exchange Request Reply)) :
    (reconcileInterfaceIp py ip).Always (Allowed filters) Rests (fun _ _ => True) log := by
  refine ⟨trivial, ?_⟩
  intro reply hreply
  dsimp only
  rw [Prog.always_bind]
  have hrest : ∀ existing log, (∀ recordId, ((ip.target py existing).bind fun record =>
      relationIdOrNone py (field "id" record)) = some recordId → Known recordId ip.object log) →
        (reconcile (ip.call py (ip.lookup py existing))).Always (Allowed filters) Rests
          (fun _ _ => True) log := by
    intro existing log hknown
    unfold InterfaceIp.lookup
    cases hrecord : (ip.target py existing).bind fun record =>
        relationIdOrNone py (field "id" record) with
    | none => exact byInterface_always ip log
    | some recordId => exact byId_always (hknown recordId hrecord)
  cases reply with
  | error e =>
    exact (hrest [] _ (by simp [InterfaceIp.target])).mono fun log result _ =>
      done_always log result
  | ok existing =>
      refine (hrest existing _ ?_).mono fun log result _ => done_always log result
      intro recordId hrecord
      obtain ⟨record, htarget, hid⟩ := Option.bind_eq_some_iff.mp hrecord
      have hexisting : ∀ record ∈ existing, ∃ addr : IpAddress, record = addr.serialize :=
        fun record hmem => (hreply.1 rfl record hmem).imp fun _ h => h.1
      obtain ⟨addr, rfl, hmem, hassigned⟩ := target_cases hexisting htarget
      have haddr : addr.id = recordId := Option.some.inj hid
      rw [← assignedOf_serialize] at hassigned
      exact known_of_reply hmem (congrArg Json.int haddr) hassigned

theorem job_always (job : Job) (log : List (Prog.Exchange Request Reply)) :
    (job.prog py parsers maxRetries).Always (Allowed filters) Rests (fun _ _ => True) log := by
  cases job with
  | reconcileInterfaceIp ip =>
    rw [Job.prog, Prog.always_bind]
    exact (reconcileInterfaceIp_always ip log).mono fun _ _ _ => trivial
  | ensureIpAssignedToVm ipId vmId =>
    rw [Job.prog, Prog.always_bind]
    exact (ensureIpAssignedToVm_always ipId vmId log).mono fun _ _ _ => trivial
  | setPrimaryIp virtualMachine vmId primaryIpId =>
    rw [Job.prog, Prog.always_bind]
    exact (setPrimaryIp_always virtualMachine vmId primaryIpId log).mono fun _ _ _ => trivial

/-- The replies of the machine are allowed. -/
theorem respond_allowed {s : State} {q : Request} {answer : Answer} {reply : Reply q}
    {ips : List IpAddress} (h : respond filters s q answer = some (reply, ips)) :
    Allowed filters q reply := by
  cases q with
  | list path query =>
    cases answer with
    | failed e =>
      cases h
      trivial
    | served age =>
      simp only [respond] at h
      split at h
      · rename_i hpath
        obtain ⟨content, -, heq⟩ := Option.map_eq_some_iff.mp h
        cases heq
        refine ⟨?_, fun hother => absurd (hpath.symm.trans hother) (by decide)⟩
        intro _ record hrecord
        obtain ⟨ip, hip, rfl⟩ := List.mem_map.mp hrecord
        exact ⟨ip, rfl, (List.mem_filter.mp hip).2⟩
      · contradiction
    | interfaces ids =>
      simp only [respond] at h
      split at h
      · rename_i hpath
        cases h
        refine ⟨fun hother => absurd (hpath.symm.trans hother) (by decide), ?_⟩
        intro _ record hrecord
        obtain ⟨id, -, rfl⟩ := List.mem_map.mp hrecord
        exact ⟨id, rfl⟩
      · contradiction
    | stored id fields lost => contradiction
  | _ => trivial

/-- What every call is about to do rests on its reads. -/
def Inv (filters : IpFilters) (s : State) : Prop :=
  ∀ running ∈ s.calls,
    running.prog.Always (Allowed filters) Rests (fun _ _ => True) running.log

theorem start_inv (ips : List IpAddress) (past : List (List IpAddress)) (jobs : List Job) :
    Inv filters (start py parsers maxRetries ips past jobs) := by
  intro running hrunning
  obtain ⟨job, -, rfl⟩ := List.mem_map.mp hrunning
  exact job_always job []

theorem step_inv {s t : State} {l : Label} (hs : Inv filters s)
    (h : step filters s l = some t) : Inv filters t := by
  unfold step at h
  split at h
  · contradiction
  · rename_i running hrunning
    split at h
    · contradiction
    · rename_i q next hprog
      rw [Option.map_eq_some_iff] at h
      obtain ⟨⟨reply, ips⟩, hrespond, rfl⟩ := h
      have hnow := hs running (List.mem_of_getElem? hrunning)
      rw [hprog] at hnow
      intro other hother
      rcases List.mem_or_eq_of_mem_set hother with hold | rfl
      · exact hs other hold
      · exact hnow.step (respond_allowed hrespond)

/-- A PATCH that rests on reads which are up to date takes no address from another object. -/
theorem not_steals {s : State} {l : Label} (hs : Inv filters s) (hok : upToDate s l = true) :
    steals s l = false := by
  unfold steals
  unfold upToDate at hok
  cases hpending : pendingPatch s l with
  | none => rfl
  | some pending =>
    obtain ⟨log, id, payload⟩ := pending
    rw [hpending] at hok
    dsimp only at hok ⊢
    have hrests : ∃ owner, AssignsTo owner payload ∧ Known id owner log := by
      unfold pendingPatch at hpending
      split at hpending
      · rename_i log' path target payload' next hcall
        split at hpending
        · rename_i id' hid
          split at hpending
          · rename_i hpath
            cases hpending
            have hnow := hs _ (List.mem_of_getElem? hcall)
            obtain ⟨id'', owner, hid'', hassigns, hknown⟩ := hnow.1 hpath
            rw [hid] at hid''
            cases hid''
            exact ⟨owner, hassigns, hknown⟩
          · contradiction
        · contradiction
      · contradiction
    obtain ⟨owner, hassigns, hknown⟩ := hrests
    rw [List.any_eq_false]
    intro ip hip hsteals
    simp only [Bool.and_eq_true, decide_eq_true_eq] at hsteals
    obtain ⟨⟨hid, hsome⟩, hchanges⟩ := hsteals
    have hcurrent : ∀ assigned ∈ shown id log,
        ip.assigned = assigned ∨ ip.assigned = patchedAssignment payload assigned := by
      intro assigned hshown
      have := List.all_eq_true.mp hok ip hip
      rw [Bool.or_eq_true, List.all_eq_true] at this
      rcases this with hother | hall
      · simp [hid] at hother
      · simpa using hall assigned hshown
    have howner : ip.assigned = none ∨ ip.assigned = some owner := by
      rcases hknown with hfree | hown
      · rcases hcurrent _ hfree with h | h
        · exact Or.inl h
        · rw [h]
          exact hassigns.adopts
      · rcases hcurrent _ hown with h | h
        · exact Or.inr h
        · rw [h, hassigns.keeps]
          exact Or.inr rfl
    rcases howner with h | h
    · simp [h] at hsome
    · rw [h, hassigns.keeps] at hchanges
      exact hchanges rfl

/-- No run of the calls, in whatever order they take turns and whichever requests fail, takes an
address from an object, as long as the reads behind each PATCH of an address are up to date. -/
theorem never_steals (py : Python) (parsers : Parsers) (maxRetries : ℕ) (filters : IpFilters)
    (ips : List IpAddress) (past : List (List IpAddress)) (jobs : List Job) (labels : List Label)
    (h : Runs.Guarded (step filters) (fun s l => upToDate s l = true)
      (start py parsers maxRetries ips past jobs) labels) :
    Runs.Guarded (step filters) (fun s l => steals s l = false)
      (start py parsers maxRetries ips past jobs) labels :=
  Runs.Guarded.mono_of_invariant (Inv filters) (fun _ _ _ hs hstep => step_inv hs hstep)
    (fun _ _ hs hok => not_steals hs hok) (start_inv ips past jobs) h

/-- Filters that read a query as NetBox does. -/
def exactFilters : IpFilters where
  admits q ip :=
    (match Dict.get "id" q with
      | some (.int id) => decide (ip.id = id)
      | _ => true) &&
    ([InterfaceKind.vmInterface, .nodeInterface].all fun kind =>
      match Dict.get kind.lookupField q with
      | some (.int id) => decide (ip.assigned = some (kind.objectType, id))
      | _ => true)
  byId q ip id hget hadmits := by
    rw [hget, Bool.and_eq_true] at hadmits
    exact of_decide_eq_true hadmits.1
  byInterface kind q ip id hget hadmits := by
    rw [Bool.and_eq_true, List.all_eq_true] at hadmits
    have hkind := hadmits.2 kind (by cases kind <;> simp)
    rw [hget] at hkind
    exact of_decide_eq_true hkind

def noParsers : Parsers := ⟨fun _ => none, fun _ => none, fun _ => none⟩

/-- An address that is assigned to nothing, and the job to give it to a VM interface. -/
def freeIp : IpAddress := ⟨5, none, [("address", .str "10.0.0.9/24")]⟩

def ipJob (interfaceId : ℤ) : Job :=
  .reconcileInterfaceIp ⟨"10.0.0.9/24", .vmInterface, interfaceId, none, .arr [], "now"⟩

/-- One call alone reads the owners, reads the address again, and adopts it. -/
theorem never_steals_adoption :
    Runs.Guarded (step exactFilters) (fun s l => upToDate s l = true)
      (start Python.ascii noParsers 0 [freeIp] [] [ipJob 1])
      [⟨0, .served 0⟩, ⟨0, .served 0⟩, ⟨0, .stored 5 freeIp.fields none⟩] ∧
    Runs.Guarded (step exactFilters) (fun s l => steals s l = false)
      (start Python.ascii noParsers 0 [freeIp] [] [ipJob 1])
      [⟨0, .served 0⟩, ⟨0, .served 0⟩, ⟨0, .stored 5 freeIp.fields none⟩] := by
  have hfresh : Runs.Guarded (step exactFilters) (fun s l => upToDate s l = true)
      (start Python.ascii noParsers 0 [freeIp] [] [ipJob 1])
      [⟨0, .served 0⟩, ⟨0, .served 0⟩, ⟨0, .stored 5 freeIp.fields none⟩] := by decide +kernel
  exact ⟨hfresh, never_steals _ _ _ _ _ _ _ _ hfresh⟩

/-- Two calls for different interfaces read the address as free; the first adopts it, and the second
one takes it away. -/
theorem address_taken : ¬ Runs.Guarded (step exactFilters) (fun s l => steals s l = false)
    (start Python.ascii noParsers 0 [freeIp] [] [ipJob 1, ipJob 2])
    [⟨0, .served 0⟩, ⟨1, .served 0⟩, ⟨0, .served 0⟩, ⟨0, .stored 5 freeIp.fields none⟩,
      ⟨1, .served 0⟩, ⟨1, .stored 5 freeIp.fields none⟩] := by
  decide +kernel

end ProxboxApi.IpOwnership
