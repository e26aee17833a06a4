import ProxboxApi.Outcomes
import ProxboxApi.VmInterfaces

/-! When the reconciliation of a VM's interfaces stays inside the VM, over every content of NetBox,
every failure and every duplicate error. -/

namespace ProxboxApi.VmInterfaces

open Requests Reconcile SyncSchemas
open VmQueue (field)

variable (py : Python)

theorem sanitizedName_ne (interfaceName fallback : String) :
    sanitizedName interfaceName fallback ≠ "" := by
  unfold sanitizedName
  split
  · assumption
  · split
    · assumption
    · decide

/-- No name of an interface is blank, so its lookup by name is never dropped. -/
theorem normalizeVmInterfaceName_ne (interfaceName fallback : String) :
    normalizeVmInterfaceName interfaceName fallback ≠ "" := by
  intro h
  have hempty : (sanitizedName interfaceName fallback).toList.take nameMaxLength = [] := by
    have := congrArg String.toList h
    simpa [normalizeVmInterfaceName] using this
  have hnil : (sanitizedName interfaceName fallback).toList = [] := by
    rcases List.take_eq_nil_iff.mp hempty with h | h
    · exact absurd h (by decide)
    · exact h
  exact sanitizedName_ne interfaceName fallback (String.toList_eq_nil_iff.mp hnil)

theorem tagRef_isSome {tag : Json.Fields} {slug : String} (hslug : field "slug" tag = .str slug)
    (hne : Text.strip slug ≠ "") : (tagRef py tag).isSome = true := by
  simp [tagRef, hslug, Vmid.textOrNone, Json.isNull, Python.str, hne]

theorem tagsField_isSome {payload : Json.Fields} {tags : Tags}
    (h : field "tags" payload = tags.json) : (tagsField py payload).isSome = true := by
  unfold tagsField
  rw [h]
  simp only [Tags.json, VmQueue.tagItems, Option.bind_eq_bind, Option.bind_some]
  apply Outcomes.mapM_isSome
  intro tag htag
  rw [List.mem_insertionSort, List.mem_filterMap] at htag
  obtain ⟨item, hitem, hfields⟩ := htag
  obtain ⟨ref, href, rfl⟩ := List.mem_map.mp hitem
  simp only [TagRef.dump, tagFields, Option.some.injEq] at hfields
  subst hfields
  have hslug : field "slug" (VmQueue.optionalField "name" (ref.name.map .str) ++
      [("slug", .str ref.slug)] ++ VmQueue.optionalField "color" (ref.color.map .str)) =
        .str ref.slug := by
    cases ref.name <;> rfl
  exact tagRef_isSome py hslug (tags.2 ref href)

/-- A payload that the schema accepts, with what it dumps of the VM and the name. -/
theorem dumpVmInterface_some {payload : Json.Fields} (tags : Tags) {vmId : ℤ} {name : String}
    (hkeys : ∀ kv ∈ payload, kv.1 ∈ vmInterfaceFields)
    (hvm : VmQueue.laxInt py (relationId (field "virtual_machine" payload)) = some vmId)
    (hname : field "name" payload = .str name)
    (henabled : (optionalBool (field "enabled" payload)).isSome = true)
    (hdescription : (VmQueue.descriptionField (field "description" payload)).isSome = true)
    (hbridge : (optionalInt py (field "bridge" payload)).isSome = true)
    (hvlan : (optionalInt py (field "untagged_vlan" payload)).isSome = true)
    (htags : field "tags" payload = tags.json)
    (hcustom : (VmQueue.customFieldsField payload).isSome = true) :
    ∃ s : VmInterfaceState, dumpVmInterface py payload = some s.dump ∧
      s.virtualMachine = vmId ∧ s.name = name := by
  obtain ⟨enabled, henabled⟩ := Option.isSome_iff_exists.mp henabled
  obtain ⟨description, hdescription⟩ := Option.isSome_iff_exists.mp hdescription
  obtain ⟨bridge, hbridge⟩ := Option.isSome_iff_exists.mp hbridge
  obtain ⟨vlan, hvlan⟩ := Option.isSome_iff_exists.mp hvlan
  obtain ⟨refs, hrefs⟩ := Option.isSome_iff_exists.mp (tagsField_isSome py htags)
  obtain ⟨custom, hcustom⟩ := Option.isSome_iff_exists.mp hcustom
  have hguard : payload.all (fun kv => decide (kv.1 ∈ vmInterfaceFields)) = true := by
    rw [List.all_eq_true]
    intro kv hkv
    exact decide_eq_true (hkeys kv hkv)
  simp only [dumpVmInterface, VmInterfaceState.validate, hguard, guard, requiredInt, hvm, hname,
    VmQueue.nameField, henabled, hdescription, hbridge, hvlan, hrefs, hcustom, if_true,
    Option.bind_eq_bind, Option.pure_def, Option.bind_some, Option.map_some, Option.some.injEq]
  exact ⟨_, rfl, rfl, rfl⟩

theorem keys_dump (s : VmInterfaceState) : (Dict.keys s.dump).Sublist vmInterfaceFields := by
  have hopt := VmQueue.keys_optionalField
  have hsplit : vmInterfaceFields = ["virtual_machine", "name"] ++ ["enabled"] ++ ["type"] ++
      ["description"] ++ ["bridge"] ++ ["untagged_vlan"] ++ ["mode"] ++
      ["tags", "custom_fields"] := rfl
  rw [hsplit]
  simp only [VmInterfaceState.dump, Dict.keys, List.map_append]
  apply List.Sublist.append _ (List.Sublist.refl _)
  exact ((((((List.Sublist.refl _).append (hopt _ _)).append (hopt _ _)).append
    (hopt _ _)).append (hopt _ _)).append (hopt _ _)).append (hopt _ _)

/-- The two callers, by their lookups and payloads. -/
structure InterfacePayload (vmId : ℤ) (net : Network) (lookup payload : Json.Fields) : Prop where
  lookup : lookup = [("name", Json.str net.name), ("virtual_machine_id", Json.int vmId)] ∨
    lookup = [("virtual_machine_id", Json.int vmId), ("name", Json.str net.name)]
  payload : payload = [("name", Json.str net.name)] ++ net.settings.fields ++
      [("virtual_machine", Json.int vmId)] ∨
    payload = [("virtual_machine", Json.int vmId), ("name", Json.str net.name)] ++
      net.settings.fields

/-- The payload of a caller is valid. -/
theorem payload_valid {vmId : ℤ} {net : Network} {lookup payload : Json.Fields}
    (h : InterfacePayload vmId net lookup payload) :
    ∃ s : VmInterfaceState, dumpVmInterface py payload = some s.dump ∧
      s.virtualMachine = vmId ∧ s.name = net.name := by
  have hvlan : ∀ vlan : Option ℤ,
      (optionalInt py ((vlan.map Json.int).getD .null)).isSome = true := by
    intro vlan
    cases vlan <;> rfl
  obtain ⟨resolvedName, interfaceName, vlan, tags, customFields⟩ := net
  obtain ⟨-, rfl | rfl⟩ := h
  · cases customFields
    all_goals
      refine dumpVmInterface_some py tags ?_ rfl rfl rfl rfl rfl (hvlan vlan) rfl rfl
      simp [Settings.fields, VmQueue.optionalField, vmInterfaceFields]
  · cases customFields
    all_goals
      refine dumpVmInterface_some py tags ?_ rfl rfl rfl rfl rfl (hvlan vlan) rfl rfl
      simp [Settings.fields, VmQueue.optionalField, vmInterfaceFields]

theorem current_serialize (i : Interface) (lookup payload : Json.Fields) :
    ∃ s : VmInterfaceState, (interfaceCall py lookup payload).current i.serialize = some s.dump ∧
      s.virtualMachine = i.virtualMachine ∧ s.name = i.name := by
  have hrelation : ∀ id : Option ℤ,
      (optionalInt py ((id.map nested).getD .null)).isSome = true := by
    intro id
    cases id <;> rfl
  refine dumpVmInterface_some py i.tags ?_ rfl rfl rfl rfl ?_ ?_ rfl rfl
  · simp [interfaceCall, currentNormalizer, vmInterfaceFields]
  · exact hrelation i.bridge
  · exact hrelation i.untaggedVlan

/-- The lookup comes first, and then the bare name. -/
theorem candidates_eq {vmId : ℤ} {net : Network} {lookup payload : Json.Fields}
    (h : InterfacePayload vmId net lookup payload) {s : VmInterfaceState} (hs : s.name = net.name) :
    (interfaceCall py lookup payload).candidates s.dump =
      some [lookup, [("name", .str net.name)]] := by
  have hne : net.name ≠ "" := normalizeVmInterfaceName_ne _ _
  have hname : RestCreate.field "name" s.dump = .str net.name := congrArg Json.str hs
  have hother : ∀ key ∉ vmInterfaceFields, RestCreate.field key s.dump = .null :=
    fun key hkey => VmQueue.field_eq_null (keys_dump _) hkey
  have hslug := hother "slug" (by decide)
  have hmodel := hother "model" (by decide)
  have hsite := hother "site" (by decide)
  have hmanufacturer := hother "manufacturer" (by decide)
  rcases h.lookup with rfl | rfl
  all_goals
    simp [Call.candidates, interfaceCall, RestCreate.candidateReuseLookups,
      RestCreate.addCandidate, hname, hslug, hmodel, hsite, hmanufacturer, Json.blank,
      Json.hashable, Json.pyEq, hne]

variable {py} {filters : Filters} {contents : Set (List Interface)} {vmId : ℤ} {net : Network}
  {lookup payload : Json.Fields} {names : List String}

theorem admits_lookup (h : InterfacePayload vmId net lookup payload) (i : Interface) :
    filters.admits ((interfaceCall py lookup payload).queryOf lookup) i = true ↔
      i.name = net.name ∧ i.virtualMachine = vmId := by
  rcases h.lookup with rfl | rfl
  all_goals
    rw [filters.exact _ _ (by
      simp [Call.queryOf, interfaceCall, RestCreate.withLimit, Dict.set, Dict.keys, Dict.get])]
    simp [Call.queryOf, interfaceCall, RestCreate.withLimit, Dict.set, Dict.get, eq_comm]

theorem admits_name (i : Interface) :
    filters.admits ((interfaceCall py lookup payload).queryOf [("name", .str net.name)]) i = true ↔
      i.name = net.name := by
  rw [filters.exact _ _ (by
    simp [Call.queryOf, interfaceCall, RestCreate.withLimit, Dict.set, Dict.keys, Dict.get])]
  simp [Call.queryOf, interfaceCall, RestCreate.withLimit, Dict.set, Dict.get, eq_comm]

/-- The record of an interface of the VM with that name. -/
def Own (vmId : ℤ) (name : String) (record : Record) : Prop :=
  ∃ i : Interface, record = i.serialize ∧ i.name = name ∧ i.virtualMachine = vmId

/-- No other VM's interface is ever the first of that name. -/
def FirstOwn (contents : Set (List Interface)) (vmId : ℤ) (name : String) : Prop :=
  ∀ interfaces ∈ contents, ∀ i, interfaces.find? (fun i => i.name = name) = some i →
    i.virtualMachine = vmId

theorem ownedBy_serialize {i : Interface} :
    (relationId (field "virtual_machine" i.serialize)).pyEq (.int vmId) = true ↔
      i.virtualMachine = vmId := by
  have hrelation : relationId (field "virtual_machine" i.serialize) = .int i.virtualMachine := rfl
  rw [hrelation, Json.pyEq, Json.number, beq_iff_eq, Option.some.injEq, Rat.intCast_inj]
  exact eq_comm

theorem Own.owns {name : String} {record : Record} (h : Own vmId name record)
    (hname : name ∈ names) : Owns vmId names record := by
  obtain ⟨i, rfl, rfl, rfl⟩ := h
  exact ⟨ownedBy_serialize.mpr rfl, _, hname, rfl⟩

/-- The first record of an answer is the first interface that the query admits. -/
theorem find_of_answer {admits : Interface → Bool} {interfaces : List Interface} {record : Record}
    {records : List Record}
    (h : record :: records = (interfaces.filter admits).map Interface.serialize) :
    ∃ i, interfaces.find? admits = some i ∧ record = i.serialize := by
  rw [← List.head?_filter]
  cases hfilter : interfaces.filter admits with
  | nil => simp [hfilter] at h
  | cons i rest =>
    rw [hfilter, List.map_cons, List.cons.injEq] at h
    exact ⟨i, rfl, h.1⟩

theorem find_name (interfaces : List Interface) :
    interfaces.find? (filters.admits
      ((interfaceCall py lookup payload).queryOf [("name", .str net.name)])) =
        interfaces.find? fun i => i.name = net.name := by
  have hadmits : filters.admits
      ((interfaceCall py lookup payload).queryOf [("name", .str net.name)]) =
        fun i => decide (i.name = net.name) := by
    funext i
    exact Bool.eq_iff_iff.mpr ((admits_name i).trans decide_eq_true_iff.symm)
  rw [hadmits]

/-- What is found is an interface of the VM, and if nothing is found, then no other VM's interface
shadows it. -/
theorem findExisting_always (h : InterfacePayload vmId net lookup payload) {s : VmInterfaceState}
    (hs : s.name = net.name) (hsafe : Unshadowed contents vmId net.name)
    (log : List (Prog.Exchange Request Reply)) :
    (findExisting (interfaceCall py lookup payload) s.dump).Always (Answers filters contents)
      (fun _ => Inside vmId names) (fun _ found =>
        (∀ record, found = .ok (some record) → Own vmId net.name record) ∧
          (found = .ok none → FirstOwn contents vmId net.name)) log := by
  have hmissed : ∀ interfaces ∈ contents, [] = (interfaces.filter (filters.admits
      ((interfaceCall py lookup payload).queryOf lookup))).map Interface.serialize →
        FirstOwn contents vmId net.name := by
    intro interfaces hmem heq
    rcases hsafe with hhas | hfirst
    · obtain ⟨i, hi, hown⟩ := hhas interfaces hmem
      have hnil : interfaces.filter
          (filters.admits ((interfaceCall py lookup payload).queryOf lookup)) = [] := by
        simpa using heq.symm
      exact absurd ((admits_lookup h i).mpr hown) (List.filter_eq_nil_iff.mp hnil i hi)
    · exact hfirst
  unfold findExisting
  rw [candidates_eq py h hs]
  refine findFirst_cons trivial ?_ ?_ ?_
  · intro e hchoice
    have hchoice : e.invalidChoice = false := hchoice
    simp [hchoice]
  · rintro record records ⟨interfaces, -, heq⟩
    obtain ⟨i, hfind, rfl⟩ := find_of_answer heq
    have hi := (admits_lookup h i).mp (List.find?_some hfind)
    exact ⟨fun r hr => ⟨i, by simpa using hr.symm, hi⟩, by simp⟩
  · rintro ⟨interfaces, hmem, heq⟩
    have hfirst := hmissed interfaces hmem heq
    refine findFirst_cons trivial ?_ ?_ ?_
    · intro e hchoice
      have hchoice : e.invalidChoice = false := hchoice
      simp [hchoice]
    · rintro record records ⟨interfaces, hmem, heq⟩
      obtain ⟨i, hfind, rfl⟩ := find_of_answer heq
      rw [find_name] at hfind
      have hname : i.name = net.name := by simpa using List.find?_some hfind
      exact ⟨fun r hr => ⟨i, by simpa using hr.symm, hname, hfirst _ hmem i hfind⟩, by simp⟩
    · intro _
      exact ⟨by simp, fun _ => hfirst⟩

/-- A scan tells interfaces by their names alone: no record has the field
`virtual_machine_id` of the lookup. -/
theorem matchesAny_serialize (h : InterfacePayload vmId net lookup payload) (i : Interface) :
    (interfaceCall py lookup payload).matchesAny [lookup, [("name", .str net.name)]]
      i.serialize = decide (i.name = net.name) := by
  obtain ⟨t, hcurrent, -, hname⟩ := current_serialize py i lookup payload
  have hfield : field "name" t.dump = .str i.name := congrArg Json.str hname
  have habsent : field "virtual_machine_id" t.dump = .null :=
    VmQueue.field_eq_null (keys_dump t) (by decide)
  unfold Call.matchesAny
  rw [hcurrent]
  have hid : (Json.null).pyEq (.int vmId) = false := rfl
  rcases h.lookup with rfl | rfl
  all_goals
    simp only [List.any_cons, List.any_nil, List.all_cons, List.all_nil, hfield, habsent, hid,
      Bool.and_false, Bool.false_and, Bool.and_true, Bool.or_false, Bool.false_or, Json.pyEq]
    rfl

theorem scanExisting_always (h : InterfacePayload vmId net lookup payload) {s : VmInterfaceState}
    (hs : s.name = net.name) (hfirst : FirstOwn contents vmId net.name)
    (log : List (Prog.Exchange Request Reply)) :
    (scanExisting (interfaceCall py lookup payload) s.dump).Always (Answers filters contents)
      (fun _ => Inside vmId names)
      (fun _ found => ∀ record, found = .ok (some record) → Own vmId net.name record) log := by
  refine scanExisting_rule (candidates_eq py h hs) trivial ?_ ?_
  · intro e _ record hrecord
    contradiction
  · rintro records ⟨interfaces, hmem, rfl⟩ record hrecord
    rw [Except.ok.injEq, List.find?_map, Option.map_eq_some_iff] at hrecord
    obtain ⟨i, hfind, rfl⟩ := hrecord
    have hmatches : (interfaceCall py lookup payload).matchesAny
        [lookup, [("name", .str net.name)]] ∘ Interface.serialize =
          fun i => decide (i.name = net.name) := funext fun i => matchesAny_serialize h i
    rw [hmatches] at hfind
    have hname : i.name = net.name := by simpa using List.find?_some hfind
    exact ⟨i, rfl, hname, hfirst _ hmem i hfind⟩

theorem Own.reconcile_always {name : String} {existing : Record} (h : Own vmId name existing)
    (hname : name ∈ names) {c : Call} {desired : Record}
    (log : List (Prog.Exchange Request Reply)) :
    (reconcileRecord c desired existing).Always (Answers filters contents)
      (fun _ => Inside vmId names) (fun _ _ => True) log :=
  reconcileRecord_rule fun _ _ => h.owns hname

/-- Where no other VM's interface shadows the name, a call stays inside its VM, its refetches and
scans after a duplicate error, too. -/
theorem always_of_unshadowed (h : InterfacePayload vmId net lookup payload)
    (hname : net.name ∈ names) (hsafe : Unshadowed contents vmId net.name)
    (log : List (Prog.Exchange Request Reply)) :
    (reconcile (interfaceCall py lookup payload)).Always (Answers filters contents)
      (fun _ => Inside vmId names) (fun _ _ => True) log := by
  obtain ⟨s, hdump, hvm, hs⟩ := payload_valid py h
  have hsearches : Searches (interfaceCall py lookup payload) (Answers filters contents)
      (fun _ => Inside vmId names) s.dump (fun _ => True)
      (fun _ => FirstOwn contents vmId net.name) := by
    refine ⟨?_, ?_, ?_⟩
    · intro log _
      refine (findExisting_always h hs hsafe log).mono ?_
      rintro log found ⟨hown, hfirst⟩
      exact ⟨fun existing heq => (hown existing heq).reconcile_always hname log, hfirst⟩
    · intro log hfirst
      refine (scanExisting_always h hs hfirst log).mono ?_
      intro log found hown
      exact ⟨fun existing heq => (hown existing heq).reconcile_always hname log, fun _ => trivial⟩
    · intro log _
      refine ⟨⟨?_, net.name, hname, congrArg Json.str hs⟩, fun _ => trivial⟩
      have hfield : field "virtual_machine" s.dump = .int vmId := congrArg Json.int hvm
      simp [hfield, relationId, Json.pyEq, Json.number]
  exact hsearches.reconcile hdump rfl trivial

/-- An interface of another VM would be patched: its VM differs from the one that is wanted. -/
theorem patches_foreign {i : Interface} {s : VmInterfaceState} (hvm : s.virtualMachine = vmId)
    (hforeign : i.virtualMachine ≠ vmId) {log : List (Prog.Exchange Request Reply)}
    {post : List (Prog.Exchange Request Reply) → Except Failure (Record × Status) → Prop}
    {good : List (Prog.Exchange Request Reply) → Request → Prop}
    (h : (reconcileRecord (interfaceCall py lookup payload) s.dump i.serialize).Always
      (Answers filters contents) good post log) :
    ∃ path patch, good log (.patch path i.serialize patch) := by
  obtain ⟨t, hcurrent, htvm, -⟩ := current_serialize py i lookup payload
  have hdiffers : (Json.int i.virtualMachine).pyEq (.int vmId) = false := by
    simpa [Json.pyEq, Json.number] using fun heq => hforeign heq.symm
  have hmem : ("virtual_machine", Json.int vmId) ∈
      (interfaceCall py lookup payload).patchPayload s.dump t.dump := by
    refine List.mem_append_left _ (List.mem_filter.mpr ⟨?_, ?_⟩)
    · rw [← hvm]
      exact List.mem_cons_self ..
    · have hfield : field "virtual_machine" t.dump = .int i.virtualMachine :=
        congrArg Json.int htvm
      simp [hfield, hdiffers]
  have hne : ((interfaceCall py lookup payload).patchPayload s.dump t.dump).isEmpty = false := by
    rw [List.isEmpty_eq_false_iff]
    exact List.ne_nil_of_mem hmem
  unfold reconcileRecord at h
  rw [hcurrent] at h
  dsimp only at h
  rw [hne, if_neg (by simp), Prog.always_bind] at h
  exact ⟨_, _, h.1⟩

/-- Where the VM lacks the interface in one content and another VM's is the first of its name in
one, a run patches that one. -/
theorem unshadowed_of_always (h : InterfacePayload vmId net lookup payload)
    {log : List (Prog.Exchange Request Reply)}
    {post : List (Prog.Exchange Request Reply) → Except Failure (Record × Status) → Prop}
    (halways : (reconcile (interfaceCall py lookup payload)).Always (Answers filters contents)
      (fun _ => Inside vmId names) post log) : Unshadowed contents vmId net.name := by
  by_contra hnot
  unfold Unshadowed at hnot
  push Not at hnot
  obtain ⟨⟨lacking, hlacking, hnone⟩, shadowing, hshadowing, i, hfind, hforeign⟩ := hnot
  obtain ⟨s, hdump, hvm, hs⟩ := payload_valid py h
  have hmiss : [] = (lacking.filter (filters.admits
      ((interfaceCall py lookup payload).queryOf lookup))).map Interface.serialize := by
    have hnil : lacking.filter
        (filters.admits ((interfaceCall py lookup payload).queryOf lookup)) = [] := by
      rw [List.filter_eq_nil_iff]
      intro i hi hadmits
      obtain ⟨hname, hown⟩ := (admits_lookup h i).mp hadmits
      exact hnone i hi hname hown
    rw [hnil, List.map_nil]
  obtain ⟨records, hrecords⟩ : ∃ records, i.serialize :: records =
      (shadowing.filter (filters.admits ((interfaceCall py lookup payload).queryOf
        [("name", .str net.name)]))).map Interface.serialize := by
    have hfirst : shadowing.find? (filters.admits ((interfaceCall py lookup payload).queryOf
        [("name", .str net.name)])) = some i := (find_name shadowing).trans hfind
    rw [← List.head?_filter] at hfirst
    obtain ⟨rest, hrest⟩ := List.head?_eq_some_iff.mp hfirst
    exact ⟨rest.map Interface.serialize, by rw [hrest, List.map_cons]⟩
  rw [reconcile_eq hdump rfl, Prog.always_bind, findExisting, candidates_eq py h hs] at halways
  -- The lookup is answered where the VM lacks the interface, and the bare name where it is another's.
  have hname := halways.2 (.ok []) ⟨lacking, hlacking, hmiss⟩
  have hfound := hname.2 (.ok (i.serialize :: records)) ⟨shadowing, hshadowing, hrecords⟩
  obtain ⟨path, patch, howns, -⟩ := patches_foreign hvm hforeign hfound
  exact hforeign (ownedBy_serialize.mp howns)

/-- A found interface can be reconciled. -/
theorem reconcileRecord_ok {i : Interface} {s : VmInterfaceState}
    {log : List (Prog.Exchange Request Reply)}
    {post : List (Prog.Exchange Request Reply) → Except Failure (Record × Status) → Prop}
    {good : List (Prog.Exchange Request Reply) → Request → Prop}
    (h : (reconcileRecord (interfaceCall py lookup payload) s.dump i.serialize).Always
      (Answers filters contents) good post log) : ∃ log result, post log (.ok result) := by
  obtain ⟨t, hcurrent, -, -⟩ := current_serialize py i lookup payload
  unfold reconcileRecord at h
  rw [hcurrent] at h
  dsimp only at h
  split at h
  · exact ⟨_, _, h⟩
  · rw [Prog.always_bind] at h
    exact ⟨_, _, h.2 (.ok []) trivial⟩

/-- A call can succeed on any content. -/
theorem reconcile_ok (h : InterfacePayload vmId net lookup payload) {interfaces : List Interface}
    (hmem : interfaces ∈ contents) {log : List (Prog.Exchange Request Reply)}
    {post : List (Prog.Exchange Request Reply) → Except Failure (Record × Status) → Prop}
    {good : List (Prog.Exchange Request Reply) → Request → Prop}
    (halways : (reconcile (interfaceCall py lookup payload)).Always (Answers filters contents)
      good post log) : ∃ log result, post log (.ok result) := by
  obtain ⟨s, hdump, -, hs⟩ := payload_valid py h
  rw [reconcile_eq hdump rfl, Prog.always_bind, findExisting, candidates_eq py h hs] at halways
  cases hlookup : interfaces.filter
      (filters.admits ((interfaceCall py lookup payload).queryOf lookup)) with
  | cons i rest =>
    exact reconcileRecord_ok (halways.2 (.ok (i.serialize :: rest.map Interface.serialize))
      ⟨interfaces, hmem, by rw [hlookup, List.map_cons]⟩)
  | nil =>
    have hname := halways.2 (.ok []) ⟨interfaces, hmem, by rw [hlookup, List.map_nil]⟩
    cases hbare : interfaces.filter (filters.admits
        ((interfaceCall py lookup payload).queryOf [("name", .str net.name)])) with
    | cons i rest =>
      exact reconcileRecord_ok (hname.2 (.ok (i.serialize :: rest.map Interface.serialize))
        ⟨interfaces, hmem, by rw [hbare, List.map_cons]⟩)
    | nil =>
      have hcreate := hname.2 (.ok []) ⟨interfaces, hmem, by rw [hbare, List.map_nil]⟩
      exact ⟨_, _, hcreate.2 (.ok []) trivial⟩

theorem loop_always_iff (nets : List Network) (hnames : ∀ net ∈ nets, net.name ∈ names)
    (log : List (Prog.Exchange Request Reply)) :
    (syncVmInterfaces py vmId nets).Always (Answers filters contents)
      (fun _ => Inside vmId names) (fun _ _ => True) log ↔
        ∀ net ∈ nets, Unshadowed contents vmId net.name := by
  induction nets generalizing log with
  | nil => simp [syncVmInterfaces, Prog.Always]
  | cons net nets ih =>
    rw [List.forall_mem_cons] at hnames ⊢
    have hcall : InterfacePayload vmId net
        [("virtual_machine_id", Json.int vmId), ("name", Json.str net.name)]
        ([("virtual_machine", Json.int vmId), ("name", Json.str net.name)] ++
          net.settings.fields) :=
      ⟨Or.inr rfl, Or.inr rfl⟩
    rw [syncVmInterfaces, Prog.always_bind]
    constructor
    · intro h
      refine ⟨unshadowed_of_always hcall h, ?_⟩
      rcases Set.eq_empty_or_nonempty contents with rfl | ⟨interfaces, hmem⟩
      · exact fun net _ => Or.inl fun interfaces hnone => absurd hnone (Set.notMem_empty _)
      · obtain ⟨log, ⟨record, status⟩, hrest⟩ := reconcile_ok hcall hmem h
        dsimp only at hrest
        rw [Prog.always_bind] at hrest
        exact (ih hnames.2 log).mp (hrest.mono fun _ _ _ => trivial)
    · rintro ⟨hnet, hnets⟩
      refine (always_of_unshadowed hcall hnames.1 hnet log).mono ?_
      rintro log (e | ⟨record, status⟩) -
      · trivial
      · dsimp only
        rw [Prog.always_bind]
        refine ((ih hnames.2 log).mpr hnets).mono ?_
        rintro log (e | records) - <;> trivial

/-- In a NetBox that does not change, the VM has the interface already, or no VM has one of its
name. -/
theorem unshadowed_singleton_iff {interfaces : List Interface} {name : String} :
    Unshadowed {interfaces} vmId name ↔
      (∃ i ∈ interfaces, i.name = name ∧ i.virtualMachine = vmId) ∨
        ∀ i ∈ interfaces, i.name ≠ name := by
  simp only [Unshadowed, Set.mem_singleton_iff, forall_eq]
  constructor
  · rintro (hown | hfirst)
    · exact Or.inl hown
    · cases hfind : interfaces.find? (fun i => i.name = name) with
      | none =>
        right
        simpa using hfind
      | some i =>
        have hname : i.name = name := by simpa using List.find?_some hfind
        exact Or.inl ⟨i, List.mem_of_find?_eq_some hfind, hname, hfirst i hfind⟩
  · rintro (hown | hnone)
    · exact Or.inl hown
    · refine Or.inr fun i hfind => absurd ?_ (hnone i (List.mem_of_find?_eq_some hfind))
      simpa using List.find?_some hfind

/-- The reconciliation of interfaces stays inside its VM, whatever NetBox answers and whichever
requests fail or report a duplicate, exactly if no name is shadowed. -/
theorem staysInside_iff (py : Python) (filters : Filters) (contents : Set (List Interface))
    (vmId : ℤ) :
    (∀ net, StaysInside filters contents vmId [net.name]
        (reconcileVmInterfaceRecord py vmId net) ↔ Unshadowed contents vmId net.name) ∧
      ∀ nets, StaysInside filters contents vmId (nets.map Network.name)
        (syncVmInterfaces py vmId nets) ↔ ∀ net ∈ nets, Unshadowed contents vmId net.name := by
  constructor
  · intro net
    have hcall : InterfacePayload vmId net
        [("name", Json.str net.name), ("virtual_machine_id", Json.int vmId)]
        ([("name", Json.str net.name)] ++ net.settings.fields ++
          [("virtual_machine", Json.int vmId)]) :=
      ⟨Or.inl rfl, Or.inl rfl⟩
    exact ⟨fun h => unshadowed_of_always hcall h,
      fun h => always_of_unshadowed hcall (List.mem_singleton_self _) h _⟩
  · intro nets
    exact loop_always_iff nets (fun net hnet => List.mem_map_of_mem hnet) []

/-- Filters that read a query as NetBox does. -/
def exactFilters : Filters where
  admits q i :=
    (match Dict.get "name" q with
      | none => true
      | some (.str name) => decide (name = i.name)
      | some _ => false) &&
    (match Dict.get "virtual_machine_id" q with
      | none => true
      | some (.int id) => decide (id = i.virtualMachine)
      | some _ => false)
  exact q i _ := by
    rw [Bool.and_eq_true]
    refine and_congr ?_ ?_
    · cases Dict.get "name" q with
      | none => simp
      | some x => cases x <;> simp
    · cases Dict.get "virtual_machine_id" q with
      | none => simp
      | some x => cases x <;> simp

/-- `net0` of VM 8. -/
def otherNet0 : Interface :=
  ⟨1, "net0", 8, true, "", none, none, none, ⟨[], by simp⟩, []⟩

/-- `net0` of a VM without interfaces. -/
def newNet0 : Network := ⟨"net0", "net0", ⟨none, ⟨[], by simp⟩, none⟩⟩

/-- VM 7 has no interface yet, and NetBox has a `net0` of VM 8: this one is patched. -/
theorem another_vms_net0_patched :
    ¬ StaysInside exactFilters {[otherNet0]} 7 [newNet0.name]
      (reconcileVmInterfaceRecord Python.ascii 7 newNet0) := by
  intro h
  unfold StaysInside reconcileVmInterfaceRecord at h
  have hcall : InterfacePayload 7 newNet0 _ _ := ⟨Or.inl rfl, Or.inl rfl⟩
  have hsafe := unshadowed_of_always hcall h
  rcases hsafe with hhas | hfirst
  · obtain ⟨i, hi, -, hvm⟩ := hhas _ rfl
    rw [List.mem_singleton] at hi
    subst hi
    exact absurd hvm (by decide)
  · exact absurd (hfirst _ rfl otherNet0 rfl) (by decide)

end ProxboxApi.VmInterfaces
