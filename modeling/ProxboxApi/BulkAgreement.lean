import ProxboxApi.BulkActions

/-! A bulk reconciliation and the reconciliation of its payloads one after another are the same
upserts by lookup key, the new records first. -/

namespace ProxboxApi.BulkReconcile

open Requests Reconcile
open RestCreate (Query)
open VmQueue (field)

variable (b : BulkCall) (store : Store)

theorem batches_flatten {α : Type} {size : ℕ} (hsize : 0 < size) (l : List α) :
    (batches size l).flatten = l := by
  have hslices : ∀ n, ((List.range n).map fun i => (l.drop (i * size)).take size).flatten =
      l.take (n * size) := by
    intro n
    induction n with
    | zero => simp
    | succ n ih =>
      rw [List.range_succ, List.map_append, List.flatten_append, ih, Nat.succ_mul, List.take_add]
      simp
  rw [batches, hslices]
  apply List.take_of_length_le
  have hdiv := Nat.div_add_mod (l.length + size - 1) size
  have hmod := Nat.mod_lt (l.length + size - 1) hsize
  rw [Nat.mul_comm] at hdiv
  omega

/-- What a call relies on: the schema, the filters, entries that are told apart by their lookups,
and the fallback. -/
structure BulkCall.Fits (store : Store) (failsCreate : ℕ → Bool) (entries : List Entry) :
    Prop where
  idempotent : Idempotent b store
  filters : Filters b store
  distinct : b.Distinct entries
  apart : Apart entries
  fallback : b.fallbackToIndividual = true
  strict : b.strictLookup = true ∨ ∀ n, failsCreate n = false

section Bulk

variable {b store} {failsCreate failsPatch : ℕ → Bool} {entries : List Entry} {db : Db}

theorem BulkCall.Fits.upsertAll_rows (h : b.Fits store failsCreate entries)
    {t : Upsert.Table Stored} {es : List Entry} (hnew : b.New store entries t es) :
    ∀ s ∈ t.rows, s ∈ ((b.spec store).upsertAll t es).rows := by
  intro s hs
  obtain ⟨rows, hrows, _⟩ := @foldl_create_rows store t (es.map Entry.desired)
  rw [← hnew.foldl_create h.idempotent h.distinct.sound, hrows]
  exact List.mem_append_left _ hs

/-- The batches upsert the entries. -/
theorem apply_run (h : b.Fits store failsCreate entries) (hready : b.Ready entries db.table)
    {actions : List Action} (hactions : List.Forall₂ (b.Acts store db.table) entries actions) :
    ∃ tally n m, (b.apply actions).run (answer store failsCreate failsPatch) db =
      (.ok tally, ⟨(b.spec store).upsertAll db.table entries, n, m⟩) ∧
        tally.counts = ((actions.filterMap Action.created).length,
          (actions.filterMap Action.patched).length, (actions.filterMap Action.kept).length, 0) := by
  have hsound := h.distinct.sound
  have hsize : 0 < b.size := by
    unfold BulkCall.size
    omega
  have hnew : b.New store entries db.table ((b.spec store).fresh db.table.rows entries) := by
    refine ⟨fun e he => (List.mem_filter.mp he).1, ?_, ?_⟩
    · exact h.distinct.keys.sublist (List.filter_sublist.map _)
    · intro e he
      simpa using (List.mem_filter.mp he).2
  have hready' := hready.upsertAll h.idempotent hsound h.apart hnew.mem
  have hkept := h.upsertAll_rows hnew
  have hpatches := patchable_actions h.idempotent hsound hactions (fun _ he => he) hkept
  have hcreate : (batches b.size (actions.filterMap Action.created)).flatten =
      (b.spec store).fresh db.table.rows entries := by
    rw [batches_flatten hsize, created_eq hactions]
  have hpatch : (batches b.size (actions.filterMap Action.patched)).flatten =
      actions.filterMap Action.patched := batches_flatten hsize _
  obtain ⟨tally₁, n, hrun₁, hcounts₁⟩ := @createBatches_run b store failsCreate failsPatch entries
    db h.idempotent h.filters hsound h.apart h.fallback h.strict
    (batches b.size (actions.filterMap Action.created)) hready (by rw [hcreate]; exact hnew)
    ⟨actions.filterMap Action.kept, 0, 0, (actions.filterMap Action.kept).length, 0⟩
  rw [hcreate] at hrun₁ hcounts₁
  obtain ⟨tally₂, m, hrun₂, hcounts₂⟩ := @patchBatches_run b store failsCreate failsPatch
    ⟨(b.spec store).upsertAll db.table ((b.spec store).fresh db.table.rows entries), n,
      db.bulkPatches⟩ h.fallback (batches b.size (actions.filterMap Action.patched))
    (by rw [hpatch]; exact hpatches) tally₁
  rw [hpatch] at hrun₂ hcounts₂
  refine ⟨tally₂, n, m, ?_, ?_⟩
  · rw [BulkCall.apply, Prog.run_bind, hrun₁]
    dsimp only
    rw [hrun₂]
    dsimp only
    rw [patchAll_actions h.idempotent hsound h.apart hactions (fun _ he => he) h.distinct.keys
      hready' (fun _ _ s hs _ => hkept s hs), ← upsertAll_append,
      Upsert.upsertAll_fresh_known (fun e he => keyed h.idempotent (hsound e he)) h.distinct.keys]
  · rw [hcounts₂]
    simp only [Tally.counts, Prod.mk.injEq] at hcounts₁ ⊢
    rw [created_eq hactions]
    omega

/-- A bulk reconciliation upserts its entries. -/
theorem bulkReconcile_run (h : b.Fits store failsCreate entries)
    (hready : b.Ready entries db.table) : ∃ tally n m actions,
      (bulkReconcile b).run (answer store failsCreate failsPatch) db =
        (.ok tally, ⟨(b.spec store).upsertAll db.table entries, n, m⟩) ∧
        List.Forall₂ (b.Acts store db.table) entries actions ∧
          tally.counts = ((actions.filterMap Action.created).length,
            (actions.filterMap Action.patched).length, (actions.filterMap Action.kept).length,
              0) := by
  unfold bulkReconcile
  cases hpayloads : b.payloads with
  | nil =>
    have hnil : entries = [] := by
      have hentry := h.distinct.entry
      rw [hpayloads] at hentry
      exact List.forall₂_nil_left_iff.mp hentry
    subst hnil
    exact ⟨_, db.bulkCreates, db.bulkPatches, [], rfl, .nil, rfl⟩
  | cons payload payloads =>
    rw [← hpayloads, if_neg (by simp [hpayloads]), h.distinct.entries_eq]
    obtain ⟨actions, hactions, hall⟩ := @actions_rule b store entries entries db.table hready
    obtain ⟨tally, n, m, hrun, hcounts⟩ := @apply_run b store failsCreate failsPatch entries db h hready
      actions hall
    refine ⟨tally, n, m, actions, ?_, hall, hcounts⟩
    have hscan : db.table.rows.filter (store.selects b.scanQuery) = db.table.rows :=
      List.filter_eq_self.mpr fun s _ => h.filters.base s
    dsimp only [Prog.run, answer]
    rw [hscan, hactions]
    exact hrun

/-- After the upserts every record that has the key of an entry needs no patch. -/
theorem settled (h : b.Fits store failsCreate entries) (t : Upsert.Table Stored) :
    ∀ e ∈ entries, ∀ s ∈ ((b.spec store).upsertAll t entries).rows,
      (b.spec store).hits e s = true → ∃ current, b.current s.serve = some current ∧
        b.patchPayload e.desired current = [] := by
  have hsound := h.distinct.sound
  refine Upsert.settled_upsertAll (P := fun e s => ∃ current, b.current s.serve = some current ∧
    b.patchPayload e.desired current = []) (fun e he => keyed h.idempotent (hsound e he))
      h.distinct.keys ?_ ?_ t
  · intro e he s hhit
    obtain ⟨_, _, current', _, hcurrent', _, hnil⟩ := change_rule h.idempotent (hsound e he) hhit
    exact ⟨current', hcurrent', hnil⟩
  · intro e he id
    obtain ⟨current, hcurrent, _, hnil⟩ := created_rule h.idempotent (hsound e he) id
    exact ⟨current, hcurrent, hnil⟩

/-- Nothing is done for entries that have been upserted. -/
theorem acts_of_settled (h : b.Fits store failsCreate entries) {t : Upsert.Table Stored}
    {e : Entry} (he : e ∈ entries) {a : Action}
    (hacts : b.Acts store ((b.spec store).upsertAll t entries) e a) :
    a.created = none ∧ a.patched = none := by
  cases hacts with
  | create hnone =>
    have hkeyed : ∀ e ∈ entries, (b.spec store).Keyed e :=
      fun e he => keyed h.idempotent (h.distinct.sound e he)
    rw [Upsert.any_hits_upsertAll hkeyed h.distinct.keys t e he] at hnone
    contradiction
  | @patch s current hs hhit hcurrent hpatch =>
    obtain ⟨current', hcurrent', hnil⟩ := settled h t e he s hs hhit
    obtain rfl : current = current' := by simpa using hcurrent.symm.trans hcurrent'
    rw [hnil] at hpatch
    contradiction
  | keep => exact ⟨rfl, rfl⟩

theorem upsertAll_of_kept {t : Upsert.Table Stored} {es : List Entry} {actions : List Action}
    (hready : b.Ready entries t) (hactions : List.Forall₂ (b.Acts store t) es actions)
    (hkept : ∀ a ∈ actions, a.created = none ∧ a.patched = none) :
    (b.spec store).upsertAll t es = t := by
  induction hactions with
  | nil => rfl
  | @cons e a es actions hhead _ ih =>
    obtain ⟨ha, hrest⟩ := List.forall_mem_cons.mp hkept
    cases hhead with
    | create => simp [Action.created] at ha
    | patch => simp [Action.patched] at ha
    | keep hs hhit hcurrent hpatch =>
      rw [upsertAll_cons, hready.upsert_eq_self hs hhit hcurrent hpatch]
      exact ih hrest

/-- A bulk reconciliation leaves what its payloads leave that are reconciled one after another, it
counts each payload once, and a second one finds nothing to do. -/
theorem bulkReconcile_agrees (failsPatch : ℕ → Bool) (h : b.Fits store failsCreate entries)
    (hready : b.Ready entries db.table) : ∃ tally db' again db'',
      (bulkReconcile b).run (answer store failsCreate failsPatch) db = (.ok tally, db') ∧
        ((reconcileEach b b.payloads).run (answer store failsCreate failsPatch) db).1 = .ok () ∧
        ((reconcileEach b b.payloads).run (answer store failsCreate failsPatch) db).2.table =
          db'.table ∧
        tally.created + tally.updated + tally.unchanged + tally.failed = b.payloads.length ∧
        (bulkReconcile b).run (answer store failsCreate failsPatch) db' = (.ok again, db'') ∧
        db''.table = db'.table ∧ again.counts = (0, 0, b.payloads.length, 0) := by
  have hsound := h.distinct.sound
  have hlength := h.distinct.entry.length_eq
  obtain ⟨tally, n, m, actions, hrun, hactions, hcounts⟩ :=
    @bulkReconcile_run b store failsCreate failsPatch entries db h hready
  have heach := @reconcileEach_run b store failsCreate failsPatch entries entries db h.idempotent
    h.filters hsound h.apart b.payloads h.distinct.entry (fun _ he => he) hready
  have hready' := hready.upsertAll h.idempotent hsound h.apart (fun _ he => he)
  obtain ⟨again, n', m', actions', hrun', hactions', hcounts'⟩ :=
    @bulkReconcile_run b store failsCreate failsPatch entries
      ⟨(b.spec store).upsertAll db.table entries, n, m⟩ h hready'
  have hkept : ∀ a ∈ actions', a.created = none ∧ a.patched = none := by
    intro a ha
    obtain ⟨e, he, hacts⟩ := Outcomes.exists_of_forall₂ hactions' ha
    exact acts_of_settled h he hacts
  refine ⟨tally, _, again, _, hrun, ?_, ?_, ?_, hrun', ?_, ?_⟩
  · rw [heach]
  · rw [heach]
  · have hsum := counts_eq actions
    simp only [Tally.counts, Prod.mk.injEq] at hcounts
    have hactionsLength := hactions.length_eq
    omega
  · exact upsertAll_of_kept hready' hactions' hkept
  · have hsum := counts_eq actions'
    have hcreated : actions'.filterMap Action.created = [] :=
      List.filterMap_eq_nil_iff.mpr fun a ha => (hkept a ha).1
    have hpatched : actions'.filterMap Action.patched = [] :=
      List.filterMap_eq_nil_iff.mpr fun a ha => (hkept a ha).2
    have hactionsLength := hactions'.length_eq
    rw [hcounts', hcreated, hpatched]
    rw [hcreated, hpatched] at hsum
    simp only [List.length_nil, Prod.mk.injEq, and_true, true_and] at hsum ⊢
    omega

end Bulk

def vlanFields : List String := ["name", "site", "vid"]

def vlanField (name : String) : Json → Bool
  | .str _ => name = "name"
  | .int _ => name = "site" ∨ name = "vid"
  | .null => name = "site"
  | _ => false

/-- A schema of VLANs, which may have a site. -/
def vlanSchema (payload : Record) : Option Record :=
  if vlanFields.all fun name => vlanField name (field name payload) then
    some ((vlanFields.filter fun name => !(field name payload).isNull).map fun name =>
      (name, field name payload))
  else none

/-- VLANs are looked up by name and site. -/
def vlanCall (payloads : List Record) : BulkCall where
  path := "/api/ipam/vlans/"
  payloads := payloads
  lookupFields := ["name", "site"]
  dump := vlanSchema
  currentNormalizer := id
  patchableFields := none
  nullableFields := []
  batchSize := 2
  selector := fun _ => none
  baseQuery := []
  lookupQueryFieldMap := []
  strictLookup := true
  fallbackToIndividual := true

/-- A store in which a patch covers the fields that it sets. -/
def vlanStore : Store where
  make payload := payload
  change fields patch := patch ++ fields
  selects query s :=
    match query.filter fun kv => kv.1 ≠ "limit" with
    | [] => true
    | lookup => ((vlanSchema s.serve).map (agrees lookup)).getD false

section Vlans

variable {payload desired current : Record} {payloads : List Record}

theorem vlanSchema_eq_some_iff : vlanSchema payload = some desired ↔
    (∀ name ∈ vlanFields, vlanField name (field name payload) = true) ∧
      (vlanFields.filter fun name => !(field name payload).isNull).map (fun name =>
        (name, field name payload)) = desired := by
  rw [vlanSchema, Option.ite_none_right_eq_some, List.all_eq_true, Option.some.injEq]

theorem vlanSchema_congr {payload' : Record}
    (h : ∀ name ∈ vlanFields, field name payload' = field name payload) :
    vlanSchema payload' = vlanSchema payload := by
  have hall : (vlanFields.all fun name => vlanField name (field name payload')) =
      vlanFields.all fun name => vlanField name (field name payload) := by
    rw [Bool.eq_iff_iff, List.all_eq_true, List.all_eq_true]
    exact forall₂_congr fun name hname => by rw [h name hname]
  have hfilter : (vlanFields.filter fun name => !(field name payload').isNull) =
      vlanFields.filter fun name => !(field name payload).isNull :=
    List.filter_congr fun name hname => by rw [h name hname]
  rw [vlanSchema, vlanSchema, hall, hfilter]
  split
  · refine congrArg some (List.map_congr_left ?_)
    intro name hname
    rw [h name (List.mem_filter.mp hname).1]
  · rfl

theorem vlanSchema_keys (h : vlanSchema payload = some desired) :
    (Dict.keys desired).Sublist vlanFields := by
  obtain ⟨_, rfl⟩ := vlanSchema_eq_some_iff.mp h
  rw [Dict.keys, List.map_map]
  exact (List.map_id _).symm ▸ List.filter_sublist

/-- The fields of a VLAN are those of the payload. -/
theorem vlanSchema_field (h : vlanSchema payload = some desired) {name : String}
    (hname : name ∈ vlanFields) : field name desired = field name payload := by
  have hnodup : (Dict.keys desired).Nodup := (by decide : vlanFields.Nodup).sublist (vlanSchema_keys h)
  obtain ⟨_, rfl⟩ := vlanSchema_eq_some_iff.mp h
  cases hnull : (field name payload).isNull with
  | false =>
    refine field_of_mem hnodup (List.mem_map.mpr ⟨name, List.mem_filter.mpr ⟨hname, ?_⟩, rfl⟩)
    simp [hnull]
  | true =>
    have hmissing : field name ((vlanFields.filter fun name => !(field name payload).isNull).map
        fun name => (name, field name payload)) = .null := by
      apply field_of_not_mem
      intro hmem
      obtain ⟨kv, hkv, rfl⟩ := List.mem_map.mp hmem
      obtain ⟨name, hkept, rfl⟩ := List.mem_map.mp hkv
      have := (List.mem_filter.mp hkept).2
      simp [hnull] at this
    rw [hmissing]
    cases hfield : field name payload <;> simp_all [Json.isNull]

theorem vlanSchema_field_of_not_mem (h : vlanSchema payload = some desired) {name : String}
    (hname : name ∉ vlanFields) : field name desired = .null :=
  field_of_not_mem fun hmem => hname ((vlanSchema_keys h).subset hmem)

theorem vlanField_pyEq {name : String} {v : Json} (h : vlanField name v = true) :
    v.pyEq v = true := by
  apply Json.pyEq_refl
  cases v <;> first | rfl | cases h

theorem vlan_pyEq_refl (h : vlanSchema payload = some desired) (name : String) :
    (field name desired).pyEq (field name desired) = true := by
  by_cases hname : name ∈ vlanFields
  · rw [vlanSchema_field h hname]
    exact vlanField_pyEq ((vlanSchema_eq_some_iff.mp h).1 name hname)
  · rw [vlanSchema_field_of_not_mem h hname]
    rfl

theorem vlan_serve {s : Stored} {name : String} (hname : name ∈ vlanFields) :
    field name s.serve = field name s.fields := by
  have hid : ¬"id" = name := by
    rintro rfl
    revert hname
    decide
  rw [field, Stored.serve, Dict.get, if_neg hid]
  rfl

theorem vlan_patched {s : Stored} (h : vlanSchema payload = some desired)
    (hcurrent : vlanSchema s.serve = some current) {patch : Record}
    (hpatch : ∀ k v, Dict.get k patch = some v → (k, v) ∈ desired) :
    ∃ current', vlanSchema (s.patched vlanStore patch).serve = some current' ∧
      ∀ k, match Dict.get k patch with
        | some v => (field k current').pyEq v = true
        | none => field k current' = field k current := by
  have hserve : ∀ k ∈ vlanFields, field k (s.patched vlanStore patch).serve =
      (Dict.get k patch).getD (field k s.serve) := by
    intro k hk
    rw [vlan_serve hk, vlan_serve hk, field, field]
    dsimp only [Stored.patched, vlanStore]
    rw [Dict.get_append]
    cases Dict.get k patch <;> rfl
  have hnew : ∀ k v, Dict.get k patch = some v → k ∈ vlanFields ∧ vlanField k v = true := by
    intro k v hget
    have hmem := hpatch k v hget
    obtain ⟨hvalid, rfl⟩ := vlanSchema_eq_some_iff.mp h
    obtain ⟨name, hname, heq⟩ := List.mem_map.mp hmem
    cases heq
    exact ⟨(List.mem_filter.mp hname).1, hvalid _ (List.mem_filter.mp hname).1⟩
  have hvalid : ∀ k ∈ vlanFields,
      vlanField k (field k (s.patched vlanStore patch).serve) = true := by
    intro k hk
    rw [hserve k hk]
    cases hget : Dict.get k patch with
    | none => exact (vlanSchema_eq_some_iff.mp hcurrent).1 k hk
    | some v => exact (hnew k v hget).2
  obtain ⟨current', hcurrent'⟩ : ∃ current',
      vlanSchema (s.patched vlanStore patch).serve = some current' :=
    ⟨_, vlanSchema_eq_some_iff.mpr ⟨hvalid, rfl⟩⟩
  refine ⟨current', hcurrent', ?_⟩
  intro k
  cases hget : Dict.get k patch with
  | some v =>
    dsimp only
    obtain ⟨hk, hv⟩ := hnew k v hget
    rw [vlanSchema_field hcurrent' hk, hserve k hk, hget]
    exact vlanField_pyEq hv
  | none =>
    dsimp only
    by_cases hk : k ∈ vlanFields
    · rw [vlanSchema_field hcurrent' hk, hserve k hk, hget, vlanSchema_field hcurrent hk]
      rfl
    · rw [vlanSchema_field_of_not_mem hcurrent' hk, vlanSchema_field_of_not_mem hcurrent hk]

theorem vlan_idempotent : Idempotent (vlanCall payloads) vlanStore where
  keys payload desired h := by
    have hsub := vlanSchema_keys h
    exact ⟨(by decide : vlanFields.Nodup).sublist hsub, fun hid => absurd (hsub.subset hid)
      (by decide)⟩
  nullable := by simp [vlanCall]
  dump payload desired h := (vlanSchema_congr fun _ hname => vlanSchema_field h hname).trans h
  created payload desired id h := by
    refine ⟨desired, ?_, fun k _ => vlan_pyEq_refl h k⟩
    refine (vlanSchema_congr ?_).trans h
    intro name hname
    rw [← vlanSchema_field h hname]
    exact vlan_serve hname
  patched payload desired s current h hcurrent := by
    refine vlan_patched h hcurrent ?_
    intro k v hget
    obtain ⟨_, ⟨hdesired, _⟩ | ⟨_, hnullable, _⟩⟩ := mem_patchPayload.mp (Dict.mem_of_get hget)
    · exact hdesired
    · simp [vlanCall] at hnullable

theorem vlan_filters : Filters (vlanCall payloads) vlanStore where
  lookup payload desired key s h hkey := by
    have hnames : ∀ kv ∈ buildLookupDictFromFields ["name", "site"] desired, kv.1 ≠ "limit" := by
      intro kv hkv
      obtain ⟨name, hname, rfl⟩ := List.mem_map.mp hkv
      have := (List.mem_filter.mp hname).1
      rintro rfl
      revert this
      decide
    have hquery : ((vlanCall payloads).item [] desired true).queryOf
        (buildLookupDictFromFields ["name", "site"] desired) =
          buildLookupDictFromFields ["name", "site"] desired ++ [("limit", .int 2)] := by
      have hmap : (buildLookupDictFromFields ["name", "site"] desired).map (fun kv =>
          ((Dict.get kv.1 ([] : List (String × String))).getD kv.1, kv.2)) =
            buildLookupDictFromFields ["name", "site"] desired := List.map_id _
      rw [Call.queryOf]
      dsimp only [BulkCall.item, vlanCall]
      rw [hmap, RestCreate.withLimit, Dict.set_of_not_mem]
      intro hmem
      obtain ⟨kv, hkv, heq⟩ := List.mem_map.mp hmem
      exact hnames kv hkv heq
    have hfilter : (buildLookupDictFromFields ["name", "site"] desired ++
        [("limit", Json.int 2)]).filter (fun kv => kv.1 ≠ "limit") =
          buildLookupDictFromFields ["name", "site"] desired := by
      rw [List.filter_append, List.filter_eq_self.mpr (by simpa using hnames)]
      simp
    change (match (((vlanCall payloads).item [] desired true).queryOf
        (buildLookupDictFromFields ["name", "site"] desired)).filter fun kv => kv.1 ≠ "limit" with
      | [] => true
      | lookup => ((vlanSchema s.serve).map (agrees lookup)).getD false) = _
    rw [hquery, hfilter]
    split
    · rename_i hnil
      rw [vlanCall, hnil] at hkey
      cases hkey
    · rfl
  base s := rfl

/-- A VLAN record. -/
def vlan (name : String) (site : Json) (vid : ℤ) : Record :=
  [("name", .str name), ("site", site), ("vid", .int vid)]

/-- A VLAN without a site is created next to the one with its name that its lookup finds. -/
theorem vlan_created_again : Idempotent (vlanCall [vlan "a" .null 7]) vlanStore ∧
    Filters (vlanCall [vlan "a" .null 7]) vlanStore ∧
    (vlanCall [vlan "a" .null 7]).Distinct [⟨[("name", .str "a"), ("vid", .int 7)],
      [("name", .str "a")], [("name", .text "a")]⟩] ∧
    ((bulkReconcile (vlanCall [vlan "a" .null 7])).run
      (answer vlanStore (fun _ => false) fun _ => false)
        ⟨⟨[⟨1, vlan "a" (.int 1) 7⟩], 2⟩, 0, 0⟩).2.table.rows.length = 2 ∧
    ((reconcileEach (vlanCall [vlan "a" .null 7]) [vlan "a" .null 7]).run
      (answer vlanStore (fun _ => false) fun _ => false)
        ⟨⟨[⟨1, vlan "a" (.int 1) 7⟩], 2⟩, 0, 0⟩).2.table.rows.length = 1 := by
  refine ⟨vlan_idempotent, vlan_filters, ⟨.cons ⟨rfl, rfl, rfl⟩ .nil, by simp⟩, ?_, ?_⟩
  · decide +kernel
  · decide +kernel

/-- A changed and a new VLAN, where NetBox refuses the batch of creations. -/
theorem bulkReconcile_agrees_refused : ∃ tally db' again db'',
    (bulkReconcile (vlanCall [vlan "a" (.int 1) 8, vlan "b" (.int 1) 9])).run
      (answer vlanStore (fun _ => true) fun _ => false)
        ⟨⟨[⟨1, vlan "a" (.int 1) 7⟩], 2⟩, 0, 0⟩ = (.ok tally, db') ∧
      ((reconcileEach (vlanCall [vlan "a" (.int 1) 8, vlan "b" (.int 1) 9])
        [vlan "a" (.int 1) 8, vlan "b" (.int 1) 9]).run
          (answer vlanStore (fun _ => true) fun _ => false)
            ⟨⟨[⟨1, vlan "a" (.int 1) 7⟩], 2⟩, 0, 0⟩).1 = .ok () ∧
      ((reconcileEach (vlanCall [vlan "a" (.int 1) 8, vlan "b" (.int 1) 9])
        [vlan "a" (.int 1) 8, vlan "b" (.int 1) 9]).run
          (answer vlanStore (fun _ => true) fun _ => false)
            ⟨⟨[⟨1, vlan "a" (.int 1) 7⟩], 2⟩, 0, 0⟩).2.table = db'.table ∧
      tally.created + tally.updated + tally.unchanged + tally.failed = 2 ∧
      (bulkReconcile (vlanCall [vlan "a" (.int 1) 8, vlan "b" (.int 1) 9])).run
        (answer vlanStore (fun _ => true) fun _ => false) db' = (.ok again, db'') ∧
      db''.table = db'.table ∧ again.counts = (0, 0, 2, 0) := by
  refine @bulkReconcile_agrees _ _ _ [⟨vlan "a" (.int 1) 8,
    [("name", .str "a"), ("site", .int 1)], [("name", .text "a"), ("site", .number 1)]⟩,
    ⟨vlan "b" (.int 1) 9, [("name", .str "b"), ("site", .int 1)],
      [("name", .text "b"), ("site", .number 1)]⟩] _ (fun _ => false) ?_ ?_
  · refine ⟨vlan_idempotent, vlan_filters, ⟨.cons ⟨rfl, rfl, rfl⟩ (.cons ⟨rfl, rfl, rfl⟩ .nil), ?_⟩,
      ?_, rfl, .inl rfl⟩
    · decide +kernel
    · unfold Apart
      decide +kernel
  · refine ⟨by simp, by simp, ?_, ?_, ?_⟩
    · intro s hs current hcurrent
      obtain rfl := List.mem_singleton.mp hs
      cases hcurrent
      exact ⟨_, rfl⟩
    · intro s hs s' hs' _ _ _
      rw [List.mem_singleton.mp hs, List.mem_singleton.mp hs']
    · intro e he s hs current hcurrent
      obtain rfl := List.mem_singleton.mp hs
      cases hcurrent
      revert e
      decide +kernel

end Vlans

end ProxboxApi.BulkReconcile
