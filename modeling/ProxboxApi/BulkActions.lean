import ProxboxApi.BulkRuns

/-! What a bulk reconciliation plans for its entries, by the records of one listing. -/

namespace ProxboxApi.BulkReconcile

open Requests Reconcile
open RestCreate (Query)
open VmQueue (field)

variable (b : BulkCall) (store : Store)

/-- What the second loop does for an entry, by the record with its key. -/
inductive BulkCall.Acts (t : Upsert.Table Stored) (e : Entry) : Action → Prop where
  | create (hnone : t.rows.any ((b.spec store).hits e) = false) : BulkCall.Acts t e (.create e)
  | patch {s : Stored} {current : Record} (hs : s ∈ t.rows)
      (hhit : (b.spec store).hits e s = true) (hcurrent : b.current s.serve = some current)
      (hpatch : (b.patchPayload e.desired current).isEmpty = false) :
      BulkCall.Acts t e (.patch s.serve (b.patchPayload e.desired current))
  | keep {s : Stored} {current : Record} (hs : s ∈ t.rows)
      (hhit : (b.spec store).hits e s = true) (hcurrent : b.current s.serve = some current)
      (hpatch : (b.patchPayload e.desired current).isEmpty = true) :
      BulkCall.Acts t e (.keep s.serve)

section Actions

variable {b store} {entries es : List Entry} {t t₀ : Upsert.Table Stored} {actions : List Action}

theorem existingGroups_rule {rows : List Stored}
    (hhashable : ∀ s ∈ rows, ∀ current, b.current s.serve = some current →
      ∃ key, lookupTuple (buildLookupDictFromFields b.lookupFields current) = .ok key) :
    ∃ groups, b.existingGroups (rows.map Stored.serve) = .ok groups ∧ ∀ e : Entry,
      (groups.filter fun group => group.1 = e.key).map (·.2) =
        (rows.filter ((b.spec store).hits e)).map Stored.serve := by
  induction rows with
  | nil => exact ⟨[], rfl, fun _ => rfl⟩
  | cons s rows ih =>
    obtain ⟨hs, hrows⟩ := List.forall_mem_cons.mp hhashable
    obtain ⟨groups, hgroups, hsame⟩ := ih hrows
    have hskip : (b.current s.serve).bind b.keyOf = none → ∀ e : Entry,
        (groups.filter fun group => group.1 = e.key).map (·.2) =
          ((s :: rows).filter ((b.spec store).hits e)).map Stored.serve := by
      intro hnone e
      rw [List.filter_cons_of_neg, hsame]
      rw [hits_iff_rowKey, hnone]
      simp
    rw [List.map_cons, BulkCall.existingGroups]
    cases hcurrent : b.current s.serve with
    | none => exact ⟨groups, hgroups, hskip (by rw [hcurrent]; rfl)⟩
    | some current =>
      obtain ⟨key, hkey⟩ := hs current hcurrent
      dsimp only
      rw [hkey]
      cases key with
      | none =>
        refine ⟨groups, hgroups, hskip ?_⟩
        rw [hcurrent, Option.bind_some, BulkCall.keyOf, hkey]
      | some key =>
        refine ⟨(key, s.serve) :: groups, by rw [hgroups]; rfl, ?_⟩
        intro e
        have hiff : (b.spec store).hits e s = true ↔ key = e.key := by
          rw [hits_iff_rowKey, hcurrent, Option.bind_some, BulkCall.keyOf, hkey, Option.some.injEq]
        by_cases heq : key = e.key
        · rw [List.filter_cons_of_pos (by simpa using heq), List.map_cons, hsame,
            List.filter_cons_of_pos (hiff.mpr heq)]
          rfl
        · rw [List.filter_cons_of_neg (by simpa using heq), hsame,
            List.filter_cons_of_neg (mt hiff.mp heq)]

theorem action_rule {groups : List (Key × Record)} {e : Entry}
    (hgroups : (groups.filter fun group => group.1 = e.key).map (·.2) =
      (t.rows.filter ((b.spec store).hits e)).map Stored.serve) :
    ∃ action, b.action groups e = .ok action ∧ b.Acts store t e action := by
  have hselect : b.selectExisting groups e.key = none ∧
        t.rows.any ((b.spec store).hits e) = false ∨
      ∃ s ∈ t.rows, (b.spec store).hits e s = true ∧
        b.selectExisting groups e.key = some s.serve := by
    unfold BulkCall.selectExisting
    dsimp only
    cases hselector : b.selector _ with
    | none =>
      rw [hgroups, Option.map_none, Option.none_or, List.head?_map, List.head?_filter]
      cases hfind : t.rows.find? ((b.spec store).hits e) with
      | none => exact .inl ⟨rfl, List.any_eq_false.mpr (List.find?_eq_none.mp hfind)⟩
      | some s => exact .inr ⟨s, List.mem_of_find?_eq_some hfind, List.find?_some hfind, rfl⟩
    | some selected =>
      obtain ⟨record, hrecord⟩ := selected
      rw [hgroups] at hrecord
      obtain ⟨s, hs, rfl⟩ := List.mem_map.mp hrecord
      obtain ⟨hs, hhit⟩ := List.mem_filter.mp hs
      exact .inr ⟨s, hs, hhit, rfl⟩
  unfold BulkCall.action
  obtain ⟨hselect, hnone⟩ | ⟨s, hs, hhit, hselect⟩ := hselect
  · rw [hselect]
    exact ⟨.create e, rfl, .create hnone⟩
  · obtain ⟨current, hcurrent, _⟩ := hits_iff.mp hhit
    rw [hselect]
    dsimp only
    rw [hcurrent]
    cases hpatch : (b.patchPayload e.desired current).isEmpty with
    | true => exact ⟨.keep s.serve, congrArg Except.ok (if_pos hpatch), .keep hs hhit hcurrent hpatch⟩
    | false =>
      have hnonempty : ¬(b.patchPayload e.desired current).isEmpty = true := by
        rw [hpatch]
        exact Bool.false_ne_true
      exact ⟨.patch s.serve (b.patchPayload e.desired current),
        congrArg Except.ok (if_neg hnonempty), .patch hs hhit hcurrent hpatch⟩

/-- The actions of all the entries. -/
theorem actions_rule (hready : b.Ready entries t) :
    ∃ actions, ((b.existingGroups (t.rows.map Stored.serve)).bind fun groups =>
      es.mapM (b.action groups)) = .ok actions ∧ List.Forall₂ (b.Acts store t) es actions := by
  obtain ⟨groups, hgroups, hsame⟩ := @existingGroups_rule b store _ hready.hashable
  rw [hgroups]
  exact Outcomes.exists_mapM fun e _ => action_rule (hsame e)

theorem BulkCall.Acts.any_hits {e : Entry} {a : Action} (h : b.Acts store t e a) :
    t.rows.any ((b.spec store).hits e) = a.created.isNone := by
  cases h with
  | create hnone => exact hnone
  | patch hs hhit => exact List.any_eq_true.mpr ⟨_, hs, hhit⟩
  | keep hs hhit => exact List.any_eq_true.mpr ⟨_, hs, hhit⟩

/-- The created entries are the new ones. -/
theorem created_eq (h : List.Forall₂ (b.Acts store t) es actions) :
    actions.filterMap Action.created = (b.spec store).fresh t.rows es := by
  induction h with
  | nil => rfl
  | @cons e a es actions hhead _ ih =>
    have hany := hhead.any_hits
    cases hhead with
    | create hnone =>
      rw [List.filterMap_cons_some (f := Action.created) rfl, ih, Upsert.fresh_cons_of_none hnone]
    | patch | keep =>
      rw [List.filterMap_cons_none (f := Action.created) rfl, ih, Upsert.fresh_cons_of_any hany]

theorem counts_eq (actions : List Action) :
    (actions.filterMap Action.created).length + (actions.filterMap Action.patched).length +
      (actions.filterMap Action.kept).length = actions.length := by
  induction actions with
  | nil => rfl
  | cons a actions ih =>
    cases a <;> simp [List.filterMap_cons, Action.created, Action.patched, Action.kept] <;> omega

/-- The patches upsert the known entries, also after records have been created. -/
theorem patchAll_actions (hidem : Idempotent b store) (hsound : ∀ e ∈ entries, b.Sound e)
    (hapart : Apart entries) (h : List.Forall₂ (b.Acts store t₀) es actions)
    (hes : ∀ e ∈ es, e ∈ entries) (hkeys : (es.map Entry.key).Nodup) (hready : b.Ready entries t)
    (hkept : ∀ e ∈ es, ∀ s ∈ t₀.rows, (b.spec store).hits e s = true → s ∈ t.rows) :
    { t with rows := patchAll store (actions.filterMap Action.patched) t.rows } =
      (b.spec store).upsertAll t ((b.spec store).known t₀.rows es) := by
  induction h generalizing t with
  | nil => rfl
  | @cons e a es actions hhead _ ih =>
    obtain ⟨he, hes⟩ := List.forall_mem_cons.mp hes
    obtain ⟨hkeep, hkept⟩ := List.forall_mem_cons.mp hkept
    rw [List.map_cons, List.nodup_cons] at hkeys
    have hany := hhead.any_hits
    cases hhead with
    | create hnone =>
      rw [List.filterMap_cons_none (f := Action.patched) rfl, Upsert.known_cons_of_none hnone]
      exact ih hes hkeys.2 hready hkept
    | @keep s current hs hhit hcurrent hpatch =>
      rw [List.filterMap_cons_none (f := Action.patched) rfl, Upsert.known_cons_of_any hany, upsertAll_cons,
        hready.upsert_eq_self (hkeep s hs hhit) hhit hcurrent hpatch]
      exact ih hes hkeys.2 hready hkept
    | @patch s current hs hhit hcurrent hpatch =>
      have hrows := hready.patchId_eq (hkeep s hs hhit) hhit hcurrent hpatch
      have hupsert : (b.spec store).upsert t e = { t with
          rows := patchId store (.int s.id) (b.patchPayload e.desired current) t.rows } := by
        rw [Upsert.Spec.upsert, if_pos (List.any_eq_true.mpr ⟨s, hkeep s hs hhit, hhit⟩), hrows]
      have hlater : ∀ e' ∈ es, ∀ s' ∈ t₀.rows, (b.spec store).hits e' s' = true →
          s' ∈ ((b.spec store).upsert t e).rows := by
        intro e' he' s' hs' hhit'
        have hmiss : (b.spec store).hits e s' = false := by
          rw [← Bool.not_eq_true, Upsert.hits_congr hhit']
          intro heq
          exact hkeys.1 (List.mem_map.mpr ⟨e', he', heq.symm⟩)
        rw [hupsert, hrows]
        exact List.mem_map.mpr ⟨s', hkept e' he' s' hs' hhit', by rw [hmiss]; rfl⟩
      rw [List.filterMap_cons_some (f := Action.patched) rfl, Upsert.known_cons_of_any hany, upsertAll_cons,
        ← ih hes hkeys.2 (hready.upsert hidem hsound hapart he) hlater, hupsert]
      rfl

theorem patchable_actions (hidem : Idempotent b store) (hsound : ∀ e ∈ entries, b.Sound e)
    (h : List.Forall₂ (b.Acts store t₀) es actions) (hes : ∀ e ∈ es, e ∈ entries)
    (hkept : ∀ s ∈ t₀.rows, s ∈ t.rows) :
    ∀ rp ∈ actions.filterMap Action.patched, Patchable t.rows rp := by
  intro rp hrp
  obtain ⟨a, ha, hpatched⟩ := List.mem_filterMap.mp hrp
  obtain ⟨e, he, hacts⟩ := Outcomes.exists_of_forall₂ h ha
  obtain ⟨payload, hdump⟩ := (hsound e (hes e he)).dumped
  cases hacts with
  | create | keep => cases hpatched
  | @patch s current hs =>
    cases hpatched
    refine ⟨?_, s, hkept s hs, rfl⟩
    dsimp only
    rw [Dict.get_eq_none_iff]
    intro hid
    obtain ⟨v, hv⟩ := Dict.mem_keys_iff.mp hid
    obtain ⟨_, ⟨hdesired, _⟩ | ⟨_, hnullable, _⟩⟩ := mem_patchPayload.mp (Dict.mem_of_get hv)
    · exact (hidem.keys payload e.desired hdump).2 (List.mem_map_of_mem hdesired)
    · exact hidem.nullable hnullable

end Actions

end ProxboxApi.BulkReconcile
