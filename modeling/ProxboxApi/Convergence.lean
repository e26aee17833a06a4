import ProxboxApi.PayloadFields
import ProxboxApi.QueueMatching

/-! Whether a prepared VM whose record has been patched needs no second patch. -/

namespace ProxboxApi.VmQueue

variable (py : Python) (flags : Flags)

/-- NetBox's effect of a PATCH on custom fields: keys that are absent keep their value. -/
def patchCustomFields (old new : Json) : Json :=
  match old, new with
  | .obj old, .obj new => .obj (Dict.update old new)
  | _, new => new

/-- NetBox's effect of a PATCH on a record. -/
def applyPatch (r : Record) (patch : Json.Fields) : Record :=
  patch.foldl (fun r kv => Dict.set kv.1
    (if kv.1 = "custom_fields" then patchCustomFields (field "custom_fields" r) kv.2 else kv.2) r) r

theorem field_set {k k' : String} {v : Json} {r : Record} :
    field k (Dict.set k' v r) = if k' = k then v else field k r := by
  unfold field
  rw [Dict.get_set]
  split <;> rfl

theorem field_applyPatch {k : String} {r : Record} {patch : Json.Fields}
    (h : (Dict.keys patch).Nodup) :
    field k (applyPatch r patch) = match Dict.get k patch with
      | none => field k r
      | some v => if k = "custom_fields" then patchCustomFields (field "custom_fields" r) v else v := by
  induction patch generalizing r with
  | nil => rfl
  | cons kv patch ih =>
    obtain ⟨l, w⟩ := kv
    obtain ⟨hfresh, hrest⟩ := List.nodup_cons.mp h
    have hstep : applyPatch r ((l, w) :: patch) = applyPatch (Dict.set l
        (if l = "custom_fields" then patchCustomFields (field "custom_fields" r) w else w) r)
        patch := rfl
    rw [hstep, ih hrest, field_set, field_set]
    by_cases hl : l = k
    · subst hl
      have hnone : Dict.get l patch = none := Dict.get_eq_none_iff.mpr hfresh
      simp [hnone, Dict.get]
    · have hget : Dict.get k ((l, w) :: patch) = Dict.get k patch := by simp [Dict.get, hl]
      rw [hget]
      cases hk : Dict.get k patch with
      | none => simp [hl]
      | some v =>
        by_cases hcf : k = "custom_fields"
        · subst hcf
          simp [hl]
        · simp [hcf]

/-- The record has the relation, as `relation_id` reads it. -/
def hasRelation (name : String) (existing : Record) : Bool :=
  match relationId py (field name existing) with
  | some (some _) => true
  | _ => false

/-- The guards of the overwrite flags but the one on tags keep a field out of the patch. -/
def kept (existing : Record) (name : String) : Bool :=
  (name = "role" && !flags.overwriteVmRole && hasRelation py "role" existing) ||
    (name = "virtual_machine_type" && !flags.overwriteVmType &&
      hasRelation py "virtual_machine_type" existing) ||
    (name = "description" && !flags.overwriteVmDescription && hasDescription existing) ||
    (name = "custom_fields" && !flags.overwriteVmCustomFields && hasCustomFields existing)

/-- The guards read the relations they need. -/
def GuardsOk (existing : Record) : Prop :=
  (flags.overwriteVmRole = false → ∃ id, relationId py (field "role" existing) = some id) ∧
    (flags.overwriteVmType = false →
      ∃ id, relationId py (field "virtual_machine_type" existing) = some id)

def tagsGuard (existing : Record) (desired current : List ℤ) (patch : Json.Fields) :
    Json.Fields :=
  if !flags.overwriteVmTags then if hasTags existing then Dict.erase "tags" patch else patch
  else mergeTags desired current patch

theorem guardRelation_eq {overwrite : Bool} {name : String} {existing : Record}
    {patch : Json.Fields} :
    guardRelation py overwrite name existing patch =
      if overwrite = false ∧ relationId py (field name existing) = none then none
      else some (patch.filter fun kv =>
        !(decide (kv.1 = name) && !overwrite && hasRelation py name existing)) := by
  unfold guardRelation hasRelation
  cases overwrite with
  | true => simp
  | false =>
    cases relationId py (field name existing) with
    | none => simp
    | some id =>
      cases id with
      | none => simp
      | some n => simp [Dict.erase]

theorem erase_if_eq {p : Bool} {name : String} {patch : Json.Fields} :
    (if p then Dict.erase name patch else patch) =
      patch.filter fun kv => !(decide (kv.1 = name) && p) := by
  cases p <;> simp [Dict.erase]

theorem applyGuards_eq {existing : Record} {desired current : VmBody} {patch : Json.Fields}
    (h : GuardsOk py flags existing) :
    applyGuards py flags existing desired current patch =
      some (tagsGuard flags existing desired.tags current.tags
        (patch.filter fun kv => !kept py flags existing kv.1)) := by
  have hrole : ¬ (flags.overwriteVmRole = false ∧ relationId py (field "role" existing) = none) := by
    rintro ⟨hoff, hnone⟩
    obtain ⟨id, hid⟩ := h.1 hoff
    rw [hnone] at hid
    simp at hid
  have htype : ¬ (flags.overwriteVmType = false ∧
      relationId py (field "virtual_machine_type" existing) = none) := by
    rintro ⟨hoff, hnone⟩
    obtain ⟨id, hid⟩ := h.2 hoff
    rw [hnone] at hid
    simp at hid
  -- the four filters of the guards are one
  have hchain : ∀ patch : Json.Fields,
      (((patch.filter fun kv => !(decide (kv.1 = "role") && !flags.overwriteVmRole &&
          hasRelation py "role" existing)).filter fun kv =>
        !(decide (kv.1 = "virtual_machine_type") && !flags.overwriteVmType &&
          hasRelation py "virtual_machine_type" existing)).filter fun kv =>
        !(decide (kv.1 = "description") && (!flags.overwriteVmDescription &&
          hasDescription existing))).filter (fun kv =>
        !(decide (kv.1 = "custom_fields") && (!flags.overwriteVmCustomFields &&
          hasCustomFields existing))) = patch.filter fun kv => !kept py flags existing kv.1 := by
    intro patch
    simp only [List.filter_filter]
    refine List.filter_congr ?_
    intro kv _
    unfold kept
    grind
  unfold applyGuards
  rw [guardRelation_eq, if_neg hrole]
  simp only [Option.bind_eq_bind, Option.bind_some]
  rw [guardRelation_eq, if_neg htype]
  simp only [Option.bind_some, erase_if_eq, hchain]
  unfold tagsGuard
  split
  · rw [erase_if_eq]
  · rfl

theorem guardsOk_of_applyGuards {existing : Record} {desired current : VmBody}
    {patch patch' : Json.Fields}
    (h : applyGuards py flags existing desired current patch = some patch') :
    GuardsOk py flags existing := by
  unfold applyGuards at h
  obtain ⟨patch₁, hrole, h⟩ := Option.bind_eq_some_iff.mp h
  obtain ⟨patch₂, htype, h⟩ := Option.bind_eq_some_iff.mp h
  rw [guardRelation_eq] at hrole htype
  constructor
  · intro hoff
    cases hid : relationId py (field "role" existing) with
    | none => simp [hoff, hid] at hrole
    | some id => exact ⟨id, rfl⟩
  · intro hoff
    cases hid : relationId py (field "virtual_machine_type" existing) with
    | none => simp [hoff, hid] at htype
    | some id => exact ⟨id, rfl⟩

theorem pyEq_ints {xs ys : List ℤ} :
    (Json.arr (xs.map .int)).pyEq (.arr (ys.map .int)) = true ↔ xs = ys := by
  rw [Json.pyEq]
  induction xs generalizing ys with
  | nil => cases ys <;> simp [Json.pyEqItems]
  | cons x xs ih =>
    cases ys with
    | nil => simp [Json.pyEqItems]
    | cons y ys =>
      have hhead : (Json.int x).pyEq (.int y) = true ↔ x = y := by
        simp only [Json.pyEq, Json.number, beq_iff_eq, Option.some.injEq, Rat.intCast_inj]
        exact eq_comm
      simp [Json.pyEqItems, hhead, ih]

/-- The tags of the patch, for the tags desired and current. -/
def tagsPatch (existing : Record) (desired current : List ℤ) : Option Json :=
  let differing := if current = desired then none else some (.arr (desired.map .int))
  if !flags.overwriteVmTags then if hasTags existing then none else differing
  else
    let merged := sortedSet (current ++ desired)
    if current = desired ∨ merged = current then none else some (.arr (merged.map .int))

/-- The fields of the desired payload, as it is compared. -/
def desiredField (k : String) (payload : Json.Fields) : Option Json :=
  if flags.supportsVirtualMachineTypeField = false ∧ k = "virtual_machine_type" then none
  else normalField py k payload

theorem get_desiredPayload {payload : Json.Fields} {d : VmBody}
    (hd : validate py payload = some d) {k : String} (hk : k ∈ bodyFields) :
    Dict.get k (desiredPayload flags d) = desiredField py flags k payload := by
  have hget := (validate_some py hd).2.2.1 k hk
  unfold desiredPayload desiredField
  cases flags.supportsVirtualMachineTypeField with
  | true => simpa using hget
  | false =>
    rw [if_neg (by simp), Dict.get_erase, hget]
    by_cases hvt : k = "virtual_machine_type"
    · simp [hvt]
    · simp [hvt, Ne.symm hvt]

theorem keys_desiredPayload {d : VmBody} :
    (Dict.keys (desiredPayload flags d)).Nodup ∧
      ∀ k ∈ Dict.keys (desiredPayload flags d), k ∈ bodyFields := by
  have hsub : (Dict.keys (desiredPayload flags d)).Sublist (Dict.keys d.dump) := by
    unfold desiredPayload
    split
    · exact List.Sublist.refl _
    · exact Dict.keys_filter_sublist
  exact ⟨(nodup_keys_dump d).sublist hsub, fun k hk => (keys_dump d).subset (hsub.subset hk)⟩

theorem get_tagsGuard_of_ne {existing : Record} {desired current : List ℤ} {patch : Json.Fields}
    {k : String} (hk : k ≠ "tags") :
    Dict.get k (tagsGuard flags existing desired current patch) = Dict.get k patch := by
  unfold tagsGuard
  split
  · split
    · rw [Dict.get_erase, if_neg (Ne.symm hk)]
    · rfl
  · unfold mergeTags
    split
    · rfl
    · dsimp only
      split
      · rw [Dict.get_erase, if_neg (Ne.symm hk)]
      · rw [Dict.get_set_of_ne (Ne.symm hk)]

theorem get_tagsGuard {existing : Record} {desired current : List ℤ} {patch : Json.Fields}
    (h : Dict.get "tags" patch =
      if current = desired then none else some (.arr (desired.map .int))) :
    Dict.get "tags" (tagsGuard flags existing desired current patch) =
      tagsPatch flags existing desired current := by
  unfold tagsGuard tagsPatch
  split
  · split
    · rw [Dict.get_erase, if_pos rfl]
    · exact h
  · unfold mergeTags
    rw [h]
    by_cases heq : current = desired
    · simp [heq, h]
    · by_cases hmerged : sortedSet (current ++ desired) = current
      · simp [heq, hmerged, Dict.get_erase]
      · simp [heq, hmerged, Dict.get_set_self]

theorem keys_tagsGuard (existing : Record) (desired current : List ℤ) {patch : Json.Fields}
    (hnodup : (Dict.keys patch).Nodup) :
    (Dict.keys (tagsGuard flags existing desired current patch)).Nodup ∧
      ∀ k ∈ Dict.keys (tagsGuard flags existing desired current patch), k ∈ Dict.keys patch := by
  have herase : (Dict.keys (Dict.erase "tags" patch)).Sublist (Dict.keys patch) :=
    Dict.keys_filter_sublist
  unfold tagsGuard
  split
  · split
    · exact ⟨hnodup.sublist herase, fun k hk => herase.subset hk⟩
    · exact ⟨hnodup, fun k hk => hk⟩
  · unfold mergeTags
    split
    · exact ⟨hnodup, fun k hk => hk⟩
    · rename_i tags htags
      dsimp only
      split
      · exact ⟨hnodup.sublist herase, fun k hk => herase.subset hk⟩
      · refine ⟨Dict.nodup_keys_set hnodup, ?_⟩
        have hmem : "tags" ∈ Dict.keys patch := Dict.mem_keys_iff.mpr ⟨tags, htags⟩
        rw [Dict.keys_set, if_pos hmem]
        exact fun k hk => hk

/-- What a patch contains, field by field. -/
structure PatchSpec (payload : Json.Fields) (existing : Record) (patch : Json.Fields) : Prop where
  nodup : (Dict.keys patch).Nodup
  keys : ∀ k ∈ Dict.keys patch, k ∈ bodyFields
  value : ∀ k ∈ bodyFields, k ≠ "tags" → Dict.get k patch =
    if kept py flags existing k then none
    else (desiredField py flags k payload).filter fun v =>
      !((normalField py k (normalizeCurrentVmPayload existing
        flags.supportsVirtualMachineTypeField)).getD .null).pyEq v
  tags : Dict.get "tags" patch = tagsPatch flags existing (tagsOf py (field "tags" payload))
    (tagsOf py (field "tags" (normalizeCurrentVmPayload existing
      flags.supportsVirtualMachineTypeField)))

/-- The patch for valid payloads on a record whose guards can be read. -/
theorem patchPayload_spec {p : PreparedVMState} {existing : Record} {d c : VmBody}
    (hd : validate py p.desiredPayload = some d)
    (hc : validate py (normalizeCurrentVmPayload existing
      flags.supportsVirtualMachineTypeField) = some c)
    (hguards : GuardsOk py flags existing) :
    ∃ patch, patchPayload py flags p existing = some patch ∧
      PatchSpec py flags p.desiredPayload existing patch := by
  obtain ⟨-, -, hdget, hdtags, -⟩ := validate_some py hd
  obtain ⟨-, -, hcget, hctags, -⟩ := validate_some py hc
  obtain ⟨hnodup, hkeys⟩ := keys_desiredPayload flags (d := d)
  set diff := diffPayload (desiredPayload flags d) c.dump with hdiff
  set unguarded := diff.filter fun kv => !kept py flags existing kv.1 with hunguarded
  have hdiffsub : (Dict.keys diff).Sublist (Dict.keys (desiredPayload flags d)) :=
    Dict.keys_filter_sublist
  have hsub : (Dict.keys unguarded).Sublist (Dict.keys (desiredPayload flags d)) :=
    Dict.keys_filter_sublist.trans hdiffsub
  have hpatch : patchPayload py flags p existing =
      some (tagsGuard flags existing d.tags c.tags unguarded) := by
    unfold patchPayload
    rw [hd, hc]
    exact applyGuards_eq py flags hguards
  have hget : ∀ k ∈ bodyFields, Dict.get k unguarded =
      if kept py flags existing k then none
      else (desiredField py flags k p.desiredPayload).filter fun v =>
        !((normalField py k (normalizeCurrentVmPayload existing
          flags.supportsVirtualMachineTypeField)).getD .null).pyEq v := by
    intro k hk
    rw [hunguarded, Dict.get_filter_of_nodup (hnodup.sublist hdiffsub), hdiff, diffPayload,
      Dict.get_filter_of_nodup hnodup, get_desiredPayload py flags hd hk]
    have hcurrent : field k c.dump = (normalField py k (normalizeCurrentVmPayload existing
        flags.supportsVirtualMachineTypeField)).getD .null := by
      rw [field, hcget k hk]
    simp only [hcurrent]
    have hall : ∀ o : Option Json, o.filter (fun _ => true) = o := by
      intro o
      cases o <;> rfl
    have hnothing : ∀ o : Option Json, o.filter (fun _ => false) = none := by
      intro o
      cases o <;> rfl
    by_cases hkept : kept py flags existing k = true
    · simp [hkept, hnothing]
    · simp [hkept, hall]
  obtain ⟨htnodup, htkeys⟩ :=
    keys_tagsGuard flags existing d.tags c.tags (hnodup.sublist hsub)
  refine ⟨_, hpatch, htnodup, ?_, ?_, ?_⟩
  · intro k hk
    exact hkeys k (hsub.subset (htkeys k hk))
  · intro k hk hne
    rw [get_tagsGuard_of_ne flags hne, hget k hk]
  · rw [← hdtags, ← hctags]
    apply get_tagsGuard
    rw [hget "tags" (by decide)]
    have hunkept : kept py flags existing "tags" = false := by simp [kept]
    have hdesired : desiredField py flags "tags" p.desiredPayload =
        some (.arr (d.tags.map .int)) := by
      simp [desiredField, normalField, hdtags]
    have hcurrent : normalField py "tags" (normalizeCurrentVmPayload existing
        flags.supportsVirtualMachineTypeField) = some (.arr (c.tags.map .int)) := by
      simp [normalField, hctags]
    rw [hunkept, hdesired, hcurrent]
    by_cases heq : c.tags = d.tags
    · simp [heq, pyEq_ints.mpr]
    · have hne : (Json.arr (c.tags.map .int)).pyEq (.arr (d.tags.map .int)) = false := by
        rw [Bool.eq_false_iff]
        exact fun h => heq (pyEq_ints.mp h)
      simp [heq, hne]

theorem desiredField_some {py : Python} {flags : Flags} {k : String} {payload : Json.Fields}
    {v : Json} (hget : desiredField py flags k payload = some v) :
    ¬ (flags.supportsVirtualMachineTypeField = false ∧ k = "virtual_machine_type") ∧
      normalField py k payload = some v := by
  unfold desiredField at hget
  split at hget
  · simp at hget
  · exact ⟨‹_›, hget⟩

/-- The simple values of a dump equal themselves. -/
theorem normalField_refl {k : String} (hk : k ∈ bodyFields) (hcf : k ≠ "custom_fields")
    {payload : Json.Fields} {v : Json} (h : normalField py k payload = some v) :
    v.pyEq v = true := by
  have hrelation : ∀ {relation : Option ObjectId}, relationJson relation = some v →
      v.pyEq v = true := by
    intro relation h
    obtain ⟨n, -, rfl⟩ := Option.map_eq_some_iff.mp h
    exact Json.pyEq_refl rfl
  simp only [bodyFields, List.mem_cons, List.not_mem_nil, or_false] at hk
  rcases hk with rfl | rfl | rfl | rfl | rfl | rfl | rfl | rfl | rfl | rfl | rfl | rfl | rfl
  · obtain ⟨name, -, rfl⟩ := Option.map_eq_some_iff.mp h
    exact Json.pyEq_refl rfl
  · obtain rfl := Option.some.inj h
    exact Json.pyEq_refl rfl
  · exact hrelation h
  · exact hrelation h
  · exact hrelation h
  · exact hrelation h
  · exact hrelation h
  · obtain ⟨n, -, rfl⟩ := Option.map_eq_some_iff.mp h
    exact Json.pyEq_refl rfl
  · obtain rfl := Option.some.inj h
    exact Json.pyEq_refl rfl
  · obtain rfl := Option.some.inj h
    exact Json.pyEq_refl rfl
  · obtain rfl := Option.some.inj h
    exact pyEq_ints.mpr rfl
  · exact absurd rfl hcf
  · obtain ⟨description, -, rfl⟩ := Option.map_eq_some_iff.mp h
    exact Json.pyEq_refl rfl

/-- Custom fields patched with a dictionary equal it exactly when they had no other key. -/
theorem pyEq_update {old new : Json.Fields} (hold : (Dict.keys old).Nodup)
    (hnew : Json.wf (.obj new) = true) :
    (Json.obj (Dict.update old new)).pyEq (.obj new) = true ↔
      ∀ k ∈ Dict.keys old, k ∈ Dict.keys new := by
  obtain ⟨hkeys, hfields⟩ := Json.wf_obj_iff.mp hnew
  have hmerged : (Dict.keys (Dict.update old new)).Nodup := Dict.nodup_keys_update hold
  rw [Json.pyEq_obj_iff]
  constructor
  · rintro ⟨-, hall⟩ k hk
    obtain ⟨v, hv⟩ : ∃ v, Dict.get k (Dict.update old new) = some v := by
      obtain ⟨w, hw⟩ := Dict.mem_keys_iff.mp hk
      rw [Dict.get_update hkeys, hw]
      cases Dict.get k new <;> simp
    obtain ⟨y, hy, -⟩ := hall (k, v) (Dict.mem_of_get hv)
    exact Dict.mem_keys_iff.mpr ⟨y, hy⟩
  · intro hsub
    have hback : ∀ k ∈ Dict.keys (Dict.update old new), k ∈ Dict.keys new := by
      intro k hk
      by_contra hnot
      obtain ⟨v, hv⟩ := Dict.mem_keys_iff.mp hk
      rw [Dict.get_update hkeys, Dict.get_eq_none_iff.mpr hnot, Option.none_or] at hv
      exact hnot (hsub k (Dict.mem_keys_iff.mpr ⟨v, hv⟩))
    have hforth : ∀ k ∈ Dict.keys new, k ∈ Dict.keys (Dict.update old new) := by
      intro k hk
      obtain ⟨v, hv⟩ := Dict.mem_keys_iff.mp hk
      rw [Dict.mem_keys_iff, Dict.get_update hkeys, hv]
      exact ⟨v, rfl⟩
    refine ⟨?_, ?_⟩
    · have hperm : (Dict.keys (Dict.update old new)).Perm (Dict.keys new) :=
        (List.perm_ext_iff_of_nodup hmerged hkeys).mpr fun k => ⟨hback k, hforth k⟩
      simpa [Dict.keys] using hperm.length_eq
    · intro kv hkv
      have hget := Dict.get_of_mem hmerged hkv
      obtain ⟨y, hy⟩ := Dict.mem_keys_iff.mp (hback kv.1 (List.mem_map_of_mem hkv))
      rw [Dict.get_update hkeys, hy, Option.some_or] at hget
      obtain rfl := Option.some.inj hget
      exact ⟨kv.2, hy, Json.pyEq_refl (Json.wf_of_mem hfields _ (Dict.mem_of_get hy))⟩

section Applied

variable {py flags} {payload : Json.Fields} {r : Record} {patch : Json.Fields}
  (hspec : PatchSpec py flags payload r patch)

include hspec

/-- A field out of the patch stays as it is. -/
theorem PatchSpec.current_of_none {k : String} (hk : k ∈ bodyFields)
    (hget : Dict.get k patch = none) :
    Dict.get k (normalizeCurrentVmPayload (applyPatch r patch)
        flags.supportsVirtualMachineTypeField) =
      Dict.get k (normalizeCurrentVmPayload r flags.supportsVirtualMachineTypeField) := by
  rw [get_normalizeCurrent hk, get_normalizeCurrent hk, field_applyPatch hspec.nodup, hget]

/-- A field in the patch has the desired value. -/
theorem PatchSpec.desired_of_some {k : String} (hk : k ∈ bodyFields) (hne : k ≠ "tags")
    {v : Json} (hget : Dict.get k patch = some v) : desiredField py flags k payload = some v := by
  rw [hspec.value k hk hne] at hget
  split at hget
  · simp at hget
  · cases hdesired : desiredField py flags k payload with
    | none => simp [hdesired] at hget
    | some w =>
      rw [hdesired] at hget
      have hw := Option.eq_some_of_filter_eq_some hget
      rw [hw]

/-- After the patch the field has the value of the patch. -/
theorem PatchSpec.current_of_some {k : String} (hk : k ∈ bodyFields) (hne : k ≠ "tags")
    (hcf : k ≠ "custom_fields") {v : Json} (hget : Dict.get k patch = some v) :
    Dict.get k (normalizeCurrentVmPayload (applyPatch r patch)
      flags.supportsVirtualMachineTypeField) = some v := by
  obtain ⟨hsupported, -⟩ := desiredField_some (hspec.desired_of_some hk hne hget)
  rw [get_normalizeCurrent hk, if_neg hsupported, field_applyPatch hspec.nodup, hget]
  simp [hcf]

/-- What keeps a field out of a patch is there after the patch. -/
theorem PatchSpec.kept_of_none {k : String} (hget : Dict.get k patch = none) :
    kept py flags (applyPatch r patch) k = kept py flags r k := by
  have hfield : ∀ name, k = name → field name (applyPatch r patch) = field name r := by
    rintro name rfl
    rw [field_applyPatch hspec.nodup, hget]
  have hrole : k = "role" → hasRelation py "role" (applyPatch r patch) =
      hasRelation py "role" r := by
    intro hk
    rw [hasRelation, hasRelation, hfield _ hk]
  have htype : k = "virtual_machine_type" →
      hasRelation py "virtual_machine_type" (applyPatch r patch) =
        hasRelation py "virtual_machine_type" r := by
    intro hk
    rw [hasRelation, hasRelation, hfield _ hk]
  have hdescription : k = "description" →
      hasDescription (applyPatch r patch) = hasDescription r := by
    intro hk
    rw [hasDescription, hasDescription, hfield _ hk]
  have hcustom : k = "custom_fields" →
      hasCustomFields (applyPatch r patch) = hasCustomFields r := by
    intro hk
    rw [hasCustomFields, hasCustomFields, customFields, customFields, hfield _ hk]
  unfold kept
  by_cases h₁ : k = "role"
  · simp [h₁, hrole h₁]
  · by_cases h₂ : k = "virtual_machine_type"
    · simp [h₂, htype h₂]
    · by_cases h₃ : k = "description"
      · simp [h₃, hdescription h₃]
      · by_cases h₄ : k = "custom_fields"
        · simp [h₄, hcustom h₄]
        · simp [h₁, h₂, h₃, h₄]

/-- A field out of the patch stays out of it. -/
theorem PatchSpec.none_again {patch' : Json.Fields}
    (hspec' : PatchSpec py flags payload (applyPatch r patch) patch') {k : String}
    (hk : k ∈ bodyFields) (hne : k ≠ "tags") (hget : Dict.get k patch = none) :
    Dict.get k patch' = none := by
  have hsame := (normalField_congr py hk (hspec.current_of_none hk hget)).1
  rw [hspec'.value k hk hne, hspec.kept_of_none hget, hsame, ← hspec.value k hk hne]
  exact hget

/-- A field of the patch but the custom fields is not patched again. -/
theorem PatchSpec.some_again (hstatus : KeepsStatus py) {patch' : Json.Fields}
    (hspec' : PatchSpec py flags payload (applyPatch r patch) patch') {k : String}
    (hk : k ∈ bodyFields) (hne : k ≠ "tags") (hcf : k ≠ "custom_fields") {v : Json}
    (hget : Dict.get k patch = some v) : Dict.get k patch' = none := by
  have hdesired := hspec.desired_of_some hk hne hget
  obtain ⟨-, hnormal⟩ := desiredField_some hdesired
  have hback := (normalField_back py hstatus hk hnormal (hspec.current_of_some hk hne hcf hget)).1
  rw [hspec'.value k hk hne, hdesired, hback]
  simp [normalField_refl py hk hcf hnormal]

theorem PatchSpec.tags_again {patch' : Json.Fields}
    (hspec' : PatchSpec py flags payload (applyPatch r patch) patch') :
    Dict.get "tags" patch' = none := by
  have htags : "tags" ∈ bodyFields := by decide
  have hsupported : ¬ (flags.supportsVirtualMachineTypeField = false ∧
      "tags" = "virtual_machine_type") := by simp
  have hcurrent : ∀ r : Record, field "tags" (normalizeCurrentVmPayload r
      flags.supportsVirtualMachineTypeField) = field "tags" r := by
    intro r
    rw [field, get_normalizeCurrent htags, if_neg hsupported]
    rfl
  have hfield := field_applyPatch (k := "tags") (r := r) hspec.nodup
  have hfirst := hspec.tags
  have hsecond := hspec'.tags
  rw [hcurrent] at hfirst hsecond
  set desired := tagsOf py (field "tags" payload) with hdesired
  set current := tagsOf py (field "tags" r) with hcurrentdef
  cases hget : Dict.get "tags" patch with
  | none =>
    -- nothing has changed
    rw [hget] at hfield
    have hsame : field "tags" (applyPatch r patch) = field "tags" r := hfield
    have hhas : hasTags (applyPatch r patch) = hasTags r := by rw [hasTags, hasTags, hsame]
    rw [hsecond, hsame, ← hget, hfirst, tagsPatch, tagsPatch, hhas]
  | some v =>
    rw [hget] at hfield hfirst
    have hnew : field "tags" (applyPatch r patch) = v := by simpa using hfield
    rw [hsecond, hnew]
    have hfirst := hfirst.symm
    unfold tagsPatch at hfirst ⊢
    cases hover : flags.overwriteVmTags with
    | false =>
      rw [hover] at hfirst
      simp only [Bool.not_false, if_true] at hfirst ⊢
      split at hfirst
      · simp at hfirst
      · split at hfirst
        · simp at hfirst
        · obtain rfl := Option.some.inj hfirst
          rw [tagsOf_ints, hdesired, sortedSet_of_sorted (tagsOf_sorted py _)]
          simp
    | true =>
      rw [hover] at hfirst
      simp only [Bool.not_true, Bool.false_eq_true, if_false] at hfirst ⊢
      split at hfirst
      · simp at hfirst
      · obtain rfl := Option.some.inj hfirst
        -- the merged tags contain the desired ones already
        have hmerged : tagsOf py (.arr ((sortedSet (current ++ desired)).map .int)) =
            sortedSet (current ++ desired) := by
          rw [tagsOf_ints, sortedSet_of_sorted (sortedSet_sorted _)]
        have hagain : sortedSet (sortedSet (current ++ desired) ++ desired) =
            sortedSet (current ++ desired) := by
          apply sortedSet_congr
          intro n
          simp only [List.mem_append, mem_sortedSet]
          exact ⟨fun h => h.elim id Or.inr, Or.inl⟩
        rw [hmerged, hagain]
        simp

/-- The custom fields are not patched again exactly when the flag keeps them or the record has
no key beyond the desired ones. -/
theorem PatchSpec.customFields_again {old new : Json.Fields} {patch' : Json.Fields}
    (hspec' : PatchSpec py flags payload (applyPatch r patch) patch')
    (hfield : field "custom_fields" r = .obj old) (hold : (Dict.keys old).Nodup)
    (hpayload : customFieldsField payload = some new) (hnew : Json.wf (.obj new) = true) :
    Dict.get "custom_fields" patch' = none ↔
      (flags.overwriteVmCustomFields = true → ∀ k ∈ Dict.keys old, k ∈ Dict.keys new) := by
  have hk : "custom_fields" ∈ bodyFields := by decide
  have hne : "custom_fields" ≠ "tags" := by decide
  have hdesired : desiredField py flags "custom_fields" payload = some (.obj new) := by
    simp [desiredField, normalField, hpayload]
  have hcurrent : ∀ (r : Record) (fields : Json.Fields), field "custom_fields" r = .obj fields →
      normalField py "custom_fields" (normalizeCurrentVmPayload r
        flags.supportsVirtualMachineTypeField) = some (.obj fields) := by
    intro r fields hr
    have hget := get_normalizeCurrent hk r flags.supportsVirtualMachineTypeField
    rw [if_neg (by simp), hr] at hget
    simp [normalField, customFieldsField, hget]
  have hkept : ∀ (r : Record) (fields : Json.Fields), field "custom_fields" r = .obj fields →
      kept py flags r "custom_fields" = (!flags.overwriteVmCustomFields && !fields.isEmpty) := by
    intro r fields hr
    simp [kept, hasCustomFields, customFields, hr]
  have hfirst := hspec.value _ hk hne
  rw [hdesired, hcurrent r old hfield, hkept r old hfield, Option.getD_some] at hfirst
  cases hget : Dict.get "custom_fields" patch with
  | none =>
    rw [hspec.none_again hspec' hk hne hget]
    refine iff_of_true rfl ?_
    intro hover k hkold
    rw [hget, hover] at hfirst
    have heq : (Json.obj old).pyEq (.obj new) = true := by
      by_contra hdiffer
      have hfirst := hfirst.symm
      simp [hdiffer] at hfirst
    obtain ⟨v, hv⟩ := Dict.mem_keys_iff.mp hkold
    obtain ⟨y, hy, -⟩ := (Json.pyEq_obj_iff.mp heq).2 (k, v) (Dict.mem_of_get hv)
    exact Dict.mem_keys_iff.mpr ⟨y, hy⟩
  | some v =>
    obtain rfl : Json.obj new = v := Option.some.inj
      (hdesired.symm.trans (hspec.desired_of_some hk hne hget))
    have hafter : field "custom_fields" (applyPatch r patch) = .obj (Dict.update old new) := by
      rw [field_applyPatch hspec.nodup, hget, hfield]
      rfl
    have hsecond := hspec'.value _ hk hne
    rw [hdesired, hcurrent _ _ hafter, hkept _ _ hafter, Option.getD_some] at hsecond
    have hupdate := pyEq_update hold hnew
    cases hover : flags.overwriteVmCustomFields with
    | true =>
      rw [hsecond, hover]
      simp [← hupdate]
    | false =>
      -- the guard let the patch through, so there was nothing to keep
      rw [hget, hover] at hfirst
      have hempty : old = [] := by
        by_contra hne
        simp [hne] at hfirst
      have hcovered : (Json.obj (Dict.update old new)).pyEq (.obj new) = true :=
        hupdate.mpr (by simp [hempty, Dict.keys])
      rw [hsecond]
      simp [hcovered]

/-- The patched record can be compared again. -/
theorem PatchSpec.comparable_again (hstatus : KeepsStatus py) {c : VmBody}
    (hc : validate py (normalizeCurrentVmPayload r
      flags.supportsVirtualMachineTypeField) = some c)
    (hguards : GuardsOk py flags r) :
    (∃ c', validate py (normalizeCurrentVmPayload (applyPatch r patch)
      flags.supportsVirtualMachineTypeField) = some c') ∧
      GuardsOk py flags (applyPatch r patch) := by
  obtain ⟨-, hok, -⟩ := validate_some py hc
  constructor
  · apply validate_of_fieldOk py keys_normalizeCurrent
    intro k hk
    cases hget : Dict.get k patch with
    | none => exact (normalField_congr py hk (hspec.current_of_none hk hget)).2.mpr (hok k hk)
    | some v =>
      by_cases htags : k = "tags"
      · subst htags
        have hfield : field "tags" (normalizeCurrentVmPayload (applyPatch r patch)
            flags.supportsVirtualMachineTypeField) = v := by
          rw [field, get_normalizeCurrent hk, if_neg (by simp), field_applyPatch hspec.nodup, hget]
          rfl
        have hv := hspec.tags.symm.trans hget
        obtain ⟨items, rfl⟩ : ∃ items, v = .arr items := by
          unfold tagsPatch at hv
          grind
        simp [FieldOk, hfield, tagItems]
      · by_cases hcf : k = "custom_fields"
        · subst hcf
          have hget' := get_normalizeCurrent hk r flags.supportsVirtualMachineTypeField
          have hget'' := get_normalizeCurrent hk (applyPatch r patch)
            flags.supportsVirtualMachineTypeField
          rw [if_neg (by simp)] at hget' hget''
          obtain ⟨old, hold⟩ := hok _ hk
          have hfield : field "custom_fields" r = .obj old := by
            unfold customFieldsField at hold
            rw [hget'] at hold
            grind
          obtain ⟨new, rfl⟩ : ∃ new, v = .obj new := by
            obtain ⟨-, hnormal⟩ := desiredField_some (hspec.desired_of_some hk htags hget)
            obtain ⟨new, -, rfl⟩ := Option.map_eq_some_iff.mp hnormal
            exact ⟨new, rfl⟩
          rw [field_applyPatch hspec.nodup, hget, hfield] at hget''
          exact ⟨Dict.update old new, by simp [customFieldsField, hget'', patchCustomFields]⟩
        · obtain ⟨-, hnormal⟩ := desiredField_some (hspec.desired_of_some hk htags hget)
          exact (normalField_back py hstatus hk hnormal
            (hspec.current_of_some hk htags hcf hget)).2
  · have hrelation : ∀ name, name = "role" ∨ name = "virtual_machine_type" →
        (∃ id, relationId py (field name r) = some id) →
          ∃ id, relationId py (field name (applyPatch r patch)) = some id := by
      intro name hname hid
      rw [field_applyPatch hspec.nodup]
      cases hget : Dict.get name patch with
      | none => exact hid
      | some v =>
        have hk : name ∈ bodyFields := by rcases hname with rfl | rfl <;> decide
        have hne : name ≠ "tags" := by rcases hname with rfl | rfl <;> decide
        have hcf : name ≠ "custom_fields" := by rcases hname with rfl | rfl <;> decide
        obtain ⟨-, hnormal⟩ := desiredField_some (hspec.desired_of_some hk hne hget)
        obtain ⟨n, rfl⟩ : ∃ n : ℤ, v = .int n := by
          rcases hname with rfl | rfl <;>
          · obtain ⟨n, -, rfl⟩ := Option.map_eq_some_iff.mp hnormal
            exact ⟨n.1, rfl⟩
        simp [hcf, relationId, relationCandidate]
    exact ⟨fun hoff => hrelation "role" (Or.inl rfl) (hguards.1 hoff),
      fun hoff => hrelation "virtual_machine_type" (Or.inr rfl) (hguards.2 hoff)⟩

end Applied

/-- A prepared VM carries its own identity in its custom fields, and a plain cluster id, as the
payload builder leaves them. -/
structure Stamped (p : PreparedVMState) : Prop where
  vmid : relationId py (field "vmid" p.resource) = some (storedVmid py p.desiredPayload)
  vmType : extractProxmoxVmType py p.desiredPayload = preparedVmType py p
  cluster : ∀ n, relationId py (field "cluster" p.desiredPayload) = some (some n) →
    field "cluster" p.desiredPayload = .int n

theorem field_update {name : String} {old new : Json.Fields} (h : (Dict.keys new).Nodup) :
    field name (Dict.update old new) =
      if name ∈ Dict.keys new then field name new else field name old := by
  unfold field
  rw [Dict.get_update h]
  by_cases hk : name ∈ Dict.keys new
  · obtain ⟨v, hv⟩ := Dict.mem_keys_iff.mp hk
    simp [hk, hv]
  · simp [hk, Dict.get_eq_none_iff.mpr hk]

theorem field_of_not_mem {name : String} {fields : Json.Fields} (h : name ∉ Dict.keys fields) :
    field name fields = .null := by
  rw [field, Dict.get_eq_none_iff.mpr h]
  rfl

theorem get_of_customFields {record : Record} {fields : Json.Fields}
    (h : customFields record = some fields) :
    Dict.get "custom_fields" record = some (.obj fields) := by
  unfold customFields field at h
  cases hget : Dict.get "custom_fields" record with
  | none => simp [hget] at h
  | some v =>
    rw [hget] at h
    cases v <;> simp_all

theorem customFields_of_validated {payload : Json.Fields} {new : Json.Fields}
    (h : customFieldsField payload = some new) :
    (customFields payload).getD [] = new ∧ (new = [] ∨ customFields payload = some new) := by
  unfold customFieldsField at h
  unfold customFields field
  split at h
  · rename_i hget
    obtain rfl := Option.some.inj h
    simp [hget]
  · rename_i fields hget
    obtain rfl := Option.some.inj h
    simp [hget]
  · simp at h

section Rematch

variable {py flags} {p : PreparedVMState} {r : Record} {patch : Json.Fields}
  (hspec : PatchSpec py flags p.desiredPayload r patch)

include hspec

/-- The custom fields after a patch: each is the desired one, or as it was. -/
theorem PatchSpec.customFields_applied (hwf : Json.wf (.obj p.desiredPayload) = true)
    {old : Json.Fields} (hold : customFields r = some old) :
    ∃ new after, (new = [] ∨ customFields p.desiredPayload = some new) ∧
      customFields (applyPatch r patch) = some after ∧
      ∀ name, field name after =
        if name ∈ Dict.keys new then field name new else field name old := by
  have hfield : field "custom_fields" r = .obj old := by
    rw [field, get_of_customFields hold]
    rfl
  cases hget : Dict.get "custom_fields" patch with
  | none =>
    refine ⟨[], old, Or.inl rfl, ?_, by simp [Dict.keys]⟩
    rw [customFields, field_applyPatch hspec.nodup, hget, hfield]
  | some v =>
    have hdesired := hspec.desired_of_some (by decide) (by decide) hget
    obtain ⟨-, hnormal⟩ := desiredField_some hdesired
    obtain ⟨new, hnew, rfl⟩ := Option.map_eq_some_iff.mp hnormal
    obtain ⟨-, hcases⟩ := customFields_of_validated hnew
    have hkeys : (Dict.keys new).Nodup := by
      rcases hcases with rfl | hcases
      · simp [Dict.keys]
      · have hmem := Dict.mem_of_get (get_of_customFields hcases)
        have hwfnew := Json.wf_of_mem (Json.wf_obj_iff.mp hwf).2 _ hmem
        exact (Json.wf_obj_iff.mp hwfnew).1
    refine ⟨new, Dict.update old new, hcases, ?_, fun name => field_update hkeys⟩
    rw [customFields, field_applyPatch hspec.nodup, hget, hfield]
    rfl

theorem PatchSpec.storedVmid_applied (hp : Stamped py p)
    (hwf : Json.wf (.obj p.desiredPayload) = true) {n : ℤ}
    (hvmid : relationId py (field "vmid" p.resource) = some (some n))
    (hr : storedVmid py r = some n) : storedVmid py (applyPatch r patch) = some n := by
  cases hold : customFields r with
  | none => simp [storedVmid, hold] at hr
  | some old =>
    obtain ⟨new, after, hnew, hafter, hfields⟩ := hspec.customFields_applied hwf hold
    have hrold : stripInt py (field "proxmox_vm_id" old) = some n := by
      simpa [storedVmid, hold] using hr
    simp only [storedVmid, hafter, hfields]
    split
    · rename_i hk
      rcases hnew with rfl | hnew
      · simp [Dict.keys] at hk
      · have hstamp := Option.some.inj (hvmid.symm.trans hp.vmid)
        simpa [storedVmid, hnew] using hstamp.symm
    · exact hrold

theorem PatchSpec.vmType_applied (hp : Stamped py p)
    (hwf : Json.wf (.obj p.desiredPayload) = true) {old : Json.Fields}
    (hold : customFields r = some old) :
    extractProxmoxVmType py (applyPatch r patch) = preparedVmType py p ∨
      extractProxmoxVmType py (applyPatch r patch) = extractProxmoxVmType py r := by
  obtain ⟨new, after, hnew, hafter, hfields⟩ := hspec.customFields_applied hwf hold
  simp only [extractProxmoxVmType, hafter, hfields, hold]
  split
  · rename_i hk
    rcases hnew with rfl | hnew
    · simp [Dict.keys] at hk
    · left
      have hstamp := hp.vmType
      simpa [extractProxmoxVmType, hnew] using hstamp
  · exact Or.inr rfl

/-- The endpoint id of the payload, once the record has it, stays. -/
theorem PatchSpec.endpoint_applied (hkeys : ∀ kv ∈ p.desiredPayload, kv.1 ∈ bodyFields)
    (hwf : Json.wf (.obj p.desiredPayload) = true) {e : ℤ} {old : Json.Fields}
    (hold : customFields r = some old)
    (hd : extractProxmoxEndpointId py p.desiredPayload = some e)
    (hr : extractProxmoxEndpointId py r = some e) :
    extractProxmoxEndpointId py (applyPatch r patch) = some e := by
  obtain ⟨new, after, hnew, hafter, hfields⟩ := hspec.customFields_applied hwf hold
  have hnull : normalizePositiveInt py .null = none := by simp [normalizePositiveInt, Json.isNull]
  -- no field of the body is read at the top level
  have htop : ∀ name, name ∉ bodyFields → field name (applyPatch r patch) = field name r ∧
      field name p.desiredPayload = .null := by
    intro name hname
    constructor
    · have hget : Dict.get name patch = none :=
        Dict.get_eq_none_iff.mpr fun hmem => hname (hspec.keys name hmem)
      rw [field_applyPatch hspec.nodup, hget]
    · apply field_of_not_mem
      intro hmem
      obtain ⟨kv, hkv, rfl⟩ := List.mem_map.mp hmem
      exact hname (hkeys kv hkv)
  obtain ⟨h₁, h₁'⟩ := htop "cf_proxmox_endpoint_id" (by decide)
  obtain ⟨h₂, h₂'⟩ := htop "proxmox_endpoint_id" (by decide)
  have hread : ∀ name, name ∉ Dict.keys new → normalizePositiveInt py (field name new) = none := by
    intro name hname
    rw [field_of_not_mem hname, hnull]
  have hd' : (normalizePositiveInt py (field "proxmox_endpoint_id" new)).or
      (normalizePositiveInt py (field "cf_proxmox_endpoint_id" new)) = some e ∨ new = [] := by
    rcases hnew with rfl | hnew
    · exact Or.inr rfl
    · left
      simpa [extractProxmoxEndpointId, h₁', h₂', hnull, hnew] using hd
  simp only [extractProxmoxEndpointId, hold] at hr
  simp only [extractProxmoxEndpointId, hafter, h₁, h₂, hfields]
  rcases hd' with hd' | rfl
  · have hpe := hread "proxmox_endpoint_id"
    have hcf := hread "cf_proxmox_endpoint_id"
    grind
  · simpa [Dict.keys] using hr

theorem PatchSpec.cluster_applied (hp : Stamped py p) {n : ℤ}
    (hd : relationId py (field "cluster" p.desiredPayload) = some (some n))
    (hr : relationId py (field "cluster" r) = some (some n)) :
    relationId py (field "cluster" (applyPatch r patch)) = some (some n) := by
  rw [field_applyPatch hspec.nodup]
  cases hget : Dict.get "cluster" patch with
  | none => exact hr
  | some v =>
    obtain ⟨-, hnormal⟩ :=
      desiredField_some (hspec.desired_of_some (by decide) (by decide) hget)
    obtain ⟨m, hm, rfl⟩ := Option.map_eq_some_iff.mp hnormal
    have hplain := hp.cluster n hd
    have hmn : m.1 = n := by
      unfold relationField at hm
      rw [hplain] at hm
      simp only [laxInt] at hm
      grind
    simp [relationId, relationCandidate, hmn]

/-- The cluster of a patched record can be read. -/
theorem PatchSpec.clusterKey_applied
    (hr : ∃ key, extractClusterAndProxmoxVmid py r = some key) :
    ∃ key, extractClusterAndProxmoxVmid py (applyPatch r patch) = some key := by
  have hany : ∀ x : Record, (∃ key, extractClusterAndProxmoxVmid py x = some key) ↔
      ∃ id, relationId py (field "cluster" x) = some id := by
    intro x
    cases hid : relationId py (field "cluster" x) with
    | none => simp [extractClusterAndProxmoxVmid, hid]
    | some id => cases id <;> simp [extractClusterAndProxmoxVmid, hid]
  rw [hany] at hr ⊢
  rw [field_applyPatch hspec.nodup]
  cases hget : Dict.get "cluster" patch with
  | none => exact hr
  | some v =>
    obtain ⟨-, hnormal⟩ :=
      desiredField_some (hspec.desired_of_some (by decide) (by decide) hget)
    obtain ⟨m, -, rfl⟩ := Option.map_eq_some_iff.mp hnormal
    exact ⟨some m.1, rfl⟩

/-- The record keeps the key by which it was found. -/
theorem PatchSpec.recordKey_applied (hp : Stamped py p)
    (hkeys : ∀ kv ∈ p.desiredPayload, kv.1 ∈ bodyFields)
    (hwf : Json.wf (.obj p.desiredPayload) = true) {t : Scope × (ℤ × ℤ)}
    (htarget : target py p = some t) (hkey : recordKey py t.1 r = some t.2) :
    recordKey py t.1 (applyPatch r patch) = some t.2 := by
  obtain ⟨scope, id, vmid⟩ := t
  obtain ⟨hvmid, hscope⟩ := target_cases py htarget
  rcases hscope with ⟨rfl, hendpoint⟩ | ⟨rfl, -, hcluster⟩
  · obtain ⟨e, he, hrest⟩ := Option.bind_eq_some_iff.mp hkey
    obtain ⟨v, hv, hpair⟩ := Option.bind_eq_some_iff.mp hrest
    obtain ⟨rfl, rfl⟩ := Prod.mk.inj (Option.some.inj hpair)
    obtain ⟨old, hold⟩ : ∃ old, customFields r = some old := by
      cases hold : customFields r with
      | none => simp [storedVmid, hold] at hv
      | some old => exact ⟨old, rfl⟩
    have he' := hspec.endpoint_applied hkeys hwf hold hendpoint he
    have hv' := hspec.storedVmid_applied hp hwf hvmid hv
    simp [recordKey, extractEndpointAndProxmoxVmid, he', hv']
  · have hjoin := Option.join_eq_some_iff.mp hkey
    obtain ⟨c, hc, hrest⟩ := Option.bind_eq_some_iff.mp hjoin
    cases c with
    | none => simp at hrest
    | some c =>
      obtain ⟨v, hv, hpair⟩ := Option.map_eq_some_iff.mp (Option.some.inj hrest)
      obtain ⟨rfl, rfl⟩ := Prod.mk.inj hpair
      have hc' := hspec.cluster_applied hp hcluster hc
      have hv' := hspec.storedVmid_applied hp hwf hvmid hv
      simp [recordKey, extractClusterAndProxmoxVmid, hc', hv']

/-- The patched record is found again. -/
theorem PatchSpec.matched_applied (hp : Stamped py p)
    (hkeys : ∀ kv ∈ p.desiredPayload, kv.1 ∈ bodyFields)
    (hwf : Json.wf (.obj p.desiredPayload) = true) {pre post : List Record}
    (hfirst : r ∉ pre) (hmatched : matched py (pre ++ r :: post) p = some r) :
    matched py (pre ++ applyPatch r patch :: post) p = some (applyPatch r patch) := by
  obtain ⟨t, htarget, hmem, -⟩ := matched_cases py hmatched
  have hkey := ((mem_candidates py).mp hmem).2
  have hkey' := hspec.recordKey_applied hp hkeys hwf htarget hkey
  obtain ⟨old, hold⟩ : ∃ old, customFields r = some old := by
    have hfits := fits_of_key py htarget hkey
    cases hold : customFields r with
    | none =>
      have hnone : storedVmid py r = none := by simp [storedVmid, hold]
      obtain ⟨hvmid, -⟩ := target_cases py htarget
      have htype : extractProxmoxVmType py r = none := by simp [extractProxmoxVmType, hold]
      have hsame := (hfits (by simp [htype])).vmid
      rw [hnone, hvmid] at hsame
      simp at hsame
    | some old => exact ⟨old, rfl⟩
  have htypes := hspec.vmType_applied hp hwf hold
  have hchoose : choose py (preparedVmType py p)
      (candidates py (pre ++ r :: post) t.1 t.2) = some r := by
    unfold matched at hmatched
    rw [htarget] at hmatched
    exact hmatched
  have hcands : ∀ x, recordKey py t.1 x = some t.2 →
      candidates py (pre ++ x :: post) t.1 t.2 =
        candidates py pre t.1 t.2 ++ x :: candidates py post t.1 t.2 := by
    intro x hx
    simp [candidates, hx]
  have hpre : r ∉ candidates py pre t.1 t.2 := fun h => hfirst ((mem_candidates py).mp h).1
  unfold matched
  rw [htarget]
  change choose py (preparedVmType py p) (candidates py _ t.1 t.2) = _
  rw [hcands _ hkey] at hchoose
  rw [hcands _ hkey']
  rcases choose_cases py hchoose with ⟨vmType, htype, hfind⟩ | ⟨hone, hcase⟩
  · -- the first of the type before, and so after
    have hnone : (candidates py pre t.1 t.2).find?
        (fun r => decide (extractProxmoxVmType py r = some vmType)) = none := by
      rw [List.find?_append] at hfind
      cases hpref : (candidates py pre t.1 t.2).find?
          (fun r => decide (extractProxmoxVmType py r = some vmType)) with
      | none => rfl
      | some x =>
        rw [hpref, Option.some_or] at hfind
        obtain rfl := Option.some.inj hfind
        exact absurd (List.mem_of_find?_eq_some hpref) hpre
    have hrtype : extractProxmoxVmType py r = some vmType := by
      have := List.find?_some hfind
      simpa using this
    have hafter : extractProxmoxVmType py (applyPatch r patch) = some vmType := by
      rcases htypes with h | h
      · exact h.trans htype
      · exact h.trans hrtype
    simp [choose, htype, List.find?_append, hnone, hafter]
  · -- the only candidate before, and so after
    have hempty : candidates py pre t.1 t.2 = [] ∧ candidates py post t.1 t.2 = [] := by
      have hlen := congrArg List.length hone
      simp only [List.length_append, List.length_cons, List.length_nil] at hlen
      exact ⟨List.eq_nil_of_length_eq_zero (by omega), List.eq_nil_of_length_eq_zero (by omega)⟩
    rw [hempty.1, hempty.2, List.nil_append]
    cases hty : preparedVmType py p with
    | none => simp [choose]
    | some vmType =>
      have hafter : extractProxmoxVmType py (applyPatch r patch) = some vmType ∨
          extractProxmoxVmType py (applyPatch r patch) = none := by
        rcases htypes with h | h
        · exact Or.inl (h.trans hty)
        · rcases hcase with hcase | hcase
          · exact Or.inr (h.trans hcase)
          · rw [hty] at hcase
            simp at hcase
      rcases hafter with hafter | hafter <;> simp [choose, hafter]

end Rematch

/-- The keys of the record's custom fields are keys of the desired ones. -/
def CustomFieldsCovered (p : PreparedVMState) (r : Record) : Prop :=
  ∀ k ∈ Dict.keys ((customFields r).getD []), k ∈ Dict.keys ((customFields p.desiredPayload).getD [])

/-- A second comparison after the patch of the first. -/
theorem patchPayload_again (hstatus : KeepsStatus py) {p : PreparedVMState} {r : Record}
    {patch : Json.Fields} (hwfp : Json.wf (.obj p.desiredPayload) = true)
    (hwfr : Json.wf (.obj r) = true) (h : patchPayload py flags p r = some patch) :
    (∃ d, validate py p.desiredPayload = some d) ∧
      PatchSpec py flags p.desiredPayload r patch ∧
      ∃ patch', patchPayload py flags p (applyPatch r patch) = some patch' ∧
        (patch' = [] ↔ (flags.overwriteVmCustomFields = true → CustomFieldsCovered p r)) := by
  obtain ⟨d, hd, hrest⟩ := Option.bind_eq_some_iff.mp h
  obtain ⟨c, hc, hrest⟩ := Option.bind_eq_some_iff.mp hrest
  have hguards := guardsOk_of_applyGuards py flags hrest
  obtain ⟨patch₁, hpatch₁, hspec⟩ := patchPayload_spec py flags hd hc hguards
  obtain rfl : patch₁ = patch := Option.some.inj (hpatch₁.symm.trans h)
  obtain ⟨⟨c', hc'⟩, hguards'⟩ := hspec.comparable_again hstatus hc hguards
  obtain ⟨patch', hpatch', hspec'⟩ := patchPayload_spec py flags hd hc' hguards'
  refine ⟨⟨d, hd⟩, hspec, patch', hpatch', ?_⟩
  obtain ⟨-, -, -, -, hnew⟩ := validate_some py hd
  obtain ⟨-, hok, -⟩ := validate_some py hc
  obtain ⟨hnewfields, hcases⟩ := customFields_of_validated hnew
  have hcf : "custom_fields" ∈ bodyFields := by decide
  obtain ⟨old, hold⟩ := hok _ hcf
  have hgetr := get_normalizeCurrent hcf r flags.supportsVirtualMachineTypeField
  rw [if_neg (by simp)] at hgetr
  have hfield : field "custom_fields" r = .obj old := by
    unfold customFieldsField at hold
    rw [hgetr] at hold
    grind
  have holdfields : customFields r = some old := by rw [customFields, hfield]
  have hnewwf : Json.wf (.obj d.customFields) = true := by
    rcases hcases with hnil | hcases
    · rw [hnil]
      rfl
    · exact Json.wf_of_mem (Json.wf_obj_iff.mp hwfp).2 _
        (Dict.mem_of_get (get_of_customFields hcases))
  have holdkeys : (Dict.keys old).Nodup := by
    have hwfold := Json.wf_of_mem (Json.wf_obj_iff.mp hwfr).2 _
      (Dict.mem_of_get (get_of_customFields holdfields))
    exact (Json.wf_obj_iff.mp hwfold).1
  have hcustom := hspec.customFields_again hspec' hfield holdkeys hnew hnewwf
  rw [CustomFieldsCovered, holdfields, hnewfields, Option.getD_some, ← hcustom, Dict.eq_nil_iff]
  refine ⟨fun h => h _, fun h k => ?_⟩
  by_cases hk : k ∈ bodyFields
  · by_cases htags : k = "tags"
    · exact htags ▸ hspec.tags_again hspec'
    · by_cases hcfk : k = "custom_fields"
      · exact hcfk ▸ h
      · cases hget : Dict.get k patch₁ with
        | none => exact hspec.none_again hspec' hk htags hget
        | some v => exact hspec.some_again hstatus hspec' hk htags hcfk hget
  · exact Dict.get_eq_none_iff.mpr fun hmem => hk (hspec'.keys k hmem)

/-- The queue of one prepared VM that is matched. -/
theorem queue_single {p : PreparedVMState} {snapshot : List Record} {r : Record}
    {patch : Json.Fields} (hindexes : ∃ ix, buildVmSnapshotIdentityIndexes py snapshot = some ix)
    (hmatched : matched py snapshot p = some r)
    (hpatch : patchPayload py flags p r = some patch) :
    buildVmOperationQueuePython py flags [p] snapshot =
      some [⟨if patch.isEmpty then .get else .update, p, some r, patch⟩] := by
  obtain ⟨indexes, hindexes⟩ := hindexes
  obtain ⟨t, htarget, -⟩ := Option.bind_eq_some_iff.mp hmatched
  obtain ⟨clusterId, hcluster, htarget⟩ := Option.bind_eq_some_iff.mp htarget
  obtain ⟨vmid, hvmid, -⟩ := Option.bind_eq_some_iff.mp htarget
  have hop := operation_eq py flags hindexes hcluster (Option.join_eq_some_iff.mp hvmid)
  rw [hmatched] at hop
  dsimp only at hop
  rw [hpatch] at hop
  unfold buildVmOperationQueuePython
  rw [hindexes]
  change [p].mapM (operation py flags indexes) = _
  rw [List.mapM_cons, hop]
  rfl

/-- A patched record needs no second patch exactly when the flag leaves custom fields alone or
the record has no custom field beyond the desired ones. -/
theorem converges_iff (hstatus : KeepsStatus py) {p : PreparedVMState} (hp : Stamped py p)
    {pre post : List Record} {r : Record} {patch : Json.Fields}
    (hwfp : Json.wf (.obj p.desiredPayload) = true) (hwfr : Json.wf (.obj r) = true)
    (hfirst : r ∉ pre)
    (hqueue : buildVmOperationQueuePython py flags [p] (pre ++ r :: post) =
      some [⟨.update, p, some r, patch⟩]) :
    (∃ op, buildVmOperationQueuePython py flags [p] (pre ++ applyPatch r patch :: post) =
      some [op] ∧ op.method = .get) ↔
      (flags.overwriteVmCustomFields = true → CustomFieldsCovered p r) := by
  have hmatched : matched py (pre ++ r :: post) p = some r := by
    have hall := queue_matched py flags hqueue
    simpa using hall.symm
  obtain ⟨indexes, hindexes, hmap⟩ := Option.bind_eq_some_iff.mp hqueue
  -- the first comparison gave the patch
  have hpatch : patchPayload py flags p r = some patch := by
    rw [List.mapM_cons] at hmap
    obtain ⟨op, hop, hmap⟩ := Option.bind_eq_some_iff.mp hmap
    obtain rfl : op = ⟨.update, p, some r, patch⟩ := by simpa using hmap
    have hids := hop
    obtain ⟨clusterId, hcluster, hids⟩ := Option.bind_eq_some_iff.mp hids
    obtain ⟨vmid, hvmid, -⟩ := Option.bind_eq_some_iff.mp hids
    rw [operation_eq py flags hindexes hcluster hvmid, hmatched] at hop
    obtain ⟨patch', hpatch', heq⟩ := Option.map_eq_some_iff.mp hop
    obtain ⟨-, -, -, rfl⟩ := NetBoxVMOperation.mk.inj heq
    exact hpatch'
  obtain ⟨⟨d, hd⟩, hspec, patch', hpatch', hiff⟩ :=
    patchPayload_again py flags hstatus hwfp hwfr hpatch
  have hkeys := (validate_some py hd).1
  have hmatched' := hspec.matched_applied hp hkeys hwfp hfirst hmatched
  have hindexes' : ∃ ix, buildVmSnapshotIdentityIndexes py
      (pre ++ applyPatch r patch :: post) = some ix := by
    rw [buildVmSnapshotIdentityIndexes_isSome]
    have hall := (buildVmSnapshotIdentityIndexes_isSome py).mp ⟨indexes, hindexes⟩
    intro x hx
    rcases List.mem_append.mp hx with hx | hx
    · exact hall x (List.mem_append_left _ hx)
    · rcases List.mem_cons.mp hx with rfl | hx
      · exact hspec.clusterKey_applied (hall r (by simp))
      · exact hall x (by simp [hx])
  rw [queue_single py flags hindexes' hmatched' hpatch', ← hiff]
  constructor
  · rintro ⟨op, hop, hmethod⟩
    obtain rfl := List.singleton_inj.mp (Option.some.inj hop)
    by_contra hne
    simp [hne] at hmethod
  · rintro rfl
    exact ⟨_, rfl, rfl⟩

/-- The record of guest 100 under another name, with further custom fields. -/
def renamedRecord100 (further : Json.Fields) : Record :=
  [("id", .int 7), ("name", .str "guest-100"), ("status", .str "active"),
    ("cluster", .obj [("id", .int 1)]),
    ("custom_fields", .obj ([("proxmox_endpoint_id", .int 500), ("proxmox_vm_id", .int 100),
      ("proxmox_vm_type", .str "qemu")] ++ further))]

theorem stamped_guest100 : Stamped .ascii (guest100 "qemu") where
  vmid := by decide
  vmType := by decide
  cluster n h := by
    have hcluster : relationId .ascii (field "cluster" (guest100 "qemu").desiredPayload) =
        some (some 1) := by decide
    obtain rfl : 1 = n := by simpa [hcluster] using h
    rfl

/-- The name is patched once. -/
theorem converges_iff_renamed :
    (∃ op, buildVmOperationQueuePython .ascii allFlags [guest100 "qemu"]
      ([] ++ applyPatch (renamedRecord100 []) [("name", .str "qemu")] :: []) = some [op] ∧
        op.method = .get) ↔
      (allFlags.overwriteVmCustomFields = true →
        CustomFieldsCovered (guest100 "qemu") (renamedRecord100 [])) :=
  converges_iff .ascii allFlags (by intro s; cases s <;> decide) stamped_guest100 (by decide)
    (by decide) (by simp) rfl

/-- The custom fields that are patched on every run. -/
def stampPatch : Json.Fields :=
  [("custom_fields", .obj [("proxmox_endpoint_id", .int 500), ("proxmox_vm_id", .int 100),
    ("proxmox_vm_type", .str "qemu")])]

/-- A custom field of the operator's makes the record differ on every run. -/
theorem further_field_patched_again :
    buildVmOperationQueuePython .ascii allFlags [guest100 "qemu"]
        [renamedRecord100 [("owner", .str "ops")]] =
      some [⟨.update, guest100 "qemu", some (renamedRecord100 [("owner", .str "ops")]),
        ("name", .str "qemu") :: stampPatch⟩] ∧
    ¬ ∃ op, buildVmOperationQueuePython .ascii allFlags [guest100 "qemu"]
        [applyPatch (renamedRecord100 [("owner", .str "ops")])
          (("name", .str "qemu") :: stampPatch)] = some [op] ∧ op.method = .get := by
  refine ⟨rfl, ?_⟩
  have hagain : buildVmOperationQueuePython .ascii allFlags [guest100 "qemu"]
      [applyPatch (renamedRecord100 [("owner", .str "ops")])
        (("name", .str "qemu") :: stampPatch)] =
      some [⟨.update, guest100 "qemu", some (applyPatch (renamedRecord100 [("owner", .str "ops")])
        (("name", .str "qemu") :: stampPatch)), stampPatch⟩] := rfl
  rintro ⟨op, hop, hmethod⟩
  rw [hagain] at hop
  obtain rfl := List.singleton_inj.mp (Option.some.inj hop)
  exact absurd hmethod (by decide)

end ProxboxApi.VmQueue
