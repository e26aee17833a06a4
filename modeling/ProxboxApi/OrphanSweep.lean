import Mathlib.Data.List.Basic
import Mathlib.Data.Int.Basic
import ProxboxApi.Dict
import ProxboxApi.Outcomes
import ProxboxApi.Text

/-! The search for VMs that a run has not touched: the typed sidecar rows first, then the legacy
custom field. -/

namespace ProxboxApi.OrphanSweep

structure Tag where
  slug : String
  name : String
  deriving DecidableEq, Repr

/-- A NetBox VM, with its custom field `proxbox_last_run_id`. -/
structure VirtualMachine where
  id : ℤ
  tags : List Tag
  cfLastRunId : Option String
  deriving DecidableEq, Repr

/-- A sidecar row; `last_run_id` may be missing, and may be null. -/
structure SidecarRow where
  virtualMachine : Option ℤ
  lastRunId : Option (Option String)
  deriving DecidableEq, Repr

/-- The two queries of the legacy pass on a tag. -/
inductive LegacyFilter where
  | notRunId
  | empty
  deriving DecidableEq, Repr

/-- The VMs of NetBox, the rows of the optional sidecar route, and the VMs that a legacy query
with a tag and a run id lists. -/
structure NetBox where
  vms : List VirtualMachine
  rows : List SidecarRow
  sidecarInstalled : Bool
  legacy : String → LegacyFilter → String → List VirtualMachine
  distinct : (vms.map (·.id)).Nodup
  installed : sidecarInstalled = false → rows = []

/-- Which of the reads fail: the sidecar list, the VM of the sidecar row with an index, the
sidecar row of a VM, and the legacy query on a tag. -/
structure Failures where
  sidecars : Bool
  fetch : ℕ → Bool
  parent : ℤ → Bool
  legacy : String → LegacyFilter → Bool

variable (nb : NetBox) (fails : Failures) (runId : String) (vmSlugs : List String)

/-- `_sidecar_text`. -/
def sidecarText (value : Option String) : String := Text.strip (value.getD "")

/-- `_fetch_vm_by_id`. -/
def fetchVmById (failed : Bool) (id : ℤ) : Option VirtualMachine :=
  if failed then none else nb.vms.find? (·.id = id)

/-- `_record_has_any_tag_slug`. -/
def recordHasAnyTagSlug (vm : VirtualMachine) : Bool :=
  let wanted := (vmSlugs.map Text.strip).filter (· ≠ "")
  vm.tags.any fun tag => wanted.contains (Text.strip (if tag.slug ≠ "" then tag.slug else tag.name))

/-- The two collections of the scan. -/
structure Scan where
  candidates : List (ℤ × VirtualMachine)
  currentVmIds : List ℤ

/-- The body of the loop of `scan_vm_sidecar_orphan_candidates`. -/
def scanRow (scan : Scan) (row : SidecarRow × ℕ) : Scan :=
  match row.1.lastRunId, row.1.virtualMachine with
  | some value, some vmId =>
    if sidecarText value = runId then
      { scan with currentVmIds := scan.currentVmIds ++ [vmId] }
    else if (Dict.get vmId scan.candidates).isSome then scan
    else match fetchVmById nb (fails.fetch row.2) vmId with
      | none => scan
      | some vm =>
        if recordHasAnyTagSlug vmSlugs vm then
          { scan with candidates := Dict.set vmId vm scan.candidates }
        else scan
  | _, _ => scan

/-- `SidecarVMOrphanScan`. -/
structure SidecarVMOrphanScan where
  staleCandidates : List VirtualMachine
  currentVmIds : List ℤ
  sidecarUnavailable : Bool
  sidecarReadFailed : Bool

def scanVmSidecarOrphanCandidates : SidecarVMOrphanScan :=
  if !nb.sidecarInstalled then ⟨[], [], true, false⟩
  else if fails.sidecars then ⟨[], [], false, true⟩
  else
    let scan := nb.rows.zipIdx.foldl (scanRow nb fails runId vmSlugs) ⟨[], []⟩
    ⟨scan.candidates.map (·.2), scan.currentVmIds, false, false⟩

/-- The candidates by their ids, after the sidecar pass. -/
def addSidecarOrphanCandidates (scan : SidecarVMOrphanScan)
    (candidatesById : List (ℤ × VirtualMachine)) : List (ℤ × VirtualMachine) :=
  if scan.sidecarReadFailed then candidatesById
  else scan.staleCandidates.foldl (fun d vm => Dict.setDefault vm.id vm d) candidatesById

/-- `resolve_vm_sidecar_by_parent_id`: two rows are ambiguous. -/
def resolveVmSidecarByParentId (vmId : ℤ) : Option SidecarRow :=
  if !nb.sidecarInstalled || fails.parent vmId then none
  else match nb.rows.filter (·.virtualMachine = some vmId) with
    | [row] => some row
    | _ => none

/-- `resolve_vm_last_run_id`, with legacy custom fields enabled. -/
def resolveVmLastRunId (vm : VirtualMachine) : Option String :=
  match (resolveVmSidecarByParentId nb fails vm.id).bind (·.lastRunId) with
  | some value => (some (sidecarText value)).filter (· ≠ "")
  | none => (some (sidecarText vm.cfLastRunId)).filter (· ≠ "")

/-- `_sidecar_marks_current_run`. -/
def sidecarMarksCurrentRun (vm : VirtualMachine) (currentSidecarVmIds : Option (List ℤ)) : Bool :=
  match currentSidecarVmIds with
  | none => false
  | some ids => ids.contains vm.id || resolveVmLastRunId nb fails vm = some runId

/-- One record of the legacy pass. -/
def addLegacyRecord (currentSidecarVmIds : Option (List ℤ))
    (candidatesById : List (ℤ × VirtualMachine)) (vm : VirtualMachine) :
    List (ℤ × VirtualMachine) :=
  if (currentSidecarVmIds.map fun ids => ids.contains vm.id).getD false then candidatesById
  else if sidecarMarksCurrentRun nb fails runId vm currentSidecarVmIds then candidatesById
  else Dict.setDefault vm.id vm candidatesById

inductive FindError where
  | runIdRequired
  | legacyReadFailed
  deriving DecidableEq, Repr

/-- One query of the legacy pass. -/
def addLegacyQuery (currentSidecarVmIds : Option (List ℤ))
    (candidatesById : List (ℤ × VirtualMachine)) (query : String × LegacyFilter) :
    Except FindError (List (ℤ × VirtualMachine)) :=
  if fails.legacy query.1 query.2 then .error .legacyReadFailed
  else .ok ((nb.legacy query.1 query.2 runId).foldl
    (addLegacyRecord nb fails runId currentSidecarVmIds) candidatesById)

def addLegacyOrphanCandidates (customFieldsEnabled : Bool) (currentSidecarVmIds : Option (List ℤ))
    (candidatesById : List (ℤ × VirtualMachine)) :
    Except FindError (List (ℤ × VirtualMachine)) :=
  if !customFieldsEnabled then .ok candidatesById
  else (vmSlugs.flatMap fun slug => [(slug, .notRunId), (slug, .empty)]).foldlM
    (addLegacyQuery nb fails runId currentSidecarVmIds) candidatesById

/-- `_normalized_vm_slugs`. -/
def normalizedVmSlugs : List String :=
  Dict.keys (Dict.update [] ((vmSlugs.filter (Text.strip · ≠ "")).map fun slug => (slug, ())))

def findOrphanVms (customFieldsEnabled : Bool) : Except FindError (List VirtualMachine) := do
  if runId = "" then throw .runIdRequired
  let slugs := normalizedVmSlugs vmSlugs
  let scan := scanVmSidecarOrphanCandidates nb fails runId slugs
  let candidatesById := addSidecarOrphanCandidates scan []
  if scan.sidecarReadFailed then return candidatesById.map (·.2)
  let current := if scan.sidecarUnavailable then none else some scan.currentVmIds
  let candidatesById ←
    addLegacyOrphanCandidates nb fails runId slugs customFieldsEnabled current candidatesById
  return candidatesById.map (·.2)

/-- A row names the VM as touched by the run. -/
def SidecarRow.Current (row : SidecarRow) (vmId : ℤ) : Prop :=
  row.virtualMachine = some vmId ∧ ∃ value, row.lastRunId = some value ∧ sidecarText value = runId

/-- A row names the VM as touched by another run, or by none. -/
def SidecarRow.Stale (row : SidecarRow) (vmId : ℤ) : Prop :=
  row.virtualMachine = some vmId ∧ ∃ value, row.lastRunId = some value ∧ sidecarText value ≠ runId

/-- A stale row of the VM is met, and the VM has one of the tags. -/
def StaleCandidate (rows : List (SidecarRow × ℕ)) (vmId : ℤ) : Prop :=
  ∃ row ∈ rows, row.1.Stale runId vmId ∧ ∃ vm, fetchVmById nb (fails.fetch row.2) vmId = some vm ∧
    recordHasAnyTagSlug vmSlugs vm = true

/-- Each candidate is kept under its id. -/
def Keyed (candidates : List (ℤ × VirtualMachine)) : Prop := ∀ kv ∈ candidates, kv.2.id = kv.1

section Candidates

variable {nb fails runId vmSlugs} {scan : Scan} {vm : VirtualMachine} {vmId : ℤ}
  {d : List (ℤ × VirtualMachine)} {rows : List (SidecarRow × ℕ)}

theorem fetchVmById_id {failed : Bool} (h : fetchVmById nb failed vmId = some vm) : vm.id = vmId := by
  unfold fetchVmById at h
  split at h
  · cases h
  · simpa using List.find?_some h

theorem mem_keys_set {k : ℤ} : vmId ∈ Dict.keys (Dict.set k vm d) ↔ vmId ∈ Dict.keys d ∨ vmId = k := by
  rw [Dict.mem_keys_iff, Dict.mem_keys_iff, Dict.get_set]
  by_cases hk : k = vmId
  · simp [hk]
  · simp [hk, Ne.symm hk]

theorem mem_keys_setDefault :
    vmId ∈ Dict.keys (Dict.setDefault vm.id vm d) ↔ vmId ∈ Dict.keys d ∨ vmId = vm.id := by
  unfold Dict.setDefault
  split
  · rename_i h
    constructor
    · exact .inl
    · rintro (hmem | rfl)
      · exact hmem
      · exact Dict.mem_keys_iff.mpr ⟨_, h⟩
  · exact mem_keys_set

theorem Keyed.setDefault (h : Keyed d) : Keyed (Dict.setDefault vm.id vm d) := by
  unfold Dict.setDefault
  split
  · exact h
  · intro kv hkv
    rcases Dict.mem_set hkv with hmem | rfl
    · exact h kv hmem
    · rfl

/-- What one row adds to the candidates. -/
theorem scanRow_candidates (row : SidecarRow × ℕ) :
    vmId ∈ Dict.keys (scanRow nb fails runId vmSlugs scan row).candidates ↔
      vmId ∈ Dict.keys scan.candidates ∨ StaleCandidate nb fails runId vmSlugs [row] vmId := by
  unfold scanRow StaleCandidate SidecarRow.Stale
  obtain ⟨⟨vmId', lastRunId⟩, i⟩ := row
  cases lastRunId with
  | none => simp
  | some value => cases vmId' with
    | none => simp
    | some k =>
      dsimp only
      split
      · rename_i hcurrent
        simp [hcurrent]
      · rename_i hstale
        split
        · rename_i hthere
          obtain ⟨vm, hvm⟩ := Option.isSome_iff_exists.mp hthere
          constructor
          · exact .inl
          · rintro (hmem | ⟨row, hrow, ⟨hk, _⟩, _⟩)
            · exact hmem
            · cases List.mem_singleton.mp hrow
              cases hk
              exact Dict.mem_keys_iff.mpr ⟨vm, hvm⟩
        · split
          · rename_i hnone
            constructor
            · exact .inl
            · rintro (hmem | ⟨row, hrow, ⟨hk, _⟩, vm, hvm, _⟩)
              · exact hmem
              · cases List.mem_singleton.mp hrow
                cases hk
                rw [hnone] at hvm
                cases hvm
          · rename_i vm hvm
            split
            · rename_i htag
              rw [mem_keys_set]
              refine or_congr_right ?_
              constructor
              · rintro rfl
                exact ⟨_, List.mem_singleton_self _, ⟨rfl, value, rfl, hstale⟩, vm, hvm, htag⟩
              · rintro ⟨row, hrow, ⟨hk, _⟩, _⟩
                cases List.mem_singleton.mp hrow
                cases hk
                rfl
            · rename_i htag
              constructor
              · exact .inl
              · rintro (hmem | ⟨row, hrow, ⟨hk, _⟩, vm', hvm', htag'⟩)
                · exact hmem
                · cases List.mem_singleton.mp hrow
                  cases hk
                  rw [hvm] at hvm'
                  cases hvm'
                  exact absurd htag' htag

theorem scanRow_currentVmIds (row : SidecarRow × ℕ) :
    vmId ∈ (scanRow nb fails runId vmSlugs scan row).currentVmIds ↔
      vmId ∈ scan.currentVmIds ∨ row.1.Current runId vmId := by
  unfold scanRow SidecarRow.Current
  obtain ⟨⟨vmId', lastRunId⟩, i⟩ := row
  cases lastRunId with
  | none => simp
  | some value => cases vmId' with
    | none => simp
    | some k =>
      dsimp only
      split
      · rename_i hcurrent
        simp [hcurrent, eq_comm]
      · rename_i hstale
        have hnot : ¬(some k = some vmId ∧
            ∃ value', some value = some value' ∧ sidecarText value' = runId) := by
          rintro ⟨_, value', heq, hcurrent⟩
          cases heq
          exact hstale hcurrent
        rw [or_iff_left hnot]
        split
        · rfl
        · split
          · rfl
          · split <;> rfl

theorem scanRow_keyed (h : Keyed scan.candidates) (row : SidecarRow × ℕ) :
    Keyed (scanRow nb fails runId vmSlugs scan row).candidates := by
  unfold scanRow
  split
  · split
    · exact h
    · split
      · exact h
      · split
        · exact h
        · rename_i vm hvm
          split
          · intro kv hkv
            rcases Dict.mem_set hkv with hmem | rfl
            · exact h kv hmem
            · exact fetchVmById_id hvm
          · exact h
  · exact h

/-- What the rows add to the two collections. -/
theorem scanRows (h : Keyed scan.candidates) :
    let end' := rows.foldl (scanRow nb fails runId vmSlugs) scan
    Keyed end'.candidates ∧
      (∀ vmId, vmId ∈ Dict.keys end'.candidates ↔
        vmId ∈ Dict.keys scan.candidates ∨ StaleCandidate nb fails runId vmSlugs rows vmId) ∧
      ∀ vmId, vmId ∈ end'.currentVmIds ↔
        vmId ∈ scan.currentVmIds ∨ ∃ row ∈ rows, row.1.Current runId vmId := by
  induction rows generalizing scan with
  | nil => exact ⟨h, by simp [StaleCandidate], by simp⟩
  | cons row rows ih =>
    obtain ⟨hkeyed, hcandidates, hcurrent⟩ := ih (scanRow_keyed h row)
    refine ⟨hkeyed, fun vmId => ?_, fun vmId => ?_⟩
    · rw [List.foldl_cons, hcandidates, scanRow_candidates, or_assoc]
      simp [StaleCandidate]
    · rw [List.foldl_cons, hcurrent, scanRow_currentVmIds, or_assoc]
      simp

theorem addSidecar_keys (stale : List VirtualMachine) (h : Keyed d) :
    let end' := stale.foldl (fun d vm => Dict.setDefault vm.id vm d) d
    Keyed end' ∧ ∀ vmId, vmId ∈ Dict.keys end' ↔
      vmId ∈ Dict.keys d ∨ ∃ vm ∈ stale, vm.id = vmId := by
  induction stale generalizing d with
  | nil => exact ⟨h, by simp⟩
  | cons vm stale ih =>
    have hstep : Keyed (Dict.setDefault vm.id vm d) := h.setDefault
    obtain ⟨hkeyed, hkeys⟩ := ih hstep
    refine ⟨hkeyed, fun vmId => ?_⟩
    rw [List.foldl_cons, hkeys, mem_keys_setDefault, or_assoc]
    simp [eq_comm]

theorem Keyed.exists_iff (h : Keyed d) : (∃ vm ∈ d.map (·.2), vm.id = vmId) ↔ vmId ∈ Dict.keys d := by
  simp only [Dict.keys, List.mem_map]
  constructor
  · rintro ⟨vm, ⟨kv, hmem, rfl⟩, rfl⟩
    exact ⟨kv, hmem, (h kv hmem).symm⟩
  · rintro ⟨kv, hmem, rfl⟩
    exact ⟨kv.2, ⟨kv, hmem, rfl⟩, h kv hmem⟩

/-- The legacy pass adds no VM that the sidecar pass has seen to be current. -/
theorem addLegacyRecords {ids : List ℤ} (hcurrent : vmId ∈ ids) (records : List VirtualMachine)
    (h : Keyed d) :
    let end' := records.foldl (addLegacyRecord nb fails runId (some ids)) d
    Keyed end' ∧ (vmId ∈ Dict.keys end' ↔ vmId ∈ Dict.keys d) := by
  induction records generalizing d with
  | nil => exact ⟨h, .rfl⟩
  | cons vm records ih =>
    have hstep : Keyed (addLegacyRecord nb fails runId (some ids) d vm) ∧
        (vmId ∈ Dict.keys (addLegacyRecord nb fails runId (some ids) d vm) ↔
          vmId ∈ Dict.keys d) := by
      unfold addLegacyRecord
      split
      · exact ⟨h, .rfl⟩
      · rename_i hother
        split
        · exact ⟨h, .rfl⟩
        · refine ⟨h.setDefault, mem_keys_setDefault.trans (or_iff_left ?_)⟩
          rintro rfl
          exact hother (by simpa using hcurrent)
    obtain ⟨hkeyed, hkeys⟩ := ih hstep.1
    exact ⟨hkeyed, hkeys.trans hstep.2⟩

theorem addLegacy_keys {customFieldsEnabled : Bool} {ids : List ℤ} {d' : List (ℤ × VirtualMachine)}
    (hcurrent : vmId ∈ ids) (h : Keyed d) (hrun : addLegacyOrphanCandidates nb fails runId vmSlugs
      customFieldsEnabled (some ids) d = .ok d') :
    Keyed d' ∧ (vmId ∈ Dict.keys d' ↔ vmId ∈ Dict.keys d) := by
  unfold addLegacyOrphanCandidates at hrun
  split at hrun
  · cases hrun
    exact ⟨h, .rfl⟩
  · refine @Outcomes.foldlM_invariant _ _ _ _ (fun _ d' => Keyed d' ∧
      (vmId ∈ Dict.keys d' ↔ vmId ∈ Dict.keys d)) ?_ [] _ _ _ ⟨h, .rfl⟩ hrun
    rintro _ query d₁ d₂ ⟨hkeyed, hkeys⟩ hquery
    unfold addLegacyQuery at hquery
    split at hquery
    · cases hquery
    · cases hquery
      obtain ⟨hkeyed', hkeys'⟩ := addLegacyRecords hcurrent _ hkeyed
      exact ⟨hkeyed', hkeys'.trans hkeys⟩

end Candidates

/-- A VM with a current sidecar row is spared if and only if the scan meets no stale row of it with
a tag of the sweep on its VM, or meets no row at all. -/
theorem spared_iff {nb : NetBox} {fails : Failures} {runId : String} {vmSlugs : List String}
    {customFieldsEnabled : Bool} {vmId : ℤ} {candidates : List VirtualMachine}
    (hcurrent : ∃ row ∈ nb.rows, row.Current runId vmId)
    (h : findOrphanVms nb fails runId vmSlugs customFieldsEnabled = .ok candidates) :
    (∀ vm ∈ candidates, vm.id ≠ vmId) ↔ fails.sidecars = true ∨
      ¬StaleCandidate nb fails runId (normalizedVmSlugs vmSlugs) nb.rows.zipIdx vmId := by
  obtain ⟨row, hrow, hmarked⟩ := hcurrent
  have hinstalled : nb.sidecarInstalled = true := by
    by_contra hmissing
    rw [nb.installed (by simpa using hmissing)] at hrow
    cases hrow
  obtain ⟨i, hi⟩ := List.mem_iff_getElem?.mp hrow
  have hidx : (row, i) ∈ nb.rows.zipIdx := List.mem_zipIdx_iff_getElem?.mpr hi
  unfold findOrphanVms scanVmSidecarOrphanCandidates addSidecarOrphanCandidates at h
  simp only [hinstalled, Bool.not_true, Bool.false_eq_true, if_false] at h
  split at h
  · cases h
  · cases hfails : fails.sidecars with
    | true =>
      rw [hfails] at h
      cases h
      simp
    | false =>
      simp only [hfails, Bool.false_eq_true, if_false] at h
      obtain ⟨d', hlegacy, hend⟩ := Outcomes.bind_eq_ok_iff.mp h
      cases hend
      have hstart : Keyed ([] : List (ℤ × VirtualMachine)) := by simp [Keyed]
      obtain ⟨hscan, hstale, hids⟩ := @scanRows nb fails runId (normalizedVmSlugs vmSlugs)
        ⟨[], []⟩ nb.rows.zipIdx hstart
      obtain ⟨hkeyed, hkeys⟩ := addSidecar_keys _ hstart
      obtain ⟨hkeyed', hkeys'⟩ := addLegacy_keys
        ((hids vmId).mpr (.inr ⟨(row, i), hidx, hmarked⟩)) hkeyed hlegacy
      have hcandidate : (∃ vm ∈ d'.map (·.2), vm.id = vmId) ↔
          StaleCandidate nb fails runId (normalizedVmSlugs vmSlugs) nb.rows.zipIdx vmId := by
        rw [hkeyed'.exists_iff, hkeys', hkeys, hscan.exists_iff, hstale]
        simp [Dict.keys]
      rw [← hcandidate]
      simp

/-- VM 5 with a row of an earlier run before the one of `run-2`. -/
def twoRows : NetBox where
  vms := [⟨5, [⟨"proxbox-discovered-qemu", ""⟩], none⟩]
  rows := [⟨some 5, some (some "run-1")⟩, ⟨some 5, some (some "run-2")⟩]
  sidecarInstalled := true
  legacy _ _ _ := []
  distinct := by decide
  installed := by decide

def noFailures : Failures := ⟨false, fun _ => false, fun _ => false, fun _ _ => false⟩

theorem spared_iff_run_two : (∀ vm ∈ twoRows.vms, vm.id ≠ 5) ↔ noFailures.sidecars = true ∨
    ¬StaleCandidate twoRows noFailures "run-2" (normalizedVmSlugs ["proxbox-discovered-qemu"])
      twoRows.rows.zipIdx 5 :=
  @spared_iff twoRows noFailures "run-2" ["proxbox-discovered-qemu"] true 5 twoRows.vms
    ⟨⟨some 5, some (some "run-2")⟩, by decide, rfl, _, rfl, by decide +kernel⟩ (by decide +kernel)

/-- A VM with a current row is deleted for its earlier row. -/
theorem stale_row_wins : (∃ row ∈ twoRows.rows, row.Current "run-2" 5) ∧
    findOrphanVms twoRows noFailures "run-2" ["proxbox-discovered-qemu"] false =
      .ok twoRows.vms ∧ ∃ vm ∈ twoRows.vms, vm.id = 5 :=
  ⟨⟨⟨some 5, some (some "run-2")⟩, by decide, rfl, _, rfl, by decide +kernel⟩,
    by decide +kernel, by decide⟩

end ProxboxApi.OrphanSweep
