import ProxboxApi.SnapshotSync

/-! What a snapshot sync leaves, and what the next one does. -/

namespace ProxboxApi.SnapshotSync

open FirstMatch (Table)

variable {scans : Scans} {t : Table Row} {s : Scan} {r : Row} {d : SyncState}

theorem current_eq_some_iff {current : SyncState} : r.current = some current ↔
    ∃ vm vmid node, r.virtualMachine = some vm ∧ r.vmid = some vmid ∧ r.node = some node ∧
      current = ⟨vm, none, r.name, none, vmid, node, none, none, none, "active"⟩ := by
  unfold Row.current
  cases hvm : r.virtualMachine with
  | none => simp
  | some vm =>
    cases hvmid : r.vmid with
    | none => simp
    | some vmid =>
      cases hnode : r.node with
      | none => simp
      | some node => simp [eq_comm]

/-- A row is of a payload if the four fields are. -/
theorem rowKey_eq_some_iff : spec.rowKey r = some (spec.key d) ↔
    r.virtualMachine = some d.virtualMachine ∧ r.vmid = some d.vmid ∧ r.name = d.name ∧
      r.node = some d.node := by
  change r.current.map SyncState.key = some d.key ↔ _
  rw [Option.map_eq_some_iff]
  constructor
  · rintro ⟨current, hcurrent, hkey⟩
    obtain ⟨vm, vmid, node, hvm, hvmid, hnode, rfl⟩ := current_eq_some_iff.mp hcurrent
    simp only [SyncState.key, Prod.mk.injEq] at hkey
    obtain ⟨rfl, rfl, hname, rfl⟩ := hkey
    exact ⟨hvm, hvmid, hname, hnode⟩
  · rintro ⟨hvm, hvmid, hname, hnode⟩
    refine ⟨_, current_eq_some_iff.mpr ⟨_, _, _, hvm, hvmid, hnode, rfl⟩, ?_⟩
    rw [SyncState.key, SyncState.key, hname]

theorem apply_apply (r : Row) (p : Patch) : (r.apply p).apply p = r.apply p := by
  have hor : ∀ {α : Type} (x y : Option α), x.or (x.or y) = x.or y := by
    intro α x y
    cases x <;> rfl
  have hgetD : ∀ (x : Option String) (y : String), x.getD (x.getD y) = x.getD y := by
    intro x y
    cases x <;> rfl
  simp only [Row.apply, hor, hgetD]

theorem changed_or {α : Type} [DecidableEq α] (desired : Option α) :
    (changed none desired).or desired = desired := by
  unfold changed
  split
  · rename_i h
    rw [h]
    rfl
  · exact Option.or_self

theorem change_of_none (h : r.current = none) : d.change r = r := by
  unfold SyncState.change
  rw [h]

theorem change_of_some {current : SyncState} (h : r.current = some current) :
    d.change r = r.apply (patchPayload current d) := by
  unfold SyncState.change
  rw [h]

theorem id_change (d : SyncState) (r : Row) : (d.change r).id = r.id := by
  cases h : r.current with
  | none => rw [change_of_none h]
  | some current =>
    rw [change_of_some h]
    rfl

/-- A change keeps the fields of the lookup. -/
theorem current_change (d : SyncState) (r : Row) : (d.change r).current = r.current := by
  cases h : r.current with
  | none => rw [change_of_none h, h]
  | some current =>
    rw [change_of_some h, ← h]
    rfl

theorem change_change (d : SyncState) (r : Row) : d.change (d.change r) = d.change r := by
  cases h : r.current with
  | none => rw [change_of_none h, change_of_none h]
  | some current =>
    have hagain : (d.change r).current = some current := by rw [current_change, h]
    rw [change_of_some hagain, change_of_some h, apply_apply]

theorem change_row (id : ℕ) (d : SyncState) : d.change (d.row id) = d.row id := by
  unfold SyncState.change Row.current Row.apply patchPayload SyncState.row
  simp only [Option.bind_eq_bind, Option.bind_some, changed_or, Row.mk.injEq, true_and]
  unfold changed
  split <;> rfl

theorem spec_stable : spec.Stable where
  make _ _ := rfl
  change := id_change
  change_key d r _ := congrArg (Option.map SyncState.key) (current_change d r)
  make_key id d := (rowKey_eq_some_iff (r := d.row id)).mpr ⟨rfl, rfl, rfl, rfl⟩
  change_change := change_change
  change_make := change_row

/-- Every row is patched: no current state has a subtype. -/
theorem differs_payload {s : Scan} {snapshot : Snapshot} (h : r.current ≠ none) :
    spec.differs (buildSnapshotPayload s snapshot) r = true := by
  obtain ⟨current, hcurrent⟩ := Option.ne_none_iff_exists'.mp h
  obtain ⟨vm, vmid, node, _, _, _, rfl⟩ := current_eq_some_iff.mp hcurrent
  change r.current.any _ = true
  rw [hcurrent, Option.any_some, decide_eq_true_eq]
  intro hempty
  have hsubtype := congrArg Patch.subtype hempty
  simp [patchPayload, changed, buildSnapshotPayload, Patch.empty] at hsubtype

theorem Scans.eq_of_vm (hs : s ∈ scans.list) {s' : Scan} (hs' : s' ∈ scans.list)
    (h : s.vm = s'.vm) : s = s' :=
  List.inj_on_of_nodup_map scans.nodup hs hs' h

theorem mem_payloads : d ∈ scans.payloads ↔
    ∃ s ∈ scans.list, ∃ snapshot ∈ s.collected, buildSnapshotPayload s snapshot = d := by
  unfold Scans.payloads
  simp only [List.mem_flatMap, List.mem_map]

/-- The names known for a VM are those of its scan, if that is complete. -/
theorem namesByVmId_eq_some_iff {vm : ℕ} {names : List String} :
    scans.namesByVmId vm = some names ↔
      ∃ s ∈ scans.list, s.complete = true ∧ s.vm = vm ∧ s.names = names := by
  unfold Scans.namesByVmId
  rw [Option.map_eq_some_iff]
  constructor
  · rintro ⟨s, hfind, rfl⟩
    have hs := List.mem_reverse.mp (List.mem_of_find?_eq_some hfind)
    have hprop := List.find?_some hfind
    rw [Bool.and_eq_true, decide_eq_true_eq] at hprop
    exact ⟨s, hs, hprop.1, hprop.2, rfl⟩
  · rintro ⟨s, hs, hcomplete, rfl, rfl⟩
    cases hfind : scans.list.reverse.find? fun s' => s'.complete && s'.vm = s.vm with
    | none =>
      rw [List.find?_eq_none] at hfind
      have hno := hfind s (List.mem_reverse.mpr hs)
      simp [hcomplete] at hno
    | some s' =>
      have hs' := List.mem_reverse.mp (List.mem_of_find?_eq_some hfind)
      have hprop := List.find?_some hfind
      rw [Bool.and_eq_true, decide_eq_true_eq] at hprop
      exact ⟨s', rfl, by rw [scans.eq_of_vm hs' hs hprop.2]⟩

/-- The rows that the cleanup deletes: of a VM that is scanned completely, of no name that it has. -/
theorem mem_orphans {rows : List Row} : r ∈ scans.orphans rows ↔ r ∈ rows ∧ r.name ≠ "" ∧
    r.id ≠ 0 ∧ ∃ s ∈ scans.list, s.complete = true ∧ r.virtualMachine = some s.vm ∧
      r.name ∉ s.names := by
  unfold Scans.orphans
  rw [List.mem_filter]
  refine and_congr_right fun _ => ?_
  simp only [ne_eq, decide_not, Bool.and_eq_true, Bool.not_eq_true', decide_eq_false_iff_not,
    Option.any_eq_true, List.contains_eq_mem, and_assoc]
  refine and_congr_right fun _ => and_congr_right fun _ => ?_
  constructor
  · rintro ⟨vm, hvm, names, hnames, hnot⟩
    obtain ⟨s, hs, hcomplete, rfl, rfl⟩ := namesByVmId_eq_some_iff.mp hnames
    exact ⟨s, hs, hcomplete, hvm, hnot⟩
  · rintro ⟨s, hs, hcomplete, hvm, hnot⟩
    exact ⟨s.vm, hvm, s.names, namesByVmId_eq_some_iff.mpr ⟨s, hs, hcomplete, rfl, rfl⟩, hnot⟩

/-- The row is of the VM and the name. -/
def Row.isOf (vm : ℕ) (name : String) (r : Row) : Bool := r.virtualMachine = some vm && r.name = name

theorem isOf_iff {vm : ℕ} {name : String} :
    r.isOf vm name = true ↔ r.virtualMachine = some vm ∧ r.name = name := by
  rw [Row.isOf, Bool.and_eq_true, decide_eq_true_eq, decide_eq_true_eq]

theorem isOf_change (vm : ℕ) (name : String) (d : SyncState) (r : Row) :
    (d.change r).isOf vm name = r.isOf vm name := by
  cases h : r.current with
  | none => rw [change_of_none h]
  | some current =>
    rw [change_of_some h]
    rfl

/-- A complete scan finds one row for each of its names, and no further named row. -/
def OneRowEach (scans : Scans) (rows : List Row) : Prop :=
  ∀ s ∈ scans.list, s.complete = true →
    (∀ name ∈ s.names, rows.countP (Row.isOf s.vm name) = 1) ∧
      ∀ r ∈ rows, r.virtualMachine = some s.vm → r.name ≠ "" → r.id ≠ 0 → r.name ∈ s.names

/-- The rows of a name that a complete scan finds, if there are any, are one, with the scan's vmid
and node. -/
def Placed (scans : Scans) (rows : List Row) : Prop :=
  ∀ s ∈ scans.list, s.complete = true → ∀ name ∈ s.names, ∀ r ∈ rows,
    r.virtualMachine = some s.vm → r.name = name → r.vmid = some s.vmid ∧ r.node = some s.node ∧
      ∀ r' ∈ rows, r'.virtualMachine = some s.vm → r'.name = name → r' = r

theorem cleanup_rows (hsound : spec.Sound t) : ∀ r, r ∈ (scans.cleanup t).rows ↔
    r ∈ t.rows ∧ r ∉ scans.orphans t.rows := by
  intro r
  unfold Scans.cleanup
  dsimp only
  rw [List.mem_filter, decide_eq_true_eq]
  refine and_congr_right fun hr => not_congr ?_
  constructor
  · intro hid
    obtain ⟨r', hr', hid⟩ := List.mem_map.mp hid
    obtain rfl := List.inj_on_of_nodup_map hsound.ids (mem_orphans.mp hr').1 hr hid
    exact hr'
  · exact List.mem_map_of_mem

/-- The cleanup keeps the rows of the names of a scan. -/
theorem countP_cleanup (hsound : spec.Sound t) (hs : s ∈ scans.list) {name : String}
    (hname : name ∈ s.names) :
    (scans.cleanup t).rows.countP (Row.isOf s.vm name) = t.rows.countP (Row.isOf s.vm name) := by
  unfold Scans.cleanup
  dsimp only
  rw [List.countP_filter]
  apply List.countP_congr
  intro r hr
  simp only [Bool.and_eq_true, decide_eq_true_eq, and_iff_left_iff_imp, isOf_iff]
  rintro ⟨hvm, rfl⟩ hid
  obtain ⟨r', hr', hid⟩ := List.mem_map.mp hid
  obtain ⟨hmem, _, _, s', hs', _, hvm', hnot⟩ := mem_orphans.mp hr'
  obtain rfl := List.inj_on_of_nodup_map hsound.ids hmem hr hid
  rw [hvm, Option.some.injEq] at hvm'
  rw [← scans.eq_of_vm hs hs' hvm'] at hnot
  exact hnot hname

theorem countP_eq_one_iff {α : Type} {p : α → Bool} {l : List α} (h : l.Nodup) :
    l.countP p = 1 ↔ ∃ a ∈ l, p a = true ∧ ∀ b ∈ l, p b = true → b = a := by
  rw [List.countP_eq_length_filter, List.length_eq_one_iff]
  constructor
  · rintro ⟨a, ha⟩
    have hmem : ∀ b, b ∈ l ∧ p b = true ↔ b = a := by
      intro b
      rw [← List.mem_filter, ha, List.mem_singleton]
    obtain ⟨hl, hp⟩ := (hmem a).mpr rfl
    exact ⟨a, hl, hp, fun b hb hpb => (hmem b).mp ⟨hb, hpb⟩⟩
  · rintro ⟨a, hl, hp, honly⟩
    have hrep : l.filter p = List.replicate (l.filter p).length a := by
      rw [List.eq_replicate_iff]
      exact ⟨rfl, fun b hb => honly b (List.mem_filter.mp hb).1 (List.mem_filter.mp hb).2⟩
    have hnodup : (l.filter p).Nodup := h.filter p
    have hpos : 0 < (l.filter p).length :=
      List.length_pos_of_mem (List.mem_filter.mpr ⟨hl, hp⟩)
    rw [hrep, List.nodup_replicate] at hnodup
    refine ⟨a, ?_⟩
    rw [hrep, show (l.filter p).length = 1 by omega]
    rfl

/-- The rows of a name of a scan after the reconciliation: one more, if none was of its vmid and
node. -/
theorem countP_reconciled (hsound : spec.Sound t) (hs : s ∈ scans.list) {snapshot : Snapshot}
    (hsnapshot : snapshot ∈ s.collected) :
    (spec.bulk t scans.payloads).rows.countP (Row.isOf s.vm snapshot.name) =
      t.rows.countP (Row.isOf s.vm snapshot.name) +
        if (spec.matched t.rows (buildSnapshotPayload s snapshot)).isNone then 1 else 0 := by
  rw [FirstMatch.countP_bulk (q := fun d => d.virtualMachine = s.vm && d.name = snapshot.name)
    spec_stable.toLawful hsound]
  · congr 1
    apply FirstMatch.countP_creations (mem_payloads.mpr ⟨s, hs, snapshot, hsnapshot, rfl⟩)
    intro d hd
    obtain ⟨s', hs', snapshot', _, rfl⟩ := mem_payloads.mp hd
    rw [Bool.and_eq_true, decide_eq_true_eq, decide_eq_true_eq]
    constructor
    · rintro ⟨hvm, hname⟩
      rw [scans.eq_of_vm hs' hs hvm]
      change (s.vm, s.vmid, snapshot'.name, s.node) = (s.vm, s.vmid, snapshot.name, s.node)
      rw [show snapshot'.name = snapshot.name from hname]
    · intro hkey
      exact ⟨congrArg Prod.fst hkey, congrArg (fun key => key.2.2.1) hkey⟩
  · exact isOf_change s.vm snapshot.name
  · intro id d
    rw [Bool.eq_iff_iff, isOf_iff, Bool.and_eq_true, decide_eq_true_eq, decide_eq_true_eq]
    exact and_congr_left' (Option.some_inj)

theorem matched_eq_none_iff {rows : List Row} : spec.matched rows d = none ↔ ∀ r ∈ rows,
    ¬(r.virtualMachine = some d.virtualMachine ∧ r.vmid = some d.vmid ∧ r.name = d.name ∧
      r.node = some d.node) := by
  rw [FirstMatch.matched_eq_none_iff]
  exact forall₂_congr fun r _ => not_congr rowKey_eq_some_iff

/-- After the reconciliation a name of a scan has one row exactly if its rows were placed before. -/
theorem countP_reconciled_eq_one_iff (hsound : spec.Sound t) (hs : s ∈ scans.list)
    {snapshot : Snapshot} (hsnapshot : snapshot ∈ s.collected) :
    (spec.bulk t scans.payloads).rows.countP (Row.isOf s.vm snapshot.name) = 1 ↔
      ∀ r ∈ t.rows, r.virtualMachine = some s.vm → r.name = snapshot.name →
        r.vmid = some s.vmid ∧ r.node = some s.node ∧
          ∀ r' ∈ t.rows, r'.virtualMachine = some s.vm → r'.name = snapshot.name → r' = r := by
  have hnodup : t.rows.Nodup := hsound.ids.of_map spec.id
  rw [countP_reconciled hsound hs hsnapshot]
  constructor
  · intro hcount r hr hvm hname
    cases hmatched : spec.matched t.rows (buildSnapshotPayload s snapshot) with
    | none =>
      rw [hmatched, Option.isNone_none, if_pos rfl] at hcount
      have hzero : t.rows.countP (Row.isOf s.vm snapshot.name) = 0 := by omega
      exact absurd (isOf_iff.mpr ⟨hvm, hname⟩) (List.countP_eq_zero.mp hzero r hr)
    | some r₀ =>
      rw [hmatched, Option.isNone_some, if_neg Bool.false_ne_true, Nat.add_zero] at hcount
      obtain ⟨a, _, _, honly⟩ := (countP_eq_one_iff hnodup).mp hcount
      obtain ⟨hr₀, hkey⟩ := FirstMatch.mem_of_matched hmatched
      obtain ⟨hvm₀, hvmid₀, hname₀, hnode₀⟩ := rowKey_eq_some_iff.mp hkey
      have heq : r = r₀ := (honly r hr (isOf_iff.mpr ⟨hvm, hname⟩)).trans
        (honly r₀ hr₀ (isOf_iff.mpr ⟨hvm₀, hname₀⟩)).symm
      rw [heq]
      refine ⟨hvmid₀, hnode₀, ?_⟩
      intro r' hr' hvm' hname'
      exact (honly r' hr' (isOf_iff.mpr ⟨hvm', hname'⟩)).trans
        (honly r₀ hr₀ (isOf_iff.mpr ⟨hvm₀, hname₀⟩)).symm
  · intro hplaced
    by_cases hex : ∃ r ∈ t.rows, r.virtualMachine = some s.vm ∧ r.name = snapshot.name
    · obtain ⟨r, hr, hvm, hname⟩ := hex
      obtain ⟨hvmid, hnode, honly⟩ := hplaced r hr hvm hname
      have hmatched : spec.matched t.rows (buildSnapshotPayload s snapshot) ≠ none := by
        intro hnone
        exact matched_eq_none_iff.mp hnone r hr ⟨hvm, hvmid, hname, hnode⟩
      have hone : t.rows.countP (Row.isOf s.vm snapshot.name) = 1 := by
        rw [countP_eq_one_iff hnodup]
        refine ⟨r, hr, isOf_iff.mpr ⟨hvm, hname⟩, ?_⟩
        intro r' hr' hof
        exact honly r' hr' (isOf_iff.mp hof).1 (isOf_iff.mp hof).2
      rw [hone, if_neg (by simpa using hmatched)]
    · push Not at hex
      have hzero : t.rows.countP (Row.isOf s.vm snapshot.name) = 0 := by
        rw [List.countP_eq_zero]
        intro r hr hof
        exact hex r hr (isOf_iff.mp hof).1 (isOf_iff.mp hof).2
      have hmatched : spec.matched t.rows (buildSnapshotPayload s snapshot) = none :=
        matched_eq_none_iff.mpr fun r hr h => hex r hr h.1 h.2.2.1
      rw [hzero, hmatched, Option.isNone_none, if_pos rfl]

/-- A run leaves one row for each name exactly if the rows were placed before. -/
theorem oneRowEach_iff (hsound : spec.Sound t) :
    OneRowEach scans (createVirtualMachineSnapshots scans t).rows ↔ Placed scans t.rows := by
  have hsound' := FirstMatch.bulk_sound spec_stable.toLawful hsound scans.payloads
  unfold OneRowEach Placed createVirtualMachineSnapshots
  refine forall₂_congr fun s hs => imp_congr_right fun hcomplete => ?_
  have hnamed : ∀ r ∈ (scans.cleanup (spec.bulk t scans.payloads)).rows,
      r.virtualMachine = some s.vm → r.name ≠ "" → r.id ≠ 0 → r.name ∈ s.names := by
    intro r hr hvm hname hid
    obtain ⟨hmem, hkept⟩ := (cleanup_rows hsound' r).mp hr
    by_contra hnot
    exact hkept (mem_orphans.mpr ⟨hmem, hname, hid, s, hs, hcomplete, hvm, hnot⟩)
  rw [and_iff_left hnamed]
  refine forall₂_congr fun name hname => ?_
  rw [countP_cleanup hsound' hs hname]
  obtain ⟨snapshot, hsnapshot, rfl⟩ := List.mem_map.mp hname
  exact countP_reconciled_eq_one_iff hsound hs hsnapshot

theorem cleanup_sound (hsound : spec.Sound t) : spec.Sound (scans.cleanup t) where
  ids := (List.filter_sublist.map spec.id).nodup hsound.ids
  next r hr := hsound.next r ((cleanup_rows hsound r).mp hr).1

theorem run_sound (hsound : spec.Sound t) :
    spec.Sound (createVirtualMachineSnapshots scans t) :=
  cleanup_sound (FirstMatch.bulk_sound spec_stable.toLawful hsound scans.payloads)

/-- Every payload has a row after a run. -/
theorem matched_run (hsound : spec.Sound t) (hd : d ∈ scans.payloads) :
    spec.matched (createVirtualMachineSnapshots scans t).rows d ≠ none := by
  have hsound' := FirstMatch.bulk_sound spec_stable.toLawful hsound scans.payloads
  obtain ⟨r, hr, hkey⟩ := FirstMatch.exists_bulk spec_stable hsound hd
  obtain ⟨hvm, hvmid, hname, hnode⟩ := rowKey_eq_some_iff.mp hkey
  intro hnone
  refine matched_eq_none_iff.mp hnone r ?_ ⟨hvm, hvmid, hname, hnode⟩
  unfold createVirtualMachineSnapshots
  rw [cleanup_rows hsound']
  refine ⟨hr, ?_⟩
  intro horphan
  obtain ⟨_, _, _, s', hs', _, hvm', hnot⟩ := mem_orphans.mp horphan
  obtain ⟨s, hs, snapshot, hsnapshot, rfl⟩ := mem_payloads.mp hd
  rw [hvm, Option.some.injEq] at hvm'
  rw [← scans.eq_of_vm hs hs' hvm', hname] at hnot
  exact hnot (List.mem_map_of_mem hsnapshot)

variable (scans) in
/-- The next run creates nothing. -/
theorem created_again (hsound : spec.Sound t) :
    (requests scans (createVirtualMachineSnapshots scans t)).created = [] := by
  change List.filter _ _ = []
  rw [List.filter_eq_nil_iff]
  intro d hd hnone
  have hmem := (FirstMatch.mem_firstOfKeys hd).1
  exact matched_run hsound hmem (by simpa using hnone)

theorem merged_face (rows : List Row) (ds : List SyncState) (r : Row) :
    (spec.merged rows ds r).id = r.id ∧ (spec.merged rows ds r).name = r.name ∧
      (spec.merged rows ds r).virtualMachine = r.virtualMachine := by
  unfold FirstMatch.Spec.merged
  split
  · rename_i d _
    split
    · change (d.change r).id = _ ∧ (d.change r).name = _ ∧ (d.change r).virtualMachine = _
      cases h : r.current with
      | none => rw [change_of_none h]; exact ⟨rfl, rfl, rfl⟩
      | some current => rw [change_of_some h]; exact ⟨rfl, rfl, rfl⟩
    · exact ⟨rfl, rfl, rfl⟩
  · exact ⟨rfl, rfl, rfl⟩

variable (scans) in
/-- The next run deletes nothing. -/
theorem deleted_again (hsound : spec.Sound t) :
    (requests scans (createVirtualMachineSnapshots scans t)).deleted = [] := by
  have hsound' := FirstMatch.bulk_sound spec_stable.toLawful hsound scans.payloads
  have hcreated := created_again scans hsound
  rw [List.eq_nil_iff_forall_not_mem]
  intro r hr
  change r ∈ scans.orphans (spec.bulk (createVirtualMachineSnapshots scans t)
    scans.payloads).rows at hr
  obtain ⟨hmem, hname, hid, hscan⟩ := mem_orphans.mp hr
  change spec.creations _ _ = [] at hcreated
  rw [FirstMatch.bulk_rows spec_stable.toLawful (run_sound hsound), hcreated,
    FirstMatch.Spec.made, List.append_nil] at hmem
  obtain ⟨r₀, hr₀, rfl⟩ := List.mem_map.mp hmem
  obtain ⟨hid₀, hname₀, hvm₀⟩ := merged_face (createVirtualMachineSnapshots scans t).rows
    (spec.firstOfKeys [] scans.payloads) r₀
  rw [hname₀] at hname
  rw [hid₀] at hid
  rw [hname₀, hvm₀] at hscan
  obtain ⟨hbulk, hkept⟩ := (cleanup_rows hsound' r₀).mp hr₀
  exact hkept (mem_orphans.mpr ⟨hbulk, hname, hid, hscan⟩)

/-- The next run patches the row of every payload. -/
theorem patched_again_iff (hsound : spec.Sound t) :
    (requests scans (createVirtualMachineSnapshots scans t)).patched = [] ↔
      scans.payloads = [] := by
  constructor
  · intro hpatched
    rw [List.eq_nil_iff_forall_not_mem]
    intro d hd
    obtain ⟨d', hd', _⟩ : ∃ d' ∈ spec.firstOfKeys [] scans.payloads, spec.key d' = spec.key d :=
      FirstMatch.exists_firstOfKeys [] hd List.not_mem_nil
    have hmem := (FirstMatch.mem_firstOfKeys hd').1
    obtain ⟨r, hr⟩ := Option.ne_none_iff_exists'.mp (matched_run hsound hmem)
    have hcurrent : r.current ≠ none := by
      intro hnone
      have hkey := (FirstMatch.mem_of_matched hr).2
      change r.current.map SyncState.key = _ at hkey
      rw [hnone] at hkey
      cases hkey
    obtain ⟨s, _, snapshot, _, heq⟩ := mem_payloads.mp hmem
    have hdiffers : spec.differs d' r = true := heq ▸ differs_payload hcurrent
    have hpatch : (d', r) ∈ (requests scans (createVirtualMachineSnapshots scans t)).patched :=
      FirstMatch.mem_patches.mpr ⟨hd', hr, hdiffers⟩
    rw [hpatched] at hpatch
    cases hpatch
  · intro hnone
    change spec.patches _ _ = []
    rw [hnone]
    rfl

/-- The run leaves one row for each name, and the next one asks nothing of NetBox. -/
def Converges (scans : Scans) (t : Table Row) : Prop :=
  OneRowEach scans (createVirtualMachineSnapshots scans t).rows ∧
    requests scans (createVirtualMachineSnapshots scans t) = ⟨[], [], []⟩

/-- A sync converges only where there is no snapshot, since the next one patches every row; it leaves
one row for each name exactly if the rows of the name, if any, are one with the present vmid and
node; and the next one neither creates nor deletes. -/
theorem snapshots_converge_iff (scans : Scans) (t : Table Row) (hsound : spec.Sound t) :
    (Converges scans t ↔ scans.payloads = []) ∧
      (OneRowEach scans (createVirtualMachineSnapshots scans t).rows ↔ Placed scans t.rows) ∧
      (requests scans (createVirtualMachineSnapshots scans t)).created = [] ∧
      (requests scans (createVirtualMachineSnapshots scans t)).deleted = [] := by
  have hcreated := created_again scans hsound
  have hdeleted := deleted_again scans hsound
  refine ⟨?_, oneRowEach_iff hsound, hcreated, hdeleted⟩
  have hrequests : requests scans (createVirtualMachineSnapshots scans t) = ⟨[], [], []⟩ ↔
      scans.payloads = [] := by
    rw [← patched_again_iff hsound]
    constructor
    · intro h
      rw [h]
    · intro hpatched
      cases hall : requests scans (createVirtualMachineSnapshots scans t) with
      | mk created patched deleted =>
        rw [hall] at hcreated hpatched hdeleted
        dsimp only at hcreated hpatched hdeleted
        rw [hcreated, hpatched, hdeleted]
  unfold Converges
  rw [hrequests, and_iff_right_iff_imp]
  intro hnone
  rw [oneRowEach_iff hsound]
  intro s hs _ name hname
  obtain ⟨snapshot, hsnapshot, _⟩ := List.mem_map.mp hname
  have hmem := mem_payloads.mpr ⟨s, hs, snapshot, hsnapshot, rfl⟩
  rw [hnone] at hmem
  cases hmem

section MigratedGuest

/-- A guest that has moved to another node, with one snapshot. -/
def Scans.sample : Scans :=
  ⟨[⟨7, by decide, 100, "pve2", by decide, .qemu, none,
    [⟨"before-upgrade", some "", some "2024-05-01T10:00:00", none⟩,
      ⟨"current", some "You are here!", none, some "before-upgrade"⟩], true⟩], by decide⟩

/-- The row of the snapshot, from the time on the first node. -/
def beforeMigration : Table Row :=
  ⟨[⟨1, some 7, none, "before-upgrade", some "", some 100, some "pve1",
    some "2024-05-01T10:00:00", none, some "qemu", "active"⟩], 2⟩

theorem beforeMigration_sound : spec.Sound beforeMigration := ⟨by decide, by decide⟩

theorem snapshots_converge_iff_migrated : spec.Sound beforeMigration ∧
    (Converges .sample beforeMigration ↔ Scans.sample.payloads = []) :=
  ⟨beforeMigration_sound,
    (snapshots_converge_iff .sample beforeMigration beforeMigration_sound).1⟩

/-- The run leaves two rows of the name, and the next run patches the one of the present node. -/
theorem migrated_guest_two_rows :
    (createVirtualMachineSnapshots .sample beforeMigration).rows.map
        (fun r => (r.id, r.virtualMachine, r.name, r.node)) =
      [(1, some 7, "before-upgrade", some "pve1"), (2, some 7, "before-upgrade", some "pve2")] ∧
    (requests .sample (createVirtualMachineSnapshots .sample beforeMigration)).patched.map
        (fun dr => dr.2.id) = [2] ∧
    ¬Converges .sample beforeMigration := by
  refine ⟨by decide +kernel, by decide +kernel, ?_⟩
  intro hconverges
  have hrow := (hconverges.1 _ (List.mem_singleton_self _) rfl).1 "before-upgrade" (by decide +kernel)
  revert hrow
  decide +kernel

end MigratedGuest

end ProxboxApi.SnapshotSync
