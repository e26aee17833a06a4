import Mathlib.Data.List.Perm.Basic
import ProxboxApi.BackupVmCache

/-! Whether the owner of a backup is guessed. -/

namespace ProxboxApi.Backups

/-- The VM is filed under the key. -/
def Under (key : Key) (vm : Vm) : Prop :=
  vm.vmid = some key.vmid ∧ (key.endpointId = none ∨ key.endpointId = vm.endpointId) ∧
    (key.cluster = none ∨ key.cluster = vm.cluster)

instance (key : Key) (vm : Vm) : Decidable (Under key vm) := inferInstanceAs (Decidable (_ ∧ _))

def under (vms : List Vm) (key : Key) : List Vm := vms.filter (Under key)

/-- The record of a key after one more VM is filed under it. -/
def put (entry : Option (Option Vm)) (vm : Vm) : Option (Option Vm) :=
  match entry with
  | none => some (some vm)
  | some none => some none
  | some (some old) => some (if old.id = vm.id then some old else none)

/-- The record of a key that these VMs are filed under: the first of them, if they are one. -/
def outcome : List Vm → Option (Option Vm)
  | [] => none
  | vm :: vms => some (if ∀ vm' ∈ vms, vm'.id = vm.id then some vm else none)

variable {vms vms' : List Vm} {key : Key} {vm : Vm}

theorem mem_under : vm ∈ under vms key ↔ vm ∈ vms ∧ Under key vm := by simp [under]

theorem mem_identityKeys_iff {endpointId : Option ℤ} {cluster : Option String} {vmid : ℤ} :
    key ∈ identityKeys endpointId cluster vmid ↔ key.vmid = vmid ∧
      (key.endpointId = none ∨ key.endpointId = endpointId) ∧
        (key.cluster = none ∨ key.cluster = cluster) := by
  obtain ⟨endpointId', cluster', vmid'⟩ := key
  simp only [identityKeys, List.mem_cons, Key.mk.injEq, List.not_mem_nil, or_false]
  tauto

theorem put_put (entry : Option (Option Vm)) (vm : Vm) : put (put entry vm) vm = put entry vm := by
  match entry with
  | none => simp [put]
  | some none => rfl
  | some (some old) =>
    unfold put
    by_cases hid : old.id = vm.id
    · simp [hid]
    · simp [hid]

theorem insertVm_apply (records : Records) (key' : Key) :
    insertVm records key vm key' = if key' = key then put (records key') vm else records key' := by
  by_cases hkey : key' = key
  · subst hkey
    rw [if_pos rfl, insertVm, Function.update_self]
    rfl
  · rw [if_neg hkey, insertVm, Function.update_of_ne hkey]

theorem foldl_insertVm_apply (keys : List Key) (records : Records) :
    keys.foldl (fun records key => insertVm records key vm) records key =
      if key ∈ keys then put (records key) vm else records key := by
  induction keys generalizing records with
  | nil => simp
  | cons key' keys ih =>
    rw [List.foldl_cons, ih, insertVm_apply]
    by_cases hkey : key = key'
    · simp [hkey, put_put]
    · simp [hkey]

theorem addVm_apply (records : Records) :
    addVm records vm key = if Under key vm then put (records key) vm else records key := by
  match hvmid : vm.vmid with
  | none =>
    have hnot : ¬ Under key vm := fun h => by simp [h.1] at hvmid
    rw [if_neg hnot, addVm, hvmid]
  | some vmid =>
    have hmem : key ∈ identityKeys vm.endpointId vm.cluster vmid ↔ Under key vm := by
      rw [mem_identityKeys_iff, Under, hvmid, Option.some.injEq, eq_comm (a := vmid)]
    rw [addVm, hvmid]
    simp only [foldl_insertVm_apply, hmem]

theorem outcome_concat (vms : List Vm) (vm : Vm) : outcome (vms ++ [vm]) = put (outcome vms) vm := by
  cases vms with
  | nil => simp [outcome, put]
  | cons old vms =>
    simp only [List.cons_append, outcome, List.forall_mem_append, List.forall_mem_singleton]
    by_cases hids : ∀ vm' ∈ vms, vm'.id = old.id
    · by_cases hid : old.id = vm.id
      · rw [if_pos ⟨hids, hid.symm⟩, if_pos hids, put, if_pos hid]
      · rw [if_neg fun h => hid h.2.symm, if_pos hids, put, if_neg hid]
    · rw [if_neg fun h => hids h.1, if_neg hids, put]

theorem under_concat (vms : List Vm) (vm : Vm) (key : Key) :
    under (vms ++ [vm]) key = if Under key vm then under vms key ++ [vm] else under vms key := by
  unfold under
  rw [List.filter_append]
  by_cases hvm : Under key vm
  · simp [hvm]
  · simp [hvm]

/-- What the cache holds for a key is determined by the VMs filed under it. -/
theorem cacheOf_eq (vms : List Vm) (key : Key) : cacheOf vms key = outcome (under vms key) := by
  induction vms using List.reverseRecOn with
  | nil => rfl
  | append_singleton vms vm ih =>
    rw [cacheOf, List.foldl_append, ← cacheOf, List.foldl_cons, List.foldl_nil, addVm_apply, ih,
      under_concat]
    by_cases hvm : Under key vm
    · rw [if_pos hvm, if_pos hvm, outcome_concat]
    · rw [if_neg hvm, if_neg hvm]

/-- What is known on both sides agrees. -/
def Compatible (endpointId : Option ℤ) (cluster : Option String) (vm : Vm) : Prop :=
  conflicts endpointId vm.endpointId = false ∧ conflicts cluster vm.cluster = false

instance (endpointId : Option ℤ) (cluster : Option String) (vm : Vm) :
    Decidable (Compatible endpointId cluster vm) := inferInstanceAs (Decidable (_ ∧ _))

/-- Two VMs are filed under the key. -/
def Disputed (vms : List Vm) (key : Key) : Prop :=
  ∃ vm ∈ under vms key, ∃ vm' ∈ under vms key, vm'.id ≠ vm.id

/-- One record is filed under the key. -/
def Owns (vms : List Vm) (key : Key) (vm : Vm) : Prop :=
  vm ∈ under vms key ∧ ∀ vm' ∈ under vms key, vm' = vm

section Walk

variable (vms : List Vm) (endpointId : Option ℤ) (cluster : Option String)

/-- The lookup goes on to the next key: at most one VM is filed under this one, and it is not that
of the query. -/
def Passed (key : Key) : Prop :=
  ¬ Disputed vms key ∧ ∀ vm ∈ under vms key, ¬ Compatible endpointId cluster vm

/-- The VM alone can be meant, or it alone is of exactly that identity. -/
def Meant (vmid : ℤ) (vm : Vm) : Prop :=
  (∀ vm' ∈ vms, vm'.vmid = some vmid → Compatible endpointId cluster vm' → vm'.id = vm.id) ∨
    (vm.endpointId = endpointId ∧ vm.cluster = cluster ∧ ∀ vm' ∈ vms, vm'.vmid = some vmid →
      vm'.endpointId = endpointId → vm'.cluster = cluster → vm'.id = vm.id)

/-- An answer names no VM that is only one of several, and it does not depend on the order in which
the VMs were added. -/
structure Unguessed (vmid : ℤ) (answer : List Vm → Option Vm) : Prop where
  owner : ∀ vm, answer vms = some vm → vm.vmid = some vmid ∧ Compatible endpointId cluster vm ∧
    Meant vms endpointId cluster vmid vm
  stable : ∀ vms', vms'.Perm vms → answer vms' = answer vms

/-- The first key that is not passed over is disputed, or one record that fits the query is filed
under it and either has exactly the queried identity or leaves out no VM that fits as well. -/
def Clear (vmid : ℤ) : List Key → Prop
  | [] => True
  | key :: keys =>
    (Passed vms endpointId cluster key ∧ Clear vmid keys) ∨ Disputed vms key ∨
      ∃ vm, Owns vms key vm ∧ Compatible endpointId cluster vm ∧
        ((vm.endpointId = endpointId ∧ vm.cluster = cluster) ∨
          ∀ vm' ∈ vms, vm'.vmid = some vmid → Compatible endpointId cluster vm' →
            ¬ Under key vm' → vm'.id = vm.id)

end Walk

variable {endpointId : Option ℤ} {cluster : Option String} {keys : List Key} {vmid : ℤ}

theorem outcome_ne_none (h : vm ∈ vms) : outcome vms ≠ none := by
  cases vms with
  | nil => cases h
  | cons old vms => simp [outcome]

/-- The VM that a key leads to was filed under it, and no other one was. -/
theorem of_outcome_eq_some (h : outcome vms = some (some vm)) :
    vms.head? = some vm ∧ ∀ vm' ∈ vms, vm'.id = vm.id := by
  cases vms with
  | nil => cases h
  | cons old vms =>
    simp only [outcome, Option.some.injEq, Option.ite_none_right_eq_some] at h
    obtain ⟨hids, rfl⟩ := h
    exact ⟨rfl, List.forall_mem_cons.mpr ⟨rfl, hids⟩⟩

theorem outcome_of_disputed (h : Disputed vms key) : outcome (under vms key) = some none := by
  obtain ⟨vm, hvm, vm', hvm', hne⟩ := h
  match houtcome : outcome (under vms key) with
  | none => exact absurd houtcome (outcome_ne_none hvm)
  | some none => rfl
  | some (some old) =>
    have hids := (of_outcome_eq_some houtcome).2
    exact absurd ((hids vm' hvm').trans (hids vm hvm).symm) hne

theorem outcome_of_not_disputed (h : ¬ Disputed vms key) :
    outcome (under vms key) = (under vms key).head?.map some := by
  match hunder : under vms key with
  | [] => rfl
  | old :: rest =>
    rw [outcome, if_pos]
    · rfl
    · intro vm' hvm'
      by_contra hne
      refine h ⟨old, ?_, vm', ?_, hne⟩
      · simp [hunder]
      · simp [hunder, hvm']

theorem resolveKeys_of_disputed (h : Disputed vms key) :
    resolveKeys (cacheOf vms) endpointId cluster (key :: keys) = none := by
  rw [resolveKeys, cacheOf_eq, outcome_of_disputed h]

theorem resolveKeys_of_head (h : ¬ Disputed vms key) (hvm : (under vms key).head? = some vm) :
    resolveKeys (cacheOf vms) endpointId cluster (key :: keys) =
      if Compatible endpointId cluster vm then some vm
      else resolveKeys (cacheOf vms) endpointId cluster keys := by
  rw [resolveKeys, cacheOf_eq, outcome_of_not_disputed h, hvm]
  by_cases hfits : Compatible endpointId cluster vm
  · rw [if_pos hfits]
    simp [hfits.1, hfits.2]
  · rw [if_neg hfits]
    simp only [Option.map_some, Bool.or_eq_true, ite_eq_left_iff]
    intro hno
    simp only [not_or, Bool.not_eq_true] at hno
    exact absurd hno hfits

theorem resolveKeys_of_passed (h : Passed vms endpointId cluster key) :
    resolveKeys (cacheOf vms) endpointId cluster (key :: keys) =
      resolveKeys (cacheOf vms) endpointId cluster keys := by
  cases hhead : (under vms key).head? with
  | none => rw [resolveKeys, cacheOf_eq, outcome_of_not_disputed h.1, hhead, Option.map_none]
  | some vm =>
    rw [resolveKeys_of_head h.1 hhead, if_neg (h.2 vm (List.mem_of_head? hhead))]

theorem Owns.not_disputed (h : Owns vms key vm) : ¬ Disputed vms key := by
  rintro ⟨vm₁, hvm₁, vm₂, hvm₂, hne⟩
  rw [h.2 vm₁ hvm₁, h.2 vm₂ hvm₂] at hne
  exact hne rfl

theorem resolveKeys_of_owns (h : Owns vms key vm) (hfits : Compatible endpointId cluster vm) :
    resolveKeys (cacheOf vms) endpointId cluster (key :: keys) = some vm := by
  have hhead : (under vms key).head? = some vm := by
    obtain ⟨vm', hvm'⟩ := Option.isSome_iff_exists.mp (List.isSome_head?.mpr
      (List.ne_nil_of_mem h.1))
    rw [hvm', h.2 vm' (List.mem_of_head? hvm')]
  rw [resolveKeys_of_head h.not_disputed hhead, if_pos hfits]

/-- A VM that the lookup finds fits the query and is the first one filed under a key. -/
theorem exists_head_of_resolveKeys
    (h : resolveKeys (cacheOf vms) endpointId cluster keys = some vm) :
    ∃ key ∈ keys, (under vms key).head? = some vm := by
  induction keys with
  | nil => cases h
  | cons key keys ih =>
    by_cases hdisputed : Disputed vms key
    · rw [resolveKeys_of_disputed hdisputed] at h
      cases h
    · cases hhead : (under vms key).head? with
      | none =>
        rw [resolveKeys, cacheOf_eq, outcome_of_not_disputed hdisputed, hhead, Option.map_none] at h
        obtain ⟨key', hkey', hvm⟩ := ih h
        exact ⟨key', .tail _ hkey', hvm⟩
      | some vm' =>
        rw [resolveKeys_of_head hdisputed hhead] at h
        split at h
        · cases h
          exact ⟨key, .head _, hhead⟩
        · obtain ⟨key', hkey', hvm⟩ := ih h
          exact ⟨key', .tail _ hkey', hvm⟩

theorem mem_under_perm (h : vms'.Perm vms) : vm ∈ under vms' key ↔ vm ∈ under vms key := by
  rw [mem_under, mem_under, h.mem_iff]

theorem disputed_perm (h : vms'.Perm vms) : Disputed vms' key ↔ Disputed vms key := by
  simp only [Disputed, mem_under_perm h]

theorem passed_perm (h : vms'.Perm vms) :
    Passed vms' endpointId cluster key ↔ Passed vms endpointId cluster key := by
  simp only [Passed, disputed_perm h, mem_under_perm h]

theorem owns_perm (h : vms'.Perm vms) : Owns vms' key vm ↔ Owns vms key vm := by
  simp only [Owns, mem_under_perm h]

theorem resolveKeys_perm (hclear : Clear vms endpointId cluster vmid keys) (h : vms'.Perm vms) :
    resolveKeys (cacheOf vms') endpointId cluster keys =
      resolveKeys (cacheOf vms) endpointId cluster keys := by
  induction keys with
  | nil => rfl
  | cons key keys ih =>
    obtain ⟨hpassed, hclear⟩ | hdisputed | ⟨vm, howns, hfits, _⟩ := hclear
    · rw [resolveKeys_of_passed hpassed, resolveKeys_of_passed ((passed_perm h).mpr hpassed),
        ih hclear]
    · rw [resolveKeys_of_disputed hdisputed,
        resolveKeys_of_disputed ((disputed_perm h).mpr hdisputed)]
    · rw [resolveKeys_of_owns howns hfits, resolveKeys_of_owns ((owns_perm h).mpr howns) hfits]

theorem meant_of_clear (hkeys : ∀ key ∈ keys, key ∈ identityKeys endpointId cluster vmid)
    (hclear : Clear vms endpointId cluster vmid keys)
    (hvm : resolveKeys (cacheOf vms) endpointId cluster keys = some vm) :
    vm.vmid = some vmid ∧ Compatible endpointId cluster vm ∧
      Meant vms endpointId cluster vmid vm := by
  induction keys with
  | nil => cases hvm
  | cons key keys ih =>
    obtain ⟨hkey, hrest⟩ := List.forall_mem_cons.mp hkeys
    obtain ⟨hpassed, hclear⟩ | hdisputed | ⟨vm', howns, hfits, hmeant⟩ := hclear
    · rw [resolveKeys_of_passed hpassed] at hvm
      exact ih hrest hclear hvm
    · rw [resolveKeys_of_disputed hdisputed] at hvm
      cases hvm
    · rw [resolveKeys_of_owns howns hfits] at hvm
      cases hvm
      obtain ⟨rfl, hendpoint, hcluster⟩ := mem_identityKeys_iff.mp hkey
      refine ⟨(mem_under.mp howns.1).2.1, hfits, ?_⟩
      have halone : ∀ vm' ∈ vms, Under key vm' → vm'.id = vm.id := fun vm' hvm' hunder => by
        rw [howns.2 vm' (mem_under.mpr ⟨hvm', hunder⟩)]
      obtain ⟨hendpoint', hcluster'⟩ | hothers := hmeant
      · refine .inr ⟨hendpoint', hcluster', fun vm' hvm' hvmid' hendpoint' hcluster' => ?_⟩
        subst hendpoint' hcluster'
        exact halone vm' hvm' ⟨hvmid', hendpoint, hcluster⟩
      · refine .inl fun vm' hvm' hvmid' hfits' => ?_
        by_cases hunder : Under key vm'
        · exact halone vm' hvm' hunder
        · exact hothers vm' hvm' hvmid' hfits' hunder

/-- Where the lookup passes a VM that does not fit, it may find one that fits only under a key that
the passed VM is filed under too. -/
def Blocked (vms : List Vm) (endpointId : Option ℤ) (cluster : Option String) (key key' : Key) :
    Prop :=
  ∀ vm ∈ vms, ∀ vm' ∈ vms, Compatible endpointId cluster vm → ¬ Compatible endpointId cluster vm' →
    Under key vm → Under key vm' → Under key' vm → Under key' vm'

theorem head_of_front (h : Under key vm) : (under (vm :: vms) key).head? = some vm := by
  simp [under, h]

/-- If two records of one VM are filed under a key, the order decides which of them is found. -/
theorem owns_of_stable (hlater : ∀ key' ∈ keys, Blocked vms endpointId cluster key key')
    (h : ∀ vms', vms'.Perm vms → resolveKeys (cacheOf vms') endpointId cluster (key :: keys) =
      resolveKeys (cacheOf vms) endpointId cluster (key :: keys))
    (hone : ¬ Disputed vms key) (hvm : vm ∈ under vms key)
    (hfits : Compatible endpointId cluster vm) : Owns vms key vm := by
  refine ⟨hvm, fun vm' hvm' => ?_⟩
  obtain ⟨hmem, hunder⟩ := mem_under.mp hvm
  obtain ⟨hmem', hunder'⟩ := mem_under.mp hvm'
  have hperm := (List.perm_cons_erase hmem).symm
  have hperm' := (List.perm_cons_erase hmem').symm
  have hfound := h _ hperm
  rw [resolveKeys_of_head (mt (disputed_perm hperm).mp hone) (head_of_front hunder), if_pos hfits]
    at hfound
  have hfound' := h _ hperm'
  rw [← hfound, resolveKeys_of_head (mt (disputed_perm hperm').mp hone) (head_of_front hunder')]
    at hfound'
  by_cases hfits' : Compatible endpointId cluster vm'
  · rw [if_pos hfits'] at hfound'
    exact Option.some.inj hfound'
  · rw [if_neg hfits'] at hfound'
    obtain ⟨key', hkey', hhead⟩ := exists_head_of_resolveKeys hfound'
    have hunder₂ := (mem_under.mp (List.mem_of_head? hhead)).2
    rw [head_of_front (hlater key' hkey' vm hmem vm' hmem' hfits hfits' hunder hunder' hunder₂)]
      at hhead
    exact Option.some.inj hhead

theorem clear_or_of_unguessed (hlater : ∀ key' ∈ keys, Blocked vms endpointId cluster key key')
    (h : Unguessed vms endpointId cluster vmid fun vms =>
      resolveKeys (cacheOf vms) endpointId cluster (key :: keys)) :
    (Passed vms endpointId cluster key ∧ Unguessed vms endpointId cluster vmid fun vms =>
        resolveKeys (cacheOf vms) endpointId cluster keys) ∨
      Disputed vms key ∨ ∃ vm, Owns vms key vm ∧ Compatible endpointId cluster vm ∧
        ((vm.endpointId = endpointId ∧ vm.cluster = cluster) ∨
          ∀ vm' ∈ vms, vm'.vmid = some vmid → Compatible endpointId cluster vm' →
            ¬ Under key vm' → vm'.id = vm.id) := by
  by_cases hdisputed : Disputed vms key
  · exact .inr (.inl hdisputed)
  by_cases hfits : ∃ vm ∈ under vms key, Compatible endpointId cluster vm
  · obtain ⟨vm, hvm, hfits⟩ := hfits
    have howns := owns_of_stable hlater h.stable hdisputed hvm hfits
    refine .inr (.inr ⟨vm, howns, hfits, ?_⟩)
    obtain ⟨_, _, halone | ⟨hendpoint, hcluster, _⟩⟩ := h.owner vm (resolveKeys_of_owns howns hfits)
    · exact .inr fun vm' hvm' hvmid' hfits' _ => halone vm' hvm' hvmid' hfits'
    · exact .inl ⟨hendpoint, hcluster⟩
  · have hpassed : Passed vms endpointId cluster key := ⟨hdisputed, fun vm hvm hvmfits =>
      hfits ⟨vm, hvm, hvmfits⟩⟩
    refine .inl ⟨hpassed, fun vm hvm => h.owner vm ?_, fun vms' hperm => ?_⟩
    · rw [resolveKeys_of_passed hpassed, hvm]
    · have hstable := h.stable vms' hperm
      rwa [resolveKeys_of_passed hpassed,
        resolveKeys_of_passed ((passed_perm hperm).mpr hpassed)] at hstable

theorem clear_of_unguessed (hkeys : keys.Pairwise (Blocked vms endpointId cluster))
    (h : Unguessed vms endpointId cluster vmid fun vms =>
      resolveKeys (cacheOf vms) endpointId cluster keys) :
    Clear vms endpointId cluster vmid keys := by
  induction keys with
  | nil => trivial
  | cons key keys ih =>
    obtain ⟨hlater, hrest⟩ := List.pairwise_cons.mp hkeys
    obtain ⟨hpassed, h⟩ | hdone := clear_or_of_unguessed hlater h
    · exact .inl ⟨hpassed, ih hrest h⟩
    · exact .inr hdone

/-- The last key leads to every VM of the vmid. -/
theorem blocked_none (key : Key) : Blocked vms endpointId cluster key ⟨none, none, key.vmid⟩ :=
  fun _ _ _ _ _ _ _ hunder' _ => ⟨hunder'.1, .inl rfl, .inl rfl⟩

/-- A VM filed under the most specific key fits. -/
theorem compatible_of_under_first (h : Under ⟨endpointId, cluster, vmid⟩ vm) :
    Compatible endpointId cluster vm := by
  obtain ⟨_, hendpoint, hcluster⟩ := h
  constructor
  · obtain hnone | heq := hendpoint
    · simp_all [conflicts]
    · simp_all [conflicts]
  · obtain hnone | heq := hcluster
    · simp_all [conflicts]
    · simp_all [conflicts]

theorem blocked_rest (hfirst : Passed vms endpointId cluster ⟨endpointId, cluster, vmid⟩) :
    ([⟨endpointId, none, vmid⟩, ⟨none, cluster, vmid⟩, ⟨none, none, vmid⟩] : List Key).Pairwise
      (Blocked vms endpointId cluster) := by
  have hmiddle : Blocked vms endpointId cluster ⟨endpointId, none, vmid⟩ ⟨none, cluster, vmid⟩ := by
    intro vm hvm vm' _ hfits _ hunder _ hunder'
    have hspecific : Under ⟨endpointId, cluster, vmid⟩ vm := ⟨hunder.1, hunder.2.1, hunder'.2.2⟩
    exact absurd hfits (hfirst.2 vm (mem_under.mpr ⟨hvm, hspecific⟩))
  simp only [List.pairwise_cons, List.mem_cons, List.not_mem_nil, or_false, forall_eq_or_imp,
    forall_eq]
  exact ⟨⟨hmiddle, blocked_none _⟩, blocked_none _, fun _ h => h.elim, List.Pairwise.nil⟩

/-- The cache guesses no owner if and only if the first key that it does not pass over is disputed
or leaves one record, which has exactly the queried identity or leaves out no VM that fits as well. -/
theorem resolve_unguessed_iff (vms : List Vm) (endpointId : Option ℤ) (cluster : Option String)
    (vmid : ℤ) :
    Unguessed vms endpointId cluster vmid
        (fun vms => resolve (cacheOf vms) endpointId cluster vmid) ↔
      (0 < vmid →
        Clear vms endpointId cluster vmid (identityKeys endpointId cluster vmid)) := by
  by_cases hpos : 0 < vmid
  · simp only [resolve, hpos, if_true, true_imp_iff]
    constructor
    · intro h
      have hlater : ∀ key' ∈ ([⟨endpointId, none, vmid⟩, ⟨none, cluster, vmid⟩,
          ⟨none, none, vmid⟩] : List Key),
          Blocked vms endpointId cluster ⟨endpointId, cluster, vmid⟩ key' :=
        fun _ _ _ _ _ _ _ hnot _ hunder' => absurd (compatible_of_under_first hunder') hnot
      obtain ⟨hpassed, h⟩ | hdone := clear_or_of_unguessed hlater h
      · exact .inl ⟨hpassed, clear_of_unguessed (blocked_rest hpassed) h⟩
      · exact .inr hdone
    · intro hclear
      exact ⟨fun vm hvm => meant_of_clear (fun _ => id) hclear hvm,
        fun vms' hperm => resolveKeys_perm hclear hperm⟩
  · simp only [resolve, hpos, if_false, false_imp_iff, iff_true]
    exact ⟨fun _ h => (Option.some_ne_none _ h.symm).elim, fun _ _ => rfl⟩

/-- A VM without cluster and one without endpoint fit the query alike; the first is returned. -/
theorem first_of_two_guessed :
    let vms : List Vm := [⟨7, some 1, none, some 100, by decide⟩,
      ⟨8, none, some "c1", some 100, by decide⟩]
    (resolve (cacheOf vms) (some 1) (some "c1") 100).map Vm.id = some 7 ∧
      ¬ ∀ endpointId cluster vmid, Unguessed vms endpointId cluster vmid
        fun vms => resolve (cacheOf vms) endpointId cluster vmid := by
  refine ⟨by decide +kernel, fun h => ?_⟩
  obtain ⟨_, _, halone | ⟨_, hcluster, _⟩⟩ := (h (some 1) (some "c1") 100).owner
    ⟨7, some 1, none, some 100, by decide⟩ (by decide +kernel)
  · have hid := halone ⟨8, none, some "c1", some 100, by decide⟩ (by simp) rfl
      ⟨by decide, by decide⟩
    exact absurd hid (by decide)
  · cases hcluster

end ProxboxApi.Backups
