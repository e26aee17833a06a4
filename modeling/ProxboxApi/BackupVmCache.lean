import ProxboxApi.Text
import Mathlib.Data.Int.Basic
import Mathlib.Data.List.Basic
import Mathlib.Tactic.Common

/-! The cache that finds the NetBox VM of a backup by endpoint, cluster and vmid. -/

namespace ProxboxApi.Backups

/-- The identity that the backup sync reads off a NetBox VM; the cluster name is normalized. -/
structure Vm where
  id : ℤ
  endpointId : Option ℤ
  cluster : Option String
  vmid : Option ℤ
  vmid_pos : ∀ n ∈ vmid, 0 < n
  deriving DecidableEq

structure Key where
  endpointId : Option ℤ
  cluster : Option String
  vmid : ℤ
  deriving DecidableEq, Repr

/-- The records of `_BackupVMCache`: a key is absent, ambiguous (`some none`) or owned by a VM. -/
abbrev Records := Key → Option (Option Vm)

def insertVm (records : Records) (key : Key) (vm : Vm) : Records :=
  Function.update records key <| match records key with
    | none => some (some vm)
    | some none => some none
    | some (some old) => some (if old.id = vm.id then some old else none)

/-- The keys of an identity, the most specific one first. -/
def identityKeys (endpointId : Option ℤ) (cluster : Option String) (vmid : ℤ) : List Key :=
  [⟨endpointId, cluster, vmid⟩, ⟨endpointId, none, vmid⟩, ⟨none, cluster, vmid⟩, ⟨none, none, vmid⟩]

/-- `_BackupVMCache.add`. -/
def addVm (records : Records) (vm : Vm) : Records :=
  match vm.vmid with
  | none => records
  | some vmid => (identityKeys vm.endpointId vm.cluster vmid).foldl
      (fun records key => insertVm records key vm) records

def cacheOf (vms : List Vm) : Records := vms.foldl addVm fun _ => none

/-- Both are known and differ. -/
def conflicts {α : Type} [DecidableEq α] (a b : Option α) : Bool :=
  a.isSome && b.isSome && a ≠ b

def resolveKeys (records : Records) (endpointId : Option ℤ) (cluster : Option String) :
    List Key → Option Vm
  | [] => none
  | key :: keys =>
    match records key with
    | none => resolveKeys records endpointId cluster keys
    | some none => none
    | some (some vm) =>
      if conflicts endpointId vm.endpointId || conflicts cluster vm.cluster then
        resolveKeys records endpointId cluster keys
      else some vm

/-- `_BackupVMCache.resolve`. -/
def resolve (records : Records) (endpointId : Option ℤ) (cluster : Option String) (vmid : ℤ) :
    Option Vm :=
  if 0 < vmid then resolveKeys records endpointId cluster (identityKeys endpointId cluster vmid)
  else none

/-- `_BackupVMScope`: the exact ownership of a VM. -/
structure Scope where
  netboxVmId : ℤ
  endpointId : ℤ
  cluster : String
  vmid : ℤ
  deriving DecidableEq, Repr

def Scope.key (scope : Scope) : Key := ⟨some scope.endpointId, some scope.cluster, scope.vmid⟩

/-- `_backup_vm_scope`. -/
def scopeOf (vm : Vm) : Option Scope :=
  match vm.endpointId, vm.cluster, vm.vmid with
  | some endpointId, some cluster, some vmid => some ⟨vm.id, endpointId, cluster, vmid⟩
  | _, _, _ => none

/-- `is_unambiguous_scope_owner`. -/
def isUnambiguousScopeOwner (records : Records) (scope : Scope) : Bool :=
  match records scope.key with
  | some (some vm) => vm.id = scope.netboxVmId
  | _ => false

theorem scopeOf_eq_some_iff {vm : Vm} {scope : Scope} : scopeOf vm = some scope ↔
    vm.id = scope.netboxVmId ∧ vm.endpointId = some scope.endpointId ∧
      vm.cluster = some scope.cluster ∧ vm.vmid = some scope.vmid := by
  obtain ⟨id, endpointId, cluster, vmid⟩ := scope
  unfold scopeOf
  split
  · rename_i hendpoint hcluster hvmid
    simp [hendpoint, hcluster, hvmid]
  · rename_i hnot
    constructor
    · intro h
      cases h
    · rintro ⟨_, hendpoint, hcluster, hvmid⟩
      exact absurd hvmid (hnot _ _ _ hendpoint hcluster)

/-- Every VM that a key leads to is related to the key. -/
def Holds (P : Key → Vm → Prop) (records : Records) : Prop :=
  ∀ key vm, records key = some (some vm) → P key vm

variable {P : Key → Vm → Prop} {records : Records}

theorem insertVm_holds (h : Holds P records) {key : Key} {vm : Vm} (hvm : P key vm) :
    Holds P (insertVm records key vm) := by
  intro key' vm' hvm'
  unfold insertVm at hvm'
  by_cases hkey : key' = key
  · subst hkey
    rw [Function.update_self] at hvm'
    cases hold : records key' with
    | none =>
      rw [hold] at hvm'
      cases hvm'
      exact hvm
    | some old =>
      cases old with
      | none =>
        rw [hold] at hvm'
        cases hvm'
      | some old =>
        rw [hold] at hvm'
        simp only [Option.some.injEq, Option.ite_none_right_eq_some] at hvm'
        obtain ⟨_, rfl⟩ := hvm'
        exact h key' old hold
  · rw [Function.update_of_ne hkey] at hvm'
    exact h key' vm' hvm'

theorem foldl_insertVm_holds {vm : Vm} {keys : List Key} (hkeys : ∀ key ∈ keys, P key vm)
    (h : Holds P records) :
    Holds P (keys.foldl (fun records key => insertVm records key vm) records) := by
  induction keys generalizing records with
  | nil => exact h
  | cons key keys ih =>
    obtain ⟨hkey, hrest⟩ := List.forall_mem_cons.mp hkeys
    exact ih hrest (insertVm_holds h hkey)

/-- A relation that every VM has to its own keys holds in the cache. -/
theorem cacheOf_holds {vms : List Vm} (hvms : ∀ vm ∈ vms, ∀ vmid, vm.vmid = some vmid →
    ∀ key ∈ identityKeys vm.endpointId vm.cluster vmid, P key vm) : Holds P (cacheOf vms) := by
  suffices ∀ records, Holds P records → Holds P (vms.foldl addVm records) by
    exact this _ fun _ _ h => by cases h
  induction vms with
  | nil => exact fun _ h => h
  | cons vm vms ih =>
    intro records h
    obtain ⟨hvm, hrest⟩ := List.forall_mem_cons.mp hvms
    refine ih hrest _ ?_
    unfold addVm
    split
    · exact h
    · rename_i vmid hvmid
      exact foldl_insertVm_holds (hvm vmid hvmid) h

/-- A key leads only to VMs of that identity. -/
def OfIdentity (key : Key) (vm : Vm) : Prop :=
  vm.vmid = some key.vmid ∧ (key.endpointId.isSome = true → vm.endpointId = key.endpointId) ∧
    (key.cluster.isSome = true → vm.cluster = key.cluster)

theorem cacheOf_ofIdentity (vms : List Vm) : Holds OfIdentity (cacheOf vms) := by
  refine cacheOf_holds fun vm _ vmid hvmid => ?_
  simp [identityKeys, OfIdentity, hvmid]

theorem mem_of_cacheOf {vms : List Vm} : Holds (fun _ vm => vm ∈ vms) (cacheOf vms) :=
  cacheOf_holds fun _ hvm _ _ _ _ => hvm

/-- What is resolved is led to by a key of the vmid. -/
theorem exists_key_of_resolve {endpointId : Option ℤ} {cluster : Option String} {vmid : ℤ} {vm : Vm}
    (hvm : resolve records endpointId cluster vmid = some vm) :
    ∃ key, key.vmid = vmid ∧ records key = some (some vm) := by
  have hkeys : ∀ key ∈ identityKeys endpointId cluster vmid, key.vmid = vmid := by
    simp [identityKeys]
  unfold resolve at hvm
  split at hvm
  · generalize identityKeys endpointId cluster vmid = keys at hkeys hvm
    induction keys with
    | nil => cases hvm
    | cons key keys ih =>
      obtain ⟨hkey, hrest⟩ := List.forall_mem_cons.mp hkeys
      unfold resolveKeys at hvm
      split at hvm
      · exact ih hrest hvm
      · cases hvm
      · rename_i vm' hvm'
        split at hvm
        · exact ih hrest hvm
        · cases hvm
          exact ⟨key, hkey, hvm'⟩
  · cases hvm

/-- The sole owner of an exact identity is found by it. -/
theorem resolve_of_unambiguous (h : Holds OfIdentity records) {scope : Scope}
    (hpos : 0 < scope.vmid) (howner : isUnambiguousScopeOwner records scope = true) :
    ∃ vm, resolve records (some scope.endpointId) (some scope.cluster) scope.vmid = some vm ∧
      vm.id = scope.netboxVmId := by
  unfold isUnambiguousScopeOwner at howner
  split at howner
  · rename_i vm hvm
    obtain ⟨_, hendpoint, hcluster⟩ := h _ _ hvm
    refine ⟨vm, ?_, of_decide_eq_true howner⟩
    rw [resolve, if_pos hpos, identityKeys, resolveKeys, show (Key.mk (some scope.endpointId)
      (some scope.cluster) scope.vmid) = scope.key from rfl, hvm]
    simp [conflicts, hendpoint rfl, hcluster rfl, Scope.key]
  · cases howner

end ProxboxApi.Backups
