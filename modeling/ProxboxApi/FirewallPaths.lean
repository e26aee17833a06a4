import ProxboxApi.FirewallWrites
import ProxboxApi.VmidHelpers

/-! What a firewall intent is about, and which intents about different objects are given the same
method and path. -/

namespace ProxboxApi.Firewall

open Verbs (Exn)
open DeletionRequests (Kind)
open Intent (kindName orText)

/-- The zones that hold IP sets and aliases besides rules and options. -/
inductive Scope where
  | datacenter
  | vm (kind : Kind) (node : String) (vmid : ℤ)
  deriving DecidableEq

/-- What a scope holds: its rules or one of them, its IP sets, one of them or an entry, its
aliases or one of them, its options. -/
inductive Item where
  | rules (pos : Option ℤ)
  | ipset (members : List String)
  | aliases (name : Option String)
  | options
  deriving DecidableEq

/-- The object of an intent: its zone, where the action goes by one, and the fields its action
uses. -/
inductive Object where
  | groups
  | group (group : String)
  | item (zone : Scope) (i : Item)
  | groupRules (group : String) (pos : Option ℤ)
  | nodeRules (node : String) (pos : Option ℤ)
  | nodeOptions (node : String)
  | vnetRules (vnet : String) (pos : Option ℤ)
  deriving DecidableEq

def scope (payload : FirewallIntentPayload) (zone : String) : Option Scope :=
  if zone = "datacenter" then some .datacenter
  else if zone = "vm_qemu" ∨ zone = "vm_lxc" then
    payload.node.bind fun node => payload.vmid.map fun vmid =>
      .vm (if zone = "vm_qemu" then .qemu else .lxc) node vmid
  else none

def ruleObject (payload : FirewallIntentPayload) (zone : String) (pos : Option ℤ) :
    Option Object :=
  if zone = "security_group" then payload.group.map fun group => .groupRules group pos
  else if zone = "node" then payload.node.map fun node => .nodeRules node pos
  else if zone = "vnet" then payload.vnet.map fun vnet => .vnetRules vnet pos
  else (scope payload zone).map fun s => .item s (.rules pos)

/-- The object of a payload: a creation is about the collection it adds to. -/
def object (payload : FirewallIntentPayload) : Option Object :=
  let action := payload.action
  let zone := orText payload.zone "datacenter"
  let creates := hasSuffix action ".create"
  if action = "firewall.group.create" then some .groups
  else if action = "firewall.group.delete" then payload.group.map .group
  else if hasPrefix action "firewall.rule." then
    ruleObject payload zone (if creates then none else payload.pos)
  else if hasPrefix action "firewall.ipset.entry." then
    (scope payload zone).map fun s =>
      .item s (.ipset (payload.name.toList ++ if creates then [] else payload.cidr.toList))
  else if hasPrefix action "firewall.ipset." then
    (scope payload zone).map fun s =>
      .item s (.ipset (if creates then [] else payload.name.toList))
  else if hasPrefix action "firewall.alias." then
    (scope payload zone).map fun s => .item s (.aliases (if creates then none else payload.name))
  else if zone = "node" then payload.node.map .nodeOptions
  else (scope payload zone).map fun s => .item s .options

/-- The method that an action stands for. -/
def verb (action : String) : Method :=
  if hasSuffix action ".create" then .post
  else if hasPrefix action "firewall.alias." then
    if hasSuffix action ".delete" then .delete else .put
  else if hasPrefix action "firewall.ipset." ∧ ¬ hasPrefix action "firewall.ipset.entry." then
    .delete
  else if hasSuffix action ".update" then .put else .delete

/-- Where an object is: the node it is under, if any, and the text behind the node. -/
@[ext] structure Location where
  node : Option String
  rest : String
  deriving DecidableEq

def Location.path (l : Location) : String :=
  match l.node with
  | none => l.rest
  | some node => "nodes/" ++ node ++ l.rest

/-- Each part behind a slash. -/
def below : List String → String
  | [] => ""
  | part :: parts => "/" ++ part ++ below parts

def Item.text : Item → String
  | .rules pos => "/rules" ++ below (pos.toList.map toString)
  | .ipset members => "/ipset" ++ below members
  | .aliases name => "/aliases" ++ below name.toList
  | .options => "/options"

def Object.location : Object → Location
  | .groups => ⟨none, "cluster/firewall/groups"⟩
  | .group g => ⟨none, "cluster/firewall/groups/" ++ g⟩
  | .item .datacenter i => ⟨none, "cluster/firewall" ++ i.text⟩
  | .item (.vm kind node vmid) i =>
    ⟨some node, "/" ++ kindName kind ++ "/" ++ toString vmid ++ "/firewall" ++ i.text⟩
  | .groupRules g pos =>
    ⟨none, "cluster/firewall/groups/" ++ g ++ below (pos.toList.map toString)⟩
  | .nodeRules node pos => ⟨some node, "/firewall/rules" ++ below (pos.toList.map toString)⟩
  | .nodeOptions node => ⟨some node, "/firewall/options"⟩
  | .vnetRules vnet pos => ⟨none, "cluster/sdn/vnets/" ++ vnet ++ "/firewall/rules" ++
      below (pos.toList.map toString)⟩

/-- The objects that two readings of one path are about: a group named like a rule of another
group; the members of an IP set with the slash between them elsewhere; and a node whose name goes
on into what is behind another node. -/
def Confused (t u : Object) : Prop :=
  (∃ g pos, t = .group (g ++ "/" ++ toString pos) ∧ u = .groupRules g (some pos)) ∨
  (∃ zone members members', t = .item zone (.ipset members) ∧
    u = .item zone (.ipset members') ∧ members ≠ members' ∧ below members = below members') ∨
  ∃ node more rest, more ≠ "" ∧ t.location = ⟨some node, more ++ rest⟩ ∧
    u.location = ⟨some (node ++ more), rest⟩

/-- The objects that a method can be about. -/
def Fits (m : Method) : Object → Prop
  | .group _ => m ≠ .post
  | .item _ (.rules pos) | .groupRules _ pos | .nodeRules _ pos | .vnetRules _ pos =>
    (m = .post ↔ pos = none)
  | _ => True

section Reading

variable {payload : FirewallIntentPayload} {zone resource base : String}

theorem eq_some_of_required {field : Option String} {message value : String}
    (h : required field message = .ok value) : field = some value := by
  cases field with
  | none => simp [required, valueError] at h
  | some text =>
    by_cases hempty : text = ""
    · simp [required, valueError, hempty, Option.filter] at h
    · simp only [required, Option.filter, decide_eq_true hempty, if_true] at h
      exact congrArg some (Except.ok.inj h)

theorem eq_of_vmBase (h : vmBase payload zone = .ok base) : ∃ node vmid,
    payload.node = some node ∧ payload.vmid = some vmid ∧ base = "nodes/" ++ node ++ "/" ++
      kindName (if zone = "vm_qemu" then .qemu else .lxc) ++ "/" ++ toString vmid ++
      "/firewall" := by
  unfold vmBase at h
  split at h
  · rename_i node vmid hnode hvmid
    dsimp only at h
    split at h
    · simp [valueError] at h
    · exact ⟨node, vmid, (Option.filter_eq_some_iff.mp hnode).1, hvmid, (Except.ok.inj h).symm⟩
  · simp [valueError] at h

/-- The scope that a VM zone's base is of. -/
theorem scope_of_vmBase (hzone : zone = "vm_qemu" ∨ zone = "vm_lxc")
    (h : vmBase payload zone = .ok base) : ∃ s, scope payload zone = some s ∧
      ∀ i, (Object.item s i).location.path = base ++ i.text := by
  obtain ⟨node, vmid, hnode, hvmid, rfl⟩ := eq_of_vmBase h
  have hother : zone ≠ "datacenter" := by
    rintro rfl
    simp at hzone
  refine ⟨.vm (if zone = "vm_qemu" then .qemu else .lxc) node vmid, ?_, fun i => ?_⟩
  · simp [scope, hother, hzone, hnode, hvmid]
  · simp [Object.location, Location.path, String.append_assoc]

theorem object_of_ruleBase (h : ruleBase payload zone = .ok base) (pos : Option ℤ) :
    ∃ t, ruleObject payload zone pos = some t ∧
      t.location.path = base ++ below (pos.toList.map toString) ∧
      ∀ m : Method, (m = .post ↔ pos = none) → Fits m t := by
  unfold ruleBase at h
  split at h
  · subst zone
    obtain rfl := Except.ok.inj h
    exact ⟨.item .datacenter (.rules pos), by simp [ruleObject, scope],
      by simp [Object.location, Location.path, Item.text, ← String.append_assoc], fun _ hm => hm⟩
  split at h
  · subst zone
    cases hgroup : required payload.group "security_group rule intent requires group" with
    | error e => simp [hgroup, Except.map] at h
    | ok group =>
      simp only [hgroup, Except.map, Except.ok.injEq] at h
      subst h
      exact ⟨.groupRules group pos, by simp [ruleObject, eq_some_of_required hgroup], rfl,
        fun _ hm => hm⟩
  split at h
  · subst zone
    cases hnode : required payload.node "node rule intent requires node" with
    | error e => simp [hnode, Except.map] at h
    | ok node =>
      simp only [hnode, Except.map, Except.ok.injEq] at h
      subst h
      exact ⟨.nodeRules node pos, by simp [ruleObject, eq_some_of_required hnode],
        by simp [Object.location, Location.path, String.append_assoc], fun _ hm => hm⟩
  split at h
  · rename_i hzone
    cases hbase : vmBase payload zone with
    | error e => simp [hbase, Except.map] at h
    | ok vm =>
      simp only [hbase, Except.map, Except.ok.injEq] at h
      subst h
      obtain ⟨s, hs, hpath⟩ := scope_of_vmBase hzone hbase
      refine ⟨.item s (.rules pos), ?_, ?_, fun _ hm => hm⟩
      · rcases hzone with rfl | rfl <;> simp [ruleObject, hs]
      · rw [hpath, Item.text, String.append_assoc]
  split at h
  · subst zone
    cases hvnet : required payload.vnet "vnet rule intent requires vnet" with
    | error e => simp [hvnet, Except.map] at h
    | ok vnet =>
      simp only [hvnet, Except.map, Except.ok.injEq] at h
      subst h
      exact ⟨.vnetRules vnet pos, by simp [ruleObject, eq_some_of_required hvnet], rfl,
        fun _ hm => hm⟩
  · simp [valueError] at h

/-- What is below a resource of a zone is in the zone's scope. -/
theorem scope_of_scopedBase (hresource : resource ≠ "options")
    (h : scopedBase payload zone resource = .ok base) : ∃ s, scope payload zone = some s ∧
      ∀ i text, Item.text i = "/" ++ resource ++ text →
        (Object.item s i).location.path = base ++ text := by
  unfold scopedBase at h
  split at h
  · subst zone
    obtain rfl := Except.ok.inj h
    refine ⟨.datacenter, rfl, fun i text hi => ?_⟩
    simp [Object.location, Location.path, hi, ← String.append_assoc]
  split at h
  · simp_all
  split at h
  · rename_i hzone
    cases hbase : vmBase payload zone with
    | error e => simp [hbase, Except.map] at h
    | ok vm =>
      simp only [hbase, Except.map, Except.ok.injEq] at h
      subst h
      obtain ⟨s, hs, hpath⟩ := scope_of_vmBase hzone hbase
      refine ⟨s, hs, fun i text hi => ?_⟩
      rw [hpath, hi]
      simp only [String.append_assoc]
  · simp [valueError] at h

theorem options_of_scopedBase (h : scopedBase payload zone "options" = .ok base) :
    ∃ t, (if zone = "node" then payload.node.map .nodeOptions
        else (scope payload zone).map fun s => .item s .options) = some t ∧
      t.location.path = base ∧ ∀ m, Fits m t := by
  unfold scopedBase at h
  split at h
  · subst zone
    obtain rfl := Except.ok.inj h
    exact ⟨.item .datacenter .options, rfl, rfl, fun _ => trivial⟩
  split at h
  · rename_i hzone
    rw [if_pos hzone.1]
    cases hnode : required payload.node "node options intent requires node" with
    | error e => simp [hnode, Except.map] at h
    | ok node =>
      simp only [hnode, Except.map, Except.ok.injEq] at h
      subst h
      exact ⟨.nodeOptions node, by rw [eq_some_of_required hnode]; rfl,
        by simp [Object.location, Location.path, String.append_assoc], fun _ => trivial⟩
  split at h
  · rename_i hzone
    cases hbase : vmBase payload zone with
    | error e => simp [hbase, Except.map] at h
    | ok vm =>
      simp only [hbase, Except.map, Except.ok.injEq] at h
      subst h
      obtain ⟨s, hs, hpath⟩ := scope_of_vmBase hzone hbase
      refine ⟨.item s .options, ?_, ?_, fun _ => trivial⟩
      · rcases hzone with rfl | rfl <;> simp [hs]
      · rw [hpath, String.append_assoc]
        rfl
  · simp [valueError] at h

/-- What a path and its method say about the payload's object. -/
structure Reads (payload : FirewallIntentPayload) (r : Route) (t : Object) : Prop where
  object_eq : object payload = some t
  method_eq : r.method = verb payload.action
  path_eq : r.path = t.location.path
  fits : Fits r.method t

/-- A text begins with one of two texts of which neither begins the other. -/
theorem hasPrefix_other {action a b : String} (ha : hasPrefix action a = true)
    (hab : a.toList.isPrefixOf b.toList = false) (hba : b.toList.isPrefixOf a.toList = false) :
    hasPrefix action b = false := by
  by_contra hb
  have hpre := List.isPrefixOf_iff_prefix.mp ha
  have hpre' := List.isPrefixOf_iff_prefix.mp (Bool.eq_true_of_not_eq_false hb)
  rcases List.prefix_or_prefix_of_prefix hpre hpre' with h | h
  · simp [List.isPrefixOf_iff_prefix.mpr h] at hab
  · simp [List.isPrefixOf_iff_prefix.mpr h] at hba

/-- An action of another family is none of the group actions. -/
theorem not_group_action {start : String} (h : hasPrefix payload.action start = true)
    (hstart : start.toList.isPrefixOf "firewall.group.create".toList = false)
    (hstart' : start.toList.isPrefixOf "firewall.group.delete".toList = false) :
    payload.action ≠ "firewall.group.create" ∧ payload.action ≠ "firewall.group.delete" := by
  constructor
  · intro heq
    rw [heq] at h
    exact Bool.noConfusion (h.symm.trans hstart)
  · intro heq
    rw [heq] at h
    exact Bool.noConfusion (h.symm.trans hstart')

theorem reads_rule {r : Route} (hrule : hasPrefix payload.action "firewall.rule." = true)
    (h : pathFor payload = .ok r) : ∃ t, Reads payload r t := by
  obtain ⟨hcreate, hdelete⟩ := not_group_action hrule (by decide) (by decide)
  have halias := hasPrefix_other (b := "firewall.alias.") hrule (by decide) (by decide)
  have hipset := hasPrefix_other (b := "firewall.ipset.") hrule (by decide) (by decide)
  simp only [pathFor, if_neg hcreate, if_neg hdelete, if_pos hrule] at h
  cases hbase : ruleBase payload (orText payload.zone "datacenter") with
  | error e => simp [hbase, Except.bind] at h
  | ok base =>
    simp only [hbase, Except.bind] at h
    have hobject : ∀ {t}, ruleObject payload (orText payload.zone "datacenter")
        (if hasSuffix payload.action ".create" then none else payload.pos) = some t →
        object payload = some t := by
      intro t ht
      simp only [object, if_neg hcreate, if_neg hdelete, if_pos hrule]
      exact ht
    split at h
    · rename_i hnew
      obtain rfl := Except.ok.inj h
      obtain ⟨t, ht, hpath, hfits⟩ := object_of_ruleBase hbase none
      exact ⟨t, hobject (by rw [if_pos hnew]; exact ht), by simp [verb, hnew],
        by rw [hpath]; simp [below], hfits _ (by simp)⟩
    · rename_i hold
      split at h
      · simp [valueError] at h
      · rename_i pos hpos
        obtain rfl := Except.ok.inj h
        obtain ⟨t, ht, hpath, hfits⟩ := object_of_ruleBase hbase (some pos)
        have hverb : verb payload.action =
            if hasSuffix payload.action ".update" then .put else .delete := by
          simp [verb, hold, halias, hipset]
        refine ⟨t, hobject (by rw [if_neg hold, hpos]; exact ht), hverb.symm, ?_, ?_⟩
        · rw [hpath]
          simp [below, String.append_assoc]
        · apply hfits
          dsimp only
          split <;> simp

theorem reads_ipset {r : Route} (hipset : hasPrefix payload.action "firewall.ipset." = true)
    (h : pathFor payload = .ok r) : ∃ t, Reads payload r t := by
  obtain ⟨hcreate, hdelete⟩ := not_group_action hipset (by decide) (by decide)
  have hrule := hasPrefix_other (b := "firewall.rule.") hipset (by decide) (by decide)
  have halias := hasPrefix_other (b := "firewall.alias.") hipset (by decide) (by decide)
  simp only [pathFor, if_neg hcreate, if_neg hdelete, hrule, Bool.false_eq_true, if_false,
    if_pos hipset] at h
  have hobject : object payload = if hasPrefix payload.action "firewall.ipset.entry." then
      (scope payload (orText payload.zone "datacenter")).map fun s =>
        .item s (.ipset (payload.name.toList ++
          if hasSuffix payload.action ".create" then [] else payload.cidr.toList))
      else (scope payload (orText payload.zone "datacenter")).map fun s =>
        .item s (.ipset (if hasSuffix payload.action ".create" then [] else payload.name.toList)) := by
    simp only [object, if_neg hcreate, if_neg hdelete, hrule, Bool.false_eq_true, if_false,
      if_pos hipset]
  split at h
  · rename_i hentry
    rw [if_pos hentry] at hobject
    cases hname : required payload.name (payload.action ++ " requires name") with
    | error e => simp [hname, Except.bind] at h
    | ok name =>
      cases howner : scopedBase payload (orText payload.zone "datacenter") "ipset" with
      | error e => simp [hname, howner, Except.bind] at h
      | ok owner =>
        simp only [hname, howner, Except.bind] at h
        obtain ⟨s, hs, hpath⟩ := scope_of_scopedBase (by decide) howner
        rw [hs, eq_some_of_required hname] at hobject
        split at h
        · rename_i hnew
          obtain rfl := Except.ok.inj h
          refine ⟨.item s (.ipset [name]), ?_, by simp [verb, hnew, plain], ?_, trivial⟩
          · rw [hobject, if_pos hnew]
            rfl
          · rw [hpath _ (below [name]) rfl]
            simp [below, plain, String.append_assoc]
        · rename_i hold
          cases hcidr : required payload.cidr (payload.action ++ " requires cidr") with
          | error e => simp [hcidr, Except.map] at h
          | ok cidr =>
            simp only [hcidr, Except.map, Except.ok.injEq] at h
            subst h
            refine ⟨.item s (.ipset [name, cidr]), ?_, by simp [verb, hold, halias, hentry, plain],
              ?_, trivial⟩
            · rw [hobject, if_neg hold, eq_some_of_required hcidr]
              rfl
            · rw [hpath _ (below [name, cidr]) rfl]
              simp [below, plain, String.append_assoc]
  · rename_i hentry
    rw [if_neg hentry] at hobject
    cases howner : scopedBase payload (orText payload.zone "datacenter") "ipset" with
    | error e => simp [howner, Except.bind] at h
    | ok owner =>
      simp only [howner, Except.bind] at h
      obtain ⟨s, hs, hpath⟩ := scope_of_scopedBase (by decide) howner
      rw [hs] at hobject
      split at h
      · rename_i hnew
        obtain rfl := Except.ok.inj h
        refine ⟨.item s (.ipset []), ?_, by simp [verb, hnew, plain], ?_, trivial⟩
        · rw [hobject, if_pos hnew]
          rfl
        · rw [hpath _ (below []) rfl]
          simp [below, plain]
      · rename_i hold
        cases hname : required payload.name (payload.action ++ " requires name") with
        | error e => simp [hname, Except.map] at h
        | ok name =>
          simp only [hname, Except.map, Except.ok.injEq] at h
          subst h
          refine ⟨.item s (.ipset [name]), ?_, by simp [verb, hold, halias, hipset, hentry, plain],
            ?_, trivial⟩
          · rw [hobject, if_neg hold, eq_some_of_required hname]
            rfl
          · rw [hpath _ (below [name]) rfl]
            simp [below, plain, String.append_assoc]

theorem reads_alias {r : Route} (halias : hasPrefix payload.action "firewall.alias." = true)
    (h : pathFor payload = .ok r) : ∃ t, Reads payload r t := by
  obtain ⟨hcreate, hdelete⟩ := not_group_action halias (by decide) (by decide)
  have hrule := hasPrefix_other (b := "firewall.rule.") halias (by decide) (by decide)
  have hipset := hasPrefix_other (b := "firewall.ipset.") halias (by decide) (by decide)
  have hentry := hasPrefix_other (b := "firewall.ipset.entry.") halias (by decide) (by decide)
  simp only [pathFor, if_neg hcreate, if_neg hdelete, hrule, hipset, Bool.false_eq_true, if_false,
    if_pos halias] at h
  cases hname : required payload.name (payload.action ++ " requires name") with
  | error e => simp [hname, Except.bind] at h
  | ok name =>
    cases howner : scopedBase payload (orText payload.zone "datacenter") "aliases" with
    | error e => simp [hname, howner, Except.bind, Except.map] at h
    | ok owner =>
      simp only [hname, howner, Except.bind, Except.map, Except.ok.injEq] at h
      obtain ⟨s, hs, hpath⟩ := scope_of_scopedBase (by decide) howner
      have hobject : object payload = some (.item s
          (.aliases (if hasSuffix payload.action ".create" then none else some name))) := by
        simp only [object, if_neg hcreate, if_neg hdelete, hrule, hipset, hentry,
          Bool.false_eq_true, if_false, if_pos halias, hs, eq_some_of_required hname,
          Option.map_some]
      subst h
      refine ⟨_, hobject, ?_, ?_, trivial⟩
      · by_cases hnew : hasSuffix payload.action ".create" = true
        · simp [verb, hnew, plain]
        · simp [verb, hnew, halias, plain]
      · rw [hpath _ (below (Option.toList
          (if hasSuffix payload.action ".create" then none else some name))) rfl]
        by_cases hnew : hasSuffix payload.action ".create" = true
        · simp [hnew, below, plain]
        · simp [hnew, below, plain, String.append_assoc]

/-- Every accepted payload has an object, and its route is read off it. -/
theorem reads_of_pathFor {r : Route} (h : pathFor payload = .ok r) : ∃ t, Reads payload r t := by
  by_cases hrule : hasPrefix payload.action "firewall.rule." = true
  · exact reads_rule hrule h
  by_cases hipset : hasPrefix payload.action "firewall.ipset." = true
  · exact reads_ipset hipset h
  by_cases halias : hasPrefix payload.action "firewall.alias." = true
  · exact reads_alias halias h
  have hentry : ¬ hasPrefix payload.action "firewall.ipset.entry." = true := by
    intro hentry
    apply hipset
    have hpre := List.isPrefixOf_iff_prefix.mp hentry
    exact List.isPrefixOf_iff_prefix.mpr (List.IsPrefix.trans (by decide) hpre)
  simp only [pathFor, if_neg hrule, if_neg hipset, if_neg halias] at h
  split at h
  · rename_i hcreate
    obtain rfl := Except.ok.inj h
    exact ⟨.groups, by simp [object, hcreate], by rw [hcreate]; decide, rfl, trivial⟩
  rename_i hcreate
  split at h
  · rename_i hdelete
    cases hgroup : required payload.group "firewall.group.delete requires group" with
    | error e => simp [hgroup, Except.map] at h
    | ok group =>
      simp only [hgroup, Except.map, Except.ok.injEq] at h
      subst h
      have hverb : Method.delete = verb payload.action := by
        rw [hdelete]
        decide
      exact ⟨.group group, by simp [object, hdelete, eq_some_of_required hgroup], hverb, rfl,
        by simp [Fits, plain]⟩
  rename_i hdelete
  split at h
  · rename_i hupdate
    cases hbase : scopedBase payload (orText payload.zone "datacenter") "options" with
    | error e => simp [hbase, Except.map] at h
    | ok base =>
      simp only [hbase, Except.map, Except.ok.injEq] at h
      subst h
      obtain ⟨t, ht, hpath, hfits⟩ := options_of_scopedBase hbase
      have hverb : Method.put = verb payload.action := by
        rw [hupdate]
        decide
      refine ⟨t, ?_, hverb, hpath.symm, hfits _⟩
      simp only [object, if_neg hcreate, if_neg hdelete, if_neg hrule, if_neg hentry,
        if_neg hipset, if_neg halias]
      exact ht
  · simp [valueError] at h

end Reading

section Texts

theorem slash_not_mem_int (n : ℤ) : '/' ∉ (toString n).toList := by
  have hnat : ∀ m : ℕ, '/' ∉ (toString m).toList := fun m h =>
    absurd (Text.isDigit_of_mem_toString h) (by decide)
  cases n with
  | ofNat m => exact hnat m
  | negSucc m =>
    intro h
    have htext : toString (Int.negSucc m) = "-" ++ toString (m + 1) := rfl
    rw [htext, String.toList_append] at h
    rcases List.mem_append.mp h with h | h
    · simp at h
    · exact hnat _ h

theorem int_text_injective {m n : ℤ} (h : toString m = toString n) : m = n := by
  have hread := Vmid.parseAscii_toString m
  rw [h, Vmid.parseAscii_toString n] at hread
  exact (Option.some.inj hread).symm

theorem cut_first {c : Char} {a b x y : List Char} (ha : c ∉ a) (hb : c ∉ b)
    (h : a ++ c :: x = b ++ c :: y) : a = b ∧ x = y := by
  rcases List.append_eq_append_iff.mp h with ⟨more, hmore, hrest⟩ | ⟨more, hmore, hrest⟩
  · cases more with
    | nil => exact ⟨by simpa using hmore.symm, (List.cons.inj hrest).2⟩
    | cons d more =>
      obtain rfl := (List.cons.inj hrest).1
      exact absurd (by simp [hmore]) hb
  · cases more with
    | nil => exact ⟨by simpa using hmore, (List.cons.inj hrest).2.symm⟩
    | cons d more =>
      obtain rfl := (List.cons.inj hrest).1
      exact absurd (by simp [hmore]) ha

/-- The text before the first slash, and behind it. -/
theorem cut_first_slash {a b x y : String} (ha : '/' ∉ a.toList) (hb : '/' ∉ b.toList)
    (h : a ++ ("/" ++ x) = b ++ ("/" ++ y)) : a = b ∧ x = y := by
  have hchars : a.toList ++ '/' :: x.toList = b.toList ++ '/' :: y.toList := by
    simpa using congrArg String.toList h
  obtain ⟨hab, hxy⟩ := cut_first ha hb hchars
  exact ⟨String.toList_injective hab, String.toList_injective hxy⟩

/-- The text before the last slash, and behind it. -/
theorem cut_last_slash {a b x y : String} (hx : '/' ∉ x.toList) (hy : '/' ∉ y.toList)
    (h : a ++ ("/" ++ x) = b ++ ("/" ++ y)) : a = b ∧ x = y := by
  have hchars : x.toList.reverse ++ '/' :: a.toList.reverse =
      y.toList.reverse ++ '/' :: b.toList.reverse := by
    simpa using congrArg (fun s => s.toList.reverse) h
  obtain ⟨hxy, hab⟩ := cut_first (by simpa using hx) (by simpa using hy) hchars
  exact ⟨String.toList_injective (List.reverse_injective hab),
    String.toList_injective (List.reverse_injective hxy)⟩

/-- A position behind a text, or none behind either. -/
theorem cut_pos {a b : String} {pos pos' : Option ℤ} (hpos : pos = none ↔ pos' = none)
    (h : a ++ below (pos.toList.map toString) = b ++ below (pos'.toList.map toString)) :
    a = b ∧ pos = pos' := by
  cases pos with
  | none =>
    obtain rfl := hpos.mp rfl
    exact ⟨by simpa [below] using h, rfl⟩
  | some n =>
    cases pos' with
    | none => simp at hpos
    | some n' =>
      have htexts : a ++ ("/" ++ toString n) = b ++ ("/" ++ toString n') := by
        simpa [below] using h
      obtain ⟨hab, hn⟩ := cut_last_slash (slash_not_mem_int n) (slash_not_mem_int n') htexts
      exact ⟨hab, by rw [int_text_injective hn]⟩

theorem Item.text_not_groups (i : Item) (s : String) : i.text ≠ "/groups" ++ s := by
  intro h
  have hchars := congrArg String.toList h
  cases i <;> simp [Item.text] at hchars

/-- The texts of two items of one scope tell them apart, except for the members of an IP set. -/
theorem Item.eq_of_text {m : Method} {zone : Scope} {i j : Item} (hi : Fits m (.item zone i))
    (hj : Fits m (.item zone j)) (h : i.text = j.text) : i = j ∨ ∃ members members',
      i = .ipset members ∧ j = .ipset members' ∧ members ≠ members' ∧
        below members = below members' := by
  cases i with
  | rules pos =>
    left
    cases j with
    | rules pos' => rw [(cut_pos (hi.symm.trans hj) h).2]
    | ipset _ | aliases _ | options =>
      have hchars := congrArg String.toList h
      simp [Item.text] at hchars
  | ipset members =>
    cases j with
    | ipset members' =>
      by_cases heq : members = members'
      · left
        rw [heq]
      · right
        exact ⟨members, members', rfl, rfl, heq, (String.append_right_inj _).mp h⟩
    | rules _ | aliases _ | options =>
      have hchars := congrArg String.toList h
      simp [Item.text] at hchars
  | aliases name =>
    left
    cases j with
    | aliases name' =>
      have hbelow : below name.toList = below name'.toList := (String.append_right_inj _).mp h
      cases name with
      | none =>
        cases name' with
        | none => rfl
        | some _ => simpa [below] using congrArg String.toList hbelow
      | some text =>
        cases name' with
        | none => simpa [below] using congrArg String.toList hbelow
        | some text' =>
          have htext : text = text' := by simpa [below] using hbelow
          rw [htext]
    | rules _ | ipset _ | options =>
      have hchars := congrArg String.toList h
      simp [Item.text] at hchars
  | options =>
    left
    cases j with
    | options => rfl
    | rules _ | ipset _ | aliases _ =>
      have hchars := congrArg String.toList h
      simp [Item.text] at hchars

end Texts

section Paths

variable {m : Method} {t u : Object}

/-- Where a VM's item is says which VM and which item it is. -/
theorem vm_of_location {k k' : Kind} {n n' : String} {v v' : ℤ} {i j : Item}
    (h : (Object.item (.vm k n v) i).location = (Object.item (.vm k' n' v') j).location) :
    Scope.vm k n v = .vm k' n' v' ∧ i.text = j.text := by
  simp only [Object.location, Location.mk.injEq, Option.some.injEq] at h
  obtain ⟨rfl, hrest⟩ := h
  have hkind : k = k' := by
    have hchars := congrArg String.toList hrest
    cases k <;> cases k' <;> first | rfl | simp [kindName] at hchars
  subst hkind
  have hvmid : toString v ++ ("/" ++ ("firewall" ++ i.text)) =
      toString v' ++ ("/" ++ ("firewall" ++ j.text)) := by
    have hslash : "/firewall" = "/" ++ "firewall" := by decide
    rw [hslash] at hrest
    simpa only [String.append_assoc, String.append_right_inj] using hrest
  obtain ⟨hv, htext⟩ := cut_first_slash (slash_not_mem_int v) (slash_not_mem_int v') hvmid
  exact ⟨by rw [int_text_injective hv], (String.append_right_inj _).mp htext⟩

theorem rest_injective {node node' : Option String} {rest rest' : String}
    (h : (⟨node, rest⟩ : Location) = ⟨node', rest'⟩) : rest = rest' :=
  congrArg Location.rest h

/-- The rest of a place in the datacenter's scope is not among the security groups. -/
theorem datacenter_not_groups {i : Item} {s : String}
    (h : "cluster/firewall" ++ i.text = "cluster/firewall/groups" ++ s) : False := by
  have hgroups : "cluster/firewall/groups" ++ s = "cluster/firewall" ++ ("/groups" ++ s) := by
    rw [← String.append_assoc]
    rfl
  rw [hgroups, String.append_right_inj] at h
  exact i.text_not_groups s h

theorem groupRules_or_group {g g' : String} {pos : Option ℤ} (hg : Fits m (.group g))
    (hpos : Fits m (.groupRules g' pos))
    (h : (Object.group g).location = (Object.groupRules g' pos).location) :
    Confused (.group g) (.groupRules g' pos) := by
  left
  cases pos with
  | none => exact absurd (hpos.mpr rfl) hg
  | some n =>
    have hrest := rest_injective h
    rw [String.append_assoc, String.append_right_inj] at hrest
    refine ⟨g', n, ?_, rfl⟩
    rw [hrest]
    simp [below, String.append_assoc]

/-- Items of one scope with one text are the same or confused. -/
theorem eq_of_item_text {zone : Scope} {i j : Item} (hi : Fits m (.item zone i))
    (hj : Fits m (.item zone j)) (h : i.text = j.text) :
    Object.item zone i = .item zone j ∨ Confused (.item zone i) (.item zone j) ∨
      Confused (.item zone j) (.item zone i) := by
  rcases Item.eq_of_text hi hj h with rfl | ⟨members, members', rfl, rfl, hne, hbelow⟩
  · exact Or.inl rfl
  · exact Or.inr (Or.inl (Or.inr (Or.inl ⟨zone, members, members', rfl, rfl, hne, hbelow⟩)))

/-- Objects at one place are the same or confused. -/
theorem eq_of_location (ht : Fits m t) (hu : Fits m u) (h : t.location = u.location) :
    t = u ∨ Confused t u ∨ Confused u t := by
  have hchars : t.location.rest.toList = u.location.rest.toList := by rw [h]
  have hnode : t.location.node = u.location.node := by rw [h]
  -- most shapes differ in their first letters
  rcases t with _ | g | ⟨_ | ⟨k, n, v⟩, i⟩ | ⟨g, pos⟩ | ⟨n, pos⟩ | n | ⟨vnet, pos⟩ <;>
  rcases u with _ | g' | ⟨_ | ⟨k', n', v'⟩, j⟩ | ⟨g', pos'⟩ | ⟨n', pos'⟩ | n' | ⟨vnet', pos'⟩ <;>
  first
  | (simp [Object.location] at hnode; done)
  | (simp [Object.location] at hchars; done)
  | (simp [Object.location, kindName] at hchars; split at hchars <;> simp at hchars; done)
  | skip
  case groups.groups => exact Or.inl rfl
  case groups.item.datacenter =>
    exact (datacenter_not_groups (s := "") (rest_injective h).symm).elim
  case item.datacenter.groups => exact (datacenter_not_groups (s := "") (rest_injective h)).elim
  case group.group =>
    left
    rw [(String.append_right_inj _).mp (rest_injective h)]
  case group.item.datacenter =>
    exact (datacenter_not_groups (s := "/" ++ g) (rest_injective h).symm).elim
  case item.datacenter.group =>
    exact (datacenter_not_groups (s := "/" ++ g') (rest_injective h)).elim
  case group.groupRules => exact Or.inr (Or.inl (groupRules_or_group ht hu h))
  case groupRules.group => exact Or.inr (Or.inr (groupRules_or_group hu ht h.symm))
  case item.datacenter.item.datacenter =>
    exact eq_of_item_text ht hu ((String.append_right_inj _).mp (rest_injective h))
  case item.datacenter.groupRules =>
    have hrest := rest_injective h
    rw [String.append_assoc] at hrest
    exact (datacenter_not_groups (s := "/" ++ (g' ++ _)) hrest).elim
  case groupRules.item.datacenter =>
    have hrest := (rest_injective h).symm
    rw [String.append_assoc] at hrest
    exact (datacenter_not_groups (s := "/" ++ (g ++ _)) hrest).elim
  case item.vm.item.vm =>
    obtain ⟨hzone, htext⟩ := vm_of_location h
    rw [← hzone] at hu ⊢
    exact eq_of_item_text ht hu htext
  case groupRules.groupRules =>
    left
    obtain ⟨hg, rfl⟩ := cut_pos (ht.symm.trans hu) (rest_injective h)
    rw [(String.append_right_inj _).mp hg]
  case nodeRules.nodeRules =>
    left
    obtain ⟨-, rfl⟩ := cut_pos (ht.symm.trans hu) (rest_injective h)
    rw [Option.some.inj hnode]
  case nodeOptions.nodeOptions =>
    left
    rw [Option.some.inj hnode]
  case vnetRules.vnetRules =>
    left
    obtain ⟨hvnet, rfl⟩ := cut_pos (ht.symm.trans hu) (rest_injective h)
    rw [(String.append_right_inj _).mp ((String.append_left_inj _).mp hvnet)]

theorem cluster_of_node_none (h : t.location.node = none) :
    ∃ s, t.location.rest = "cluster/" ++ s := by
  rcases t with _ | g | ⟨_ | ⟨k, n, v⟩, i⟩ | ⟨g, pos⟩ | ⟨n, pos⟩ | n | ⟨vnet, pos⟩
  · exact ⟨"firewall/groups", rfl⟩
  · exact ⟨"firewall/groups/" ++ g, by simp [Object.location, ← String.append_assoc]⟩
  · exact ⟨"firewall" ++ i.text, by simp [Object.location, ← String.append_assoc]⟩
  · simp [Object.location] at h
  · exact ⟨"firewall/groups/" ++ (g ++ below (pos.toList.map toString)),
      by simp [Object.location, ← String.append_assoc]⟩
  · simp [Object.location] at h
  · simp [Object.location] at h
  · exact ⟨"sdn/vnets/" ++ (vnet ++ ("/firewall/rules" ++ below (pos.toList.map toString))),
      by simp [Object.location, ← String.append_assoc]⟩

theorem node_path_ne {node rest s : String} (h : "nodes/" ++ node ++ rest = "cluster/" ++ s) :
    False := by
  have hchars := congrArg String.toList h
  simp at hchars

/-- One node goes on into what is behind the other, or they are the same. -/
theorem node_cases {node node' rest rest' : String} (h : node ++ rest = node' ++ rest') :
    (∃ more, node' = node ++ more ∧ rest = more ++ rest') ∨
      ∃ more, node = node' ++ more ∧ rest' = more ++ rest := by
  have hchars : node.toList ++ rest.toList = node'.toList ++ rest'.toList := by
    simpa using congrArg String.toList h
  rcases List.append_eq_append_iff.mp hchars with ⟨more, hnode, hrest⟩ | ⟨more, hnode, hrest⟩
  · exact Or.inl ⟨String.ofList more, String.toList_injective (by simpa using hnode),
      String.toList_injective (by simpa using hrest)⟩
  · exact Or.inr ⟨String.ofList more, String.toList_injective (by simpa using hnode),
      String.toList_injective (by simpa using hrest)⟩

/-- Objects on one path are the same or confused. -/
theorem eq_of_path (ht : Fits m t) (hu : Fits m u) (h : t.location.path = u.location.path) :
    t = u ∨ Confused t u ∨ Confused u t := by
  cases htn : t.location.node with
  | none =>
    obtain ⟨s, hs⟩ := cluster_of_node_none htn
    cases hun : u.location.node with
    | none =>
      have hrest : t.location.rest = u.location.rest := by simpa [Location.path, htn, hun] using h
      exact eq_of_location ht hu (Location.ext (htn.trans hun.symm) hrest)
    | some node =>
      simp only [Location.path, htn, hun, hs] at h
      exact (node_path_ne h.symm).elim
  | some node =>
    cases hun : u.location.node with
    | none =>
      obtain ⟨s, hs⟩ := cluster_of_node_none hun
      simp only [Location.path, htn, hun, hs] at h
      exact (node_path_ne h).elim
    | some node' =>
      simp only [Location.path, htn, hun, String.append_assoc, String.append_right_inj] at h
      have hsame : node = node' → t.location.rest = u.location.rest →
          t = u ∨ Confused t u ∨ Confused u t := by
        rintro rfl hrest
        exact eq_of_location ht hu (Location.ext (htn.trans hun.symm) hrest)
      rcases node_cases h with ⟨more, rfl, hrest⟩ | ⟨more, rfl, hrest⟩
      · by_cases hmore : more = ""
        · subst hmore
          exact hsame (by simp) (by simpa using hrest)
        · exact Or.inr (Or.inl (Or.inr (Or.inr ⟨node, more, u.location.rest, hmore,
            Location.ext htn hrest, Location.ext hun rfl⟩)))
      · by_cases hmore : more = ""
        · subst hmore
          exact hsame (by simp) (by simpa using hrest.symm)
        · exact Or.inr (Or.inr (Or.inr (Or.inr ⟨node', more, t.location.rest, hmore,
            Location.ext hun hrest, Location.ext htn rfl⟩)))

/-- Confused objects are different ones on one path. -/
theorem Confused.spec (h : Confused t u) : t ≠ u ∧ t.location.path = u.location.path := by
  rcases h with ⟨g, pos, rfl, rfl⟩ | ⟨zone, members, members', rfl, rfl, hne, hbelow⟩ |
    ⟨node, more, rest, hmore, ht, hu⟩
  · refine ⟨by simp, ?_⟩
    simp [Object.location, Location.path, below, String.append_assoc]
  · refine ⟨by simpa using hne, ?_⟩
    cases zone with
    | datacenter => simp [Object.location, Location.path, Item.text, hbelow]
    | vm kind node vmid => simp [Object.location, Location.path, Item.text, hbelow]
  · refine ⟨?_, ?_⟩
    · rintro rfl
      rw [ht, Location.mk.injEq, Option.some.injEq] at hu
      exact hmore (by simpa using hu.1.symm)
    · rw [ht, hu]
      simp [Location.path, String.append_assoc]

/-- The name of an IP set is a single segment of a path; a CIDR is what is left. -/
def Item.Segments : Item → Prop
  | .ipset [] => True
  | .ipset [name] | .ipset [name, _] => '/' ∉ name.toList
  | .ipset _ => False
  | _ => True

/-- The group, node, virtual network and IP set name of an object are single segments. -/
def Object.Segments : Object → Prop
  | .groups => True
  | .group text | .groupRules text _ | .nodeRules text _ | .nodeOptions text
  | .vnetRules text _ => '/' ∉ text.toList
  | .item .datacenter i => i.Segments
  | .item (.vm _ node _) i => '/' ∉ node.toList ∧ i.Segments

theorem Object.Segments.node (h : t.Segments) {node : String}
    (hnode : t.location.node = some node) :
    '/' ∉ node.toList ∧ ∃ s, t.location.rest = "/" ++ s := by
  rcases t with _ | g | ⟨_ | ⟨k, n, v⟩, i⟩ | ⟨g, pos⟩ | ⟨n, pos⟩ | n | ⟨vnet, pos⟩ <;>
  simp only [Object.location, Option.some.injEq, reduceCtorEq] at hnode <;> subst hnode
  · exact ⟨h.1, kindName k ++ ("/" ++ (toString v ++ ("/firewall" ++ i.text))),
      by simp [Object.location, String.append_assoc]⟩
  · exact ⟨h, "firewall/rules" ++ below (pos.toList.map toString),
      by simp [Object.location, ← String.append_assoc]⟩
  · exact ⟨h, "firewall/options", rfl⟩

theorem Object.Segments.item {zone : Scope} {i : Item} (h : (Object.item zone i).Segments) :
    i.Segments := by
  cases zone with
  | datacenter => exact h
  | vm kind node vmid => exact h.2

/-- The name of an IP set without a slash is told from the CIDR behind it. -/
theorem members_injective {members members' : List String}
    (h : (Item.ipset members).Segments) (h' : (Item.ipset members').Segments)
    (heq : below members = below members') : members = members' := by
  have hslash : ∀ {name name' cidr : String}, '/' ∉ name.toList →
      "/" ++ name = "/" ++ (name' ++ ("/" ++ cidr)) → False := by
    intro name name' cidr hname htext
    apply hname
    rw [(String.append_right_inj _).mp htext]
    simp
  rcases members with _ | ⟨name, _ | ⟨cidr, _ | ⟨_, _⟩⟩⟩ <;>
  rcases members' with _ | ⟨name', _ | ⟨cidr', _ | ⟨_, _⟩⟩⟩ <;>
  simp only [below, String.append_assoc, String.append_empty] at heq
  case nil.nil => rfl
  case nil.cons.nil | nil.cons.cons.nil | cons.nil.nil | cons.cons.nil.nil =>
    simpa using congrArg String.toList heq
  case cons.nil.cons.nil => rw [(String.append_right_inj _).mp heq]
  case cons.nil.cons.cons.nil => exact (hslash h heq).elim
  case cons.cons.nil.cons.nil => exact (hslash h' heq.symm).elim
  case cons.cons.nil.cons.cons.nil =>
    obtain ⟨hname, hcidr⟩ := cut_first_slash h h' ((String.append_right_inj _).mp heq)
    rw [hname, hcidr]
  all_goals first | exact h.elim | exact h'.elim

/-- Single segments are never confused. -/
theorem Confused.not_segments (h : Confused t u) : ¬ (t.Segments ∧ u.Segments) := by
  rintro ⟨ht, hu⟩
  rcases h with ⟨g, pos, rfl, rfl⟩ | ⟨zone, members, members', rfl, rfl, hne, hbelow⟩ |
    ⟨node, more, rest, hmore, htl, hul⟩
  · exact ht (by simp)
  · exact hne (members_injective ht.item hu.item hbelow)
  · obtain ⟨-, s, hs⟩ := ht.node (congrArg Location.node htl)
    obtain ⟨hnode, -⟩ := hu.node (congrArg Location.node hul)
    have hchars : more.toList ++ rest.toList = '/' :: s.toList := by
      rw [htl] at hs
      simpa using congrArg String.toList hs
    cases hlist : more.toList with
    | nil => exact hmore (String.toList_injective (by simpa using hlist))
    | cons c cs =>
      rw [hlist] at hchars
      obtain rfl := (List.cons.inj hchars).1
      exact hnode (by simp [hlist])

end Paths

/-- Two accepted intents with one method and path are about the same object, exactly when their
objects are not confused. -/
theorem paths_injective_iff {p q : FirewallIntentPayload} {r s : Route} (hp : pathFor p = .ok r)
    (hq : pathFor q = .ok s) :
    (r.method = s.method ∧ r.path = s.path → object p = object q) ↔
      ¬ ∃ t u, object p = some t ∧ object q = some u ∧ verb p.action = verb q.action ∧
        (Confused t u ∨ Confused u t) := by
  obtain ⟨t, ht⟩ := reads_of_pathFor hp
  obtain ⟨u, hu⟩ := reads_of_pathFor hq
  have hmethod : r.method = s.method ↔ verb p.action = verb q.action := by
    rw [ht.method_eq, hu.method_eq]
  rw [ht.object_eq, hu.object_eq, hmethod, ht.path_eq, hu.path_eq]
  constructor
  · rintro hsame ⟨_, _, ⟨rfl⟩, ⟨rfl⟩, hverb, hconfused | hconfused⟩
    · exact hconfused.spec.1 (Option.some.inj (hsame ⟨hverb, hconfused.spec.2⟩))
    · exact hconfused.spec.1 (Option.some.inj (hsame ⟨hverb, hconfused.spec.2.symm⟩)).symm
  · rintro hnone ⟨hverb, hpath⟩
    have hfits : Fits r.method u := by
      rw [hmethod.mpr hverb]
      exact hu.fits
    rcases eq_of_path ht.fits hfits hpath with heq | hconfused
    · rw [heq]
    · exact absurd ⟨t, u, rfl, rfl, hverb, hconfused⟩ hnone

/-- The deletion of an IP set of the datacenter, and of an entry of one. -/
def ipsetDeletion (name : String) : FirewallIntentPayload :=
  ⟨"firewall.ipset.delete", none, none, none, none, none, none, none, some name, none, []⟩

def entryDeletion (name cidr : String) : FirewallIntentPayload :=
  ⟨"firewall.ipset.entry.delete", none, none, none, none, none, none, none, some name, some cidr,
    []⟩

theorem paths_injective_iff_web : let r := plain .delete "cluster/firewall/ipset/web"
    let s := plain .delete "cluster/firewall/ipset/web/10.0.0.1"
    (r.method = s.method ∧ r.path = s.path →
      object (ipsetDeletion "web") = object (entryDeletion "web" "10.0.0.1")) ↔
      ¬ ∃ t u, object (ipsetDeletion "web") = some t ∧
        object (entryDeletion "web" "10.0.0.1") = some u ∧
        verb (ipsetDeletion "web").action = verb (entryDeletion "web" "10.0.0.1").action ∧
        (Confused t u ∨ Confused u t) :=
  paths_injective_iff (p := ipsetDeletion "web") (q := entryDeletion "web" "10.0.0.1") rfl rfl

/-- The deletion of an IP set whose name has a slash removes an entry of another one. -/
theorem ipset_named_like_entry : ¬ ∀ (p q : FirewallIntentPayload) (r s : Route),
    pathFor p = .ok r → pathFor q = .ok s → r.method = s.method → r.path = s.path →
      object p = object q := by
  intro h
  have hsame := h (ipsetDeletion "corp/10.0.0.0/24") (entryDeletion "corp" "10.0.0.0/24") _ _
    rfl rfl rfl (by decide)
  exact absurd hsame (by decide)

end ProxboxApi.Firewall
