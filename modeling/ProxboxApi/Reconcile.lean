import ProxboxApi.Requests
import ProxboxApi.RestCreate
import ProxboxApi.VmIdentity

/-! `rest_reconcile_async`, as a program of NetBox requests: a record is found by its lookups and
patched where it differs, or created; after a duplicate error it is searched for again. -/

namespace ProxboxApi.Reconcile

open Requests
open RestCreate (Query candidateReuseLookups withLimit)
open VmQueue (field)

abbrev Record := Json.Fields

/-- An exception: whether it is a `ProxboxException` that reports a duplicate, or one that
rejects a filter value ("Select a valid choice"), and whether it is transient. -/
structure Failure where
  duplicate : Bool
  invalidChoice : Bool
  transient : Bool
  deriving DecidableEq, Repr

/-- What is asked of NetBox; a record is patched under its own detail path. -/
inductive Request where
  | list (path : String) (query : Query)
  | scan (path : String) (query : Query)
  | create (path : String) (payload : Record)
  | patch (path : String) (target payload : Record)
  | bulkCreate (path : String) (payloads : List Record)
  | bulkPatch (path : String) (updates : List (Json × Record))

/-- The records that answer a read or a bulk write, the one that a write leaves, or the exception
that is raised. -/
abbrev Reply : Request → Type
  | .list .. | .scan .. | .bulkCreate .. | .bulkPatch .. => Except Failure (List Record)
  | .create .. | .patch .. => Except Failure Record

abbrev NetBoxProg (α : Type) := Prog Request Reply (Except Failure α)

/-- An exception that no handler tells from others. -/
def Failure.other : Failure := ⟨false, false, false⟩

inductive Status where
  | created
  | updated
  | unchanged
  deriving DecidableEq, Repr

/-- The arguments of a call: `dump` validates a payload by the schema and dumps the model, and is
`none` on an exception. -/
structure Call where
  path : String
  lookup : Query
  payload : Record
  dump : Record → Option Record
  currentNormalizer : Record → Record
  patchableFields : Option (List String)
  nullableFields : List String
  strictLookup : Bool
  lookupQueryFieldMap : List (String × String)
  existingRecord : Option (Option Record)

/-- `model_dump` of the model of a dictionary schema. -/
def dropNulls (payload : Record) : Record := payload.filter fun kv => !kv.2.isNull

variable (c : Call)

/-- The candidate lookups; `none` is the `TypeError` of a value that cannot be hashed. -/
def Call.candidates (desired : Record) : Option (List Query) :=
  if c.strictLookup then some [c.lookup] else candidateReuseLookups c.lookup desired

def Call.queryOf (candidate : Query) : Query :=
  withLimit (candidate.map fun kv => ((Dict.get kv.1 c.lookupQueryFieldMap).getD kv.1, kv.2))

/-- A NetBox record under the schema. -/
def Call.current (record : Record) : Option Record := c.dump (c.currentNormalizer record)

/-- The loop of `_find_existing`. -/
def findFirst : List Query → NetBoxProg (Option Record)
  | [] => .ret (.ok none)
  | candidate :: candidates => .ask (.list c.path (c.queryOf candidate)) fun
    | .error e => .ret (if e.invalidChoice then .ok none else .error e)
    | .ok (record :: _) => .ret (.ok (some record))
    | .ok [] => findFirst candidates

/-- `_find_existing`. -/
def findExisting (desired : Record) : NetBoxProg (Option Record) :=
  match c.candidates desired with
  | none => .ret (.error .other)
  | some candidates => findFirst c candidates

/-- A record that the scan takes for one of the candidate lookups. -/
def Call.matchesAny (candidates : List Query) (record : Record) : Bool :=
  match c.current record with
  | none => false
  | some current => candidates.any fun q => q.all fun kv => (field kv.1 current).pyEq kv.2

/-- `_scan_existing`. -/
def scanExisting (desired : Record) : NetBoxProg (Option Record) :=
  match c.candidates desired with
  | none => .ret (.error .other)
  | some candidates => .ask (.scan c.path [("offset", .int 0), ("limit", .int 200)]) fun
    | .error e => .ret (.error e)
    | .ok records => .ret (.ok (records.find? (c.matchesAny candidates)))

/-- The fields to patch. -/
def Call.patchPayload (desired current : Record) : Record :=
  let patch := (desired.filter fun kv => !(field kv.1 current).pyEq kv.2) ++
    (c.nullableFields.filter fun name =>
      !(field name current).isNull && !(Dict.keys desired).contains name).map fun name =>
        (name, .null)
  match c.patchableFields with
  | none => patch
  | some allowed => patch.filter fun kv => allowed.contains kv.1

/-- `RestRecord.save`; a record without an id has no detail path. -/
def save (path : String) (record patch : Record) : NetBoxProg Record :=
  if (field "id" record).isNull then .ret (.error .other)
  else .ask (.patch path record patch) .ret

/-- `rest_patch_async`, with some attempts left after this one. -/
def restPatch (path : String) (recordId : Json) (payload : Record) : ℕ → NetBoxProg Record
  | 0 => .ask (.patch path [("id", recordId)] payload) .ret
  | left + 1 => .ask (.patch path [("id", recordId)] payload) fun
    | .ok record => .ret (.ok record)
    | .error e =>
      if e.transient then restPatch path recordId payload left else .ret (.error e)

/-- `_reconcile`. -/
def reconcileRecord (desired existing : Record) : NetBoxProg (Record × Status) :=
  match c.current existing with
  | none => .ret (.error .other)
  | some current =>
    let patch := c.patchPayload desired current
    if patch.isEmpty then .ret (.ok (existing, .unchanged))
    else (save c.path existing patch).bind fun
      | .error e => .ret (.error e)
      | .ok record => .ret (.ok (record, .updated))

/-- The refetches after a duplicate error, with `n` attempts left. -/
def refetch (desired : Record) : ℕ → NetBoxProg (Record × Status)
  | 0 => .ret (.ok (desired, .unchanged))
  | n + 1 => (findExisting c desired).bind fun
    | .error e => .ret (.error e)
    | .ok (some existing) => reconcileRecord c desired existing
    | .ok none => (scanExisting c desired).bind fun
      | .error e => .ret (.error e)
      | .ok (some existing) => reconcileRecord c desired existing
      | .ok none => refetch desired n

/-- The creation of a record that was not found. -/
def createOrRefetch (desired : Record) : NetBoxProg (Record × Status) :=
  .ask (.create c.path desired) fun
    | .ok record => .ret (.ok (record, .created))
    | .error e => if e.duplicate then refetch c desired 3 else .ret (.error e)

/-- `_rest_reconcile_async_impl`. -/
def reconcile : NetBoxProg (Record × Status) :=
  match c.dump c.payload with
  | none => .ret (.error .other)
  | some desired =>
    (match c.existingRecord with
    | none => findExisting c desired
    | some existing => .ret (.ok existing)).bind fun
      | .error e => .ret (.error e)
      | .ok (some existing) => reconcileRecord c desired existing
      | .ok none => createOrRefetch c desired

section Rules

variable {c} {allows : (q : Request) → Reply q → Prop}
  {good : List (Prog.Exchange Request Reply) → Request → Prop}
  {log : List (Prog.Exchange Request Reply)} {desired : Record}

/-- A lookup fails, or finds a record, or leaves it to the lookups after it. -/
theorem findFirst_cons
    {post : List (Prog.Exchange Request Reply) → Except Failure (Option Record) → Prop}
    {q : Query} {qs : List Query} (hgood : good log (.list c.path (c.queryOf q)))
    (herror : ∀ e : Failure, allows (.list c.path (c.queryOf q)) (.error e) →
      post (log ++ [⟨.list c.path (c.queryOf q), .error e⟩])
        (if e.invalidChoice then .ok none else .error e))
    (hfound : ∀ (record : Record) (records : List Record),
      allows (.list c.path (c.queryOf q)) (.ok (record :: records)) →
        post (log ++ [⟨.list c.path (c.queryOf q), .ok (record :: records)⟩]) (.ok (some record)))
    (hnone : allows (.list c.path (c.queryOf q)) (.ok []) →
      (findFirst c qs).Always allows good post (log ++ [⟨.list c.path (c.queryOf q), .ok []⟩])) :
    (findFirst c (q :: qs)).Always allows good post log := by
  refine ⟨hgood, ?_⟩
  intro reply hreply
  match reply with
  | .error e => exact herror e hreply
  | .ok (record :: records) => exact hfound record records hreply
  | .ok [] => exact hnone hreply

theorem scanExisting_rule
    {post : List (Prog.Exchange Request Reply) → Except Failure (Option Record) → Prop}
    {candidates : List Query} (hcandidates : c.candidates desired = some candidates)
    (hgood : good log (.scan c.path [("offset", .int 0), ("limit", .int 200)]))
    (herror : ∀ e : Failure, allows (.scan c.path [("offset", .int 0), ("limit", .int 200)])
      (.error e) → post (log ++ [⟨.scan c.path [("offset", .int 0), ("limit", .int 200)],
        .error e⟩]) (.error e))
    (hok : ∀ records : List Record,
      allows (.scan c.path [("offset", .int 0), ("limit", .int 200)]) (.ok records) →
        post (log ++ [⟨.scan c.path [("offset", .int 0), ("limit", .int 200)], .ok records⟩])
          (.ok (records.find? (c.matchesAny candidates)))) :
    (scanExisting c desired).Always allows good post log := by
  unfold scanExisting
  rw [hcandidates]
  refine ⟨hgood, ?_⟩
  intro reply hreply
  match reply with
  | .error e => exact herror e hreply
  | .ok records => exact hok records hreply

/-- Every attempt of a PATCH is good that is good after any further exchanges. -/
theorem restPatch_rule {path : String} {recordId : Json} {payload : Record} {left : ℕ}
    (hgood : ∀ later, good (log ++ later) (.patch path [("id", recordId)] payload)) :
    (restPatch path recordId payload left).Always allows good (fun _ _ => True) log := by
  have hnow : good log (.patch path [("id", recordId)] payload) := by simpa using hgood []
  induction left generalizing log with
  | zero => exact ⟨hnow, fun _ _ => trivial⟩
  | succ left ih =>
    refine ⟨hnow, ?_⟩
    intro reply _
    match reply with
    | .ok record => trivial
    | .error e =>
      dsimp only
      split
      · refine ih ?_ (hgood _)
        intro later
        rw [List.append_assoc]
        exact hgood _
      · trivial

theorem reconcileRecord_rule {existing : Record} (hpatch : ∀ current,
      c.current existing = some current →
        good log (.patch c.path existing (c.patchPayload desired current))) :
    (reconcileRecord c desired existing).Always allows good (fun _ _ => True) log := by
  unfold reconcileRecord
  split
  · trivial
  · rename_i current hcurrent
    dsimp only
    split
    · trivial
    · rw [Prog.always_bind]
      unfold save
      split
      · trivial
      · refine ⟨hpatch current hcurrent, ?_⟩
        intro reply _
        match reply with
        | .error e => trivial
        | .ok record => trivial

/-- What the searches for a record lead to: one that is found may be reconciled, and where none is
found, a record may be created. -/
structure Searches (c : Call) (allows : (q : Request) → Reply q → Prop)
    (good : List (Prog.Exchange Request Reply) → Request → Prop) (desired : Record)
    (before missed : List (Prog.Exchange Request Reply) → Prop) : Prop where
  find : ∀ log, before log → (findExisting c desired).Always allows good (fun log found =>
    (∀ existing, found = .ok (some existing) →
      (reconcileRecord c desired existing).Always allows good (fun _ _ => True) log) ∧
        (found = .ok none → missed log)) log
  scan : ∀ log, missed log → (scanExisting c desired).Always allows good (fun log found =>
    (∀ existing, found = .ok (some existing) →
      (reconcileRecord c desired existing).Always allows good (fun _ _ => True) log) ∧
        (found = .ok none → before log)) log
  create : ∀ log, missed log → good log (.create c.path desired) ∧
    ∀ e : Failure, before (log ++ [⟨.create c.path desired, .error e⟩])

variable {before missed : List (Prog.Exchange Request Reply) → Prop}

theorem Searches.refetch (h : Searches c allows good desired before missed) (n : ℕ) :
    ∀ log, before log → (refetch c desired n).Always allows good (fun _ _ => True) log := by
  induction n with
  | zero => exact fun _ _ => trivial
  | succ n ih =>
    intro log hlog
    rw [Reconcile.refetch, Prog.always_bind]
    refine (h.find log hlog).mono ?_
    rintro log (e | _ | existing) ⟨hfound, hmissed⟩
    · trivial
    · dsimp only
      rw [Prog.always_bind]
      refine (h.scan log (hmissed rfl)).mono ?_
      rintro log (e | _ | existing) ⟨hfound, hbefore⟩
      · trivial
      · exact ih log (hbefore rfl)
      · exact hfound existing rfl
    · exact hfound existing rfl

theorem reconcile_eq (hdump : c.dump c.payload = some desired) (hnew : c.existingRecord = none) :
    reconcile c = (findExisting c desired).bind fun
      | .error e => .ret (.error e)
      | .ok (some existing) => reconcileRecord c desired existing
      | .ok none => createOrRefetch c desired := by
  unfold reconcile
  rw [hdump, hnew]

theorem reconcile_invalid (hdump : c.dump c.payload = none) :
    reconcile c = .ret (.error .other) := by
  unfold reconcile
  rw [hdump]

/-- A reconciliation whose searches do: the loop of refetches repeats them. -/
theorem Searches.reconcile (h : Searches c allows good desired before missed)
    (hdump : c.dump c.payload = some desired) (hnew : c.existingRecord = none)
    (hlog : before log) : (reconcile c).Always allows good (fun _ _ => True) log := by
  rw [reconcile_eq hdump hnew, Prog.always_bind]
  refine (h.find log hlog).mono ?_
  rintro log (e | _ | existing) ⟨hfound, hmissed⟩
  · trivial
  · obtain ⟨hgood, hbefore⟩ := h.create log (hmissed rfl)
    refine ⟨hgood, ?_⟩
    intro reply _
    match reply with
    | .ok record => trivial
    | .error e =>
      dsimp only
      split
      · exact h.refetch 3 _ (hbefore e)
      · trivial
  · exact hfound existing rfl

end Rules

end ProxboxApi.Reconcile
