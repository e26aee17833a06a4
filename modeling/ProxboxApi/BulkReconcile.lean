import ProxboxApi.Outcomes
import ProxboxApi.Reconcile
import ProxboxApi.Upsert

/-! `rest_bulk_reconcile_async`: payloads are matched with the records of one listing by their
lookup keys, created and patched in batches, and one by one where a batch fails. -/

namespace ProxboxApi.BulkReconcile

open Requests Reconcile
open RestCreate (Query)
open VmQueue (field)

/-- A value that can be hashed, up to Python's `==`. -/
inductive Scalar where
  | text (s : String)
  | number (q : ℚ)
  deriving DecidableEq

def Scalar.ofJson : Json → Option Scalar
  | .str s => some (.text s)
  | j => j.number.map .number

/-- A lookup tuple. -/
abbrev Key := List (String × Scalar)

/-- The arguments of a call. -/
structure BulkCall where
  path : String
  payloads : List Record
  lookupFields : List String
  dump : Record → Option Record
  currentNormalizer : Record → Record
  patchableFields : Option (List String)
  nullableFields : List String
  batchSize : ℕ
  selector : (candidates : List Record) → Option { record // record ∈ candidates }
  baseQuery : Query
  lookupQueryFieldMap : List (String × String)
  strictLookup : Bool
  fallbackToIndividual : Bool

variable (b : BulkCall)

/-- The call of `rest_reconcile_async` for one payload. -/
def BulkCall.item (lookup : Query) (payload : Record) (strict : Bool) : Call where
  path := b.path
  lookup := lookup
  payload := payload
  dump := b.dump
  currentNormalizer := b.currentNormalizer
  patchableFields := b.patchableFields
  nullableFields := b.nullableFields
  strictLookup := strict
  lookupQueryFieldMap := b.lookupQueryFieldMap
  existingRecord := none

def BulkCall.current (record : Record) : Option Record := b.dump (b.currentNormalizer record)

/-- `_build_lookup_dict_from_fields`. -/
def buildLookupDictFromFields (lookupFields : List String) (payload : Record) : Query :=
  (lookupFields.filter fun name => !(field name payload).blank).map fun name =>
    (name, field name payload)

/-- `_lookup_tuple`, in the order of the lookup fields; the exception is the `TypeError` of a
value that cannot be hashed, when the tuple is looked up. -/
def lookupTuple (lookup : Query) : Except Failure (Option Key) :=
  match lookup.filter fun kv => !kv.2.blank with
  | [] => .ok none
  | normalized =>
    match normalized.mapM fun kv => (Scalar.ofJson kv.2).map fun value => (kv.1, value) with
    | none => .error .other
    | some key => .ok (some key)

/-- An entry of `desired_entries`. -/
structure Entry where
  desired : Record
  lookup : Query
  key : Key

/-- The first loop, with the keys that it has seen. -/
def BulkCall.entries : List Key → List Record → Except Failure (List Entry)
  | _, [] => .ok []
  | seen, payload :: payloads =>
    match b.dump payload with
    | none => .error .other
    | some desired =>
      let lookup := buildLookupDictFromFields b.lookupFields desired
      match lookupTuple lookup with
      | .error e => .error e
      | .ok none => BulkCall.entries seen payloads
      | .ok (some key) =>
        if key ∈ seen then BulkCall.entries seen payloads
        else (BulkCall.entries (key :: seen) payloads).map fun entries =>
          ⟨desired, lookup, key⟩ :: entries

/-- `existing_groups`, as pairs of a key and a record in the order of the listing. -/
def BulkCall.existingGroups : List Record → Except Failure (List (Key × Record))
  | [] => .ok []
  | record :: records =>
    match b.current record with
    | none => BulkCall.existingGroups records
    | some current =>
      match lookupTuple (buildLookupDictFromFields b.lookupFields current) with
      | .error e => .error e
      | .ok none => BulkCall.existingGroups records
      | .ok (some key) => (BulkCall.existingGroups records).map fun groups =>
        (key, record) :: groups

/-- `_select_existing`. -/
def BulkCall.selectExisting (groups : List (Key × Record)) (key : Key) : Option Record :=
  let candidates := (groups.filter fun group => group.1 = key).map (·.2)
  ((b.selector candidates).map (·.1)).or candidates.head?

/-- What is to be done for an entry. -/
inductive Action where
  | create (entry : Entry)
  | patch (record changes : Record)
  | keep (record : Record)

/-- The second loop. -/
def BulkCall.action (groups : List (Key × Record)) (entry : Entry) : Except Failure Action :=
  match b.selectExisting groups entry.key with
  | none => .ok (.create entry)
  | some record => match b.current record with
    | none => .error .other
    | some current =>
      let patch := (b.item entry.lookup entry.desired b.strictLookup).patchPayload entry.desired
        current
      .ok (if patch.isEmpty then .keep record else .patch record patch)

/-- The records and the counters of the result. -/
structure Tally where
  records : List Record
  created : ℕ
  updated : ℕ
  unchanged : ℕ
  failed : ℕ

/-- The outcome of a payload that is reconciled alone. -/
def Tally.count (tally : Tally) : Except Failure (Record × Status) → Tally
  | .ok (record, .created) =>
    { tally with records := tally.records ++ [record], created := tally.created + 1 }
  | .ok (record, .updated) =>
    { tally with records := tally.records ++ [record], updated := tally.updated + 1 }
  | .ok (record, .unchanged) =>
    { tally with records := tally.records ++ [record], unchanged := tally.unchanged + 1 }
  | .error _ => { tally with failed := tally.failed + 1 }

/-- The fallback of a batch of creations. -/
def createItems : Tally → List Entry → Prog Request Reply Tally
  | tally, [] => .ret tally
  | tally, entry :: entries =>
    (reconcile (b.item entry.lookup entry.desired b.strictLookup)).bind fun outcome =>
      createItems (tally.count outcome) entries

def createBatches : Tally → List (List Entry) → NetBoxProg Tally
  | tally, [] => .ret (.ok tally)
  | tally, batch :: batches =>
    .ask (.bulkCreate b.path (batch.map (·.desired))) fun
      | .ok records => createBatches
        { tally with
          records := tally.records ++ records
          created := tally.created + records.length } batches
      | .error e =>
        if b.fallbackToIndividual then
          (createItems b tally batch).bind fun tally => createBatches tally batches
        else .ret (.error e)

/-- The fallback of a batch of patches. -/
def patchItems : Tally → List (Record × Record) → Prog Request Reply Tally
  | tally, [] => .ret tally
  | tally, (record, patch) :: patches => (save b.path record patch).bind fun
    | .ok saved => patchItems (tally.count (.ok (saved, .updated))) patches
    | .error e => patchItems (tally.count (.error e)) patches

/-- The updates of a batch, under the ids that `{"id": record.id, **patch_payload}` holds. -/
def updatesOf (batch : List (Record × Record)) : List (Json × Record) :=
  (batch.filter fun rp => !(field "id" rp.1).isNull).map fun rp =>
    ((Dict.get "id" rp.2).getD (field "id" rp.1), rp.2)

/-- `rest_bulk_patch_async`; without updates nothing is asked. -/
def restBulkPatch (updates : List (Json × Record)) : NetBoxProg (List Record) :=
  if updates.isEmpty then .ret (.ok []) else .ask (.bulkPatch b.path updates) .ret

def patchBatches : Tally → List (List (Record × Record)) → NetBoxProg Tally
  | tally, [] => .ret (.ok tally)
  | tally, batch :: batches =>
    (restBulkPatch b (updatesOf batch)).bind fun
      | .ok records => patchBatches
        { tally with
          records := tally.records ++ records
          updated := tally.updated + records.length } batches
      | .error e =>
        if b.fallbackToIndividual then
          (patchItems b tally batch).bind fun tally => patchBatches tally batches
        else .ret (.error e)

/-- The slices of `range(0, len(l), size)`. -/
def batches {α : Type} (size : ℕ) (l : List α) : List (List α) :=
  (List.range ((l.length + size - 1) / size)).map fun i => (l.drop (i * size)).take size

/-- `_normalize_bulk_batch_size`. -/
def BulkCall.size : ℕ := max 1 b.batchSize

def Action.created : Action → Option Entry
  | .create entry => some entry
  | _ => none

def Action.patched : Action → Option (Record × Record)
  | .patch record changes => some (record, changes)
  | _ => none

def Action.kept : Action → Option Record
  | .keep record => some record
  | _ => none

/-- The batches of creations and of patches. -/
def BulkCall.apply (actions : List Action) : NetBoxProg Tally :=
  let kept := actions.filterMap Action.kept
  (createBatches b ⟨kept, 0, 0, kept.length, 0⟩
    (batches b.size (actions.filterMap Action.created))).bind fun
      | .error e => .ret (.error e)
      | .ok tally => patchBatches b tally (batches b.size (actions.filterMap Action.patched))

def BulkCall.scanQuery : Query := Dict.set "limit" (.int 200) b.baseQuery

/-- `rest_bulk_reconcile_async`. -/
def bulkReconcile : NetBoxProg Tally :=
  if b.payloads.isEmpty then .ret (.ok ⟨[], 0, 0, 0, 0⟩)
  else match b.entries [] b.payloads with
    | .error e => .ret (.error e)
    | .ok entries => .ask (.scan b.path b.scanQuery) fun
      | .error e => .ret (.error e)
      | .ok records =>
        match (b.existingGroups records).bind fun groups => entries.mapM (b.action groups) with
        | .error e => .ret (.error e)
        | .ok actions => b.apply actions

/-- The payloads reconciled one after another by their lookups. -/
def reconcileEach : List Record → NetBoxProg Unit
  | [] => .ret (.ok ())
  | payload :: payloads =>
    let lookup := ((b.dump payload).map (buildLookupDictFromFields b.lookupFields)).getD []
    (reconcile (b.item lookup payload true)).bind fun
      | .error e => .ret (.error e)
      | .ok _ => reconcileEach payloads

/-- A record that NetBox stores. -/
structure Stored where
  id : ℤ
  fields : Record

def Stored.serve (s : Stored) : Record := ("id", .int s.id) :: s.fields

/-- How NetBox stores what is posted and what is patched, and which records a query selects. -/
structure Store where
  make : Record → Record
  change : Record → Record → Record
  selects : Query → Stored → Bool

/-- The collection, and the numbers of bulk requests so far. -/
structure Db where
  table : Upsert.Table Stored
  bulkCreates : ℕ
  bulkPatches : ℕ

variable (store : Store) (failsCreate failsPatch : ℕ → Bool)

def Stored.patched (store : Store) (patch : Record) (s : Stored) : Stored :=
  { s with fields := store.change s.fields patch }

def patchId (id : Json) (patch : Record) (rows : List Stored) : List Stored :=
  rows.map fun s => if id.pyEq (.int s.id) then s.patched store patch else s

def create (table : Upsert.Table Stored) (payload : Record) : Upsert.Table Stored :=
  { rows := table.rows ++ [⟨table.next, store.make payload⟩], next := table.next + 1 }

/-- The NetBox of one collection: bulk requests may fail before they take effect. -/
def answer : (q : Request) → Db → Reply q × Db
  | .list _ query, db =>
    (.ok ((db.table.rows.filter (store.selects query)).map Stored.serve), db)
  | .scan _ query, db =>
    (.ok ((db.table.rows.filter (store.selects query)).map Stored.serve), db)
  | .create _ payload, db =>
    (.ok (Stored.serve ⟨db.table.next, store.make payload⟩),
      { db with table := create store db.table payload })
  | .patch _ target payload, db =>
    let rows := patchId store (field "id" target) payload db.table.rows
    (.ok (((rows.find? fun s => (field "id" target).pyEq (.int s.id)).map Stored.serve).getD []),
      { db with table := { db.table with rows } })
  | .bulkCreate _ payloads, db =>
    if failsCreate db.bulkCreates then
      (.error .other, { db with bulkCreates := db.bulkCreates + 1 })
    else
      let table := payloads.foldl (create store) db.table
      (.ok ((table.rows.drop db.table.rows.length).map Stored.serve),
        { db with table, bulkCreates := db.bulkCreates + 1 })
  | .bulkPatch _ updates, db =>
    if failsPatch db.bulkPatches then
      (.error .other, { db with bulkPatches := db.bulkPatches + 1 })
    else
      let rows := updates.foldl (fun rows update => patchId store update.1 update.2 rows)
        db.table.rows
      (.ok (updates.filterMap fun update =>
          (rows.find? fun s => update.1.pyEq (.int s.id)).map Stored.serve),
        { db with table := { db.table with rows }, bulkPatches := db.bulkPatches + 1 })

end ProxboxApi.BulkReconcile
