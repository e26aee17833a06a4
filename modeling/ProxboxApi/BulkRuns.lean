import ProxboxApi.BulkUpserts

/-! Runs over many entries: one after another, in batches of creations and in batches of patches,
whether NetBox takes a batch or not. -/

namespace ProxboxApi.BulkReconcile

open Requests Reconcile
open RestCreate (Query)
open VmQueue (field)

variable (b : BulkCall) (store : Store)

/-- The payloads have these entries, each with a key of its own. -/
structure BulkCall.Distinct (entries : List Entry) : Prop where
  entry : List.Forall₂ (fun payload e => b.dump payload = some e.desired ∧
    e.lookup = buildLookupDictFromFields b.lookupFields e.desired ∧
      lookupTuple e.lookup = .ok (some e.key)) b.payloads entries
  keys : (entries.map Entry.key).Nodup

section Entries

variable {b store} {entries : List Entry}

theorem entries_eq {seen : List Key} {payloads : List Record}
    (hentries : List.Forall₂ (fun payload e => b.dump payload = some e.desired ∧
      e.lookup = buildLookupDictFromFields b.lookupFields e.desired ∧
        lookupTuple e.lookup = .ok (some e.key)) payloads entries)
    (hkeys : (entries.map Entry.key).Nodup) (hseen : ∀ e ∈ entries, e.key ∉ seen) :
    b.entries seen payloads = .ok entries := by
  induction hentries generalizing seen with
  | nil => rfl
  | @cons payload e payloads entries hpayload _ ih =>
    obtain ⟨hdump, hlookup, hkey⟩ := hpayload
    rw [List.map_cons, List.nodup_cons] at hkeys
    obtain ⟨hfresh, hrest⟩ := List.forall_mem_cons.mp hseen
    have hlater : ∀ e' ∈ entries, e'.key ∉ e.key :: seen := by
      intro e' he'
      rw [List.mem_cons, not_or]
      refine ⟨?_, hrest e' he'⟩
      intro heq
      exact hkeys.1 (List.mem_map.mpr ⟨e', he', heq⟩)
    rw [BulkCall.entries, hdump]
    dsimp only
    rw [← hlookup, hkey]
    dsimp only
    rw [if_neg hfresh, ih hkeys.2 hlater]
    rfl

theorem BulkCall.Distinct.entries_eq (h : b.Distinct entries) :
    b.entries [] b.payloads = .ok entries :=
  BulkReconcile.entries_eq h.entry h.keys (by simp)

theorem BulkCall.Distinct.sound (h : b.Distinct entries) : ∀ e ∈ entries, b.Sound e := by
  intro e he
  obtain ⟨payload, _, hdump, hlookup, hkey⟩ := Outcomes.exists_of_forall₂ h.entry he
  exact ⟨⟨payload, hdump⟩, hlookup, hlookup ▸ hkey⟩

end Entries

section Runs

variable {b store} {failsCreate failsPatch : ℕ → Bool} {entries es : List Entry}
  {t : Upsert.Table Stored} {db : Db}

theorem upsertAll_cons (e : Entry) : (b.spec store).upsertAll t (e :: es) =
    (b.spec store).upsertAll ((b.spec store).upsert t e) es := rfl

theorem upsertAll_append (es' : List Entry) : (b.spec store).upsertAll t (es ++ es') =
    (b.spec store).upsertAll ((b.spec store).upsertAll t es) es' :=
  List.foldl_append ..

theorem BulkCall.Ready.upsertAll (h : b.Ready entries t) (hidem : Idempotent b store)
    (hsound : ∀ e ∈ entries, b.Sound e) (hapart : Apart entries) (hes : ∀ e ∈ es, e ∈ entries) :
    b.Ready entries ((b.spec store).upsertAll t es) := by
  induction es generalizing t with
  | nil => exact h
  | cons e es ih =>
    obtain ⟨he, hes⟩ := List.forall_mem_cons.mp hes
    exact ih (h.upsert hidem hsound hapart he) hes

/-- Payloads that are reconciled one after another are upserted. -/
theorem reconcileEach_run (hidem : Idempotent b store) (hfilters : Filters b store)
    (hsound : ∀ e ∈ entries, b.Sound e) (hapart : Apart entries) {payloads : List Record}
    (hentries : List.Forall₂ (fun payload e => b.dump payload = some e.desired ∧
      e.lookup = buildLookupDictFromFields b.lookupFields e.desired ∧
        lookupTuple e.lookup = .ok (some e.key)) payloads es)
    (hes : ∀ e ∈ es, e ∈ entries) (hready : b.Ready entries db.table) :
    (reconcileEach b payloads).run (answer store failsCreate failsPatch) db =
      (.ok (), { db with table := (b.spec store).upsertAll db.table es }) := by
  induction hentries generalizing db with
  | nil => rfl
  | @cons payload e payloads es hpayload _ ih =>
    obtain ⟨he, hes⟩ := List.forall_mem_cons.mp hes
    obtain ⟨record, status, hrun, _⟩ := reconcile_run payload hfilters hready (hsound e he) he
      hpayload.1
    have hlookup : ((b.dump payload).map (buildLookupDictFromFields b.lookupFields)).getD [] =
        e.lookup := by
      rw [hpayload.1, hpayload.2.1]
      rfl
    rw [reconcileEach, hlookup, Prog.run_bind, hrun]
    exact ih hes (hready.upsert hidem hsound hapart he)

/-- New entries: some of the entries, with keys of their own that no record has. -/
structure BulkCall.New (b : BulkCall) (store : Store) (entries : List Entry)
    (t : Upsert.Table Stored) (es : List Entry) : Prop where
  mem : ∀ e ∈ es, e ∈ entries
  keys : (es.map Entry.key).Nodup
  none : ∀ e ∈ es, t.rows.any ((b.spec store).hits e) = false

theorem BulkCall.New.tail {e : Entry} (h : b.New store entries t (e :: es))
    (hidem : Idempotent b store) (hsound : ∀ e ∈ entries, b.Sound e) :
    b.New store entries ((b.spec store).upsert t e) es := by
  have hkeys := h.keys
  rw [List.map_cons, List.nodup_cons] at hkeys
  refine ⟨fun e' he' => h.mem e' (List.mem_cons_of_mem _ he'), hkeys.2, ?_⟩
  intro e' he'
  have hne : e'.key ≠ e.key := fun heq => hkeys.1 (List.mem_map.mpr ⟨e', he', heq⟩)
  have hkeyed := keyed hidem (hsound e (h.mem e (List.mem_cons_self ..)))
  rw [Upsert.any_hits_upsert hkeyed hne]
  exact h.none e' (List.mem_cons_of_mem _ he')

theorem BulkCall.New.append {es' : List Entry} (h : b.New store entries t (es ++ es'))
    (hidem : Idempotent b store) (hsound : ∀ e ∈ entries, b.Sound e) :
    b.New store entries t es ∧ b.New store entries ((b.spec store).upsertAll t es) es' := by
  induction es generalizing t with
  | nil => exact ⟨⟨by simp, by simp, by simp⟩, h⟩
  | cons e es ih =>
    refine ⟨⟨?_, ?_, ?_⟩, (ih (h.tail hidem hsound)).2⟩
    · exact fun e' he' => h.mem e' (List.mem_append_left _ he')
    · exact (List.map_append ▸ h.keys).of_append_left
    · exact fun e' he' => h.none e' (List.mem_append_left _ he')

/-- New entries are upserted by their creation. -/
theorem BulkCall.New.foldl_create (h : b.New store entries t es) (hidem : Idempotent b store)
    (hsound : ∀ e ∈ entries, b.Sound e) :
    (es.map Entry.desired).foldl (create store) t = (b.spec store).upsertAll t es := by
  induction es generalizing t with
  | nil => rfl
  | cons e es ih =>
    have hnone := h.none e (List.mem_cons_self ..)
    rw [List.map_cons, List.foldl_cons, ← upsert_of_none hnone, ih (h.tail hidem hsound)]
    rfl

theorem foldl_create_rows (payloads : List Record) : ∃ rows,
    (payloads.foldl (create store) t).rows = t.rows ++ rows ∧ rows.length = payloads.length := by
  induction payloads generalizing t with
  | nil => exact ⟨[], by simp, rfl⟩
  | cons payload payloads ih =>
    obtain ⟨rows, hrows, hlength⟩ := @ih (create store t payload)
    refine ⟨⟨t.next, store.make payload⟩ :: rows, ?_, by simp [hlength]⟩
    rw [List.foldl_cons, hrows, create, List.append_assoc]
    rfl

/-- The counters of a tally. -/
def Tally.counts (tally : Tally) : ℕ × ℕ × ℕ × ℕ :=
  (tally.created, tally.updated, tally.unchanged, tally.failed)

theorem createItems_run (failsCreate failsPatch : ℕ → Bool) (hidem : Idempotent b store)
    (hfilters : Filters b store) (hsound : ∀ e ∈ entries, b.Sound e) (hapart : Apart entries)
    (hstrict : b.strictLookup = true)
    (hready : b.Ready entries db.table) (hnew : b.New store entries db.table es) (tally : Tally) :
    ∃ tally', (createItems b tally es).run (answer store failsCreate failsPatch) db =
      (tally', { db with table := (b.spec store).upsertAll db.table es }) ∧
        tally'.counts =
          (tally.created + es.length, tally.updated, tally.unchanged, tally.failed) := by
  induction es generalizing tally db with
  | nil => exact ⟨tally, rfl, rfl⟩
  | cons e es ih =>
    have he := hnew.mem e (List.mem_cons_self ..)
    obtain ⟨payload, hdump⟩ := (hsound e he).dumped
    obtain ⟨record, status, hrun, hcreated⟩ := reconcile_run e.desired hfilters hready (hsound e he)
      he (hidem.dump payload e.desired hdump)
    rw [hcreated (hnew.none e (List.mem_cons_self ..))] at hrun
    have hnew' : b.New store entries
        (Db.table { db with table := (b.spec store).upsert db.table e }) es :=
      hnew.tail hidem hsound
    obtain ⟨tally', hrest, hcounts⟩ := ih (hready.upsert hidem hsound hapart he) hnew'
      (tally.count (.ok (record, .created)))
    refine ⟨tally', ?_, ?_⟩
    · rw [createItems, hstrict, Prog.run_bind, hrun]
      exact hrest
    · rw [hcounts, List.length_cons]
      simp only [Tally.count, Prod.mk.injEq, and_true]
      omega

/-- A batch of creations, whether NetBox takes it or not. -/
theorem createBatches_run (hidem : Idempotent b store) (hfilters : Filters b store)
    (hsound : ∀ e ∈ entries, b.Sound e) (hapart : Apart entries)
    (hfallback : b.fallbackToIndividual = true)
    (hstrict : b.strictLookup = true ∨ ∀ n, failsCreate n = false) {batches : List (List Entry)}
    (hready : b.Ready entries db.table) (hnew : b.New store entries db.table batches.flatten)
    (tally : Tally) : ∃ tally' n,
      (createBatches b tally batches).run (answer store failsCreate failsPatch) db =
        (.ok tally', ⟨(b.spec store).upsertAll db.table batches.flatten, n, db.bulkPatches⟩) ∧
          tally'.counts = (tally.created + batches.flatten.length, tally.updated, tally.unchanged,
            tally.failed) := by
  induction batches generalizing tally db with
  | nil => exact ⟨tally, db.bulkCreates, rfl, rfl⟩
  | cons batch batches ih =>
    rw [List.flatten_cons] at hnew ⊢
    obtain ⟨hbatch, hlater⟩ := hnew.append hidem hsound
    have hready' := hready.upsertAll hidem hsound hapart hbatch.mem
    -- the batches after this one, whichever way it went
    have hrest : ∀ (tally₁ : Tally) (n : ℕ), tally₁.counts =
        (tally.created + batch.length, tally.updated, tally.unchanged, tally.failed) →
        ∃ tally' n', (createBatches b tally₁ batches).run (answer store failsCreate failsPatch)
          ⟨(b.spec store).upsertAll db.table batch, n, db.bulkPatches⟩ =
            (.ok tally', ⟨(b.spec store).upsertAll db.table (batch ++ batches.flatten), n',
              db.bulkPatches⟩) ∧
          tally'.counts = (tally.created + (batch ++ batches.flatten).length, tally.updated,
            tally.unchanged, tally.failed) := by
      intro tally₁ n hcounts
      obtain ⟨tally', n', hrun, hcounts'⟩ :=
        @ih ⟨(b.spec store).upsertAll db.table batch, n, db.bulkPatches⟩ hready' hlater tally₁
      refine ⟨tally', n', ?_, ?_⟩
      · rw [hrun, upsertAll_append]
      · simp only [Tally.counts, Prod.mk.injEq] at hcounts
        rw [hcounts', hcounts.1, hcounts.2.1, hcounts.2.2.1, hcounts.2.2.2, List.length_append,
          Nat.add_assoc]
    rw [createBatches, Prog.run]
    dsimp only [answer]
    cases hfails : failsCreate db.bulkCreates with
    | false =>
      obtain ⟨rows, hrows, hlength⟩ := @foldl_create_rows store db.table (batch.map Entry.desired)
      rw [if_neg (by simp)]
      dsimp only
      rw [hbatch.foldl_create hidem hsound] at hrows ⊢
      apply hrest
      rw [hrows, List.drop_left, List.length_map, hlength, List.length_map]
      rfl
    | true =>
      rw [if_pos rfl]
      dsimp only
      rw [if_pos hfallback, Prog.run_bind]
      have hstrict' : b.strictLookup = true := by
        refine hstrict.resolve_right ?_
        intro hnever
        rw [hnever] at hfails
        contradiction
      have hready₁ : b.Ready entries (Db.table { db with bulkCreates := db.bulkCreates + 1 }) :=
        hready
      obtain ⟨tally₁, hrun, hcounts⟩ := createItems_run failsCreate failsPatch hidem hfilters hsound
        hapart hstrict' hready₁ hbatch tally
      rw [hrun]
      exact hrest tally₁ _ hcounts

/-- A patch that NetBox can apply by the id of its record. -/
def Patchable (rows : List Stored) (rp : Record × Record) : Prop :=
  Dict.get "id" rp.2 = none ∧ ∃ s ∈ rows, field "id" rp.1 = .int s.id

/-- The rows after patches by id. -/
def patchAll (store : Store) (patches : List (Record × Record)) (rows : List Stored) :
    List Stored :=
  patches.foldl (fun rows rp => patchId store (field "id" rp.1) rp.2 rows) rows

theorem patchAll_ids (patches : List (Record × Record)) {rows : List Stored} :
    (patchAll store patches rows).map Stored.id = rows.map Stored.id := by
  induction patches generalizing rows with
  | nil => rfl
  | cons rp patches ih =>
    have hstep : (patchId store (field "id" rp.1) rp.2 rows).map Stored.id = rows.map Stored.id := by
      rw [patchId, List.map_map]
      apply List.map_congr_left
      intro s _
      rw [Function.comp_apply]
      split <;> rfl
    exact ih.trans hstep

theorem Patchable.after {rows : List Stored} {rp : Record × Record} (h : Patchable rows rp)
    (patches : List (Record × Record)) : Patchable (patchAll store patches rows) rp := by
  obtain ⟨hget, s, hs, hid⟩ := h
  refine ⟨hget, ?_⟩
  have hmem : s.id ∈ (patchAll store patches rows).map Stored.id := by
    rw [patchAll_ids]
    exact List.mem_map_of_mem hs
  obtain ⟨s', hs', heq⟩ := List.mem_map.mp hmem
  exact ⟨s', hs', by rw [hid, heq]⟩

theorem updatesOf_eq {rows : List Stored} {batch : List (Record × Record)}
    (h : ∀ rp ∈ batch, Patchable rows rp) :
    updatesOf batch = batch.map fun rp => (field "id" rp.1, rp.2) := by
  have hfilter : batch.filter (fun rp => !(field "id" rp.1).isNull) = batch := by
    rw [List.filter_eq_self]
    intro rp hrp
    obtain ⟨_, s, _, hid⟩ := h rp hrp
    rw [hid]
    rfl
  rw [updatesOf, hfilter]
  apply List.map_congr_left
  intro rp hrp
  rw [(h rp hrp).1]
  rfl

/-- The fallback of a batch of patches. -/
theorem patchItems_run (failsCreate failsPatch : ℕ → Bool) {patches : List (Record × Record)}
    (hpatches : ∀ rp ∈ patches, Patchable db.table.rows rp) (tally : Tally) :
    ∃ tally', (patchItems b tally patches).run (answer store failsCreate failsPatch) db =
      (tally', { db with
        table := { db.table with rows := patchAll store patches db.table.rows } }) ∧
        tally'.counts =
          (tally.created, tally.updated + patches.length, tally.unchanged, tally.failed) := by
  induction patches generalizing tally db with
  | nil => exact ⟨tally, rfl, rfl⟩
  | cons rp patches ih =>
    obtain ⟨record, patch⟩ := rp
    obtain ⟨hrp, hlater⟩ := List.forall_mem_cons.mp hpatches
    have hid : (field "id" record).isNull = false := by
      obtain ⟨_, s, _, hid⟩ := hrp
      rw [hid]
      rfl
    let db₁ : Db := { db with
      table := { db.table with rows := patchId store (field "id" record) patch db.table.rows } }
    have hpatches₁ : ∀ rp ∈ patches, Patchable db₁.table.rows rp :=
      fun rp hrp => (hlater rp hrp).after [(record, patch)]
    obtain ⟨tally', hrun, hcounts⟩ := ih hpatches₁ (tally.count (.ok (((db₁.table.rows.find? fun s =>
      (field "id" record).pyEq (.int s.id)).map Stored.serve).getD [], .updated)))
    refine ⟨tally', ?_, ?_⟩
    · rw [patchItems, save, hid, Prog.run_bind]
      exact hrun
    · rw [hcounts, List.length_cons]
      simp only [Tally.count, Prod.mk.injEq, and_true, true_and]
      omega

/-- A bulk patch is answered by the records of its updates. -/
theorem answered_length {rows : List Stored} {batch : List (Record × Record)}
    (h : ∀ rp ∈ batch, Patchable rows rp) :
    ((batch.map fun rp => (field "id" rp.1, rp.2)).filterMap fun update =>
      (rows.find? fun s => update.1.pyEq (.int s.id)).map Stored.serve).length = batch.length := by
  rw [List.filterMap_map]
  apply List.Forall₂.length_eq
  apply Outcomes.forall₂_filterMap
  intro rp hrp
  obtain ⟨_, s, hs, hid⟩ := h rp hrp
  rw [Function.comp_apply, Option.isSome_map, List.find?_isSome]
  exact ⟨s, hs, by rw [hid, pyEq_int_iff]⟩

theorem patchBatches_run (hfallback : b.fallbackToIndividual = true)
    {batches : List (List (Record × Record))}
    (hpatches : ∀ rp ∈ batches.flatten, Patchable db.table.rows rp) (tally : Tally) :
    ∃ tally' n, (patchBatches b tally batches).run (answer store failsCreate failsPatch) db =
      (.ok tally', ⟨{ db.table with rows := patchAll store batches.flatten db.table.rows },
        db.bulkCreates, n⟩) ∧
        tally'.counts = (tally.created, tally.updated + batches.flatten.length, tally.unchanged,
          tally.failed) := by
  induction batches generalizing tally db with
  | nil => exact ⟨tally, db.bulkPatches, rfl, rfl⟩
  | cons batch batches ih =>
    rw [List.flatten_cons] at hpatches ⊢
    rw [List.forall_mem_append] at hpatches
    obtain ⟨hbatch, hlater⟩ := hpatches
    have hrest : ∀ (tally₁ : Tally) (n : ℕ), tally₁.counts =
        (tally.created, tally.updated + batch.length, tally.unchanged, tally.failed) →
        ∃ tally' n', (patchBatches b tally₁ batches).run (answer store failsCreate failsPatch)
          ⟨{ db.table with rows := patchAll store batch db.table.rows }, db.bulkCreates, n⟩ =
            (.ok tally', ⟨{ db.table with
              rows := patchAll store (batch ++ batches.flatten) db.table.rows },
                db.bulkCreates, n'⟩) ∧
          tally'.counts = (tally.created, tally.updated + (batch ++ batches.flatten).length,
            tally.unchanged, tally.failed) := by
      intro tally₁ n hcounts
      obtain ⟨tally', n', hrun, hcounts'⟩ := @ih
        ⟨{ db.table with rows := patchAll store batch db.table.rows }, db.bulkCreates, n⟩
        (fun rp hrp => (hlater rp hrp).after batch) tally₁
      refine ⟨tally', n', ?_, ?_⟩
      · rw [hrun, patchAll, patchAll, patchAll, List.foldl_append]
      · simp only [Tally.counts, Prod.mk.injEq] at hcounts
        rw [hcounts', hcounts.1, hcounts.2.1, hcounts.2.2.1, hcounts.2.2.2, List.length_append,
          Nat.add_assoc]
    rw [patchBatches, restBulkPatch, updatesOf_eq hbatch]
    cases hcases : batch with
    | nil =>
      rw [hcases] at hrest
      exact hrest _ db.bulkPatches rfl
    | cons rp patches =>
      rw [← hcases, if_neg (by simp [hcases]), Prog.run_bind]
      dsimp only [Prog.run, answer]
      cases hfails : failsPatch db.bulkPatches with
      | false =>
        rw [if_neg (by simp), List.foldl_map]
        apply hrest
        simp only [Tally.counts, Prod.mk.injEq, and_true, true_and]
        exact congrArg (tally.updated + ·) (answered_length fun rp hrp => (hbatch rp hrp).after batch)
      | true =>
        rw [if_pos rfl]
        dsimp only
        rw [if_pos hfallback, Prog.run_bind]
        have hbatch₁ : ∀ rp ∈ batch, Patchable
            (Db.table { db with bulkPatches := db.bulkPatches + 1 }).rows rp := hbatch
        obtain ⟨tally₁, hrun, hcounts⟩ := @patchItems_run b store _ failsCreate failsPatch batch
          hbatch₁ tally
        rw [hrun]
        exact hrest tally₁ _ hcounts

end Runs

end ProxboxApi.BulkReconcile
