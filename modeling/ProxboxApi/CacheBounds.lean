import ProxboxApi.GetCache
import ProxboxApi.Runs
import ProxboxApi.Shedding

/-! The limits of the GET cache over whole runs of reads, writes and invalidations: which writes
keep them, and drop no more of the other entries than they ask for. -/

namespace ProxboxApi.GetCache

variable {ρ : Type*} (cfg : Config ρ)

/-- The oldest entries first, as the dictionary has them where they are equally old. -/
def byAge (s : Cache ρ) : Cache ρ := Shedding.byKey (fun kv => kv.2.cachedAt) s

/-- A new entry of this size fits beside the entries. -/
def Room (size : ℕ) (s : Cache ρ) : Prop :=
  s.length < cfg.maxEntries ∧ currentBytes s + size ≤ cfg.maxBytes

instance (size : ℕ) : DecidablePred (Room cfg size) :=
  fun s => inferInstanceAs (Decidable (s.length < cfg.maxEntries ∧ _))

/-- The entries that have not expired. -/
def live (now : ℕ) (s : Cache ρ) : Cache ρ := s.filter fun kv => !expired cfg now kv.2

/-- Of the other live entries a write leaves all but the oldest ones, and takes away the fewest
that make room for the new entry. -/
def EvictsOldest (now : ℕ) (k : CacheKey) (records : List ρ) (s : Cache ρ) : Prop :=
  let others := byAge (Dict.erase k (live cfg now s))
  ∃ n, byAge (Dict.erase k (write cfg now k records s)) = others.drop n ∧
    Room cfg (cfg.entrySize records) (others.drop n) ∧
    ∀ m < n, ¬ Room cfg (cfg.entrySize records) (others.drop m)

/-- The state of a run. -/
structure State (ρ : Type*) where
  now : ℕ
  cache : Cache ρ

inductive Op (ρ : Type*) where
  | read (k : CacheKey)
  | write (k : CacheKey) (records : List ρ)
  | invalidatePath (api : ℕ) (path : String)
  | invalidateRecord (api : ℕ) (listPath : String) (urlPath recordId : Option String)
  | clear
  | advance (d : ℕ)

def State.after (s : State ρ) : Op ρ → State ρ
  | .read k => ⟨s.now, (GetCache.read cfg s.now k s.cache).2⟩
  | .write k records => ⟨s.now, GetCache.write cfg s.now k records s.cache⟩
  | .invalidatePath api path => ⟨s.now, invalidateForPath api path s.cache⟩
  | .invalidateRecord api listPath urlPath recordId =>
    ⟨s.now, invalidateForRecord api listPath urlPath recordId s.cache⟩
  | .clear => ⟨s.now, []⟩
  | .advance d => ⟨s.now + d, s.cache⟩

def opStep (s : State ρ) (op : Op ρ) : Option (State ρ) := some (s.after cfg op)

/-- Reads and the passing of time. -/
def Op.quiet : Op ρ → Bool
  | .read _ | .advance _ => true
  | _ => false

/-- A write that keeps the limits, is served until it expires, and evicts no more than it must. -/
structure WriteGood (s : State ρ) (k : CacheKey) (records : List ρ) : Prop where
  bounded : Bounded cfg (write cfg s.now k records s.cache)
  served : cfg.ttl ≠ 0 → cfg.entrySize records ≤ cfg.maxBytes → ∀ ops : List (Op ρ),
    (∀ op ∈ ops, op.quiet = true) → ∀ t,
      Runs.exec (opStep cfg) (s.after cfg (.write k records)) ops = some t →
        t.now < s.now + cfg.ttl → (read cfg t.now k t.cache).1 = some records
  evicts : cfg.ttl ≠ 0 → cfg.entrySize records ≤ cfg.maxBytes →
    EvictsOldest cfg s.now k records s.cache

/-- The entry fits alone; and where leaving out the oldest live entries makes room for it but for
the old entry of its key, while another key's entry is the oldest one left, there is room beside
the old entry too. -/
def Fits (s : State ρ) (k : CacheKey) (records : List ρ) : Prop :=
  cfg.ttl = 0 ∨ (cfg.entrySize records ≤ cfg.maxBytes ∧
    ∀ m kv rest, (byAge (live cfg s.now s.cache)).drop m = kv :: rest → kv.1 ≠ k →
      Room cfg (cfg.entrySize records) (Dict.erase k (kv :: rest)) →
        Room cfg (cfg.entrySize records) (kv :: rest))

/-- The condition on the steps of a run: every write is of an entry that fits. -/
def FitsOp (s : State ρ) : Op ρ → Prop
  | .write k records => Fits cfg s k records
  | _ => True

/-- What holds in a state, and of the operation after it. -/
structure Good (s : State ρ) : Prop where
  bounded : Bounded cfg s.cache
  fresh : ∀ k records, (read cfg s.now k s.cache).1 = some records →
    ∃ e, (k, e) ∈ s.cache ∧ e.records = records ∧ s.now < e.cachedAt + cfg.ttl
  writes : ∀ k records, WriteGood cfg s k records ↔ Fits cfg s k records

section Room

variable {cfg} {size : ℕ} {s t : Cache ρ}

theorem Room.sublist (h : Room cfg size t) (hst : s.Sublist t) : Room cfg size s :=
  ⟨hst.length_le.trans_lt h.1, (Nat.add_le_add_right (currentBytes_sublist hst) size).trans h.2⟩

theorem room_perm (h : s.Perm t) : Room cfg size s ↔ Room cfg size t := by
  rw [Room, Room, h.length_eq, currentBytes_perm h]

theorem room_nil (h : size ≤ cfg.maxBytes) : Room cfg size ([] : Cache ρ) :=
  ⟨cfg.maxEntries_min, by simpa [currentBytes] using h⟩

theorem byAge_perm : (byAge s).Perm s := Shedding.byKey_perm s

theorem byAge_erase (k : CacheKey) : byAge (Dict.erase k s) = Dict.erase k (byAge s) :=
  Shedding.byKey_filter _ s

theorem nodup_of_nodup_keys (h : (Dict.keys s).Nodup) : s.Nodup := List.Nodup.of_map _ h

theorem nodup_keys_byAge (h : (Dict.keys s).Nodup) : (Dict.keys (byAge s)).Nodup :=
  (byAge_perm.map Prod.fst).nodup_iff.mpr h

theorem erase_set (k : CacheKey) (e : Entry ρ) : Dict.erase k (Dict.set k e s) = Dict.erase k s := by
  induction s with
  | nil => simp [Dict.set, Dict.erase]
  | cons kv s ih =>
    obtain ⟨k', e'⟩ := kv
    by_cases hk : k' = k
    · simp [Dict.set, Dict.erase, hk]
    · have herase : ∀ t : Cache ρ, Dict.erase k ((k', e') :: t) = (k', e') :: Dict.erase k t :=
        fun t => List.filter_cons_of_pos (by simpa using hk)
      rw [Dict.set, if_neg hk, herase, herase, ih]

/-- The loop sheds the oldest entries until there is room. -/
theorem byAge_makeRoom {fuel : ℕ} (hkeys : (Dict.keys s).Nodup) (hfuel : s.length ≤ fuel) :
    byAge (makeRoom cfg size fuel s) = Shedding.shed (Room cfg size) (byAge s) := by
  induction fuel generalizing s with
  | zero =>
    obtain rfl : s = [] := by simpa using hfuel
    rfl
  | succ fuel ih =>
    unfold makeRoom
    split
    · rename_i hfull
      have hno : ¬ Room cfg size s := by
        rintro ⟨hentries, hbytes⟩
        omega
      split
      · obtain rfl := List.argmin_eq_none.mp ‹_›
        rfl
      · rename_i oldest hold
        have hshed : byAge s = oldest :: byAge (Dict.erase oldest.1 s) :=
          Shedding.byKey_of_argmin hkeys hold
        have hno' : ¬ Room cfg size (oldest :: byAge (Dict.erase oldest.1 s)) := by
          rwa [← hshed, room_perm byAge_perm]
        have hlt := Dict.erase_length_lt (List.argmin_mem hold)
        rw [hshed, Shedding.shed, if_neg hno']
        exact ih (hkeys.sublist Dict.keys_filter_sublist) (by omega)
    · rename_i hroom
      have hyes : Room cfg size (byAge s) := by
        rw [room_perm byAge_perm]
        exact ⟨by omega, by omega⟩
      rw [Shedding.shed_of_pos hyes]

end Room

section Writes

variable {cfg} {now : ℕ} {k : CacheKey} {records : List ρ} {s : Cache ρ}

theorem write_of_ttl (httl : cfg.ttl ≠ 0) : write cfg now k records s =
    Dict.set k ⟨now, cfg.entrySize records, records⟩
      (makeRoom cfg (cfg.entrySize records) (live cfg now s).length (live cfg now s)) := by
  unfold write
  rw [if_neg httl]
  rfl

theorem write_of_ttl_zero (httl : cfg.ttl = 0) : write cfg now k records s = s := by
  simp [write, httl]

theorem makeRoom_sublist {size fuel : ℕ} : (makeRoom cfg size fuel s).Sublist s := by
  induction fuel generalizing s with
  | zero => exact List.Sublist.refl s
  | succ fuel ih =>
    unfold makeRoom
    split
    · split
      · exact List.Sublist.refl s
      · exact ih.trans List.filter_sublist
    · exact List.Sublist.refl s

/-- An entry that does not fit alone breaks the limit on the bytes. -/
theorem not_bounded_write (httl : cfg.ttl ≠ 0) (h : cfg.maxBytes < cfg.entrySize records) :
    ¬ Bounded cfg (write cfg now k records s) := by
  intro hbounded
  have hget : Dict.get k (write cfg now k records s) =
      some ⟨now, cfg.entrySize records, records⟩ := by
    rw [write_of_ttl httl]
    exact Dict.get_set_self
  have hsub := List.singleton_sublist.mpr (Dict.mem_of_get hget)
  have hbytes := (currentBytes_sublist hsub).trans hbounded.bytes
  rw [currentBytes_cons] at hbytes
  dsimp only at hbytes
  omega

/-- The others are evicted as they must be, exactly if no other one goes that need not. -/
theorem evictsOldest_iff (hkeys : (Dict.keys s).Nodup) (httl : cfg.ttl ≠ 0)
    (hsize : cfg.entrySize records ≤ cfg.maxBytes) : EvictsOldest cfg now k records s ↔
      ∀ m kv rest, (byAge (live cfg now s)).drop m = kv :: rest → kv.1 ≠ k →
        Room cfg (cfg.entrySize records) (Dict.erase k (kv :: rest)) →
          Room cfg (cfg.entrySize records) (kv :: rest) := by
  have hlive : (Dict.keys (live cfg now s)).Nodup := hkeys.sublist Dict.keys_filter_sublist
  have hafter : byAge (Dict.erase k (write cfg now k records s)) =
      Dict.erase k (Shedding.shed (Room cfg (cfg.entrySize records)) (byAge (live cfg now s))) := by
    rw [write_of_ttl httl, erase_set, byAge_erase, byAge_makeRoom hlive (le_refl _)]
  have hshed : EvictsOldest cfg now k records s ↔
      Shedding.shed (Room cfg (cfg.entrySize records)) (Dict.erase k (byAge (live cfg now s))) =
        Dict.erase k (Shedding.shed (Room cfg (cfg.entrySize records))
          (byAge (live cfg now s))) := by
    unfold EvictsOldest
    rw [hafter, byAge_erase]
    constructor
    · rintro ⟨n, heq, hroom, hfew⟩
      rw [heq, Shedding.shed_eq_of_fewest hroom hfew]
    · intro heq
      obtain ⟨n, hn, hroom, hfew⟩ := Shedding.shed_spec (P := Room cfg (cfg.entrySize records))
        (room_nil hsize) (Dict.erase k (byAge (live cfg now s)))
      exact ⟨n, heq.symm.trans hn, hroom, hfew⟩
  rw [hshed]
  refine (Shedding.shed_filter_iff (fun _ _ hst h => h.sublist hst)
    (nodup_of_nodup_keys (nodup_keys_byAge hlive))).trans ?_
  simp only [ne_eq, decide_eq_true_eq]
  rfl

end Writes

section Steps

variable {cfg} {now : ℕ} {k : CacheKey} {s t : Cache ρ}

theorem Bounded.sublist (h : Bounded cfg t) (hst : s.Sublist t) : Bounded cfg s :=
  ⟨hst.length_le.trans h.entries, (currentBytes_sublist hst).trans h.bytes⟩

theorem prune_sublist : (prune cfg now s).Sublist s := by
  unfold prune
  split
  · exact List.nil_sublist s
  · exact List.filter_sublist.trans List.filter_sublist

theorem read_sublist : (read cfg now k s).2.Sublist (prune cfg now s) := by
  unfold read
  dsimp only
  split
  · exact List.Sublist.refl _
  · split
    · exact List.Sublist.refl _
    · split
      · exact List.filter_sublist
      · exact List.Sublist.refl _

theorem invalidateForUrl_sublist {api : ℕ} {listPath : String} {urlPath : Option String} :
    (match urlPath with
      | some path => if path = "" then invalidateForPath api listPath s
          else invalidateForPath api path (invalidateForPath api listPath s)
      | none => invalidateForPath api listPath s).Sublist s := by
  split
  · split
    · exact List.filter_sublist
    · exact List.filter_sublist.trans List.filter_sublist
  · exact List.filter_sublist

theorem invalidateForRecord_sublist {api : ℕ} {listPath : String}
    {urlPath recordId : Option String} :
    (invalidateForRecord api listPath urlPath recordId s).Sublist s := by
  unfold invalidateForRecord
  cases recordId with
  | none => exact invalidateForUrl_sublist
  | some id => exact List.filter_sublist.trans invalidateForUrl_sublist

/-- A read drops no live entry of a cache within its limits. -/
theorem get_read {k' : CacheKey} {e : Entry ρ} (httl : cfg.ttl ≠ 0) (hs : Bounded cfg s)
    (hget : Dict.get k s = some e) (hlive : expired cfg now e = false) :
    Dict.get k (read cfg now k' s).2 = some e := by
  have hkept : Dict.get k (prune cfg now s) = some e := by
    rw [prune_of_bounded cfg httl hs]
    exact Dict.get_filter hget (by simp [hlive])
  by_cases hk : k' = k
  · subst hk
    exact (read_live cfg httl hs hget hlive).2.1
  · unfold read
    rw [if_neg httl]
    split
    · exact hkept
    · split
      · rw [Dict.get_erase, if_neg hk, hkept]
      · exact hkept

variable {u v : State ρ} {ops : List (Op ρ)}

theorem now_le (h : Runs.exec (opStep cfg) u ops = some v) : u.now ≤ v.now := by
  induction ops generalizing u with
  | nil =>
    obtain rfl := Option.some.inj h
    exact le_refl _
  | cons op ops ih =>
    obtain ⟨w, hw, hrest⟩ := Runs.exec_cons_iff.mp h
    obtain rfl := Option.some.inj hw
    refine le_trans ?_ (ih hrest)
    cases op <;> simp [State.after]

/-- A live entry is served after any reads, until it expires. -/
theorem served_of_quiet {e : Entry ρ} (httl : cfg.ttl ≠ 0) (hu : Bounded cfg u.cache)
    (hget : Dict.get k u.cache = some e) (hquiet : ∀ op ∈ ops, op.quiet = true)
    (hrun : Runs.exec (opStep cfg) u ops = some v) (hlive : v.now < e.cachedAt + cfg.ttl) :
    (read cfg v.now k v.cache).1 = some e.records := by
  have hnow : u.now < e.cachedAt + cfg.ttl := (now_le hrun).trans_lt hlive
  induction ops generalizing u with
  | nil =>
    obtain rfl := Option.some.inj hrun
    exact (read_live cfg httl hu hget (by simpa [expired] using hnow)).1
  | cons op ops ih =>
    obtain ⟨w, hw, hrest⟩ := Runs.exec_cons_iff.mp hrun
    obtain rfl := Option.some.inj hw
    have hops := fun op' h => hquiet op' (List.mem_cons_of_mem op h)
    have hbefore := (now_le hrest).trans_lt hlive
    cases op with
    | read k' =>
      have hbounded : Bounded cfg (read cfg u.now k' u.cache).2 :=
        (bounded_prune cfg).sublist read_sublist
      exact ih hbounded (get_read httl hu hget (by simpa [expired] using hnow)) hops hrest hbefore
    | advance d => exact ih (u := ⟨u.now + d, u.cache⟩) hu hget hops hrest hbefore
    | write _ _ | invalidatePath _ _ | invalidateRecord _ _ _ _ | clear =>
      exact absurd (hquiet _ List.mem_cons_self) (by simp [Op.quiet])

/-- In a cache within its limits, the writes that are good are those of entries that fit. -/
theorem good_of_bounded (hkeys : (Dict.keys u.cache).Nodup) (hu : Bounded cfg u.cache) :
    Good cfg u := by
  refine ⟨hu, ?_, fun k records => ⟨?_, ?_⟩⟩
  · intro k records hread
    obtain ⟨e, -, hrecords, hmem, hlive, -⟩ := read_served cfg hread
    exact ⟨e, hmem, hrecords, by simpa [expired] using hlive⟩
  · intro hgood
    by_cases httl : cfg.ttl = 0
    · exact Or.inl httl
    · have hsize : cfg.entrySize records ≤ cfg.maxBytes := by
        by_contra hlarge
        exact not_bounded_write httl (by omega) hgood.bounded
      exact Or.inr ⟨hsize, (evictsOldest_iff hkeys httl hsize).mp (hgood.evicts httl hsize)⟩
  · intro hfits
    by_cases httl : cfg.ttl = 0
    · refine ⟨?_, fun h => absurd httl h, fun h => absurd httl h⟩
      rw [write_of_ttl_zero httl]
      exact hu
    · rcases hfits with hzero | ⟨hsize, hothers⟩
      · exact absurd hzero httl
      · obtain ⟨hget, hbounded⟩ := write_stores cfg u.now k u.cache httl hsize
        refine ⟨hbounded, fun _ _ ops hquiet t hrun hlive => ?_,
          fun _ _ => (evictsOldest_iff hkeys httl hsize).mpr hothers⟩
        exact served_of_quiet httl hbounded hget hquiet hrun hlive

/-- The keys stay distinct, and the limits kept, over a step whose write is of an entry that
fits. -/
theorem keys_and_bounds_after {op : Op ρ} (hkeys : (Dict.keys u.cache).Nodup)
    (hu : Bounded cfg u.cache) (hfits : FitsOp cfg u op) :
    (Dict.keys (u.after cfg op).cache).Nodup ∧ Bounded cfg (u.after cfg op).cache := by
  have hsub : ∀ {c : Cache ρ}, c.Sublist u.cache → (Dict.keys c).Nodup ∧ Bounded cfg c :=
    fun h => ⟨hkeys.sublist (h.map Prod.fst), hu.sublist h⟩
  cases op with
  | read k => exact hsub (read_sublist.trans prune_sublist)
  | write k records =>
    refine ⟨?_, (((good_of_bounded hkeys hu).writes k records).mpr hfits).bounded⟩
    change (Dict.keys (write cfg u.now k records u.cache)).Nodup
    by_cases httl : cfg.ttl = 0
    · rwa [write_of_ttl_zero httl]
    · rw [write_of_ttl httl]
      exact Dict.nodup_keys_set (hkeys.sublist
        ((makeRoom_sublist.trans List.filter_sublist).map Prod.fst))
  | invalidatePath api path => exact hsub List.filter_sublist
  | invalidateRecord api listPath urlPath recordId => exact hsub invalidateForRecord_sublist
  | clear => exact hsub (List.nil_sublist _)
  | advance d => exact ⟨hkeys, hu⟩

end Steps

/-- Every state that is reached by writes of entries that fit is good. -/
theorem good_of_fits {now : ℕ} {ops : List (Op ρ)} {s : State ρ}
    (hrun : Runs.exec (opStep cfg) ⟨now, []⟩ ops = some s)
    (hfits : Runs.Guarded (opStep cfg) (FitsOp cfg) ⟨now, []⟩ ops) : Good cfg s := by
  have hstart : (Dict.keys ([] : Cache ρ)).Nodup ∧ Bounded cfg ([] : Cache ρ) :=
    ⟨List.nodup_nil, Nat.zero_le _, Nat.zero_le _⟩
  have hinv : (Dict.keys s.cache).Nodup ∧ Bounded cfg s.cache :=
    Runs.invariant_of_guarded
      (fun s : State ρ => (Dict.keys s.cache).Nodup ∧ Bounded cfg s.cache)
      (fun _ _ _ hs hok hstep => by
        obtain rfl := Option.some.inj hstep
        exact keys_and_bounds_after hs.1 hs.2 hok) hstart hfits hrun
  exact good_of_bounded hinv.1 hinv.2

/-- Two entries at most, of a length for each record. -/
def smallConfig (recordSize : ℕ) : Config String where
  ttl := 60
  maxEntries := 2
  maxBytes := 1024
  entrySize records := 2 + recordSize * records.length
  maxEntries_min := by decide
  entrySize_nil := rfl

def clusterKey : CacheKey := ⟨1, "/api/virtualization/clusters/", ""⟩

def siteKey : CacheKey := ⟨1, "/api/dcim/sites/", ""⟩

def vmKey : CacheKey := ⟨1, "/api/virtualization/virtual-machines/", ""⟩

/-- The entry of the sites is overwritten, and then that of the clusters makes room. -/
def fittingOps : List (Op String) :=
  [.write siteKey ["a"], .advance 1, .write clusterKey ["c"], .advance 1, .write siteKey ["b"],
    .advance 1, .write vmKey ["v"]]

theorem good_of_fits_site :
    Good (smallConfig 20) ⟨3, [(siteKey, ⟨2, 22, ["b"]⟩), (vmKey, ⟨3, 22, ["v"]⟩)]⟩ := by
  have hrun : Runs.exec (opStep (smallConfig 20)) ⟨0, []⟩ fittingOps =
      some ⟨3, [(siteKey, ⟨2, 22, ["b"]⟩), (vmKey, ⟨3, 22, ["v"]⟩)]⟩ := rfl
  refine good_of_fits (smallConfig 20) hrun ⟨?_, trivial, ?_, trivial, ?_, trivial, ?_, trivial⟩
  · refine Or.inr ⟨by decide, ?_⟩
    rintro (_ | m) kv rest hdrop <;> cases hdrop
  · refine Or.inr ⟨by decide, ?_⟩
    rintro (_ | _ | m) kv rest hdrop <;> cases hdrop
    decide
  · refine Or.inr ⟨by decide, ?_⟩
    rintro (_ | _ | _ | m) kv rest hdrop <;> cases hdrop
    · decide
    · decide
  · refine Or.inr ⟨by decide, ?_⟩
    rintro (_ | _ | _ | m) kv rest hdrop <;> cases hdrop
    · decide
    · decide

/-- An entry above the limit on the bytes is stored; and a write to a key that has an entry evicts
another one for which there was room. -/
theorem large_entry_stored :
    (¬ ∀ (cfg : Config String) (ops : List (Op String)) (s : State String),
      Runs.exec (opStep cfg) ⟨0, []⟩ ops = some s → Bounded cfg s.cache) ∧
    ¬ ∀ (cfg : Config String) (ops : List (Op String)) (s : State String) (k : CacheKey)
        (records : List String), Runs.exec (opStep cfg) ⟨0, []⟩ ops = some s → cfg.ttl ≠ 0 →
      cfg.entrySize records ≤ cfg.maxBytes → EvictsOldest cfg s.now k records s.cache := by
  constructor
  · intro h
    have hbounded := h (smallConfig 1500) [.write siteKey ["a"]] _ rfl
    exact absurd hbounded.bytes (by decide)
  · intro h
    have hevicts := h (smallConfig 20)
      [.write clusterKey ["c"], .advance 1, .write siteKey ["a"]] _ siteKey ["b"] rfl (by decide)
      (by decide)
    have hroom := (evictsOldest_iff (by decide) (by decide) (by decide)).mp hevicts 0
      (clusterKey, ⟨0, 22, ["c"]⟩) [(siteKey, ⟨1, 22, ["a"]⟩)] (by decide) (by decide) (by decide)
    exact absurd hroom (by decide)

end ProxboxApi.GetCache
