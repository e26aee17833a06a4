import Mathlib
import ProxboxApi.Dict
import ProxboxApi.Text

/-! The in-process GET cache of `netbox_rest.py`.  The dictionary keeps its insertion order,
which decides between equally old entries when room is made. -/

namespace ProxboxApi.GetCache

/-- `_cache_key`: the API object, the normalized path and the serialized query. -/
structure CacheKey where
  api : ℕ
  path : String
  query : String
  deriving DecidableEq, Repr

/-- The three settings, with the least number of entries that its resolver allows, and the length
of the JSON text of a list of records. -/
structure Config (ρ : Type*) where
  ttl : ℕ
  maxEntries : ℕ
  maxBytes : ℕ
  entrySize : List ρ → ℕ
  maxEntries_min : 1 ≤ maxEntries
  entrySize_nil : entrySize [] = 2

/-- The settings when neither the environment nor the plugin sets them. -/
def Config.defaults {ρ : Type*} (entrySize : List ρ → ℕ) (h : entrySize [] = 2) : Config ρ where
  ttl := 60
  maxEntries := 4096
  maxBytes := 50 * 1024 * 1024
  entrySize := entrySize
  maxEntries_min := by decide
  entrySize_nil := h

structure Entry (ρ : Type*) where
  cachedAt : ℕ
  size : ℕ
  records : List ρ
  deriving DecidableEq, Repr

abbrev Cache (ρ : Type*) := List (CacheKey × Entry ρ)

variable {ρ : Type*} (cfg : Config ρ)

def expired (now : ℕ) (e : Entry ρ) : Bool := e.cachedAt + cfg.ttl ≤ now

def currentBytes (s : Cache ρ) : ℕ := (s.map fun kv => kv.2.size).sum

/-- The keys `_prune_get_cache` evicts from the entries sorted by age. -/
def evicted (entriesToEvict bytesToEvict : ℕ) : ℕ → ℕ → Cache ρ → List CacheKey
  | _, _, [] => []
  | entries, bytes, (k, e) :: s =>
    if 0 < entriesToEvict ∧ entries < entriesToEvict then
      k :: evicted entriesToEvict bytesToEvict (entries + 1) bytes s
    else if 0 < bytesToEvict ∧ bytes < bytesToEvict then
      k :: evicted entriesToEvict bytesToEvict entries (bytes + e.size) s
    else []

/-- `_prune_get_cache`. -/
def prune (now : ℕ) (s : Cache ρ) : Cache ρ :=
  if cfg.ttl = 0 then []
  else
    let live := s.filter fun kv => !expired cfg now kv.2
    let entriesToEvict := live.length - cfg.maxEntries
    let bytesToEvict := currentBytes live - cfg.maxBytes
    let byAge := live.insertionSort fun a b => a.2.cachedAt ≤ b.2.cachedAt
    let gone := evicted entriesToEvict bytesToEvict 0 0 byAge
    live.filter fun kv => kv.1 ∉ gone

/-- `_read_get_cache`: the records served, if any, and the cache left behind. -/
def read (now : ℕ) (k : CacheKey) (s : Cache ρ) : Option (List ρ) × Cache ρ :=
  let s := prune cfg now s
  if cfg.ttl = 0 then (none, s)
  else match Dict.get k s with
    | none => (none, s)
    | some e => if expired cfg now e then (none, Dict.erase k s) else (some e.records, s)

/-- The eviction loop of `_write_get_cache`, oldest entry first. -/
def makeRoom (size : ℕ) : ℕ → Cache ρ → Cache ρ
  | 0, s => s
  | fuel + 1, s =>
    if cfg.maxEntries ≤ s.length ∨ cfg.maxBytes < currentBytes s + size then
      match s.argmin fun kv => kv.2.cachedAt with
      | none => s
      | some oldest => makeRoom size fuel (Dict.erase oldest.1 s)
    else s

/-- `_write_get_cache`. -/
def write (now : ℕ) (k : CacheKey) (records : List ρ) (s : Cache ρ) : Cache ρ :=
  if cfg.ttl = 0 then s
  else
    let size := cfg.entrySize records
    let live := s.filter fun kv => !expired cfg now kv.2
    Dict.set k ⟨now, size, records⟩ (makeRoom cfg size live.length live)

def openSlash (s : List Char) : List Char := if s.head? = some '/' then s else '/' :: s

def closeSlash (s : List Char) : List Char := if s.getLast? = some '/' then s else s ++ ['/']

/-- `_normalize_path`. -/
def normalizePath (path : String) : String :=
  String.ofList (closeSlash (openSlash (Text.stripChars Text.isSpace path.toList)))

/-- `_detail_path`. -/
def detailPath (listPath recordId : String) : String :=
  normalizePath listPath ++ recordId ++ "/"

def segments (path : List Char) : List (List Char) :=
  (Text.stripChars (· = '/') path).splitOn '/'

/-- `_is_detail_path`. -/
def isDetailPath (path : String) : Bool :=
  match (segments path.toList).getLast? with
  | some last => Text.isDigits last
  | none => false

/-- `_extract_list_path`. -/
def extractListPath (path : String) : String :=
  let normalized := normalizePath path
  if isDetailPath normalized then
    String.ofList ('/' :: (List.intercalate ['/'] (segments normalized.toList).dropLast) ++ ['/'])
  else normalized

/-- The cached path is a direct child, by numeric id, of a list path. -/
def isChildOf (path cachedPath : List Char) : Bool :=
  path.isPrefixOf cachedPath &&
    Text.isDigits (Text.stripChars (· = '/') (cachedPath.drop path.length))

/-- Whether `_invalidate_get_cache_for_path` drops the entry of a key. -/
def invalidates (api : ℕ) (path : String) (k : CacheKey) : Bool :=
  let normalized := normalizePath path
  let isDetail := isDetailPath normalized
  let listPath := if isDetail then extractListPath normalized else normalized
  k.api = api && (k.path = normalized || (isDetail && k.path = listPath) ||
    (!isDetail && isChildOf normalized.toList k.path.toList))

/-- `_invalidate_get_cache_for_path`. -/
def invalidateForPath (api : ℕ) (path : String) (s : Cache ρ) : Cache ρ :=
  s.filter fun kv => !invalidates api path kv.1

/-- `_invalidate_get_cache_for_record`: the list path, then the detail paths read off the
record's `url` and `id`. -/
def invalidateForRecord (api : ℕ) (listPath : String) (urlPath recordId : Option String)
    (s : Cache ρ) : Cache ρ :=
  let s := invalidateForPath api listPath s
  let s := match urlPath with
    | some path => if path = "" then s else invalidateForPath api path s
    | none => s
  match recordId with
  | some id => invalidateForPath api (detailPath listPath id) s
  | none => s

theorem prune_subset {now : ℕ} {s : Cache ρ} : prune cfg now s ⊆ s := by
  intro kv h
  unfold prune at h
  split at h
  · simp at h
  · exact List.mem_of_mem_filter (List.mem_of_mem_filter h)

theorem read_subset (now : ℕ) (k : CacheKey) (s : Cache ρ) : (read cfg now k s).2 ⊆ s := by
  intro kv h
  unfold read at h
  dsimp only at h
  split at h
  · exact prune_subset cfg h
  · split at h
    · exact prune_subset cfg h
    · split at h
      · exact prune_subset cfg (List.mem_of_mem_filter h)
      · exact prune_subset cfg h

/-- What is served is a stored entry of the key. -/
theorem mem_of_read {now : ℕ} {k : CacheKey} {s : Cache ρ} {records : List ρ}
    (h : (read cfg now k s).1 = some records) : ∃ e, (k, e) ∈ s ∧ e.records = records := by
  unfold read at h
  dsimp only at h
  split at h
  · simp at h
  · split at h
    · simp at h
    · rename_i e he
      split at h
      · simp at h
      · simp only [Option.some.injEq] at h
        exact ⟨e, prune_subset cfg (Dict.mem_of_get he), h⟩

theorem makeRoom_subset {size fuel : ℕ} {s : Cache ρ} : makeRoom cfg size fuel s ⊆ s := by
  induction fuel generalizing s with
  | zero => exact fun _ h => h
  | succ fuel ih =>
    intro kv h
    unfold makeRoom at h
    split at h
    · split at h
      · exact h
      · exact List.mem_of_mem_filter (ih h)
    · exact h

/-- A write adds one entry and otherwise only drops some. -/
theorem mem_write {now : ℕ} {k : CacheKey} {records : List ρ} {s : Cache ρ}
    {kv : CacheKey × Entry ρ} (h : kv ∈ write cfg now k records s) :
    kv ∈ s ∨ kv = (k, ⟨now, cfg.entrySize records, records⟩) := by
  unfold write at h
  split at h
  · exact Or.inl h
  · rcases Dict.mem_set h with h | h
    · exact Or.inl (List.mem_of_mem_filter (makeRoom_subset cfg h))
    · exact Or.inr h

theorem mem_invalidateForPath {api : ℕ} {path : String} {s : Cache ρ}
    {kv : CacheKey × Entry ρ} (h : kv ∈ invalidateForPath api path s) :
    kv ∈ s ∧ ¬ (kv.1.api = api ∧ kv.1.path = normalizePath path) := by
  obtain ⟨hmem, hkeep⟩ := List.mem_filter.mp h
  refine ⟨hmem, ?_⟩
  rintro ⟨hapi, hpath⟩
  simp [invalidates, hapi, hpath] at hkeep

theorem mem_invalidateForRecord {api : ℕ} {listPath : String} {urlPath recordId : Option String}
    {s : Cache ρ} {kv : CacheKey × Entry ρ}
    (h : kv ∈ invalidateForRecord api listPath urlPath recordId s) :
    kv ∈ s ∧ ¬ (kv.1.api = api ∧ kv.1.path = normalizePath listPath) := by
  unfold invalidateForRecord at h
  have hurl : kv ∈ (match urlPath with
      | some path => if path = "" then invalidateForPath api listPath s
          else invalidateForPath api path (invalidateForPath api listPath s)
      | none => invalidateForPath api listPath s) := by
    cases recordId with
    | none => exact h
    | some id => exact (mem_invalidateForPath h).1
  have hlist : kv ∈ invalidateForPath api listPath s := by
    cases urlPath with
    | none => exact hurl
    | some path =>
      dsimp only at hurl
      split at hurl
      · exact hurl
      · exact (mem_invalidateForPath hurl).1
  exact mem_invalidateForPath hlist

theorem openSlash_head (s : List Char) : (openSlash s).head? = some '/' := by
  unfold openSlash
  split
  · assumption
  · rfl

theorem closeSlash_last (s : List Char) : (closeSlash s).getLast? = some '/' := by
  unfold closeSlash
  split
  · assumption
  · simp

theorem closeSlash_head {s : List Char} (h : s.head? = some '/') :
    (closeSlash s).head? = some '/' := by
  unfold closeSlash
  split
  · exact h
  · cases s with
    | nil => rfl
    | cons c t => exact h

theorem normalizePath_idem (path : String) :
    normalizePath (normalizePath path) = normalizePath path := by
  have hhead : (normalizePath path).toList.head? = some '/' := by
    rw [normalizePath, String.toList_ofList]
    exact closeSlash_head (openSlash_head _)
  have hlast : (normalizePath path).toList.getLast? = some '/' := by
    rw [normalizePath, String.toList_ofList]
    exact closeSlash_last _
  have hkept := Text.stripChars_of_ends hhead hlast
    (show Text.isSpace '/' = false by decide) (by decide)
  conv_lhs => rw [normalizePath, hkept]
  rw [openSlash, if_pos hhead, closeSlash, if_pos hlast, String.ofList_toList]

/-- Within both size limits, so that a read drops only what has expired. -/
structure Bounded (s : Cache ρ) : Prop where
  entries : s.length ≤ cfg.maxEntries
  bytes : currentBytes s ≤ cfg.maxBytes

theorem currentBytes_cons (kv : CacheKey × Entry ρ) (s : Cache ρ) :
    currentBytes (kv :: s) = kv.2.size + currentBytes s := by
  simp [currentBytes]

theorem currentBytes_append (s t : Cache ρ) :
    currentBytes (s ++ t) = currentBytes s + currentBytes t := by
  simp [currentBytes]

theorem currentBytes_sublist {s t : Cache ρ} (h : s.Sublist t) :
    currentBytes s ≤ currentBytes t := by
  induction h with
  | slnil => exact le_refl _
  | cons kv _ ih =>
    rw [currentBytes_cons]
    omega
  | cons_cons kv _ ih =>
    rw [currentBytes_cons, currentBytes_cons]
    omega

theorem currentBytes_perm {s t : Cache ρ} (h : s.Perm t) : currentBytes s = currentBytes t := by
  induction h with
  | nil => rfl
  | cons kv _ ih => simp only [currentBytes_cons, ih]
  | swap kv kv' s =>
    simp only [currentBytes_cons]
    omega
  | trans _ _ ih₁ ih₂ => exact ih₁.trans ih₂

/-- The evicted keys are those of the oldest entries, enough of them for both limits. -/
theorem evicted_eq (entriesToEvict bytesToEvict : ℕ) (s : Cache ρ) (entries bytes : ℕ) :
    ∃ n, evicted entriesToEvict bytesToEvict entries bytes s = (s.take n).map Prod.fst ∧
      (s.drop n = [] ∨ (entriesToEvict ≤ entries + n ∧
        bytesToEvict ≤ bytes + currentBytes (s.take n))) := by
  induction s generalizing entries bytes with
  | nil => exact ⟨0, rfl, Or.inl rfl⟩
  | cons kv s ih =>
    obtain ⟨k, e⟩ := kv
    unfold evicted
    split
    · obtain ⟨n, hkeys, hn⟩ := ih (entries + 1) bytes
      refine ⟨n + 1, by simp [hkeys], hn.imp_right ?_⟩
      rintro ⟨he, hb⟩
      rw [List.take_succ_cons, currentBytes_cons]
      omega
    · split
      · obtain ⟨n, hkeys, hn⟩ := ih entries (bytes + e.size)
        refine ⟨n + 1, by simp [hkeys], hn.imp_right ?_⟩
        rintro ⟨he, hb⟩
        rw [List.take_succ_cons, currentBytes_cons]
        dsimp only
        omega
      · refine ⟨0, rfl, Or.inr ?_⟩
        omega

theorem bounded_prune {now : ℕ} {s : Cache ρ} : Bounded cfg (prune cfg now s) := by
  unfold prune
  split
  · exact ⟨Nat.zero_le _, Nat.zero_le _⟩
  · dsimp only
    set live := s.filter fun kv => !expired cfg now kv.2
    set byAge := live.insertionSort fun a b => a.2.cachedAt ≤ b.2.cachedAt
    have hperm : byAge.Perm live := List.perm_insertionSort _ _
    obtain ⟨n, hkeys, hn⟩ := evicted_eq (live.length - cfg.maxEntries)
      (currentBytes live - cfg.maxBytes) byAge 0 0
    set gone := evicted (live.length - cfg.maxEntries) (currentBytes live - cfg.maxBytes) 0 0 byAge
    -- what is left is left of the entries that follow the evicted ones
    have hkept : (live.filter fun kv => kv.1 ∉ gone).Perm
        ((byAge.drop n).filter fun kv => kv.1 ∉ gone) := by
      have hnone : (byAge.take n).filter (fun kv => decide (kv.1 ∉ gone)) = [] := by
        rw [List.filter_eq_nil_iff]
        intro kv hkv
        have hgone : kv.1 ∈ gone := hkeys ▸ List.mem_map_of_mem hkv
        simpa using hgone
      have hsplit := (hperm.filter fun kv => decide (kv.1 ∉ gone)).symm
      rw [← List.take_append_drop n byAge, List.filter_append, hnone] at hsplit
      exact hsplit
    have hsub := List.filter_sublist (l := byAge.drop n) (p := fun kv => decide (kv.1 ∉ gone))
    have hlen : (live.filter fun kv => kv.1 ∉ gone).length ≤ (byAge.drop n).length :=
      hkept.length_eq ▸ hsub.length_le
    have hbytes : currentBytes (live.filter fun kv => kv.1 ∉ gone) ≤
        currentBytes (byAge.drop n) := by
      have heq : currentBytes (live.filter fun kv => kv.1 ∉ gone) =
          currentBytes ((byAge.drop n).filter fun kv => kv.1 ∉ gone) :=
        currentBytes_perm hkept
      exact heq ▸ currentBytes_sublist hsub
    have htotal : currentBytes live =
        currentBytes (byAge.take n) + currentBytes (byAge.drop n) := by
      rw [← currentBytes_append, List.take_append_drop]
      exact currentBytes_perm hperm.symm
    have hcount := hperm.length_eq
    rw [List.length_drop] at hlen
    rcases hn with hnil | ⟨he, hb⟩
    · have h0 : (byAge.drop n).length = 0 := by rw [hnil]; rfl
      rw [List.length_drop] at h0
      have hb0 : currentBytes (byAge.drop n) = 0 := by rw [hnil]; rfl
      exact ⟨by omega, by omega⟩
    · exact ⟨by omega, by omega⟩

theorem makeRoom_room (size : ℕ) {fuel : ℕ} {s : Cache ρ} (h : s.length ≤ fuel) :
    makeRoom cfg size fuel s = [] ∨ ((makeRoom cfg size fuel s).length < cfg.maxEntries ∧
      currentBytes (makeRoom cfg size fuel s) + size ≤ cfg.maxBytes) := by
  induction fuel generalizing s with
  | zero =>
    left
    simpa [makeRoom] using h
  | succ fuel ih =>
    unfold makeRoom
    split
    · split
      · left
        exact List.argmin_eq_none.mp ‹_›
      · rename_i oldest hold
        have hlt := Dict.erase_length_lt (List.argmin_mem hold)
        exact ih (by omega)
    · right
      omega

theorem currentBytes_set_le {k : CacheKey} {e : Entry ρ} {s : Cache ρ} :
    currentBytes (Dict.set k e s) ≤ currentBytes s + e.size := by
  induction s with
  | nil => simp [Dict.set, currentBytes]
  | cons kv s ih =>
    obtain ⟨k', e'⟩ := kv
    by_cases hk : k' = k
    · simp only [Dict.set, if_pos hk, currentBytes_cons]
      omega
    · simp only [Dict.set, if_neg hk, currentBytes_cons]
      omega

/-- An entry that fits the byte limit alone is stored, with room made for it. -/
theorem write_stores (now : ℕ) (k : CacheKey) {records : List ρ} (s : Cache ρ)
    (httl : cfg.ttl ≠ 0) (hsize : cfg.entrySize records ≤ cfg.maxBytes) :
    Dict.get k (write cfg now k records s) = some ⟨now, cfg.entrySize records, records⟩ ∧
      Bounded cfg (write cfg now k records s) := by
  unfold write
  rw [if_neg httl]
  dsimp only
  set live := s.filter fun kv => !expired cfg now kv.2
  refine ⟨Dict.get_set_self, ?_⟩
  set room := makeRoom cfg (cfg.entrySize records) live.length live with hroomdef
  have hlen : (Dict.set k ⟨now, cfg.entrySize records, records⟩ room).length ≤
      room.length + 1 := Dict.length_set_le
  have hbytes : currentBytes (Dict.set k ⟨now, cfg.entrySize records, records⟩ room) ≤
      currentBytes room + cfg.entrySize records := currentBytes_set_le
  have hspace := makeRoom_room cfg (cfg.entrySize records) (le_refl live.length)
  rw [← hroomdef] at hspace
  rcases hspace with hnil | hroom
  · rw [hnil] at hlen hbytes ⊢
    have hmin := cfg.maxEntries_min
    have h0 : currentBytes ([] : Cache ρ) = 0 := rfl
    simp only [List.length_nil] at hlen
    exact ⟨by omega, by omega⟩
  · exact ⟨by omega, by omega⟩

theorem prune_of_bounded {now : ℕ} {s : Cache ρ} (httl : cfg.ttl ≠ 0) (hs : Bounded cfg s) :
    prune cfg now s = s.filter fun kv => !expired cfg now kv.2 := by
  unfold prune
  rw [if_neg httl]
  dsimp only
  set live := s.filter fun kv => !expired cfg now kv.2
  have hsub : live.Sublist s := List.filter_sublist
  have hlen : live.length - cfg.maxEntries = 0 := by
    have := hsub.length_le
    have := hs.entries
    omega
  have hbytes : currentBytes live - cfg.maxBytes = 0 := by
    have := currentBytes_sublist hsub
    have := hs.bytes
    omega
  have hnone : ∀ t : Cache ρ, evicted 0 0 0 0 t = [] := by
    intro t
    cases t <;> simp [evicted]
  rw [hlen, hbytes, hnone]
  simp

/-- A live entry of a cache within its limits is served, and stays. -/
theorem read_live {now : ℕ} {k : CacheKey} {e : Entry ρ} {s : Cache ρ} (httl : cfg.ttl ≠ 0)
    (hs : Bounded cfg s) (hget : Dict.get k s = some e) (hlive : expired cfg now e = false) :
    (read cfg now k s).1 = some e.records ∧ Dict.get k (read cfg now k s).2 = some e ∧
      Bounded cfg (read cfg now k s).2 := by
  have hkept : Dict.get k (prune cfg now s) = some e := by
    rw [prune_of_bounded cfg httl hs]
    exact Dict.get_filter hget (by simp [hlive])
  have hread : read cfg now k s = (some e.records, prune cfg now s) := by
    simp [read, httl, hkept, hlive]
  rw [hread]
  exact ⟨rfl, hkept, bounded_prune cfg⟩

/-- A read that serves records leaves their entry in a cache within its limits. -/
theorem read_served {now : ℕ} {k : CacheKey} {s : Cache ρ} {records : List ρ}
    (h : (read cfg now k s).1 = some records) :
    ∃ e, Dict.get k (read cfg now k s).2 = some e ∧ e.records = records ∧ (k, e) ∈ s ∧
      expired cfg now e = false ∧ Bounded cfg (read cfg now k s).2 := by
  unfold read at h ⊢
  dsimp only at h ⊢
  split at h
  · simp at h
  · rename_i httl
    rw [if_neg httl]
    split at h
    · simp at h
    · rename_i e hget
      split at h
      · simp at h
      · rename_i hlive
        simp only [Option.some.injEq] at h
        rw [if_neg hlive]
        exact ⟨e, hget, h, prune_subset cfg (Dict.mem_of_get hget), by simpa using hlive,
          bounded_prune cfg⟩

/-- A read that serves nothing leaves no entry of the key. -/
theorem read_miss {now : ℕ} {k : CacheKey} {s : Cache ρ}
    (h : (read cfg now k s).1 = none) : Dict.get k (read cfg now k s).2 = none := by
  unfold read at h ⊢
  dsimp only at h ⊢
  split
  · rename_i httl
    simp [prune, httl, Dict.get]
  · rename_i httl
    rw [if_neg httl] at h
    cases hget : Dict.get k (prune cfg now s) with
    | none => simp [hget]
    | some e =>
      rw [hget] at h
      dsimp only at h ⊢
      split
      · exact Dict.get_erase_self
      · rename_i hlive
        rw [if_neg hlive] at h
        simp at h

/-- A key without an entry is not served. -/
theorem read_absent {now : ℕ} {k : CacheKey} {s : Cache ρ} (h : Dict.get k s = none) :
    (read cfg now k s).1 = none := by
  cases hr : (read cfg now k s).1 with
  | none => rfl
  | some records =>
    obtain ⟨e, -, -, hmem, -⟩ := read_served cfg hr
    exact absurd hmem (Dict.not_mem_of_get h)

end ProxboxApi.GetCache
