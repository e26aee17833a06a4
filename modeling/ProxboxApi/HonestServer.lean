import ProxboxApi.PageChains
import ProxboxApi.QueryFilters

/-! The traversal of a server that pages through a fixed collection: no guard refuses a page, and
the records from the initial offset on are returned. -/

namespace ProxboxApi.Pagination

open GetCache

/-- The id of a record, as it stands in its URL. -/
def idText (record : Record) : Option String :=
  match Dict.get "id" record with
  | some (.int n) => some (toString n)
  | some (.str s) => if s = "" then none else some s
  | _ => none

/-- A fixed collection of records with different ids, what the filters select of it, and the size
of the pages it is shown in. Python reads no count of more digits. -/
structure Collection where
  all : List Record
  identified : ∀ r ∈ all, (idText r).isSome
  distinct : (all.map idText).Nodup
  readable : (toString all.length).length ≤ 4300
  selects : (String → List String) → Record → Bool
  pageSize : ℕ
  positive : 0 < pageSize

/-- An offset as a query has it: left out, a number or its digits, or one of these in a list. -/
inductive Offset : Option Json → ℕ → Prop
  | absent : Offset none 0
  | number (n : ℕ) : Offset (some (.int n)) n
  | digits (s : String) (hdigits : Text.isDigits s.toList = true) (hlength : s.length ≤ 4300) :
    Offset (some (.str s)) (Python.digitsValue s.toList)
  | listedNumber (n : ℕ) : Offset (some (.arr [.int n])) n
  | listedDigits (s : String) (hdigits : Text.isDigits s.toList = true)
    (hlength : s.length ≤ 4300) :
    Offset (some (.arr [.str s])) (Python.digitsValue s.toList)

section Servers

variable (c : Client) (req : Request) (col : Collection)

/-- The records that the filters of the request select. -/
def Collection.matching : List Record := col.all.filter (col.selects (sent c req.query))

/-- The number of records that the request selects. -/
def Collection.total : ℕ := (col.matching c req).length

/-- The records from an offset to the end. -/
def Collection.from (offset : ℕ) : List Record := (col.matching c req).drop offset

def Collection.slice (offset : ℕ) : List Record := (col.from c req offset).take col.pageSize

/-- A link to the records from an offset on, under the filters of the request. -/
structure LinksTo (url : String) (offset : ℕ) (path : String)
    (parameters : List (String × String)) : Prop where
  filled : url ≠ ""
  split : c.splitUrl url = .ok (path, parameters)
  named : path ≠ ""
  resource : normalizePath path = req.normalizedPath
  offset : valuesOf "offset" parameters = [toString offset]
  filters : ∀ name, IsFilter name → (valuesOf name parameters).Perm (sent c req.query name)

/-- The payload is the page of the collection at an offset. -/
structure Shows (offset : ℕ) (fields : Json.Fields) : Prop where
  results : Dict.get "results" fields = some (.arr ((col.slice c req offset).map .obj))
  count : Dict.get "count" fields = some (.int (col.total c req))
  last : col.total c req ≤ offset + col.pageSize → Dict.get "next" fields = some .null
  more : offset + col.pageSize < col.total c req →
    ∃ url path parameters, Dict.get "next" fields = some (.str url) ∧
      LinksTo c req url (offset + col.pageSize) path parameters

/-- The server answers each request for records of the collection with the page of its offset,
after at most as many transient failures as are retried. -/
def Honest (server : Server) : Prop :=
  ∀ page q offset, SameFilters c q req.query → sentOffset c q = some offset →
    ∃ retries ≤ c.maxRetries,
      (∀ attempt < retries, ∃ e,
        server page attempt req.normalizedPath q = .raises e ∧ isTransient c e = true) ∧
      ∃ fields, server page retries req.normalizedPath q = .payload (.obj fields) ∧
        Shows c req col offset fields

/-- No ceiling is exceeded by the pages from an offset on. -/
structure WithinCeilings (offset : ℕ) : Prop where
  pages : col.total c req - offset ≤ hardMaxPages * col.pageSize
  hard : col.total c req - offset ≤ hardMaxRecords
  explicit : ∀ m, req.maxRecords = some m → ((col.total c req - offset : ℕ) : ℤ) ≤ m
  maxOffset : ∀ m, req.maxOffset = some m →
    ∀ k, k = 0 ∨ offset + k * col.pageSize < col.total c req →
      ((offset + k * col.pageSize : ℕ) : ℤ) ≤ m

/-- The JSON text of a query tells its offset. -/
def DumpsOffset : Prop :=
  ∀ p q s t, Dict.get "offset" p = some (.str s) → Dict.get "offset" q = some (.str t) →
    c.dumpsQuery p = c.dumpsQuery q → s = t

/-- Traversals of one request, each with its server and the clock at its cache look-up and at its
cache write. -/
def traversals : List (Server × ℕ × ℕ) → Cache Record → List Outcome
  | [], _ => []
  | (server, readAt, writeAt) :: runs, cache =>
    let (outcome, cache) := traverse c req server readAt writeAt cache
    outcome :: traversals runs cache

end Servers

section Pages

variable {c : Client} {req : Request} {col : Collection}

theorem validatedOffset_of_offset (path label : String) {q : Query} {offset : ℕ}
    (h : Offset (Dict.get "offset" q) offset) :
    validatedOffset path q false label = .ok offset := by
  generalize hget : Dict.get "offset" q = value at h
  cases h with
  | absent => simp [validatedOffset, hget]
  | number n => simp [validatedOffset, paginationOffset, hget, bind, Except.bind]
  | digits s hdigits hlength =>
    simp [validatedOffset, paginationOffset, hget, hdigits, parseDigits, hlength, bind, Except.bind]
  | listedNumber n => simp [validatedOffset, paginationOffset, hget, bind, Except.bind]
  | listedDigits s hdigits hlength =>
    simp [validatedOffset, paginationOffset, hget, hdigits, parseDigits, hlength, bind, Except.bind]

theorem recordSignature_of_idText {r : Record} {text : String} (h : idText r = some text) :
    recordSignature c r = ("id", text) := by
  unfold idText at h
  unfold recordSignature
  split at h
  next n hget =>
    obtain rfl : toString n = text := Option.some.inj h
    simp [hget, Json.blank, Python.str]
  next s hget =>
    by_cases hs : s = ""
    · simp [hs] at h
    · obtain rfl : s = text := by simpa [hs] using h
      simp [hget, Json.blank, hs, Python.str]
  next => simp at h

theorem Collection.nodup_signatures (col : Collection) :
    (col.all.map (recordSignature c)).Nodup := by
  have hsignature : col.all.map (recordSignature c) =
      (col.all.map idText).map fun text => ("id", text.getD "") := by
    rw [List.map_map]
    apply List.map_congr_left
    intro r hr
    obtain ⟨text, htext⟩ := Option.isSome_iff_exists.mp (col.identified r hr)
    rw [recordSignature_of_idText htext, Function.comp_apply, htext, Option.getD_some]
  rw [hsignature]
  refine List.Nodup.map_on ?_ col.distinct
  intro x hx y hy heq
  obtain ⟨r, hr, rfl⟩ := List.mem_map.mp hx
  obtain ⟨s, hs, rfl⟩ := List.mem_map.mp hy
  obtain ⟨text, htext⟩ := Option.isSome_iff_exists.mp (col.identified r hr)
  obtain ⟨text', htext'⟩ := Option.isSome_iff_exists.mp (col.identified s hs)
  rw [htext, htext'] at heq ⊢
  exact congrArg some (Prod.mk.inj heq).2

theorem Collection.nodup_from (offset : ℕ) :
    ((col.from c req offset).map (recordSignature c)).Nodup := by
  have hsub : (col.from c req offset).Sublist col.all :=
    (List.drop_sublist _ _).trans List.filter_sublist
  exact col.nodup_signatures.sublist (hsub.map _)

theorem Collection.length_from (offset : ℕ) :
    (col.from c req offset).length = col.total c req - offset := by
  rw [Collection.from, List.length_drop, Collection.total]

theorem Collection.length_slice (offset : ℕ) :
    (col.slice c req offset).length = min col.pageSize (col.total c req - offset) := by
  rw [Collection.slice, List.length_take, col.length_from]

theorem Collection.slice_append (offset : ℕ) :
    col.slice c req offset ++ col.from c req (offset + col.pageSize) = col.from c req offset := by
  unfold Collection.slice Collection.from
  rw [← List.drop_drop, List.take_append_drop]

theorem length_toString_mono {m n : ℕ} (h : m ≤ n) :
    (toString m).length ≤ (toString n).length := by
  have hpos : 0 < (toString n).length := Nat.length_repr_pos
  have hn : n < 10 ^ (toString n).length := (Nat.length_repr_le_iff hpos).mp le_rfl
  exact (Nat.length_repr_le_iff hpos).mpr (lt_of_le_of_lt h hn)

theorem Collection.length_toString (col : Collection) {offset : ℕ}
    (h : offset < col.total c req) : (toString offset).length ≤ 4300 := by
  have htotal : col.total c req ≤ col.all.length := List.length_filter_le _ _
  exact (length_toString_mono (h.le.trans htotal)).trans col.readable

/-- The page that a payload of the collection is read as. -/
def Collection.page (col : Collection) (c : Client) (req : Request) (offset : ℕ)
    (next : Option (String × Query)) : Page :=
  ⟨(col.slice c req offset).map .obj, col.slice c req offset, next, some (col.total c req)⟩

theorem pageParts_shows {offset : ℕ} {fields : Json.Fields} (h : Shows c req col offset fields) :
    pageParts req.path (.obj fields) = .ok (.arr ((col.slice c req offset).map .obj),
      (Dict.get "next" fields).getD .null, some (col.total c req)) := by
  have hcount : paginationCount req.path fields = .ok (col.total c req) := by
    simp [paginationCount, h.count]
  simp only [pageParts, h.results, hcount]
  rfl

theorem records_of_objects (records : List Record) :
    (records.map Json.obj).map toDict = records := by
  simp [Function.comp_def, toDict]

theorem readPage_last {offset : ℕ} {fields : Json.Fields} (h : Shows c req col offset fields)
    (hlast : col.total c req ≤ offset + col.pageSize) :
    readPage c req.path (.payload (.obj fields)) = .ok (col.page c req offset none) := by
  simp only [readPage, pageParts_shows h, h.last hlast, bind, Except.bind, pageOf,
    records_of_objects]
  rfl

theorem readPage_more {offset : ℕ} {fields : Json.Fields} (h : Shows c req col offset fields)
    (hmore : offset + col.pageSize < col.total c req) :
    ∃ url path parameters, LinksTo c req url (offset + col.pageSize) path parameters ∧
      readPage c req.path (.payload (.obj fields)) =
        .ok (col.page c req offset (some (path, parameters.foldl addParameter []))) := by
  obtain ⟨url, path, parameters, hnext, hlink⟩ := h.more hmore
  refine ⟨url, path, parameters, hlink, ?_⟩
  have hparse : parseNextLink c (.str url) =
      .ok (some (path, parameters.foldl addParameter [])) := by
    simp [parseNextLink, hlink.filled, hlink.split, hlink.named, bind, Except.bind]
  simp only [readPage, pageParts_shows h, hnext, Option.getD_some, bind, Except.bind, pageOf,
    hparse, records_of_objects]
  rfl

/-- Transient failures within the retries leave the page that comes after them. -/
theorem fetchPage_of_retries {path : String} {replies : ℕ → Reply} {page : Page}
    {retries left attempt : ℕ} (hleft : retries ≤ left)
    (htransient : ∀ n < retries, ∃ e, replies (attempt + n) = .raises e ∧ isTransient c e = true)
    (hread : readPage c path (replies (attempt + retries)) = .ok page) :
    fetchPage c path replies left attempt = .ok page := by
  induction retries generalizing left attempt with
  | zero =>
    rw [Nat.add_zero] at hread
    cases left <;> simp [fetchPage, hread]
  | succ retries ih =>
    obtain ⟨left, rfl⟩ : ∃ n, left = n + 1 := ⟨left - 1, by omega⟩
    obtain ⟨e, hraises, he⟩ := htransient 0 (by omega)
    have hfailed : readPage c path (replies attempt) = .error e := by
      rw [Nat.add_zero] at hraises
      rw [hraises, readPage]
    simp only [fetchPage, hfailed, he, if_true]
    apply ih (by omega)
    · intro n hn
      rw [Nat.add_assoc, Nat.add_comm 1 n]
      exact htransient (n + 1) (by omega)
    · rw [Nat.add_assoc, Nat.add_comm 1 retries]
      exact hread

end Pages

section Traversal

variable (c : Client) (req : Request) (col : Collection)

/-- Where the loop is after the pages of `done`, having started at an offset. -/
structure Reached (offset : ℕ) (done : List Visit) (cursor : Cursor) : Prop where
  path : cursor.path = req.normalizedPath
  filters : SameFilters c cursor.query req.query
  read : sentOffset c cursor.query = some cursor.offset
  taken : records done ++ col.from c req cursor.offset = col.from c req offset
  steps : ∃ k, cursor.offset = offset + k * col.pageSize
  more : done ≠ [] → cursor.offset < col.total c req
  counted : ∀ w ∈ done, w.page.count = some (col.total c req)
  linked : done ≠ [] → Dict.get "offset" cursor.query = some (.str (toString cursor.offset))
  earlier : ∀ w ∈ done.tail, Dict.get "offset" w.query = some (.str (toString w.offset)) ∧
    w.offset < cursor.offset

variable {c req col}

theorem reached_start {offset : ℕ} (h : Offset (Dict.get "offset" req.query) offset) :
    Reached c req col offset [] (firstCursor req offset) where
  path := rfl
  filters _ _ := .refl _
  read := sentOffset_of_validated c (validatedOffset_of_offset "" "" h)
  taken := rfl
  steps := ⟨0, by simp [firstCursor]⟩
  more h := absurd rfl h
  counted := by simp
  linked h := absurd rfl h
  earlier := by simp

/-- The page at a cursor passes the guards on its content. -/
theorem Reached.pageFits {offset : ℕ} {done : List Visit} {cursor : Cursor}
    (h : Reached c req col offset done cursor) (hwithin : WithinCeilings c req col offset)
    (next : Option (String × Query)) :
    PageFits c req done ⟨cursor, col.page c req cursor.offset next⟩ := by
  have htotal : (records done).length + (col.slice c req cursor.offset).length ≤
      col.total c req - offset := by
    have hlength := congrArg List.length h.taken
    rw [List.length_append, col.length_from, col.length_from] at hlength
    rw [col.length_slice]
    omega
  have hnodup : ((records done ++ col.slice c req cursor.offset).map (recordSignature c)).Nodup := by
    have hsub : (records done ++ col.slice c req cursor.offset).Sublist
        (col.from c req offset) := by
      rw [← h.taken]
      exact (List.Sublist.refl _).append (List.take_sublist _ _)
    exact (col.nodup_from offset).sublist (hsub.map _)
  rw [List.map_append, List.nodup_append] at hnodup
  refine ⟨?_, ?_, hnodup.2.1, ?_, htotal.trans hwithin.hard, ?_⟩
  · intro w hw
    exact (h.counted w (List.mem_of_mem_head? hw)).symm
  · intro hne n hn
    obtain rfl : col.total c req = n := Option.some.inj hn
    have hpos : 0 < (col.slice c req cursor.offset).length := List.length_pos_iff.mpr hne
    rw [col.length_slice] at hpos
    change cursor.offset + (col.slice c req cursor.offset).length ≤ _
    rw [col.length_slice]
    omega
  · intro x hx hseen
    exact hnodup.2.2 x hseen x hx rfl
  · intro m hm
    exact (Int.ofNat_le.mpr htotal).trans (hwithin.explicit m hm)

theorem serializeQuery_of_offset {q : Query} {s : String}
    (h : Dict.get "offset" q = some (.str s)) : serializeQuery c q = c.dumpsQuery q := by
  cases q with
  | nil => simp [Dict.get] at h
  | cons kv q => rfl

theorem records_length_of_more {offset : ℕ} {done : List Visit} {cursor : Cursor}
    (next : Option (String × Query)) (h : Reached c req col offset done cursor)
    (hmore : cursor.offset + col.pageSize < col.total c req) :
    (records (done ++ [⟨cursor, col.page c req cursor.offset next⟩])).length <
      col.total c req - offset := by
  have hlength := congrArg List.length h.taken
  rw [List.length_append, col.length_from, col.length_from] at hlength
  have hpositive := col.positive
  rw [records_snoc, List.length_append]
  change (records done).length + (col.slice c req cursor.offset).length < _
  rw [col.length_slice]
  omega

/-- The cursor that a link of the collection leads to. -/
def linkCursor (req : Request) (parameters : List (String × String)) (offset : ℕ) : Cursor :=
  ⟨req.normalizedPath, parameters.foldl addParameter [], offset⟩

theorem get_offset_of_linksTo {url path : String} {offset : ℕ}
    {parameters : List (String × String)} (h : LinksTo c req url offset path parameters) :
    Dict.get "offset" (parameters.foldl addParameter []) = some (.str (toString offset)) := by
  rw [get_foldl_addParameter, h.offset]
  rfl

theorem sameFilters_of_linksTo {url path : String} {offset : ℕ}
    {parameters : List (String × String)} (h : LinksTo c req url offset path parameters) :
    SameFilters c (parameters.foldl addParameter []) req.query := by
  intro name hname
  rw [sent_link]
  exact h.filters name hname

/-- A link of the collection passes the guards on it. -/
theorem Reached.linkFits {offset left : ℕ} {done : List Visit} {cursor : Cursor}
    {url path : String} {parameters : List (String × String)}
    (h : Reached c req col offset done cursor) (hwithin : WithinCeilings c req col offset)
    (hquery : Filled c req.query) (hdumps : DumpsOffset c) (hleft : left ≠ 0)
    (hmore : cursor.offset + col.pageSize < col.total c req)
    (hlink : LinksTo c req url (cursor.offset + col.pageSize) path parameters)
    (visit : Visit) (hvisit : visit = ⟨cursor, col.page c req cursor.offset
      (some (path, parameters.foldl addParameter []))⟩) :
    LinkFits c req left (done ++ [visit]) visit (path, parameters.foldl addParameter [])
      (linkCursor req parameters (cursor.offset + col.pageSize)) := by
  have hslice : (col.slice c req cursor.offset).length = col.pageSize := by
    rw [col.length_slice]
    omega
  have hlength := records_length_of_more (some (path, parameters.foldl addParameter [])) h hmore
  have hget := get_offset_of_linksTo hlink
  obtain ⟨k, hk⟩ := h.steps
  rw [← hvisit] at hlength
  have hrecords : visit.page.records = col.slice c req cursor.offset := by rw [hvisit]; rfl
  have hoffset : visit.offset = cursor.offset := by rw [hvisit]
  refine ⟨?_, hlink.resource, ?_, ?_, ?_, ?_, ?_, ?_, hleft, ?_, rfl, rfl⟩
  · intro hnil
    have hpositive := col.positive
    rw [hrecords, ← List.length_eq_zero_iff, hslice] at hnil
    omega
  · exact queryMultimap_eq (filled_link c parameters) hquery (sameFilters_of_linksTo hlink)
  · exact validatedOffset_link _ _ hlink.offset (col.length_toString hmore)
  · rw [hrecords, hslice, hoffset]
    rfl
  · intro m hm
    have hbound := hwithin.maxOffset m hm (k + 1)
    rw [Nat.succ_mul, ← Nat.add_assoc, ← hk] at hbound
    exact hbound (.inr hmore)
  · intro m hm
    exact lt_of_lt_of_le (Int.ofNat_lt.mpr hlength) (hwithin.explicit m hm)
  · exact lt_of_lt_of_le hlength hwithin.hard
  · -- an earlier link has a smaller offset in its text
    intro hseen
    obtain ⟨w, hw, heq⟩ := List.mem_map.mp hseen
    have hearlier : Dict.get "offset" w.query = some (.str (toString w.offset)) ∧
        w.offset < cursor.offset + col.pageSize := by
      have hpositive := col.positive
      cases hdone : done with
      | nil => simp [hdone] at hw
      | cons first rest =>
        rw [hdone, List.cons_append, List.tail_cons, List.mem_append, List.mem_singleton] at hw
        rcases hw with hw | rfl
        · obtain ⟨hquery, hlt⟩ := h.earlier w (by rw [hdone]; exact hw)
          exact ⟨hquery, by omega⟩
        · rw [hoffset, hvisit]
          exact ⟨h.linked (by simp [hdone]), by omega⟩
    have hserial := (Prod.mk.inj heq).2
    rw [serializeQuery_of_offset hget, serializeQuery_of_offset hearlier.1] at hserial
    have hsame := Python.toString_injective (hdumps _ _ _ _ hearlier.1 hget hserial)
    omega

/-- The page at a cursor and its link lead on. -/
theorem Reached.next {offset : ℕ} {done : List Visit} {cursor : Cursor} {url path : String}
    {parameters : List (String × String)} {link : Option (String × Query)}
    (h : Reached c req col offset done cursor)
    (hmore : cursor.offset + col.pageSize < col.total c req)
    (hlink : LinksTo c req url (cursor.offset + col.pageSize) path parameters) :
    Reached c req col offset (done ++ [⟨cursor, col.page c req cursor.offset link⟩])
      (linkCursor req parameters (cursor.offset + col.pageSize)) where
  path := rfl
  filters := sameFilters_of_linksTo hlink
  read := sentOffset_of_validated c (validatedOffset_link "" "" hlink.offset
    (col.length_toString hmore))
  taken := by
    rw [records_snoc, List.append_assoc]
    exact (congrArg _ (col.slice_append cursor.offset)).trans h.taken
  steps := by
    obtain ⟨k, hk⟩ := h.steps
    refine ⟨k + 1, ?_⟩
    rw [Nat.succ_mul, ← Nat.add_assoc, ← hk]
    rfl
  more _ := hmore
  counted := by
    intro w hw
    rcases List.mem_append.mp hw with hw | hw
    · exact h.counted w hw
    · obtain rfl := List.mem_singleton.mp hw
      rfl
  linked _ := get_offset_of_linksTo hlink
  earlier := by
    intro w hw
    have hpositive := col.positive
    have hlt : cursor.offset < (linkCursor req parameters (cursor.offset + col.pageSize)).offset :=
      Nat.lt_add_of_pos_right hpositive
    cases hdone : done with
    | nil => simp [hdone] at hw
    | cons first rest =>
      rw [hdone, List.cons_append, List.tail_cons, List.mem_append, List.mem_singleton] at hw
      rcases hw with hw | rfl
      · obtain ⟨hquery, hbefore⟩ := h.earlier w (by rw [hdone]; exact hw)
        exact ⟨hquery, hbefore.trans hlt⟩
      · exact ⟨h.linked (by simp [hdone]), hlt⟩

theorem fetchPage_last {server : Server} {offset : ℕ} {done : List Visit} {cursor : Cursor}
    (h : Reached c req col offset done cursor) (hserver : Honest c req col server)
    (hlast : col.total c req ≤ cursor.offset + col.pageSize) :
    fetchPage c req.path (fun attempt => server done.length attempt cursor.path cursor.query)
      c.maxRetries 0 = .ok (col.page c req cursor.offset none) := by
  obtain ⟨retries, hretries, htransient, fields, hpayload, hshows⟩ :=
    hserver done.length cursor.query cursor.offset h.filters h.read
  rw [h.path]
  apply fetchPage_of_retries hretries
  · intro n hn
    rw [Nat.zero_add]
    exact htransient n hn
  · rw [Nat.zero_add, hpayload]
    exact readPage_last hshows hlast

theorem fetchPage_more {server : Server} {offset : ℕ} {done : List Visit} {cursor : Cursor}
    (h : Reached c req col offset done cursor) (hserver : Honest c req col server)
    (hmore : cursor.offset + col.pageSize < col.total c req) :
    ∃ url path parameters, LinksTo c req url (cursor.offset + col.pageSize) path parameters ∧
      fetchPage c req.path (fun attempt => server done.length attempt cursor.path cursor.query)
        c.maxRetries 0 = .ok (col.page c req cursor.offset
          (some (path, parameters.foldl addParameter []))) := by
  obtain ⟨retries, hretries, htransient, fields, hpayload, hshows⟩ :=
    hserver done.length cursor.query cursor.offset h.filters h.read
  obtain ⟨url, path, parameters, hlink, hread⟩ := readPage_more hshows hmore
  refine ⟨url, path, parameters, hlink, ?_⟩
  rw [h.path]
  apply fetchPage_of_retries hretries
  · intro n hn
    rw [Nat.zero_add]
    exact htransient n hn
  · rw [Nat.zero_add, hpayload]
    exact hread

/-- The last page of the collection is accepted. -/
theorem accepts_last {server : Server} {offset left : ℕ} {done : List Visit} {cursor : Cursor}
    (h : Reached c req col offset done cursor) (hserver : Honest c req col server)
    (hwithin : WithinCeilings c req col offset)
    (hlast : col.total c req ≤ cursor.offset + col.pageSize) :
    ∃ visits, Accepts c req server offset (left + 1) done cursor visits ∧
      records (done ++ visits) = col.from c req offset := by
  have hslice : col.slice c req cursor.offset = col.from c req cursor.offset := by
    apply List.take_of_length_le
    rw [col.length_from]
    omega
  have hall : records (done ++ [⟨cursor, col.page c req cursor.offset none⟩]) =
      col.from c req offset := by
    rw [records_snoc, ← h.taken, ← hslice]
    rfl
  refine ⟨_, .last (fetchPage_last h hserver hlast) (h.pageFits hwithin none) rfl ?_, hall⟩
  intro n hn
  obtain rfl : col.total c req = n := Option.some.inj hn
  rw [hall, col.length_from]

/-- From a cursor that was reached on, the pages of the collection are accepted to its end. -/
theorem accepts_of_reached {server : Server} {offset left : ℕ} {done : List Visit}
    {cursor : Cursor} (h : Reached c req col offset done cursor)
    (hserver : Honest c req col server) (hwithin : WithinCeilings c req col offset)
    (hquery : Filled c req.query) (hdumps : DumpsOffset c)
    (hleft : col.total c req - cursor.offset ≤ (left + 1) * col.pageSize) :
    ∃ visits, Accepts c req server offset (left + 1) done cursor visits ∧
      records (done ++ visits) = col.from c req offset := by
  induction left generalizing done cursor with
  | zero => exact accepts_last h hserver hwithin (by omega)
  | succ left ih =>
    by_cases hlast : col.total c req ≤ cursor.offset + col.pageSize
    · exact accepts_last h hserver hwithin hlast
    · have hmore : cursor.offset + col.pageSize < col.total c req := by omega
      obtain ⟨url, path, parameters, hlink, hfetch⟩ := fetchPage_more h hserver hmore
      have hrest : col.total c req - (cursor.offset + col.pageSize) ≤
          (left + 1) * col.pageSize := by
        rw [Nat.succ_mul] at hleft
        omega
      obtain ⟨visits, haccepts, hall⟩ := ih (h.next hmore hlink) hrest
      refine ⟨_ :: visits, .more hfetch (h.pageFits hwithin _) rfl
        (h.linkFits hwithin hquery hdumps (by omega) hmore hlink _ rfl) haccepts, ?_⟩
      rwa [List.append_assoc] at hall

/-- The cache holds nothing else for the request than these records. -/
def Current (c : Client) (req : Request) (rs : List Record) (cache : Cache Record) : Prop :=
  ∀ e, (key c req, e) ∈ cache → e.records = rs

/-- One traversal returns the records from the offset on, and caches nothing else. -/
theorem traverse_honest {server : Server} {offset : ℕ} {cache : Cache Record} (readAt writeAt : ℕ)
    (hoffset : Offset (Dict.get "offset" req.query) offset) (hserver : Honest c req col server)
    (hwithin : WithinCeilings c req col offset) (hquery : Filled c req.query)
    (hdumps : DumpsOffset c) (hcache : Current c req (col.from c req offset) cache) :
    (traverse c req server readAt writeAt cache).1.result = .ok (col.from c req offset) ∧
      Current c req (col.from c req offset) (traverse c req server readAt writeAt cache).2 := by
  have hinitial : initialOffset req = .ok offset := by
    unfold initialOffset
    rw [validatedOffset_of_offset req.path "Initial query" hoffset]
    refine refuseIf_bind.mpr ⟨exceeds_iff.mpr fun m hm => ?_, rfl⟩
    simpa using hwithin.maxOffset m hm 0 (.inl rfl)
  have hkept : Current c req (col.from c req offset) (read c.cfg readAt (key c req) cache).2 :=
    fun e he => hcache e (read_subset c.cfg readAt _ _ he)
  cases hread : (read c.cfg readAt (key c req) cache).1 with
  | some cached =>
    obtain ⟨e, he, hcached⟩ := mem_of_read c.cfg hread
    obtain rfl : cached = col.from c req offset := hcached.symm.trans (hcache e he)
    have hmax : exceeds (col.from c req offset).length req.maxRecords ≠ true := by
      refine exceeds_iff.mpr fun m hm => ?_
      rw [col.length_from]
      exact hwithin.explicit m hm
    unfold traverse
    rw [hinitial]
    rcases hpair : read c.cfg readAt (key c req) cache with ⟨served, left⟩
    rw [hpair] at hread hkept
    obtain rfl : served = some _ := hread
    dsimp only
    rw [if_neg hmax]
    exact ⟨rfl, hkept⟩
  | none =>
    have hleft : col.total c req - offset ≤ (9999 + 1) * col.pageSize := hwithin.pages
    obtain ⟨visits, haccepts, hall⟩ := accepts_of_reached (reached_start hoffset) hserver hwithin
      hquery hdumps hleft
    have hloop := loop_of_accepts c req server haccepts
    rw [hall] at hloop
    rw [traverse_miss c req server writeAt hinitial hread]
    have hmax : hardMaxPages = 9999 + 1 := rfl
    rw [hmax, hloop]
    refine ⟨rfl, ?_⟩
    intro e he
    rcases mem_write c.cfg he with he | he
    · exact hkept e he
    · rw [(Prod.mk.inj he).2]

end Traversal

/-- Every traversal of a request to an honest server returns the records that its filters select
from the initial offset to the end, in order, if no ceiling is exceeded. -/
theorem traversals_complete (c : Client) (req : Request) (col : Collection) (offset : ℕ)
    (hoffset : Offset (Dict.get "offset" req.query) offset) (hquery : Filled c req.query)
    (hwithin : WithinCeilings c req col offset) (hdumps : DumpsOffset c)
    (runs : List (Server × ℕ × ℕ)) (hruns : ∀ run ∈ runs, Honest c req col run.1)
    (cache : Cache Record) (hcache : key c req ∉ Dict.keys cache) :
    ∀ outcome ∈ traversals c req runs cache, outcome.result = .ok (col.from c req offset) := by
  have hcurrent : Current c req (col.from c req offset) cache :=
    fun e he => absurd (List.mem_map_of_mem he) hcache
  clear hcache
  induction runs generalizing cache with
  | nil => simp [traversals]
  | cons run runs ih =>
    obtain ⟨server, readAt, writeAt⟩ := run
    obtain ⟨hserver, hruns⟩ := List.forall_mem_cons.mp hruns
    obtain ⟨hresult, hcurrent⟩ := traverse_honest readAt writeAt hoffset hserver hwithin hquery
      hdumps hcurrent
    exact List.forall_mem_cons.mpr ⟨hresult, ih hruns _ hcurrent⟩

/-- The links of a server with one record a page, up to the offset. -/
def statusLink : String := "http://netbox/api/ipam/vlans/?limit=1&status=active&offset="

theorem weigh_nil : max 2 (4 * ([] : List Record).length) = max 2 (4 * ([] : List Record).length) :=
  rfl

/-- A reader of the pages of the active VLANs. -/
def statusClient : Client where
  cfg := Config.defaults (fun rs => max 2 (4 * rs.length)) weigh_nil
  api := 1
  maxRetries := 1
  py := Python.ascii
  dumpsQuery := fun q => match Dict.get "offset" q with
    | some (.str s) => "\x7b\"limit\":\"1\",\"offset\":\"" ++ s ++ "\",\"status\":\"active\"\x7d"
    | _ => "\x7b\"status\":\"active\"\x7d"
  dumpsRecord := fun _ => "{}"
  splitUrl := fun url =>
    if statusLink.toList.isPrefixOf url.toList then
      .ok ("/api/ipam/vlans/", [("limit", "1"), ("status", "active"),
        ("offset", String.ofList (url.toList.drop statusLink.length))])
    else .ok (url, [])

def statusRequest : Request := ⟨"/api/ipam/vlans/", [("status", .str "active")], some 2, some 1⟩

def vlans : Collection where
  all := [[("id", .int 1), ("status", .str "active")], [("id", .int 2), ("status", .str "reserved")],
    [("id", .int 3), ("status", .str "active")]]
  identified := by decide
  distinct := by decide
  readable := by decide
  selects := fun filters r => match Dict.get "status" r with
    | some (.str s) => s ∈ filters "status"
    | _ => true
  pageSize := 1
  positive := by decide

def vlanPage (offset : ℕ) : Json.Fields :=
  [("count", .int (vlans.total statusClient statusRequest)),
    ("next", if offset + 1 < vlans.total statusClient statusRequest then
      .str (statusLink ++ toString (offset + 1)) else .null),
    ("previous", .null),
    ("results", .arr ((vlans.slice statusClient statusRequest offset).map .obj))]

/-- The first request times out once. -/
def vlanServer : Server := fun page attempt _ q =>
  if page = 0 ∧ attempt = 0 then .raises ⟨"NetBox connection timeout", ""⟩
  else .payload (.obj (vlanPage ((sentOffset statusClient q).getD 0)))

theorem linksTo_vlans (n : ℕ) : LinksTo statusClient statusRequest (statusLink ++ toString n) n
    "/api/ipam/vlans/" [("limit", "1"), ("status", "active"), ("offset", toString n)] where
  filled := by simp [statusLink]
  split := by
    have hdrop : (statusLink ++ toString n).toList.drop statusLink.length = (toString n).toList := by
      rw [String.toList_append, ← String.length_toList, List.drop_left]
    have hprefix : statusLink.toList.isPrefixOf (statusLink ++ toString n).toList = true := by
      rw [String.toList_append, List.isPrefixOf_iff_prefix]
      exact List.prefix_append _ _
    dsimp only [statusClient]
    rw [if_pos hprefix, hdrop, String.ofList_toList]
  named := by decide
  resource := rfl
  offset := rfl
  filters := by
    intro name hname
    by_cases hstatus : name = "status"
    · subst hstatus
      rfl
    · have hsent : sent statusClient statusRequest.query name = [] := by
        simp [sent, statusRequest, Dict.get, Ne.symm hstatus]
      have hvalues : valuesOf name [("limit", "1"), ("status", "active"), ("offset", toString n)] =
          [] := by
        simp [valuesOf, Ne.symm hname.1, Ne.symm hname.2, Ne.symm hstatus]
      rw [hsent, hvalues]

theorem shows_vlanPage (offset : ℕ) :
    Shows statusClient statusRequest vlans offset (vlanPage offset) := by
  refine ⟨rfl, rfl, ?_, ?_⟩
  · intro hlast
    have hnot : ¬ offset + 1 < vlans.total statusClient statusRequest := not_lt.mpr hlast
    simp [vlanPage, Dict.get, hnot]
  · intro hmore
    have hlt : offset + 1 < vlans.total statusClient statusRequest := hmore
    exact ⟨_, _, _, by simp [vlanPage, Dict.get, hlt], linksTo_vlans (offset + 1)⟩

theorem honest_vlanServer : Honest statusClient statusRequest vlans vlanServer := by
  intro page q offset _ hoffset
  have hpayload : ∀ attempt, ¬ (page = 0 ∧ attempt = 0) →
      vlanServer page attempt statusRequest.normalizedPath q = .payload (.obj (vlanPage offset)) := by
    intro attempt hattempt
    unfold vlanServer
    rw [hoffset, if_neg hattempt, Option.getD_some]
  by_cases hpage : page = 0
  · subst hpage
    refine ⟨1, by decide, ?_, _, hpayload 1 (by decide), shows_vlanPage offset⟩
    intro attempt hattempt
    obtain rfl : attempt = 0 := by omega
    exact ⟨⟨"NetBox connection timeout", ""⟩, rfl, by decide +kernel⟩
  · exact ⟨0, by decide, by simp, _, hpayload 0 (by simp [hpage]), shows_vlanPage offset⟩

theorem dumpsOffset_statusClient : DumpsOffset statusClient := by
  intro p q s t hp hq h
  simp only [statusClient, hp, hq] at h
  have htext := congrArg String.toList h
  simp only [String.toList_append, List.append_assoc] at htext
  exact String.toList_injective (List.append_cancel_right (List.append_cancel_left htext))

theorem active_vlans_complete :
    (traversals statusClient statusRequest [(vlanServer, 0, 1), (vlanServer, 2, 3)] []).map
      Outcome.result = List.replicate 2 (.ok [[("id", .int 1), ("status", .str "active")],
        [("id", .int 3), ("status", .str "active")]]) := by
  have hfilled : Filled statusClient statusRequest.query := by
    refine ⟨by decide, ?_⟩
    intro kv hkv _ hnil
    obtain rfl := List.mem_singleton.mp hkv
    simp [sentValues] at hnil
  have hwithin : WithinCeilings statusClient statusRequest vlans 0 := by
    refine ⟨by decide, by decide, ?_, ?_⟩
    · rintro m ⟨⟩
      decide
    · rintro m ⟨⟩ k hk
      have htotal : vlans.total statusClient statusRequest = 2 := by decide
      have hsize : vlans.pageSize = 1 := rfl
      rw [htotal, hsize] at hk
      rw [hsize]
      omega
  have hall := traversals_complete statusClient statusRequest vlans 0 .absent hfilled hwithin
    dumpsOffset_statusClient [(vlanServer, 0, 1), (vlanServer, 2, 3)]
    (by simp [honest_vlanServer]) [] (by decide)
  rw [List.eq_replicate_iff]
  refine ⟨by simp [traversals], ?_⟩
  intro result hresult
  obtain ⟨outcome, houtcome, rfl⟩ := List.mem_map.mp hresult
  exact hall outcome houtcome

end ProxboxApi.Pagination
