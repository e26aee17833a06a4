import ProxboxApi.Python
import Mathlib.Data.List.Basic
import Mathlib.Tactic.Common

/-! The task archive of a Proxmox node, collected page by page. -/

namespace ProxboxApi.TaskHistory

/-- An archived task row; `vmid` and `exitstatus` are the text of extra fields. -/
structure Row where
  upid : Option String
  id : Option String
  vmid : Option String
  node : Option String
  type : Option String
  user : Option String
  status : Option String
  exitstatus : Option String
  pid : Option ℤ
  pstart : Option ℤ
  starttime : Option ℤ
  endtime : Option ℤ
  deriving DecidableEq, Repr

/-- `_normalize_text` of a string. -/
def normalizeText (text : Option String) : Option String :=
  text.bind fun s => if Text.strip s = "" then none else some (Text.strip s)

def Row.key (row : Row) : Option String := normalizeText row.upid

/-- `task.setdefault("node", ...)`. -/
def Row.onNode (row : Row) (node : String) : Row := { row with node := row.node.or (some node) }

/-- `_page_signature`: the UPIDs, or the whole row where there is none. -/
def pageSignature (tasks : List Row) : List (String ⊕ Row) :=
  tasks.map fun task => match task.key with
    | some upid => .inl upid
    | none => .inr task

def isSeenPage (seenPages : List (List (String ⊕ Row))) (tasks : List Row) : Bool :=
  seenPages.any (· = pageSignature tasks)

def isSeen (collected : List Row) (upid : String) : Bool :=
  collected.any fun task => task.key = some upid

/-- One row of `_append_unique_archive_tasks`. -/
def appendUnique (node : String) (collected : List Row) (task : Row) : List Row :=
  match task.key with
  | none => collected
  | some upid => if isSeen collected upid then collected else collected ++ [task.onNode node]

structure ArchiveResult where
  tasks : List Row
  errors : ℕ
  successfulRequest : Bool
  deriving DecidableEq, Repr

def pageSize : ℕ := 500

/-- The loop of `_fetch_node_archive` over the answers to its requests, `none` being an error; after
the last one the archive is empty. -/
def fetchPages (node : String) : List (Option (List Row)) → List (List (String ⊕ Row)) →
    List Row → Bool → ArchiveResult
  | [], _, collected, _ => ⟨collected, 0, true⟩
  | none :: _, _, collected, success => ⟨collected, 1, success⟩
  | some tasks :: pages, seenPages, collected, _ =>
    if tasks.isEmpty then ⟨collected, 0, true⟩
    else if isSeenPage seenPages tasks then ⟨collected, 1, true⟩
    else
      let collected' := tasks.foldl (appendUnique node) collected
      if collected'.length = collected.length then ⟨collected', 1, true⟩
      else if tasks.length < pageSize then ⟨collected', 0, true⟩
      else fetchPages node pages (pageSignature tasks :: seenPages) collected' true

/-- A list in pages. -/
def chunks (l : List Row) : ℕ → List (List Row)
  | 0 => []
  | n + 1 => if l.isEmpty then [] else l.take pageSize :: chunks (l.drop pageSize) n

/-- What is left of an archive: its pages, then the answer to the request after them. -/
def remaining (rows : List Row) (fuel : ℕ) (fails : Bool) : List (Option (List Row)) :=
  (chunks rows fuel).map some ++ if fails then [none] else []

/-- The rows of an archive, and whether the request after them fails. -/
structure Archive where
  rows : List Row
  fails : Bool

def Archive.pages (archive : Archive) : List (Option (List Row)) :=
  remaining archive.rows archive.rows.length archive.fails

/-- `_fetch_node_archive`. -/
def fetchNodeArchive (node : String) (archive : Archive) : ArchiveResult :=
  fetchPages node archive.pages [] [] false

@[simp] theorem key_onNode (row : Row) (node : String) : (row.onNode node).key = row.key := rfl

theorem isSeen_iff {collected : List Row} {upid : String} :
    isSeen collected upid ↔ some upid ∈ collected.map Row.key := by
  simp [isSeen]

/-- The rows of an archive that names each of its tasks once. -/
structure Distinct (rows : List Row) : Prop where
  named : ∀ row ∈ rows, row.key ≠ none
  once : (rows.map Row.key).Nodup

theorem Distinct.sublist {rows rows' : List Row} (h : Distinct rows)
    (hsub : rows'.Sublist rows) : Distinct rows' where
  named row hrow := h.named row (hsub.subset hrow)
  once := (hsub.map Row.key).nodup h.once

theorem Distinct.perm {rows rows' : List Row} (h : Distinct rows) (hperm : rows'.Perm rows) :
    Distinct rows' where
  named row hrow := h.named row (hperm.mem_iff.mp hrow)
  once := (hperm.map Row.key).nodup_iff.mpr h.once

theorem Distinct.of_keys {rows rows' : List Row} (h : Distinct rows)
    (hkeys : rows'.map Row.key = rows.map Row.key) : Distinct rows' where
  named row hrow := by
    have hmem : row.key ∈ rows.map Row.key := hkeys ▸ List.mem_map_of_mem hrow
    obtain ⟨r, hr, hkey⟩ := List.mem_map.mp hmem
    exact hkey ▸ h.named r hr
  once := hkeys ▸ h.once

theorem Distinct.onNode {collected rows rest : List Row} (h : Distinct (collected ++ (rows ++ rest)))
    (node : String) : Distinct ((collected ++ rows.map (·.onNode node)) ++ rest) := by
  apply h.of_keys
  simp [Function.comp_def]

theorem Distinct.key_notMem {collected rest : List Row} {row : Row}
    (h : Distinct (collected ++ rest)) (hrow : row ∈ rest) :
    row.key ∉ collected.map Row.key := by
  intro hseen
  have honce := h.once
  rw [List.map_append, List.nodup_append] at honce
  exact honce.2.2 _ hseen _ (List.mem_map_of_mem hrow) rfl

theorem foldl_appendUnique (node : String) {rows : List Row} :
    ∀ {collected : List Row}, Distinct (collected ++ rows) →
      rows.foldl (appendUnique node) collected = collected ++ rows.map (·.onNode node) := by
  induction rows with
  | nil => intro collected _; simp
  | cons row rows ih =>
    intro collected h
    have hrow : appendUnique node collected row = collected ++ [row.onNode node] := by
      unfold appendUnique
      cases hkey : row.key with
      | none => exact absurd hkey (h.named row (by simp))
      | some upid =>
        have hnew : ¬ isSeen collected upid := by
          rw [isSeen_iff, ← hkey]
          exact h.key_notMem List.mem_cons_self
        simp [hnew]
    have hnext : Distinct ((collected ++ [row.onNode node]) ++ rows) :=
      h.of_keys (by simp)
    rw [List.foldl_cons, hrow, ih hnext]
    simp

/-- The pages read so far are made of collected rows. -/
def Covers (collected : List Row) (seenPages : List (List (String ⊕ Row))) : Prop :=
  ∀ page ∈ seenPages, ∀ upid, .inl upid ∈ page → some upid ∈ collected.map Row.key

theorem Covers.signature {collected : List Row} {seenPages : List (List (String ⊕ Row))}
    (h : Covers collected seenPages) (tasks : List Row) (node : String) :
    Covers (collected ++ tasks.map (·.onNode node)) (pageSignature tasks :: seenPages) := by
  intro page hpage upid hupid
  rw [List.map_append, List.mem_append]
  rcases List.mem_cons.mp hpage with rfl | hpage
  · right
    obtain ⟨task, htask, hsig⟩ := List.mem_map.mp hupid
    rw [List.map_map]
    refine List.mem_map.mpr ⟨task, htask, ?_⟩
    cases hkey : task.key with
    | none => simp [hkey] at hsig
    | some u =>
      simp only [hkey, Sum.inl.injEq] at hsig
      simp [hkey, hsig]
  · exact .inl (h page hpage upid hupid)

theorem Covers.not_seen {collected rows : List Row} {seenPages : List (List (String ⊕ Row))}
    (h : Covers collected seenPages) (hdistinct : Distinct (collected ++ rows)) {row : Row}
    (hrow : row ∈ rows) {tasks : List Row} (htasks : row ∈ tasks) :
    isSeenPage seenPages tasks = false := by
  unfold isSeenPage
  simp only [List.any_eq_false, decide_eq_true_eq]
  rintro page hmem rfl
  cases hkey : row.key with
  | none => exact hdistinct.named row (List.mem_append_right collected hrow) hkey
  | some upid =>
    have hsig : .inl upid ∈ pageSignature tasks :=
      List.mem_map.mpr ⟨row, htasks, by simp [hkey]⟩
    exact hdistinct.key_notMem hrow (hkey ▸ h _ hmem upid hsig)

/-- One step of the loop, over the rows that are left. -/
theorem fetchPages_remaining (node : String) {rows : List Row} (hrows : rows ≠ []) (fuel : ℕ)
    (fails : Bool) (seenPages : List (List (String ⊕ Row))) (collected : List Row)
    (success : Bool) :
    fetchPages node (remaining rows (fuel + 1) fails) seenPages collected success =
      let page := rows.take pageSize
      let collected' := page.foldl (appendUnique node) collected
      if isSeenPage seenPages page then ⟨collected, 1, true⟩
      else if collected'.length = collected.length then ⟨collected', 1, true⟩
      else if page.length < pageSize then ⟨collected', 0, true⟩
      else fetchPages node (remaining (rows.drop pageSize) fuel fails)
        (pageSignature page :: seenPages) collected' true := by
  have hpage : (rows.take pageSize).isEmpty = false := by simp [hrows, pageSize]
  have hrows' : rows.isEmpty = false := by simp [hrows]
  simp only [remaining, chunks, hrows', Bool.false_eq_true, if_false, List.map_cons,
    List.cons_append, fetchPages, hpage]

theorem take_of_short {rows : List Row} (h : (rows.take pageSize).length < pageSize) :
    rows.take pageSize = rows := by
  apply List.take_of_length_le
  rw [List.length_take] at h
  omega

theorem length_drop_le {rows : List Row} {fuel : ℕ} (h : rows.length ≤ fuel + 1) :
    (rows.drop pageSize).length ≤ fuel := by
  rw [List.length_drop]
  unfold pageSize
  omega

theorem fetchPages_distinct {node : String} {fails : Bool} {fuel : ℕ} :
    ∀ {rows collected : List Row} {seenPages : List (List (String ⊕ Row))} {success : Bool},
      rows.length ≤ fuel → Distinct (collected ++ rows) → Covers collected seenPages →
      (fetchPages node (remaining rows fuel fails) seenPages collected success).tasks =
        collected ++ rows.map (·.onNode node) := by
  induction fuel with
  | zero =>
    intro rows collected seenPages success hfuel _ _
    obtain rfl : rows = [] := List.length_eq_zero_iff.mp (by omega)
    cases fails <;> simp [remaining, chunks, fetchPages]
  | succ fuel ih =>
    intro rows collected seenPages success hfuel hdistinct hcovers
    cases rows with
    | nil => cases fails <;> simp [remaining, chunks, fetchPages]
    | cons row rest =>
      have hsplit : (row :: rest).take pageSize ++ (row :: rest).drop pageSize = row :: rest :=
        List.take_append_drop pageSize (row :: rest)
      have hread : Distinct (collected ++ (row :: rest).take pageSize) :=
        hdistinct.sublist (List.Sublist.append_left (List.take_sublist _ _) collected)
      have hnew : isSeenPage seenPages ((row :: rest).take pageSize) = false :=
        hcovers.not_seen hdistinct List.mem_cons_self (by simp [pageSize])
      have hcollected := foldl_appendUnique node hread
      have hadded : (collected ++ ((row :: rest).take pageSize).map (·.onNode node)).length ≠
          collected.length := by
        simp [pageSize]
      rw [fetchPages_remaining node (by simp)]
      simp only [hcollected, hnew, hadded, Bool.false_eq_true, if_false]
      split
      · next hshort => rw [take_of_short hshort]
      · have hnext := Distinct.onNode (hsplit.symm ▸ hdistinct) node
        rw [ih (length_drop_le hfuel) hnext (hcovers.signature _ node), List.append_assoc,
          ← List.map_append, hsplit]

/-- An archive that names each of its tasks once is read to its end, or to the failing request. -/
theorem tasks_of_distinct {node : String} {archive : Archive} (h : Distinct archive.rows) :
    (fetchNodeArchive node archive).tasks = archive.rows.map (·.onNode node) := by
  unfold fetchNodeArchive Archive.pages
  rw [fetchPages_distinct le_rfl (by simpa using h) (fun page hpage => by simp at hpage)]
  exact List.nil_append _

theorem fetchPages_foldl {node : String} {fails : Bool} {fuel : ℕ} :
    ∀ {rows collected : List Row} {seenPages : List (List (String ⊕ Row))} {success : Bool},
      rows.length ≤ fuel →
      (fetchPages node (remaining rows fuel fails) seenPages collected success).errors = 0 →
      (fetchPages node (remaining rows fuel fails) seenPages collected success).tasks =
        rows.foldl (appendUnique node) collected := by
  induction fuel with
  | zero =>
    intro rows collected seenPages success hfuel _
    obtain rfl : rows = [] := List.length_eq_zero_iff.mp (by omega)
    cases fails <;> simp [remaining, chunks, fetchPages]
  | succ fuel ih =>
    intro rows collected seenPages success hfuel herrors
    by_cases hrows : rows = []
    · cases fails <;> simp [hrows, remaining, chunks, fetchPages]
    · rw [fetchPages_remaining node hrows] at herrors ⊢
      simp only at herrors ⊢
      split at herrors
      · simp at herrors
      · split at herrors
        · simp at herrors
        · next hpage hadded =>
          simp only [hpage, hadded, Bool.false_eq_true, if_false]
          split at herrors
          · next hshort => rw [if_pos hshort, take_of_short hshort]
          · next hfull =>
            rw [if_neg hfull, ih (length_drop_le hfuel) herrors, ← List.foldl_append,
              List.take_append_drop]

/-- Without an error an archive is read to its end. -/
theorem tasks_of_errors {node : String} {archive : Archive}
    (h : (fetchNodeArchive node archive).errors = 0) :
    (fetchNodeArchive node archive).tasks = archive.rows.foldl (appendUnique node) [] :=
  fetchPages_foldl le_rfl h

theorem fetchPages_successful {node : String} {pages : List (Option (List Row))} :
    ∀ {seenPages : List (List (String ⊕ Row))} {collected : List Row},
      (fetchPages node pages seenPages collected true).successfulRequest = true := by
  induction pages with
  | nil => intro seenPages collected; rfl
  | cons page pages ih =>
    intro seenPages collected
    cases page with
    | none => rfl
    | some tasks =>
      unfold fetchPages
      simp only
      split_ifs
      · rfl
      · rfl
      · rfl
      · rfl
      · exact ih

/-- An archive whose first request fails yields nothing. -/
theorem tasks_of_unsuccessful {node : String} {archive : Archive}
    (h : (fetchNodeArchive node archive).successfulRequest = false) :
    (fetchNodeArchive node archive).tasks = [] := by
  unfold fetchNodeArchive at h ⊢
  cases hpages : archive.pages with
  | nil => rfl
  | cons page pages =>
    rw [hpages] at h
    cases page with
    | none => rfl
    | some tasks =>
      unfold fetchPages at h
      simp only at h
      split_ifs at h
      rw [fetchPages_successful] at h
      cases h

end ProxboxApi.TaskHistory
