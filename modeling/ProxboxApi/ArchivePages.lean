import Mathlib.Data.Finset.Card
import ProxboxApi.TaskArchive

/-! The reading of a task archive against an arbitrary server: it ends, and what it returns of a
fixed archive. -/

namespace ProxboxApi.TaskHistory

/-- The loop of `_fetch_node_archive` against a server that answers by the offset, `none` being an
error; the outer `none` is a loop that goes on after the given number of requests. -/
def fetchFrom (node : String) (answer : ℕ → Option (List Row)) :
    ℕ → ℕ → List (List (String ⊕ Row)) → List Row → Bool → Option ArchiveResult
  | 0, _, _, _, _ => none
  | fuel + 1, offset, seenPages, collected, success =>
    match answer offset with
    | none => some ⟨collected, 1, success⟩
    | some tasks =>
      if tasks.isEmpty then some ⟨collected, 0, true⟩
      else if isSeenPage seenPages tasks then some ⟨collected, 1, true⟩
      else
        let collected' := tasks.foldl (appendUnique node) collected
        if collected'.length = collected.length then some ⟨collected', 1, true⟩
        else if tasks.length < pageSize then some ⟨collected', 0, true⟩
        else fetchFrom node answer fuel (offset + pageSize) (pageSignature tasks :: seenPages)
          collected' true

/-- `_fetch_node_archive` after at most so many requests. -/
def fetchWithin (node : String) (answer : ℕ → Option (List Row)) (requests : ℕ) :
    Option ArchiveResult :=
  fetchFrom node answer requests 0 [] [] false

/-- A fixed archive, served by `start` and `limit`. -/
def served (rows : List Row) (offset : ℕ) : Option (List Row) :=
  some ((rows.drop offset).take pageSize)

/-- No row of the page has a UPID beyond those read before. -/
def Stale (read page : List Row) : Prop :=
  ∀ row ∈ page, ∀ upid, row.key = some upid → some upid ∈ read.map Row.key

/-- A page of an archive, with rows on it, brings no UPID beyond those of the earlier pages. -/
def StalePage (rows : List Row) (i : ℕ) : Prop :=
  i * pageSize < rows.length ∧
    Stale (rows.take (i * pageSize)) ((rows.drop (i * pageSize)).take pageSize)

/-- The result holds each UPID of the rows once. -/
structure Complete (rows : List Row) (result : ArchiveResult) : Prop where
  once : (result.tasks.map Row.key).Nodup
  named : ∀ task ∈ result.tasks, task.key ≠ none
  all : ∀ upid, some upid ∈ result.tasks.map Row.key ↔ some upid ∈ rows.map Row.key

variable {node : String}

section Collected

variable {rows collected : List Row}

theorem appendUnique_keys (task : Row) (upid : String) :
    some upid ∈ (appendUnique node collected task).map Row.key ↔
      some upid ∈ collected.map Row.key ∨ task.key = some upid := by
  unfold appendUnique
  cases hkey : task.key with
  | none => simp
  | some u =>
    dsimp only
    split_ifs with hseen
    · rw [isSeen_iff] at hseen
      constructor
      · exact Or.inl
      · rintro (h | h)
        · exact h
        · exact Option.some.inj h ▸ hseen
    · rw [List.map_append, List.mem_append]
      simp [hkey, eq_comm]

theorem foldl_keys (rows collected : List Row) (upid : String) :
    some upid ∈ (rows.foldl (appendUnique node) collected).map Row.key ↔
      some upid ∈ collected.map Row.key ∨ some upid ∈ rows.map Row.key := by
  induction rows generalizing collected with
  | nil => simp
  | cons row rows ih =>
    rw [List.foldl_cons, ih, appendUnique_keys, List.map_cons, List.mem_cons, or_assoc]
    simp only [eq_comm]

theorem appendUnique_extends (task : Row) : collected <+: appendUnique node collected task := by
  unfold appendUnique
  split
  · exact List.prefix_refl _
  · split_ifs
    · exact List.prefix_refl _
    · exact List.prefix_append _ _

variable (node) in
theorem foldl_extends (rows collected : List Row) :
    collected <+: rows.foldl (appendUnique node) collected := by
  induction rows generalizing collected with
  | nil => exact List.prefix_refl _
  | cons row rows ih => exact (appendUnique_extends row).trans (ih _)

variable (node) in
/-- A page adds nothing exactly if it is stale. -/
theorem foldl_length_iff (page collected : List Row) :
    (page.foldl (appendUnique node) collected).length = collected.length ↔
      Stale collected page := by
  constructor
  · intro hlength row hrow upid hkey
    have hsame := (foldl_extends node page collected).eq_of_length hlength.symm
    rw [hsame, foldl_keys]
    exact Or.inr (hkey ▸ List.mem_map_of_mem hrow)
  · intro hstale
    induction page with
    | nil => rfl
    | cons row page ih =>
      have hrow : appendUnique node collected row = collected := by
        unfold appendUnique
        cases hkey : row.key with
        | none => rfl
        | some upid =>
          have hseen := isSeen_iff.mpr (hstale row List.mem_cons_self upid hkey)
          simp [hseen]
      rw [List.foldl_cons, hrow]
      exact ih fun r hr => hstale r (List.mem_cons_of_mem _ hr)

theorem foldl_complete (node : String) (rows : List Row) :
    (∀ task ∈ rows.foldl (appendUnique node) [], task.key ≠ none) ∧
      ((rows.foldl (appendUnique node) []).map Row.key).Nodup := by
  suffices ∀ collected : List Row, (∀ task ∈ collected, task.key ≠ none) →
      (collected.map Row.key).Nodup →
      (∀ task ∈ rows.foldl (appendUnique node) collected, task.key ≠ none) ∧
        ((rows.foldl (appendUnique node) collected).map Row.key).Nodup by
    exact this [] (by simp) (by simp)
  induction rows with
  | nil => exact fun collected hnamed honce => ⟨hnamed, honce⟩
  | cons row rows ih =>
    intro collected hnamed honce
    apply ih
    · intro task htask
      unfold appendUnique at htask
      split at htask
      · exact hnamed task htask
      · rename_i upid hkey
        split_ifs at htask
        · exact hnamed task htask
        · rcases List.mem_append.mp htask with hold | hnew
          · exact hnamed task hold
          · rw [List.mem_singleton.mp hnew, key_onNode, hkey]
            simp
    · unfold appendUnique
      split
      · exact honce
      · rename_i upid hkey
        split_ifs with hseen
        · exact honce
        · rw [isSeen_iff] at hseen
          rw [List.map_append, List.nodup_append]
          refine ⟨honce, by simp, ?_⟩
          intro key hmem key' hmem'
          have hkey' : key' = some upid := by simpa [hkey] using hmem'
          rw [hkey']
          exact fun heq => hseen (heq ▸ hmem)

theorem stale_foldl_iff {read page : List Row} :
    Stale (read.foldl (appendUnique node) []) page ↔ Stale read page := by
  unfold Stale
  simp only [foldl_keys, List.map_nil, List.not_mem_nil, false_or]

theorem mem_pageSignature {tasks : List Row} {upid : String} :
    .inl upid ∈ pageSignature tasks ↔ some upid ∈ tasks.map Row.key := by
  unfold pageSignature
  rw [List.mem_map, List.mem_map]
  refine exists_congr fun task => and_congr_right fun _ => ?_
  cases task.key with
  | none => simp
  | some u => simp

theorem Covers.foldl {seenPages : List (List (String ⊕ Row))} (h : Covers collected seenPages)
    (tasks : List Row) (node : String) :
    Covers (tasks.foldl (appendUnique node) collected) (pageSignature tasks :: seenPages) := by
  intro page hpage upid hupid
  rw [foldl_keys]
  rcases List.mem_cons.mp hpage with rfl | hpage
  · exact Or.inr (mem_pageSignature.mp hupid)
  · exact Or.inl (h page hpage upid hupid)

/-- A page that repeats an earlier one is stale. -/
theorem Covers.stale {seenPages : List (List (String ⊕ Row))} (h : Covers collected seenPages)
    {tasks : List Row} (hseen : isSeenPage seenPages tasks = true) : Stale collected tasks := by
  intro row hrow upid hkey
  obtain ⟨page, hpage, heq⟩ := List.any_eq_true.mp hseen
  have heq : page = pageSignature tasks := by simpa using heq
  exact h page hpage upid (heq ▸ mem_pageSignature.mpr (hkey ▸ List.mem_map_of_mem hrow))

end Collected

section Termination

variable {answer : ℕ → Option (List Row)} {upids : Finset String}

/-- The UPIDs that have not been collected. -/
def unseen (upids : Finset String) (collected : List Row) : Finset String :=
  upids.filter fun upid => some upid ∉ collected.map Row.key

variable (node) in
/-- A page that is not stale shrinks what has not been collected. -/
theorem unseen_foldl_lt {collected tasks : List Row}
    (hupids : ∀ row ∈ tasks, ∀ upid, row.key = some upid → upid ∈ upids)
    (hfresh : ¬ Stale collected tasks) :
    (unseen upids (tasks.foldl (appendUnique node) collected)).card <
      (unseen upids collected).card := by
  unfold Stale at hfresh
  push Not at hfresh
  obtain ⟨row, hrow, upid, hkey, hnew⟩ := hfresh
  apply Finset.card_lt_card
  refine ⟨?_, ?_⟩
  · intro u hu
    simp only [unseen, Finset.mem_filter, foldl_keys] at hu ⊢
    exact ⟨hu.1, fun hold => hu.2 (Or.inl hold)⟩
  · intro hsub
    have hmem : upid ∈ unseen upids collected :=
      Finset.mem_filter.mpr ⟨hupids row hrow upid hkey, hnew⟩
    have hseen := (Finset.mem_filter.mp (hsub hmem)).2
    rw [foldl_keys] at hseen
    exact hseen (Or.inr (hkey ▸ List.mem_map_of_mem hrow))

theorem fetchFrom_isSome (hupids : ∀ offset tasks, answer offset = some tasks →
      ∀ row ∈ tasks, ∀ upid, row.key = some upid → upid ∈ upids) {requests offset : ℕ}
    {seenPages : List (List (String ⊕ Row))} {collected : List Row} {success : Bool}
    (hrequests : (unseen upids collected).card < requests) :
    (fetchFrom node answer requests offset seenPages collected success).isSome = true := by
  induction requests generalizing offset seenPages collected success with
  | zero => omega
  | succ requests ih =>
    unfold fetchFrom
    cases hanswer : answer offset with
    | none => rfl
    | some tasks =>
      dsimp only
      split_ifs with hempty hseen hadded hshort
      · rfl
      · rfl
      · rfl
      · rfl
      · have hfresh : ¬ Stale collected tasks := fun h => hadded ((foldl_length_iff node _ _).mpr h)
        have hless := unseen_foldl_lt node (hupids offset tasks hanswer) hfresh
        exact ih (by omega)

end Termination

section Fixed

variable {rows : List Row} {i fuel : ℕ} {seenPages : List (List (String ⊕ Row))} {success : Bool}

/-- What has been collected from the first pages of an archive. -/
def collectedBefore (node : String) (rows : List Row) (i : ℕ) : List Row :=
  (rows.take (i * pageSize)).foldl (appendUnique node) []

theorem collectedBefore_zero : collectedBefore node rows 0 = [] := by
  unfold collectedBefore
  rw [Nat.zero_mul, List.take_zero, List.foldl_nil]

theorem collectedBefore_succ : collectedBefore node rows (i + 1) =
    ((rows.drop (i * pageSize)).take pageSize).foldl (appendUnique node)
      (collectedBefore node rows i) := by
  unfold collectedBefore
  rw [← List.foldl_append, Nat.succ_mul, List.take_add]

theorem remaining_nil (fuel : ℕ) : remaining [] fuel false = [] := by
  cases fuel <;> rfl

/-- On a stale page the loop stops with an error. -/
theorem fetchPages_stale (hstale : StalePage rows i) :
    fetchPages node (remaining (rows.drop (i * pageSize)) (fuel + 1) false) seenPages
      (collectedBefore node rows i) success = ⟨collectedBefore node rows i, 1, true⟩ := by
  obtain ⟨hrows, hstale⟩ := hstale
  have hstale : Stale (collectedBefore node rows i) ((rows.drop (i * pageSize)).take pageSize) :=
    stale_foldl_iff.mpr hstale
  have hlength := (foldl_length_iff node _ _).mpr hstale
  have hsame := (foldl_extends node ((rows.drop (i * pageSize)).take pageSize)
    (collectedBefore node rows i)).eq_of_length hlength.symm
  have hne : rows.drop (i * pageSize) ≠ [] := by
    rw [Ne, List.drop_eq_nil_iff]
    omega
  rw [fetchPages_remaining node hne]
  dsimp only
  rw [← hsame]
  simp

/-- On another page it goes on. -/
theorem fetchPages_fresh (hrows : i * pageSize < rows.length) (hfresh : ¬ StalePage rows i)
    (hcovers : Covers (collectedBefore node rows i) seenPages) :
    fetchPages node (remaining (rows.drop (i * pageSize)) (fuel + 1) false) seenPages
      (collectedBefore node rows i) success =
      if ((rows.drop (i * pageSize)).take pageSize).length < pageSize
      then ⟨collectedBefore node rows (i + 1), 0, true⟩
      else fetchPages node (remaining (rows.drop ((i + 1) * pageSize)) fuel false)
        (pageSignature ((rows.drop (i * pageSize)).take pageSize) :: seenPages)
        (collectedBefore node rows (i + 1)) true := by
  have hfresh : ¬ Stale (collectedBefore node rows i)
      ((rows.drop (i * pageSize)).take pageSize) := by
    intro hstale
    exact hfresh ⟨hrows, stale_foldl_iff.mp hstale⟩
  have hne : rows.drop (i * pageSize) ≠ [] := by
    rw [Ne, List.drop_eq_nil_iff]
    omega
  have hseen : isSeenPage seenPages ((rows.drop (i * pageSize)).take pageSize) = false := by
    rw [← Bool.not_eq_true]
    exact fun hseen => hfresh (hcovers.stale hseen)
  rw [fetchPages_remaining node hne]
  dsimp only
  rw [hseen, if_neg Bool.false_ne_true, if_neg fun h => hfresh ((foldl_length_iff node _ _).mp h),
    ← collectedBefore_succ, List.drop_drop, Nat.succ_mul]

/-- The loop stops with an error on the first stale page. -/
theorem fetchPages_until_stale {j : ℕ} (hij : i ≤ j) (hstale : StalePage rows j)
    (hbefore : ∀ k, i ≤ k → k < j → ¬ StalePage rows k)
    (hfuel : (rows.drop (i * pageSize)).length ≤ fuel)
    (hcovers : Covers (collectedBefore node rows i) seenPages) :
    fetchPages node (remaining (rows.drop (i * pageSize)) fuel false) seenPages
      (collectedBefore node rows i) success = ⟨collectedBefore node rows j, 1, true⟩ := by
  have hrows : i * pageSize < rows.length :=
    lt_of_le_of_lt (Nat.mul_le_mul_right _ hij) hstale.1
  induction fuel generalizing i seenPages success with
  | zero =>
    rw [List.length_drop] at hfuel
    omega
  | succ fuel ih =>
    rcases Nat.eq_or_lt_of_le hij with rfl | hlt
    · exact fetchPages_stale hstale
    · have hnext : (i + 1) * pageSize < rows.length :=
        lt_of_le_of_lt (Nat.mul_le_mul_right _ hlt) hstale.1
      have hfull : ¬ ((rows.drop (i * pageSize)).take pageSize).length < pageSize := by
        rw [List.length_take, List.length_drop]
        rw [Nat.succ_mul] at hnext
        omega
      have hcovered := hcovers.foldl ((rows.drop (i * pageSize)).take pageSize) node
      rw [← collectedBefore_succ] at hcovered
      rw [fetchPages_fresh hrows (hbefore i le_rfl hlt) hcovers, if_neg hfull]
      apply ih hlt _ _ hcovered hnext
      · exact fun k hk => hbefore k (Nat.le_of_succ_le hk)
      · rw [Nat.succ_mul, ← List.drop_drop]
        exact length_drop_le hfuel

/-- Without a stale page the loop ends without an error. -/
theorem fetchPages_no_stale (hfresh : ∀ k, i ≤ k → ¬ StalePage rows k)
    (hfuel : (rows.drop (i * pageSize)).length ≤ fuel)
    (hcovers : Covers (collectedBefore node rows i) seenPages) :
    (fetchPages node (remaining (rows.drop (i * pageSize)) fuel false) seenPages
      (collectedBefore node rows i) success).errors = 0 := by
  induction fuel generalizing i seenPages success with
  | zero =>
    have hnil : rows.drop (i * pageSize) = [] := List.length_eq_zero_iff.mp (by omega)
    rw [hnil, remaining_nil]
    rfl
  | succ fuel ih =>
    rcases Nat.lt_or_ge (i * pageSize) rows.length with hrows | hend
    · have hcovered := hcovers.foldl ((rows.drop (i * pageSize)).take pageSize) node
      rw [← collectedBefore_succ] at hcovered
      rw [fetchPages_fresh hrows (hfresh i le_rfl) hcovers]
      split_ifs
      · rfl
      · apply ih _ _ hcovered
        · exact fun k hk => hfresh k (Nat.le_of_succ_le hk)
        · rw [Nat.succ_mul, ← List.drop_drop]
          exact length_drop_le hfuel
    · have hnil : rows.drop (i * pageSize) = [] := List.drop_eq_nil_of_le hend
      rw [hnil, remaining_nil]
      rfl

/-- Served from a fixed archive, the loop reads its pages. -/
theorem fetchFrom_served {requests : ℕ} {collected : List Row}
    (hrequests : (rows.drop (i * pageSize)).length < requests) :
    fetchFrom node (served rows) requests (i * pageSize) seenPages collected success =
      some (fetchPages node (remaining (rows.drop (i * pageSize)) (requests - 1) false) seenPages
        collected success) := by
  induction requests generalizing i seenPages collected success with
  | zero => omega
  | succ requests ih =>
    unfold fetchFrom served
    dsimp only
    rcases Nat.lt_or_ge (i * pageSize) rows.length with hrows | hend
    · have hne : rows.drop (i * pageSize) ≠ [] := by
        rw [Ne, List.drop_eq_nil_iff]
        omega
      obtain ⟨fuel, hfuel⟩ : ∃ fuel, requests + 1 - 1 = fuel + 1 := by
        have hpos : 0 < (rows.drop (i * pageSize)).length := List.length_pos_of_ne_nil hne
        exact ⟨requests - 1, by omega⟩
      have hempty : ((rows.drop (i * pageSize)).take pageSize).isEmpty = false := by
        simpa [pageSize] using hrows
      rw [hfuel, fetchPages_remaining node hne, hempty, if_neg Bool.false_ne_true]
      dsimp only
      split_ifs
      · rfl
      · rfl
      · rfl
      · have hdrop : i * pageSize + pageSize = (i + 1) * pageSize := (Nat.succ_mul i _).symm
        rw [List.drop_drop, hdrop]
        change fetchFrom node (served rows) requests ((i + 1) * pageSize) _ _ true = _
        have hleft : (rows.drop ((i + 1) * pageSize)).length < requests := by
          rw [← hdrop, ← List.drop_drop]
          have hle : ((rows.drop (i * pageSize)).drop pageSize).length ≤ requests - 1 :=
            length_drop_le (by omega)
          have hpos : 0 < (rows.drop (i * pageSize)).length := List.length_pos_of_ne_nil hne
          rw [List.length_drop] at hle ⊢
          unfold pageSize at *
          omega
        rw [ih hleft]
        congr 3
        omega
    · have hnil : rows.drop (i * pageSize) = [] := List.drop_eq_nil_of_le hend
      rw [hnil, remaining_nil]
      simp [fetchPages]

theorem fetchWithin_served {requests : ℕ} (hrequests : rows.length < requests) :
    fetchWithin node (served rows) requests =
      some (fetchPages node (remaining rows (requests - 1) false) [] [] false) := by
  have h : fetchFrom node (served rows) requests (0 * pageSize) [] [] false =
      some (fetchPages node (remaining (rows.drop (0 * pageSize)) (requests - 1) false) [] []
        false) := fetchFrom_served (by simpa using hrequests)
  rw [Nat.zero_mul, List.drop_zero] at h
  exact h

end Fixed

/-- The fetch of a node's archive ends against every server with finitely many UPIDs.  A fixed
archive is returned completely and without an error, unless one of its pages brings no UPID beyond
those of the earlier ones: then the fetch stops there with one error and returns the earlier pages. -/
theorem fetchNodeArchive_ends_complete (node : String) :
    (∀ (answer : ℕ → Option (List Row)) (upids : Finset String),
      (∀ offset tasks, answer offset = some tasks → ∀ row ∈ tasks, ∀ upid, row.key = some upid →
        upid ∈ upids) →
      (fetchWithin node answer (upids.card + 1)).isSome = true) ∧
    ∀ rows : List Row, ∀ requests, rows.length < requests →
      ∃ result, fetchWithin node (served rows) requests = some result ∧
        ((∀ i, ¬ StalePage rows i) → result.errors = 0 ∧ Complete rows result) ∧
        ∀ i, StalePage rows i → (∀ k < i, ¬ StalePage rows k) →
          result.errors = 1 ∧ Complete (rows.take (i * pageSize)) result := by
  have hcomplete : ∀ read : List Row, ∀ result : ArchiveResult,
      result.tasks = read.foldl (appendUnique node) [] → Complete read result := by
    intro read result htasks
    obtain ⟨hnamed, honce⟩ := foldl_complete node read
    refine ⟨htasks ▸ honce, htasks ▸ hnamed, ?_⟩
    intro upid
    rw [htasks, foldl_keys]
    simp
  constructor
  · intro answer upids hupids
    apply fetchFrom_isSome hupids
    have hle := Finset.card_filter_le upids fun upid => some upid ∉ ([] : List Row).map Row.key
    exact Nat.lt_succ_of_le hle
  · intro rows requests hrequests
    have hcovers : Covers (collectedBefore node rows 0) [] := fun page hpage => by simp at hpage
    have hfuel : (rows.drop (0 * pageSize)).length ≤ requests - 1 := by
      rw [Nat.zero_mul, List.drop_zero]
      omega
    refine ⟨_, fetchWithin_served hrequests, ?_, ?_⟩
    · intro hfresh
      have herrors : (fetchPages node (remaining (rows.drop (0 * pageSize)) (requests - 1) false)
          [] (collectedBefore node rows 0) false).errors = 0 :=
        fetchPages_no_stale (fun k _ => hfresh k) hfuel hcovers
      rw [Nat.zero_mul, List.drop_zero, collectedBefore_zero] at herrors
      exact ⟨herrors, hcomplete _ _ (fetchPages_foldl (by omega) herrors)⟩
    · intro i hstale hbefore
      have hstop : fetchPages node (remaining (rows.drop (0 * pageSize)) (requests - 1) false) []
          (collectedBefore node rows 0) false = ⟨collectedBefore node rows i, 1, true⟩ :=
        fetchPages_until_stale (Nat.zero_le i) hstale (fun k _ => hbefore k) hfuel hcovers
      rw [Nat.zero_mul, List.drop_zero, collectedBefore_zero] at hstop
      rw [hstop]
      exact ⟨rfl, hcomplete _ _ rfl⟩

def archivedTask (upid : String) : Row where
  upid := some upid
  id := none
  vmid := none
  node := none
  type := none
  user := none
  status := none
  exitstatus := none
  pid := none
  pstart := none
  starttime := none
  endtime := none

/-- Two pages of one task, and another task behind them. -/
def repeatedTask : List Row :=
  List.replicate pageSize (archivedTask "UPID:a") ++
    (List.replicate pageSize (archivedTask "UPID:a") ++ [archivedTask "UPID:b"])

theorem take_repeatedTask :
    repeatedTask.take pageSize = List.replicate pageSize (archivedTask "UPID:a") :=
  List.take_left' List.length_replicate

theorem repeatedTask_stale : StalePage repeatedTask 1 ∧ ¬ StalePage repeatedTask 0 := by
  constructor
  · refine ⟨by simp [repeatedTask], ?_⟩
    have hdrop : repeatedTask.drop pageSize =
        List.replicate pageSize (archivedTask "UPID:a") ++ [archivedTask "UPID:b"] :=
      List.drop_left' List.length_replicate
    rw [Nat.one_mul, hdrop, List.take_left' List.length_replicate, take_repeatedTask]
    intro row hrow upid hkey
    exact hkey ▸ List.mem_map_of_mem hrow
  · rintro ⟨-, hstale⟩
    have hmem : archivedTask "UPID:a" ∈ (repeatedTask.drop (0 * pageSize)).take pageSize := by
      rw [Nat.zero_mul, List.drop_zero, take_repeatedTask, List.mem_replicate]
      exact ⟨by decide, rfl⟩
    have hread := hstale _ hmem "UPID:a" (by decide)
    rw [Nat.zero_mul, List.take_zero] at hread
    contradiction

/-- The second page repeats the first one, and the task behind it is not returned. -/
theorem task_behind_repeated_page : ∃ result,
    fetchWithin "pve" (served repeatedTask) (repeatedTask.length + 1) = some result ∧
      result.errors = 1 ∧ ¬ Complete repeatedTask result := by
  have hcovers : Covers (collectedBefore "pve" repeatedTask 0) [] := fun page hpage => by
    simp at hpage
  have hfuel : (repeatedTask.drop (0 * pageSize)).length ≤ repeatedTask.length := by
    rw [Nat.zero_mul, List.drop_zero]
  have hbefore : ∀ k, 0 ≤ k → k < 1 → ¬ StalePage repeatedTask k := by
    intro k _ hk
    obtain rfl : k = 0 := by omega
    exact repeatedTask_stale.2
  have hstop : fetchPages "pve" (remaining (repeatedTask.drop (0 * pageSize)) repeatedTask.length
      false) [] (collectedBefore "pve" repeatedTask 0) false =
      ⟨collectedBefore "pve" repeatedTask 1, 1, true⟩ :=
    fetchPages_until_stale (Nat.zero_le 1) repeatedTask_stale.1 hbefore hfuel hcovers
  rw [Nat.zero_mul, List.drop_zero, collectedBefore_zero] at hstop
  have hrequests : repeatedTask.length < repeatedTask.length + 1 := by omega
  have hresult : fetchWithin "pve" (served repeatedTask) (repeatedTask.length + 1) = some _ :=
    fetchWithin_served hrequests
  rw [Nat.add_sub_cancel, hstop] at hresult
  refine ⟨_, hresult, rfl, ?_⟩
  intro hcomplete
  have hmem : some "UPID:b" ∈ repeatedTask.map Row.key :=
    List.mem_map.mpr ⟨archivedTask "UPID:b", by simp [repeatedTask], by decide⟩
  have hread := (hcomplete.all "UPID:b").mpr hmem
  dsimp only at hread
  rw [collectedBefore, foldl_keys, Nat.one_mul, take_repeatedTask, List.map_replicate,
    List.mem_replicate] at hread
  rcases hread with hnil | hfirst
  · simp at hnil
  · exact absurd hfirst.2 (by decide)

end ProxboxApi.TaskHistory
