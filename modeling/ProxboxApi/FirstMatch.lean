import Mathlib.Data.List.Basic
import Mathlib.Data.List.Nodup

/-! Tables of rows with ids, in which items are looked up by a key at once: an item changes the first
row with its key, by the id of the row, or is appended as a new row. Rows may share a key. -/

namespace FirstMatch

variable {ρ δ κ : Type} [DecidableEq κ]

/-- Rows, and the id of the next one. -/
@[ext]
structure Table (ρ : Type) where
  rows : List ρ
  next : ℕ

/-- The id of a row, the key of a row, if it has one, and of an item, whether a row differs from an
item, the row that the item makes of it, and the one that it makes under an id. -/
structure Spec (ρ δ κ : Type) where
  id : ρ → ℕ
  rowKey : ρ → Option κ
  key : δ → κ
  differs : δ → ρ → Bool
  change : δ → ρ → ρ
  make : ℕ → δ → ρ

variable (spec : Spec ρ δ κ)

/-- The items without those whose key an earlier one has. -/
def Spec.firstOfKeys : List κ → List δ → List δ
  | _, [] => []
  | seen, d :: ds =>
    if spec.key d ∈ seen then Spec.firstOfKeys seen ds
    else d :: Spec.firstOfKeys (spec.key d :: seen) ds

def Spec.hits (d : δ) (r : ρ) : Bool := spec.rowKey r = some (spec.key d)

/-- The row of an item. -/
def Spec.matched (rows : List ρ) (d : δ) : Option ρ := rows.find? (spec.hits d)

/-- The items without a row. -/
def Spec.creations (rows : List ρ) (ds : List δ) : List δ :=
  ds.filter fun d => (spec.matched rows d).isNone

/-- The items with their rows, where these differ. -/
def Spec.patches (rows : List ρ) (ds : List δ) : List (δ × ρ) :=
  (ds.filterMap fun d => (spec.matched rows d).map fun r => (d, r)).filter fun dr =>
    spec.differs dr.1 dr.2

def Spec.made : ℕ → List δ → List ρ
  | _, [] => []
  | next, d :: ds => spec.make next d :: Spec.made (next + 1) ds

/-- What a patch makes of a row. -/
def Spec.patchRow (r : ρ) (dr : δ × ρ) : ρ :=
  if spec.id r = spec.id dr.2 then spec.change dr.1 r else r

def Spec.patch (rows : List ρ) (dr : δ × ρ) : List ρ := rows.map fun r => spec.patchRow r dr

/-- All items at once: the rows are created, then changed. -/
def Spec.bulk (t : Table ρ) (items : List δ) : Table ρ :=
  let ds := spec.firstOfKeys [] items
  let created := spec.creations t.rows ds
  { rows := (spec.patches t.rows ds).foldl spec.patch (t.rows ++ spec.made t.next created)
    next := t.next + created.length }

/-- The ids are distinct, and below the next one. -/
structure Spec.Sound (t : Table ρ) : Prop where
  ids : (t.rows.map spec.id).Nodup
  next : ∀ r ∈ t.rows, spec.id r < t.next

/-- New rows have their ids, changed ones keep theirs. -/
structure Spec.Lawful : Prop where
  make : ∀ id d, spec.id (spec.make id d) = id
  change : ∀ d r, spec.id (spec.change d r) = spec.id r

/-- What the items make of a row: the one whose row it is, if the row differs. -/
def Spec.merged (rows : List ρ) (ds : List δ) (r : ρ) : ρ :=
  match ds.find? fun d => (spec.matched rows d).map spec.id = some (spec.id r) with
  | some d => if spec.differs d r then spec.change d r else r
  | none => r

variable {spec} {t : Table ρ} {rows : List ρ} {ds : List δ} {d : δ} {r : ρ}

theorem mem_firstOfKeys {seen : List κ} (h : d ∈ spec.firstOfKeys seen ds) :
    d ∈ ds ∧ spec.key d ∉ seen := by
  induction ds generalizing seen with
  | nil => simp [Spec.firstOfKeys] at h
  | cons d' ds ih =>
    rw [Spec.firstOfKeys] at h
    split at h
    · obtain ⟨hmem, hseen⟩ := ih h
      exact ⟨List.mem_cons_of_mem _ hmem, hseen⟩
    · rename_i hnew
      rcases List.mem_cons.mp h with rfl | h
      · exact ⟨List.mem_cons_self .., hnew⟩
      · obtain ⟨hmem, hseen⟩ := ih h
        exact ⟨List.mem_cons_of_mem _ hmem, fun hin => hseen (List.mem_cons_of_mem _ hin)⟩

theorem firstOfKeys_nodup (seen : List κ) (ds : List δ) :
    ((spec.firstOfKeys seen ds).map spec.key).Nodup := by
  induction ds generalizing seen with
  | nil => exact List.nodup_nil
  | cons d ds ih =>
    rw [Spec.firstOfKeys]
    split
    · exact ih seen
    · rw [List.map_cons, List.nodup_cons]
      refine ⟨?_, ih _⟩
      intro hin
      obtain ⟨d', hd', heq⟩ := List.mem_map.mp hin
      exact (mem_firstOfKeys hd').2 (heq ▸ List.mem_cons_self ..)

/-- Each key of the items is that of one that is kept. -/
theorem exists_firstOfKeys (seen : List κ) (h : d ∈ ds) (hseen : spec.key d ∉ seen) :
    ∃ d' ∈ spec.firstOfKeys seen ds, spec.key d' = spec.key d := by
  induction ds generalizing seen with
  | nil => simp at h
  | cons d₀ ds ih =>
    rw [Spec.firstOfKeys]
    by_cases heq : spec.key d₀ = spec.key d
    · rw [if_neg (heq ▸ hseen)]
      exact ⟨d₀, List.mem_cons_self .., heq⟩
    · have hmem : d ∈ ds := by
        rcases List.mem_cons.mp h with rfl | hmem
        · exact absurd rfl heq
        · exact hmem
      split
      · exact ih seen hmem hseen
      · obtain ⟨d', hd', hkey⟩ := ih (spec.key d₀ :: seen) hmem
          (by rw [List.mem_cons, not_or]; exact ⟨Ne.symm heq, hseen⟩)
        exact ⟨d', List.mem_cons_of_mem _ hd', hkey⟩

theorem hits_iff : spec.hits d r = true ↔ spec.rowKey r = some (spec.key d) := by
  rw [Spec.hits, decide_eq_true_eq]

theorem mem_of_matched (h : spec.matched rows d = some r) :
    r ∈ rows ∧ spec.rowKey r = some (spec.key d) :=
  ⟨List.mem_of_find?_eq_some h, hits_iff.mp (List.find?_some h)⟩

theorem matched_eq_none_iff : spec.matched rows d = none ↔
    ∀ r ∈ rows, spec.rowKey r ≠ some (spec.key d) := by
  rw [Spec.matched, List.find?_eq_none]
  refine forall₂_congr fun r _ => ?_
  rw [hits_iff]

/-- The row of an item is that of its key. -/
theorem matched_congr {d' : δ} (h : spec.key d' = spec.key d) :
    spec.matched rows d' = spec.matched rows d := by
  have hhits : spec.hits d' = spec.hits d := by
    funext r
    rw [Spec.hits, Spec.hits, h]
  rw [Spec.matched, Spec.matched, hhits]

theorem mem_patches {dr : δ × ρ} : dr ∈ spec.patches rows ds ↔
    dr.1 ∈ ds ∧ spec.matched rows dr.1 = some dr.2 ∧ spec.differs dr.1 dr.2 = true := by
  obtain ⟨d, r⟩ := dr
  rw [Spec.patches, List.mem_filter, List.mem_filterMap]
  constructor
  · rintro ⟨⟨d', hd', heq⟩, hdiffers⟩
    obtain ⟨r', hr', heq⟩ := Option.map_eq_some_iff.mp heq
    simp only [Prod.mk.injEq] at heq
    obtain ⟨rfl, rfl⟩ := heq
    exact ⟨hd', hr', hdiffers⟩
  · rintro ⟨hd, hr, hdiffers⟩
    exact ⟨⟨d, hd, by rw [hr]; rfl⟩, hdiffers⟩

theorem patches_cons : spec.patches rows (d :: ds) = (match spec.matched rows d with
    | some r => if spec.differs d r then [(d, r)] else []
    | none => []) ++ spec.patches rows ds := by
  unfold Spec.patches
  cases hmatched : spec.matched rows d with
  | none => simp [hmatched]
  | some r =>
    by_cases hdiffers : spec.differs d r = true
    · simp [hmatched, hdiffers]
    · simp [hmatched, hdiffers]

omit [DecidableEq κ] in
theorem foldl_patch_eq (us : List (δ × ρ)) (rows : List ρ) :
    us.foldl spec.patch rows = rows.map fun r => us.foldl spec.patchRow r := by
  induction us generalizing rows with
  | nil => simp
  | cons u us ih =>
    rw [List.foldl_cons, ih, Spec.patch, List.map_map]
    rfl

omit [DecidableEq κ] in
/-- A row whose id no patch has stays as it is. -/
theorem foldl_patchRow_of_ne {us : List (δ × ρ)} (h : ∀ u ∈ us, spec.id r ≠ spec.id u.2) :
    us.foldl spec.patchRow r = r := by
  induction us with
  | nil => rfl
  | cons u us ih =>
    rw [List.forall_mem_cons] at h
    rw [List.foldl_cons, Spec.patchRow, if_neg h.1]
    exact ih h.2

/-- The row of an item has the key of no other item. -/
theorem key_eq_of_matched {d' : δ} {r' : ρ} (h : spec.matched rows d = some r)
    (h' : spec.matched rows d' = some r') (hrow : r = r') : spec.key d = spec.key d' := by
  have hkey := (mem_of_matched h).2
  rw [hrow, (mem_of_matched h').2, Option.some.injEq] at hkey
  exact hkey.symm

/-- The patches of items none of which has the row. -/
theorem foldl_patches_of_ne {r' : ρ} (hid : spec.id r' = spec.id r)
    (hnone : ∀ d ∈ ds, (spec.matched rows d).map spec.id ≠ some (spec.id r)) :
    (spec.patches rows ds).foldl spec.patchRow r' = r' := by
  apply foldl_patchRow_of_ne
  intro u hu heq
  obtain ⟨hu, hmatched, _⟩ := mem_patches.mp hu
  refine hnone u.1 hu ?_
  rw [hmatched, Option.map_some, ← heq, hid]

/-- The patches of items with distinct keys change each row at most once. -/
theorem foldl_patches_eq (hlawful : spec.Lawful) (hids : (rows.map spec.id).Nodup)
    (hkeys : (ds.map spec.key).Nodup) (hr : r ∈ rows) :
    (spec.patches rows ds).foldl spec.patchRow r = spec.merged rows ds r := by
  induction ds with
  | nil => rfl
  | cons d ds ih =>
    rw [List.map_cons, List.nodup_cons] at hkeys
    rw [patches_cons, List.foldl_append, Spec.merged, List.find?_cons]
    by_cases hrow : (spec.matched rows d).map spec.id = some (spec.id r)
    · obtain ⟨r', hmatched, hid⟩ := Option.map_eq_some_iff.mp hrow
      obtain rfl : r' = r :=
        List.inj_on_of_nodup_map hids (mem_of_matched hmatched).1 hr hid
      have hrest : ∀ d' ∈ ds, (spec.matched rows d').map spec.id ≠ some (spec.id r') := by
        intro d' hd' heq
        obtain ⟨r'', hmatched', hid'⟩ := Option.map_eq_some_iff.mp heq
        obtain rfl : r'' = r' :=
          List.inj_on_of_nodup_map hids (mem_of_matched hmatched').1 hr hid'
        exact hkeys.1 (key_eq_of_matched hmatched hmatched' rfl ▸ List.mem_map_of_mem hd')
      simp only [hmatched, Option.map_some, decide_true]
      split
      · rw [List.foldl_cons, List.foldl_nil, Spec.patchRow, if_pos rfl]
        exact foldl_patches_of_ne (hlawful.change d r') hrest
      · exact foldl_patches_of_ne rfl hrest
    · have hnone : (match spec.matched rows d with
          | some r => if spec.differs d r then [(d, r)] else []
          | none => []).foldl spec.patchRow r = r := by
        apply foldl_patchRow_of_ne
        intro u hu heq
        cases hmatched : spec.matched rows d with
        | none => simp [hmatched] at hu
        | some r' =>
          rw [hmatched, Option.map_some, Option.some.injEq] at hrow
          simp only [hmatched] at hu
          split at hu
          · rw [List.mem_singleton.mp hu] at heq
            exact hrow heq.symm
          · simp at hu
      rw [hnone, ih hkeys.2]
      simp only [hrow, decide_false]
      rfl

omit [DecidableEq κ] in
theorem made_ids (hlawful : spec.Lawful) (next : ℕ) (ds : List δ) :
    ∀ r ∈ spec.made next ds, next ≤ spec.id r ∧ spec.id r < next + ds.length := by
  induction ds generalizing next with
  | nil => simp [Spec.made]
  | cons d ds ih =>
    intro r hr
    rw [Spec.made] at hr
    rw [List.length_cons]
    rcases List.mem_cons.mp hr with rfl | hr
    · rw [hlawful.make]
      omega
    · obtain ⟨hlow, hhigh⟩ := ih (next + 1) r hr
      omega

/-- The rows that the items make at once. -/
theorem bulk_rows (hlawful : spec.Lawful) (hsound : spec.Sound t) (items : List δ) :
    (spec.bulk t items).rows = t.rows.map (spec.merged t.rows (spec.firstOfKeys [] items)) ++
      spec.made t.next (spec.creations t.rows (spec.firstOfKeys [] items)) := by
  unfold Spec.bulk
  dsimp only
  rw [foldl_patch_eq, List.map_append]
  congr 1
  · apply List.map_congr_left
    intro r hr
    exact foldl_patches_eq hlawful hsound.ids (firstOfKeys_nodup [] items) hr
  · -- no patch is for a new row
    refine (List.map_congr_left ?_).trans (List.map_id _)
    intro r hr
    have hlow := (made_ids hlawful _ _ r hr).1
    apply foldl_patchRow_of_ne
    intro u hu heq
    have hold := hsound.next u.2 (mem_of_matched (mem_patches.mp hu).2.1).1
    omega

theorem bulk_next (spec : Spec ρ δ κ) (t : Table ρ) (items : List δ) : (spec.bulk t items).next =
    t.next + (spec.creations t.rows (spec.firstOfKeys [] items)).length := rfl

/-- A row that is changed keeps its key, a new one has that of its item, and neither is changed by
its item again. -/
structure Spec.Stable (spec : Spec ρ δ κ) : Prop extends spec.Lawful where
  change_key : ∀ d r, spec.rowKey r = some (spec.key d) →
    spec.rowKey (spec.change d r) = spec.rowKey r
  make_key : ∀ id d, spec.rowKey (spec.make id d) = some (spec.key d)
  change_change : ∀ d r, spec.change d (spec.change d r) = spec.change d r
  change_make : ∀ id d, spec.change d (spec.make id d) = spec.make id d

theorem firstOfKeys_congr {seen seen' : List κ} (h : ∀ k, k ∈ seen ↔ k ∈ seen') (ds : List δ) :
    spec.firstOfKeys seen ds = spec.firstOfKeys seen' ds := by
  induction ds generalizing seen seen' with
  | nil => rfl
  | cons d ds ih =>
    rw [Spec.firstOfKeys, Spec.firstOfKeys]
    simp only [h (spec.key d)]
    split
    · exact ih h
    · have hcons : ∀ k, k ∈ spec.key d :: seen ↔ k ∈ spec.key d :: seen' := by
        intro k
        simp only [List.mem_cons, h k]
      rw [ih hcons]

/-- A key that a filter excludes may as well have been seen. -/
theorem filter_firstOfKeys {p : δ → Bool} {k : κ} (hp : ∀ d, spec.key d = k → p d = false)
    (seen : List κ) (ds : List δ) :
    (spec.firstOfKeys (k :: seen) ds).filter p = (spec.firstOfKeys seen ds).filter p := by
  induction ds generalizing seen with
  | nil => rfl
  | cons d ds ih =>
    rw [Spec.firstOfKeys, Spec.firstOfKeys]
    by_cases hk : spec.key d = k
    · rw [if_pos (List.mem_cons.mpr (.inl hk)), ih]
      split
      · rfl
      · rw [List.filter_cons_of_neg (by simp [hp d hk]), hk, ih]
    · have hiff : spec.key d ∈ k :: seen ↔ spec.key d ∈ seen := by
        rw [List.mem_cons, or_iff_right hk]
      simp only [hiff]
      split
      · exact ih seen
      · have hswap : spec.firstOfKeys (spec.key d :: k :: seen) ds =
            spec.firstOfKeys (k :: spec.key d :: seen) ds :=
          firstOfKeys_congr (fun k' => by simp only [List.mem_cons]; exact or_left_comm) ds
        rw [List.filter_cons, List.filter_cons, hswap, ih]

/-- One item, which changes its row. -/
theorem bulk_singleton_of_some (hlawful : spec.Lawful) (hsound : spec.Sound t)
    (h : spec.matched t.rows d = some r) : spec.bulk t [d] = { t with
      rows := t.rows.map fun r' =>
        if spec.id r' = spec.id r ∧ spec.differs d r' = true then spec.change d r' else r' } := by
  have hone : spec.firstOfKeys [] [d] = [d] := by simp [Spec.firstOfKeys]
  have hcreations : spec.creations t.rows [d] = [] := by simp [Spec.creations, h]
  have hrows := bulk_rows hlawful hsound [d]
  have hnext := bulk_next spec t [d]
  rw [hone, hcreations] at hrows hnext
  have hmap : t.rows.map (spec.merged t.rows [d]) = t.rows.map fun r' =>
      if spec.id r' = spec.id r ∧ spec.differs d r' = true then spec.change d r' else r' := by
    apply List.map_congr_left
    intro r' _
    by_cases hid : spec.id r' = spec.id r
    · simp [Spec.merged, h, hid]
    · simp [Spec.merged, h, hid, Ne.symm hid]
  rw [hmap] at hrows
  cases hbulk : spec.bulk t [d] with
  | mk rows next =>
    rw [hbulk] at hrows hnext
    simp only [Spec.made, List.append_nil, List.length_nil, Nat.add_zero] at hrows hnext
    rw [hrows, hnext]

/-- One item, which is new. -/
theorem bulk_singleton_of_none (hlawful : spec.Lawful) (hsound : spec.Sound t)
    (h : spec.matched t.rows d = none) : spec.bulk t [d] =
      { rows := t.rows ++ [spec.make t.next d], next := t.next + 1 } := by
  have hone : spec.firstOfKeys [] [d] = [d] := by simp [Spec.firstOfKeys]
  have hcreations : spec.creations t.rows [d] = [d] := by simp [Spec.creations, h]
  have hrows := bulk_rows hlawful hsound [d]
  have hnext := bulk_next spec t [d]
  rw [hone, hcreations] at hrows hnext
  have hmap : t.rows.map (spec.merged t.rows [d]) = t.rows := by
    refine (List.map_congr_left ?_).trans (List.map_id _)
    intro r' _
    simp [Spec.merged, h]
  rw [hmap] at hrows
  cases hbulk : spec.bulk t [d] with
  | mk rows next =>
    rw [hbulk] at hrows hnext
    simp only [Spec.made, List.length_singleton] at hrows hnext
    rw [hrows, hnext]

omit [DecidableEq κ] in
theorem made_map_id (hlawful : spec.Lawful) (next : ℕ) (ds : List δ) :
    (spec.made next ds).map spec.id = List.range' next ds.length := by
  induction ds generalizing next with
  | nil => rfl
  | cons d ds ih => rw [Spec.made, List.map_cons, hlawful.make, ih, List.length_cons, List.range'_succ]

theorem id_merged (hlawful : spec.Lawful) (rows : List ρ) (ds : List δ) (r : ρ) :
    spec.id (spec.merged rows ds r) = spec.id r := by
  unfold Spec.merged
  split
  · split
    · exact hlawful.change _ _
    · rfl
  · rfl

theorem bulk_map_id (hlawful : spec.Lawful) (hsound : spec.Sound t) (items : List δ) :
    (spec.bulk t items).rows.map spec.id = t.rows.map spec.id ++
      List.range' t.next (spec.creations t.rows (spec.firstOfKeys [] items)).length := by
  rw [bulk_rows hlawful hsound, List.map_append, made_map_id hlawful, List.map_map]
  congr 1
  apply List.map_congr_left
  intro r _
  exact id_merged hlawful _ _ r

/-- What the items make of a sound table is sound. -/
theorem bulk_sound (hlawful : spec.Lawful) (hsound : spec.Sound t) (items : List δ) :
    spec.Sound (spec.bulk t items) := by
  have hids := bulk_map_id hlawful hsound items
  constructor
  · rw [hids]
    apply List.Nodup.append hsound.ids List.nodup_range'
    intro id hold hnew
    obtain ⟨r, hr, rfl⟩ := List.mem_map.mp hold
    have hlow := hsound.next r hr
    rw [List.mem_range'_1] at hnew
    omega
  · intro r hr
    have hmem : spec.id r ∈ (spec.bulk t items).rows.map spec.id := List.mem_map_of_mem hr
    rw [hids, List.mem_append] at hmem
    rw [bulk_next]
    rcases hmem with hold | hnew
    · obtain ⟨r', hr', heq⟩ := List.mem_map.mp hold
      have hlow := hsound.next r' hr'
      omega
    · rw [List.mem_range'_1] at hnew
      exact hnew.2

/-- Items of one key are the same. -/
def Spec.Uniform (spec : Spec ρ δ κ) (ds : List δ) : Prop :=
  ∀ d ∈ ds, ∀ d' ∈ ds, spec.key d = spec.key d' → d = d'

/-- The first of the items that is fit is the same where the items that are not fit are left out. -/
theorem find?_firstOfKeys {p : δ → Bool} {k : κ} (hp : ∀ d, spec.key d = k → p d = false)
    (ds : List δ) : (spec.firstOfKeys [k] ds).find? p = (spec.firstOfKeys [] ds).find? p := by
  rw [← List.head?_filter, ← List.head?_filter, filter_firstOfKeys hp]

theorem firstOfKeys_cons_nil (d : δ) (ds : List δ) :
    spec.firstOfKeys [] (d :: ds) = d :: spec.firstOfKeys [spec.key d] ds := by
  rw [Spec.firstOfKeys, if_neg List.not_mem_nil]

theorem matched_append_singleton {m : ρ} (hm : spec.rowKey m = some (spec.key d))
    (hnone : spec.matched rows d = none) (d' : δ) : spec.matched (rows ++ [m]) d' =
      if spec.key d' = spec.key d then some m else spec.matched rows d' := by
  unfold Spec.matched
  rw [List.find?_append]
  split
  · rename_i hkey
    have hnone' : rows.find? (spec.hits d') = none := (matched_congr hkey).trans hnone
    have hhit : spec.hits d' m = true := by rw [hits_iff, hm, hkey]
    rw [hnone', List.find?_cons_of_pos hhit]
    rfl
  · rename_i hkey
    have hmiss : ¬spec.hits d' m = true := by
      rw [hits_iff, hm, Option.some.injEq]
      exact fun h => hkey h.symm
    rw [List.find?_cons_of_neg hmiss, List.find?_nil, Option.or_none]

/-- The rows of the items, after a change of rows that keeps their keys. -/
theorem matched_map {g : ρ → ρ} (hkey : ∀ r ∈ rows, spec.rowKey (g r) = spec.rowKey r) (d : δ) :
    spec.matched (rows.map g) d = (spec.matched rows d).map g := by
  unfold Spec.matched
  induction rows with
  | nil => rfl
  | cons r rows ih =>
    rw [List.forall_mem_cons] at hkey
    have hhits : spec.hits d (g r) = spec.hits d r := by rw [Spec.hits, Spec.hits, hkey.1]
    rw [List.map_cons, List.find?_cons, List.find?_cons, hhits]
    split
    · rfl
    · exact ih hkey.2

/-- An item after others of which none has its row leaves the row to them. -/
theorem merged_cons_of_ne (h : (spec.matched rows d).map spec.id ≠ some (spec.id r)) :
    spec.merged rows (d :: ds) r = spec.merged rows ds r := by
  unfold Spec.merged
  rw [List.find?_cons_of_neg (by simpa using h)]

theorem merged_cons_of_eq (h : (spec.matched rows d).map spec.id = some (spec.id r)) :
    spec.merged rows (d :: ds) r = if spec.differs d r then spec.change d r else r := by
  unfold Spec.merged
  rw [List.find?_cons_of_pos (by simpa using h)]

variable (ds) in
/-- The creations after an item that is new. -/
theorem creations_cons_of_none {m : ρ} (hm : spec.rowKey m = some (spec.key d))
    (h : spec.matched rows d = none) :
    spec.creations rows (spec.firstOfKeys [] (d :: ds)) =
      d :: spec.creations (rows ++ [m]) (spec.firstOfKeys [] ds) := by
  have hmatched := matched_append_singleton hm h
  rw [firstOfKeys_cons_nil, Spec.creations, List.filter_cons_of_pos (by rw [h]; rfl)]
  congr 1
  have hfit : ∀ d', spec.key d' = spec.key d →
      (spec.matched (rows ++ [m]) d').isNone = false := by
    intro d' hkey
    rw [hmatched, if_pos hkey]
    rfl
  rw [Spec.creations, ← filter_firstOfKeys hfit []]
  apply List.filter_congr
  intro d' hd'
  have hkey : spec.key d' ≠ spec.key d := fun hkey =>
    (mem_firstOfKeys hd').2 (List.mem_singleton.mpr hkey)
  rw [hmatched, if_neg hkey]

/-- The row that an item made is changed by no other. -/
theorem merged_made (hstable : spec.Stable) (hsound : spec.Sound t)
    (huniform : spec.Uniform (d :: ds)) (h : spec.matched t.rows d = none) :
    spec.merged (t.rows ++ [spec.make t.next d]) (spec.firstOfKeys [] ds) (spec.make t.next d) =
      spec.make t.next d := by
  unfold Spec.merged
  split
  · rename_i d' hfind
    -- the item that has the new row is the one that made it
    have hmem := (mem_firstOfKeys (List.mem_of_find?_eq_some hfind)).1
    have hid := List.find?_some hfind
    rw [decide_eq_true_eq, matched_append_singleton (hstable.make_key t.next d) h] at hid
    split at hid
    · rename_i hkey
      obtain rfl := huniform d' (List.mem_cons_of_mem _ hmem) d (List.mem_cons_self ..) hkey
      rw [hstable.change_make, ite_self]
    · obtain ⟨r', hr', heq⟩ := Option.map_eq_some_iff.mp hid
      have hlow := hsound.next r' (mem_of_matched hr').1
      rw [hstable.make] at heq
      omega
  · rfl

/-- A new item leaves the rows that are there to the others. -/
theorem merged_cons_of_none (hstable : spec.Stable) (hsound : spec.Sound t)
    (h : spec.matched t.rows d = none) (hr : r ∈ t.rows) :
    spec.merged t.rows (spec.firstOfKeys [] (d :: ds)) r =
      spec.merged (t.rows ++ [spec.make t.next d]) (spec.firstOfKeys [] ds) r := by
  rw [firstOfKeys_cons_nil, merged_cons_of_ne (by simp [h])]
  unfold Spec.merged
  have hfit : ∀ d', spec.key d' = spec.key d →
      decide ((spec.matched t.rows d').map spec.id = some (spec.id r)) = false := by
    intro d' hkey
    rw [matched_congr hkey, h]
    rfl
  rw [find?_firstOfKeys hfit]
  congr 2
  funext d'
  rw [matched_append_singleton (hstable.make_key t.next d) h]
  split
  · rename_i hkey
    have hlow := hsound.next r hr
    have hne : spec.id (spec.make t.next d) ≠ spec.id r := by
      rw [hstable.make]
      omega
    rw [hfit d' hkey]
    simp [hne]
  · rfl

/-- An item and then the others, where the item is new. -/
theorem bulk_cons_of_none (hstable : spec.Stable) (hsound : spec.Sound t)
    (huniform : spec.Uniform (d :: ds)) (h : spec.matched t.rows d = none) :
    spec.bulk t (d :: ds) = spec.bulk (spec.bulk t [d]) ds := by
  have hlawful := hstable.toLawful
  have hsound' := bulk_sound hlawful hsound [d]
  rw [bulk_singleton_of_none hlawful hsound h] at hsound' ⊢
  have hcreations := creations_cons_of_none ds (hstable.make_key t.next d) h
  apply Table.ext
  · rw [bulk_rows hlawful hsound, bulk_rows hlawful hsound', hcreations, List.map_append,
      List.map_singleton, merged_made hstable hsound huniform h, List.append_assoc,
      List.map_congr_left fun r hr => merged_cons_of_none hstable hsound h hr, Spec.made]
    rfl
  · rw [bulk_next, bulk_next, hcreations, List.length_cons]
    dsimp only
    omega

/-- What an item makes of the rows, where its row is `r`. -/
def Spec.touched (spec : Spec ρ δ κ) (d : δ) (r r' : ρ) : ρ :=
  if spec.id r' = spec.id r ∧ spec.differs d r' = true then spec.change d r' else r'

omit [DecidableEq κ] in
theorem touched_self : spec.touched d r r = if spec.differs d r then spec.change d r else r := by
  simp [Spec.touched]

omit [DecidableEq κ] in
theorem touched_of_ne {r' : ρ} (h : spec.id r' ≠ spec.id r) : spec.touched d r r' = r' :=
  if_neg fun hboth => h hboth.1

omit [DecidableEq κ] in
theorem id_touched (hlawful : spec.Lawful) (r' : ρ) :
    spec.id (spec.touched d r r') = spec.id r' := by
  unfold Spec.touched
  split
  · exact hlawful.change d r'
  · rfl

/-- An item keeps the keys of the rows. -/
theorem rowKey_touched (hstable : spec.Stable) (hids : (rows.map spec.id).Nodup)
    (h : spec.matched rows d = some r) : ∀ r' ∈ rows,
      spec.rowKey (spec.touched d r r') = spec.rowKey r' := by
  intro r' hr'
  obtain ⟨hr, hrkey⟩ := mem_of_matched h
  by_cases hid : spec.id r' = spec.id r
  · obtain rfl : r' = r := List.inj_on_of_nodup_map hids hr' hr hid
    rw [touched_self]
    split
    · exact hstable.change_key d r' hrkey
    · rfl
  · rw [touched_of_ne hid]

variable (ds) in
/-- The creations after an item that has a row. -/
theorem creations_cons_of_some (hstable : spec.Stable) (hids : (rows.map spec.id).Nodup)
    (h : spec.matched rows d = some r) : spec.creations rows (spec.firstOfKeys [] (d :: ds)) =
      spec.creations (rows.map (spec.touched d r)) (spec.firstOfKeys [] ds) := by
  have hfit : ∀ d', spec.key d' = spec.key d → (spec.matched rows d').isNone = false := by
    intro d' hkey
    rw [matched_congr hkey, h]
    rfl
  rw [firstOfKeys_cons_nil, Spec.creations, List.filter_cons_of_neg (by simp [h]),
    filter_firstOfKeys hfit, Spec.creations]
  apply List.filter_congr
  intro d' _
  rw [matched_map (rowKey_touched hstable hids h), Option.isNone_map]

/-- The row of an item is changed by no other. -/
theorem merged_touched_self (hstable : spec.Stable) (hids : (rows.map spec.id).Nodup)
    (huniform : spec.Uniform (d :: ds)) (h : spec.matched rows d = some r) :
    spec.merged (rows.map (spec.touched d r)) (spec.firstOfKeys [] ds) (spec.touched d r r) =
      spec.touched d r r := by
  have hr := (mem_of_matched h).1
  unfold Spec.merged
  split
  · rename_i d' hfind
    -- the row is that of the item, which changes nothing again
    have hmem := (mem_firstOfKeys (List.mem_of_find?_eq_some hfind)).1
    have hid := List.find?_some hfind
    rw [decide_eq_true_eq, matched_map (rowKey_touched hstable hids h), Option.map_map] at hid
    obtain ⟨r', hr', heq⟩ := Option.map_eq_some_iff.mp hid
    rw [Function.comp_apply, id_touched hstable.toLawful, id_touched hstable.toLawful] at heq
    have hsame : r' = r := List.inj_on_of_nodup_map hids (mem_of_matched hr').1 hr heq
    have hkey : spec.key d' = spec.key d := key_eq_of_matched hr' h hsame
    obtain rfl := huniform d' (List.mem_cons_of_mem _ hmem) d (List.mem_cons_self ..) hkey
    rw [touched_self]
    by_cases hdiffers : spec.differs d' r = true
    · rw [if_pos hdiffers, hstable.change_change, ite_self]
    · rw [if_neg hdiffers, if_neg hdiffers]
  · rfl

/-- An item that has a row leaves the other rows to the others. -/
theorem merged_touched_of_ne (hstable : spec.Stable) (hids : (rows.map spec.id).Nodup)
    (h : spec.matched rows d = some r) {r' : ρ} (hid : spec.id r' ≠ spec.id r) :
    spec.merged rows (spec.firstOfKeys [spec.key d] ds) r' =
      spec.merged (rows.map (spec.touched d r)) (spec.firstOfKeys [] ds) r' := by
  unfold Spec.merged
  have hfit : ∀ d', spec.key d' = spec.key d →
      decide ((spec.matched rows d').map spec.id = some (spec.id r')) = false := by
    intro d' hkey
    rw [matched_congr hkey, h]
    simpa using Ne.symm hid
  rw [find?_firstOfKeys hfit]
  congr 2
  funext d'
  rw [matched_map (rowKey_touched hstable hids h), Option.map_map]
  congr 3
  funext r''
  exact (id_touched hstable.toLawful r'').symm

/-- What an item with a row and the others make of a row. -/
theorem merged_cons_of_some (hstable : spec.Stable) (hids : (rows.map spec.id).Nodup)
    (huniform : spec.Uniform (d :: ds)) (h : spec.matched rows d = some r) {r' : ρ}
    (hr' : r' ∈ rows) : spec.merged rows (spec.firstOfKeys [] (d :: ds)) r' =
      spec.merged (rows.map (spec.touched d r)) (spec.firstOfKeys [] ds)
        (spec.touched d r r') := by
  rw [firstOfKeys_cons_nil]
  by_cases hid : spec.id r' = spec.id r
  · obtain rfl : r' = r := List.inj_on_of_nodup_map hids hr' (mem_of_matched h).1 hid
    rw [merged_cons_of_eq (by rw [h]; rfl), merged_touched_self hstable hids huniform h,
      touched_self]
  · rw [touched_of_ne hid, merged_cons_of_ne (by rw [h]; simpa using Ne.symm hid),
      merged_touched_of_ne hstable hids h hid]

/-- An item and then the others, where the item has a row. -/
theorem bulk_cons_of_some (hstable : spec.Stable) (hsound : spec.Sound t)
    (huniform : spec.Uniform (d :: ds)) (h : spec.matched t.rows d = some r) :
    spec.bulk t (d :: ds) = spec.bulk (spec.bulk t [d]) ds := by
  have hlawful := hstable.toLawful
  have hone : spec.bulk t [d] = { t with rows := t.rows.map (spec.touched d r) } :=
    bulk_singleton_of_some hlawful hsound h
  have hsound' := bulk_sound hlawful hsound [d]
  rw [hone] at hsound' ⊢
  have hcreations := creations_cons_of_some ds hstable hsound.ids h
  apply Table.ext
  · rw [bulk_rows hlawful hsound, bulk_rows hlawful hsound', hcreations, List.map_map,
      List.map_congr_left fun r' hr' => merged_cons_of_some hstable hsound.ids huniform h hr']
    rfl
  · rw [bulk_next, bulk_next, hcreations]

omit [DecidableEq κ] in
theorem Spec.Uniform.tail (h : spec.Uniform (d :: ds)) : spec.Uniform ds :=
  fun d₁ h₁ d₂ h₂ => h d₁ (List.mem_cons_of_mem _ h₁) d₂ (List.mem_cons_of_mem _ h₂)

/-- Items of which those of one key are the same do at once what they do one by one. -/
theorem bulk_eq_foldl (hstable : spec.Stable) (hsound : spec.Sound t) (h : spec.Uniform ds) :
    spec.bulk t ds = ds.foldl (fun t d => spec.bulk t [d]) t := by
  induction ds generalizing t with
  | nil =>
    unfold Spec.bulk
    simp [Spec.firstOfKeys, Spec.creations, Spec.patches, Spec.made]
  | cons d ds ih =>
    have hcons : spec.bulk t (d :: ds) = spec.bulk (spec.bulk t [d]) ds := by
      cases hmatched : spec.matched t.rows d with
      | none => exact bulk_cons_of_none hstable hsound h hmatched
      | some r => exact bulk_cons_of_some hstable hsound h hmatched
    rw [hcons, List.foldl_cons]
    exact ih (bulk_sound hstable.toLawful hsound [d]) h.tail

/-- The row of an item that changes a row is the row that it changes. -/
theorem rowKey_merged (hstable : spec.Stable) (hids : (rows.map spec.id).Nodup) (hr : r ∈ rows)
    (ds : List δ) : spec.rowKey (spec.merged rows ds r) = spec.rowKey r := by
  unfold Spec.merged
  split
  · rename_i d hfind
    have hid := List.find?_some hfind
    rw [decide_eq_true_eq] at hid
    obtain ⟨r', hmatched, heq⟩ := Option.map_eq_some_iff.mp hid
    obtain ⟨hr', hkey⟩ := mem_of_matched hmatched
    obtain rfl : r' = r := List.inj_on_of_nodup_map hids hr' hr heq
    split
    · exact hstable.change_key d r' hkey
    · rfl
  · rfl

omit [DecidableEq κ] in
theorem exists_made (next : ℕ) (h : d ∈ ds) : ∃ id, spec.make id d ∈ spec.made next ds := by
  induction ds generalizing next with
  | nil => simp at h
  | cons d' ds ih =>
    rw [Spec.made]
    rcases List.mem_cons.mp h with rfl | h
    · exact ⟨next, List.mem_cons_self ..⟩
    · obtain ⟨id, hid⟩ := ih (next + 1) h
      exact ⟨id, List.mem_cons_of_mem _ hid⟩

/-- Every item has a row in the end. -/
theorem exists_bulk (hstable : spec.Stable) (hsound : spec.Sound t) {items : List δ}
    (h : d ∈ items) : ∃ r ∈ (spec.bulk t items).rows, spec.rowKey r = some (spec.key d) := by
  obtain ⟨d', hd', hkey⟩ : ∃ d' ∈ spec.firstOfKeys [] items, spec.key d' = spec.key d :=
    exists_firstOfKeys [] h List.not_mem_nil
  rw [bulk_rows hstable.toLawful hsound]
  cases hmatched : spec.matched t.rows d' with
  | some r =>
    obtain ⟨hr, hrow⟩ := mem_of_matched hmatched
    refine ⟨_, List.mem_append_left _ (List.mem_map_of_mem hr), ?_⟩
    rw [rowKey_merged hstable hsound.ids hr, hrow, hkey]
  | none =>
    have hnew : d' ∈ spec.creations t.rows (spec.firstOfKeys [] items) :=
      List.mem_filter.mpr ⟨hd', by rw [hmatched]; rfl⟩
    obtain ⟨id, hid⟩ := exists_made t.next hnew
    exact ⟨_, List.mem_append_right _ hid, by rw [hstable.make_key, hkey]⟩

/-- The rows of a kind, where the items change no row's kind. -/
theorem countP_bulk (hlawful : spec.Lawful) (hsound : spec.Sound t) {p : ρ → Bool} {q : δ → Bool}
    (hchange : ∀ d r, p (spec.change d r) = p r) (hmake : ∀ id d, p (spec.make id d) = q d)
    (items : List δ) : (spec.bulk t items).rows.countP p =
      t.rows.countP p + (spec.creations t.rows (spec.firstOfKeys [] items)).countP q := by
  have hmerged : ∀ ds r, p (spec.merged t.rows ds r) = p r := by
    intro ds r
    unfold Spec.merged
    split
    · split
      · exact hchange _ _
      · rfl
    · rfl
  have hmade : ∀ (ds : List δ) (next : ℕ), (spec.made next ds).countP p = ds.countP q := by
    intro ds
    induction ds with
    | nil => intro next; rfl
    | cons d ds ih =>
      intro next
      rw [Spec.made, List.countP_cons, List.countP_cons, ih, hmake]
  rw [bulk_rows hlawful hsound, List.countP_append, hmade, List.countP_map]
  congr 1
  apply List.countP_congr
  intro r _
  rw [Function.comp_apply, hmerged]

/-- Of the items of one key, one is created, if the key has no row. -/
theorem countP_creations {items : List δ} {q : δ → Bool} (h : d ∈ items)
    (hq : ∀ d' ∈ items, q d' = true ↔ spec.key d' = spec.key d) :
    (spec.creations rows (spec.firstOfKeys [] items)).countP q =
      if (spec.matched rows d).isNone then 1 else 0 := by
  obtain ⟨d₀, hd₀, hkey⟩ : ∃ d₀ ∈ spec.firstOfKeys [] items, spec.key d₀ = spec.key d :=
    exists_firstOfKeys [] h List.not_mem_nil
  have hcount : (spec.creations rows (spec.firstOfKeys [] items)).countP q =
      ((spec.creations rows (spec.firstOfKeys [] items)).map spec.key).count (spec.key d) := by
    rw [List.count, List.countP_map]
    apply List.countP_congr
    intro d' hd'
    rw [Function.comp_apply, beq_iff_eq]
    exact hq d' (mem_firstOfKeys (List.mem_of_mem_filter hd')).1
  have hnodup : ((spec.creations rows (spec.firstOfKeys [] items)).map spec.key).Nodup :=
    (List.filter_sublist.map spec.key).nodup (firstOfKeys_nodup [] items)
  rw [hcount, hnodup.count]
  congr 1
  rw [eq_iff_iff, List.mem_map]
  constructor
  · rintro ⟨d', hd', heq⟩
    have hnone := (List.mem_filter.mp hd').2
    rw [matched_congr heq] at hnone
    exact hnone
  · intro hnone
    exact ⟨d₀, List.mem_filter.mpr ⟨hd₀, by rw [matched_congr hkey]; exact hnone⟩, hkey⟩

section Mapped

variable {δ' : Type} {g : δ' → δ} {items : List δ'}

/-- The items are read through `g`. -/
def Spec.comap (spec : Spec ρ δ κ) (g : δ' → δ) : Spec ρ δ' κ where
  id := spec.id
  rowKey := spec.rowKey
  key d := spec.key (g d)
  differs d := spec.differs (g d)
  change d := spec.change (g d)
  make id d := spec.make id (g d)

omit [DecidableEq κ] in
theorem Spec.Stable.comap (h : spec.Stable) (g : δ' → δ) : (spec.comap g).Stable where
  make id d := h.make id (g d)
  change d r := h.change (g d) r
  change_key d r := h.change_key (g d) r
  make_key id d := h.make_key id (g d)
  change_change d r := h.change_change (g d) r
  change_make id d := h.change_make id (g d)

theorem firstOfKeys_map (seen : List κ) (items : List δ') :
    spec.firstOfKeys seen (items.map g) = ((spec.comap g).firstOfKeys seen items).map g := by
  induction items generalizing seen with
  | nil => rfl
  | cons d items ih =>
    rw [List.map_cons, Spec.firstOfKeys, Spec.firstOfKeys, ih, ih]
    change (if spec.key (g d) ∈ seen then _ else _) =
      (if spec.key (g d) ∈ seen then _ else _ : List δ').map g
    split <;> rfl

theorem creations_map (items : List δ') :
    spec.creations rows (items.map g) = ((spec.comap g).creations rows items).map g :=
  List.filter_map ..

theorem patches_map (items : List δ') : spec.patches rows (items.map g) =
    ((spec.comap g).patches rows items).map fun dr => (g dr.1, dr.2) := by
  have hpairs : ((items.map g).filterMap fun d => (spec.matched rows d).map fun r => (d, r)) =
      (items.filterMap fun d => ((spec.comap g).matched rows d).map fun r => (d, r)).map
        fun dr => (g dr.1, dr.2) := by
    rw [List.filterMap_map, List.map_filterMap]
    congr 1
    funext d
    rw [Function.comp_apply, Option.map_map]
    rfl
  unfold Spec.patches
  rw [hpairs, List.filter_map]
  rfl

omit [DecidableEq κ] in
theorem made_map (next : ℕ) (items : List δ') :
    spec.made next (items.map g) = (spec.comap g).made next items := by
  induction items generalizing next with
  | nil => rfl
  | cons d items ih =>
    rw [List.map_cons, Spec.made, Spec.made, ih]
    rfl

/-- The items may be mapped first. -/
theorem bulk_map (t : Table ρ) (items : List δ') :
    spec.bulk t (items.map g) = (spec.comap g).bulk t items := by
  unfold Spec.bulk
  dsimp only
  rw [firstOfKeys_map, creations_map, patches_map, made_map, List.foldl_map, List.length_map]
  rfl

end Mapped

section Viewed

variable {β : Type} {view : ρ → β} {spec' : Spec ρ δ κ}

theorem merged_eq (spec : Spec ρ δ κ) (rows : List ρ) (ds : List δ) (r : ρ) :
    spec.merged rows ds r =
      ((ds.find? fun d => (spec.matched rows d).map spec.id = some (spec.id r)).map fun d =>
        if spec.differs d r then spec.change d r else r).getD r := by
  unfold Spec.merged
  split <;> rename_i hfind <;> rw [hfind] <;> rfl

/-- Items that make rows of one look make tables of one look. -/
theorem view_bulk (hlawful : spec.Lawful) (hlawful' : spec'.Lawful) (hsound : spec.Sound t)
    (hid : spec'.id = spec.id) (hrowKey : spec'.rowKey = spec.rowKey)
    (hkey : spec'.key = spec.key)
    (hchange : ∀ d r, view (if spec'.differs d r then spec'.change d r else r) =
      view (if spec.differs d r then spec.change d r else r))
    (hmake : ∀ id d, view (spec'.make id d) = view (spec.make id d)) (items : List δ) :
    (spec'.bulk t items).rows.map view = (spec.bulk t items).rows.map view := by
  have hsound' : spec'.Sound t := ⟨hid ▸ hsound.ids, fun r hr => hid ▸ hsound.next r hr⟩
  have hmatched : ∀ rows d, spec'.matched rows d = spec.matched rows d := by
    intro rows d
    unfold Spec.matched Spec.hits
    rw [hrowKey, hkey]
  have hfirst : ∀ seen, spec'.firstOfKeys seen items = spec.firstOfKeys seen items := by
    induction items with
    | nil => exact fun _ => rfl
    | cons d items ih =>
      intro seen
      rw [Spec.firstOfKeys, Spec.firstOfKeys, ih, ih, hkey]
  have hmade : ∀ (ds : List δ) (next : ℕ),
      (spec'.made next ds).map view = (spec.made next ds).map view := by
    intro ds
    induction ds with
    | nil => exact fun _ => rfl
    | cons d ds ih =>
      intro next
      rw [Spec.made, Spec.made, List.map_cons, List.map_cons, ih, hmake]
  have hmerged : ∀ ds r, view (spec'.merged t.rows ds r) = view (spec.merged t.rows ds r) := by
    intro ds r
    rw [merged_eq, merged_eq, hid]
    simp only [hmatched]
    cases ds.find? fun d => (spec.matched t.rows d).map spec.id = some (spec.id r) with
    | none => rfl
    | some d => exact hchange d r
  have hcreations : spec'.creations t.rows (spec'.firstOfKeys [] items) =
      spec.creations t.rows (spec.firstOfKeys [] items) := by
    unfold Spec.creations
    simp only [hmatched, hfirst]
  rw [bulk_rows hlawful' hsound', bulk_rows hlawful hsound, List.map_append, List.map_append,
    List.map_map, List.map_map, hcreations, hmade, hfirst]
  congr 1
  apply List.map_congr_left
  intro r _
  exact hmerged _ r

end Viewed

end FirstMatch
