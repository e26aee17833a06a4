import Mathlib.Data.List.Enum
import Mathlib.Data.List.Nodup
import Mathlib.Data.Int.Basic

/-! Tables of rows with optional keys, into which items with distinct keys are upserted: an item
changes the rows with its key, or is appended as a new row under the next id.  The items may be
upserted in any order that keeps the new ones in theirs. -/

namespace Upsert

variable {ρ δ κ : Type} [DecidableEq κ]

/-- Rows, and the id of the next one. -/
structure Table (ρ : Type) where
  rows : List ρ
  next : ℤ

/-- The key of a row and of an item, the row that an item makes of a row, and the one it makes under
an id. -/
structure Spec (ρ δ κ : Type) where
  rowKey : ρ → Option κ
  key : δ → κ
  change : δ → ρ → ρ
  make : ℤ → δ → ρ

variable (spec : Spec ρ δ κ)

/-- The row has the key of the item. -/
def Spec.hits (d : δ) (r : ρ) : Bool := spec.rowKey r = some (spec.key d)

def Spec.upsert (t : Table ρ) (d : δ) : Table ρ :=
  if t.rows.any (spec.hits d) then
    { t with rows := t.rows.map fun r => if spec.hits d r then spec.change d r else r }
  else { rows := t.rows ++ [spec.make t.next d], next := t.next + 1 }

def Spec.upsertAll (t : Table ρ) (ds : List δ) : Table ρ := ds.foldl spec.upsert t

/-- What the item makes of a row keeps or takes its key. -/
structure Spec.Keyed (d : δ) : Prop where
  change : ∀ r, spec.hits d r = true → spec.hits d (spec.change d r) = true
  make : ∀ id, spec.hits d (spec.make id d) = true

/-- Each row as the item with its key leaves it. -/
def Spec.merged (rows : List ρ) (ds : List δ) : List ρ :=
  rows.map fun r => match ds.find? fun d => spec.hits d r with
    | some d => spec.change d r
    | none => r

/-- The items whose key no row has. -/
def Spec.fresh (rows : List ρ) (ds : List δ) : List δ := ds.filter fun d => !rows.any (spec.hits d)

/-- The items whose key some row has. -/
def Spec.known (rows : List ρ) (ds : List δ) : List δ := ds.filter fun d => rows.any (spec.hits d)

/-- The rows of new items. -/
def Spec.made : ℤ → List δ → List ρ
  | _, [] => []
  | next, d :: ds => spec.make next d :: Spec.made (next + 1) ds

variable {spec}

theorem hits_congr {d d' : δ} {r : ρ} (hd : spec.hits d r = true) :
    spec.hits d' r = true ↔ spec.key d' = spec.key d := by
  simp only [Spec.hits, decide_eq_true_eq] at hd ⊢
  rw [hd, Option.some.injEq, eq_comm]

theorem fresh_cons_of_none {rows : List ρ} {d : δ} {ds : List δ}
    (h : rows.any (spec.hits d) = false) : spec.fresh rows (d :: ds) = d :: spec.fresh rows ds :=
  List.filter_cons_of_pos (by simp [h])

theorem fresh_cons_of_any {rows : List ρ} {d : δ} {ds : List δ}
    (h : rows.any (spec.hits d) = true) : spec.fresh rows (d :: ds) = spec.fresh rows ds :=
  List.filter_cons_of_neg (by simp [h])

theorem known_cons_of_none {rows : List ρ} {d : δ} {ds : List δ}
    (h : rows.any (spec.hits d) = false) : spec.known rows (d :: ds) = spec.known rows ds :=
  List.filter_cons_of_neg (by simp [h])

theorem known_cons_of_any {rows : List ρ} {d : δ} {ds : List δ}
    (h : rows.any (spec.hits d) = true) : spec.known rows (d :: ds) = d :: spec.known rows ds :=
  List.filter_cons_of_pos h

/-- The rows after an item are hit by the other items as the rows before it. -/
theorem any_hits_upsert {t : Table ρ} {d d' : δ} (hkeyed : spec.Keyed d)
    (hne : spec.key d' ≠ spec.key d) :
    (spec.upsert t d).rows.any (spec.hits d') = t.rows.any (spec.hits d') := by
  have hother : ∀ r, spec.hits d r = true → spec.hits d' r = false := by
    intro r hr
    rw [Bool.eq_false_iff]
    exact fun h => hne ((hits_congr hr).mp h)
  unfold Spec.upsert
  split
  · rw [List.any_map]
    congr 1
    funext r
    rw [Function.comp_apply]
    split
    · rename_i hr
      rw [hother r hr, hother _ (hkeyed.change r hr)]
    · rfl
  · simp [hother _ (hkeyed.make t.next)]

theorem fresh_upsert {t : Table ρ} {d : δ} {ds : List δ} (hkeyed : spec.Keyed d)
    (hne : ∀ d' ∈ ds, spec.key d' ≠ spec.key d) :
    spec.fresh (spec.upsert t d).rows ds = spec.fresh t.rows ds := by
  apply List.filter_congr
  intro d' hd'
  rw [any_hits_upsert hkeyed (hne d' hd')]

/-- A row that no item hits is left as it is. -/
theorem find_none_of_hit {d : δ} {ds : List δ} {r : ρ} (hd : spec.hits d r = true)
    (hne : ∀ d' ∈ ds, spec.key d' ≠ spec.key d) : (ds.find? fun d' => spec.hits d' r) = none := by
  rw [List.find?_eq_none]
  intro d' hd' hhit
  exact hne d' hd' ((hits_congr hd).mp hhit)

theorem merged_cons_of_hit {rows : List ρ} {d : δ} {ds : List δ} (hkeyed : spec.Keyed d)
    (hne : ∀ d' ∈ ds, spec.key d' ≠ spec.key d) :
    spec.merged (rows.map fun r => if spec.hits d r then spec.change d r else r) ds =
      spec.merged rows (d :: ds) := by
  unfold Spec.merged
  rw [List.map_map]
  apply List.map_congr_left
  intro r _
  rw [Function.comp_apply]
  cases hd : spec.hits d r with
  | true =>
    rw [if_pos rfl, find_none_of_hit (hkeyed.change r hd) hne]
    simp only [List.find?_cons, hd]
  | false =>
    rw [if_neg (by simp)]
    simp only [List.find?_cons, hd]

theorem merged_cons_of_fresh {rows : List ρ} {d : δ} {ds : List δ}
    (hnone : rows.any (spec.hits d) = false) : spec.merged rows (d :: ds) = spec.merged rows ds := by
  apply List.map_congr_left
  intro r hr
  have hd : spec.hits d r = false := by simpa using List.any_eq_false.mp hnone r hr
  simp only [List.find?_cons, hd]

/-- Items upserted one after another change the rows in place and append the new ones in order. -/
theorem upsertAll_eq {ds : List δ} (hkeyed : ∀ d ∈ ds, spec.Keyed d) (hdistinct : (ds.map spec.key).Nodup)
    (t : Table ρ) : spec.upsertAll t ds =
      { rows := spec.merged t.rows ds ++ spec.made t.next (spec.fresh t.rows ds)
        next := t.next + (spec.fresh t.rows ds).length } := by
  induction ds generalizing t with
  | nil =>
    obtain ⟨rows, next⟩ := t
    simp [Spec.upsertAll, Spec.merged, Spec.fresh, Spec.made]
  | cons d ds ih =>
    rw [List.map_cons, List.nodup_cons] at hdistinct
    obtain ⟨hd, hds⟩ := List.forall_mem_cons.mp hkeyed
    have hne : ∀ d' ∈ ds, spec.key d' ≠ spec.key d := fun d' hd' heq =>
      hdistinct.1 (List.mem_map.mpr ⟨d', hd', heq⟩)
    have hstep : spec.upsertAll t (d :: ds) = spec.upsertAll (spec.upsert t d) ds := rfl
    rw [hstep, ih hds hdistinct.2, fresh_upsert hd hne]
    cases hany : t.rows.any (spec.hits d) with
    | true =>
      rw [fresh_cons_of_any hany, Spec.upsert, if_pos hany, merged_cons_of_hit hd hne]
    | false =>
      have hlast : spec.merged (t.rows ++ [spec.make t.next d]) ds =
          spec.merged t.rows ds ++ [spec.make t.next d] := by
        rw [Spec.merged, List.map_append, List.map_singleton,
          find_none_of_hit (hd.make t.next) hne]
        rfl
      rw [fresh_cons_of_none hany, Spec.upsert, if_neg (by simp [hany]), merged_cons_of_fresh hany]
      dsimp only
      rw [hlast, List.append_assoc, List.singleton_append, Spec.made, List.length_cons]
      congr 1
      push_cast
      omega

theorem merged_known {rows : List ρ} {ds : List δ} :
    spec.merged rows (spec.known rows ds) = spec.merged rows ds := by
  apply List.map_congr_left
  intro r hr
  have hfind : ((spec.known rows ds).find? fun d => spec.hits d r) =
      ds.find? fun d => spec.hits d r := by
    unfold Spec.known
    rw [List.find?_filter]
    congr 1
    funext d
    cases hd : spec.hits d r with
    | false => simp
    | true =>
      have hany : rows.any (spec.hits d) = true := List.any_eq_true.mpr ⟨r, hr, hd⟩
      simp [hany]
  rw [hfind]

/-- The new items may go first. -/
theorem upsertAll_fresh_known {ds : List δ} (hkeyed : ∀ d ∈ ds, spec.Keyed d)
    (hdistinct : (ds.map spec.key).Nodup) (t : Table ρ) :
    spec.upsertAll t (spec.fresh t.rows ds ++ spec.known t.rows ds) = spec.upsertAll t ds := by
  have hperm : (spec.fresh t.rows ds ++ spec.known t.rows ds).Perm ds := by
    refine List.perm_append_comm.trans ?_
    exact List.filter_append_perm _ ds
  have hdistinct' : ((spec.fresh t.rows ds ++ spec.known t.rows ds).map spec.key).Nodup :=
    (hperm.map spec.key).nodup_iff.mpr hdistinct
  have hkeyed' : ∀ d ∈ spec.fresh t.rows ds ++ spec.known t.rows ds, spec.Keyed d :=
    fun d hd => hkeyed d (hperm.mem_iff.mp hd)
  have hfresh : spec.fresh t.rows (spec.fresh t.rows ds ++ spec.known t.rows ds) =
      spec.fresh t.rows ds := by
    unfold Spec.fresh Spec.known
    rw [List.filter_append, List.filter_filter, List.filter_filter]
    simp
  have hknown : spec.known t.rows (spec.fresh t.rows ds ++ spec.known t.rows ds) =
      spec.known t.rows ds := by
    unfold Spec.fresh Spec.known
    rw [List.filter_append, List.filter_filter, List.filter_filter]
    simp
  have hmerged : spec.merged t.rows (spec.fresh t.rows ds ++ spec.known t.rows ds) =
      spec.merged t.rows ds := by
    rw [← merged_known, hknown, merged_known]
  rw [upsertAll_eq hkeyed' hdistinct', upsertAll_eq hkeyed hdistinct, hfresh, hmerged]

/-- After items with distinct keys, each row with the key of an item is as the item leaves it. -/
theorem settled_upsertAll {ds : List δ} (hkeyed : ∀ d ∈ ds, spec.Keyed d)
    (hdistinct : (ds.map spec.key).Nodup) {P : δ → ρ → Prop}
    (hchange : ∀ d ∈ ds, ∀ r, spec.hits d r = true → P d (spec.change d r))
    (hmake : ∀ d ∈ ds, ∀ id, P d (spec.make id d)) (t : Table ρ) :
    ∀ d ∈ ds, ∀ r ∈ (spec.upsertAll t ds).rows, spec.hits d r = true → P d r := by
  have hmade : ∀ (ds' : List δ) (next : ℤ), ∀ r ∈ spec.made next ds',
      ∃ d ∈ ds', ∃ id, r = spec.make id d := by
    intro ds'
    induction ds' with
    | nil => simp [Spec.made]
    | cons d ds' ih =>
      intro next r hr
      rcases List.mem_cons.mp hr with rfl | hr
      · exact ⟨d, List.mem_cons_self .., next, rfl⟩
      · obtain ⟨d', hd', id, rfl⟩ := ih (next + 1) r hr
        exact ⟨d', List.mem_cons_of_mem _ hd', id, rfl⟩
  have hsame : ∀ d ∈ ds, ∀ d' ∈ ds, spec.key d = spec.key d' → d = d' :=
    fun d hd d' hd' => List.inj_on_of_nodup_map hdistinct hd hd'
  intro d hd r hr hhit
  rw [upsertAll_eq hkeyed hdistinct] at hr
  rcases List.mem_append.mp hr with hr | hr
  · obtain ⟨r₀, _, hr₀⟩ := List.mem_map.mp hr
    cases hfind : ds.find? fun d => spec.hits d r₀ with
    | none =>
      rw [hfind] at hr₀
      have hmiss := List.find?_eq_none.mp hfind d hd
      rw [show r₀ = r from hr₀] at hmiss
      exact absurd hhit hmiss
    | some d' =>
      rw [hfind] at hr₀
      have hd' := List.mem_of_find?_eq_some hfind
      have hhit' : spec.hits d' r₀ = true := by simpa using List.find?_some hfind
      subst hr₀
      rw [hsame d hd d' hd' ((hits_congr ((hkeyed d' hd').change r₀ hhit')).mp hhit)]
      exact hchange d' hd' r₀ hhit'
  · obtain ⟨d', hd', id, rfl⟩ := hmade _ _ r hr
    have hd' := (List.mem_filter.mp hd').1
    rw [hsame d hd d' hd' ((hits_congr ((hkeyed d' hd').make id)).mp hhit)]
    exact hmake d' hd' id

theorem any_hits_upsert_self {t : Table ρ} {d : δ} (hkeyed : spec.Keyed d) :
    (spec.upsert t d).rows.any (spec.hits d) = true := by
  unfold Spec.upsert
  split
  · rename_i hany
    obtain ⟨r, hr, hhit⟩ := List.any_eq_true.mp hany
    refine List.any_eq_true.mpr ⟨spec.change d r, List.mem_map.mpr ⟨r, hr, ?_⟩, ?_⟩
    · rw [if_pos hhit]
    · exact hkeyed.change r hhit
  · simp [hkeyed.make t.next]

theorem any_hits_upsertAll_of_ne {ds : List δ} (hkeyed : ∀ d ∈ ds, spec.Keyed d) {d : δ}
    (hne : ∀ d' ∈ ds, spec.key d ≠ spec.key d') (t : Table ρ) :
    (spec.upsertAll t ds).rows.any (spec.hits d) = t.rows.any (spec.hits d) := by
  induction ds generalizing t with
  | nil => rfl
  | cons d' ds ih =>
    obtain ⟨hd', hds⟩ := List.forall_mem_cons.mp hkeyed
    obtain ⟨hne', hne⟩ := List.forall_mem_cons.mp hne
    exact (ih hds hne (spec.upsert t d')).trans (any_hits_upsert hd' hne')

/-- After an item some row has its key. -/
theorem any_hits_upsertAll {ds : List δ} (hkeyed : ∀ d ∈ ds, spec.Keyed d)
    (hdistinct : (ds.map spec.key).Nodup) (t : Table ρ) :
    ∀ d ∈ ds, (spec.upsertAll t ds).rows.any (spec.hits d) = true := by
  induction ds generalizing t with
  | nil => simp
  | cons d ds ih =>
    rw [List.map_cons, List.nodup_cons] at hdistinct
    obtain ⟨hd, hds⟩ := List.forall_mem_cons.mp hkeyed
    rw [List.forall_mem_cons]
    refine ⟨?_, ih hds hdistinct.2 _⟩
    have hne : ∀ d' ∈ ds, spec.key d ≠ spec.key d' := fun d' hd' heq =>
      hdistinct.1 (List.mem_map.mpr ⟨d', hd', heq.symm⟩)
    exact (any_hits_upsertAll_of_ne hds hne _).trans (any_hits_upsert_self hd)

end Upsert
