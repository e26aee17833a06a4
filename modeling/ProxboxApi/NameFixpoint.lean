import ProxboxApi.NameUniqueness

/-! The names of a cluster named twice: when the second run finds the names that the first one gave
and gives them again. -/

namespace ProxboxApi.VmNames

open ProxboxApi.VmQueue

variable (py : Python)

/-- The turn of a VM whose record bears the name that the VM was given. -/
def Turn.again (t : Turn) (name : String) : Turn where
  candidate := t.candidate
  rename := if isAlgorithmicVariant py name t.candidate then .none else .operator name

/-- An operator's name is no variant of the candidate. -/
def Turn.Sound (t : Turn) : Prop :=
  ∀ name, t.rename = .operator name → isAlgorithmicVariant py name t.candidate = false

/-- The variant that the turn picks is the first that neither the names at the start of the second
run nor those given before it leave free. -/
def Settled (second : Finset String) (s : NamingState) (t : Turn) : Prop :=
  match t.rename with
  | .operator _ => True
  | _ => ∀ n, variant t.candidate n = t.name py s.used →
      isAlgorithmicVariant py (variant t.candidate n) t.candidate = true →
        foldedVariants py t.candidate n ∉ py.casefold '' (second ∪ s.taken) ∧
          ∀ m < n, foldedVariants py t.candidate m ∈ py.casefold '' (second ∪ s.taken)

/-- What is kept of the names is as the names used so far say: the first free variant of the
candidate was not given before, equals a kept name only if it is that name, and the variants before
it are kept or were given. -/
def Stable (kept : Set String) (s : NamingState) (t : Turn) : Prop :=
  match t.rename with
  | .operator _ => True
  | _ => ∀ n, foldedVariants py t.candidate n ∉ (t.base s.used).image py.casefold →
      (∀ m < n, foldedVariants py t.candidate m ∈ (t.base s.used).image py.casefold) →
      isAlgorithmicVariant py (variant t.candidate n) t.candidate = true →
        (∀ name ∈ s.taken, py.casefold name ≠ foldedVariants py t.candidate n) ∧
        (∀ name ∈ kept, py.casefold name = foldedVariants py t.candidate n →
          name = variant t.candidate n) ∧
        ∀ m < n, foldedVariants py t.candidate m ∈ py.casefold '' (kept ∪ s.taken)

section Turns

variable {py}

theorem pickSuffix_eq_iff {candidate : String} {used : Finset String} {n : ℕ} :
    (pickSuffix py candidate used).1 = variant candidate n ↔
      foldedVariants py candidate n ∉ used.image py.casefold ∧
        ∀ m < n, foldedVariants py candidate m ∈ used.image py.casefold := by
  constructor
  · intro h
    obtain ⟨k, hk, hfree, hlower⟩ := pickSuffix_isFirstFree py candidate used
    rw [h] at hk hfree
    obtain rfl : k = n := foldedVariants_injective candidate hk
    exact ⟨hfree, hlower⟩
  · intro ⟨hfree, hlower⟩
    exact pickSuffix_eq ⟨n, rfl, hfree, hlower⟩

/-- A turn that no operator's rename decides picks a variant. -/
theorem name_eq_variant_iff {t : Turn} (ht : ∀ name, t.rename ≠ .operator name)
    {used : Finset String} {n : ℕ} :
    t.name py used = variant t.candidate n ↔
      foldedVariants py t.candidate n ∉ (t.base used).image py.casefold ∧
        ∀ m < n, foldedVariants py t.candidate m ∈ (t.base used).image py.casefold := by
  rw [Turn.name_picked ht, pickSuffix_eq_iff]

theorem exists_variant (py : Python) {t : Turn} (ht : ∀ name, t.rename ≠ .operator name)
    (used : Finset String) :
    ∃ n, t.name py used = variant t.candidate n := by
  obtain ⟨n, hn⟩ := pickSuffix_variant py t.candidate (t.base used)
  exact ⟨n, (name_eq_variant_iff ht).mpr (pickSuffix_eq_iff.mp hn)⟩

@[simp] theorem base_again (t : Turn) (name : String) (used : Finset String) :
    (t.again py name).base used = used := by
  unfold Turn.again Turn.base
  dsimp only
  split
  next h =>
    split at h <;> cases h
  next => rfl

/-- A turn gives its name again exactly if it is settled. -/
theorem name_again_iff {second : Finset String} {s : NamingState} {t : Turn} (ht : t.Sound py)
    {v : Finset String} (hv : (v : Set String) = (second : Set String) ∪ s.taken) :
    (t.again py (t.name py s.used)).name py v = t.name py s.used ↔ Settled py second s t := by
  by_cases hoperator : ∃ name, t.rename = .operator name
  · obtain ⟨name, hrename⟩ := hoperator
    have hname : t.name py s.used = name := Turn.name_kept hrename s.used
    have hagain : (t.again py name).name py v = name := by
      unfold Turn.again Turn.name
      rw [ht name hrename]
      rfl
    unfold Settled
    rw [hrename, hname, hagain]
    exact iff_of_true rfl trivial
  · have ht : ∀ name, t.rename ≠ .operator name := fun name h => hoperator ⟨name, h⟩
    obtain ⟨n, hn⟩ := exists_variant py ht s.used
    have hsettled : Settled py second s t ↔
        (isAlgorithmicVariant py (variant t.candidate n) t.candidate = true →
          foldedVariants py t.candidate n ∉ py.casefold '' (second ∪ s.taken) ∧
            ∀ m < n, foldedVariants py t.candidate m ∈ py.casefold '' (second ∪ s.taken)) := by
      have hall : ∀ k, variant t.candidate k = t.name py s.used ↔ k = n := by
        intro k
        rw [hn]
        constructor
        · intro h
          exact @foldedVariants_injective py t.candidate k n (congrArg py.casefold h)
        · rintro rfl
          rfl
      unfold Settled
      cases hrename : t.rename with
      | operator name => exact absurd hrename (ht name)
      | none => simp only [hall, forall_eq]
      | proxmox name => simp only [hall, forall_eq]
    rw [hsettled, hn, ← hv]
    by_cases hvariant : isAlgorithmicVariant py (variant t.candidate n) t.candidate = true
    · have hagain : (t.again py (variant t.candidate n)).name py v =
          (pickSuffix py t.candidate v).1 := by
        unfold Turn.again Turn.name
        rw [if_pos hvariant]
        rfl
      rw [hagain, pickSuffix_eq_iff, forall_prop_of_true hvariant]
      simp only [← Finset.coe_image, Finset.mem_coe]
    · have hagain : (t.again py (variant t.candidate n)).name py v = variant t.candidate n := by
        unfold Turn.again Turn.name
        rw [if_neg hvariant]
      rw [hagain, forall_prop_of_false hvariant]
      exact iff_of_true rfl trivial

/-- The names are given again exactly if every turn is settled. -/
theorem names_again_iff {second : Finset String} {ts : List Turn} (hts : ∀ t ∈ ts, t.Sound py)
    {s : NamingState} {v : Finset String}
    (hv : (v : Set String) = (second : Set String) ∪ s.taken) :
    names py v (List.zipWith (Turn.again py) ts (names py s.used ts)) = names py s.used ts ↔
      Runs.Guarded (takeTurn py) (Settled py second) s ts := by
  induction ts generalizing s v with
  | nil => simp [names, Runs.Guarded]
  | cons t ts ih =>
    obtain ⟨ht, hts⟩ := List.forall_mem_cons.mp hts
    have hinsert : ((insert (t.name py s.used) v : Finset String) : Set String) =
        (second : Set String) ∪ insert (t.name py s.used) s.taken := by
      rw [Finset.coe_insert, hv, Set.union_insert]
    have htail := ih hts (s := ⟨insert (t.name py s.used) (t.base s.used),
      insert (t.name py s.used) s.taken⟩) hinsert
    simp only [names, List.zipWith_cons_cons, base_again, List.cons.injEq, Runs.Guarded, takeTurn]
    rw [← htail, ← name_again_iff ht hv]
    constructor
    · rintro ⟨hhead, hrest⟩
      rw [hhead] at hrest
      exact ⟨hhead, hrest⟩
    · rintro ⟨hhead, hrest⟩
      rw [hhead]
      exact ⟨rfl, hrest⟩

/-- The names that the turns pick, without those that operators gave. -/
def picked (py : Python) : Finset String → List Turn → List String
  | _, [] => []
  | used, t :: ts =>
    let rest := picked py (insert (t.name py used) (t.base used)) ts
    match t.rename with
    | .operator _ => rest
    | _ => t.name py used :: rest

theorem picked_operator {used : Finset String} {t : Turn} {ts : List Turn} {name : String}
    (h : t.rename = .operator name) :
    picked py used (t :: ts) = picked py (insert (t.name py used) (t.base used)) ts := by
  simp only [picked, h]

theorem picked_variant {used : Finset String} {t : Turn} {ts : List Turn}
    (h : ∀ name, t.rename ≠ .operator name) :
    picked py used (t :: ts) =
      t.name py used :: picked py (insert (t.name py used) (t.base used)) ts := by
  conv_lhs => unfold picked
  cases hrename : t.rename with
  | operator name => exact absurd hrename (h name)
  | none => rfl
  | proxmox name => rfl

theorem mem_names {used : Finset String} {ts : List Turn} {x : String}
    (h : x ∈ names py used ts) :
    x ∈ picked py used ts ∨ ∃ t ∈ ts, t.rename = .operator x := by
  induction ts generalizing used with
  | nil => simp [names] at h
  | cons t ts ih =>
    rw [names, List.mem_cons] at h
    by_cases hoperator : ∃ name, t.rename = .operator name
    · obtain ⟨name, hrename⟩ := hoperator
      rw [picked_operator hrename]
      rcases h with rfl | h
      · right
        refine ⟨t, List.mem_cons_self, ?_⟩
        unfold Turn.name
        rw [hrename]
      · rcases ih h with h | ⟨u, hu, hrename⟩
        · exact .inl h
        · exact .inr ⟨u, List.mem_cons_of_mem t hu, hrename⟩
    · rw [picked_variant fun name h => hoperator ⟨name, h⟩]
      rcases h with rfl | h
      · exact .inl List.mem_cons_self
      · rcases ih h with h | ⟨u, hu, hrename⟩
        · exact .inl (List.mem_cons_of_mem _ h)
        · exact .inr ⟨u, List.mem_cons_of_mem t hu, hrename⟩

theorem settled_variant {second : Finset String} {s : NamingState} {t : Turn} {n : ℕ}
    (ht : ∀ name, t.rename ≠ .operator name) (h : Settled py second s t)
    (hn : t.name py s.used = variant t.candidate n)
    (hvariant : isAlgorithmicVariant py (variant t.candidate n) t.candidate = true) :
    foldedVariants py t.candidate n ∉ py.casefold '' (second ∪ s.taken) ∧
      ∀ m < n, foldedVariants py t.candidate m ∈ py.casefold '' (second ∪ s.taken) := by
  unfold Settled at h
  cases hrename : t.rename with
  | operator name => exact absurd hrename (ht name)
  | none =>
    rw [hrename] at h
    exact h n hn.symm hvariant
  | proxmox name =>
    rw [hrename] at h
    exact h n hn.symm hvariant

theorem stable_variant {kept : Set String} {s : NamingState} {t : Turn} {n : ℕ}
    (ht : ∀ name, t.rename ≠ .operator name) (h : Stable py kept s t)
    (hn : t.name py s.used = variant t.candidate n)
    (hvariant : isAlgorithmicVariant py (variant t.candidate n) t.candidate = true) :
    (∀ name ∈ s.taken, py.casefold name ≠ foldedVariants py t.candidate n) ∧
      (∀ name ∈ kept, py.casefold name = foldedVariants py t.candidate n →
        name = variant t.candidate n) ∧
      ∀ m < n, foldedVariants py t.candidate m ∈ py.casefold '' (kept ∪ s.taken) := by
  obtain ⟨hfree, hlower⟩ := (name_eq_variant_iff ht).mp hn
  unfold Stable at h
  cases hrename : t.rename with
  | operator name => exact absurd hrename (ht name)
  | none =>
    rw [hrename] at h
    exact h n hfree hlower hvariant
  | proxmox name =>
    rw [hrename] at h
    exact h n hfree hlower hvariant

end Turns

section Cluster

variable {py} {first : Finset String} {kept : Set String}

theorem erased_base (py : Python) {t : Turn} {used : Finset String}
    (herased : ∀ name, t.rename = .proxmox name → name ∉ first) (h : first ⊆ used) :
    first ⊆ insert (t.name py used) (t.base used) := by
  intro x hx
  apply Finset.mem_insert_of_mem
  unfold Turn.base
  cases hrename : t.rename with
  | none => exact h hx
  | operator name => exact h hx
  | proxmox name =>
    refine Finset.mem_erase.mpr ⟨?_, h hx⟩
    rintro rfl
    exact herased x hrename hx

theorem base_subset (t : Turn) (used : Finset String) : t.base used ⊆ used := by
  unfold Turn.base
  split
  next => exact Finset.erase_subset _ _
  next => exact Finset.Subset.refl _

/-- A name that is given and kept is no name used from the start. -/
theorem given_apart {ts : List Turn} {used : Finset String} (hfirst : first ⊆ used)
    (herased : ∀ t ∈ ts, ∀ name, t.rename = .proxmox name → name ∉ first)
    (hoperators : ∀ t ∈ ts, ∀ name, t.rename = .operator name → name ∉ kept) :
    ∀ x ∈ names py used ts, x ∈ kept → ∀ y ∈ first, py.casefold y ≠ py.casefold x := by
  induction ts generalizing used with
  | nil => simp [names]
  | cons t ts ih =>
    obtain ⟨herased, hrest⟩ := List.forall_mem_cons.mp herased
    obtain ⟨hoperator, hoperators⟩ := List.forall_mem_cons.mp hoperators
    have hnext := erased_base py herased hfirst
    intro x hx hkept y hy heq
    rw [names, List.mem_cons] at hx
    rcases hx with rfl | hx
    · by_cases hrename : ∃ name, t.rename = .operator name
      · obtain ⟨name, hrename⟩ := hrename
        have hname : t.name py used = name := Turn.name_kept hrename used
        exact hoperator name hrename (hname ▸ hkept)
      · obtain ⟨n, hn⟩ := exists_variant py (fun name h => hrename ⟨name, h⟩) used
        obtain ⟨hfree, -⟩ := (name_eq_variant_iff fun name h => hrename ⟨name, h⟩).mp hn
        apply hfree
        have hbase : y ∈ t.base used := by
          unfold Turn.base
          cases hcase : t.rename with
          | none => exact hfirst hy
          | operator name => exact hfirst hy
          | proxmox name =>
            refine Finset.mem_erase.mpr ⟨?_, hfirst hy⟩
            rintro rfl
            exact herased y hcase hy
        rw [hn] at heq
        exact Finset.mem_image.mpr ⟨y, hbase, heq⟩
    · exact ih hnext hrest hoperators x hx hkept y hy heq

/-- Stable turns are settled. -/
theorem settled_of_stable {second : Finset String} {all : List String}
    (hsecond : (second : Set String) = kept \ {x | x ∈ all})
    (hapart : ∀ x ∈ all, x ∈ kept → ∀ y ∈ first, py.casefold y ≠ py.casefold x)
    {ts : List Turn} (herased : ∀ t ∈ ts, ∀ name, t.rename = .proxmox name → name ∉ first)
    {s : NamingState} (hlow : first ⊆ s.used) (hup : ∀ x ∈ s.used, x ∈ first ∨ x ∈ s.taken)
    (hall : ∀ x ∈ names py s.used ts, x ∈ all)
    (h : Runs.Guarded (takeTurn py) (Stable py kept) s ts) :
    Runs.Guarded (takeTurn py) (Settled py second) s ts := by
  induction ts generalizing s with
  | nil => trivial
  | cons t ts ih =>
    obtain ⟨hstable, hguarded⟩ := Runs.guarded_cons rfl h
    obtain ⟨herase, herased⟩ := List.forall_mem_cons.mp herased
    rw [names, List.forall_mem_cons] at hall
    refine ⟨?_, ih herased (erased_base py herase hlow) ?_ hall.2 hguarded⟩
    · by_cases hoperator : ∃ name, t.rename = .operator name
      · obtain ⟨name, hrename⟩ := hoperator
        unfold Settled
        rw [hrename]
        trivial
      have ht : ∀ name, t.rename ≠ .operator name := fun name h => hoperator ⟨name, h⟩
      have hsettled : ∀ n, variant t.candidate n = t.name py s.used →
          isAlgorithmicVariant py (variant t.candidate n) t.candidate = true →
            foldedVariants py t.candidate n ∉ py.casefold '' (second ∪ s.taken) ∧
              ∀ m < n, foldedVariants py t.candidate m ∈ py.casefold '' (second ∪ s.taken) := by
        intro n hn hvariant
        obtain ⟨hgiven, hkept, hlower⟩ := stable_variant ht hstable hn.symm hvariant
        obtain ⟨-, hused⟩ := (name_eq_variant_iff ht).mp hn.symm
        constructor
        · rintro ⟨x, hx | hx, heq⟩
          · rw [hsecond] at hx
            exact hx.2 (hkept x hx.1 heq ▸ hn ▸ hall.1)
          · exact hgiven x hx heq
        · intro m hm
          obtain ⟨x, hx | hx, heq⟩ := hlower m hm
          · by_cases hgiven : x ∈ all
            · -- a kept name that is given leaves this variant to a name given before
              obtain ⟨y, hy, hfold⟩ := Finset.mem_image.mp (hused m hm)
              rcases hup y (base_subset t s.used hy) with hy | hy
              · exact absurd (hfold.trans heq.symm) (hapart x hgiven hx y hy)
              · exact ⟨y, .inr hy, hfold⟩
            · refine ⟨x, .inl ?_, heq⟩
              rw [hsecond]
              exact ⟨hx, hgiven⟩
          · exact ⟨x, .inr hx, heq⟩
      unfold Settled
      cases hrename : t.rename with
      | operator name => exact absurd hrename (ht name)
      | none => exact hsettled
      | proxmox name => exact hsettled
    · intro x hx
      rcases Finset.mem_insert.mp hx with rfl | hx
      · exact .inr (Set.mem_insert _ _)
      · exact (hup x (base_subset t s.used hx)).imp_right (Set.mem_insert_of_mem _)

/-- Every variant of the candidate is read as one. -/
def Turn.Recognized (py : Python) (t : Turn) : Prop :=
  ∀ n, isAlgorithmicVariant py (variant t.candidate n) t.candidate = true

/-- Settled turns pick names that differ up to case. -/
theorem fresh_picked {second : Finset String} {ts : List Turn}
    (hrecognized : ∀ t ∈ ts, t.Recognized py) {s : NamingState}
    (h : Runs.Guarded (takeTurn py) (Settled py second) s ts) :
    FreshNames.Fresh (py.casefold '' s.taken) ((picked py s.used ts).map py.casefold) := by
  induction ts generalizing s with
  | nil => exact FreshNames.fresh_nil
  | cons t ts ih =>
    obtain ⟨hsettled, hguarded⟩ := Runs.guarded_cons rfl h
    obtain ⟨hrecognized, hrest⟩ := List.forall_mem_cons.mp hrecognized
    have htail := ih hrest hguarded
    rw [Set.image_insert_eq] at htail
    by_cases hoperator : ∃ name, t.rename = .operator name
    · obtain ⟨name, hrename⟩ := hoperator
      rw [picked_operator hrename]
      exact ⟨htail.1, fun x hx hmem => htail.2 x hx (Set.mem_insert_of_mem _ hmem)⟩
    · have ht : ∀ name, t.rename ≠ .operator name := fun name h => hoperator ⟨name, h⟩
      obtain ⟨n, hn⟩ := exists_variant py ht s.used
      obtain ⟨hfree, -⟩ := settled_variant ht hsettled hn (hrecognized n)
      rw [picked_variant ht, List.map_cons, FreshNames.fresh_cons]
      refine ⟨?_, htail⟩
      rintro ⟨x, hx, heq⟩
      rw [hn] at heq
      exact hfree ⟨x, .inr hx, heq⟩

/-- Settled turns are stable. -/
theorem stable_of_settled {second : Finset String} {all : List String} (chosen : List String)
    (hsecond : (second : Set String) = kept \ {x | x ∈ all})
    (hchosen : ∀ x ∈ all, x ∈ kept → x ∈ chosen)
    (hinj : ∀ x ∈ chosen, ∀ y ∈ chosen, py.casefold x = py.casefold y → x = y)
    {ts : List Turn} (hrecognized : ∀ t ∈ ts, t.Recognized py) {s : NamingState}
    (hpicked : ∀ x ∈ picked py s.used ts, x ∈ chosen)
    (h : Runs.Guarded (takeTurn py) (Settled py second) s ts) :
    Runs.Guarded (takeTurn py) (Stable py kept) s ts := by
  induction ts generalizing s with
  | nil => trivial
  | cons t ts ih =>
    obtain ⟨hsettled, hguarded⟩ := Runs.guarded_cons rfl h
    obtain ⟨hrecognized, hrest⟩ := List.forall_mem_cons.mp hrecognized
    by_cases hoperator : ∃ name, t.rename = .operator name
    · obtain ⟨name, hrename⟩ := hoperator
      rw [picked_operator hrename] at hpicked
      refine ⟨?_, ih hrest hpicked hguarded⟩
      unfold Stable
      rw [hrename]
      trivial
    have ht : ∀ name, t.rename ≠ .operator name := fun name h => hoperator ⟨name, h⟩
    rw [picked_variant ht, List.forall_mem_cons] at hpicked
    refine ⟨?_, ih hrest hpicked.2 hguarded⟩
    have hstable : ∀ n, foldedVariants py t.candidate n ∉ (t.base s.used).image py.casefold →
        (∀ m < n, foldedVariants py t.candidate m ∈ (t.base s.used).image py.casefold) →
        isAlgorithmicVariant py (variant t.candidate n) t.candidate = true →
          (∀ name ∈ s.taken, py.casefold name ≠ foldedVariants py t.candidate n) ∧
          (∀ name ∈ kept, py.casefold name = foldedVariants py t.candidate n →
            name = variant t.candidate n) ∧
          ∀ m < n, foldedVariants py t.candidate m ∈ py.casefold '' (kept ∪ s.taken) := by
      intro n hfree hlower hvariant
      have hn := (name_eq_variant_iff ht).mpr ⟨hfree, hlower⟩
      obtain ⟨hfree, hlower⟩ := settled_variant ht hsettled hn hvariant
      refine ⟨fun name hname heq => hfree ⟨name, .inr hname, heq⟩, ?_, ?_⟩
      · intro name hname heq
        by_cases hgiven : name ∈ all
        · rw [← hn]
          apply hinj name (hchosen name hgiven hname) _ hpicked.1
          rw [heq, hn]
          rfl
        · refine absurd ⟨name, .inl ?_, heq⟩ hfree
          rw [hsecond]
          exact ⟨hname, hgiven⟩
      · intro m hm
        obtain ⟨x, hx | hx, heq⟩ := hlower m hm
        · rw [hsecond] at hx
          exact ⟨x, .inl hx.1, heq⟩
        · exact ⟨x, .inr hx, heq⟩
    unfold Stable
    cases hrename : t.rename with
    | operator name => exact absurd hrename (ht name)
    | none => exact hstable
    | proxmox name => exact hstable

/-- What two runs of a cluster's turns have in common: the names used at first, those that the
second run begins with, and the names kept throughout. -/
structure Twice (py : Python) (first second : Finset String) (kept : Set String)
    (ts : List Turn) : Prop where
  sound : ∀ t ∈ ts, t.Sound py
  erased : ∀ t ∈ ts, ∀ name, t.rename = .proxmox name → name ∉ first
  operators : ∀ t ∈ ts, ∀ name, t.rename = .operator name → name ∉ kept
  second : (second : Set String) = kept \ {x | x ∈ names py first ts}

/-- The names of a cluster are given again if every turn is stable. -/
theorem Twice.again_of_stable {second : Finset String} {ts : List Turn}
    (h : Twice py first second kept ts)
    (hstable : Runs.Guarded (takeTurn py) (Stable py kept) ⟨first, ∅⟩ ts) :
    names py second (List.zipWith (Turn.again py) ts (names py first ts)) = names py first ts := by
  have hv : (second : Set String) = (second : Set String) ∪ (∅ : Set String) :=
    (Set.union_empty _).symm
  rw [names_again_iff h.sound (s := ⟨first, ∅⟩) hv]
  exact settled_of_stable h.second
    (given_apart (Finset.Subset.refl first) h.erased h.operators) h.erased
    (Finset.Subset.refl first) (fun _ hx => .inl hx) (fun _ hx => hx) hstable

/-- They are given again only then, if variants are read as such. -/
theorem Twice.stable_of_again {second : Finset String} {ts : List Turn}
    (h : Twice py first second kept ts) (hrecognized : ∀ t ∈ ts, t.Recognized py)
    (hagain : names py second (List.zipWith (Turn.again py) ts (names py first ts)) =
      names py first ts) :
    Runs.Guarded (takeTurn py) (Stable py kept) ⟨first, ∅⟩ ts := by
  have hv : (second : Set String) = (second : Set String) ∪ (∅ : Set String) :=
    (Set.union_empty _).symm
  rw [names_again_iff h.sound (s := ⟨first, ∅⟩) hv] at hagain
  have hfresh := fresh_picked hrecognized hagain
  refine stable_of_settled (picked py first ts) h.second ?_ ?_ hrecognized
    (fun _ hx => hx) hagain
  · intro x hx hkept
    rcases mem_names hx with hpicked | ⟨t, ht, hrename⟩
    · exact hpicked
    · exact absurd hkept (h.operators t ht x hrename)
  · intro x hx y hy heq
    exact List.inj_on_of_nodup_map hfresh.1 hx hy heq

end Cluster

end ProxboxApi.VmNames
