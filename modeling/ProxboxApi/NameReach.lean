import ProxboxApi.NameUniqueness

/-! The names that the VMs of a cluster can be given, read off the snapshot and the prepared VMs
alone, and the clusters in which none of them can be given twice. -/

namespace ProxboxApi.VmNames

open ProxboxApi.VmQueue

variable (py : Python)

/-- The folded name is the one an operator gave, or else a variant of the candidate. -/
def Turn.Bears (t : Turn) (folded : String) : Prop :=
  match t.rename with
  | .operator kept => py.casefold kept = folded
  | _ => ∃ n, foldedVariants py t.candidate n = folded

/-- Every variant before the given one is stored, or an earlier VM of its own may bear it. -/
def Reaches (stored : Finset String) (before : List Turn) (candidate : String) (n : ℕ) : Prop :=
  ∃ bearer : ℕ → ℕ,
    Set.InjOn bearer {m | m < n ∧ foldedVariants py candidate m ∉ stored.image py.casefold} ∧
    ∀ m < n, foldedVariants py candidate m ∉ stored.image py.casefold →
      ∃ t, before[bearer m]? = some t ∧ t.Bears py (foldedVariants py candidate m)

/-- A name that a VM can be given after others: the one an operator gave, or else a variant of the
candidate that is reached and that no stored name takes up to case, or only one that has been
discarded by then. -/
def Turn.CanGive (stored : Finset String) (before : List Turn) (t : Turn) (name : String) : Prop :=
  match t.rename with
  | .operator kept => name = kept
  | _ => ∃ n, name = variant t.candidate n ∧ Reaches py stored before t.candidate n ∧
      ∀ other ∈ stored, py.casefold other = py.casefold name →
        ∃ u ∈ before ++ [t], u.rename = .proxmox other

/-- No VM can be given a name of an unmatched record. Where two VMs can be given one name, the
later one picks it, and it is not discarded after the earlier one. -/
structure Clear (stored : Finset String) (unmatched : Set String) (ts : List Turn) : Prop where
  apart : ∀ before t after, ts = before ++ t :: after →
    ∀ name, t.CanGive py stored before name →
      ∀ other ∈ unmatched, py.casefold other ≠ py.casefold name
  once : ∀ first t between u after, ts = first ++ t :: between ++ u :: after →
    ∀ name other, t.CanGive py stored first name →
      u.CanGive py stored (first ++ t :: between) other → py.casefold name = py.casefold other →
        (∀ kept, u.rename ≠ .operator kept) ∧ ∀ v ∈ between ++ [u], v.rename ≠ .proxmox name

/-- The used names after some turns. -/
def usedAfter (used : Finset String) (ts : List Turn) : Finset String :=
  ts.foldl (fun used t => insert (t.name py used) (t.base used)) used

section Run

variable {py} {used : Finset String} {ts : List Turn} {t : Turn} {name : String}

theorem Turn.mem_base (hname : name ∈ used) (ht : t.rename ≠ .proxmox name) :
    name ∈ t.base used := by
  unfold Turn.base
  cases hrename : t.rename with
  | none => exact hname
  | operator kept => exact hname
  | proxmox other =>
    refine Finset.mem_erase.mpr ⟨?_, hname⟩
    rintro rfl
    exact ht hrename

theorem Turn.mem_of_mem_base (hname : name ∈ t.base used) : name ∈ used := by
  unfold Turn.base at hname
  cases hrename : t.rename with
  | none => simpa [hrename] using hname
  | operator kept => simpa [hrename] using hname
  | proxmox other =>
    rw [hrename] at hname
    exact Finset.mem_of_mem_erase hname

theorem usedAfter_cons (used : Finset String) (t : Turn) (ts : List Turn) :
    usedAfter py used (t :: ts) = usedAfter py (insert (t.name py used) (t.base used)) ts := rfl

theorem usedAfter_append (used : Finset String) (ts us : List Turn) :
    usedAfter py used (ts ++ us) = usedAfter py (usedAfter py used ts) us :=
  List.foldl_append

theorem names_append (used : Finset String) (ts us : List Turn) :
    names py used (ts ++ us) = names py used ts ++ names py (usedAfter py used ts) us := by
  induction ts generalizing used with
  | nil => rfl
  | cons t ts ih =>
    rw [List.cons_append, names, names, ih, usedAfter_cons, List.cons_append]

/-- A used name was used before, or it has been given. -/
theorem mem_usedAfter (h : name ∈ usedAfter py used ts) :
    name ∈ used ∨ name ∈ names py used ts := by
  induction ts generalizing used with
  | nil => exact Or.inl h
  | cons t ts ih =>
    rw [names, List.mem_cons]
    rcases ih h with hused | hgiven
    · rcases Finset.mem_insert.mp hused with rfl | hbase
      · exact Or.inr (Or.inl rfl)
      · exact Or.inl (Turn.mem_of_mem_base hbase)
    · exact Or.inr (Or.inr hgiven)

variable (py) in
/-- A used name stays in use until it is discarded. -/
theorem mem_usedAfter_of_mem (hname : name ∈ used) (hts : ∀ t ∈ ts, t.rename ≠ .proxmox name) :
    name ∈ usedAfter py used ts := by
  induction ts generalizing used with
  | nil => exact hname
  | cons t ts ih =>
    rw [List.forall_mem_cons] at hts
    exact ih (Finset.mem_insert_of_mem (Turn.mem_base hname hts.1)) hts.2

/-- A name that has been given is that of one of the turns. -/
theorem exists_turn_of_mem_names (h : name ∈ names py used ts) :
    ∃ first t between, ts = first ++ t :: between ∧ name = t.name py (usedAfter py used first) := by
  induction ts generalizing used with
  | nil => simp [names] at h
  | cons t ts ih =>
    rw [names, List.mem_cons] at h
    rcases h with rfl | h
    · exact ⟨[], t, ts, rfl, rfl⟩
    · obtain ⟨first, u, between, rfl, hname⟩ := ih h
      exact ⟨t :: first, u, between, rfl, hname⟩

theorem Turn.bears_name (t : Turn) (used : Finset String) :
    t.Bears py (py.casefold (t.name py used)) := by
  unfold Turn.Bears Turn.name
  cases t.rename with
  | none => exact (pickSuffix_isFirstFree py t.candidate _).imp fun n hn => hn.1
  | proxmox other => exact (pickSuffix_isFirstFree py t.candidate _).imp fun n hn => hn.1
  | operator kept => rfl

/-- Each place of the names is that of a VM that may bear the name. -/
theorem bears_of_names {i : ℕ} (h : (names py used ts)[i]? = some name) :
    ∃ t, ts[i]? = some t ∧ t.Bears py (py.casefold name) := by
  induction ts generalizing used i with
  | nil => simp [names] at h
  | cons t ts ih =>
    rw [names] at h
    cases i with
    | zero =>
      rw [List.getElem?_cons_zero] at h
      obtain rfl := Option.some.inj h
      exact ⟨t, rfl, t.bears_name used⟩
    | succ i =>
      rw [List.getElem?_cons_succ] at h ⊢
      exact ih h

/-- A variant that a VM is given is reached. -/
theorem reaches_picked {n : ℕ}
    (h : FreshNames.IsFirstFree (foldedVariants py t.candidate)
      ((t.base (usedAfter py used ts)).image py.casefold) (foldedVariants py t.candidate n)) :
    Reaches py used ts t.candidate n := by
  obtain ⟨k, hk, -, hlower⟩ := h
  obtain rfl := foldedVariants_injective t.candidate hk
  -- a variant in use that is not stored has been given by one of the turns
  have hgiven : ∀ m, ∃ i : ℕ, m < k → foldedVariants py t.candidate m ∉ used.image py.casefold →
      ∃ name, (names py used ts)[i]? = some name ∧
        py.casefold name = foldedVariants py t.candidate m := by
    intro m
    by_cases hm : m < k ∧ foldedVariants py t.candidate m ∉ used.image py.casefold
    · obtain ⟨name, hbase, hname⟩ := Finset.mem_image.mp (hlower m hm.1)
      rcases mem_usedAfter (Turn.mem_of_mem_base hbase) with hused | hgiven
      · exact absurd (Finset.mem_image.mpr ⟨name, hused, hname⟩) hm.2
      · obtain ⟨i, hi⟩ := List.getElem?_of_mem hgiven
        exact ⟨i, fun _ _ => ⟨name, hi, hname⟩⟩
    · exact ⟨0, fun hlt hmem => absurd ⟨hlt, hmem⟩ hm⟩
  choose bearer hbearer using hgiven
  refine ⟨bearer, ?_, ?_⟩
  · intro m hm m' hm' hsame
    obtain ⟨name, hplace, hname⟩ := hbearer m hm.1 hm.2
    obtain ⟨name', hplace', hname'⟩ := hbearer m' hm'.1 hm'.2
    rw [hsame, hplace'] at hplace
    obtain rfl := Option.some.inj hplace
    exact foldedVariants_injective t.candidate (hname.symm.trans hname')
  · intro m hm hmissing
    obtain ⟨name, hplace, hname⟩ := hbearer m hm hmissing
    exact hname ▸ bears_of_names hplace

/-- A VM is given a name that it can be given. -/
theorem Turn.canGive_name (used : Finset String) (ts : List Turn) (t : Turn) :
    t.CanGive py used ts (t.name py (usedAfter py used ts)) := by
  by_cases ht : ∀ kept, t.rename ≠ .operator kept
  · have hfree := pickSuffix_isFirstFree py t.candidate (t.base (usedAfter py used ts))
    obtain ⟨n, hn⟩ := pickSuffix_variant py t.candidate (t.base (usedAfter py used ts))
    rw [hn] at hfree
    have hpicked : ∃ n, t.name py (usedAfter py used ts) = variant t.candidate n ∧
        Reaches py used ts t.candidate n ∧
        ∀ other ∈ used, py.casefold other = py.casefold (t.name py (usedAfter py used ts)) →
          ∃ u ∈ ts ++ [t], u.rename = .proxmox other := by
      rw [Turn.name_picked ht, hn]
      refine ⟨n, rfl, reaches_picked hfree, ?_⟩
      intro other hother hfold
      by_contra hkept
      push Not at hkept
      rw [List.forall_mem_append, List.forall_mem_singleton] at hkept
      have hbase := Turn.mem_base (mem_usedAfter_of_mem py hother hkept.1) hkept.2
      obtain ⟨-, -, hnot, -⟩ := hfree
      exact hnot (Finset.mem_image.mpr ⟨other, hbase, hfold⟩)
    unfold Turn.CanGive
    cases hrename : t.rename with
    | none => exact hpicked
    | proxmox other => exact hpicked
    | operator kept => exact absurd hrename (ht kept)
  · push Not at ht
    obtain ⟨kept, hkept⟩ := ht
    rw [Turn.name_kept hkept]
    unfold Turn.CanGive
    rw [hkept]

theorem Clear.init {stored : Finset String} {unmatched : Set String}
    (h : Clear py stored unmatched (ts ++ [t])) : Clear py stored unmatched ts where
  apart before u after hts :=
    h.apart before u (after ++ [t]) (by rw [hts, List.append_assoc, List.cons_append])
  once first u between v after hts :=
    h.once first u between v (after ++ [t]) (by rw [hts, List.append_assoc, List.cons_append])

/-- Where no VM can be given a name twice, none is. -/
theorem Clear.fresh {stored : Finset String} {unmatched : Set String}
    (h : Clear py stored unmatched ts) :
    FreshNames.Fresh (py.casefold '' unmatched) ((names py stored ts).map py.casefold) := by
  induction ts using List.reverseRecOn with
  | nil => exact FreshNames.fresh_nil
  | append_singleton ts t ih =>
    rw [names_append, List.map_append, names, names, List.map_singleton, FreshNames.fresh_concat]
    have hgive : t.CanGive py stored ts (t.name py (usedAfter py stored ts)) :=
      t.canGive_name stored ts
    refine ⟨ih h.init, ?_, ?_⟩
    · rintro ⟨other, hother, hfold⟩
      exact h.apart ts t [] rfl _ hgive other hother hfold
    · intro hgiven
      obtain ⟨name, hname, hfold⟩ := List.mem_map.mp hgiven
      obtain ⟨first, u, between, rfl, rfl⟩ := exists_turn_of_mem_names hname
      obtain ⟨hpick, hkept⟩ := h.once first u between t [] rfl _ _ (u.canGive_name stored first)
        hgive hfold
      rw [List.forall_mem_append, List.forall_mem_singleton] at hkept
      -- the name given to the earlier VM is still in use, so the later one does not pick it
      have hused : u.name py (usedAfter py stored first) ∈
          usedAfter py stored (first ++ u :: between) := by
        rw [usedAfter_append, usedAfter_cons]
        exact mem_usedAfter_of_mem py (Finset.mem_insert_self _ _) hkept.1
      obtain ⟨-, -, hfree, -⟩ := pickSuffix_isFirstFree py t.candidate
        (t.base (usedAfter py stored (first ++ u :: between)))
      rw [← Turn.name_picked hpick, ← hfold] at hfree
      exact hfree (Finset.mem_image_of_mem _ (Turn.mem_base hused hkept.2))

theorem Turn.CanGive.bears {stored : Finset String} {before : List Turn}
    (h : t.CanGive py stored before name) : t.Bears py (py.casefold name) := by
  unfold Turn.CanGive at h
  unfold Turn.Bears
  cases hrename : t.rename with
  | none =>
    rw [hrename] at h
    obtain ⟨n, rfl, -⟩ := h
    exact ⟨n, rfl⟩
  | proxmox other =>
    rw [hrename] at h
    obtain ⟨n, rfl, -⟩ := h
    exact ⟨n, rfl⟩
  | operator kept =>
    rw [hrename] at h
    exact congrArg py.casefold h.symm

/-- The variants of a candidate begin as it does. -/
theorem Turn.not_bears {folded : String}
    (hpicked : ¬ (py.casefold t.candidate).toList <+: folded.toList)
    (hkept : ∀ kept, t.rename = .operator kept → py.casefold kept ≠ folded) :
    ¬ t.Bears py folded := by
  have hvariant : ¬ ∃ n, foldedVariants py t.candidate n = folded := by
    rintro ⟨n, rfl⟩
    apply hpicked
    cases n with
    | zero => exact List.prefix_refl _
    | succ n =>
      unfold foldedVariants variant
      rw [casefold_suffixed, String.toList_append]
      exact List.prefix_append _ _
  unfold Turn.Bears
  cases hrename : t.rename with
  | none => exact hvariant
  | proxmox other => exact hvariant
  | operator kept => exact hkept kept hrename

/-- It is enough that the names of unmatched records, those that operators gave and those that are
discarded are apart from the names that the other VMs may bear. -/
theorem clear_of_apart {stored : Finset String} {unmatched : Set String}
    (hunmatched : ∀ t ∈ ts, ∀ other ∈ unmatched, ¬ t.Bears py (py.casefold other))
    (hkept : ts.Pairwise fun t u => ∀ kept, u.rename = .operator kept →
      ¬ t.Bears py (py.casefold kept))
    (hdiscarded : ∀ v ∈ ts, ∀ other, v.rename = .proxmox other →
      ∀ t ∈ ts, ¬ t.Bears py (py.casefold other)) : Clear py stored unmatched ts where
  apart before t after hts name hgive other hother hfold := by
    have ht : t ∈ ts := hts ▸ List.mem_append_right _ List.mem_cons_self
    exact hunmatched t ht other hother (hfold ▸ hgive.bears)
  once first t between u after hts name other hfirst hgive hfold := by
    subst hts
    have ht : t ∈ first ++ t :: between := List.mem_append_right _ List.mem_cons_self
    refine ⟨?_, ?_⟩
    · intro kept hrename
      have hother : other = kept := by
        unfold Turn.CanGive at hgive
        rwa [hrename] at hgive
      have hapart := (List.pairwise_append.mp hkept).2.2 t ht u List.mem_cons_self kept hrename
      exact hapart (hother ▸ hfold ▸ hfirst.bears)
    · intro v hv hrename
      have hv' : v ∈ first ++ t :: between ++ u :: after := by
        simp only [List.mem_append, List.mem_cons, List.not_mem_nil, or_false] at hv ⊢
        tauto
      exact hdiscarded v hv' name hrename t (List.mem_append_left _ ht) hfirst.bears

/-- The name an operator gave to a later VM is given twice when it is the first variant of an
earlier one's candidate that is not stored. -/
theorem not_fresh_of_kept {stored : Finset String} {taken : Set String}
    {first between after : List Turn} {u : Turn} {kept : String}
    (hu : u.rename = .operator kept) (ht : ∀ kept, t.rename ≠ .operator kept)
    (hdiscarded : ∀ v ∈ first ++ [t], ∀ other, v.rename ≠ .proxmox other)
    (hfree : FreshNames.IsFirstFree (foldedVariants py t.candidate) (stored.image py.casefold)
      (py.casefold kept)) :
    ¬ FreshNames.Fresh taken
      ((names py stored (first ++ t :: between ++ u :: after)).map py.casefold) := by
  rintro ⟨hnodup, -⟩
  rw [List.forall_mem_append, List.forall_mem_singleton] at hdiscarded
  rw [names_append, names_append, names, names, Turn.name_kept hu, List.map_append,
    List.nodup_append] at hnodup
  have hapart : ∀ name ∈ names py stored first ++ [t.name py (usedAfter py stored first)],
      py.casefold name ≠ py.casefold kept := by
    intro name hname
    refine hnodup.2.2 _ (List.mem_map_of_mem ?_) _ (by simp)
    simp only [List.mem_append, List.mem_cons, List.not_mem_nil, or_false] at hname ⊢
    tauto
  rw [List.forall_mem_append, List.forall_mem_singleton] at hapart
  refine hapart.2 ?_
  -- neither is the name kept in use at the turn, nor is a variant before it free
  rw [Turn.name_picked ht]
  refine (pickSuffix_isFirstFree py t.candidate _).eq ?_
  obtain ⟨n, hn, hmissing, hlower⟩ := hfree
  refine ⟨n, hn, ?_, ?_⟩
  · intro hmem
    obtain ⟨name, hbase, hname⟩ := Finset.mem_image.mp hmem
    rcases mem_usedAfter (Turn.mem_of_mem_base hbase) with hstored | hgiven
    · exact hmissing (Finset.mem_image.mpr ⟨name, hstored, hname⟩)
    · exact hapart.1 name hgiven hname
  · intro m hm
    obtain ⟨name, hstored, hname⟩ := Finset.mem_image.mp (hlower m hm)
    have hused := mem_usedAfter_of_mem py hstored fun v hv => hdiscarded.1 v hv name
    exact Finset.mem_image.mpr ⟨name, Turn.mem_base hused (hdiscarded.2 name), hname⟩

end Run

variable {indexes : Indexes} {snapshot : List Record} {prepared after : List PreparedVMState}
  {lastSyncedNames : List (ℤ × String)} {resolutions : List NameResolution}

/-- The names after the pre-pass are unique within a cluster in which no name can be given
twice. -/
theorem uniqueNames_of_clear (hname : ∀ p ∈ prepared, candidateName py p ≠ "")
    (hvmid : ∀ p ∈ prepared, vmidOf py p ≠ 0)
    (hindexes : buildVmSnapshotIdentityIndexes py snapshot = some indexes)
    (hrun : resolveVmNamesPrePass py snapshot lastSyncedNames prepared =
      some (after, resolutions)) (c : ℤ)
    (h : Clear py (usedBefore py indexes snapshot prepared c)
      (unmatchedNames py indexes snapshot prepared c)
      (turns py indexes lastSyncedNames prepared c)) :
    UniqueNames py indexes snapshot prepared after c := by
  rw [uniqueNames_iff_fresh py (prePass_clusters py hrun),
    prePass_names py hname hvmid hindexes hrun]
  exact h.fresh

/-- The record 7 has a name that an operator gave it, and the record 8 the one that its VM had. -/
def mixedRecords : List Record := [record 7 20 "alpha", record 8 30 "old", record 9 5 "db"]

def mixedGuests : List PreparedVMState :=
  [guest 20 "beta", guest 30 "new", guest 11 "Web", guest 10 "web"]

def mixedTurns : List Turn :=
  [⟨"web", .none⟩, ⟨"Web", .none⟩, ⟨"beta", .operator "alpha"⟩, ⟨"new", .proxmox "old"⟩]

theorem turns_mixed (h : buildVmSnapshotIdentityIndexes .ascii mixedRecords = some indexes) :
    turns .ascii indexes [(8, "old")] mixedGuests 1 = mixedTurns := by
  obtain rfl := Option.some.inj h
  rfl

theorem unmatchedNames_mixed
    (h : buildVmSnapshotIdentityIndexes .ascii mixedRecords = some indexes) {name : String}
    (hname : name ∈ unmatchedNames .ascii indexes mixedRecords mixedGuests 1) :
    name = "db" := by
  obtain rfl := Option.some.inj h
  obtain ⟨r, hr, -, hstored, hapart⟩ := hname
  simp only [mixedRecords, List.mem_cons, List.not_mem_nil, or_false] at hr
  rcases hr with rfl | rfl | rfl
  · exact absurd rfl (hapart (guest 20 "beta") (by simp [mixedGuests]))
  · exact absurd rfl (hapart (guest 30 "new") (by simp [mixedGuests]))
  · exact (Option.some.inj hstored).symm

/-- Only a name that begins as a candidate does, or the one an operator gave, may be borne. -/
theorem mixed_apart {folded : String}
    (h : ∀ candidate ∈ ["web", "beta", "new"], ¬ candidate.toList <+: folded.toList)
    (hkept : "alpha" ≠ folded) : ∀ t ∈ mixedTurns, ¬ t.Bears .ascii folded := by
  intro t ht
  simp only [mixedTurns, List.mem_cons, List.not_mem_nil, or_false] at ht
  rcases ht with rfl | rfl | rfl | rfl
  · exact Turn.not_bears (h "web" (by decide)) (by simp)
  · exact Turn.not_bears (h "web" (by decide)) (by simp)
  · refine Turn.not_bears (h "beta" (by decide)) ?_
    rintro kept ⟨⟩
    exact hkept
  · exact Turn.not_bears (h "new" (by decide)) (by simp)

theorem uniqueNames_of_clear_renamed : ∃ indexes after resolutions,
    buildVmSnapshotIdentityIndexes .ascii mixedRecords = some indexes ∧
    resolveVmNamesPrePass .ascii mixedRecords [(8, "old")] mixedGuests =
      some (after, resolutions) ∧
    after.map (candidateName .ascii) = ["alpha", "new", "Web (2)", "web"] ∧
    UniqueNames .ascii indexes mixedRecords mixedGuests after 1 := by
  have hrun : resolveVmNamesPrePass .ascii mixedRecords [(8, "old")] mixedGuests = some _ := rfl
  refine ⟨_, _, _, rfl, hrun, by decide, ?_⟩
  refine uniqueNames_of_clear .ascii (by decide) (by decide) rfl hrun 1 ?_
  rw [turns_mixed rfl]
  refine clear_of_apart ?_ ?_ ?_
  · intro t ht other hother
    rw [unmatchedNames_mixed rfl hother]
    exact mixed_apart (by decide) (by decide) t ht
  · simp only [mixedTurns, List.pairwise_cons, List.mem_cons, List.not_mem_nil, or_false,
      forall_eq_or_imp, forall_eq, IsEmpty.forall_iff, implies_true, List.Pairwise.nil,
      reduceCtorEq, and_true, true_and, Rename.operator.injEq, forall_eq']
    exact ⟨Turn.not_bears (by decide) (by simp), Turn.not_bears (by decide) (by simp)⟩
  · intro v hv other hother
    have hold : other = "old" := by
      simp only [mixedTurns, List.mem_cons, List.not_mem_nil, or_false] at hv
      rcases hv with rfl | rfl | rfl | rfl <;> cases hother
      rfl
    rw [hold]
    exact mixed_apart (by decide) (by decide)

/-- The names of a cluster are not unique where an operator gave a VM the first variant of an
earlier one's candidate that is not stored. -/
theorem not_uniqueNames_of_kept (hname : ∀ p ∈ prepared, candidateName py p ≠ "")
    (hvmid : ∀ p ∈ prepared, vmidOf py p ≠ 0)
    (hindexes : buildVmSnapshotIdentityIndexes py snapshot = some indexes)
    (hrun : resolveVmNamesPrePass py snapshot lastSyncedNames prepared =
      some (after, resolutions)) (c : ℤ) {first between later : List Turn} {t u : Turn}
    {kept : String}
    (hturns : turns py indexes lastSyncedNames prepared c =
      first ++ t :: between ++ u :: later)
    (hu : u.rename = .operator kept) (ht : ∀ kept, t.rename ≠ .operator kept)
    (hdiscarded : ∀ v ∈ first ++ [t], ∀ other, v.rename ≠ .proxmox other)
    (hfree : FreshNames.IsFirstFree (foldedVariants py t.candidate)
      ((usedBefore py indexes snapshot prepared c).image py.casefold) (py.casefold kept)) :
    ¬ UniqueNames py indexes snapshot prepared after c := by
  rw [uniqueNames_iff_fresh py (prePass_clusters py hrun),
    prePass_names py hname hvmid hindexes hrun, hturns]
  exact not_fresh_of_kept hu ht hdiscarded hfree

end ProxboxApi.VmNames
