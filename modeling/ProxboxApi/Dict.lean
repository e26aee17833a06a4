import Mathlib.Data.List.Basic

/-! Dictionaries that keep the insertion order of their keys, as association lists. -/

namespace Dict

variable {κ ν : Type*} [DecidableEq κ]

def get (k : κ) : List (κ × ν) → Option ν
  | [] => none
  | (k', v) :: d => if k' = k then some v else get k d

/-- Assignment keeps the place of a key that is there and appends one that is not. -/
def set (k : κ) (v : ν) : List (κ × ν) → List (κ × ν)
  | [] => [(k, v)]
  | (k', v') :: d => if k' = k then (k, v) :: d else (k', v') :: set k v d

/-- `dict.setdefault`. -/
def setDefault (k : κ) (v : ν) (d : List (κ × ν)) : List (κ × ν) :=
  match get k d with
  | some _ => d
  | none => set k v d

def erase (k : κ) (d : List (κ × ν)) : List (κ × ν) := d.filter fun kv => kv.1 ≠ k

def keys (d : List (κ × ν)) : List κ := d.map Prod.fst

/-- `dict.update`. -/
def update (d e : List (κ × ν)) : List (κ × ν) := e.foldl (fun d kv => set kv.1 kv.2 d) d

theorem mem_of_get {k : κ} {v : ν} {d : List (κ × ν)} (h : get k d = some v) : (k, v) ∈ d := by
  induction d with
  | nil => simp [get] at h
  | cons kv d ih =>
    obtain ⟨k', v'⟩ := kv
    by_cases hk : k' = k
    · simp only [get, if_pos hk, Option.some.injEq] at h
      simp [hk, h]
    · simp only [get, if_neg hk] at h
      exact List.mem_cons_of_mem _ (ih h)

theorem not_mem_of_get {k : κ} {v : ν} {d : List (κ × ν)} (h : get k d = none) :
    (k, v) ∉ d := by
  intro hmem
  induction d with
  | nil => simp at hmem
  | cons kv d ih =>
    obtain ⟨k', v'⟩ := kv
    by_cases hk : k' = k
    · simp [get, hk] at h
    · simp only [get, if_neg hk] at h
      rcases List.mem_cons.mp hmem with heq | hmem
      · exact hk (congrArg Prod.fst heq).symm
      · exact ih h hmem

theorem mem_set {k : κ} {v : ν} {d : List (κ × ν)} {kv : κ × ν} (h : kv ∈ set k v d) :
    kv ∈ d ∨ kv = (k, v) := by
  induction d with
  | nil => simpa [set] using h
  | cons kv' d ih =>
    obtain ⟨k', v'⟩ := kv'
    by_cases hk : k' = k
    · rw [set, if_pos hk] at h
      rcases List.mem_cons.mp h with rfl | h
      · exact Or.inr rfl
      · exact Or.inl (List.mem_cons_of_mem _ h)
    · rw [set, if_neg hk] at h
      rcases List.mem_cons.mp h with rfl | h
      · exact Or.inl (List.mem_cons_self ..)
      · exact (ih h).imp_left (List.mem_cons_of_mem _)

theorem mem_update {d e : List (κ × ν)} {kv : κ × ν} (h : kv ∈ update d e) : kv ∈ d ∨ kv ∈ e := by
  induction e generalizing d with
  | nil => exact Or.inl h
  | cons kv' e ih =>
    rcases ih h with hmem | hmem
    · rcases mem_set hmem with hmem | rfl
      · exact Or.inl hmem
      · exact Or.inr (List.mem_cons_self ..)
    · exact Or.inr (List.mem_cons_of_mem _ hmem)

theorem get_set_self {k : κ} {v : ν} {d : List (κ × ν)} : get k (set k v d) = some v := by
  induction d with
  | nil => simp [set, get]
  | cons kv d ih =>
    obtain ⟨k', v'⟩ := kv
    by_cases hk : k' = k
    · simp [set, get, hk]
    · simp [set, get, hk, ih]

theorem get_set_of_ne {k k' : κ} {v : ν} {d : List (κ × ν)} (h : k ≠ k') :
    get k' (set k v d) = get k' d := by
  induction d with
  | nil => simp [set, get, h]
  | cons kv d ih =>
    obtain ⟨l, w⟩ := kv
    by_cases hl : l = k
    · have hk : l ≠ k' := hl ▸ h
      simp [set, get, hl, h]
    · simp [set, get, hl, ih]

theorem get_set {k k' : κ} {v : ν} {d : List (κ × ν)} :
    get k' (set k v d) = if k = k' then some v else get k' d := by
  by_cases h : k = k'
  · rw [if_pos h, ← h, get_set_self]
  · rw [if_neg h, get_set_of_ne h]

theorem get_setDefault {k k' : κ} {v : ν} {d : List (κ × ν)} :
    get k' (setDefault k v d) = (get k' d).or (if k = k' then some v else none) := by
  unfold setDefault
  cases h : get k d with
  | some w =>
    by_cases hk : k = k'
    · simp [← hk, h]
    · simp [hk]
  | none =>
    rw [get_set]
    by_cases hk : k = k'
    · simp [← hk, h]
    · simp [hk]

theorem length_set_le {k : κ} {v : ν} {d : List (κ × ν)} :
    (set k v d).length ≤ d.length + 1 := by
  induction d with
  | nil => simp [set]
  | cons kv d ih =>
    obtain ⟨k', v'⟩ := kv
    by_cases hk : k' = k
    · simp [set, hk]
    · simpa [set, hk] using ih

/-- A filter that keeps the first entry of a key keeps its value. -/
theorem get_filter {k : κ} {v : ν} {p : κ × ν → Bool} {d : List (κ × ν)}
    (h : get k d = some v) (hp : p (k, v) = true) : get k (d.filter p) = some v := by
  induction d with
  | nil => simp [get] at h
  | cons kv d ih =>
    obtain ⟨k', v'⟩ := kv
    by_cases hk : k' = k
    · simp only [get, if_pos hk, Option.some.injEq] at h
      subst hk h
      simp [hp, get]
    · simp only [get, if_neg hk] at h
      by_cases hkeep : p (k', v') = true
      · simp [hkeep, get, hk, ih h]
      · simp [hkeep, ih h]

theorem get_erase_self {k : κ} {d : List (κ × ν)} : get k (erase k d) = none := by
  cases h : get k (erase k d) with
  | none => rfl
  | some v =>
    have hmem := mem_of_get h
    simp [erase] at hmem

theorem erase_length_lt {k : κ} {v : ν} {d : List (κ × ν)} (h : (k, v) ∈ d) :
    (erase k d).length < d.length := by
  unfold erase
  exact List.length_filter_lt_length_iff_exists.mpr ⟨(k, v), h, by simp⟩

theorem get_append {k : κ} {d e : List (κ × ν)} : get k (d ++ e) = (get k d).or (get k e) := by
  induction d with
  | nil => simp [get]
  | cons kv d ih =>
    obtain ⟨l, w⟩ := kv
    by_cases hl : l = k
    · simp [get, hl]
    · simp [get, hl, ih]

theorem get_eq_none_iff {k : κ} {d : List (κ × ν)} : get k d = none ↔ k ∉ keys d := by
  induction d with
  | nil => simp [get, keys]
  | cons kv d ih =>
    obtain ⟨l, w⟩ := kv
    by_cases hl : l = k
    · simp [get, keys, hl]
    · have hne : ¬ k = l := fun h => hl h.symm
      simpa [get, keys, hl, hne] using ih

theorem eq_nil_iff {d : List (κ × ν)} : d = [] ↔ ∀ k, get k d = none := by
  constructor
  · rintro rfl k
    rfl
  · intro h
    cases d with
    | nil => rfl
    | cons kv d =>
      have hk := h kv.1
      simp [get] at hk

theorem mem_keys_iff {k : κ} {d : List (κ × ν)} : k ∈ keys d ↔ ∃ v, get k d = some v := by
  rw [← Option.ne_none_iff_exists', Ne, get_eq_none_iff, not_not]

/-- With distinct keys an entry is found under its key. -/
theorem get_of_mem {k : κ} {v : ν} {d : List (κ × ν)} (hd : (keys d).Nodup) (h : (k, v) ∈ d) :
    get k d = some v := by
  induction d with
  | nil => simp at h
  | cons kv d ih =>
    obtain ⟨l, w⟩ := kv
    obtain ⟨hfresh, hrest⟩ := List.nodup_cons.mp hd
    rcases List.mem_cons.mp h with heq | h
    · obtain ⟨rfl, rfl⟩ := Prod.mk.inj heq
      simp [get]
    · have hne : ¬ l = k := by
        rintro rfl
        exact hfresh (List.mem_map.mpr ⟨_, h, rfl⟩)
      simp only [get, if_neg hne]
      exact ih hrest h

/-- With distinct keys a filter acts on the value found. -/
theorem get_perm {d e : List (κ × ν)} (hd : (keys d).Nodup) (h : d.Perm e) (k : κ) :
    get k d = get k e := by
  have hkeys : (keys d).Perm (keys e) := h.map Prod.fst
  cases hget : get k e with
  | none =>
    rw [get_eq_none_iff] at hget ⊢
    rwa [hkeys.mem_iff]
  | some v => exact get_of_mem hd (h.mem_iff.mpr (mem_of_get hget))

theorem get_filter_of_nodup {k : κ} {p : κ × ν → Bool} {d : List (κ × ν)} (hd : (keys d).Nodup) :
    get k (d.filter p) = (get k d).filter fun v => p (k, v) := by
  induction d with
  | nil => simp [get]
  | cons kv d ih =>
    obtain ⟨l, w⟩ := kv
    obtain ⟨hfresh, hrest⟩ := List.nodup_cons.mp hd
    have ih := ih hrest
    by_cases hl : l = k
    · subst hl
      by_cases hp : p (l, w) = true
      · simp [hp, get, Option.filter]
      · have hnone : get l d = none := get_eq_none_iff.mpr hfresh
        simp [hp, get, ih, hnone, Option.filter]
    · by_cases hp : p (l, w) = true
      · simp [hp, get, hl, ih]
      · simp [hp, get, hl, ih]

theorem get_erase {k k' : κ} {d : List (κ × ν)} :
    get k (erase k' d) = if k' = k then none else get k d := by
  by_cases hk : k' = k
  · rw [if_pos hk, hk, get_erase_self]
  · rw [if_neg hk]
    induction d with
    | nil => rfl
    | cons kv d ih =>
      obtain ⟨l, w⟩ := kv
      by_cases hl : l = k'
      · have hne : ¬ l = k := hl ▸ hk
        simpa [erase, get, hl, hk] using ih
      · by_cases hlk : l = k
        · have hkeep : ¬ k = k' := hlk ▸ hl
          simp [erase, get, hlk, hkeep]
        · simpa [erase, get, hl, hlk] using ih

omit [DecidableEq κ] in
theorem keys_filter_sublist {p : κ × ν → Bool} {d : List (κ × ν)} :
    (keys (d.filter p)).Sublist (keys d) :=
  List.filter_sublist.map _

theorem keys_set {k : κ} {v : ν} {d : List (κ × ν)} :
    keys (set k v d) = if k ∈ keys d then keys d else keys d ++ [k] := by
  induction d with
  | nil => simp [set, keys]
  | cons kv d ih =>
    obtain ⟨l, w⟩ := kv
    by_cases hl : l = k
    · simp [set, keys, hl]
    · have hne : ¬ k = l := fun h => hl h.symm
      simp only [keys] at ih
      by_cases hk : k ∈ d.map Prod.fst
      · simp [set, keys, hl, hne, ih, hk]
      · simp [set, keys, hl, hne, ih, hk]

theorem set_of_not_mem {k : κ} {v : ν} {d : List (κ × ν)} (h : k ∉ keys d) :
    set k v d = d ++ [(k, v)] := by
  induction d with
  | nil => rfl
  | cons kv d ih =>
    obtain ⟨l, w⟩ := kv
    rw [keys, List.map_cons, List.mem_cons, not_or] at h
    obtain ⟨hl, hrest⟩ := h
    rw [set, if_neg fun heq => hl heq.symm, ih hrest]
    rfl

theorem set_of_get {k : κ} {v : ν} {d : List (κ × ν)} (h : get k d = some v) : set k v d = d := by
  induction d with
  | nil => simp [get] at h
  | cons kv d ih =>
    obtain ⟨l, w⟩ := kv
    by_cases hl : l = k
    · simp only [get, if_pos hl, Option.some.injEq] at h
      rw [set, if_pos hl, hl, h]
    · rw [get, if_neg hl] at h
      rw [set, if_neg hl, ih h]

theorem nodup_keys_set {k : κ} {v : ν} {d : List (κ × ν)} (hd : (keys d).Nodup) :
    (keys (set k v d)).Nodup := by
  rw [keys_set]
  split
  · exact hd
  · rename_i hk
    rw [List.nodup_append]
    refine ⟨hd, by simp, ?_⟩
    intro x hx y hy
    rw [List.mem_singleton.mp hy]
    rintro rfl
    exact hk hx

theorem get_update {k : κ} {d e : List (κ × ν)} (he : (keys e).Nodup) :
    get k (update d e) = (get k e).or (get k d) := by
  induction e generalizing d with
  | nil => simp [update, get]
  | cons kv e ih =>
    obtain ⟨l, w⟩ := kv
    obtain ⟨hfresh, hrest⟩ := List.nodup_cons.mp he
    change get k (update (set l w d) e) = _
    rw [ih hrest, get_set]
    by_cases hl : l = k
    · subst hl
      have hnone : get l e = none := get_eq_none_iff.mpr hfresh
      simp [get, hnone]
    · simp [get, hl]

theorem nodup_keys_update {d e : List (κ × ν)} (hd : (keys d).Nodup) :
    (keys (update d e)).Nodup := by
  induction e generalizing d with
  | nil => exact hd
  | cons kv e ih => exact ih (nodup_keys_set hd)

/-- Dictionaries with the same keys in the same order are equal if their values are. -/
theorem ext_of_get {d d' : List (κ × ν)} (hnodup : (keys d).Nodup) (hkeys : keys d = keys d')
    (hget : ∀ k, get k d = get k d') : d = d' := by
  induction d generalizing d' with
  | nil =>
    obtain rfl : d' = [] := by simpa [keys] using hkeys.symm
    rfl
  | cons kv d ih =>
    obtain ⟨kv', d', rfl⟩ := List.exists_cons_of_ne_nil (l := d') (by
      rintro rfl
      simp [keys] at hkeys)
    obtain ⟨k, v⟩ := kv
    obtain ⟨k', v'⟩ := kv'
    obtain ⟨rfl, hrest⟩ : k = k' ∧ keys d = keys d' := by simpa [keys] using hkeys
    obtain ⟨hfresh, hnodup⟩ : k ∉ keys d ∧ (keys d).Nodup := by simpa [keys] using hnodup
    have hhead : v = v' := by simpa [get] using hget k
    have htail : d = d' := by
      refine ih hnodup hrest fun l => ?_
      by_cases hl : k = l
      · subst hl
        rw [get_eq_none_iff.mpr hfresh, get_eq_none_iff.mpr (hrest ▸ hfresh)]
      · simpa [get, hl] using hget l
    rw [hhead, htail]

/-- The last values under each key are the same. -/
def SameLast : List (κ × ν) → List (κ × ν) → Prop
  | [], [] => True
  | (k, a) :: e, (_, b) :: e' => (k ∈ keys e ∨ a = b) ∧ SameLast e e'
  | _, _ => False

theorem update_eq_iff_of_keys {d d' e e' : List (κ × ν)} (hnodup : (keys d).Nodup)
    (hd : keys d = keys d') (he : keys e = keys e') :
    update d e = update d' e' ↔ (∀ k ∉ keys e, get k d = get k d') ∧ SameLast e e' := by
  induction e generalizing d d' e' with
  | nil =>
    obtain rfl : e' = [] := by simpa [keys] using he.symm
    simp only [update, List.foldl_nil, keys, List.map_nil, List.not_mem_nil, not_false_eq_true,
      forall_const, SameLast, and_true]
    constructor
    · rintro rfl k
      rfl
    · exact ext_of_get hnodup hd
  | cons kv e ih =>
    obtain ⟨kv', e', rfl⟩ := List.exists_cons_of_ne_nil (l := e') (by
      rintro rfl
      simp [keys] at he)
    obtain ⟨k, a⟩ := kv
    obtain ⟨k', b⟩ := kv'
    obtain ⟨rfl, hrest⟩ : k = k' ∧ keys e = keys e' := by simpa [keys] using he
    have hkeys : keys (set k a d) = keys (set k b d') := by rw [keys_set, keys_set, hd]
    have hstep := ih (nodup_keys_set (v := a) hnodup) hkeys hrest
    have hsplit : (∀ l ∉ keys e, get l (set k a d) = get l (set k b d')) ↔
        (k ∈ keys e ∨ a = b) ∧ ∀ l ∉ keys ((k, a) :: e), get l d = get l d' := by
      constructor
      · intro h
        refine ⟨?_, ?_⟩
        · by_cases hmem : k ∈ keys e
          · exact Or.inl hmem
          · exact Or.inr (by simpa [get_set] using h k hmem)
        · intro l hl
          obtain ⟨hne, hmem⟩ : l ≠ k ∧ l ∉ keys e := by simpa [keys] using hl
          simpa [get_set, Ne.symm hne] using h l hmem
      · rintro ⟨hhead, h⟩ l hl
        rw [get_set, get_set]
        by_cases hkl : k = l
        · subst hkl
          rcases hhead with hmem | rfl
          · exact absurd hmem hl
          · rw [if_pos rfl, if_pos rfl]
        · rw [if_neg hkl, if_neg hkl]
          refine h l ?_
          intro hmem
          rcases List.mem_cons.mp hmem with rfl | hmem
          · exact hkl rfl
          · exact hl hmem
    change update (set k a d) e = update (set k b d') e' ↔ _
    rw [hstep, hsplit, SameLast, and_right_comm, and_comm]

/-- Two lists of settings with the same keys give the same dictionary if the last setting of
each key is the same. -/
theorem update_nil_eq_iff {e e' : List (κ × ν)} (he : keys e = keys e') :
    update [] e = update [] e' ↔ SameLast e e' := by
  rw [update_eq_iff_of_keys (d := ([] : List (κ × ν))) List.nodup_nil rfl he]
  simp

theorem update_eq_append {d e : List (κ × ν)} (hnodup : (keys e).Nodup)
    (hdisjoint : ∀ k ∈ keys e, k ∉ keys d) : update d e = d ++ e := by
  induction e generalizing d with
  | nil => simp [update]
  | cons kv e ih =>
    obtain ⟨k, v⟩ := kv
    obtain ⟨hfresh, hrest⟩ : k ∉ keys e ∧ (keys e).Nodup := by simpa [keys] using hnodup
    have hset : set k v d = d ++ [(k, v)] := by
      have hk : k ∉ keys d := hdisjoint k (by simp [keys])
      clear ih hdisjoint
      induction d with
      | nil => rfl
      | cons kv' d ih =>
        obtain ⟨hne, hk⟩ : k ≠ kv'.1 ∧ k ∉ keys d := by simpa [keys] using hk
        simp [set, Ne.symm hne, ih hk]
    change update (set k v d) e = _
    rw [hset, ih hrest]
    · simp
    · intro l hl
      have hld : l ∉ keys d := hdisjoint l (by simpa [keys] using Or.inr hl)
      have hne : l ≠ k := by
        rintro rfl
        exact hfresh hl
      simpa [keys, hne] using hld

theorem update_nil_of_nodup {e : List (κ × ν)} (he : (keys e).Nodup) : update [] e = e := by
  rw [update_eq_append he (by simp [keys]), List.nil_append]

/-- A change of the values commutes with the settings. -/
theorem map_update {ν' : Type*} (f : κ → ν → ν') {d e : List (κ × ν)} :
    (update d e).map (fun kv => (kv.1, f kv.1 kv.2)) =
      update (d.map fun kv => (kv.1, f kv.1 kv.2)) (e.map fun kv => (kv.1, f kv.1 kv.2)) := by
  have hset : ∀ (k : κ) (v : ν) (d : List (κ × ν)), (set k v d).map (fun kv => (kv.1, f kv.1 kv.2)) =
      set k (f k v) (d.map fun kv => (kv.1, f kv.1 kv.2)) := by
    intro k v d
    induction d with
    | nil => rfl
    | cons kv d ih =>
      by_cases hk : kv.1 = k
      · simp [set, hk]
      · simp [set, hk, ih]
  induction e generalizing d with
  | nil => rfl
  | cons kv e ih =>
    change (update (set kv.1 kv.2 d) e).map _ = _
    rw [ih, hset]
    rfl

end Dict
