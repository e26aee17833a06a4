import Mathlib.Data.List.ReduceOption
import ProxboxApi.GuestInterfaces

/-! What the merging of alias entries keeps of the addresses that a guest agent reports. -/

namespace ProxboxApi.GuestAgent

open ProxboxApi.VmQueue (field)

variable (py : Python)

/-- The pass after the entries `done`: the indexes to drop are those of the aliases with another
canonical entry, which has their addresses; no entry has lost one or got one of another base. -/
structure Inv (input done : List Interface) (pass : Pass) : Prop where
  labels : pass.interfaces.map Interface.label = input.map Interface.label
  aliases : ∀ base, Dict.get base (parentByName py input) = none →
    Dict.get base pass.aliasCanonicalByBase =
      done.findIdx? fun i => aliasBaseName py i.name = some base
  drop : ∀ i : ℕ, i ∈ pass.drop ↔ ∃ x, done[i]? = some x ∧
    ∃ base, aliasBaseName py x.name = some base ∧ canonicalOf py input base ≠ some i
  sound : ∀ (i : ℕ) x, pass.interfaces[i]? = some x → ∀ a ∈ x.ipAddresses,
    ∃ j ∈ input, baseOf py j = baseOf py x ∧ a ∈ j.ipAddresses
  grows : ∀ (i : ℕ) y x, input[i]? = some y → pass.interfaces[i]? = some x →
    ∀ a ∈ y.ipAddresses, a ∈ x.ipAddresses
  covers : ∀ i ∈ pass.drop, ∀ y, input[i]? = some y → ∀ c,
    canonicalOf py input (baseOf py y) = some c → ∀ x, pass.interfaces[c]? = some x →
      ∀ a ∈ y.ipAddresses, ∃ a' ∈ x.ipAddresses, SamePair a' a

variable {py} {input done rest : List Interface} {pass pass' : Pass} {x : Interface} {base : String}

theorem inv_start (input : List Interface) : Inv py input [] ⟨input, [], []⟩ where
  labels := rfl
  aliases base _ := by simp [Dict.get]
  drop i := by simp
  sound i x hx a ha := ⟨x, List.mem_of_getElem? hx, rfl, ha⟩
  grows i y x hy hx a ha := by
    rw [hy] at hx
    rwa [← Option.some.inj hx]
  covers i hi := by cases hi

theorem findIdx?_concat {α : Type} (p : α → Bool) (l : List α) (x : α) :
    (l ++ [x]).findIdx? p = (l.findIdx? p).or (if p x then some l.length else none) := by
  rw [List.findIdx?_append]
  cases hx : p x with
  | false => simp [hx]
  | true => simp [hx]

/-- The dictionary of canonical aliases after the round of an alias of `base`. -/
def aliasesWith (parents : List (String × ℕ)) (base : String) (idx : ℕ)
    (aliases : List (String × ℕ)) : List (String × ℕ) :=
  if (Dict.get base parents).isSome then aliases else Dict.setDefault base idx aliases

theorem get_aliasesWith (h : Inv py input done pass) (hx : aliasBaseName py x.name = some base)
    {base' : String} (hbase' : Dict.get base' (parentByName py input) = none) :
    Dict.get base' (aliasesWith (parentByName py input) base done.length
      pass.aliasCanonicalByBase) =
      (done ++ [x]).findIdx? fun i => aliasBaseName py i.name = some base' := by
  rw [findIdx?_concat, hx, ← h.aliases base' hbase', aliasesWith]
  by_cases hbase : base = base'
  · subst hbase
    simp [hbase', Dict.get_setDefault]
  · split
    · simp [hbase]
    · simp [Dict.get_setDefault, hbase]

theorem canonicalOf_eq (h : Inv py input done pass) (hinput : input = done ++ x :: rest)
    (hx : aliasBaseName py x.name = some base) : canonicalOf py input base =
      (Dict.get base (parentByName py input)).or (Dict.get base
        (aliasesWith (parentByName py input) base done.length pass.aliasCanonicalByBase)) := by
  rw [canonicalOf, ← get_parentByName]
  cases hparent : Dict.get base (parentByName py input) with
  | some c => rfl
  | none =>
    rw [Option.none_or, Option.none_or, get_aliasesWith h hx hparent, hinput, List.append_cons,
      List.findIdx?_append, findIdx?_concat]
    simp [hx]

theorem canonicalOf_isSome (hinput : input = done ++ x :: rest)
    (hx : aliasBaseName py x.name = some base) : (canonicalOf py input base).isSome = true := by
  rw [canonicalOf, Option.isSome_or, Bool.or_eq_true]
  right
  rw [List.findIdx?_isSome, List.any_eq_true]
  exact ⟨x, by simp [hinput], decide_eq_true hx⟩

theorem mem_drop_concat (h : Inv py input done pass) (i : ℕ) :
    (∃ y, (done ++ [x])[i]? = some y ∧ ∃ base, aliasBaseName py y.name = some base ∧
      canonicalOf py input base ≠ some i) ↔
    i ∈ pass.drop ∨ (i = done.length ∧ ∃ base, aliasBaseName py x.name = some base ∧
      canonicalOf py input base ≠ some i) := by
  rw [h.drop i]
  rcases Nat.lt_trichotomy i done.length with hlt | rfl | hgt
  · rw [List.getElem?_append_left hlt]
    simp [hlt.ne]
  · simp
  · rw [List.getElem?_eq_none (by simp; omega), List.getElem?_eq_none hgt.le]
    simp [hgt.ne']

theorem baseOf_congr {x y : Interface} (h : x.label = y.label) : baseOf py x = baseOf py y := by
  rw [baseOf, baseOf, show x.name = y.name from congrArg Prod.fst h]

theorem Inv.label_eq (h : Inv py input done pass) {i : ℕ} {x y : Interface}
    (hx : pass.interfaces[i]? = some x) (hy : input[i]? = some y) : x.label = y.label := by
  have hlabels := congrArg (·[i]?) h.labels
  simpa [hx, hy] using hlabels

/-- An entry that is its own canonical entry, or no alias, stays. -/
theorem Inv.keep (h : Inv py input done pass)
    (hx : ∀ base, aliasBaseName py x.name = some base →
      canonicalOf py input base = some done.length)
    {aliases : List (String × ℕ)}
    (haliases : ∀ base, Dict.get base (parentByName py input) = none → Dict.get base aliases =
      (done ++ [x]).findIdx? fun i => aliasBaseName py i.name = some base) :
    Inv py input (done ++ [x]) { pass with aliasCanonicalByBase := aliases } where
  labels := h.labels
  aliases := haliases
  drop i := by
    rw [mem_drop_concat h]
    constructor
    · exact .inl
    · rintro (hi | ⟨rfl, base, hbase, hne⟩)
      · exact hi
      · exact absurd (hx base hbase) hne
  sound := h.sound
  grows := h.grows
  covers := h.covers

/-- An alias is merged into its canonical entry. -/
theorem Inv.merge (h : Inv py input done pass) (hinput : input = done ++ x :: rest)
    (hx : aliasBaseName py x.name = some base) {c : ℕ} (hc : canonicalOf py input base = some c)
    (hne : c ≠ done.length) {target source merged : Interface}
    (htarget : pass.interfaces[c]? = some target)
    (hsource : pass.interfaces[done.length]? = some source)
    (hmerged : mergeInterfaceAddresses target source = some merged)
    {aliases : List (String × ℕ)}
    (haliases : ∀ base, Dict.get base (parentByName py input) = none → Dict.get base aliases =
      (done ++ [x]).findIdx? fun i => aliasBaseName py i.name = some base) :
    Inv py input (done ++ [x])
      ⟨pass.interfaces.set c merged, aliases, done.length :: pass.drop⟩ := by
  obtain ⟨hlabel, hkeeps, hfrom, htakes⟩ := merge_spec hmerged
  have hxat : input[done.length]? = some x := by simp [hinput]
  have hbase : baseOf py x = base := by rw [baseOf, hx, Option.getD_some]
  obtain ⟨first, hfirst, hfirstbase, _⟩ := canonicalOf_spec hc
  have htargetbase : baseOf py target = base :=
    (baseOf_congr (h.label_eq htarget hfirst)).trans hfirstbase
  have hsourcebase : baseOf py source = base :=
    (baseOf_congr (h.label_eq hsource hxat)).trans hbase
  obtain ⟨hlt, hget⟩ := List.getElem?_eq_some_iff.mp htarget
  have hset : ∀ (i : ℕ) z, (pass.interfaces.set c merged)[i]? = some z →
      (i = c ∧ z = merged) ∨ (i ≠ c ∧ pass.interfaces[i]? = some z) := by
    intro i z hz
    rw [List.getElem?_set] at hz
    by_cases hic : c = i
    · subst hic
      rw [if_pos rfl, if_pos hlt] at hz
      exact .inl ⟨rfl, (Option.some.inj hz).symm⟩
    · rw [if_neg hic] at hz
      exact .inr ⟨Ne.symm hic, hz⟩
  constructor
  case labels =>
    rw [← h.labels, List.map_set, hlabel, ← hget, ← List.map_set, List.set_getElem_self]
  case aliases => exact haliases
  case drop =>
    intro i
    rw [mem_drop_concat h, List.mem_cons, or_comm]
    refine or_congr_right ⟨fun hi => ⟨hi, base, hx, ?_⟩, fun hi => hi.1⟩
    rw [hc, hi]
    exact fun heq => hne (Option.some.inj heq)
  case sound =>
    intro i z hz a ha
    obtain ⟨rfl, rfl⟩ | ⟨_, hz⟩ := hset i z hz
    · rw [baseOf_congr hlabel]
      rcases hfrom a ha with ha | ha
      · exact h.sound i target htarget a ha
      · obtain ⟨j, hj, hjbase, haj⟩ := h.sound _ source hsource a ha
        exact ⟨j, hj, by rw [hjbase, hsourcebase, htargetbase], haj⟩
    · exact h.sound i z hz a ha
  case grows =>
    intro i y z hy hz a ha
    obtain ⟨rfl, rfl⟩ | ⟨_, hz⟩ := hset i z hz
    · exact hkeeps a (h.grows i y target hy htarget a ha)
    · exact h.grows i y z hy hz a ha
  case covers =>
    intro i hi y hy c' hc' z hz a ha
    rcases List.mem_cons.mp hi with rfl | hold
    · obtain rfl : x = y := Option.some.inj (hxat.symm.trans hy)
      rw [hbase, hc] at hc'
      obtain rfl := Option.some.inj hc'
      obtain ⟨_, rfl⟩ | ⟨hnot, _⟩ := hset c z hz
      · exact htakes a (h.grows _ x source hxat hsource a ha)
      · exact absurd rfl hnot
    · obtain ⟨rfl, rfl⟩ | ⟨_, hz⟩ := hset c' z hz
      · obtain ⟨a', ha', hsame⟩ := h.covers i hold y hy c' hc' target htarget a ha
        exact ⟨a', hkeeps a' ha', hsame⟩
      · exact h.covers i hold y hy c' hc' z hz a ha

/-- An alias with another canonical entry is merged into it. -/
theorem aggregateStep_alias (h : Inv py input done pass) (hinput : input = done ++ x :: rest)
    (hx : aliasBaseName py x.name = some base) {c : ℕ} (hc : canonicalOf py input base = some c) :
    aggregateStep py (parentByName py input) pass (x, done.length) =
      if c = done.length then some ⟨pass.interfaces, aliasesWith (parentByName py input) base
        done.length pass.aliasCanonicalByBase, pass.drop⟩
      else pass.interfaces[c]?.bind fun target => pass.interfaces[done.length]?.bind fun source =>
        (mergeInterfaceAddresses target source).bind fun merged =>
          some ⟨pass.interfaces.set c merged, aliasesWith (parentByName py input) base done.length
            pass.aliasCanonicalByBase, done.length :: pass.drop⟩ := by
  rw [canonicalOf_eq h hinput hx] at hc
  simp only [aggregateStep, hx]
  rw [← aliasesWith, hc, Option.getD_some]
  rfl

theorem inv_step (h : Inv py input done pass) (hinput : input = done ++ x :: rest)
    (hstep : aggregateStep py (parentByName py input) pass (x, done.length) = some pass') :
    Inv py input (done ++ [x]) pass' := by
  cases hx : aliasBaseName py x.name with
  | none =>
    simp only [aggregateStep, hx] at hstep
    cases hstep
    refine h.keep (fun base hbase => ?_) fun base hparent => ?_
    · rw [hx] at hbase
      cases hbase
    · rw [h.aliases base hparent, findIdx?_concat, hx]
      simp
  | some base =>
    have haliases : ∀ base', Dict.get base' (parentByName py input) = none → _ :=
      fun _ hparent => get_aliasesWith h hx hparent
    obtain ⟨c, hc⟩ := Option.isSome_iff_exists.mp (canonicalOf_isSome hinput hx)
    rw [aggregateStep_alias h hinput hx hc] at hstep
    split at hstep
    · rename_i heq
      cases hstep
      refine h.keep (fun base' hbase' => ?_) haliases
      rw [hx] at hbase'
      obtain rfl := Option.some.inj hbase'
      rw [hc, heq]
    · rename_i hne
      simp only [Option.bind_eq_some_iff, Option.some.injEq] at hstep
      obtain ⟨target, htarget, source, hsource, merged, hmerged, rfl⟩ := hstep
      exact h.merge hinput hx hc hne htarget hsource hmerged haliases

theorem inv_run (hinput : input = done ++ rest) (h : Inv py input done pass)
    (hrun : (rest.zipIdx done.length).foldlM (aggregateStep py (parentByName py input)) pass =
      some pass') : Inv py input input pass' := by
  induction rest generalizing done pass with
  | nil =>
    rw [List.append_nil] at hinput
    cases hrun
    exact hinput ▸ h
  | cons x rest ih =>
    rw [List.zipIdx_cons, List.foldlM_cons] at hrun
    obtain ⟨next, hnext, hrun⟩ := Option.bind_eq_some_iff.mp hrun
    refine ih (by rw [hinput, List.append_cons]) (inv_step h hinput hnext) ?_
    rwa [List.length_append, List.length_singleton]

/-- Where every prefix is a scalar, no round raises. -/
theorem step_isSome (hscalar : ∀ i ∈ input, ∀ a ∈ i.ipAddresses, a.prefixLen.hashable = true)
    (h : Inv py input done pass) (hinput : input = done ++ x :: rest) :
    (aggregateStep py (parentByName py input) pass (x, done.length)).isSome = true := by
  cases hx : aliasBaseName py x.name with
  | none =>
    simp only [aggregateStep, hx]
    rfl
  | some base =>
    obtain ⟨c, hc⟩ := Option.isSome_iff_exists.mp (canonicalOf_isSome hinput hx)
    rw [aggregateStep_alias h hinput hx hc]
    split
    · rfl
    · have hlength : pass.interfaces.length = input.length := by
        simpa using congrArg List.length h.labels
      obtain ⟨y, hy, _⟩ := canonicalOf_spec hc
      have hclt : c < pass.interfaces.length := hlength ▸ (List.getElem?_eq_some_iff.mp hy).1
      have hlt : done.length < pass.interfaces.length := by
        rw [hlength, hinput]
        simp
      have hashable : ∀ (i : ℕ) z, pass.interfaces[i]? = some z →
          ∀ a ∈ z.ipAddresses, a.prefixLen.hashable = true := fun i z hz a ha => by
        obtain ⟨j, hj, _, haj⟩ := h.sound i z hz a ha
        exact hscalar j hj a haj
      have htarget := List.getElem?_eq_getElem hclt
      have hsource := List.getElem?_eq_getElem hlt
      obtain ⟨merged, hmerged⟩ := Option.isSome_iff_exists.mp
        (merge_isSome (hashable _ _ htarget) (hashable _ _ hsource))
      rw [htarget, Option.bind_some, hsource, Option.bind_some, hmerged]
      rfl

theorem run_isSome (hscalar : ∀ i ∈ input, ∀ a ∈ i.ipAddresses, a.prefixLen.hashable = true)
    (h : Inv py input done pass) (hinput : input = done ++ rest) :
    ((rest.zipIdx done.length).foldlM (aggregateStep py (parentByName py input))
      pass).isSome = true := by
  induction rest generalizing done pass with
  | nil => rfl
  | cons x rest ih =>
    obtain ⟨next, hnext⟩ := Option.isSome_iff_exists.mp (step_isSome hscalar h hinput)
    rw [List.zipIdx_cons, List.foldlM_cons, hnext]
    have hrest := ih (inv_step h hinput hnext) (by rw [hinput, List.append_cons])
    rwa [List.length_append, List.length_singleton] at hrest

theorem kept_eq (pass : Pass) : pass.kept =
    (pass.interfaces.zipIdx.filter fun entry => entry.2 ∉ pass.drop).map Prod.fst := by
  unfold Pass.kept
  split
  · rename_i hdrop
    simp [hdrop, List.zipIdx_map_fst]
  · rfl

theorem mem_kept : x ∈ pass.kept ↔ ∃ i, pass.interfaces[i]? = some x ∧ i ∉ pass.drop := by
  rw [kept_eq]
  simp [List.mem_zipIdx_iff_getElem?]

variable (py) in
/-- No alias has a parent or a second alias of its base beside it. -/
structure Settled (interfaces : List Interface) : Prop where
  orphan : ∀ x ∈ interfaces, ∀ base, aliasBaseName py x.name = some base →
    ∀ y ∈ interfaces, aliasBaseName py y.name = none → y.name ≠ base
  single : interfaces.Pairwise fun x y => ∀ base, aliasBaseName py x.name = some base →
    aliasBaseName py y.name ≠ some base

theorem Inv.canonical_of_kept (h : Inv py input input pass) {i : ℕ} {x : Interface}
    (hx : pass.interfaces[i]? = some x) (hi : i ∉ pass.drop) {base : String}
    (hbase : aliasBaseName py x.name = some base) : canonicalOf py input base = some i := by
  have hlength : pass.interfaces.length = input.length := by
    simpa using congrArg List.length h.labels
  obtain ⟨y, hy⟩ : ∃ y, input[i]? = some y :=
    ⟨_, List.getElem?_eq_getElem (hlength ▸ (List.getElem?_eq_some_iff.mp hx).1)⟩
  have hname : x.name = y.name := congrArg Prod.fst (h.label_eq hx hy)
  by_contra hne
  exact hi ((h.drop i).mpr ⟨y, hy, base, hname ▸ hbase, hne⟩)

theorem settled_kept (h : Inv py input input pass) : Settled py pass.kept := by
  constructor
  · intro x hx base hbase y hy hparent hname
    obtain ⟨i, hxi, hi⟩ := mem_kept.mp hx
    have hc := h.canonical_of_kept hxi hi hbase
    have hfound : (input.findIdx? fun z =>
        aliasBaseName py z.name = none ∧ z.name = base).isSome = true := by
      obtain ⟨k, hyk, _⟩ := mem_kept.mp hy
      rw [List.findIdx?_isSome, List.any_eq_true]
      have hlabel : y.label ∈ input.map Interface.label := by
        rw [← h.labels]
        exact List.mem_map_of_mem (List.mem_of_getElem? hyk)
      obtain ⟨z, hz, hzy⟩ := List.mem_map.mp hlabel
      have hzname : z.name = y.name := congrArg Prod.fst hzy
      exact ⟨z, hz, decide_eq_true ⟨hzname ▸ hparent, hzname.trans hname⟩⟩
    obtain ⟨p, hp⟩ := Option.isSome_iff_exists.mp hfound
    rw [canonicalOf, hp, Option.some_or] at hc
    obtain rfl := Option.some.inj hc
    obtain ⟨hlt, hz, _⟩ := List.findIdx?_eq_some_iff_getElem.mp hp
    have hlabel := h.label_eq hxi (List.getElem?_eq_getElem hlt)
    simp only [decide_eq_true_eq] at hz
    rw [show x.name = input[p].name from congrArg Prod.fst hlabel, hz.1] at hbase
    cases hbase
  · rw [kept_eq, List.pairwise_map]
    have hnodup : (pass.interfaces.zipIdx.map Prod.snd).Nodup := by
      rw [List.zipIdx_map_snd]
      exact List.nodup_range'
    refine ((List.pairwise_map.mp hnodup).filter _).imp_of_mem fun {a b} ha hb hne base hx hy => ?_
    obtain ⟨ha, hai⟩ := List.mem_filter.mp ha
    obtain ⟨hb, hbi⟩ := List.mem_filter.mp hb
    have hac := h.canonical_of_kept (List.mem_zipIdx_iff_getElem?.mp ha) (of_decide_eq_true hai) hx
    have hbc := h.canonical_of_kept (List.mem_zipIdx_iff_getElem?.mp hb) (of_decide_eq_true hbi) hy
    exact hne (Option.some.inj (hac.symm.trans hbc))

/-- In a settled list every alias is its own canonical entry. -/
theorem canonicalOf_of_settled (h : Settled py input) (hinput : input = done ++ x :: rest)
    (hx : aliasBaseName py x.name = some base) :
    canonicalOf py input base = some done.length := by
  have hmem : x ∈ input := by simp [hinput]
  have hparent : (input.findIdx? fun i => aliasBaseName py i.name = none ∧ i.name = base) =
      none := by
    rw [List.findIdx?_eq_none_iff]
    intro y hy
    simp only [decide_eq_false_iff_not]
    exact fun hboth => h.orphan x hmem base hx y hy hboth.1 hboth.2
  have hfirst : (done.findIdx? fun i => aliasBaseName py i.name = some base) = none := by
    rw [List.findIdx?_eq_none_iff]
    intro y hy
    simp only [decide_eq_false_iff_not]
    intro hyx
    have hsingle := h.single
    rw [hinput, List.pairwise_append] at hsingle
    exact hsingle.2.2 y hy x (.head _) base hyx hx
  rw [canonicalOf, hparent, Option.none_or, hinput, List.findIdx?_append, hfirst,
    List.findIdx?_cons, if_pos (decide_eq_true hx)]
  simp

theorem run_of_settled (h : Settled py input) (hinv : Inv py input done pass)
    (hinput : input = done ++ rest) :
    ∃ aliases, (rest.zipIdx done.length).foldlM (aggregateStep py (parentByName py input)) pass =
      some { pass with aliasCanonicalByBase := aliases } := by
  induction rest generalizing done pass with
  | nil => exact ⟨pass.aliasCanonicalByBase, rfl⟩
  | cons x rest ih =>
    obtain ⟨aliases, hstep⟩ : ∃ aliases, aggregateStep py (parentByName py input) pass
        (x, done.length) = some { pass with aliasCanonicalByBase := aliases } := by
      cases hx : aliasBaseName py x.name with
      | none =>
        simp only [aggregateStep, hx]
        exact ⟨pass.aliasCanonicalByBase, rfl⟩
      | some base =>
        rw [aggregateStep_alias hinv hinput hx (canonicalOf_of_settled h hinput hx), if_pos rfl]
        exact ⟨_, rfl⟩
    have hrest := ih (inv_step hinv hinput hstep) (by rw [hinput, List.append_cons])
    rw [List.length_append, List.length_singleton] at hrest
    rw [List.zipIdx_cons, List.foldlM_cons, hstep]
    exact hrest

theorem aggregate_of_settled (h : Settled py input) : aggregate py input = some input := by
  obtain ⟨aliases, hrun⟩ := run_of_settled h (inv_start input) rfl
  rw [aggregate]
  exact (congrArg (Option.map Pass.kept) hrun).trans rfl

variable (py) in
/-- What the aggregation of `input` leaves: the entries that are no aliases, in order, and one
alias of each base without such an entry; for each base exactly the pairs of its entries; and
nothing that a second aggregation would change. -/
structure Aggregated (input result : List Interface) : Prop where
  labels : (result.map Interface.label).Sublist (input.map Interface.label)
  parents : (result.filter fun i => aliasBaseName py i.name = none).map Interface.label =
    (input.filter fun i => aliasBaseName py i.name = none).map Interface.label
  settled : Settled py result
  sound : ∀ i ∈ result, ∀ a ∈ i.ipAddresses,
    ∃ j ∈ input, baseOf py j = baseOf py i ∧ a ∈ j.ipAddresses
  complete : ∀ j ∈ input, (∃ i ∈ result, baseOf py i = baseOf py j) ∧ ∀ a ∈ j.ipAddresses,
    ∃ i ∈ result, baseOf py i = baseOf py j ∧ ∃ a' ∈ i.ipAddresses, SamePair a' a
  again : aggregate py result = some result

theorem Inv.exists_kept (h : Inv py input input pass) {i : ℕ} {y : Interface}
    (hy : input[i]? = some y) : ∃ x ∈ pass.kept, baseOf py x = baseOf py y ∧
      ∀ a ∈ y.ipAddresses, ∃ a' ∈ x.ipAddresses, SamePair a' a := by
  have hlength : pass.interfaces.length = input.length := by
    simpa using congrArg List.length h.labels
  have hat : ∀ {k : ℕ} {z : Interface}, input[k]? = some z →
      ∃ x, pass.interfaces[k]? = some x ∧ baseOf py x = baseOf py z := fun {k z} hz => by
    have hx := List.getElem?_eq_getElem (hlength ▸ (List.getElem?_eq_some_iff.mp hz).1)
    exact ⟨_, hx, baseOf_congr (h.label_eq hx hz)⟩
  by_cases hi : i ∈ pass.drop
  · obtain ⟨y', hy', base, hbase, _⟩ := (h.drop i).mp hi
    obtain rfl : y = y' := Option.some.inj (hy.symm.trans hy')
    have hybase : baseOf py y = base := by rw [baseOf, hbase, Option.getD_some]
    obtain ⟨before, after, hsplit⟩ := List.append_of_mem (List.mem_of_getElem? hy)
    obtain ⟨c, hc⟩ := Option.isSome_iff_exists.mp (canonicalOf_isSome hsplit hbase)
    obtain ⟨z, hz, hzbase, hzalias⟩ := canonicalOf_spec hc
    obtain ⟨x, hx, hxbase⟩ := hat hz
    have hkept : c ∉ pass.drop := fun hdropped => by
      obtain ⟨z', hz', base', hbase', hne⟩ := (h.drop c).mp hdropped
      obtain rfl : z = z' := Option.some.inj (hz.symm.trans hz')
      rw [hzalias base' hbase'] at hne
      exact hne hc
    exact ⟨x, mem_kept.mpr ⟨c, hx, hkept⟩, by rw [hxbase, hzbase, hybase],
      h.covers i hi y hy c (hybase ▸ hc) x hx⟩
  · obtain ⟨x, hx, hxbase⟩ := hat hy
    exact ⟨x, mem_kept.mpr ⟨i, hx, hi⟩, hxbase,
      fun a ha => ⟨a, h.grows i y x hy hx a ha, SamePair.rfl⟩⟩

theorem Inv.parents_kept (h : Inv py input input pass) :
    pass.kept.filter (fun i => aliasBaseName py i.name = none) =
      pass.interfaces.filter fun i => aliasBaseName py i.name = none := by
  have hstays : ∀ entry ∈ pass.interfaces.zipIdx,
      (decide (aliasBaseName py entry.1.name = none) && decide (entry.2 ∉ pass.drop)) =
        decide (aliasBaseName py entry.1.name = none) := by
    rintro ⟨x, i⟩ hx
    rw [List.mem_zipIdx_iff_getElem?] at hx
    by_cases hparent : aliasBaseName py x.name = none
    · have hi : i ∉ pass.drop := fun hi => by
        obtain ⟨y, hy, base, hbase, _⟩ := (h.drop i).mp hi
        rw [← show x.name = y.name from congrArg Prod.fst (h.label_eq hx hy), hparent] at hbase
        cases hbase
      simp [hi]
    · simp [hparent]
  rw [kept_eq, List.filter_map, List.filter_filter]
  simp only [Function.comp_apply]
  rw [List.filter_congr hstays]
  conv_rhs => rw [← List.zipIdx_map_fst 0 pass.interfaces, List.filter_map]
  rfl

theorem aggregated_of_inv (h : Inv py input input pass) : Aggregated py input pass.kept where
  labels := by
    rw [← h.labels, kept_eq]
    have hsub := (List.filter_sublist (p := fun entry : Interface × ℕ =>
      decide (entry.2 ∉ pass.drop)) (l := pass.interfaces.zipIdx)).map Prod.fst
    rw [List.zipIdx_map_fst] at hsub
    exact hsub.map _
  parents := by
    have hlabel : ∀ l : List Interface,
        (l.filter fun i => aliasBaseName py i.name = none).map Interface.label =
          (l.map Interface.label).filter fun label => aliasBaseName py label.1 = none := by
      intro l
      rw [List.filter_map]
      rfl
    rw [h.parents_kept, hlabel, hlabel, h.labels]
  settled := settled_kept h
  sound x hx a ha := by
    obtain ⟨i, hxi, _⟩ := mem_kept.mp hx
    exact h.sound i x hxi a ha
  complete y hy := by
    obtain ⟨i, hyi⟩ := List.getElem?_of_mem hy
    obtain ⟨x, hx, hbase, hpairs⟩ := h.exists_kept hyi
    exact ⟨⟨x, hx, hbase⟩, fun a ha => ⟨x, hx, hbase, hpairs a ha⟩⟩
  again := aggregate_of_settled (settled_kept h)

theorem aggregated_of_aggregate {result : List Interface} (h : aggregate py input = some result) :
    Aggregated py input result := by
  obtain ⟨pass, hrun, rfl⟩ := Option.map_eq_some_iff.mp h
  exact aggregated_of_inv (inv_run rfl (inv_start input) hrun)

/-- What is looped over can be, and every prefix is a scalar. -/
def Shaped (payload : Json) : Prop :=
  ∃ raw, rawInterfaces payload = some raw ∧ ∀ item, Json.obj item ∈ raw →
    ∃ addresses, rawAddresses item = some addresses ∧
      ∀ addr, Json.obj addr ∈ addresses → (field "prefix" addr).hashable = true

variable (py) in
/-- The same base names with the same pairs. -/
def SamePairs (result result' : List Interface) : Prop :=
  ∀ i ∈ result, (∃ i' ∈ result', baseOf py i' = baseOf py i) ∧ ∀ a ∈ i.ipAddresses,
    ∃ i' ∈ result', baseOf py i' = baseOf py i ∧ ∃ a' ∈ i'.ipAddresses, SamePair a' a

theorem normalized_of_shaped {payload : Json} (h : Shaped payload) :
    ∃ input, normalized py payload = some input ∧
      ∀ i ∈ input, ∀ a ∈ i.ipAddresses, a.prefixLen.hashable = true := by
  obtain ⟨raw, hraw, hitems⟩ := h
  have hsome : ∀ item ∈ raw, (normalizeInterface py item).isSome = true := by
    intro item hitem
    match item with
    | .obj fields =>
      obtain ⟨addresses, haddresses, _⟩ := hitems fields hitem
      rw [normalizeInterface, haddresses]
      split
      · rfl
      · rfl
    | .null | .bool _ | .int _ | .float _ | .str _ | .arr _ => rfl
  obtain ⟨found, hfound⟩ := Option.isSome_iff_exists.mp (Outcomes.mapM_isSome hsome)
  refine ⟨found.reduceOption, by rw [normalized, hraw, Option.bind_some, hfound]; rfl, ?_⟩
  intro i hi a ha
  obtain ⟨item, hitem, hi⟩ := (Outcomes.mem_mapM_iff hfound).mp (List.reduceOption_mem_iff.mp hi)
  match item with
  | .obj fields =>
    obtain ⟨addresses, haddresses, hscalar⟩ := hitems fields hitem
    rw [normalizeInterface, haddresses] at hi
    split at hi
    · obtain rfl := Option.some.inj (Option.some.inj hi)
      obtain ⟨addr, haddr, hkept⟩ := List.mem_filterMap.mp ha
      match addr with
      | .obj addr =>
        simp only [normalizeAddress, Option.ite_none_right_eq_some] at hkept
        obtain ⟨_, hkept⟩ := hkept
        obtain rfl := Option.some.inj hkept
        exact hscalar addr haddr
      | .null | .bool _ | .int _ | .float _ | .str _ | .arr _ => cases hkept
    · cases hi
  | .null | .bool _ | .int _ | .float _ | .str _ | .arr _ => cases hi

theorem mem_normalized_perm {payload payload' : Json} {raw raw' : List Json}
    {input input' : List Interface} (hraw : rawInterfaces payload = some raw)
    (hraw' : rawInterfaces payload' = some raw') (hperm : raw'.Perm raw)
    (h : normalized py payload = some input) (h' : normalized py payload' = some input')
    (i : Interface) : i ∈ input' ↔ i ∈ input := by
  rw [normalized, hraw, Option.bind_some] at h
  rw [normalized, hraw', Option.bind_some] at h'
  obtain ⟨found, hfound, rfl⟩ := Option.map_eq_some_iff.mp h
  obtain ⟨found', hfound', rfl⟩ := Option.map_eq_some_iff.mp h'
  rw [List.reduceOption_mem_iff, List.reduceOption_mem_iff, Outcomes.mem_mapM_iff hfound,
    Outcomes.mem_mapM_iff hfound']
  simp only [hperm.mem_iff]

theorem samePairs_of_mem {input' result result' : List Interface}
    (hmem : ∀ i, i ∈ input → i ∈ input') (h : Aggregated py input result)
    (h' : Aggregated py input' result') : SamePairs py result result' := by
  intro i hi
  have hlabel : i.label ∈ input.map Interface.label :=
    h.labels.subset (List.mem_map_of_mem hi)
  obtain ⟨y, hy, hyi⟩ := List.mem_map.mp hlabel
  obtain ⟨i', hi', hbase⟩ := (h'.complete y (hmem y hy)).1
  refine ⟨⟨i', hi', hbase.trans (baseOf_congr hyi)⟩, fun a ha => ?_⟩
  obtain ⟨j, hj, hjbase, haj⟩ := h.sound i hi a ha
  obtain ⟨i', hi', hbase, hpair⟩ := (h'.complete j (hmem j hj)).2 a haj
  exact ⟨i', hi', hbase.trans hjbase, hpair⟩

/-- Aggregation loses no address and moves none to another base name, whatever the order of the
entries. -/
theorem guest_aggregation_faithful (py : Python) (payload : Json) :
    match normalizeGuestAgentInterfaces py payload with
    | none => ¬ Shaped payload
    | some result => (∃ input, normalized py payload = some input ∧ Aggregated py input result) ∧
      ∀ payload' result' raw raw', rawInterfaces payload = some raw →
        rawInterfaces payload' = some raw' → raw'.Perm raw →
        normalizeGuestAgentInterfaces py payload' = some result' →
          SamePairs py result result' ∧ SamePairs py result' result := by
  cases hresult : normalizeGuestAgentInterfaces py payload with
  | none =>
    intro hshaped
    obtain ⟨input, hinput, hscalar⟩ : ∃ input, normalized py payload = some input ∧
        ∀ i ∈ input, ∀ a ∈ i.ipAddresses, a.prefixLen.hashable = true :=
      normalized_of_shaped hshaped
    obtain ⟨pass, hpass⟩ := Option.isSome_iff_exists.mp (run_isSome hscalar (inv_start input) rfl)
    rw [normalizeGuestAgentInterfaces, hinput, Option.bind_some, aggregate] at hresult
    have hkept : some pass.kept = none := (congrArg (Option.map Pass.kept) hpass).symm.trans hresult
    cases hkept
  | some result =>
    obtain ⟨input, hinput, haggregate⟩ := Option.bind_eq_some_iff.mp hresult
    have h := aggregated_of_aggregate haggregate
    refine ⟨⟨input, hinput, h⟩, fun payload' result' raw raw' hraw hraw' hperm hresult' => ?_⟩
    obtain ⟨input', hinput', haggregate'⟩ := Option.bind_eq_some_iff.mp hresult'
    have h' := aggregated_of_aggregate haggregate'
    have hmem := mem_normalized_perm hraw hraw' hperm hinput hinput'
    exact ⟨samePairs_of_mem (fun i => (hmem i).mpr) h h',
      samePairs_of_mem (fun i => (hmem i).mp) h' h⟩

/-- Of the aliases of a missing parent the first one names the entry. -/
theorem first_alias_names_entry :
    let named := fun (name : String) => Json.obj [("name", .str name)]
    let names := fun (items : List Json) => (normalizeGuestAgentInterfaces Python.ascii
      (.arr items)).map (List.map Interface.name)
    names [named "eth0:1", named "eth0:2"] = some ["eth0:1"] ∧
      ¬ ∀ items items' : List Json, items'.Perm items → ∀ result result',
        normalizeGuestAgentInterfaces Python.ascii (.arr items) = some result →
        normalizeGuestAgentInterfaces Python.ascii (.arr items') = some result' →
          ∀ i ∈ result, i ∈ result' := by
  refine ⟨by decide +kernel, fun h => ?_⟩
  have hnames : ∀ i ∈ [(⟨"eth0:1", .null, []⟩ : Interface)], i ∈ [⟨"eth0:2", .null, []⟩] :=
    h [.obj [("name", .str "eth0:1")], .obj [("name", .str "eth0:2")]]
      [.obj [("name", .str "eth0:2")], .obj [("name", .str "eth0:1")]] (List.Perm.swap ..) _ _
      rfl rfl
  simp at hnames

end ProxboxApi.GuestAgent
