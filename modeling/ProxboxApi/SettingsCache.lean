import Mathlib.Data.Int.Basic
import ProxboxApi.Runs

/-! The cache of the plugin settings: `get_settings` and `invalidate_settings_cache` from many
threads, each critical section one step and each fetch a step outside them. -/

namespace ProxboxApi.SettingsCache

/-- Settings that a fetch came back with, or the defaults after it, and how many invalidations
there had been when it began. -/
structure Result (ρ : Type) where
  settings : ρ
  began : ℕ
  deriving DecidableEq, Repr

/-- What a fetch comes to: a record, `None`, or an exception. -/
inductive Outcome (ρ : Type) where
  | record (settings : ρ)
  | failure
  | raised
  deriving DecidableEq, Repr

/-- The arguments of a call; a call with a timeout is bounded. -/
structure Options where
  useCache : Bool
  bounded : Bool
  cacheFallback : Bool
  deriving DecidableEq, Repr

inductive Phase (ρ : Type) where
  /-- Before the critical section, or waiting in it. -/
  | entering
  | fetching (began : ℕ)
  | returned (r : Result ρ)
  /-- The defaults, as the deadline passed while another fetch was in progress. -/
  | gaveUp
  | raised
  deriving DecidableEq, Repr

/-- A call, and how many invalidations had returned when it started. -/
structure Call (ρ : Type) where
  options : Options
  started : ℕ
  phase : Phase ρ
  deriving DecidableEq, Repr

def Call.isFetching {ρ : Type} (c : Call ρ) : Bool :=
  match c.phase with
  | .fetching _ => true
  | _ => false

structure State (ρ : Type) where
  now : ℤ
  cache : Option (Result ρ)
  cacheTime : ℤ
  fetchInProgress : Bool
  invalidations : ℕ
  calls : List (Call ρ)
  deriving DecidableEq, Repr

def State.initial {ρ : Type} : State ρ := ⟨0, none, 0, false, 0, []⟩

inductive Label (ρ : Type) where
  | call (options : Options)
  | enter (i : ℕ) (expired : Bool)
  | finish (i : ℕ) (outcome : Outcome ρ)
  | invalidate
  | clock (now : ℤ)
  deriving DecidableEq, Repr

variable {ρ : Type} (defaults : ρ) (ttl : ℤ)

/-- One turn of the loop of `get_settings`: a call that finds no cached settings and another fetch
in progress waits, unless its deadline has passed. -/
def enterCache (s : State ρ) (i : ℕ) (c : Call ρ) (expired : Bool) : State ρ :=
  match (if c.options.useCache && decide (s.now - s.cacheTime < ttl) then s.cache else none) with
  | some r => { s with calls := s.calls.set i { c with phase := .returned r } }
  | none =>
    if !s.fetchInProgress then
      { s with
        fetchInProgress := true
        calls := s.calls.set i { c with phase := .fetching s.invalidations } }
    else if c.options.bounded && expired then
      { s with calls := s.calls.set i { c with phase := .gaveUp } }
    else s

/-- The settings that a fetch leaves its caller with. -/
def settingsOf (began : ℕ) : Outcome ρ → Option (Result ρ)
  | .record settings => some ⟨settings, began⟩
  | .failure => some ⟨defaults, began⟩
  | .raised => none

/-- A fetch whose result goes to the cache. -/
def stores (c : Call ρ) : Outcome ρ → Bool
  | .record _ => true
  | .failure => c.options.cacheFallback
  | .raised => false

/-- The `finally` of the fetch. -/
def finishFetch (s : State ρ) (i : ℕ) (c : Call ρ) (began : ℕ) (outcome : Outcome ρ) : State ρ :=
  let result := settingsOf defaults began outcome
  let phase := match result with
    | some r => .returned r
    | none => .raised
  { s with
    cache := if stores c outcome then result else s.cache
    cacheTime := if stores c outcome then s.now else s.cacheTime
    fetchInProgress := false
    calls := s.calls.set i { c with phase } }

def step (s : State ρ) : Label ρ → Option (State ρ)
  | .call options => some { s with calls := s.calls ++ [⟨options, s.invalidations, .entering⟩] }
  | .enter i expired =>
    match s.calls[i]? with
    | some c => if c.phase matches .entering then some (enterCache ttl s i c expired) else none
    | none => none
  | .finish i outcome =>
    match s.calls[i]? with
    | some c => match c.phase with
      | .fetching began => some (finishFetch defaults s i c began outcome)
      | _ => none
    | none => none
  | .invalidate =>
    some { s with cache := none, cacheTime := 0, invalidations := s.invalidations + 1 }
  | .clock now => some { s with now }

/-- At most one fetch is in flight, the flag says whether one is, and its end clears the flag. -/
structure SingleFlight (s : State ρ) : Prop where
  unique : ∀ (i j : ℕ) c d, s.calls[i]? = some c → s.calls[j]? = some d →
    c.isFetching = true → d.isFetching = true → i = j
  flag : s.fetchInProgress = true ↔ ∃ c ∈ s.calls, c.isFetching = true
  cleared : ∀ (i : ℕ) c outcome, s.calls[i]? = some c → c.isFetching = true →
    ∃ t, step defaults ttl s (.finish i outcome) = some t ∧ t.fetchInProgress = false

/-- A fetch that fails without the fallback to the cache leaves the cached record. -/
def KeepsOnFailure (s : State ρ) : Prop :=
  ∀ (i : ℕ) c t, s.calls[i]? = some c → c.options.cacheFallback = false →
    step defaults ttl s (.finish i .failure) = some t ∨
      step defaults ttl s (.finish i .raised) = some t →
    t.cache = s.cache ∧ t.cacheTime = s.cacheTime

/-- No call gets settings whose fetch began before an invalidation that had returned when the call
started. -/
def Effective (s : State ρ) : Prop :=
  ∀ c ∈ s.calls, ∀ r, c.phase = .returned r → c.started ≤ r.began

/-- The condition on the steps of a run: there has been no invalidation since a fetch began whose
result is stored. -/
def Current (s : State ρ) : Label ρ → Prop
  | .finish i outcome => ∀ c began, s.calls[i]? = some c → c.phase = .fetching began →
      stores c outcome = true → s.invalidations ≤ began
  | _ => True

/-- The cached settings were fetched after the last invalidation. -/
def CacheCurrent (s : State ρ) : Prop := ∀ r, s.cache = some r → s.invalidations ≤ r.began

/-- What a step does. -/
inductive Effect (s : State ρ) : Label ρ → State ρ → Prop where
  | call (options : Options) : Effect s (.call options)
      { s with calls := s.calls ++ [⟨options, s.invalidations, .entering⟩] }
  | cached {i : ℕ} {c : Call ρ} {r : Result ρ} (expired : Bool) (hget : s.calls[i]? = some c)
      (hphase : c.phase = .entering) (hcache : s.cache = some r) : Effect s (.enter i expired)
        { s with calls := s.calls.set i { c with phase := .returned r } }
  | begun {i : ℕ} {c : Call ρ} (expired : Bool) (hget : s.calls[i]? = some c)
      (hphase : c.phase = .entering) (hflag : s.fetchInProgress = false) :
      Effect s (.enter i expired)
        { s with
          fetchInProgress := true
          calls := s.calls.set i { c with phase := .fetching s.invalidations } }
  | gaveUp {i : ℕ} {c : Call ρ} (expired : Bool) (hget : s.calls[i]? = some c)
      (hphase : c.phase = .entering) : Effect s (.enter i expired)
        { s with calls := s.calls.set i { c with phase := .gaveUp } }
  | waited (i : ℕ) (expired : Bool) : Effect s (.enter i expired) s
  | finished {i : ℕ} {c : Call ρ} {began : ℕ} (outcome : Outcome ρ)
      (hget : s.calls[i]? = some c) (hphase : c.phase = .fetching began) :
      Effect s (.finish i outcome) (finishFetch defaults s i c began outcome)
  | invalidate : Effect s .invalidate
      { s with cache := none, cacheTime := 0, invalidations := s.invalidations + 1 }
  | clock (now : ℤ) : Effect s (.clock now) { s with now }

variable {defaults ttl} {s t : State ρ} {l : Label ρ}

theorem effect_of_step (h : step defaults ttl s l = some t) : Effect defaults s l t := by
  cases l with
  | call options =>
    obtain rfl := Option.some.inj h
    exact .call options
  | enter i expired =>
    cases hget : s.calls[i]? with
    | none => simp [step, hget] at h
    | some c =>
      by_cases hphase : c.phase = .entering
      · simp only [step, hget, hphase, if_true, Option.some.injEq] at h
        subst h
        unfold enterCache
        split
        · rename_i r hcached
          have hcache : s.cache = some r := by
            split at hcached
            · exact hcached
            · simp at hcached
          exact .cached expired hget hphase hcache
        · split
          · rename_i hflag
            exact .begun expired hget hphase (by simpa using hflag)
          · split
            · exact .gaveUp expired hget hphase
            · exact .waited i expired
      · simp [step, hget] at h
  | finish i outcome =>
    cases hget : s.calls[i]? with
    | none => simp [step, hget] at h
    | some c =>
      cases hphase : c.phase with
      | fetching began =>
        simp only [step, hget, hphase, Option.some.injEq] at h
        subst h
        exact .finished outcome hget hphase
      | entering | returned _ | gaveUp | raised => simp [step, hget, hphase] at h
  | invalidate =>
    obtain rfl := Option.some.inj h
    exact .invalidate
  | clock now =>
    obtain rfl := Option.some.inj h
    exact .clock now

/-- The call at this position has a fetch in flight. -/
def Flies (calls : List (Call ρ)) (j : ℕ) : Prop :=
  ∃ d, calls[j]? = some d ∧ d.isFetching = true

theorem flies_iff_mem {calls : List (Call ρ)} :
    (∃ j, Flies calls j) ↔ ∃ c ∈ calls, c.isFetching = true := by
  constructor
  · rintro ⟨j, d, hget, hd⟩
    exact ⟨d, List.mem_of_getElem? hget, hd⟩
  · rintro ⟨c, hc, hfetch⟩
    obtain ⟨j, hj⟩ := List.mem_iff_getElem?.mp hc
    exact ⟨j, c, hj, hfetch⟩

theorem flies_set {calls : List (Call ρ)} {i j : ℕ} {c c' : Call ρ} (hget : calls[i]? = some c) :
    Flies (calls.set i c') j ↔ (j = i ∧ c'.isFetching = true) ∨ (j ≠ i ∧ Flies calls j) := by
  have hi : i < calls.length := (List.getElem?_eq_some_iff.mp hget).1
  constructor
  · rintro ⟨d, hd, hfetch⟩
    rcases Runs.party_set hd with ⟨rfl, rfl⟩ | ⟨hne, hd⟩
    · exact Or.inl ⟨rfl, hfetch⟩
    · exact Or.inr ⟨hne, d, hd, hfetch⟩
  · rintro (⟨rfl, hfetch⟩ | ⟨hne, d, hd, hfetch⟩)
    · exact ⟨c', by rw [List.getElem?_set_self hi], hfetch⟩
    · exact ⟨d, by rw [List.getElem?_set_ne (Ne.symm hne), hd], hfetch⟩

/-- A call that neither had a fetch in flight nor gets one. -/
theorem flies_set_of_not {calls : List (Call ρ)} {i j : ℕ} {c c' : Call ρ}
    (hget : calls[i]? = some c) (hc : c.isFetching = false) (hc' : c'.isFetching = false) :
    Flies (calls.set i c') j ↔ Flies calls j := by
  rw [flies_set hget]
  constructor
  · rintro (⟨-, h⟩ | ⟨-, h⟩)
    · rw [hc'] at h
      exact Bool.noConfusion h
    · exact h
  · rintro ⟨d, hd, hfetch⟩
    refine Or.inr ⟨?_, d, hd, hfetch⟩
    rintro rfl
    obtain rfl := Option.some.inj (hget.symm.trans hd)
    rw [hc] at hfetch
    exact Bool.noConfusion hfetch

theorem flies_concat {calls : List (Call ρ)} {j : ℕ} {c : Call ρ} (hc : c.isFetching = false) :
    Flies (calls ++ [c]) j ↔ Flies calls j := by
  constructor
  · rintro ⟨d, hd, hfetch⟩
    rcases Runs.party_concat hd with ⟨-, rfl⟩ | ⟨-, hd⟩
    · rw [hc] at hfetch
      exact Bool.noConfusion hfetch
    · exact ⟨d, hd, hfetch⟩
  · rintro ⟨d, hd, hfetch⟩
    have hj : j < calls.length := (List.getElem?_eq_some_iff.mp hd).1
    exact ⟨d, by rw [List.getElem?_append_left hj, hd], hfetch⟩

/-- The flag says whether the one fetch is in flight, and calls and fetches began after as many
invalidations as they note. -/
structure Inv (s : State ρ) : Prop where
  unique : ∀ i j, Flies s.calls i → Flies s.calls j → i = j
  flag : s.fetchInProgress = true ↔ ∃ j, Flies s.calls j
  started : ∀ c ∈ s.calls, c.started ≤ s.invalidations
  began : ∀ c ∈ s.calls, ∀ b, c.phase = .fetching b → c.started ≤ b ∧ b ≤ s.invalidations

theorem not_flies_of_flag (h : Inv s) (hflag : s.fetchInProgress = false) (j : ℕ) :
    ¬ Flies s.calls j := by
  intro hj
  rw [h.flag.mpr ⟨j, hj⟩] at hflag
  exact Bool.noConfusion hflag

theorem isFetching_of_phase {c : Call ρ} {b : ℕ} (h : c.phase = .fetching b) :
    c.isFetching = true := by
  simp [Call.isFetching, h]

theorem not_isFetching_of_entering {c : Call ρ} (h : c.phase = .entering) :
    c.isFetching = false := by
  simp [Call.isFetching, h]

/-- A call in a table with one call changed is the new one or an old one. -/
theorem Inv.calls_set (h : Inv s) {i : ℕ} {c e : Call ρ} (hget : s.calls[i]? = some c)
    (hstarted : e.started = c.started)
    (hphase : ∀ b, e.phase = .fetching b → b = s.invalidations) :
    (∀ d ∈ s.calls.set i e, d.started ≤ s.invalidations) ∧
      ∀ d ∈ s.calls.set i e, ∀ b, d.phase = .fetching b →
        d.started ≤ b ∧ b ≤ s.invalidations := by
  have hc := h.started c (List.mem_of_getElem? hget)
  constructor
  · intro d hd
    rcases List.mem_or_eq_of_mem_set hd with hd | rfl
    · exact h.started d hd
    · rwa [hstarted]
  · intro d hd b hb
    rcases List.mem_or_eq_of_mem_set hd with hd | rfl
    · exact h.began d hd b hb
    · obtain rfl := hphase b hb
      rw [hstarted]
      exact ⟨hc, le_refl _⟩

/-- A call without a fetch goes on without one. -/
theorem Inv.set_idle (h : Inv s) {i : ℕ} {c c' : Call ρ} (hget : s.calls[i]? = some c)
    (hc : c.isFetching = false) (hc' : c'.isFetching = false) (hstarted : c'.started = c.started) :
    Inv { s with calls := s.calls.set i c' } := by
  have hflies : ∀ j, Flies (s.calls.set i c') j ↔ Flies s.calls j :=
    fun j => flies_set_of_not hget hc hc'
  have hphase : ∀ b, c'.phase = .fetching b → b = s.invalidations := by
    intro b hb
    rw [isFetching_of_phase hb] at hc'
    exact Bool.noConfusion hc'
  obtain ⟨hstarts, hbegan⟩ := h.calls_set hget hstarted hphase
  refine ⟨?_, ?_, hstarts, hbegan⟩
  · intro j j' hj hj'
    exact h.unique j j' ((hflies j).mp hj) ((hflies j').mp hj')
  · exact h.flag.trans (exists_congr fun j => (hflies j).symm)

theorem finished_calls (s : State ρ) (i : ℕ) (c : Call ρ) (began : ℕ) (outcome : Outcome ρ) :
    ∃ c' : Call ρ, (finishFetch defaults s i c began outcome).calls = s.calls.set i c' ∧
      c'.isFetching = false ∧ c'.started = c.started := by
  cases outcome with
  | record _ | failure | raised => exact ⟨_, rfl, rfl, rfl⟩

theorem inv_step (h : Inv s) (hstep : step defaults ttl s l = some t) : Inv t := by
  cases effect_of_step hstep with
  | call options =>
    have hflies : ∀ j, Flies (s.calls ++ [⟨options, s.invalidations, .entering⟩]) j ↔
        Flies s.calls j := fun j => flies_concat rfl
    refine ⟨?_, ?_, ?_, ?_⟩
    · intro i j hi hj
      exact h.unique i j ((hflies i).mp hi) ((hflies j).mp hj)
    · exact h.flag.trans (exists_congr fun j => (hflies j).symm)
    · intro c hc
      rcases List.mem_append.mp hc with hc | hc
      · exact h.started c hc
      · rw [List.mem_singleton.mp hc]
    · intro c hc b hb
      rcases List.mem_append.mp hc with hc | hc
      · exact h.began c hc b hb
      · rw [List.mem_singleton.mp hc] at hb
        simp at hb
  | cached expired hget hphase hcache =>
    exact h.set_idle hget (not_isFetching_of_entering hphase) rfl rfl
  | gaveUp expired hget hphase =>
    exact h.set_idle hget (not_isFetching_of_entering hphase) rfl rfl
  | begun expired hget hphase hflag =>
    rename_i i c
    have hnone := not_flies_of_flag h hflag
    have hflies : ∀ j, Flies (s.calls.set i { c with phase := .fetching s.invalidations }) j ↔
        j = i := by
      intro j
      rw [flies_set hget]
      constructor
      · rintro (⟨hj, -⟩ | ⟨-, hj⟩)
        · exact hj
        · exact absurd hj (hnone j)
      · exact fun hj => Or.inl ⟨hj, rfl⟩
    obtain ⟨hstarted, hbegan⟩ := h.calls_set (e := { c with phase := .fetching s.invalidations })
      hget rfl (by simp)
    refine ⟨?_, ?_, hstarted, hbegan⟩
    · intro j j' hj hj'
      rw [(hflies j).mp hj, (hflies j').mp hj']
    · exact iff_of_true rfl ⟨i, (hflies i).mpr rfl⟩
  | waited i expired => exact h
  | finished outcome hget hphase =>
    rename_i i c began
    have hflight : Flies s.calls i := ⟨c, hget, isFetching_of_phase hphase⟩
    obtain ⟨c', hcalls, hc', hstarted⟩ := @finished_calls _ defaults s i c began outcome
    have hnone : ∀ j, ¬ Flies (s.calls.set i c') j := by
      intro j hj
      rcases (flies_set hget).mp hj with ⟨-, hfetch⟩ | ⟨hne, hj⟩
      · rw [hc'] at hfetch
        exact Bool.noConfusion hfetch
      · exact hne (h.unique j i hj hflight)
    have hphase' : ∀ b, c'.phase = .fetching b → b = s.invalidations := by
      intro b hb
      rw [isFetching_of_phase hb] at hc'
      exact Bool.noConfusion hc'
    obtain ⟨hstarts, hbegan⟩ := h.calls_set hget hstarted hphase'
    refine ⟨?_, ?_, ?_, ?_⟩
    · intro j j' hj
      exact absurd (hcalls ▸ hj) (hnone j)
    · exact iff_of_false (by simp [finishFetch]) fun ⟨j, hj⟩ => hnone j (hcalls ▸ hj)
    · exact hcalls ▸ hstarts
    · exact hcalls ▸ hbegan
  | invalidate =>
    refine ⟨h.unique, h.flag, fun c hc => Nat.le_succ_of_le (h.started c hc), ?_⟩
    intro c hc b hb
    exact ⟨(h.began c hc b hb).1, Nat.le_succ_of_le (h.began c hc b hb).2⟩
  | clock now => exact ⟨h.unique, h.flag, h.started, h.began⟩

theorem singleFlight_of_inv (h : Inv s) : SingleFlight defaults ttl s := by
  refine ⟨?_, h.flag.trans flies_iff_mem, ?_⟩
  · exact fun i j c d hc hd hfc hfd => h.unique i j ⟨c, hc, hfc⟩ ⟨d, hd, hfd⟩
  · intro i c outcome hget hfetch
    cases hphase : c.phase with
    | fetching began =>
      exact ⟨finishFetch defaults s i c began outcome, by simp [step, hget, hphase], rfl⟩
    | entering | returned _ | gaveUp | raised => simp [Call.isFetching, hphase] at hfetch

theorem keepsOnFailure (s : State ρ) : KeepsOnFailure defaults ttl s := by
  intro i c t hget hfallback h
  have hkept : ∀ outcome : Outcome ρ, stores c outcome = false →
      step defaults ttl s (.finish i outcome) = some t →
        t.cache = s.cache ∧ t.cacheTime = s.cacheTime := by
    intro outcome hstores hstep
    cases effect_of_step hstep with
    | finished _ hget' hphase =>
      obtain rfl := Option.some.inj (hget.symm.trans hget')
      simp [finishFetch, hstores]
  rcases h with h | h
  · exact hkept .failure hfallback h
  · exact hkept .raised rfl h

/-- A result that is stored is the one of the fetch. -/
theorem settingsOf_of_stores {c : Call ρ} {outcome : Outcome ρ} (h : stores c outcome = true)
    (began : ℕ) : ∃ r, settingsOf defaults began outcome = some r ∧ r.began = began := by
  cases outcome with
  | record settings => exact ⟨_, rfl, rfl⟩
  | failure => exact ⟨_, rfl, rfl⟩
  | raised => simp [stores] at h

/-- The cache stays current exactly if what is stored is. -/
theorem cacheCurrent_step_iff (h : CacheCurrent s) (hstep : step defaults ttl s l = some t) :
    CacheCurrent t ↔ Current s l := by
  cases effect_of_step hstep with
  | call _ | cached _ _ _ _ | begun _ _ _ _ | gaveUp _ _ _ | waited _ _ | clock _ =>
    exact iff_of_true h trivial
  | invalidate => exact iff_of_true (fun r hr => by simp at hr) trivial
  | finished outcome hget hphase =>
    rename_i i c began
    cases hstores : stores c outcome with
    | false =>
      refine iff_of_true ?_ ?_
      · intro r hr
        exact h r (by simpa [finishFetch, hstores] using hr)
      · intro c' began' hget' _ hstores'
        obtain rfl := Option.some.inj (hget.symm.trans hget')
        rw [hstores] at hstores'
        exact Bool.noConfusion hstores'
    | true =>
      obtain ⟨r, hr, hbegan⟩ := @settingsOf_of_stores _ defaults _ _ hstores began
      constructor
      · intro hcurrent c' began' hget' hphase' _
        obtain rfl := Option.some.inj (hget.symm.trans hget')
        rw [hphase] at hphase'
        obtain rfl := Phase.fetching.inj hphase'
        rw [← hbegan]
        exact hcurrent r (by simpa [finishFetch, hstores] using hr)
      · intro hcurrent r' hr'
        obtain rfl : r = r' := by
          simpa [finishFetch, hstores, hr] using hr'
        rw [hbegan]
        exact hcurrent c began hget hphase hstores

theorem effective_step (hinv : Inv s) (hcurrent : CacheCurrent s) (h : Effective s)
    (hstep : step defaults ttl s l = some t) : Effective t := by
  have hset : ∀ {i : ℕ} {c' : Call ρ}, (∀ r, c'.phase = .returned r → c'.started ≤ r.began) →
      ∀ c ∈ s.calls.set i c', ∀ r, c.phase = .returned r → c.started ≤ r.began := by
    intro i c' hc' c hc r hr
    rcases List.mem_or_eq_of_mem_set hc with hc | rfl
    · exact h c hc r hr
    · exact hc' r hr
  cases effect_of_step hstep with
  | call options =>
    intro c hc r hr
    rcases List.mem_append.mp hc with hc | hc
    · exact h c hc r hr
    · rw [List.mem_singleton.mp hc] at hr
      simp at hr
  | cached expired hget hphase hcache =>
    have hstarted := hinv.started _ (List.mem_of_getElem? hget)
    refine hset fun r hr => ?_
    obtain rfl := Phase.returned.inj hr
    exact Nat.le_trans hstarted (hcurrent _ hcache)
  | begun expired hget hphase hflag => exact hset fun r hr => by simp at hr
  | gaveUp expired hget hphase => exact hset fun r hr => by simp at hr
  | waited i expired => exact h
  | finished outcome hget hphase =>
    have hbegan := (hinv.began _ (List.mem_of_getElem? hget) _ hphase).1
    refine hset fun r hr => ?_
    cases outcome with
    | record settings =>
      obtain rfl := Phase.returned.inj hr
      exact hbegan
    | failure =>
      obtain rfl := Phase.returned.inj hr
      exact hbegan
    | raised => simp [settingsOf] at hr
  | invalidate => exact h
  | clock now => exact h

theorem inv_initial : Inv (State.initial : State ρ) := by
  have hnone : ∀ j, ¬ Flies ([] : List (Call ρ)) j := fun j ⟨d, hd, _⟩ => by simp at hd
  refine ⟨fun i j hi => absurd hi (hnone i), ?_, by simp [State.initial], by simp [State.initial]⟩
  exact iff_of_false (by simp [State.initial]) fun ⟨j, hj⟩ => hnone j hj

/-- In every run there is one fetch at most, its end clears the flag, and a fetch that fails without
the fallback leaves the cache; and the cache is current throughout, exactly if every result that is
stored is, and then no call gets settings from before an invalidation that it started after. -/
theorem invalidation_effective (defaults : ρ) (ttl : ℤ) {labels : List (Label ρ)} {s : State ρ}
    (hrun : Runs.exec (step defaults ttl) State.initial labels = some s) :
    SingleFlight defaults ttl s ∧ KeepsOnFailure defaults ttl s ∧
      (Runs.Throughout (step defaults ttl) CacheCurrent State.initial labels ↔
        Runs.Guarded (step defaults ttl) Current State.initial labels) ∧
      (Runs.Guarded (step defaults ttl) Current State.initial labels → Effective s) := by
  have hinv : Inv s := Runs.invariant_of_step Inv (fun _ _ _ h hstep => inv_step h hstep)
    inv_initial hrun
  have hcurrent : CacheCurrent (State.initial : State ρ) := fun r hr => by
    simp [State.initial] at hr
  refine ⟨singleFlight_of_inv hinv, keepsOnFailure s, ?_, fun hguard => ?_⟩
  · rw [Runs.throughout_iff_guarded Inv CacheCurrent (fun _ _ _ h hstep => inv_step h hstep)
      (fun _ _ _ _ h hstep => cacheCurrent_step_iff h hstep) inv_initial]
    exact and_iff_right hcurrent
  · refine (Runs.invariant_of_guarded (fun s : State ρ => Inv s ∧ CacheCurrent s ∧ Effective s)
      ?_ ⟨inv_initial, hcurrent, ?_⟩ hguard hrun).2.2
    · intro s l t h hok hstep
      exact ⟨inv_step h.1 hstep, (cacheCurrent_step_iff h.2.1 hstep).mpr hok,
        effective_step h.1 h.2.1 h.2.2 hstep⟩
    · intro c hc
      simp [State.initial] at hc

/-- A cached call without a timeout. -/
def plainCall : Options := ⟨true, false, true⟩

theorem invalidation_effective_refetch :
    ∃ s, Runs.exec (step 0 300) State.initial [.call plainCall, .enter 0 false,
        .finish 0 (.record 1), .invalidate, .call plainCall, .enter 1 false,
        .finish 1 (.record 2)] = some s ∧ SingleFlight 0 300 s ∧ Effective s := by
  have hends : (Runs.exec (step 0 300) State.initial [.call plainCall, .enter 0 false,
      .finish 0 (.record 1), .invalidate, .call plainCall, .enter 1 false,
      .finish 1 (.record 2)]).isSome = true := by decide
  obtain ⟨s, hrun⟩ := Option.isSome_iff_exists.mp hends
  obtain ⟨hsingle, -, -, heffective⟩ := invalidation_effective 0 300 hrun
  refine ⟨s, hrun, hsingle, heffective ⟨trivial, trivial, ?_, trivial, trivial, trivial, ?_, trivial⟩⟩
  · exact fun _ _ _ _ _ => Nat.zero_le _
  · intro c began hget hphase _
    obtain rfl := Option.some.inj hget
    obtain rfl := Phase.fetching.inj hphase
    decide

/-- A fetch that was in flight when the cache was invalidated fills it with the old settings. -/
theorem stale_settings_cached : ¬ ∀ (defaults : ℕ) (ttl : ℤ) (labels : List (Label ℕ)) (s : State ℕ),
    Runs.exec (step defaults ttl) State.initial labels = some s → Effective s := by
  intro h
  have heffective := h 0 300 [.call plainCall, .enter 0 false, .invalidate, .finish 0 (.record 1),
    .call plainCall, .enter 1 false] _ rfl
  have hstale := heffective ⟨plainCall, 1, .returned ⟨1, 0⟩⟩ (by decide) ⟨1, 0⟩ rfl
  exact absurd hstale (by decide)

end ProxboxApi.SettingsCache
