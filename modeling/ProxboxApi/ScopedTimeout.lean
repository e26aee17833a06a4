import Mathlib
import ProxboxApi.Runs

/-! The timeout of a shared Proxmox backend while guest-agent calls overlap. -/

namespace ProxboxApi.ScopedTimeout

/-- An `aiohttp.ClientTimeout`; the serial number tells objects apart. -/
structure ClientTimeout (T : Type) where
  serial : ℕ
  total : Option T
  connect : Option T
  sockConnect : Option T
  sockRead : Option T
  deriving DecidableEq, Repr

/-- An open scope; it is not counted where it does nothing. -/
structure Scope (T : Type) where
  requested : T
  counted : Bool
  deriving DecidableEq, Repr

/-- The attributes of a backend (an absent or `None` one is `none`), the number of timeout objects
and the open scopes. -/
structure Backend (T : Type) where
  timeout : Option (ClientTimeout T)
  depth : ℤ
  original : Option (ClientTimeout T)
  made : ℕ
  scopes : List (Scope T)
  deriving DecidableEq, Repr

variable {T : Type} [LinearOrder T]

/-- The timeout that is widened: the current one of the first entrant, else the saved one. -/
def Backend.base (b : Backend T) : Option (ClientTimeout T) :=
  if b.depth = 0 then b.timeout else b.original

/-- The entry of `_scoped_proxmox_backend_timeout`. -/
def enter (b : Backend T) (timeout : T) : Backend T :=
  match b.timeout, b.base with
  | some current, some original =>
    let widened := match original.total with
      | some oldTotal => decide (oldTotal < timeout)
      | none => false
    { timeout := if widened then some { original with serial := b.made, total := some timeout }
        else some current
      depth := b.depth + 1
      original := some original
      made := if widened then b.made + 1 else b.made
      scopes := b.scopes ++ [⟨timeout, true⟩] }
  | _, _ => { b with scopes := b.scopes ++ [⟨timeout, false⟩] }

/-- Its exit, of one of the open scopes. -/
def exit (b : Backend T) (i : ℕ) (scope : Scope T) : Backend T :=
  let b := { b with scopes := b.scopes.eraseIdx i }
  if scope.counted then
    if b.depth - 1 ≤ 0 then { b with timeout := b.original.or b.timeout, depth := 0 }
    else { b with depth := b.depth - 1 }
  else b

/-- A call enters its scope, or one of the open scopes is left. -/
inductive Event (T : Type) where
  | enter (timeout : T)
  | exit (i : ℕ)

def step (b : Backend T) : Event T → Option (Backend T)
  | .enter timeout => some (enter b timeout)
  | .exit i => b.scopes[i]?.map (exit b i)

def start (original : Option (ClientTimeout T)) : Backend T := ⟨original, 0, none, 0, []⟩

/-- The total is at least so long, or unbounded. -/
def AtLeast (timeout : Option (ClientTimeout T)) (seconds : T) : Prop :=
  ∀ c, timeout = some c → ∀ total, c.total = some total → seconds ≤ total

/-- What an overlap must not break: no open scope has less than it requested or than the original
timeout, and the last scope leaves the original object. -/
structure Unharmed (original : Option (ClientTimeout T)) (b : Backend T) : Prop where
  requested : ∀ scope ∈ b.scopes, AtLeast b.timeout scope.requested
  widened : ∀ c, original = some c → b.scopes ≠ [] → match c.total with
    | some total => AtLeast b.timeout total
    | none => ∃ current, b.timeout = some current ∧ current.total = none
  restored : b.scopes = [] → b.timeout = original

/-- No scope that widens the original timeout is entered over one that requested more. -/
def Ok (original : Option (ClientTimeout T)) (b : Backend T) : Event T → Prop
  | .enter timeout => ∀ c, original = some c → ∀ total, c.total = some total → total < timeout →
      ∀ scope ∈ b.scopes, scope.requested ≤ timeout
  | .exit _ => True

/-- The bookkeeping on a backend with a timeout: the scopes are counted, the original is kept while
one is open, and the timeout is the original or a longer one. -/
structure Counted (c : ClientTimeout T) (b : Backend T) : Prop where
  depth : b.depth = b.scopes.length
  counted : ∀ scope ∈ b.scopes, scope.counted = true
  closed : b.scopes = [] → b.timeout = some c
  base : b.base = some c
  saved : b.scopes ≠ [] → b.original = some c
  longer : ∃ current, b.timeout = some current ∧ match c.total with
    | some total => ∃ total', current.total = some total' ∧ total ≤ total'
    | none => current = c

/-- The bookkeeping, which does nothing on a backend without a timeout. -/
def Inv (original : Option (ClientTimeout T)) (b : Backend T) : Prop :=
  match original with
  | some c => Counted c b
  | none => b.timeout = none ∧ ∀ scope ∈ b.scopes, scope.counted = false

variable {original : Option (ClientTimeout T)} {c : ClientTimeout T} {b b' : Backend T}

theorem inv_start (original : Option (ClientTimeout T)) : Inv original (start original) := by
  cases original with
  | none => exact ⟨rfl, by simp [start]⟩
  | some c =>
    refine ⟨rfl, by simp [start], fun _ => rfl, rfl, fun h => absurd rfl h, c, rfl, ?_⟩
    cases c.total with
    | none => rfl
    | some total => exact ⟨total, rfl, le_refl total⟩

/-- An entry on a backend with a timeout. -/
theorem Counted.enter (h : Counted c b) (timeout : T) : Counted c (enter b timeout) := by
  obtain ⟨current, hcurrent, hlonger⟩ := h.longer
  have hdepth : ¬ b.depth + 1 = 0 := by
    rw [h.depth]
    omega
  unfold ScopedTimeout.enter
  rw [hcurrent, h.base]
  dsimp only
  refine ⟨?_, ?_, ?_, ?_, ?_, ?_⟩
  · simp [h.depth]
  · intro scope hscope
    rcases List.mem_append.mp hscope with hold | hnew
    · exact h.counted scope hold
    · rw [List.mem_singleton.mp hnew]
  · simp
  · simp [Backend.base, hdepth]
  · simp
  · cases htotal : c.total with
    | none =>
      rw [htotal] at hlonger
      exact ⟨current, by simp, hlonger⟩
    | some total =>
      rw [htotal] at hlonger
      obtain ⟨total', htotal', hle⟩ := hlonger
      by_cases hlt : total < timeout
      · exact ⟨{ c with serial := b.made, total := some timeout }, by simp [hlt], timeout, rfl,
          le_of_lt hlt⟩
      · exact ⟨current, by simp [hlt], total', htotal', hle⟩

/-- An exit on a backend with a timeout. -/
theorem Counted.exit (h : Counted c b) {i : ℕ} {scope : Scope T}
    (hscope : b.scopes[i]? = some scope) : Counted c (exit b i scope) := by
  have hmem : scope ∈ b.scopes := List.mem_of_getElem? hscope
  have hlt : i < b.scopes.length := (List.getElem?_eq_some_iff.mp hscope).1
  have hsaved : b.original = some c := h.saved (List.ne_nil_of_mem hmem)
  have hlength : (b.scopes.eraseIdx i).length = b.scopes.length - 1 :=
    List.length_eraseIdx_of_lt hlt
  have hcounted : ∀ s ∈ b.scopes.eraseIdx i, s.counted = true :=
    fun s hs => h.counted s (List.mem_of_mem_eraseIdx hs)
  have hdepth := h.depth
  unfold ScopedTimeout.exit
  rw [h.counted scope hmem, if_pos rfl]
  dsimp only
  split_ifs with hlast
  · have hnil : b.scopes.eraseIdx i = [] := List.length_eq_zero_iff.mp (by omega)
    rw [hsaved, hnil]
    refine ⟨rfl, by simp, fun _ => rfl, rfl, fun hne => absurd rfl hne, c, rfl, ?_⟩
    cases c.total with
    | none => rfl
    | some total => exact ⟨total, rfl, le_refl total⟩
  · have hopen : b.scopes.eraseIdx i ≠ [] := by
      intro hnil
      rw [hnil] at hlength
      simp only [List.length_nil] at hlength
      omega
    refine ⟨?_, hcounted, fun hnil => absurd hnil hopen, ?_, fun _ => hsaved, h.longer⟩
    · dsimp only
      omega
    · have hne : ¬ b.depth - 1 = 0 := by omega
      simp [Backend.base, hne, hsaved]

theorem Inv.step (h : Inv original b) {event : Event T} (hstep : step b event = some b') :
    Inv original b' := by
  cases original with
  | some c =>
    cases event with
    | enter timeout =>
      obtain rfl := Option.some.inj hstep
      exact Counted.enter h timeout
    | exit i =>
      obtain ⟨scope, hscope, rfl⟩ := Option.map_eq_some_iff.mp hstep
      exact Counted.exit h hscope
  | none =>
    obtain ⟨htimeout, huncounted⟩ := h
    cases event with
    | enter timeout =>
      obtain rfl := Option.some.inj hstep
      refine ⟨by simp [enter, htimeout], ?_⟩
      intro scope hscope
      have hscope : scope ∈ b.scopes ++ [⟨timeout, false⟩] := by
        simpa [enter, htimeout] using hscope
      rcases List.mem_append.mp hscope with hold | hnew
      · exact huncounted scope hold
      · rw [List.mem_singleton.mp hnew]
    | exit i =>
      obtain ⟨scope, hscope, rfl⟩ := Option.map_eq_some_iff.mp hstep
      have hmem : scope ∈ b.scopes := List.mem_of_getElem? hscope
      unfold exit
      rw [huncounted scope hmem]
      exact ⟨htimeout, fun s hs => huncounted s (List.mem_of_mem_eraseIdx hs)⟩

theorem Inv.widened (h : Inv original b) (c : ClientTimeout T) (hc : original = some c) :
    match c.total with
    | some total => AtLeast b.timeout total
    | none => ∃ current, b.timeout = some current ∧ current.total = none := by
  subst hc
  have h : Counted c b := h
  obtain ⟨current, hcurrent, hlonger⟩ := h.longer
  cases htotal : c.total with
  | none =>
    rw [htotal] at hlonger
    exact ⟨current, hcurrent, hlonger ▸ htotal⟩
  | some total =>
    rw [htotal] at hlonger
    obtain ⟨total', htotal', hle⟩ := hlonger
    intro current' hcurrent' total'' htotal''
    obtain rfl := Option.some.inj (hcurrent.symm.trans hcurrent')
    obtain rfl := Option.some.inj (htotal'.symm.trans htotal'')
    exact hle

theorem Inv.restored (h : Inv original b) (hclosed : b.scopes = []) : b.timeout = original := by
  cases original with
  | none => exact h.1
  | some c => exact Counted.closed h hclosed

/-- Only what the scopes requested can be harmed. -/
theorem unharmed_iff (h : Inv original b) : Unharmed original b ↔
    ∀ scope ∈ b.scopes, AtLeast b.timeout scope.requested :=
  ⟨fun hb => hb.requested, fun hb => ⟨hb, fun c hc _ => h.widened c hc, h.restored⟩⟩

theorem atLeast_some_iff {seconds total : T} (htotal : c.total = some total) :
    AtLeast (some c) seconds ↔ seconds ≤ total := by
  constructor
  · exact fun h => h c rfl total htotal
  · intro hle c' hc' total' htotal'
    obtain rfl := Option.some.inj hc'
    obtain rfl := Option.some.inj (htotal.symm.trans htotal')
    exact hle

/-- An entry leaves the open scopes what they requested exactly if none requested more than a
widened timeout gives. -/
theorem unharmed_enter_iff (h : Counted c b) (hb : ∀ scope ∈ b.scopes,
      AtLeast b.timeout scope.requested) (timeout : T) :
    (∀ scope ∈ (enter b timeout).scopes, AtLeast (enter b timeout).timeout scope.requested) ↔
      ∀ total, c.total = some total → total < timeout →
        ∀ scope ∈ b.scopes, scope.requested ≤ timeout := by
  obtain ⟨current, hcurrent, hlonger⟩ := h.longer
  have hscopes : (enter b timeout).scopes = b.scopes ++ [⟨timeout, true⟩] := by
    simp [enter, hcurrent, h.base]
  rw [hscopes, List.forall_mem_append, List.forall_mem_singleton]
  cases htotal : c.total with
  | none =>
    have hsame : (enter b timeout).timeout = b.timeout := by
      simp [enter, hcurrent, h.base, htotal]
    rw [htotal] at hlonger
    have hunbounded : ∀ seconds, AtLeast b.timeout seconds := by
      intro seconds c' hc' total htotal'
      obtain rfl := Option.some.inj (hcurrent.symm.trans hc')
      rw [hlonger, htotal] at htotal'
      contradiction
    rw [hsame]
    simp [hunbounded]
  | some total =>
    simp only [Option.some.injEq, forall_eq']
    by_cases hlt : total < timeout
    · have hwide : (enter b timeout).timeout =
          some { c with serial := b.made, total := some timeout } := by
        simp [enter, hcurrent, h.base, htotal, hlt]
      rw [hwide]
      have hwidened : ∀ seconds, AtLeast (some { c with serial := b.made, total := some timeout })
          seconds ↔ seconds ≤ timeout := fun seconds => atLeast_some_iff rfl
      simp only [hwidened, le_refl, and_true, hlt, true_implies]
    · have hsame : (enter b timeout).timeout = b.timeout := by
        simp [enter, hcurrent, h.base, htotal, hlt]
      rw [htotal] at hlonger
      obtain ⟨total', htotal', hle⟩ := hlonger
      have hnew : AtLeast b.timeout timeout := by
        rw [hcurrent, atLeast_some_iff htotal']
        exact le_trans (not_lt.mp hlt) hle
      rw [hsame]
      simp only [hlt, false_implies, iff_true]
      exact ⟨hb, hnew⟩

/-- An exit leaves the other scopes what they requested. -/
theorem unharmed_exit (h : Inv original b) (hb : ∀ scope ∈ b.scopes,
      AtLeast b.timeout scope.requested) {i : ℕ} {scope : Scope T}
    (hscope : b.scopes[i]? = some scope) :
    ∀ other ∈ (exit b i scope).scopes, AtLeast (exit b i scope).timeout other.requested := by
  have hscopes : (exit b i scope).scopes = b.scopes.eraseIdx i := by
    unfold exit
    dsimp only
    split_ifs <;> rfl
  have hmem : scope ∈ b.scopes := List.mem_of_getElem? hscope
  have hlt : i < b.scopes.length := (List.getElem?_eq_some_iff.mp hscope).1
  have hlength : (b.scopes.eraseIdx i).length = b.scopes.length - 1 :=
    List.length_eraseIdx_of_lt hlt
  intro other hother
  rw [hscopes] at hother
  have hpos : 0 < (b.scopes.eraseIdx i).length := List.length_pos_of_mem hother
  have hsame : (exit b i scope).timeout = b.timeout := by
    unfold exit
    dsimp only
    split_ifs with hcounted hlast
    · cases original with
      | none =>
        rw [h.2 scope hmem] at hcounted
        contradiction
      | some c =>
        have hdepth := Counted.depth h
        omega
    · rfl
    · rfl
  rw [hsame]
  exact hb other (List.mem_of_mem_eraseIdx hother)

/-- An event from an unharmed state leads to an unharmed one exactly if it is allowed. -/
theorem unharmed_step_iff (h : Inv original b) (hb : Unharmed original b) {event : Event T}
    (hstep : step b event = some b') : Unharmed original b' ↔ Ok original b event := by
  rw [unharmed_iff (h.step hstep)]
  cases event with
  | enter timeout =>
    obtain rfl := Option.some.inj hstep
    unfold Ok
    cases original with
    | some c =>
      simp only [Option.some.injEq, forall_eq']
      exact unharmed_enter_iff h hb.requested timeout
    | none =>
      have hnone : (enter b timeout).timeout = none := by simp [enter, h.1]
      simp [hnone, AtLeast]
  | exit i =>
    obtain ⟨scope, hscope, rfl⟩ := Option.map_eq_some_iff.mp hstep
    simp only [Ok, iff_true]
    exact unharmed_exit h hb.requested hscope

/-- Overlapping scopes are unharmed in every state of a run exactly if no scope that widens the
original timeout is entered over one that requested more. -/
theorem scopes_unharmed_iff (original : Option (ClientTimeout T)) (events : List (Event T)) :
    Runs.Throughout step (Unharmed original) (start original) events ↔
      Runs.Guarded step (Ok original) (start original) events := by
  have hstart : Unharmed original (start original) :=
    ⟨by simp [start], fun c _ hopen => absurd rfl hopen, fun _ => rfl⟩
  have hrun : Runs.Throughout step (Unharmed original) (start original) events ↔
      Unharmed original (start original) ∧
        Runs.Guarded step (Ok original) (start original) events :=
    Runs.throughout_iff_guarded (Inv original) (Unharmed original) (fun _ _ _ h => h.step)
      (fun _ _ _ h hb => unharmed_step_iff h hb) (inv_start original)
  rw [hrun]
  simp [hstart]

/-- The default timeout of five seconds. -/
def fiveSeconds : ClientTimeout ℕ := ⟨0, some 5, none, none, none⟩

/-- A call that allows ten seconds shortens the timeout of one that allows fifteen. -/
theorem overlap_shortened : ¬ Runs.Throughout step (Unharmed (some fiveSeconds))
    (start (some fiveSeconds)) [.enter 15, .enter 10] := by
  intro h
  have hlast := h [.enter 15, .enter 10] (List.prefix_refl _) _ rfl
  have hfirst := hlast.requested ⟨15, true⟩ List.mem_cons_self _ rfl 10 rfl
  exact absurd hfirst (by decide)

end ProxboxApi.ScopedTimeout
