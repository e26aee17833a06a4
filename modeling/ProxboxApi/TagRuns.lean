import ProxboxApi.Runs
import ProxboxApi.VmTags

/-! Calls that tag and untag one VM, interleaved request by request: when the tags keep every
change. -/

namespace ProxboxApi.VmTags

open Requests
open Verbs (Exn Endpoint)

/-- The VM that the calls are on. -/
structure Vm where
  vmid : ℤ
  node : String
  kind : VmKind

structure Call where
  tag : String
  action : Action
  endpointId : Option ℤ
  deriving DecidableEq

def Call.body (vm : Vm) (c : Call) : TagPendingDeletionBody := ⟨vm.vmid, vm.node, vm.kind, c.tag⟩

/-- A call under way: the text of the tags it has read, if it has, and what is left of it. -/
structure Party where
  call : Call
  seen : Option (Option String)
  rest : Route (Except Refusal (List String))

def Party.start (py : Python) (vm : Vm) (c : Call) : Party :=
  ⟨c, none, applyTagOperation py (c.body vm) c.endpointId c.action⟩

/-- The text of the VM's tags, and the calls. -/
structure System where
  raw : Option String
  parties : List Party

def System.start (py : Python) (vm : Vm) (raw : Option String) (calls : List Call) : System :=
  ⟨raw, calls.map (Party.start py vm)⟩

/-- The VM's configuration has its tags; the other replies are given. -/
def answer (raw : Option String) (given : (q : Request) → Reply q) : (q : Request) → Reply q
  | .config kind node vmid => (given (.config kind node vmid)).map fun _ => raw
  | .endpoint id => given (.endpoint id)
  | .endpoints => given .endpoints
  | .openSession endpoint => given (.openSession endpoint)
  | .putTags kind node vmid tags => given (.putTags kind node vmid tags)

/-- The text of the tags after a request. -/
def rawAfter (raw : Option String) : (q : Request) → Reply q → Option String
  | .putTags _ _ _ tags, .ok _ => some tags
  | _, _ => raw

def seenAfter (raw : Option String) (seen : Option (Option String)) : Request → Option (Option String)
  | .config .. => some raw
  | _ => seen

/-- The call at a position has its next request answered. -/
def turn (s : System) (t : ℕ × ((q : Request) → Reply q)) : Option System :=
  match s.parties[t.1]? with
  | some ⟨call, seen, .ask q next⟩ =>
    let reply := answer s.raw t.2 q
    some ⟨rawAfter s.raw q reply,
      s.parties.set t.1 ⟨call, seenAfter s.raw seen q, next reply⟩⟩
  | _ => none

def Party.succeeded (p : Party) : Bool :=
  match p.rest with
  | .ret (.ok (.ok _)) => true
  | _ => false

variable (py : Python)

/-- A tag as it is read back: what `parse_proxmox_tags` leaves as it is. -/
def PlainTag (tag : String) : Prop :=
  tag ≠ "" ∧ ';' ∉ tag.toList ∧ py.lower (Text.strip tag) = tag

/-- The tags are still those that the call has read, when it writes. -/
def Fresh (s : System) (t : ℕ × ((q : Request) → Reply q)) : Prop :=
  match s.parties[t.1]? with
  | some ⟨_, seen, .ask (.putTags _ _ _ _) _⟩ => ∃ read, seen = some read ∧
      ∀ tag, tag ∈ parseProxmoxTags py read ↔ tag ∈ parseProxmoxTags py s.raw
  | _ => True

/-- No tag is both added and removed. -/
def Separate (calls : List Call) : Prop :=
  ∀ c ∈ calls, ∀ c' ∈ calls, c.action = .add → c'.action = .remove → c.tag ≠ c'.tag

/-- The tags hold what the calls were to make of those there were. -/
structure Kept (raw : Option String) (calls : List Call) (s : System) : Prop where
  initial : ∀ tag ∈ parseProxmoxTags py raw,
    (∀ c ∈ calls, c.action = .remove → c.tag ≠ tag) → tag ∈ parseProxmoxTags py s.raw
  added : ∀ p ∈ s.parties, p.succeeded = true → p.call.action = .add →
    p.call.tag ∈ parseProxmoxTags py s.raw
  removed : ∀ p ∈ s.parties, p.succeeded = true → p.call.action = .remove →
    p.call.tag ∉ parseProxmoxTags py s.raw

/-- What is left at the end, when every call succeeds. -/
structure NothingLost (raw : Option String) (calls : List Call) (final : Option String) :
    Prop where
  initial : ∀ tag ∈ parseProxmoxTags py raw,
    (∀ c ∈ calls, c.action = .remove → c.tag ≠ tag) → tag ∈ parseProxmoxTags py final
  added : ∀ c ∈ calls, c.action = .add → c.tag ∈ parseProxmoxTags py final
  removed : ∀ c ∈ calls, c.action = .remove → c.tag ∉ parseProxmoxTags py final

section Tags

variable {py} {raw : Option String} {tag : String}

theorem mem_foldl_unique {names : List String} {out : List String} :
    tag ∈ names.foldl (fun out name => if name ∈ out then out else out ++ [name]) out ↔
      tag ∈ out ∨ tag ∈ names := by
  induction names generalizing out with
  | nil => simp
  | cons name names ih =>
    rw [List.foldl_cons, ih]
    split
    · rename_i hname
      constructor
      · exact fun h => h.imp_right (List.mem_cons_of_mem _)
      · rintro (h | h)
        · exact Or.inl h
        · rcases List.mem_cons.mp h with rfl | h
          · exact Or.inl hname
          · exact Or.inr h
    · simp only [List.mem_append, List.mem_cons, List.not_mem_nil, or_false, or_assoc]

/-- The tags that are read are the pieces, lower-case and stripped. -/
theorem mem_parse : tag ∈ parseProxmoxTags py raw ↔ tag ≠ "" ∧
    ∃ piece ∈ (raw.getD "").toList.splitOn ';',
      py.lower (Text.strip (String.ofList piece)) = tag := by
  simp only [parseProxmoxTags, mem_foldl_unique, List.not_mem_nil, false_or, List.mem_filter,
    List.mem_map, decide_eq_true_eq, ne_eq]
  exact and_comm

variable (hlower : ∀ s, py.lower (Text.strip (py.lower (Text.strip s))) = py.lower (Text.strip s))
  (hsemicolon : ∀ s : String, ';' ∉ s.toList → ';' ∉ (py.lower s).toList)

include hlower hsemicolon in
theorem plain_of_mem_parse (h : tag ∈ parseProxmoxTags py raw) : PlainTag py tag := by
  obtain ⟨hne, piece, hpiece, rfl⟩ := mem_parse.mp h
  refine ⟨hne, hsemicolon _ fun hmem => ?_, hlower _⟩
  rw [Text.strip, String.toList_ofList, String.toList_ofList] at hmem
  exact (Text.of_mem_splitOn hpiece).1 (Text.mem_of_mem_stripChars hmem)

/-- Plain tags are read back. -/
theorem mem_parse_tagsToConfig {tags : List String} (h : ∀ t ∈ tags, PlainTag py t) :
    tag ∈ parseProxmoxTags py (some (tagsToConfig tags)) ↔ tag ∈ tags := by
  rw [mem_parse]
  cases tags with
  | nil =>
    constructor
    · rintro ⟨hne, piece, hpiece, heq⟩
      have hlow : py.lower "" = "" := py.lower_ascii "" (by simp)
      obtain rfl : piece = [] := by simpa [tagsToConfig] using hpiece
      exact absurd (heq ▸ hlow) hne
    · simp
  | cons first more =>
    have htext : (tagsToConfig (first :: more)).toList.splitOn ';' =
        (first :: more).map String.toList := by
      rw [tagsToConfig, String.toList_intercalate]
      refine List.splitOn_intercalate ';' ?_ (by simp)
      intro l hl
      obtain ⟨t, ht, rfl⟩ := List.mem_map.mp hl
      exact (h t ht).2.1
    rw [Option.getD_some, htext]
    constructor
    · rintro ⟨-, piece, hpiece, heq⟩
      obtain ⟨t, ht, rfl⟩ := List.mem_map.mp hpiece
      rw [String.ofList_toList, (h t ht).2.2] at heq
      exact heq ▸ ht
    · intro htag
      refine ⟨(h tag htag).1, tag.toList, List.mem_map_of_mem htag, ?_⟩
      rw [String.ofList_toList, (h tag htag).2.2]

end Tags

section Stages

/-- After the read: nothing to change, or the write of the updated tags. -/
def HasRead (c : Call) (raw : Option String) (p : Route (Except Refusal (List String))) : Prop :=
  match updatedTags c.action c.tag (parseProxmoxTags py raw) with
  | none => p = .ret (.ok (.ok (parseProxmoxTags py raw)))
  | some tags => ∃ kind node vmid next,
      p = .ask (.putTags kind node vmid (tagsToConfig tags)) next ∧
        (∀ e, ∃ r, next (.error e) = .ret r ∧ ∀ tags, r ≠ .ok (.ok tags)) ∧
        next (.ok ()) = .ret (.ok (.ok tags))

/-- Before the read: no write, and no success. -/
def Reads (c : Call) : Route (Except Refusal (List String)) → Prop
  | .ret r => ∀ tags, r ≠ .ok (.ok tags)
  | .ask (.config _ _ _) next =>
    (∀ e, ∃ r, next (.error e) = .ret r ∧ ∀ tags, r ≠ .ok (.ok tags)) ∧
      ∀ raw, HasRead py c raw (next (.ok raw))
  | .ask (.putTags _ _ _ _) _ => False
  | .ask (.endpoint _) next => ∀ reply, Reads c (next reply)
  | .ask .endpoints next => ∀ reply, Reads c (next reply)
  | .ask (.openSession _) next => ∀ reply, Reads c (next reply)

def Party.Stage (p : Party) : Prop :=
  match p.seen with
  | none => Reads py p.call p.rest
  | some raw => HasRead py p.call raw p.rest ∨ ∃ r, p.rest = .ret r

variable {py} {vm : Vm} {c : Call}

theorem reads_raise (e : Exn) : Reads py c (raise e) := by
  intro tags h
  simp at h

theorem reads_setTags (endpoint : Endpoint) :
    Reads py c (Prog.rescue
      (Prog.andThen (setTags py endpoint (c.body vm) c.action) fun tags => pure (.ok tags))
      fun e =>
        if e.isException then
          raise (.exception "HTTPException" ("502: Proxmox API call failed: " ++ e.message))
        else raise e) := by
  have hfailed : ∀ e : Exn, ∃ r, (if e.isException then
        raise (.exception "HTTPException" ("502: Proxmox API call failed: " ++ e.message))
      else raise e : Route (Except Refusal (List String))) = .ret r ∧
        ∀ tags, r ≠ .ok (.ok tags) := by
    intro e
    split
    · exact ⟨_, rfl, by simp⟩
    · exact ⟨_, rfl, by simp⟩
  intro reply
  cases reply with
  | error e =>
    obtain ⟨r, hr, hno⟩ := hfailed e
    change Reads py c (if e.isException then _ else _)
    rw [hr]
    exact hno
  | ok _ =>
    refine ⟨hfailed, fun raw => ?_⟩
    change HasRead py c raw (Prog.rescue (Prog.andThen
      (match updatedTags c.action c.tag (parseProxmoxTags py raw) with
        | none => pure (parseProxmoxTags py raw)
        | some tags => Prog.andThen
            (ask (.putTags vm.kind vm.node vm.vmid (tagsToConfig tags))) fun _ => pure tags)
      fun tags => pure (.ok tags)) _)
    unfold HasRead
    cases updatedTags c.action c.tag (parseProxmoxTags py raw) with
    | none => rfl
    | some tags => exact ⟨vm.kind, vm.node, vm.vmid, _, rfl, hfailed, rfl⟩

theorem reads_refusal (refusal : Refusal) : Reads py c (pure (.error refusal)) := by
  intro tags h
  simp at h

theorem reads_gate (id : ℤ) :
    Reads py c (applyTagOperation py (c.body vm) (some id) c.action) := by
  intro reply
  cases reply with
  | error e => exact reads_raise e
  | ok row =>
    cases row with
    | none => exact reads_refusal _
    | some endpoint =>
      cases hallow : endpoint.allowWrites with
      | true =>
        have hreads := @reads_setTags py vm c endpoint
        simp only [Prog.andThen, Prog.bind, hallow, if_true, pure]
        exact hreads
      | false =>
        simp only [Prog.andThen, Prog.bind, hallow, Bool.false_eq_true, if_false, pure]
        exact reads_refusal _

theorem reads_rows : Reads py c (applyTagOperation py (c.body vm) none c.action) := by
  intro reply
  cases reply with
  | error e => exact reads_raise e
  | ok rows =>
    rcases hrows : rows.filter (·.allowWrites) with _ | ⟨endpoint, _ | ⟨other, more⟩⟩
    all_goals
      simp only [Prog.andThen, Prog.bind, hrows, pure]
    · exact reads_refusal _
    · exact @reads_setTags py vm c endpoint
    · exact reads_refusal _

theorem reads_start (vm : Vm) (c : Call) : Reads py c (Party.start py vm c).rest := by
  cases c with
  | mk tag action endpointId =>
    cases endpointId with
    | none => exact reads_rows
    | some id => exact reads_gate id

theorem not_succeeded_of_failed {r : Except Exn (Except Refusal (List String))}
    (h : ∀ tags, r ≠ .ok (.ok tags)) (seen : Option (Option String)) :
    Party.succeeded ⟨c, seen, .ret r⟩ = false := by
  rcases r with _ | (_ | tags)
  · rfl
  · rfl
  · exact absurd rfl (h tags)

theorem not_succeeded_of_reads {p : Route (Except Refusal (List String))} (h : Reads py c p)
    (seen : Option (Option String)) : Party.succeeded ⟨c, seen, p⟩ = false := by
  cases p with
  | ask q next => rfl
  | ret r => exact not_succeeded_of_failed h seen

/-- What an answered request does: nothing to the tags, and the call succeeds only if it finds
nothing to change; or the write of the tags updated from those that the call has read. -/
theorem Party.Stage.turn {p : Party} {q : Request}
    {next : Reply q → Route (Except Refusal (List String))} (h : p.Stage py)
    (hp : p.rest = .ask q next) (raw : Option String) (given : (q : Request) → Reply q) :
    Party.Stage py ⟨p.call, seenAfter raw p.seen q, next (answer raw given q)⟩ ∧
      ((rawAfter raw q (answer raw given q) = raw ∧
        (Party.succeeded ⟨p.call, seenAfter raw p.seen q, next (answer raw given q)⟩ = true →
          updatedTags p.call.action p.call.tag (parseProxmoxTags py raw) = none)) ∨
      ∃ kind node vmid read tags, q = .putTags kind node vmid (tagsToConfig tags) ∧
        p.seen = some read ∧
        updatedTags p.call.action p.call.tag (parseProxmoxTags py read) = some tags ∧
        rawAfter raw q (answer raw given q) = some (tagsToConfig tags)) := by
  obtain ⟨call, seen, rest⟩ := p
  obtain rfl : rest = .ask q next := hp
  have hquiet : ∀ reply, Reads py call (next reply) → ∀ seen',
      Party.succeeded ⟨call, seen', next reply⟩ = true → False := by
    intro reply hreads seen' hsucceeded
    rw [not_succeeded_of_reads hreads] at hsucceeded
    exact Bool.noConfusion hsucceeded
  cases seen with
  | none =>
    cases q with
    | putTags _ _ _ _ => exact h.elim
    | endpoint id => exact ⟨h _, Or.inl ⟨rfl, fun hs => (hquiet _ (h _) _ hs).elim⟩⟩
    | endpoints => exact ⟨h _, Or.inl ⟨rfl, fun hs => (hquiet _ (h _) _ hs).elim⟩⟩
    | openSession _ => exact ⟨h _, Or.inl ⟨rfl, fun hs => (hquiet _ (h _) _ hs).elim⟩⟩
    | config kind node vmid =>
      obtain ⟨hfail, hread⟩ := h
      have hanswer : answer raw given (.config kind node vmid) =
          (given (.config kind node vmid)).map fun _ => raw := rfl
      rw [hanswer]
      cases given (.config kind node vmid) with
      | error e =>
        obtain ⟨r, hr, hno⟩ := hfail e
        refine ⟨Or.inr ⟨r, hr⟩, Or.inl ⟨rfl, fun hs => ?_⟩⟩
        have hfailed : Party.succeeded ⟨call, some raw, next (.error e)⟩ = false := by
          rw [hr]
          exact not_succeeded_of_failed hno _
        exact Bool.noConfusion (hfailed.symm.trans hs)
      | ok _ =>
        refine ⟨Or.inl (hread raw), Or.inl ⟨rfl, fun hs => ?_⟩⟩
        have hhas := hread raw
        unfold HasRead at hhas
        cases hupdated : updatedTags call.action call.tag (parseProxmoxTags py raw) with
        | none => rfl
        | some tags =>
          rw [hupdated] at hhas
          obtain ⟨_, _, _, _, hask, -⟩ := hhas
          have hpending : Party.succeeded ⟨call, some raw, next (.ok raw)⟩ = false := by
            rw [hask]
            rfl
          exact Bool.noConfusion (hpending.symm.trans hs)
  | some read =>
    rcases h with h | ⟨r, hr⟩
    · unfold HasRead at h
      cases hupdated : updatedTags call.action call.tag (parseProxmoxTags py read) with
      | none =>
        rw [hupdated] at h
        cases h
      | some tags =>
        rw [hupdated] at h
        obtain ⟨kind, node, vmid, next', hask, hfail, hok⟩ := h
        cases hask
        have hanswer : answer raw given (.putTags kind node vmid (tagsToConfig tags)) =
            given (.putTags kind node vmid (tagsToConfig tags)) := rfl
        rw [hanswer]
        cases given (.putTags kind node vmid (tagsToConfig tags)) with
        | error e =>
          obtain ⟨r, hr, hno⟩ := hfail e
          refine ⟨Or.inr ⟨r, hr⟩, Or.inl ⟨rfl, fun hs => ?_⟩⟩
          have hfailed : Party.succeeded ⟨call, some read, next' (.error e)⟩ = false := by
            rw [hr]
            exact not_succeeded_of_failed hno _
          exact Bool.noConfusion (hfailed.symm.trans hs)
        | ok _ =>
          exact ⟨Or.inr ⟨_, hok⟩, Or.inr ⟨kind, node, vmid, read, tags, rfl, rfl, hupdated, rfl⟩⟩
    · cases hr

end Stages

section Updates

variable {action : Action} {tag : String} {current tags : List String}

theorem mem_of_updated_none (h : updatedTags action tag current = none) :
    (action = .add → tag ∈ current) ∧ (action = .remove → tag ∉ current) := by
  cases action with
  | add =>
    refine ⟨fun _ => ?_, nofun⟩
    by_contra hno
    simp [updatedTags, hno] at h
  | remove =>
    refine ⟨nofun, fun _ hmem => ?_⟩
    simp [updatedTags, hmem] at h

/-- The updated tags: one more, or one less. -/
theorem mem_updated (h : updatedTags action tag current = some tags) (t : String) :
    t ∈ tags ↔ (action = .add ∧ (t ∈ current ∨ t = tag)) ∨
      (action = .remove ∧ t ∈ current ∧ t ≠ tag) := by
  cases action with
  | add =>
    by_cases hmem : tag ∈ current
    · simp [updatedTags, hmem] at h
    · simp only [updatedTags, if_neg hmem, Option.some.injEq] at h
      simp [← h]
  | remove =>
    by_cases hmem : tag ∈ current
    · simp only [updatedTags, if_pos hmem, Option.some.injEq] at h
      simp [← h]
    · simp [updatedTags, hmem] at h

end Updates

/-- The calls at their stages, and the tags as they are to be. -/
structure Inv (raw : Option String) (calls : List Call) (s : System) : Prop where
  stages : ∀ p ∈ s.parties, p.Stage py
  calls_eq : s.parties.map Party.call = calls
  kept : Kept py raw calls s

section Invariant

variable {py} {raw : Option String} {calls : List Call} {s s' : System}
  {t : ℕ × ((q : Request) → Reply q)}

theorem turn_eq_some (h : turn s t = some s') : ∃ p q next, s.parties[t.1]? = some p ∧
    p.rest = .ask q next ∧ s' = ⟨rawAfter s.raw q (answer s.raw t.2 q), s.parties.set t.1
      ⟨p.call, seenAfter s.raw p.seen q, next (answer s.raw t.2 q)⟩⟩ := by
  unfold turn at h
  split at h
  · rename_i call seen q next hp
    exact ⟨⟨call, seen, .ask q next⟩, q, next, hp, rfl, (Option.some.inj h).symm⟩
  · simp at h

theorem inv_start (vm : Vm) : Inv py raw calls (System.start py vm raw calls) := by
  have hstart : ∀ p ∈ (System.start py vm raw calls).parties, ∃ c, p = Party.start py vm c := by
    intro p hp
    obtain ⟨c, -, rfl⟩ := List.mem_map.mp hp
    exact ⟨c, rfl⟩
  have hpending : ∀ p ∈ (System.start py vm raw calls).parties, ¬ p.succeeded = true := by
    intro p hp hs
    obtain ⟨c, rfl⟩ := hstart p hp
    exact Bool.noConfusion ((not_succeeded_of_reads (reads_start vm c) none).symm.trans hs)
  refine ⟨?_, ?_, fun tag htag _ => htag, ?_, ?_⟩
  · intro p hp
    obtain ⟨c, rfl⟩ := hstart p hp
    exact reads_start vm c
  · rw [System.start, List.map_map]
    exact List.map_id _
  · exact fun p hp hs => absurd hs (hpending p hp)
  · exact fun p hp hs => absurd hs (hpending p hp)

theorem read_of_fresh {p : Party} {kind : VmKind} {node text : String} {vmid : ℤ}
    {next : Except Exn Unit → Route (Except Refusal (List String))} (h : Fresh py s t)
    (hget : s.parties[t.1]? = some p) (hrest : p.rest = .ask (.putTags kind node vmid text) next) :
    ∃ read, p.seen = some read ∧
      ∀ tag, tag ∈ parseProxmoxTags py read ↔ tag ∈ parseProxmoxTags py s.raw := by
  obtain ⟨call, seen, rest⟩ := p
  obtain rfl : rest = .ask (.putTags kind node vmid text) next := hrest
  simp only [Fresh, hget] at h
  exact h

/-- A call that finds nothing to change succeeds on tags that are as it wants them. -/
theorem Kept.unchanged {p : Party} {parties : List Party} (h : Kept py raw calls s)
    (hparties : ∀ p' ∈ parties, p' ∈ s.parties ∨ p' = p)
    (hp : p.succeeded = true →
      updatedTags p.call.action p.call.tag (parseProxmoxTags py s.raw) = none) :
    Kept py raw calls ⟨s.raw, parties⟩ := by
  refine ⟨h.initial, ?_, ?_⟩
  · intro p' hp' hs hadd
    rcases hparties p' hp' with hold | rfl
    · exact h.added p' hold hs hadd
    · exact (mem_of_updated_none (hp hs)).1 hadd
  · intro p' hp' hs hremove
    rcases hparties p' hp' with hold | rfl
    · exact h.removed p' hold hs hremove
    · exact (mem_of_updated_none (hp hs)).2 hremove

/-- A write of the current tags with a call's own change keeps the changes of the others. -/
theorem Kept.written {p : Party} {parties : List Party} {final : Option String}
    {current tags : List String} (h : Kept py raw calls s) (hdisjoint : Separate calls)
    (hcalls : ∀ p' ∈ s.parties, p'.call ∈ calls) (hp : p.call ∈ calls)
    (hparties : ∀ p' ∈ parties, p' ∈ s.parties ∨ p' = p)
    (hcurrent : ∀ t, t ∈ current ↔ t ∈ parseProxmoxTags py s.raw)
    (hupdated : updatedTags p.call.action p.call.tag current = some tags)
    (hfinal : ∀ t, t ∈ parseProxmoxTags py final ↔ t ∈ tags) :
    Kept py raw calls ⟨final, parties⟩ := by
  have hmem : ∀ t, t ∈ parseProxmoxTags py final ↔
      (p.call.action = .add ∧ (t ∈ parseProxmoxTags py s.raw ∨ t = p.call.tag)) ∨
        (p.call.action = .remove ∧ t ∈ parseProxmoxTags py s.raw ∧ t ≠ p.call.tag) := by
    intro t
    rw [hfinal, mem_updated hupdated, hcurrent]
  have haction : p.call.action = .add ∨ p.call.action = .remove := by
    cases p.call.action <;> simp
  refine ⟨?_, ?_, ?_⟩
  · intro tag htag hkeep
    have hold := h.initial tag htag hkeep
    refine (hmem tag).mpr (haction.imp ?_ ?_)
    · exact fun ha => ⟨ha, Or.inl hold⟩
    · exact fun hr => ⟨hr, hold, fun heq => hkeep p.call hp hr heq.symm⟩
  · intro p' hp' hs hadd
    rcases hparties p' hp' with hold | rfl
    · have htag := h.added p' hold hs hadd
      refine (hmem p'.call.tag).mpr (haction.imp ?_ ?_)
      · exact fun ha => ⟨ha, Or.inl htag⟩
      · exact fun hr => ⟨hr, htag, hdisjoint _ (hcalls p' hold) _ hp hadd hr⟩
    · exact (hmem p'.call.tag).mpr (Or.inl ⟨hadd, Or.inr rfl⟩)
  · intro p' hp' hs hremove hin
    rcases hparties p' hp' with hold | rfl
    · have htag := h.removed p' hold hs hremove
      rcases (hmem p'.call.tag).mp hin with ⟨ha, hin | heq⟩ | ⟨-, hin, -⟩
      · exact htag hin
      · exact hdisjoint _ hp _ (hcalls p' hold) ha hremove heq.symm
      · exact htag hin
    · rcases (hmem p'.call.tag).mp hin with ⟨ha, -⟩ | ⟨-, -, hne⟩
      · rw [hremove] at ha
        cases ha
      · exact hne rfl

variable (hlower : ∀ s, py.lower (Text.strip (py.lower (Text.strip s))) = py.lower (Text.strip s))
  (hsemicolon : ∀ s : String, ';' ∉ s.toList → ';' ∉ (py.lower s).toList)
  (hplain : ∀ c ∈ calls, PlainTag py c.tag) (hdisjoint : Separate calls)

include hlower hsemicolon hplain hdisjoint

theorem inv_turn (h : Inv py raw calls s) (hfresh : Fresh py s t) (hturn : turn s t = some s') :
    Inv py raw calls s' := by
  obtain ⟨p, q, next, hget, hrest, rfl⟩ := turn_eq_some hturn
  have hp := List.mem_of_getElem? hget
  have hcalls : ∀ p' ∈ s.parties, p'.call ∈ calls := by
    intro p' hp'
    rw [← h.calls_eq]
    exact List.mem_map_of_mem hp'
  obtain ⟨hstage, heffect⟩ := (h.stages p hp).turn hrest s.raw t.2
  have hparties : ∀ p' ∈ s.parties.set t.1
      ⟨p.call, seenAfter s.raw p.seen q, next (answer s.raw t.2 q)⟩, p' ∈ s.parties ∨ p' = _ :=
    fun p' hp' => List.mem_or_eq_of_mem_set hp'
  refine ⟨?_, ?_, ?_⟩
  · intro p' hp'
    rcases hparties p' hp' with hold | rfl
    · exact h.stages p' hold
    · exact hstage
  · obtain ⟨hi, hpi⟩ := List.getElem?_eq_some_iff.mp hget
    have hsame : s.parties.set t.1 p = s.parties := by
      rw [← hpi]
      exact List.set_getElem_self hi
    rw [List.map_set, ← h.calls_eq]
    conv_rhs => rw [← hsame, List.map_set]
  · rcases heffect with ⟨hraw, hsucceeded⟩ |
      ⟨kind, node, vmid, read, tags, rfl, hseen, hupdated, hraw⟩
    · rw [hraw]
      exact h.kept.unchanged hparties hsucceeded
    · rw [hraw]
      obtain ⟨read', hseen', hcurrent⟩ := read_of_fresh hfresh hget hrest
      obtain rfl : read = read' := Option.some.inj (hseen.symm.trans hseen')
      have hplaintags : ∀ tag ∈ tags, PlainTag py tag := by
        intro tag htag
        rcases (mem_updated hupdated tag).mp htag with ⟨-, hin | rfl⟩ | ⟨-, hin, -⟩
        · exact plain_of_mem_parse hlower hsemicolon hin
        · exact hplain _ (hcalls p hp)
        · exact plain_of_mem_parse hlower hsemicolon hin
      have hcall : p.call ∈ calls := hcalls p hp
      exact h.kept.written hdisjoint hcalls (p := ⟨p.call, seenAfter s.raw p.seen
        (.putTags kind node vmid (tagsToConfig tags)), next (answer s.raw t.2 _)⟩) hcall hparties
        hcurrent hupdated fun tag => mem_parse_tagsToConfig hplaintags

/-- In a run whose writes all find the tags that their calls have read, the tags keep every change
in each state that is reached, and at the end nothing is lost. -/
theorem tags_kept {vm : Vm} {turns : List (ℕ × ((q : Request) → Reply q))}
    (hrun : Runs.exec turn (System.start py vm raw calls) turns = some s)
    (hfresh : Runs.Guarded turn (Fresh py) (System.start py vm raw calls) turns) :
    Kept py raw calls s ∧
      ((∀ p ∈ s.parties, p.succeeded = true) → NothingLost py raw calls s.raw) := by
  have hinv : Inv py raw calls s := Runs.invariant_of_guarded (Inv py raw calls)
    (fun _ _ _ h hok hturn => inv_turn hlower hsemicolon hplain hdisjoint h hok hturn)
    (inv_start vm) hfresh hrun
  refine ⟨hinv.kept, fun hall => ⟨hinv.kept.initial, ?_, ?_⟩⟩
  all_goals
    intro c hc haction
    rw [← hinv.calls_eq] at hc
    obtain ⟨p, hp, rfl⟩ := List.mem_map.mp hc
  · exact hinv.kept.added p hp (hall p hp) haction
  · exact hinv.kept.removed p hp (hall p hp) haction

end Invariant

section Ascii

theorem isSpace_toLower (c : Char) : Text.isSpace c.toLower = Text.isSpace c := by
  rcases Text.toLower_cases c with ⟨h, -⟩ | ⟨h, h'⟩
  · rw [h]
  · have hletter : ∀ d : Char, 65 ≤ d.toNat → d.toNat ≤ 122 → Text.isSpace d = false := by
      intro d hlow hhigh
      simp only [Text.isSpace, Bool.or_eq_false_iff, Bool.and_eq_false_imp, decide_eq_true_eq,
        decide_eq_false_iff_not]
      omega
    rw [hletter _ (by omega) (by omega), hletter c (by omega) (by omega)]

/-- On the ASCII letters, what is stripped and lower-case stays as it is. -/
theorem ascii_lower (s : String) : Python.ascii.lower (Text.strip (Python.ascii.lower
    (Text.strip s))) = Python.ascii.lower (Text.strip s) := by
  have hstrip : ∀ l : List Char, Text.stripChars Text.isSpace (l.map Char.toLower) =
      (Text.stripChars Text.isSpace l).map Char.toLower := by
    intro l
    have hspace : Text.isSpace ∘ Char.toLower = Text.isSpace := funext isSpace_toLower
    rw [Text.stripChars, List.dropWhile_map, hspace, ← List.map_reverse, List.dropWhile_map,
      hspace, ← List.map_reverse]
    rfl
  have hmap : ∀ l : List Char, (l.map Char.toLower).map Char.toLower = l.map Char.toLower := by
    intro l
    rw [List.map_map]
    exact List.map_congr_left fun c _ => Text.toLower_toLower c
  change Python.lowerAscii (Text.strip (Python.lowerAscii (Text.strip s))) =
    Python.lowerAscii (Text.strip s)
  simp only [Python.lowerAscii, Text.strip, String.toList_ofList, hstrip, hmap,
    Text.stripChars_stripChars]

theorem ascii_semicolon (s : String) (h : ';' ∉ s.toList) :
    ';' ∉ (Python.ascii.lower s).toList := by
  change ';' ∉ (String.ofList (s.toList.map Char.toLower)).toList
  rw [String.toList_ofList]
  intro hmem
  obtain ⟨c, hc, heq⟩ := List.mem_map.mp hmem
  rcases Text.toLower_cases c with ⟨hsame, -⟩ | ⟨-, hlow, -⟩
  · exact h (heq ▸ hsame.symm ▸ hc)
  · rw [heq] at hlow
    exact absurd hlow (by decide)

end Ascii

/-- An endpoint that allows writes, and requests that all go through. -/
def replies : (q : Request) → Reply q
  | .endpoint id => .ok (some ⟨id, "pve", true⟩)
  | .endpoints => .ok [⟨1, "pve", true⟩]
  | .openSession _ => .ok ()
  | .config _ _ _ => .ok none
  | .putTags _ _ _ _ => .ok ()

/-- The turns of the calls at these positions. -/
def turnsOf (positions : List ℕ) : List (ℕ × ((q : Request) → Reply q)) :=
  positions.map fun i => (i, replies)

/-- The text of the tags is still the one that the call has read, when it writes. -/
def sameText (s : System) (t : ℕ × ((q : Request) → Reply q)) : Bool :=
  match s.parties[t.1]? with
  | some ⟨_, seen, .ask (.putTags _ _ _ _) _⟩ => seen = some s.raw
  | _ => true

theorem fresh_of_sameText {py : Python} {s : System} {t : ℕ × ((q : Request) → Reply q)}
    (h : sameText s t = true) : Fresh py s t := by
  unfold sameText at h
  unfold Fresh
  split
  · rename_i hget
    rw [hget] at h
    exact ⟨s.raw, of_decide_eq_true h, fun _ => Iff.rfl⟩
  · trivial

theorem tags_kept_in_turn :
    let calls : List Call := [⟨"b", .add, none⟩, ⟨"a", .remove, none⟩]
    ∃ s, Runs.exec turn (System.start Python.ascii ⟨100, "pve", .qemu⟩ (some "a") calls)
        (turnsOf [0, 0, 1, 0, 0, 1, 1, 1]) = some s ∧ Kept Python.ascii (some "a") calls s ∧
      ((∀ p ∈ s.parties, p.succeeded = true) →
        NothingLost Python.ascii (some "a") calls s.raw) := by
  intro calls
  have hends : (Runs.exec turn (System.start Python.ascii ⟨100, "pve", .qemu⟩ (some "a") calls)
      (turnsOf [0, 0, 1, 0, 0, 1, 1, 1])).isSome = true := by decide +kernel
  obtain ⟨s, hrun⟩ := Option.isSome_iff_exists.mp hends
  have hsame : Runs.Guarded turn (fun s t => sameText s t = true)
      (System.start Python.ascii ⟨100, "pve", .qemu⟩ (some "a") calls)
      (turnsOf [0, 0, 1, 0, 0, 1, 1, 1]) := by decide +kernel
  have hfresh := hsame.mono_of_invariant (fun _ => True) (fun _ _ _ _ _ => trivial)
    (fun _ _ _ h => @fresh_of_sameText Python.ascii _ _ h) trivial
  have hplain : ∀ tag ∈ ["b", "a"], PlainTag Python.ascii tag := by
    unfold PlainTag
    decide +kernel
  refine ⟨s, hrun, tags_kept ascii_lower ascii_semicolon ?_ ?_ hrun hfresh⟩
  · intro c hc
    exact hplain c.tag (List.mem_map_of_mem (f := Call.tag) hc)
  · unfold Separate
    decide

/-- Of two tags that are added at the same time, the first write is lost. -/
theorem tag_lost : ¬ ∀ (py : Python) (vm : Vm) (raw : Option String) (calls : List Call)
    (turns : List (ℕ × ((q : Request) → Reply q))) (s : System),
    (∀ c ∈ calls, PlainTag py c.tag) → Separate calls →
    Runs.exec turn (System.start py vm raw calls) turns = some s →
    (∀ p ∈ s.parties, p.succeeded = true) → NothingLost py raw calls s.raw := by
  intro h
  let calls : List Call := [⟨"b", .add, none⟩, ⟨"c", .add, none⟩]
  let start := System.start Python.ascii ⟨100, "pve", .qemu⟩ (some "a") calls
  have hends : (Runs.exec turn start (turnsOf [0, 0, 0, 1, 1, 1, 0, 1])).any (fun s =>
      s.parties.all Party.succeeded && decide (s.raw = some "a;c")) = true := by decide +kernel
  obtain ⟨s, hrun, hs⟩ := (Option.any_eq_true _ _).mp hends
  obtain ⟨hall, hraw⟩ := Bool.and_eq_true_iff.mp hs
  have hplain : ∀ tag ∈ ["b", "c"], PlainTag Python.ascii tag := by
    unfold PlainTag
    decide +kernel
  have hlost := h Python.ascii _ (some "a") calls _ s
    (fun c hc => hplain c.tag (List.mem_map_of_mem (f := Call.tag) hc))
    (by unfold Separate; decide) hrun (List.all_eq_true.mp hall)
  have hb := hlost.added ⟨"b", .add, none⟩ List.mem_cons_self rfl
  rw [of_decide_eq_true hraw] at hb
  exact absurd hb (by decide +kernel)

end ProxboxApi.VmTags
