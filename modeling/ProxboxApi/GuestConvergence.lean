import ProxboxApi.GuestTurns

/-! Runs of `reconcile_guest_vm_interfaces` on one NetBox: what a run leaves for the next one, and
what it takes from the rows. -/

namespace ProxboxApi.GuestRows

open Requests (Prog)
open InterfaceIps (Host)
open VmQueue (field Record relationId)

variable {py : Python} {parse : String → Option Host} {nb : NetBox py} {a : Args} {g : Guest}
  {s s' : Store} {r r' : InterfaceRow}

/-- The ids of the interfaces are distinct, and below the next one; every interface has the custom
fields that are defined. -/
structure NetBox.Sound (nb : NetBox py) (s : Store) : Prop where
  ids : (s.interfaces.map InterfaceRow.id).Nodup
  next : ∀ r ∈ s.interfaces, r.id < s.next
  customFields : ∀ r ∈ s.interfaces, Dict.keys r.customFields = Dict.keys nb.customFields

theorem NetBox.Sound.eq_of_id (h : nb.Sound s) (hr : r ∈ s.interfaces) (hr' : r' ∈ s.interfaces)
    (hid : r.id = r'.id) : r = r' :=
  List.inj_on_of_nodup_map h.ids hr hr' hid

/-- What no reconciliation changes of a row. -/
def InterfaceRow.key (r : InterfaceRow) : ℤ × ℤ × String := (r.id, r.virtualMachine, r.name)

def Store.keys (s : Store) : List (ℤ × ℤ × String) := s.interfaces.map InterfaceRow.key

section Rows

variable {rows : List InterfaceRow} {p : InterfaceRow → Bool}

theorem find_set_of_not (hold : ∀ x ∈ rows, x.id = r'.id → p x = false) (hnew : p r' = false) :
    (rows.map fun x => if x.id = r'.id then r' else x).find? p = rows.find? p := by
  induction rows with
  | nil => rfl
  | cons x rows ih =>
    rw [List.forall_mem_cons] at hold
    rw [List.map_cons, List.find?_cons, List.find?_cons, ih hold.2]
    by_cases hid : x.id = r'.id
    · rw [if_pos hid, hnew, hold.1 hid]
    · rw [if_neg hid]

theorem find_set (hfind : rows.find? p = some r) (honly : ∀ x ∈ rows, x.id = r.id → x = r)
    (hid : r'.id = r.id) (hnew : p r' = true) :
    (rows.map fun x => if x.id = r'.id then r' else x).find? p = some r' := by
  induction rows with
  | nil => cases hfind
  | cons x rows ih =>
    rw [List.forall_mem_cons] at honly
    rw [List.map_cons, List.find?_cons]
    rw [List.find?_cons] at hfind
    cases hx : p x with
    | true =>
      rw [hx] at hfind
      cases hfind
      rw [if_pos hid.symm, hnew]
    | false =>
      rw [hx] at hfind
      have hne : x.id ≠ r'.id := by
        intro heq
        rw [honly.1 (heq.trans hid), List.find?_some hfind] at hx
        cases hx
      rw [if_neg hne, hx]
      exact ih hfind honly.2

end Rows

/-- What a part of a run leaves, which reconciles the interfaces of some names: the rows that there
are, for all other names the same ones, and all links. -/
structure Kin (nb : NetBox py) (a : Args) (names : List String) (s s' : Store) : Prop where
  sound : nb.Sound s'
  keys : s.keys <+: s'.keys
  found : ∀ g : Guest, g.name ∉ names → a.found g s' = a.found g s
  addresses : s.addresses ⊆ s'.addresses

theorem Kin.refl (hs : nb.Sound s) (names : List String) : Kin nb a names s s :=
  ⟨hs, List.prefix_refl _, fun _ _ => rfl, List.Subset.refl _⟩

theorem Kin.trans {names names' : List String} {s'' : Store} (h : Kin nb a names s s')
    (h' : Kin nb a names' s' s'') : Kin nb a (names ++ names') s s'' := by
  refine ⟨h'.sound, h.keys.trans h'.keys, ?_, List.Subset.trans h.addresses h'.addresses⟩
  intro g hg
  rw [List.mem_append, not_or] at hg
  rw [h'.found g hg.2, h.found g hg.1]

theorem Grown.kin (h : Grown s s') (hs : nb.Sound s) : Kin nb a [] s s' := by
  refine ⟨⟨?_, ?_, ?_⟩, ?_, ?_, h.addresses⟩
  · rw [h.interfaces]
    exact hs.ids
  · intro r hr
    rw [h.interfaces] at hr
    exact lt_of_lt_of_le (hs.next r hr) h.next
  · intro r hr
    rw [h.interfaces] at hr
    exact hs.customFields r hr
  · have hkeys : s'.keys = s.keys := by rw [Store.keys, Store.keys, h.interfaces]
    exact hkeys ▸ List.prefix_refl s.keys
  · intro g _
    rw [Args.found, Args.found, h.interfaces]

/-- The tags of a row are those of the references. -/
def Args.Tagged (nb : NetBox py) (a : Args) (r : InterfaceRow) : Prop :=
  (a.tagRefs.map TagRef.json).mapM nb.findTag = some r.tags ∨ a.tagRefs = [] ∧ r.tags = []

theorem Args.Tagged.eq_nil (h : a.Tagged nb r) (hrefs : a.tagRefs = []) : r.tags = [] := by
  rcases h with h | h
  · rw [hrefs] at h
    exact (Option.some.inj h).symm
  · exact h.2

/-- The row that a turn leaves for its interface. -/
structure Fresh (nb : NetBox py) (a : Args) (g : Guest) (s : Store) (r : InterfaceRow) : Prop where
  found : a.found g s = some r
  agrees : g.Readable py → a.Agrees py g r
  tagged : g.Readable py → a.Tagged nb r

theorem isOf_of_ne {vm : ℤ} {name : String} (h : r.name ≠ name) : r.isOf vm name = false := by
  rw [InterfaceRow.isOf, decide_eq_false h, Bool.and_false]

theorem kin_addInterface (hs : nb.Sound s) (hid : r.id = s.next) (hname : r.name = g.name)
    (hfields : r.customFields = nb.customFields) : Kin nb a [g.name] s (s.addInterface r) := by
  refine ⟨⟨?_, ?_, ?_⟩, ?_, ?_, List.Subset.refl _⟩
  · show ((s.interfaces ++ [r]).map InterfaceRow.id).Nodup
    rw [List.map_append, List.nodup_append]
    refine ⟨hs.ids, List.nodup_singleton _, ?_⟩
    intro id hold id' hnew
    obtain ⟨x, hx, rfl⟩ := List.mem_map.mp hold
    rw [List.mem_singleton.mp hnew, hid]
    exact (hs.next x hx).ne
  · intro x hx
    show x.id < s.next + 1
    rcases List.mem_append.mp hx with hx | hx
    · have hlt := hs.next x hx
      omega
    · rw [List.mem_singleton.mp hx, hid]
      omega
  · intro x hx
    rcases List.mem_append.mp hx with hx | hx
    · exact hs.customFields x hx
    · rw [List.mem_singleton.mp hx, hfields]
  · rw [Store.keys, Store.keys]
    show _ <+: (s.interfaces ++ [r]).map InterfaceRow.key
    rw [List.map_append]
    exact List.prefix_append _ _
  · intro g' hg'
    rw [List.mem_singleton] at hg'
    show (s.interfaces ++ [r]).find? _ = s.interfaces.find? _
    rw [List.find?_append, List.find?_singleton, isOf_of_ne (by rw [hname]; exact Ne.symm hg')]
    exact Option.or_none

theorem kin_setInterface (hs : nb.Sound s) (hr : r ∈ s.interfaces) (hid : r'.id = r.id)
    (hvm : r'.virtualMachine = r.virtualMachine) (hname : r.name = g.name) (hname' : r'.name = g.name)
    (hfields : r'.customFields = r.customFields) : Kin nb a [g.name] s (s.setInterface r') := by
  have hkey : ∀ x ∈ s.interfaces, (if x.id = r'.id then r' else x).key = x.key := by
    intro x hx
    split
    · rename_i hxid
      rw [hs.eq_of_id hx hr (hxid.trans hid), InterfaceRow.key, InterfaceRow.key, hid, hvm, hname,
        hname']
    · rfl
  have hkeys : (s.setInterface r').keys = s.keys := by
    unfold Store.keys Store.setInterface
    rw [List.map_map]
    exact List.map_congr_left hkey
  have hids : (s.setInterface r').interfaces.map InterfaceRow.id = s.interfaces.map InterfaceRow.id := by
    have hfst := congrArg (List.map Prod.fst) hkeys
    rwa [Store.keys, Store.keys, List.map_map, List.map_map] at hfst
  refine ⟨⟨?_, ?_, ?_⟩, ?_, ?_, List.Subset.refl _⟩
  · rw [hids]
    exact hs.ids
  · intro x hx
    obtain ⟨y, hy, hyid⟩ := List.mem_map.mp (hids ▸ List.mem_map_of_mem hx)
    rw [← hyid]
    exact hs.next y hy
  · intro x hx
    obtain ⟨y, hy, rfl⟩ := List.mem_map.mp hx
    split
    · rw [hfields]
      exact hs.customFields r hr
    · exact hs.customFields y hy
  · exact hkeys ▸ List.prefix_refl s.keys
  · intro g' hg'
    rw [List.mem_singleton] at hg'
    apply find_set_of_not
    · intro x hx hxid
      rw [hs.eq_of_id hx hr (hxid.trans hid)]
      exact isOf_of_ne (by rw [hname]; exact Ne.symm hg')
    · exact isOf_of_ne (by rw [hname']; exact Ne.symm hg')

/-- What a turn leaves. -/
theorem Turned.kin {record : Option Record} (h : Turned nb a g s s' record) (hs : nb.Sound s) :
    Kin nb a [g.name] s s' := by
  cases h with
  | created r hfound happly =>
    have hmade := made_create happly
    exact kin_addInterface hs hmade.id hmade.name hmade.customFields
  | unread r hfound hreadable => exact .refl hs _
  | same r hfound hreadable hpatch => exact .refl hs _
  | changed r r' hfound hreadable hpatch happly =>
    obtain ⟨hr, hvm, hname⟩ := mem_of_found hfound
    have hmade := made_patch hvm hname happly
    exact kin_setInterface hs hr hmade.id (hmade.virtualMachine.trans hvm.symm) hname hmade.name
      hmade.customFields

theorem Turned.fresh {record : Option Record} (h : Turned nb a g s s' record) (hs : nb.Sound s) :
    ∃ r, Fresh nb a g s' r ∧ (g.Readable py → record = some (r.record nb)) ∧
      (record = none ∨ record = some (r.record nb)) := by
  cases h with
  | created r hfound happly =>
    have hmade := made_create happly
    refine ⟨r, ⟨?_, fun _ => hmade.agrees, fun _ => hmade.tags⟩, fun _ => rfl, .inr rfl⟩
    show (s.interfaces ++ [r]).find? _ = some r
    rw [List.find?_append, show s.interfaces.find? _ = none from hfound, Option.none_or,
      List.find?_singleton, if_pos (isOf_iff.mpr ⟨hmade.virtualMachine, hmade.name⟩)]
  | unread r hfound hreadable =>
    exact ⟨r, ⟨hfound, fun h => absurd h hreadable, fun h => absurd h hreadable⟩,
      fun h => absurd h hreadable, .inl rfl⟩
  | same r hfound hreadable hpatch =>
    obtain ⟨-, hvm, hname⟩ := mem_of_found hfound
    obtain ⟨hagrees, hrefs, htags, -⟩ := (patch_eq_nil_iff hvm hname).mp hpatch
    exact ⟨r, ⟨hfound, fun _ => hagrees, fun _ => .inr ⟨hrefs, htags⟩⟩, fun _ => rfl, .inr rfl⟩
  | changed r r' hfound hreadable hpatch happly =>
    obtain ⟨hr, hvm, hname⟩ := mem_of_found hfound
    have hmade := made_patch hvm hname happly
    refine ⟨r', ⟨?_, fun _ => hmade.agrees, fun _ => hmade.tags⟩, fun _ => rfl, .inr rfl⟩
    apply find_set hfound
    · intro x hx hid
      exact hs.eq_of_id hx hr hid
    · exact hmade.id
    · exact isOf_iff.mpr ⟨hmade.virtualMachine, hmade.name⟩


section Links

variable {guestId : ℤ} {ids : List ℤ}

theorem run_bind {α β : Type} (nb : NetBox py) (fault : ℕ → Fault) (p : Prog Request Reply α)
    (f : α → Prog Request Reply β) (s : Store) (n : ℕ) :
    nb.run fault (p.bind f) s n = nb.run fault (f (nb.run fault p s n).1) (nb.run fault p s n).2.1
      (nb.run fault p s n).2.2 :=
  Prog.run_bind p f (s, n)

theorem trace_bind {α β : Type} (nb : NetBox py) (fault : ℕ → Fault) (p : Prog Request Reply α)
    (f : α → Prog Request Reply β) (s : Store) (n : ℕ) :
    nb.trace fault (p.bind f) s n = nb.trace fault p s n ++
      nb.trace fault (f (nb.run fault p s n).1) (nb.run fault p s n).2.1 (nb.run fault p s n).2.2 :=
  Prog.traceFrom_bind p f (s, n)

theorem clean_append {log log' : List (Prog.Exchange Request Reply)} :
    Clean (log ++ log') ↔ Clean log ∧ Clean log' :=
  List.forall_mem_append

theorem quiet_append {log log' : List (Prog.Exchange Request Reply)} :
    Quiet (log ++ log') ↔ Quiet log ∧ Quiet log' :=
  List.forall_mem_append

theorem grown_linkAddresses (fault : ℕ → Fault) (n : ℕ) :
    Grown s (nb.run fault (linkAddresses py guestId ids) s n).2.1 := by
  induction ids generalizing s n with
  | nil => exact .refl s
  | cons ipId ids ih =>
    rw [linkAddresses, run_bind]
    exact (grown_linkAddress fault n).trans (ih _)

theorem clean_linkAddresses {n : ℕ}
    (hclean : Clean (nb.trace never (linkAddresses py guestId ids) s n)) :
    ∀ ipId ∈ ids, (nb.run never (linkAddresses py guestId ids) s n).2.1.Linked guestId ipId := by
  induction ids generalizing s n with
  | nil => exact fun _ h => absurd h List.not_mem_nil
  | cons ipId ids ih =>
    rw [linkAddresses, trace_bind, clean_append] at hclean
    rw [linkAddresses, run_bind, List.forall_mem_cons]
    exact ⟨(grown_linkAddresses never _).linked (clean_linkAddress hclean.1), ih hclean.2⟩

theorem quiet_linkAddresses (nb : NetBox py) (hlinked : ∀ ipId ∈ ids, s.Linked guestId ipId) (fault : ℕ → Fault)
    (n : ℕ) : Quiet (nb.trace fault (linkAddresses py guestId ids) s n) ∧
      (nb.run fault (linkAddresses py guestId ids) s n).2.1 = s := by
  induction ids generalizing n with
  | nil => exact ⟨fun _ h => absurd h List.not_mem_nil, rfl⟩
  | cons ipId ids ih =>
    rw [List.forall_mem_cons] at hlinked
    obtain ⟨hquiet, hstore⟩ := quiet_linkAddress nb hlinked.1 fault n
    rw [linkAddresses, trace_bind, run_bind, quiet_append, hstore]
    obtain ⟨hrest, hstore'⟩ := ih hlinked.2 (nb.run fault (linkAddress py guestId ipId) s n).2.2
    exact ⟨⟨hquiet, hrest⟩, hstore'⟩

/-- The row of an interface is linked to all its addresses, which are read without an exception. -/
def Args.Links (py : Python) (parse : String → Option Host) (a : Args) (g : Guest) (r : InterfaceRow)
    (s : Store) : Prop :=
  ∀ coreId, a.coreInterfaceId py g = some coreId →
    ∃ ids, a.addressIds py parse g coreId = some ids ∧ ∀ ipId ∈ ids, s.Linked r.id ipId

theorem link_record (nb : NetBox py) (parse : String → Option Host) (a : Args) (g : Guest)
    (r : InterfaceRow) : a.link py parse g (r.record nb) =
      match a.coreInterfaceId py g with
      | none => .ret (some ())
      | some coreId => match a.addressIds py parse g coreId with
        | none => .ret none
        | some ids => (linkAddresses py r.id ids).bind fun _ => .ret (some ()) := by
  have hid : relationId py (.obj (r.record nb)) = some (some r.id) := rfl
  unfold Args.link
  rw [hid]
  cases a.coreInterfaceId py g with
  | none => rfl
  | some coreId => rfl

theorem grown_link (record : Record) (fault : ℕ → Fault) (n : ℕ) :
    Grown s (nb.run fault (a.link py parse g record) s n).2.1 := by
  unfold Args.link
  split
  · exact .refl s
  · split
    · exact .refl s
    · rw [run_bind]
      exact grown_linkAddresses fault n
  · exact .refl s

theorem clean_link {n : ℕ} (hclean : Clean (nb.trace never (a.link py parse g (r.record nb)) s n))
    (hreturns : (nb.run never (a.link py parse g (r.record nb)) s n).1 ≠ none) :
    a.Links py parse g r (nb.run never (a.link py parse g (r.record nb)) s n).2.1 := by
  rw [link_record] at hclean hreturns ⊢
  intro coreId hcore
  rw [hcore] at hclean hreturns ⊢
  dsimp only at hclean hreturns ⊢
  cases hids : a.addressIds py parse g coreId with
  | none =>
    rw [hids] at hreturns
    exact absurd rfl hreturns
  | some ids =>
    rw [hids] at hclean
    dsimp only at hclean ⊢
    rw [trace_bind, clean_append] at hclean
    rw [run_bind]
    exact ⟨ids, rfl, clean_linkAddresses hclean.1⟩

theorem quiet_link (nb : NetBox py) (hlinks : a.Links py parse g r s) (fault : ℕ → Fault) (n : ℕ) :
    Quiet (nb.trace fault (a.link py parse g (r.record nb)) s n) ∧
      (nb.run fault (a.link py parse g (r.record nb)) s n).1 = some () ∧
      (nb.run fault (a.link py parse g (r.record nb)) s n).2.1 = s := by
  rw [link_record]
  cases hcore : a.coreInterfaceId py g with
  | none => exact ⟨fun _ h => absurd h List.not_mem_nil, rfl, rfl⟩
  | some coreId =>
    obtain ⟨ids, hids, hlinked⟩ := hlinks coreId hcore
    dsimp only
    rw [hids]
    dsimp only
    rw [trace_bind, run_bind, quiet_append]
    obtain ⟨hquiet, hstore⟩ := quiet_linkAddresses nb hlinked fault n
    exact ⟨⟨hquiet, fun _ h => absurd h List.not_mem_nil⟩, rfl, hstore⟩

end Links


/-- An interface has its row and its links. -/
def Converged (parse : String → Option Host) (nb : NetBox py) (a : Args) (g : Guest) (s : Store) :
    Prop :=
  ∃ r, Fresh nb a g s r ∧ (g.Readable py → a.Links py parse g r s)

theorem Args.Links.mono (h : a.Links py parse g r s) (haddresses : s.addresses ⊆ s'.addresses) :
    a.Links py parse g r s' := by
  intro coreId hcore
  obtain ⟨ids, hids, hlinked⟩ := h coreId hcore
  refine ⟨ids, hids, ?_⟩
  intro ipId hip
  obtain ⟨l, hl, hof⟩ := hlinked ipId hip
  exact ⟨l, haddresses hl, hof⟩

theorem Fresh.kin {names : List String} (h : Fresh nb a g s r) (hkin : Kin nb a names s s')
    (hname : g.name ∉ names) : Fresh nb a g s' r :=
  ⟨(hkin.found g hname).trans h.found, h.agrees, h.tagged⟩

theorem Converged.kin {names : List String} (h : Converged parse nb a g s)
    (hkin : Kin nb a names s s') (hname : g.name ∉ names) : Converged parse nb a g s' := by
  obtain ⟨r, hfresh, hlinks⟩ := h
  exact ⟨r, hfresh.kin hkin hname, fun hreadable => (hlinks hreadable).mono hkin.addresses⟩

/-- How the loop goes on from a turn. -/
def Args.after (py : Python) (parse : String → Option Host) (a : Args) (g : Guest)
    (records : List Record) (rest : List Guest) :
    Option Record → Prog Request Reply (Option (List Record))
  | none | some [] => a.loop py parse records rest
  | some record => (a.link py parse g record).bind fun
    | none => .ret none
    | some () => a.loop py parse (records ++ [record]) rest

theorem loop_cons (records : List Record) (rest : List Guest) :
    a.loop py parse records (g :: rest) =
      (a.reconcile py g).bind (a.after py parse g records rest) := by
  rw [Args.loop]
  congr 1

/-- A turn with its links, where no request fails. -/
theorem clean_turn {rest : List Guest} {records : List Record} {n : ℕ} (hs : nb.Sound s)
    (hclean : Clean (nb.trace never (a.loop py parse records (g :: rest)) s n))
    (hreturns : (nb.run never (a.loop py parse records (g :: rest)) s n).1 ≠ none) :
    ∃ records' s' n', Kin nb a [g.name] s s' ∧ Converged parse nb a g s' ∧
      nb.run never (a.loop py parse records (g :: rest)) s n =
        nb.run never (a.loop py parse records' rest) s' n' ∧
      Clean (nb.trace never (a.loop py parse records' rest) s' n') := by
  rw [loop_cons] at hclean hreturns ⊢
  rw [trace_bind, clean_append] at hclean
  rw [run_bind] at hreturns ⊢
  obtain ⟨hfirst, hclean⟩ := hclean
  have hturned := clean_reconcile hs.ids hfirst
  -- the store and the record after the reconciliation
  generalize (nb.run never (a.reconcile py g) s n).1 = record at hturned hclean hreturns ⊢
  generalize (nb.run never (a.reconcile py g) s n).2.1 = s₁ at hturned hclean hreturns ⊢
  generalize (nb.run never (a.reconcile py g) s n).2.2 = n₁ at hclean hreturns ⊢
  have hkin := hturned.kin hs
  obtain ⟨r, hfresh, hrecord, hcases⟩ := hturned.fresh hs
  rcases hcases with rfl | rfl
  · refine ⟨records, s₁, n₁, hkin, ⟨r, hfresh, ?_⟩, rfl, hclean⟩
    intro hreadable
    cases hrecord hreadable
  · have hafter : a.after py parse g records rest (some (r.record nb)) =
        (a.link py parse g (r.record nb)).bind fun
          | none => .ret none
          | some () => a.loop py parse (records ++ [r.record nb]) rest := rfl
    rw [hafter] at hclean hreturns ⊢
    rw [trace_bind, clean_append] at hclean
    rw [run_bind] at hreturns ⊢
    obtain ⟨hlink, hclean⟩ := hclean
    have hgrown : Grown s₁ (nb.run never (a.link py parse g (r.record nb)) s₁ n₁).2.1 :=
      grown_link _ never n₁
    have hlinks := clean_link hlink
    have hkin' : Kin nb a [] s₁ (nb.run never (a.link py parse g (r.record nb)) s₁ n₁).2.1 :=
      hgrown.kin hkin.sound
    cases hresult : (nb.run never (a.link py parse g (r.record nb)) s₁ n₁).1 with
    | none =>
      rw [hresult] at hreturns
      exact absurd rfl hreturns
    | some u =>
      rw [hresult] at hclean
      refine ⟨records ++ [r.record nb], _, _, hkin.trans hkin', ?_, rfl, hclean⟩
      refine ⟨r, hfresh.kin hkin' List.not_mem_nil, fun _ => hlinks ?_⟩
      rw [hresult]
      exact Option.some_ne_none u

/-- A whole run, where no request fails. -/
theorem clean_loop {gs : List Guest} {records : List Record} {n : ℕ} (hs : nb.Sound s)
    (hnames : (gs.map Guest.name).Nodup)
    (hclean : Clean (nb.trace never (a.loop py parse records gs) s n))
    (hreturns : (nb.run never (a.loop py parse records gs) s n).1 ≠ none) :
    Kin nb a (gs.map Guest.name) s (nb.run never (a.loop py parse records gs) s n).2.1 ∧
      ∀ g ∈ gs, Converged parse nb a g (nb.run never (a.loop py parse records gs) s n).2.1 := by
  induction gs generalizing records s n with
  | nil => exact ⟨.refl hs _, fun _ h => absurd h List.not_mem_nil⟩
  | cons g gs ih =>
    rw [List.map_cons, List.nodup_cons] at hnames
    obtain ⟨records', s', n', hkin, hconverged, hrun, hclean'⟩ := clean_turn hs hclean hreturns
    rw [hrun] at hreturns ⊢
    obtain ⟨hkin', hall⟩ := ih hkin.sound hnames.2 hclean' hreturns
    rw [List.map_cons, List.forall_mem_cons]
    exact ⟨hkin.trans hkin', hconverged.kin hkin' hnames.1, hall⟩

/-- A converged interface with nothing to patch is left alone, whatever fails. -/
theorem quiet_loop {gs : List Guest} (h : ∀ g ∈ gs, ∃ r, a.found g s = some r ∧
      (g.Readable py → a.patch nb g r = [] ∧ a.Links py parse g r s))
    (records : List Record) (fault : ℕ → Fault) (n : ℕ) :
    Quiet (nb.trace fault (a.loop py parse records gs) s n) := by
  induction gs generalizing records n with
  | nil => exact fun _ h => absurd h List.not_mem_nil
  | cons g gs ih =>
    rw [List.forall_mem_cons] at h
    obtain ⟨⟨r, hfound, hpatch⟩, hrest⟩ := h
    obtain ⟨hquiet, hstore, hrecord⟩ :=
      quiet_reconcile nb hfound (fun hreadable => (hpatch hreadable).1) fault n
    rw [loop_cons, trace_bind, quiet_append, hstore]
    refine ⟨hquiet, ?_⟩
    rcases hrecord with hnone | ⟨hreadable, hsome⟩
    · rw [hnone]
      exact ih hrest records _
    · rw [hsome]
      show Quiet (nb.trace fault ((a.link py parse g (r.record nb)).bind fun
        | none => .ret none
        | some () => a.loop py parse (records ++ [r.record nb]) gs) s _)
      rw [trace_bind, quiet_append]
      obtain ⟨hlink, hresult, hstore'⟩ := quiet_link nb (hpatch hreadable).2 fault
        (nb.run fault (a.reconcile py g) s n).2.2
      refine ⟨hlink, ?_⟩
      rw [hstore', hresult]
      exact ih hrest _ _


/-- A run that writes nothing, from a store that has the rows and the links, has nothing to patch. -/
theorem patch_of_quiet {gs : List Guest} {records : List Record} {n : ℕ}
    (h : ∀ g ∈ gs, ∃ r, a.found g s = some r ∧ (g.Readable py → a.Links py parse g r s))
    (hquiet : Quiet (nb.trace never (a.loop py parse records gs) s n)) :
    ∀ g ∈ gs, g.Readable py → ∀ r, a.found g s = some r → a.patch nb g r = [] := by
  induction gs generalizing records n with
  | nil => exact fun _ h => absurd h List.not_mem_nil
  | cons g gs ih =>
    rw [List.forall_mem_cons] at h ⊢
    obtain ⟨⟨r, hfound, hlinks⟩, hrest⟩ := h
    rw [loop_cons, trace_bind, quiet_append] at hquiet
    obtain ⟨hfirst, hquiet⟩ := hquiet
    have hpatch : g.Readable py → a.patch nb g r = [] := by
      intro hreadable
      by_contra hne
      exact writes_reconcile hfound hreadable hne n hfirst
    obtain ⟨-, hstore, hrecord⟩ := quiet_reconcile nb hfound hpatch never n
    refine ⟨?_, ?_⟩
    · intro hreadable r' hr'
      rw [hfound] at hr'
      cases hr'
      exact hpatch hreadable
    · rw [hstore] at hquiet
      rcases hrecord with hnone | ⟨hreadable, hsome⟩
      · rw [hnone] at hquiet
        exact ih hrest hquiet
      · rw [hsome] at hquiet
        replace hquiet : Quiet (nb.trace never ((a.link py parse g (r.record nb)).bind fun
            | none => .ret none
            | some () => a.loop py parse (records ++ [r.record nb]) gs) s _) := hquiet
        rw [trace_bind, quiet_append] at hquiet
        obtain ⟨-, hresult, hstore'⟩ := quiet_link nb (hlinks hreadable) never
          (nb.run never (a.reconcile py g) s n).2.2
        rw [hresult, hstore'] at hquiet
        exact ih hrest hquiet.2

/-- No row has lost a tag that was not written by the sync, nor a value of a custom field. -/
def Kept (written : ℤ → ℤ → Bool) (s s' : Store) : Prop :=
  ∀ r ∈ s.interfaces, ∃ r' ∈ s'.interfaces, r'.id = r.id ∧
    (∀ tag ∈ r.tags, written r.id tag = false → tag ∈ r'.tags) ∧
    ∀ name v, Dict.get name r.customFields = some v → Dict.get name r'.customFields = some v

/-- What a run has kept of the rows from which it started. -/
structure Kept.Run (nb : NetBox py) (written : ℤ → ℤ → Bool) (s s' : Store) : Prop where
  sound : nb.Sound s'
  keys : s.keys <+: s'.keys
  kept : Kept written s s'

/-- The lookup finds the same row in a store with more rows. -/
theorem found_id_of_keys (hkeys : s.keys <+: s'.keys) (hfound : a.found g s = some r)
    (hfound' : a.found g s' = some r') : r'.id = r.id := by
  let p : ℤ × ℤ × String → Bool := fun key => key.2.1 = a.vmId && key.2.2 = g.name
  have hfind : ∀ s : Store, s.keys.find? p = (a.found g s).map InterfaceRow.key := by
    intro s
    rw [Store.keys, List.find?_map]
    rfl
  obtain ⟨rest, hrest⟩ := hkeys
  have heq := hfind s'
  rw [← hrest, List.find?_append, hfind s, hfound, hfound'] at heq
  exact (congrArg Prod.fst (Option.some.inj heq)).symm

/-- A row that is found and was there before was found before. -/
theorem found_of_keys (hs : nb.Sound s') (hkeys : s.keys <+: s'.keys)
    (hfound : a.found g s' = some r') (hr : r ∈ s.interfaces) (hid : r.id = r'.id) :
    a.found g s ≠ none := by
  intro hnone
  obtain ⟨hr', hvm, hname⟩ := mem_of_found hfound
  have hmem : r.key ∈ s'.keys := hkeys.subset (List.mem_map_of_mem hr)
  obtain ⟨x, hx, hkey⟩ := List.mem_map.mp hmem
  have hxr : x = r' := hs.eq_of_id hx hr' ((congrArg Prod.fst hkey).trans hid)
  rw [hxr] at hkey
  have hof : r.isOf a.vmId g.name = true :=
    isOf_iff.mpr ⟨(congrArg (fun k => k.2.1) hkey).symm.trans hvm,
      (congrArg (fun k => k.2.2) hkey).symm.trans hname⟩
  exact List.find?_eq_none.mp hnone r hr hof


/-- An interface whose row, if it is read, has nothing to lose: no tags are written, no custom field
is defined, and what its row is tagged with was written by the sync. -/
def Harmless (nb : NetBox py) (written : ℤ → ℤ → Bool) (a : Args) (s : Store) (g : Guest) : Prop :=
  g.Readable py → a.tagRefs = [] ∧ nb.customFields = [] ∧
    ∀ r, a.found g s = some r → ∀ tag ∈ r.tags, written r.id tag = true

variable {written : ℤ → ℤ → Bool} {s₀ : Store}

theorem Kept.Run.of_rows (h : Kept.Run nb written s₀ s) (hkin : Kin nb a [g.name] s s')
    (hrows : s.interfaces ⊆ s'.interfaces) : Kept.Run nb written s₀ s' := by
  refine ⟨hkin.sound, h.keys.trans hkin.keys, ?_⟩
  intro r hr
  obtain ⟨x, hx, hkept⟩ := h.kept r hr
  exact ⟨x, hrows hx, hkept⟩

/-- A turn keeps what there was, if its interface has nothing to lose. -/
theorem Turned.kept {record : Option Record} (h : Turned nb a g s s' record) (hs₀ : nb.Sound s₀)
    (hrun : Kept.Run nb written s₀ s) (hharmless : Harmless nb written a s₀ g) :
    Kept.Run nb written s₀ s' := by
  have hkin := h.kin hrun.sound
  cases h with
  | created r hfound happly => exact hrun.of_rows hkin (List.subset_append_left _ _)
  | unread r hfound hreadable => exact hrun
  | same r hfound hreadable hpatch => exact hrun
  | changed r r' hfound hreadable hpatch happly =>
    obtain ⟨hr, hvm, hname⟩ := mem_of_found hfound
    have hmade := made_patch hvm hname happly
    obtain ⟨hrefs, -, hwritten⟩ := hharmless hreadable
    refine ⟨hkin.sound, hrun.keys.trans hkin.keys, ?_⟩
    intro r₀ hr₀
    obtain ⟨x, hx, hid, htags, hfields⟩ := hrun.kept r₀ hr₀
    by_cases hxr : x.id = r.id
    · have hxeq : x = r := hrun.sound.eq_of_id hx hr hxr
      refine ⟨r', List.mem_map.mpr ⟨r, hr, if_pos hmade.id.symm⟩, ?_, ?_, ?_⟩
      · rw [hmade.id, ← hxr, hid]
      · -- all tags of the row were written by the sync
        intro tag htag hfalse
        have hsome := found_of_keys hrun.sound hrun.keys hfound hr₀ (hid.symm.trans hxr)
        obtain ⟨y, hy⟩ := Option.ne_none_iff_exists'.mp hsome
        have hyid : y.id = r₀.id :=
          (found_id_of_keys hrun.keys hy hfound).symm.trans (hxr.symm.trans hid)
        have hyeq : y = r₀ := hs₀.eq_of_id (mem_of_found hy).1 hr₀ hyid
        rw [hyeq] at hy
        rw [hwritten r₀ hy tag htag] at hfalse
        cases hfalse
      · rw [hmade.customFields, ← hxeq]
        exact hfields
    · refine ⟨x, List.mem_map.mpr ⟨x, hx, if_neg ?_⟩, hid, htags, hfields⟩
      rw [hmade.id]
      exact hxr

theorem Grown.kept (h : Grown s s') (hrun : Kept.Run nb written s₀ s) :
    Kept.Run nb written s₀ s' := by
  have hkin : Kin nb ⟨0, [], [], [], [], .null⟩ [] s s' := h.kin hrun.sound
  refine ⟨hkin.sound, hrun.keys.trans hkin.keys, ?_⟩
  intro r hr
  rw [h.interfaces]
  exact hrun.kept r hr

/-- A run keeps what there was, whatever fails, if its interfaces have nothing to lose. -/
theorem kept_loop {gs : List Guest} (hs₀ : nb.Sound s₀) (hrun : Kept.Run nb written s₀ s)
    (hharmless : ∀ g ∈ gs, Harmless nb written a s₀ g) (records : List Record) (fault : ℕ → Fault)
    (n : ℕ) : Kept.Run nb written s₀ (nb.run fault (a.loop py parse records gs) s n).2.1 := by
  induction gs generalizing records s n with
  | nil => exact hrun
  | cons g gs ih =>
    rw [List.forall_mem_cons] at hharmless
    rw [loop_cons, run_bind]
    have hturn : Kept.Run nb written s₀ (nb.run fault (a.reconcile py g) s n).2.1 := by
      rcases run_reconcile fault hrun.sound.ids n with h | ⟨record, h⟩
      · rw [h]
        exact hrun
      · exact h.kept hs₀ hrun hharmless.1
    generalize (nb.run fault (a.reconcile py g) s n).2.1 = s₁ at hturn ⊢
    generalize (nb.run fault (a.reconcile py g) s n).2.2 = n₁
    cases (nb.run fault (a.reconcile py g) s n).1 with
    | none => exact ih hturn hharmless.2 records n₁
    | some record =>
      cases record with
      | nil => exact ih hturn hharmless.2 records n₁
      | cons kv fields =>
        show Kept.Run nb written s₀ (nb.run fault ((a.link py parse g (kv :: fields)).bind fun
          | none => .ret none
          | some () => a.loop py parse (records ++ [kv :: fields]) gs) s₁ n₁).2.1
        rw [run_bind]
        have hlink : Kept.Run nb written s₀
            (nb.run fault (a.link py parse g (kv :: fields)) s₁ n₁).2.1 :=
          (grown_link (kv :: fields) fault n₁).kept hturn
        cases (nb.run fault (a.link py parse g (kv :: fields)) s₁ n₁).1 with
        | none => exact hlink
        | some u => exact ih hlink hharmless.2 _ _

/-- After a run without failures, the next one writes nothing, and no run takes a tag or a value of
a custom field that the sync has not written, exactly if each interface has nothing to lose. -/
theorem guestRows_converge_iff (hs : nb.Sound s) (hnames : ((a.guests py).map Guest.name).Nodup)
    (hclean : Clean (nb.trace never (reconcileGuestVmInterfaces py parse a) s 0))
    (hreturns : (nb.run never (reconcileGuestVmInterfaces py parse a) s 0).1 ≠ none) :
    ((∀ fault, Quiet (nb.trace fault (reconcileGuestVmInterfaces py parse a)
        (nb.run never (reconcileGuestVmInterfaces py parse a) s 0).2.1 0)) ∧
      ∀ fault, Kept written s (nb.run fault (reconcileGuestVmInterfaces py parse a) s 0).2.1) ↔
    ∀ g ∈ a.guests py, Harmless nb written a s g := by
  unfold reconcileGuestVmInterfaces at hclean hreturns ⊢
  obtain ⟨hkin, hconverged⟩ := clean_loop hs hnames hclean hreturns
  constructor
  · rintro ⟨hquiet, hkept⟩ g hg hreadable
    have hrows : ∀ g ∈ a.guests py, ∃ r,
        a.found g (nb.run never (a.loop py parse [] (a.guests py)) s 0).2.1 = some r ∧
          (g.Readable py → a.Links py parse g r
            (nb.run never (a.loop py parse [] (a.guests py)) s 0).2.1) := by
      intro g hg
      obtain ⟨r, hfresh, hlinks⟩ := hconverged g hg
      exact ⟨r, hfresh.found, hlinks⟩
    obtain ⟨r, hfresh, -⟩ := hconverged g hg
    obtain ⟨hr, hvm, hname⟩ := mem_of_found hfresh.found
    have hpatch := patch_of_quiet hrows (hquiet never) g hg hreadable r hfresh.found
    obtain ⟨-, hrefs, htags, hfields⟩ := (patch_eq_nil_iff hvm hname).mp hpatch
    refine ⟨hrefs, ?_, ?_⟩
    · have hkeys := hkin.sound.customFields r hr
      rw [hfields] at hkeys
      exact List.map_eq_nil_iff.mp hkeys.symm
    · intro r₀ hr₀ tag htag
      obtain ⟨r', hr', hid, hkeptTags, -⟩ := hkept never r₀ (mem_of_found hr₀).1
      have hrid : r'.id = r.id := hid.trans (found_id_of_keys hkin.keys hr₀ hfresh.found).symm
      rw [hkin.sound.eq_of_id hr' hr hrid, htags] at hkeptTags
      by_contra hfalse
      exact absurd (hkeptTags tag htag (Bool.eq_false_iff.mpr hfalse)) List.not_mem_nil
  · intro hharmless
    refine ⟨?_, ?_⟩
    · intro fault
      apply quiet_loop
      intro g hg
      obtain ⟨r, hfresh, hlinks⟩ := hconverged g hg
      refine ⟨r, hfresh.found, fun hreadable => ⟨?_, hlinks hreadable⟩⟩
      obtain ⟨hr, hvm, hname⟩ := mem_of_found hfresh.found
      obtain ⟨hrefs, hdefined, -⟩ := hharmless g hg hreadable
      refine (patch_eq_nil_iff hvm hname).mpr
        ⟨hfresh.agrees hreadable, hrefs, (hfresh.tagged hreadable).eq_nil hrefs, ?_⟩
      have hkeys := hkin.sound.customFields r hr
      rw [hdefined] at hkeys
      exact List.map_eq_nil_iff.mp hkeys
    · intro fault
      have hstart : Kept.Run nb written s s := by
        refine ⟨hs, List.prefix_refl _, ?_⟩
        intro r hr
        exact ⟨r, hr, rfl, fun _ h _ => h, fun _ _ h => h⟩
      exact (kept_loop hs hstart hharmless [] fault 0).kept

instance decidableFailed (q : Request) (reply : Reply q) : Decidable (Failed q reply) :=
  match q, reply with
  | .first .., .error () | .create .., .error () | .patch .., .error () => isTrue rfl
  | .first .., .ok _ | .create .., .ok _ | .patch .., .ok _ => isFalse nofun

instance (log : List (Prog.Exchange Request Reply)) : Decidable (Clean log) :=
  inferInstanceAs (Decidable (∀ x ∈ log, ¬ Failed x.1 x.2))

instance (log : List (Prog.Exchange Request Reply)) : Decidable (Quiet log) :=
  inferInstanceAs (Decidable (∀ x ∈ log, x.1.isWrite = false))

/-- A NetBox whose only tag of the sync is 1, and which defines no custom field for the rows. -/
def labNetBox : NetBox Python.ascii where
  extra kind _ := [("display", .str kind)]
  findTag _ := some 1
  customFields := []
  accepts _ _ := true
  macText := id
  macText_eq _ := rfl

/-- Interface `eth0` of VM 55. -/
def labArgs (tagRefs : List TagRef) : Args where
  vmId := 55
  guestInterfaces := [.obj [("name", .str "eth0"), ("mac_address", .str "aa:bb:cc:dd:ee:ff")]]
  coreInterfaceIdByMac := []
  ipIdsByInterfaceId := []
  tagRefs
  strategy := .null

/-- Its row, with a tag of the operator. -/
def labStore : Store where
  interfaces := [⟨901, 55, none, "eth0", some "aa:bb:cc:dd:ee:ff", true, none, [9], []⟩]
  addresses := []
  next := 902

/-- A sync that writes no tags, with the address of `eth0`. -/
def linkedArgs : Args where
  vmId := 55
  guestInterfaces := [.obj [("name", .str "eth0"), ("mac_address", .str "aa:bb:cc:dd:ee:ff"),
    ("ip_addresses", .arr [.obj [("ip_address", .str "10.0.0.5"), ("prefix", .int 24)]])]]
  coreInterfaceIdByMac := [("aa:bb:cc:dd:ee:ff", 700)]
  ipIdsByInterfaceId := [(700, [("10.0.0.5/24", 33)])]
  tagRefs := []
  strategy := .null

def labHost (text : String) : Option Host :=
  if text = "10.0.0.5" then some ⟨false, false, text⟩ else none

/-- The row of `eth0`, with the tag of the sync. -/
def taggedStore : Store where
  interfaces := [⟨901, 55, none, "eth0", some "aa:bb:cc:dd:ee:ff", true, none, [1], []⟩]
  addresses := []
  next := 902

/-- The sync takes its own tag from the row, links the address, and then writes nothing. -/
theorem guestRows_converge_untagged :
    (labNetBox.run never (reconcileGuestVmInterfaces Python.ascii labHost linkedArgs)
      taggedStore 0).2.1.addresses ≠ [] ∧
    (∀ fault, Quiet (labNetBox.trace fault
      (reconcileGuestVmInterfaces Python.ascii labHost linkedArgs)
      (labNetBox.run never (reconcileGuestVmInterfaces Python.ascii labHost linkedArgs)
        taggedStore 0).2.1 0)) ∧
    ∀ fault, Kept (fun _ tag => tag = 1) taggedStore (labNetBox.run fault
      (reconcileGuestVmInterfaces Python.ascii labHost linkedArgs) taggedStore 0).2.1 := by
  have hsound : labNetBox.Sound taggedStore := ⟨by decide, by decide, by decide⟩
  refine ⟨by decide +kernel, (guestRows_converge_iff hsound (by decide +kernel)
    (by decide +kernel) (Option.isSome_iff_ne_none.mp (by decide +kernel))).mpr ?_⟩
  intro g _ _
  refine ⟨rfl, rfl, ?_⟩
  intro r hr tag htag
  obtain rfl := List.mem_singleton.mp (List.mem_of_find?_eq_some hr)
  simpa using htag

/-- The tag of the operator is replaced by that of the sync, and the next run patches the row
again. -/
theorem guest_tag_lost :
    Clean (labNetBox.trace never (reconcileGuestVmInterfaces Python.ascii (fun _ => none)
      (labArgs [⟨"Proxbox", "proxbox", .str "ff5722"⟩])) labStore 0) ∧
    ¬ Quiet (labNetBox.trace never (reconcileGuestVmInterfaces Python.ascii (fun _ => none)
      (labArgs [⟨"Proxbox", "proxbox", .str "ff5722"⟩]))
      (labNetBox.run never (reconcileGuestVmInterfaces Python.ascii (fun _ => none)
        (labArgs [⟨"Proxbox", "proxbox", .str "ff5722"⟩])) labStore 0).2.1 0) ∧
    ¬ Kept (fun _ _ => false) labStore (labNetBox.run never
      (reconcileGuestVmInterfaces Python.ascii (fun _ => none)
        (labArgs [⟨"Proxbox", "proxbox", .str "ff5722"⟩])) labStore 0).2.1 := by
  refine ⟨by decide +kernel, by decide +kernel, ?_⟩
  intro hkept
  obtain ⟨r, hr, -, htags, -⟩ := hkept _ List.mem_cons_self
  have htag : (9 : ℤ) ∈ r.tags := htags 9 List.mem_cons_self rfl
  have hrows : ∀ r ∈ (labNetBox.run never (reconcileGuestVmInterfaces Python.ascii (fun _ => none)
      (labArgs [⟨"Proxbox", "proxbox", .str "ff5722"⟩])) labStore 0).2.1.interfaces,
      r.tags = [1] := by
    decide +kernel
  rw [hrows r hr] at htag
  exact absurd htag (by decide)

end ProxboxApi.GuestRows
