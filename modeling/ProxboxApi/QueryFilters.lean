import Mathlib.Data.List.Sort
import Mathlib.Data.String.Basic
import ProxboxApi.Pagination

/-! The parameters of a query as a server reads them: the values of a filter, the offset, and the
queries that the traversal takes to have the same filters. -/

namespace ProxboxApi.Pagination

variable (c : Client)

/-- The texts that a value of a query is sent as. -/
def sentValues : Json → List String
  | .arr values => values.map c.py.str
  | value => [c.py.str value]

/-- The texts that a parameter of a query is sent as. -/
def sent (q : Query) (name : String) : List String :=
  match Dict.get name q with
  | none => []
  | some value => sentValues c value

/-- The offset that a server reads off a query. -/
def sentOffset (q : Query) : Option ℕ :=
  match Dict.get "offset" q with
  | none => some 0
  | some value => match sentValues c value with
    | [text] => if Text.isDigits text.toList then some (Python.digitsValue text.toList) else none
    | _ => none

/-- The values of a parameter of a link. -/
def valuesOf (name : String) (parameters : List (String × String)) : List String :=
  (parameters.filter (·.1 = name)).map Prod.snd

def IsFilter (name : String) : Prop := name ≠ "limit" ∧ name ≠ "offset"

def SameFilters (q q' : Query) : Prop :=
  ∀ name, IsFilter name → (sent c q name).Perm (sent c q' name)

/-- A dictionary whose filters have values. -/
structure Filled (q : Query) : Prop where
  nodup : (Dict.keys q).Nodup
  values : ∀ kv ∈ q, IsFilter kv.1 → sentValues c kv.2 ≠ []

section Multimap

variable {c : Client}

/-- The filters of a query before they are sorted by name. -/
def filterItems (c : Client) (q : Query) : List (String × List String) :=
  (q.filter fun kv => !(kv.1 = "limit" || kv.1 = "offset")).map fun kv =>
    (kv.1, (sentValues c kv.2).insertionSort (· ≤ ·))

theorem queryMultimap_eq_insertionSort (q : Query) :
    queryMultimap c q = (filterItems c q).insertionSort fun a b => a.1 ≤ b.1 := by
  unfold queryMultimap filterItems
  dsimp only
  congr 1
  apply List.map_congr_left
  intro kv _
  cases kv.2 <;> rfl

theorem mem_filterItems {q : Query} (hq : Filled c q) {kv : String × List String} :
    kv ∈ filterItems c q ↔ IsFilter kv.1 ∧ sent c q kv.1 ≠ [] ∧
      kv.2 = (sent c q kv.1).insertionSort (· ≤ ·) := by
  unfold filterItems IsFilter
  rw [List.mem_map]
  constructor
  · intro ⟨item, hitem, heq⟩
    obtain ⟨hmem, hname⟩ := List.mem_filter.mp hitem
    have hfilter : IsFilter item.1 := by simpa [IsFilter] using hname
    have hsent : sent c q item.1 = sentValues c item.2 := by
      rw [sent, Dict.get_of_mem hq.nodup hmem]
    subst heq
    exact ⟨hfilter, hsent ▸ hq.values item hmem hfilter, by rw [hsent]⟩
  · intro ⟨hname, hne, hvalues⟩
    unfold sent at hne hvalues
    cases hget : Dict.get kv.1 q with
    | none => simp [hget] at hne
    | some value =>
      rw [hget] at hvalues
      refine ⟨(kv.1, value), ?_, Prod.ext rfl hvalues.symm⟩
      exact List.mem_filter.mpr ⟨Dict.mem_of_get hget, by simpa using hname⟩

theorem nodup_filterItems {q : Query} (hq : Filled c q) : (filterItems c q).Nodup := by
  have hkeys : ((filterItems c q).map Prod.fst).Nodup := by
    have hsub : ((filterItems c q).map Prod.fst).Sublist (Dict.keys q) := by
      unfold filterItems Dict.keys
      rw [List.map_map]
      exact List.filter_sublist.map _
    exact hq.nodup.sublist hsub
  exact hkeys.of_map _

/-- Queries with the same filters have the same canonical form. -/
theorem queryMultimap_eq {q q' : Query} (hq : Filled c q) (hq' : Filled c q')
    (h : SameFilters c q q') : queryMultimap c q = queryMultimap c q' := by
  have hsort : ∀ name, IsFilter name →
      (sent c q name).insertionSort (· ≤ ·) = (sent c q' name).insertionSort (· ≤ ·) := by
    intro name hname
    have hperm := ((List.perm_insertionSort (· ≤ ·) (sent c q name)).trans (h name hname)).trans
      (List.perm_insertionSort (· ≤ ·) (sent c q' name)).symm
    exact hperm.eq_of_pairwise' (List.pairwise_insertionSort _ _) (List.pairwise_insertionSort _ _)
  have hperm : (filterItems c q).Perm (filterItems c q') := by
    rw [List.perm_ext_iff_of_nodup (nodup_filterItems hq) (nodup_filterItems hq')]
    intro kv
    rw [mem_filterItems hq, mem_filterItems hq']
    refine and_congr_right fun hname => ?_
    have hnil : sent c q kv.1 = [] ↔ sent c q' kv.1 = [] := by
      rw [← List.length_eq_zero_iff, (h kv.1 hname).length_eq, List.length_eq_zero_iff]
    rw [hsort kv.1 hname, ne_eq, ne_eq, not_congr hnil]
  -- a name determines its values, so names that sort alike are one item
  have hname : ∀ a ∈ filterItems c q, ∀ b ∈ filterItems c q, a.1 = b.1 → a = b := by
    intro a ha b hb hab
    rw [mem_filterItems hq] at ha hb
    exact Prod.ext hab (by rw [ha.2.2, hb.2.2, hab])
  have : Std.Total fun a b : String × List String => a.1 ≤ b.1 := ⟨fun a b => le_total a.1 b.1⟩
  have : IsTrans (String × List String) fun a b => a.1 ≤ b.1 := ⟨fun _ _ _ => le_trans⟩
  rw [queryMultimap_eq_insertionSort, queryMultimap_eq_insertionSort]
  refine List.Perm.eq_of_pairwise ?_ (List.pairwise_insertionSort _ _)
    (List.pairwise_insertionSort _ _)
    (((List.perm_insertionSort _ _).trans hperm).trans (List.perm_insertionSort _ _).symm)
  intro a b ha hb hab hba
  apply hname a ((List.mem_insertionSort _).mp ha) b
  · exact hperm.mem_iff.mpr ((List.mem_insertionSort _).mp hb)
  · exact le_antisymm hab hba

end Multimap

section Links

/-- The value that the parameters of a link give a name. -/
def linkValue : List String → Option Json
  | [] => none
  | [s] => some (.str s)
  | values => some (.arr (values.map .str))

theorem valuesOf_append (name : String) (parameters : List (String × String))
    (kv : String × String) : valuesOf name (parameters ++ [kv]) =
      valuesOf name parameters ++ if kv.1 = name then [kv.2] else [] := by
  by_cases h : kv.1 = name <;> simp [valuesOf, h]

theorem get_addParameter {q : Query} {kv : String × String} {name : String} :
    Dict.get name (addParameter q kv) = if kv.1 = name then
      match Dict.get name q with
      | none => some (.str kv.2)
      | some (.arr values) => some (.arr (values ++ [.str kv.2]))
      | some value => some (.arr [value, .str kv.2])
    else Dict.get name q := by
  unfold addParameter
  split <;> rw [Dict.get_set] <;> by_cases h : kv.1 = name <;> simp_all

theorem get_foldl_addParameter (parameters : List (String × String)) (name : String) :
    Dict.get name (parameters.foldl addParameter []) = linkValue (valuesOf name parameters) := by
  induction parameters using List.reverseRecOn with
  | nil => rfl
  | append_singleton parameters kv ih =>
    rw [List.foldl_append, List.foldl_cons, List.foldl_nil, get_addParameter, ih, valuesOf_append]
    by_cases h : kv.1 = name
    · rw [if_pos h, if_pos h]
      rcases valuesOf name parameters with _ | ⟨s, _ | ⟨t, values⟩⟩ <;> simp [linkValue]
    · rw [if_neg h, if_neg h, List.append_nil]

theorem sentValues_linkValue {values : List String} {value : Json}
    (h : linkValue values = some value) : sentValues c value = values := by
  rcases values with _ | ⟨s, _ | ⟨t, values⟩⟩
  · simp [linkValue] at h
  · obtain rfl : Json.str s = value := by simpa [linkValue] using h
    rfl
  · obtain rfl : Json.arr ((s :: t :: values).map .str) = value := by
      simpa [linkValue] using h
    simp [sentValues, Python.str, Function.comp_def]

theorem sent_link (parameters : List (String × String)) (name : String) :
    sent c (parameters.foldl addParameter []) name = valuesOf name parameters := by
  unfold sent
  rw [get_foldl_addParameter]
  cases h : linkValue (valuesOf name parameters) with
  | none =>
    rcases hvalues : valuesOf name parameters with _ | ⟨s, _ | ⟨t, values⟩⟩
    · rfl
    all_goals simp [hvalues, linkValue] at h
  | some value => exact sentValues_linkValue c h

theorem filled_link (parameters : List (String × String)) :
    Filled c (parameters.foldl addParameter []) := by
  have hnodup : (Dict.keys (parameters.foldl addParameter [])).Nodup := by
    induction parameters using List.reverseRecOn with
    | nil => exact List.nodup_nil
    | append_singleton parameters kv ih =>
      rw [List.foldl_append, List.foldl_cons, List.foldl_nil, addParameter]
      split <;> exact Dict.nodup_keys_set ih
  refine ⟨hnodup, ?_⟩
  intro kv hkv _ hnil
  have hget := Dict.get_of_mem hnodup hkv
  rw [get_foldl_addParameter] at hget
  rw [sentValues_linkValue c hget] at hnil
  rw [hnil] at hget
  simp [linkValue] at hget

/-- The offset of a link is read back, provided Python reads a number of its length. -/
theorem validatedOffset_link (path label : String) {parameters : List (String × String)} {n : ℕ}
    (hoffset : valuesOf "offset" parameters = [toString n])
    (hlength : (toString n).length ≤ 4300) :
    validatedOffset path (parameters.foldl addParameter []) true label = .ok n := by
  obtain ⟨hdigits, hvalue⟩ := Python.digits_toString n
  have hget := get_foldl_addParameter parameters "offset"
  rw [hoffset] at hget
  have hparse : paginationOffset (parameters.foldl addParameter []) = .ok (some n) := by
    unfold paginationOffset
    rw [hget]
    simp only [linkValue, hdigits, if_true, parseDigits, hlength, hvalue]
    rfl
  unfold validatedOffset
  rw [hget, hparse]
  rfl

end Links

section Offsets

theorem digits_toString_int {n : ℤ} (h : 0 ≤ n) :
    Text.isDigits (toString n).toList = true ∧
      Python.digitsValue (toString n).toList = n.toNat := by
  obtain ⟨m, rfl⟩ := Int.eq_ofNat_of_zero_le h
  exact Python.digits_toString m

theorem paginationOffset_single {q : Query} {value : Json}
    (hget : Dict.get "offset" q = some value ∧ (∀ values, value ≠ .arr values) ∨
      Dict.get "offset" q = some (.arr [value])) :
    paginationOffset q = match some value with
      | some (.int n) => .ok (if 0 ≤ n then some n.toNat else none)
      | some (.str s) => if Text.isDigits s.toList then do
          let n ← parseDigits s
          .ok (some n)
        else .ok none
      | _ => .ok none := by
  unfold paginationOffset
  rcases hget with ⟨hget, hvalue⟩ | hget
  · rw [hget]
    cases value with
    | arr values => exact absurd rfl (hvalue values)
    | _ => rfl
  · exact hget ▸ rfl

/-- What a server reads off the one value of the offset that the traversal takes. -/
theorem sentOffset_of_single {q : Query} {value : Json} {n : ℕ}
    (hget : Dict.get "offset" q = some value ∧ (∀ values, value ≠ .arr values) ∨
      Dict.get "offset" q = some (.arr [value]))
    (h : paginationOffset q = .ok (some n)) :
    Text.isDigits (c.py.str value).toList = true ∧
      Python.digitsValue (c.py.str value).toList = n := by
  have hread := (paginationOffset_single hget).symm.trans h
  cases value with
  | int i =>
    by_cases hi : 0 ≤ i
    · obtain rfl : i.toNat = n := by simpa [hi] using hread
      exact digits_toString_int hi
    · simp [hi] at hread
  | str s =>
    by_cases hs : Text.isDigits s.toList = true
    · by_cases hlength : s.length ≤ 4300
      · have hvalue : Python.digitsValue s.toList = n := by
          simpa [hs, parseDigits, hlength, bind, Except.bind] using hread
        exact ⟨hs, hvalue⟩
      · simp [hs, parseDigits, hlength, bind, Except.bind] at hread
    · simp [hs] at hread
  | _ => simp at hread

/-- The offset that the traversal takes from a query is the one a server reads. -/
theorem sentOffset_of_validated {path label : String} {q : Query} {required : Bool} {n : ℕ}
    (h : validatedOffset path q required label = .ok n) : sentOffset c q = some n := by
  unfold validatedOffset at h
  unfold sentOffset
  cases hget : Dict.get "offset" q with
  | none =>
    rw [hget] at h
    cases required with
    | true => simp at h
    | false => exact congrArg some (Except.ok.inj h)
  | some value =>
    rw [hget] at h
    dsimp only at h ⊢
    have hparse : paginationOffset q = .ok (some n) := by
      rcases hp : paginationOffset q with e | _ | m
      · simp [hp, bind, Except.bind] at h
      · simp [hp, bind, Except.bind] at h
      · obtain rfl : m = n := by simpa [hp, bind, Except.bind] using h
        rfl
    cases value with
    | arr values =>
      rcases values with _ | ⟨single, _ | ⟨second, values⟩⟩
      · simp [paginationOffset, hget] at hparse
      · obtain ⟨hdigits, hvalue⟩ := sentOffset_of_single c (.inr hget) hparse
        simp only [sentValues, List.map_cons, List.map_nil]
        rw [if_pos hdigits, hvalue]
      · simp [paginationOffset, hget] at hparse
    | _ =>
      obtain ⟨hdigits, hvalue⟩ := sentOffset_of_single c (.inl ⟨hget, by simp⟩) hparse
      simp only [sentValues]
      rw [if_pos hdigits, hvalue]

end Offsets

end ProxboxApi.Pagination
