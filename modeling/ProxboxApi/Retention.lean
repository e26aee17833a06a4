import Mathlib.Data.List.Forall2
import ProxboxApi.Text
import ProxboxApi.VmidHelpers

/-! The retention of a backup job, which Proxmox hands over as a mapping or as a string. -/

namespace ProxboxApi.BackupRoutines

open VmQueue (field)

inductive Period where
  | last
  | daily
  | weekly
  | monthly
  | yearly
  deriving DecidableEq, Repr

def Period.key : Period → String
  | .last => "keep-last"
  | .daily => "keep-daily"
  | .weekly => "keep-weekly"
  | .monthly => "keep-monthly"
  | .yearly => "keep-yearly"

def periods : List Period := [.last, .daily, .weekly, .monthly, .yearly]

/-- The fields of the result; `None` is `none`. -/
structure Retention where
  counts : Period → Option ℤ
  keepAll : Option Bool

def Retention.empty : Retention := ⟨fun _ => none, none⟩

def Retention.set (r : Retention) (period : Period) (count : Option ℤ) : Retention :=
  { r with counts := Function.update r.counts period count }

variable (py : Python)

/-- `int(value) if str(value).isdigit() else None`; the outer `none` is a `ValueError`. -/
def countOf (value : Json) : Option (Option ℤ) :=
  if py.isDigit (py.str value) then (py.int value).map some else some none

/-- One field of a mapping. -/
def readField (raw : Json.Fields) (r : Retention) (period : Period) : Option Retention :=
  match field period.key raw with
  | .null => some r
  | value => (countOf py value).map (r.set period)

def parseMapping (raw : Json.Fields) : Option Retention :=
  (periods.foldlM (readField py raw) .empty).map fun r =>
    if (Dict.get "keep-all" raw).isSome then { r with keepAll := some true } else r

/-- One part of a string. -/
def readPart (r : Retention) (part : List Char) : Option Retention :=
  let part := Text.stripChars Text.isSpace part
  if '=' ∈ part then
    let key := py.lower (Text.strip (String.ofList (part.takeWhile (· ≠ '='))))
    let value := Text.strip (String.ofList ((part.dropWhile (· ≠ '=')).drop 1))
    match periods.find? (·.key = key) with
    | some period => (countOf py (.str value)).map (r.set period)
    | none => some r
  else if py.lower (String.ofList part) = "keep-all" then some { r with keepAll := some true }
  else some r

def parseString (raw : String) : Option Retention :=
  (raw.toList.splitOn ',').foldlM (readPart py) .empty

/-- `_parse_retention`; `none` is an exception. -/
def parseRetention (job : Json.Fields) : Option Retention :=
  let raw := if Python.truthy (field "prune-backups" job) then field "prune-backups" job
    else field "prune_backups" job
  if Python.truthy raw then
    match raw with
    | .obj fields => parseMapping py fields
    | .str text => parseString py text
    | _ => none
  else some .empty

inductive RetentionKey where
  | count (period : Period)
  | all
  deriving DecidableEq, Repr

def RetentionKey.text : RetentionKey → String
  | .count period => period.key
  | .all => "keep-all"

/-- A retention setting: the texts of its values. -/
abbrev Setting := List (RetentionKey × String)

/-- The text can stand between the commas of a string, and has nothing to strip. -/
structure Plain (text : String) : Prop where
  stripped : Text.strip text = text
  comma : ',' ∉ text.toList

/-- A mapping of the setting: each value is its text, or the integer with this text. -/
def MappingForm (setting : Setting) (fields : Json.Fields) : Prop :=
  ∃ entries : Setting, entries.Perm setting ∧ List.Forall₂ (fun entry kv => kv.1 = entry.1.text ∧
    (kv.2 = .str entry.2 ∨ ∃ n : ℤ, kv.2 = .int n ∧ toString n = entry.2)) entries fields

/-- `key=value`, with spacing around both. -/
def PartForm (entry : RetentionKey × String) (part : List Char) : Prop :=
  ∃ a b c d : List Char, (∀ ch ∈ a ++ b ++ c ++ d, Text.isSpace ch = true) ∧
    part = a ++ ((entry.1.text.toList ++ b) ++ '=' :: (c ++ (entry.2.toList ++ d)))

/-- A comma-separated string of the setting. -/
def StringForm (setting : Setting) (text : String) : Prop :=
  ∃ (entries : Setting) (parts : List (List Char)), entries.Perm setting ∧
    List.Forall₂ PartForm entries parts ∧ text.toList = [','].intercalate parts

/-- The job carries the value under one of its two keys. -/
def Carries (job : Json.Fields) (raw : Json) : Prop :=
  (field "prune-backups" job = raw ∧ field "prune_backups" job = .null) ∨
    (field "prune-backups" job = .null ∧ field "prune_backups" job = raw)

/-- The setting is read to one result from both forms, which sets `keep_all` exactly when the
setting enables it. -/
def Faithful (enabled : String → Bool) (setting : Setting) : Prop :=
  ∀ job job' fields text, MappingForm setting fields → StringForm setting text →
    Carries job (.obj fields) → Carries job' (.str text) →
    ∃ r, parseRetention py job = some r ∧ parseRetention py job' = some r ∧
      (r.keepAll = some true ↔ ∃ value, (RetentionKey.all, value) ∈ setting ∧ enabled value = true)

/-- Every count of the setting is read. -/
def Readable (setting : Setting) : Prop :=
  ∀ period text, (RetentionKey.count period, text) ∈ setting → countOf py (.str text) ≠ none

/-- What the counts of a setting are read to. -/
def Setting.retention (setting : Setting) (keepAll : Option Bool) : Retention where
  counts period := (Dict.get (.count period) setting).bind fun text =>
    (countOf py (.str text)).join
  keepAll := keepAll

variable {py}

section Parsing

variable {α : Type} {items : List α} {r r' : Retention}

/-- A loop whose items set distinct counts sets them all. -/
theorem foldlM_set {assign : α → Option (Option (Period × Option ℤ))}
    {f : Retention → α → Option Retention}
    (hf : ∀ r a, f r a = (assign a).map fun o => o.elim r fun pc => r.set pc.1 pc.2)
    (hdistinct : items.Pairwise fun a b => ∀ p v w, assign a = some (some (p, v)) →
      assign b ≠ some (some (p, w))) (h : items.foldlM f r = some r') :
    (∀ a ∈ items, assign a ≠ none) ∧ r'.keepAll = r.keepAll ∧
      (∀ a ∈ items, ∀ p v, assign a = some (some (p, v)) → r'.counts p = v) ∧
      ∀ p, (∀ a ∈ items, ∀ v, assign a ≠ some (some (p, v))) → r'.counts p = r.counts p := by
  induction items generalizing r with
  | nil =>
    obtain rfl : r = r' := by simpa using h
    simp
  | cons a items ih =>
    obtain ⟨hfirst, hrest⟩ := List.pairwise_cons.mp hdistinct
    rw [List.foldlM_cons, hf] at h
    obtain ⟨mid, hmid, h⟩ := Option.bind_eq_some_iff.mp h
    obtain ⟨o, ho, rfl⟩ := Option.map_eq_some_iff.mp hmid
    obtain ⟨hread, hkeep, hset, hother⟩ := ih hrest h
    refine ⟨?_, ?_, ?_, ?_⟩
    · exact List.forall_mem_cons.mpr ⟨by simp [ho], hread⟩
    · rw [hkeep]
      cases o <;> rfl
    · refine List.forall_mem_cons.mpr ⟨?_, hset⟩
      intro p v hp
      obtain rfl : o = some (p, v) := Option.some.inj (ho.symm.trans hp)
      rw [hother p fun b hb w => hfirst b hb p v w hp]
      simp [Retention.set]
    · intro p hp
      obtain ⟨hhead, htail⟩ := List.forall_mem_cons.mp hp
      rw [hother p htail]
      cases o with
      | none => rfl
      | some pc =>
        have hne : pc.1 ≠ p := by
          rintro rfl
          exact hhead pc.2 ho
        simp [Retention.set, Function.update_of_ne (Ne.symm hne)]

theorem foldlM_isSome_of_read {assign : α → Option (Option (Period × Option ℤ))}
    {f : Retention → α → Option Retention}
    (hf : ∀ r a, f r a = (assign a).map fun o => o.elim r fun pc => r.set pc.1 pc.2)
    (h : ∀ a ∈ items, assign a ≠ none) : (items.foldlM f r).isSome = true := by
  induction items generalizing r with
  | nil => rfl
  | cons a items ih =>
    obtain ⟨hhead, htail⟩ := List.forall_mem_cons.mp h
    obtain ⟨o, ho⟩ := Option.ne_none_iff_exists'.mp hhead
    rw [List.foldlM_cons, hf, ho]
    exact ih htail

end Parsing

section Mapping

variable {setting entries : Setting} {fields : Json.Fields}

theorem Period.key_injective : Function.Injective Period.key := by
  intro p q h
  cases p <;> cases q <;> first | rfl | exact absurd h (by decide)

theorem Period.key_ne_all (period : Period) : period.key ≠ "keep-all" := by
  cases period <;> decide

theorem RetentionKey.text_injective : Function.Injective RetentionKey.text := by
  intro key key' h
  cases key with
  | all =>
    cases key' with
    | all => rfl
    | count period' => exact absurd h.symm period'.key_ne_all
  | count period =>
    cases key' with
    | all => exact absurd h period.key_ne_all
    | count period' => rw [Period.key_injective h]

theorem countOf_eq (hint : ∀ n : ℤ, py.parseInt (toString n) = some n) {value : Json}
    {text : String} (h : value = .str text ∨ ∃ n : ℤ, value = .int n ∧ toString n = text) :
    countOf py value = countOf py (.str text) := by
  rcases h with rfl | ⟨n, rfl, rfl⟩
  · rfl
  · unfold countOf
    simp only [Python.str, Python.int]
    rw [hint]
    rfl

/-- A mapping of the setting has the texts of its values, by key. -/
theorem field_mappingForm (h : List.Forall₂ (fun entry kv => kv.1 = entry.1.text ∧
      (kv.2 = .str entry.2 ∨ ∃ n : ℤ, kv.2 = .int n ∧ toString n = entry.2)) entries fields)
    (key : RetentionKey) : match Dict.get key entries with
      | none => Dict.get key.text fields = none
      | some text => ∃ value, Dict.get key.text fields = some value ∧
        (value = .str text ∨ ∃ n : ℤ, value = .int n ∧ toString n = text) := by
  induction h with
  | nil => rfl
  | @cons entry kv entries fields hentry hrest ih =>
    obtain ⟨entryKey, text⟩ := entry
    obtain ⟨name, value⟩ := kv
    obtain ⟨rfl, hvalue⟩ := hentry
    by_cases hkey : entryKey = key
    · subst hkey
      simpa [Dict.get] using hvalue
    · have hname : entryKey.text ≠ key.text := fun heq => hkey (RetentionKey.text_injective heq)
      simpa [Dict.get, hkey, hname] using ih

/-- What one period of a setting sets. -/
def assignPeriod (py : Python) (setting : Setting) (period : Period) :
    Option (Option (Period × Option ℤ)) :=
  match Dict.get (.count period) setting with
  | none => some none
  | some text => (countOf py (.str text)).map fun count => some (period, count)

theorem readField_eq (hint : ∀ n : ℤ, py.parseInt (toString n) = some n)
    (h : List.Forall₂ (fun entry kv => kv.1 = entry.1.text ∧
      (kv.2 = .str entry.2 ∨ ∃ n : ℤ, kv.2 = .int n ∧ toString n = entry.2)) entries fields)
    (r : Retention) (period : Period) : readField py fields r period =
      (assignPeriod py entries period).map fun o => o.elim r fun pc => r.set pc.1 pc.2 := by
  have hfield := field_mappingForm h (.count period)
  unfold readField assignPeriod field
  cases hget : Dict.get (RetentionKey.count period) entries with
  | none =>
    rw [hget] at hfield
    have hfield : Dict.get period.key fields = none := hfield
    rw [hfield]
    rfl
  | some text =>
    rw [hget] at hfield
    obtain ⟨value, hvalue, hform⟩ := hfield
    have hvalue : Dict.get period.key fields = some value := hvalue
    have hcount := countOf_eq hint hform
    rw [hvalue, Option.getD_some, Option.map_map, ← hcount]
    rcases hform with rfl | ⟨n, rfl, -⟩ <;> rfl

theorem assignPeriod_period {a p : Period} {v : Option ℤ}
    (h : assignPeriod py setting a = some (some (p, v))) : a = p := by
  unfold assignPeriod at h
  split at h
  · simp at h
  · obtain ⟨count, -, heq⟩ := Option.map_eq_some_iff.mp h
    exact congrArg Prod.fst (Option.some.inj heq)

theorem readable_iff (hnodup : (Dict.keys setting).Nodup) : Readable py setting ↔
    ∀ period, assignPeriod py setting period ≠ none := by
  unfold assignPeriod
  constructor
  · intro h period
    cases hget : Dict.get (RetentionKey.count period) setting with
    | none => simp
    | some text => simpa using h period text (Dict.mem_of_get hget)
  · intro h period text hmem
    have hperiod := h period
    rw [Dict.get_of_mem hnodup hmem] at hperiod
    simpa using hperiod

/-- A loop that sets what the setting says of each period reads the setting. -/
theorem counts_eq {r : Retention} (hset : ∀ p v, assignPeriod py setting p = some (some (p, v)) →
      r.counts p = v) (hother : ∀ p, (∀ v, assignPeriod py setting p ≠ some (some (p, v))) →
      r.counts p = none) : r.counts = (setting.retention py none).counts := by
  funext p
  unfold Setting.retention
  dsimp only
  cases hget : Dict.get (RetentionKey.count p) setting with
  | none =>
    apply hother
    intro v
    simp [assignPeriod, hget]
  | some text =>
    rw [Option.bind_some]
    cases hcount : countOf py (.str text) with
    | none =>
      apply hother
      intro v
      simp [assignPeriod, hget, hcount]
    | some count =>
      apply hset
      simp [assignPeriod, hget, hcount]

theorem assignPeriod_perm (hnodup : (Dict.keys entries).Nodup) (h : entries.Perm setting) :
    assignPeriod py entries = assignPeriod py setting := by
  funext period
  unfold assignPeriod
  rw [Dict.get_perm hnodup h]

/-- What a mapping of the setting is read to. -/
theorem parseMapping_eq (hint : ∀ n : ℤ, py.parseInt (toString n) = some n)
    (hnodup : (Dict.keys setting).Nodup) (h : MappingForm setting fields) :
    (Readable py setting → parseMapping py fields = some (setting.retention py
      (if RetentionKey.all ∈ Dict.keys setting then some true else none))) ∧
      (parseMapping py fields ≠ none → Readable py setting) := by
  obtain ⟨entries, hperm, hform⟩ := h
  have hkeys : (Dict.keys entries).Perm (Dict.keys setting) := hperm.map Prod.fst
  have hentries : (Dict.keys entries).Nodup := hkeys.nodup_iff.mpr hnodup
  have hread : ∀ r period, readField py fields r period =
      (assignPeriod py setting period).map fun o => o.elim r fun pc => r.set pc.1 pc.2 := by
    intro r period
    rw [readField_eq hint hform, assignPeriod_perm hentries hperm]
  have hall : (Dict.get "keep-all" fields).isSome = true ↔
      RetentionKey.all ∈ Dict.keys setting := by
    have hfield := field_mappingForm hform .all
    rw [← hkeys.mem_iff, Dict.mem_keys_iff]
    cases hget : Dict.get RetentionKey.all entries with
    | none =>
      rw [hget] at hfield
      have hfield : Dict.get "keep-all" fields = none := hfield
      simp [hfield]
    | some text =>
      rw [hget] at hfield
      obtain ⟨value, hvalue, -⟩ := hfield
      have hvalue : Dict.get "keep-all" fields = some value := hvalue
      simp [hvalue]
  have hdistinct : periods.Pairwise fun a b => ∀ p v w,
      assignPeriod py setting a = some (some (p, v)) →
        assignPeriod py setting b ≠ some (some (p, w)) := by
    have hne : periods.Pairwise (· ≠ ·) := by decide
    refine hne.imp ?_
    intro a b hab p v w ha hb
    exact hab ((assignPeriod_period ha).trans (assignPeriod_period hb).symm)
  have hmem : ∀ period, period ∈ periods := by
    intro period
    cases period <;> decide
  rw [readable_iff hnodup]
  constructor
  · intro hreadable
    have hsome := foldlM_isSome_of_read (r := .empty) hread fun a (_ : a ∈ periods) => hreadable a
    obtain ⟨r, hr⟩ := Option.isSome_iff_exists.mp hsome
    obtain ⟨-, hkeep, hset, hother⟩ := foldlM_set hread hdistinct hr
    have hcounts : r.counts = (setting.retention py none).counts := by
      apply counts_eq
      · exact fun p v hp => hset p (hmem p) p v hp
      · intro p hp
        apply hother
        intro a _ v ha
        obtain rfl := assignPeriod_period ha
        exact hp v ha
    unfold parseMapping Setting.retention at *
    rw [hr, Option.map_some]
    obtain ⟨counts, keepAll⟩ := r
    obtain rfl : keepAll = none := hkeep
    obtain rfl := hcounts
    by_cases hkey : RetentionKey.all ∈ Dict.keys setting
    · rw [if_pos (hall.mpr hkey), if_pos hkey]
    · rw [if_neg fun h => hkey (hall.mp h), if_neg hkey]
  · intro hsome
    obtain ⟨r, hr⟩ := Option.ne_none_iff_exists'.mp hsome
    obtain ⟨r', hr', -⟩ := Option.map_eq_some_iff.mp hr
    exact fun period => (foldlM_set hread hdistinct hr').1 period (hmem period)

end Mapping

section String

variable {setting entries : Setting} {parts : List (List Char)}

/-- What one entry of a setting sets. -/
def assignEntry (py : Python) (entry : RetentionKey × String) :
    Option (Option (Period × Option ℤ)) :=
  match entry.1 with
  | .count period => (countOf py (.str entry.2)).map fun count => some (period, count)
  | .all => some none

/-- The text of a key: small letters and a hyphen. -/
theorem RetentionKey.text_chars (key : RetentionKey) : ∀ c ∈ key.text.toList,
    Text.isSpace c = false ∧ c ≠ '=' ∧ c ≠ ',' ∧ c.toNat < 128 ∧ c.toLower = c := by
  have hall : key.text.toList.all (fun c => Text.isSpace c = false ∧ c ≠ '=' ∧ c ≠ ',' ∧
      c.toNat < 128 ∧ c.toLower = c) = true := by
    rcases key with (_ | _ | _ | _ | _) | _ <;> decide
  intro c hc
  exact of_decide_eq_true (List.all_eq_true.mp hall c hc)

theorem RetentionKey.lower_text (key : RetentionKey) : py.lower key.text = key.text := by
  rw [py.lower_ascii key.text fun c hc => (key.text_chars c hc).2.2.2.1]
  have hsame : key.text.toList.map Char.toLower = key.text.toList := by
    rw [List.map_congr_left fun c hc => (key.text_chars c hc).2.2.2.2, List.map_id']
  rw [hsame, String.ofList_toList]

theorem strip_padded_key (key : RetentionKey) {pad : List Char}
    (hpad : ∀ c ∈ pad, Text.isSpace c = true) :
    Text.strip (String.ofList (key.text.toList ++ pad)) = key.text := by
  have hstrip : Text.stripChars Text.isSpace ([] ++ (key.text.toList ++ pad)) =
      Text.stripChars Text.isSpace key.text.toList :=
    Text.stripChars_pad (by simp) hpad
  unfold Text.strip
  rw [String.toList_ofList, ← List.nil_append (key.text.toList ++ pad), hstrip,
    Text.stripChars_of_forall fun c hc => (key.text_chars c hc).1, String.ofList_toList]

/-- A part of a string sets what its entry says. -/
theorem readPart_eq {entry : RetentionKey × String} {part : List Char}
    (hplain : Plain entry.2) (h : PartForm entry part) (r : Retention) :
    readPart py r part = (assignEntry py entry).map fun o => o.elim r fun pc => r.set pc.1 pc.2 := by
  obtain ⟨a, b, c, d, hpad, rfl⟩ := h
  obtain ⟨key, text⟩ := entry
  simp only [List.forall_mem_append] at hpad
  obtain ⟨⟨⟨ha, hb⟩, hc⟩, hd⟩ := hpad
  have hstripped : Text.stripChars Text.isSpace
      (a ++ ((key.text.toList ++ b) ++ '=' :: (c ++ (text.toList ++ d)))) =
      (key.text.toList ++ b) ++ '=' :: (c ++ (text.toList ++ d)).rdropWhile Text.isSpace := by
    have hstart : ∃ rest, key.text.toList = 'k' :: rest := by
      rcases key with (_ | _ | _ | _ | _) | _ <;> exact ⟨_, rfl⟩
    obtain ⟨rest, hrest⟩ := hstart
    change List.rdropWhile _ (List.dropWhile _ _) = _
    rw [Text.dropWhile_append_of_forall ha, hrest, List.cons_append, List.cons_append,
      Text.dropWhile_of_head (by decide), ← List.cons_append, ← List.cons_append,
      Text.rdropWhile_append_cons (by decide)]
  have hkey : ∀ ch ∈ key.text.toList ++ b, decide (ch ≠ '=') = true := by
    intro ch hch
    rcases List.mem_append.mp hch with hch | hch
    · simpa using (key.text_chars ch hch).2.1
    · rw [decide_eq_true_eq]
      rintro rfl
      exact absurd (hb _ hch) (by decide)
  have hvalue : Text.strip (String.ofList ((c ++ (text.toList ++ d)).rdropWhile Text.isSpace)) =
      text := by
    unfold Text.strip
    rw [String.toList_ofList, Text.stripChars_rdropWhile, Text.stripChars_pad hc hd]
    exact hplain.stripped
  unfold readPart
  dsimp only
  rw [hstripped, if_pos (by simp), List.takeWhile_append_of_pos hkey,
    List.dropWhile_append_of_pos hkey, List.takeWhile_cons_of_neg (by simp),
    List.dropWhile_cons_of_neg (by simp), List.drop_one, List.tail_cons, List.append_nil, hvalue,
    strip_padded_key key hb, key.lower_text]
  cases key with
  | count period =>
    have hfind : periods.find? (·.key = (RetentionKey.count period).text) = some period := by
      cases period <;> decide
    rw [hfind]
    dsimp only [assignEntry]
    rw [Option.map_map]
    rfl
  | all =>
    have hfind : periods.find? (·.key = RetentionKey.all.text) = none := by decide
    rw [hfind]
    rfl

theorem foldlM_parts (hplain : ∀ entry ∈ entries, Plain entry.2)
    (h : List.Forall₂ PartForm entries parts) (r : Retention) :
    parts.foldlM (readPart py) r = entries.foldlM (fun r entry => (assignEntry py entry).map
      fun o => o.elim r fun pc => r.set pc.1 pc.2) r := by
  induction h generalizing r with
  | nil => rfl
  | cons hpart hrest ih =>
    obtain ⟨hhead, htail⟩ := List.forall_mem_cons.mp hplain
    rw [List.foldlM_cons, List.foldlM_cons, readPart_eq hhead hpart]
    congr 1
    funext r'
    exact ih htail r'

theorem PartForm.not_comma {entry : RetentionKey × String} {part : List Char}
    (hplain : Plain entry.2) (h : PartForm entry part) : ',' ∉ part := by
  obtain ⟨a, b, c, d, hpad, rfl⟩ := h
  simp only [List.forall_mem_append] at hpad
  obtain ⟨⟨⟨ha, hb⟩, hc⟩, hd⟩ := hpad
  have hspace : ∀ pad : List Char, (∀ ch ∈ pad, Text.isSpace ch = true) → ',' ∉ pad :=
    fun pad h hmem => absurd (h _ hmem) (by decide)
  have hkey : ',' ∉ entry.1.text.toList := fun hmem => (entry.1.text_chars _ hmem).2.2.1 rfl
  simp only [List.mem_append, List.mem_cons, not_or]
  exact ⟨hspace a ha, ⟨hkey, hspace b hb⟩, by decide, hspace c hc, hplain.comma, hspace d hd⟩

/-- The parts of a string are found by its commas. -/
theorem parseString_parts (hplain : ∀ entry ∈ entries, Plain entry.2) {text : String}
    (hparts : List.Forall₂ PartForm entries parts) (htext : text.toList = [','].intercalate parts) :
    parseString py text = parts.foldlM (readPart py) .empty := by
  unfold parseString
  rw [htext]
  cases hparts with
  | nil =>
    have hlower : py.lower "" = "" := py.lower_ascii "" (by simp)
    have hempty : readPart py .empty [] = some .empty := by
      simp [readPart, Text.stripChars, hlower]
    simp [List.intercalate, hempty]
  | cons hpart hrest =>
    rw [List.splitOn_intercalate]
    · have hnot : ∀ {entries : Setting} {parts : List (List Char)},
          List.Forall₂ PartForm entries parts → (∀ entry ∈ entries, Plain entry.2) →
          ∀ part ∈ parts, ',' ∉ part := by
        intro entries parts h
        induction h with
        | nil => simp
        | cons hhead htail ih =>
          intro hplain
          obtain ⟨hfirst, hothers⟩ := List.forall_mem_cons.mp hplain
          exact List.forall_mem_cons.mpr ⟨hhead.not_comma hfirst, ih hothers⟩
      exact hnot (.cons hpart hrest) hplain
    · simp

theorem assignEntry_eq_some_iff {entry : RetentionKey × String} {p : Period} {v : Option ℤ} :
    assignEntry py entry = some (some (p, v)) ↔
      entry.1 = .count p ∧ countOf py (.str entry.2) = some v := by
  obtain ⟨key, text⟩ := entry
  cases key with
  | count period =>
    simp only [assignEntry, Option.map_eq_some_iff, Option.some.injEq, Prod.mk.injEq,
      RetentionKey.count.injEq]
    constructor
    · rintro ⟨count, hcount, rfl, rfl⟩
      exact ⟨rfl, hcount⟩
    · rintro ⟨rfl, hcount⟩
      exact ⟨v, hcount, rfl, rfl⟩
  | all => simp [assignEntry]

theorem readable_iff_entries (hperm : entries.Perm setting) : Readable py setting ↔
    ∀ entry ∈ entries, assignEntry py entry ≠ none := by
  constructor
  · rintro h ⟨key, text⟩ hmem
    cases key with
    | count period => simpa [assignEntry] using h period text (hperm.mem_iff.mp hmem)
    | all => simp [assignEntry]
  · intro h period text hmem
    simpa [assignEntry] using h _ (hperm.mem_iff.mpr hmem)

/-- What a string of the setting is read to. -/
theorem parseString_eq (hnodup : (Dict.keys setting).Nodup)
    (hplain : ∀ entry ∈ setting, Plain entry.2) {text : String} (h : StringForm setting text) :
    (Readable py setting → parseString py text = some (setting.retention py none)) ∧
      (parseString py text ≠ none → Readable py setting) := by
  obtain ⟨entries, parts, hperm, hparts, htext⟩ := h
  have hentries : (Dict.keys entries).Nodup := (hperm.map Prod.fst).nodup_iff.mpr hnodup
  have hplain' : ∀ entry ∈ entries, Plain entry.2 :=
    fun entry hentry => hplain entry (hperm.mem_iff.mp hentry)
  rw [parseString_parts hplain' hparts htext, foldlM_parts hplain' hparts,
    readable_iff_entries hperm]
  have hdistinct : entries.Pairwise fun a b => ∀ p v w,
      assignEntry py a = some (some (p, v)) → assignEntry py b ≠ some (some (p, w)) := by
    have hkeys : entries.Pairwise fun a b => a.1 ≠ b.1 := List.pairwise_map.mp hentries
    refine hkeys.imp ?_
    intro a b hab p v w ha hb
    exact hab ((assignEntry_eq_some_iff.mp ha).1.trans (assignEntry_eq_some_iff.mp hb).1.symm)
  constructor
  · intro hreadable
    have hsome := foldlM_isSome_of_read (r := .empty) (fun _ _ => rfl) hreadable
    obtain ⟨r, hr⟩ := Option.isSome_iff_exists.mp hsome
    obtain ⟨-, hkeep, hset, hother⟩ := foldlM_set (fun _ _ => rfl) hdistinct hr
    have hcounts : r.counts = (setting.retention py none).counts := by
      have hassign : ∀ p v, assignPeriod py setting p = some (some (p, v)) ↔
          ∃ entry ∈ entries, assignEntry py entry = some (some (p, v)) := by
        intro p v
        rw [← assignPeriod_perm hentries hperm]
        unfold assignPeriod
        constructor
        · intro h
          split at h
          · simp at h
          · rename_i text hget
            obtain ⟨count, hcount, heq⟩ := Option.map_eq_some_iff.mp h
            cases heq
            exact ⟨(.count p, text), Dict.mem_of_get hget,
              assignEntry_eq_some_iff.mpr ⟨rfl, hcount⟩⟩
        · rintro ⟨⟨key, text⟩, hmem, hentry⟩
          obtain ⟨rfl, hcount⟩ := assignEntry_eq_some_iff.mp hentry
          rw [Dict.get_of_mem hentries hmem]
          simpa using hcount
      apply counts_eq
      · intro p v hp
        obtain ⟨entry, hentry, hassigned⟩ := (hassign p v).mp hp
        exact hset entry hentry p v hassigned
      · intro p hp
        exact hother p fun entry hentry v hassigned => hp v ((hassign p v).mpr ⟨entry, hentry,
          hassigned⟩)
    rw [hr]
    obtain ⟨counts, keepAll⟩ := r
    obtain rfl : keepAll = none := hkeep
    obtain rfl := hcounts
    rfl
  · intro hsome
    obtain ⟨r, hr⟩ := Option.ne_none_iff_exists'.mp hsome
    exact (foldlM_set (fun _ _ => rfl) hdistinct hr).1

end String

section Job

variable {job : Json.Fields} {setting : Setting}

theorem parseRetention_mapping {fields : Json.Fields} (h : Carries job (.obj fields)) :
    parseRetention py job = parseMapping py fields := by
  have hempty : parseMapping py [] = some .empty := rfl
  unfold parseRetention
  rcases h with ⟨hfirst, hsecond⟩ | ⟨hfirst, hsecond⟩
  · rw [hfirst, hsecond]
    cases fields with
    | nil => simpa [Python.truthy] using hempty.symm
    | cons kv fields => simp [Python.truthy]
  · rw [hfirst, hsecond]
    cases fields with
    | nil => simpa [Python.truthy] using hempty.symm
    | cons kv fields => simp [Python.truthy]

theorem parseRetention_string {text : String} (h : Carries job (.str text)) :
    parseRetention py job = parseString py text := by
  have hnone : ∀ entry ∈ ([] : Setting), Plain entry.2 := by simp
  have hempty : parseString py "" = some .empty := parseString_parts hnone .nil rfl
  unfold parseRetention
  rcases h with ⟨hfirst, hsecond⟩ | ⟨hfirst, hsecond⟩
  · rw [hfirst, hsecond]
    by_cases htext : text = ""
    · simp [Python.truthy, htext, hempty]
    · simp [Python.truthy, htext]
  · rw [hfirst, hsecond]
    by_cases htext : text = ""
    · simp [Python.truthy, htext, hempty]
    · simp [Python.truthy, htext]

end Job

/-- Both forms are read alike, and `keep_all` as the setting has it, exactly if the setting has no
`keep-all` and all its counts are read. -/
theorem retention_faithful_iff (enabled : String → Bool) {setting : Setting}
    (hint : ∀ n : ℤ, py.parseInt (toString n) = some n) (hnodup : (Dict.keys setting).Nodup)
    (hplain : ∀ entry ∈ setting, Plain entry.2) :
    Faithful py enabled setting ↔
      RetentionKey.all ∉ Dict.keys setting ∧ Readable py setting := by
  constructor
  · intro h
    have hmapping : MappingForm setting
        (setting.map fun entry => (entry.1.text, Json.str entry.2)) := by
      refine ⟨setting, .refl _, ?_⟩
      rw [List.forall₂_map_right_iff, List.forall₂_same]
      exact fun entry _ => ⟨rfl, Or.inl rfl⟩
    have hstring : StringForm setting (String.ofList ([','].intercalate
        (setting.map fun entry => [] ++ ((entry.1.text.toList ++ []) ++ '=' ::
          ([] ++ (entry.2.toList ++ [])))))) := by
      refine ⟨setting, _, .refl _, ?_, String.toList_ofList⟩
      rw [List.forall₂_map_right_iff, List.forall₂_same]
      exact fun entry _ => ⟨[], [], [], [], by simp, rfl⟩
    have hcarries : ∀ raw, Carries [("prune-backups", raw)] raw := fun raw => Or.inl ⟨rfl, rfl⟩
    obtain ⟨r, hr, hr', -⟩ := h _ _ _ _ hmapping hstring (hcarries _) (hcarries _)
    rw [parseRetention_mapping (hcarries _)] at hr
    rw [parseRetention_string (hcarries _)] at hr'
    have hreadable := (parseMapping_eq hint hnodup hmapping).2 (by simp [hr])
    refine ⟨?_, hreadable⟩
    intro hall
    have hmap := (parseMapping_eq hint hnodup hmapping).1 hreadable
    have hstr := (parseString_eq hnodup hplain hstring).1 hreadable
    rw [hr, if_pos hall] at hmap
    rw [hr'] at hstr
    have hkeep := congrArg Retention.keepAll (Option.some.inj (hmap.symm.trans hstr))
    exact absurd hkeep (by simp [Setting.retention])
  · rintro ⟨hall, hreadable⟩ job job' fields text hmapping hstring hjob hjob'
    refine ⟨setting.retention py none, ?_, ?_, ?_⟩
    · rw [parseRetention_mapping hjob, (parseMapping_eq hint hnodup hmapping).1 hreadable,
        if_neg hall]
    · rw [parseRetention_string hjob', (parseString_eq hnodup hplain hstring).1 hreadable]
    · constructor
      · intro hkeep
        exact absurd hkeep (by simp [Setting.retention])
      · rintro ⟨value, hmem, -⟩
        exact absurd (List.mem_map_of_mem (f := Prod.fst) hmem) hall

/-- The three last backups and seven daily ones are kept. -/
theorem retention_faithful_keep_last :
    (Faithful .ascii (· = "1") [(.count .last, "3"), (.count .daily, "7")] ↔
      RetentionKey.all ∉ Dict.keys [(RetentionKey.count .last, "3"), (.count .daily, "7")] ∧
        Readable .ascii [(.count .last, "3"), (.count .daily, "7")]) :=
  retention_faithful_iff (· = "1") Vmid.parseAscii_toString (by decide)
    (by simpa using ⟨⟨by decide, by decide⟩, by decide, by decide⟩)

/-- `keep-all=1` is read from a mapping only. -/
theorem keep_all_lost_in_string : ¬ Faithful .ascii (· = "1") [(.all, "1")] := by
  intro h
  have hmapping : MappingForm [(.all, "1")] [("keep-all", .int 1)] :=
    ⟨_, .refl _, .cons ⟨rfl, Or.inr ⟨1, rfl, rfl⟩⟩ .nil⟩
  have hstring : StringForm [(.all, "1")] "keep-all=1" :=
    ⟨_, ["keep-all=1".toList], .refl _, .cons ⟨[], [], [], [], by simp, rfl⟩ .nil, rfl⟩
  obtain ⟨r, hr, hr', -⟩ := h [("prune-backups", .obj [("keep-all", .int 1)])]
    [("prune-backups", .str "keep-all=1")] _ _ hmapping hstring (Or.inl ⟨rfl, rfl⟩)
    (Or.inl ⟨rfl, rfl⟩)
  have hfirst : (parseRetention .ascii [("prune-backups", .obj [("keep-all", .int 1)])]).map
      (·.keepAll) = some (some true) := by decide
  have hsecond : (parseRetention .ascii [("prune-backups", .str "keep-all=1")]).map
      (·.keepAll) = some none := by decide +kernel
  rw [hr] at hfirst
  rw [hr'] at hsecond
  simp only [Option.map_some, Option.some.injEq] at hfirst hsecond
  rw [hfirst] at hsecond
  contradiction

end ProxboxApi.BackupRoutines
