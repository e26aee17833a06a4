import Mathlib
import ProxboxApi.DiskSizes

/-! When the recorded sizes of a VM's disks are those of its config. -/

namespace ProxboxApi.Disks

/-- A decimal number as it is written. -/
structure Decimal where
  whole : List Char
  fraction : List Char
  whole_ne_nil : whole ≠ []
  digits : ∀ c ∈ whole ++ fraction, c.isDigit = true

namespace Decimal

def text (n : Decimal) : List Char :=
  n.whole ++ if n.fraction = [] then [] else '.' :: n.fraction

def value (n : Decimal) : ℚ :=
  Python.digitsValue (n.whole ++ n.fraction) / 10 ^ n.fraction.length

end Decimal

inductive SizeUnit where
  | bytes
  | kibi
  | mebi
  | gibi
  | tebi

namespace SizeUnit

def text : SizeUnit → List Char
  | bytes => []
  | kibi => ['K']
  | mebi => ['M']
  | gibi => ['G']
  | tebi => ['T']

/-- A unit's text begins with a capital letter, if it is there. -/
theorem text_head (u : SizeUnit) : ∀ c ∈ u.text.head?, c.toNat < 128 ∧ c.isDigit = false := by
  cases u with
  | bytes => simp [text]
  | kibi | mebi | gibi | tebi =>
    rintro c ⟨rfl⟩
    decide

/-- In bytes. -/
def scale : SizeUnit → ℚ
  | bytes => 1
  | kibi => 2 ^ 10
  | mebi => 2 ^ 20
  | gibi => 2 ^ 30
  | tebi => 2 ^ 40

/-- The letter that the parser goes by. -/
def letter : SizeUnit → Char
  | bytes => 'B'
  | kibi => 'K'
  | mebi => 'M'
  | gibi => 'G'
  | tebi => 'T'

end SizeUnit

variable {tables : SizeTables} {n : Decimal} {u : SizeUnit}

theorem isDecimal_ascii {c : Char} (h : c.toNat < 128) : tables.isDecimal c = c.isDigit := by
  rw [SizeTables.isDecimal, tables.digit_ascii c h]
  cases c.isDigit with
  | false => rfl
  | true => rfl

theorem toNat_of_isDigit {c : Char} (h : c.isDigit = true) : 48 ≤ c.toNat ∧ c.toNat ≤ 57 := by
  simp only [Char.isDigit, Bool.and_eq_true, decide_eq_true_eq] at h
  exact ⟨h.1, h.2⟩

/-- A character that the parsing of a size leaves as it is. -/
def PlainChar (c : Char) : Prop := c.toNat < 128 ∧ Text.isSpace c = false ∧ c.toUpper = c

theorem plainChar_of_isDigit {c : Char} (h : c.isDigit = true) : PlainChar c := by
  obtain ⟨hlow, hhigh⟩ := toNat_of_isDigit h
  refine ⟨by omega, Text.isSpace_of_isDigit h, ?_⟩
  rw [Char.toUpper, dif_neg]
  rintro ⟨hle, _⟩
  have hletter : 97 ≤ c.toNat := hle
  omega

theorem plainChar_text : ∀ c ∈ n.text ++ u.text, PlainChar c := by
  intro c hc
  rcases List.mem_append.mp hc with hc | hc
  · rcases List.mem_append.mp hc with hc | hc
    · exact plainChar_of_isDigit (n.digits c (List.mem_append_left _ hc))
    · split at hc
      · cases hc
      · rcases List.mem_cons.mp hc with rfl | hc
        · exact ⟨by decide, by decide, by decide⟩
        · exact plainChar_of_isDigit (n.digits c (List.mem_append_right _ hc))
  · cases u with
    | bytes => cases hc
    | kibi | mebi | gibi | tebi =>
      rw [List.mem_singleton.mp hc]
      exact ⟨by decide, by decide, by decide⟩

theorem upper_strip_text : (tables.upper (Text.strip (String.ofList (n.text ++ u.text)))).toList =
    n.text ++ u.text := by
  have hplain := @plainChar_text n u
  rw [Text.strip, String.toList_ofList, Text.stripChars_of_forall fun c hc => (hplain c hc).2.1,
    tables.upper_ascii]
  · rw [String.toList_ofList, String.toList_ofList]
    exact (List.map_congr_left fun c hc => (hplain c hc).2.2).trans (List.map_id _)
  · rw [String.toList_ofList]
    exact fun c hc => (hplain c hc).1

theorem digitsValue_ascii {digits : List Char} (h : ∀ c ∈ digits, c.isDigit = true) :
    tables.digitsValue digits = Python.digitsValue digits := by
  unfold SizeTables.digitsValue Python.digitsValue
  refine List.foldl_ext _ _ _ fun n c hc => ?_
  have hascii := (plainChar_of_isDigit (h c hc)).1
  rw [tables.digit_ascii c hascii, if_pos (h c hc), Option.getD_some]

theorem float_decimal (n : Decimal) :
    tables.float n.whole n.fraction = Binary64.nearest n.value := by
  rw [SizeTables.float, digitsValue_ascii n.digits, Decimal.value]

/-- The digits are taken up to what follows them. -/
theorem span_isDecimal {digits rest : List Char} (hdigits : ∀ c ∈ digits, c.isDigit = true)
    (hrest : ∀ c ∈ rest.head?, c.toNat < 128 ∧ c.isDigit = false) :
    (digits ++ rest).takeWhile tables.isDecimal = digits ∧
      (digits ++ rest).dropWhile tables.isDecimal = rest := by
  have hall : ∀ c ∈ digits, tables.isDecimal c = true := fun c hc => by
    rw [isDecimal_ascii (plainChar_of_isDigit (hdigits c hc)).1, hdigits c hc]
  have hnone : rest.takeWhile tables.isDecimal = [] ∧ rest.dropWhile tables.isDecimal = rest := by
    cases rest with
    | nil => exact ⟨rfl, rfl⟩
    | cons c rest =>
      obtain ⟨hascii, hno⟩ := hrest c rfl
      have hc : tables.isDecimal c = false := by rw [isDecimal_ascii hascii, hno]
      simp [hc]
  rw [List.takeWhile_append_of_pos hall, List.dropWhile_append_of_pos hall, hnone.1, hnone.2,
    List.append_nil]
  exact ⟨rfl, rfl⟩

theorem fractionPart_text : fractionPart tables
    ((if n.fraction = [] then [] else '.' :: n.fraction) ++ u.text) = (n.fraction, u.text) := by
  have hunit : ∀ c ∈ u.text.head?, c.toNat < 128 ∧ c.isDigit = false := u.text_head
  have hfraction : ∀ c ∈ n.fraction, c.isDigit = true :=
    fun c hc => n.digits c (List.mem_append_right _ hc)
  by_cases hnil : n.fraction = []
  · rw [if_pos hnil, hnil]
    cases u <;> rfl
  · obtain ⟨htake, hdrop⟩ := @span_isDecimal tables _ _ hfraction hunit
    rw [if_neg hnil, List.cons_append, fractionPart, htake, hdrop, if_neg hnil]

theorem unitPart_text : unitPart (u.text.dropWhile Text.isSpace) = (u.letter, []) := by
  cases u <;> rfl

theorem span_text :
    (n.text ++ u.text).takeWhile tables.isDecimal = n.whole ∧
      fractionPart tables ((n.text ++ u.text).dropWhile tables.isDecimal) =
        (n.fraction, u.text) := by
  have hwhole : ∀ c ∈ n.whole, c.isDigit = true :=
    fun c hc => n.digits c (List.mem_append_left _ hc)
  have hrest : ∀ c ∈ ((if n.fraction = [] then [] else '.' :: n.fraction) ++ u.text).head?,
      c.toNat < 128 ∧ c.isDigit = false := by
    by_cases hnil : n.fraction = []
    · rw [if_pos hnil]
      exact u.text_head
    · rw [if_neg hnil]
      rintro c ⟨rfl⟩
      decide
  obtain ⟨htake, hdrop⟩ := @span_isDecimal tables _ _ hwhole hrest
  rw [Decimal.text, List.append_assoc, htake, hdrop, fractionPart_text]
  exact ⟨rfl, rfl⟩

/-- The text of a size says what it is. -/
theorem text_inj {n' : Decimal} {u' : SizeUnit} (h : n.text ++ u.text = n'.text ++ u'.text) :
    n = n' ∧ u = u' := by
  obtain ⟨hwhole, hrest⟩ := @span_text SizeTables.ascii n u
  obtain ⟨hwhole', hrest'⟩ := @span_text SizeTables.ascii n' u'
  rw [h] at hwhole hrest
  have hboth := hrest.symm.trans hrest'
  rw [Prod.mk.injEq] at hboth
  constructor
  · obtain ⟨whole, fraction, _, _⟩ := n
    obtain ⟨whole', fraction', _, _⟩ := n'
    rw [Decimal.mk.injEq]
    exact ⟨hwhole.symm.trans hwhole', hboth.1⟩
  · have hunit := hboth.2
    cases u <;> cases u' <;> first | rfl | exact absurd hunit (by decide)

/-- A size as Proxmox writes it is read with both roundings of the floats. -/
theorem sizeStrToMb_text : sizeStrToMb tables (String.ofList (n.text ++ u.text)) =
    (Binary64.nearest n.value).bind fun value =>
      (Binary64.nearest (value * multiplier u.letter)).map Int.floor := by
  obtain ⟨hwhole, hrest⟩ := @span_text tables n u
  have htext : n.text ≠ [] := by simp [Decimal.text, n.whole_ne_nil]
  unfold sizeStrToMb
  simp only [upper_strip_text, hwhole, hrest]
  rw [unitPart_text]
  simp [htext, n.whole_ne_nil, float_decimal]

def sizeOption (n : Decimal) (u : SizeUnit) : List Char :=
  ['s', 'i', 'z', 'e', '='] ++ (n.text ++ u.text)

/-- A config string with the option `size=<n><unit>`, which no later option overrides. -/
def Sized (raw : String) (n : Decimal) (u : SizeUnit) : Prop :=
  ∃ (volume : List Char) (before after : List (List Char)),
    raw.toList = [','].intercalate (volume :: (before ++ sizeOption n u :: after)) ∧
      (∀ part ∈ volume :: (before ++ after), ',' ∉ part) ∧
      ∀ part ∈ after, ∀ v, option part ≠ some ("size", v)

/-- A config string without a size. -/
def Unsized (raw : String) : Prop :=
  ∀ part ∈ (raw.toList.splitOn ',').tail, ∀ v, option part ≠ some ("size", v)

theorem get_foldl_setOption {k : String} {parts : List (List Char)}
    (h : ∀ part ∈ parts, ∀ v, option part ≠ some (k, v)) (info : List (String × String)) :
    Dict.get k (parts.foldl setOption info) = Dict.get k info := by
  induction parts generalizing info with
  | nil => rfl
  | cons part parts ih =>
    obtain ⟨hpart, hrest⟩ := List.forall_mem_cons.mp h
    rw [List.foldl_cons, ih hrest]
    unfold setOption
    split
    · rename_i k' v hoption
      refine Dict.get_set_of_ne ?_
      rintro rfl
      exact hpart v hoption
    · rfl

theorem option_sizeOption :
    option (sizeOption n u) = some ("size", String.ofList (n.text ++ u.text)) := by
  have hstrip : Text.stripChars Text.isSpace (n.text ++ u.text) = n.text ++ u.text :=
    Text.stripChars_of_forall fun c hc => (plainChar_text c hc).2.1
  have htake : (sizeOption n u).takeWhile (· ≠ '=') = ['s', 'i', 'z', 'e'] := by
    simp [sizeOption]
  have hdrop : (sizeOption n u).dropWhile (· ≠ '=') = '=' :: (n.text ++ u.text) := by
    simp [sizeOption]
  rw [option, if_pos (by simp [sizeOption]), htake, hdrop, List.tail_cons, hstrip]
  rfl

theorem get_size_of_sized {raw key : String} (h : Sized raw n u) :
    Dict.get "size" (diskInfo key raw) = some (String.ofList (n.text ++ u.text)) := by
  obtain ⟨volume, before, after, hraw, hcomma, hafter⟩ := h
  have hplain : ',' ∉ sizeOption n u := by
    rw [sizeOption, List.mem_append, not_or]
    refine ⟨by decide, fun hmem => ?_⟩
    rcases List.mem_append.mp hmem with hmem | hmem
    · rcases List.mem_append.mp hmem with hmem | hmem
      · exact absurd (n.digits _ (List.mem_append_left _ hmem)) (by decide)
      · split at hmem
        · cases hmem
        · rcases List.mem_cons.mp hmem with heq | hmem
          · exact absurd heq (by decide)
          · exact absurd (n.digits _ (List.mem_append_right _ hmem)) (by decide)
    · cases u <;> exact absurd hmem (by decide)
  have hparts : ∀ part ∈ volume :: (before ++ sizeOption n u :: after), ',' ∉ part := by
    intro part hpart
    by_cases heq : part = sizeOption n u
    · exact heq ▸ hplain
    · refine hcomma part ?_
      simp only [List.mem_cons, List.mem_append] at hpart ⊢
      tauto
  rw [diskInfo, hraw, List.splitOn_intercalate _ hparts (List.cons_ne_nil _ _), List.tail_cons,
    List.foldl_append, List.foldl_cons, get_foldl_setOption hafter, setOption, option_sizeOption,
    Dict.get_set_self]

theorem get_size_of_unsized {raw key : String} (h : Unsized raw) :
    Dict.get "size" (diskInfo key raw) = none := by
  rw [diskInfo, get_foldl_setOption h]
  rfl

/-- The number of whole MiB of a size. -/
def wholeMb (n : Decimal) (u : SizeUnit) : ℤ := ⌊n.value * u.scale / 2 ^ 20⌋

/-- The exponent of a unit that is at least a MiB, in MiB. -/
def SizeUnit.shift : SizeUnit → Option ℕ
  | bytes | kibi => none
  | mebi => some 0
  | gibi => some 10
  | tebi => some 20

/-- A size in bytes or KiB is that of a float below one; between a larger one and that of the
nearest float there is no whole number of MiB, which is finite. -/
def Exact (n : Decimal) (u : SizeUnit) : Prop :=
  ∃ d, Binary64.nearest n.value = some d ∧ match u.shift with
    | none => d < 1
    | some k => d * 2 ^ k < 2 ^ 1024 ∧ ∀ m : ℕ, (m : ℚ) ≤ n.value * 2 ^ k ↔ (m : ℚ) ≤ d * 2 ^ k

theorem Decimal.value_nonneg (n : Decimal) : 0 ≤ n.value := by
  unfold Decimal.value
  positivity

theorem Decimal.value_of_whole (n : Decimal) (h : n.fraction = []) :
    n.value = Python.digitsValue n.whole := by
  rw [Decimal.value, h, List.append_nil, List.length_nil, pow_zero, div_one]

/-- A product with a power of two is exact, unless it is infinite. -/
theorem scaled_eq_some_iff {v : ℚ} (hv : 0 ≤ v) {k : ℕ} {mb : ℤ} :
    ((Binary64.nearest v).bind fun value =>
      (Binary64.nearest (value * 2 ^ k)).map Int.floor) = some mb ↔
    ∃ d, Binary64.nearest v = some d ∧ d * 2 ^ k < 2 ^ 1024 ∧ ⌊d * 2 ^ k⌋ = mb := by
  rw [Option.bind_eq_some_iff]
  refine exists_congr fun d => and_congr_right fun hd => ?_
  have hfloat := (Binary64.isFloat_of_nearest hv hd).mul_two_pow k
  by_cases hfinite : d * 2 ^ k < 2 ^ 1024
  · rw [Binary64.nearest_of_isFloat hfloat hfinite, Option.map_some, Option.some.injEq]
    simp [hfinite]
  · rw [Binary64.nearest_infinite hfloat (not_lt.mp hfinite)]
    simp [hfinite]

theorem floor_eq_floor_iff {x y : ℚ} (hx : 0 ≤ x) (hy : 0 ≤ y) :
    ⌊x⌋ = ⌊y⌋ ↔ ∀ m : ℕ, (m : ℚ) ≤ y ↔ (m : ℚ) ≤ x := by
  have hle : ∀ (z : ℚ) (m : ℕ), (m : ℚ) ≤ z ↔ (m : ℤ) ≤ ⌊z⌋ := fun z m => by
    rw [Int.le_floor, Int.cast_natCast]
  simp only [hle]
  constructor
  · intro h m
    rw [h]
  · intro h
    obtain ⟨a, ha⟩ := Int.eq_ofNat_of_zero_le (Int.floor_nonneg.mpr hx)
    obtain ⟨b, hb⟩ := Int.eq_ofNat_of_zero_le (Int.floor_nonneg.mpr hy)
    rw [ha, hb] at h ⊢
    exact le_antisymm ((h a).mpr le_rfl) ((h b).mp le_rfl)

/-- A number of bytes or KiB that is read as so many MiB is right only where both are zero. -/
theorem floor_eq_small_iff {v d s : ℚ} (hv : 0 ≤ v) (hs : 0 < s) (hsmall : s ≤ 1 / 1024)
    (hd : Binary64.nearest v = some d) : ⌊d⌋ = ⌊v * s⌋ ↔ d < 1 := by
  constructor
  · intro heq
    by_contra hge
    have hone : 1 ≤ ⌊d⌋ := Int.le_floor.mpr (by exact_mod_cast not_lt.mp hge)
    have hle : ((⌊d⌋ : ℤ) : ℚ) ≤ v * s := heq ▸ Int.floor_le _
    have hcast : (1 : ℚ) ≤ ((⌊d⌋ : ℤ) : ℚ) := by exact_mod_cast hone
    have hvs : v * s ≤ v / 1024 := by
      rw [div_eq_mul_one_div]
      exact mul_le_mul_of_nonneg_left hsmall hv
    have hbound := Binary64.lt_two_mul_nearest (by linarith) hd
    have hfloor := Int.lt_floor_add_one d
    linarith
  · intro hlt
    have hd0 := Binary64.nearest_nonneg hv hd
    have hv1 : v < 1 := by
      by_contra hge
      exact absurd (Binary64.one_le_nearest (not_lt.mp hge) hd) (not_le.mpr hlt)
    have hvs : v * s < 1 := by nlinarith
    rw [Int.floor_eq_zero_iff.mpr ⟨hd0, hlt⟩,
      Int.floor_eq_zero_iff.mpr ⟨mul_nonneg hv hs.le, hvs⟩]

theorem sizeStrToMb_eq_iff {k : ℕ} (hk : multiplier u.letter = 2 ^ k) {mb : ℤ} :
    sizeStrToMb tables (String.ofList (n.text ++ u.text)) = some mb ↔
      ∃ d, Binary64.nearest n.value = some d ∧ d * 2 ^ k < 2 ^ 1024 ∧ ⌊d * 2 ^ k⌋ = mb := by
  rw [sizeStrToMb_text, hk, scaled_eq_some_iff n.value_nonneg]

theorem sizeStrToMb_small {s : ℚ} (hmultiplier : multiplier u.letter = 1)
    (hshift : u.shift = none) (hscale : u.scale / 2 ^ 20 = s) (hs : 0 < s)
    (hsmall : s ≤ 1 / 1024) :
    sizeStrToMb tables (String.ofList (n.text ++ u.text)) = some (wholeMb n u) ↔ Exact n u := by
  rw [sizeStrToMb_eq_iff (by rw [hmultiplier, pow_zero]), Exact, hshift]
  refine exists_congr fun d => and_congr_right fun hd => ?_
  have hfinite : d < 2 ^ 1024 := (Binary64.nearest_eq_some_iff.mp hd).2
  rw [pow_zero, mul_one, wholeMb, mul_div_assoc, hscale,
    floor_eq_small_iff n.value_nonneg hs hsmall hd, and_iff_right hfinite]

theorem sizeStrToMb_large {k : ℕ} (hmultiplier : multiplier u.letter = 2 ^ k)
    (hshift : u.shift = some k) (hscale : u.scale / 2 ^ 20 = 2 ^ k) :
    sizeStrToMb tables (String.ofList (n.text ++ u.text)) = some (wholeMb n u) ↔ Exact n u := by
  rw [sizeStrToMb_eq_iff hmultiplier, Exact, hshift]
  refine exists_congr fun d => and_congr_right fun hd => and_congr_right fun _ => ?_
  have hpos : (0 : ℚ) ≤ 2 ^ k := by positivity
  rw [wholeMb, mul_div_assoc, hscale, floor_eq_floor_iff
    (mul_nonneg (Binary64.nearest_nonneg n.value_nonneg hd) hpos)
    (mul_nonneg n.value_nonneg hpos)]

/-- A size is read as it is exactly where no rounding gets in the way. -/
theorem sizeStrToMb_right_iff (n : Decimal) (u : SizeUnit) :
    sizeStrToMb tables (String.ofList (n.text ++ u.text)) = some (wholeMb n u) ↔ Exact n u := by
  cases u with
  | bytes =>
    exact sizeStrToMb_small rfl rfl rfl (by norm_num [SizeUnit.scale]) (by norm_num [SizeUnit.scale])
  | kibi =>
    exact sizeStrToMb_small (by norm_num [multiplier, SizeUnit.letter]) rfl rfl
      (by norm_num [SizeUnit.scale]) (by norm_num [SizeUnit.scale])
  | mebi =>
    exact sizeStrToMb_large (by rw [pow_zero]; rfl) rfl
      (by norm_num [SizeUnit.scale])
  | gibi =>
    exact sizeStrToMb_large (by norm_num [multiplier, SizeUnit.letter]) rfl
      (by norm_num [SizeUnit.scale])
  | tebi =>
    exact sizeStrToMb_large (by norm_num [multiplier, SizeUnit.letter]) rfl
      (by norm_num [SizeUnit.scale])

theorem wholeMb_nonneg (n : Decimal) (u : SizeUnit) : 0 ≤ wholeMb n u := by
  refine Int.floor_nonneg.mpr (div_nonneg (mul_nonneg n.value_nonneg ?_) (by norm_num))
  cases u <;> norm_num [SizeUnit.scale]

/-- The entry has the size, or none if it is a CD-ROM; a disk without a whole MiB has no entry. -/
def RightSize (n : Decimal) (u : SizeUnit) (cdrom : Bool) :
    Option (Option ProxmoxDiskEntry) → Prop
  | none => False
  | some none => wholeMb n u = 0 ∧ cdrom = false
  | some (some entry) =>
    if cdrom then entry.size = none else wholeMb n u ≠ 0 ∧ entry.size = some (wholeMb n u)

/-- The entry of a config string has its size. -/
def Recorded (py : Python) (tables : SizeTables) (key raw : String) (n : Decimal) (u : SizeUnit) :
    Prop :=
  RightSize n u (isCdrom py (diskInfo key raw)) (parseDiskEntry py tables key (.str raw))

variable {py : Python} {key raw : String}

theorem sizeStrToMb_nonneg {mb : ℤ}
    (h : sizeStrToMb tables (String.ofList (n.text ++ u.text)) = some mb) : 0 ≤ mb := by
  obtain ⟨k, hk⟩ : ∃ k : ℕ, multiplier u.letter = 2 ^ k := by
    cases u with
    | bytes | mebi => exact ⟨0, by rw [pow_zero]; rfl⟩
    | kibi => exact ⟨0, by norm_num [multiplier, SizeUnit.letter]⟩
    | gibi => exact ⟨10, by norm_num [multiplier, SizeUnit.letter]⟩
    | tebi => exact ⟨20, by norm_num [multiplier, SizeUnit.letter]⟩
  obtain ⟨d, hd, _, rfl⟩ := (sizeStrToMb_eq_iff hk).mp h
  exact Int.floor_nonneg.mpr
    (mul_nonneg (Binary64.nearest_nonneg n.value_nonneg hd) (by positivity))

theorem recorded_iff (hkey : isDiskKey tables key = true) (hsized : Sized raw n u) :
    Recorded py tables key raw n u ↔ isCdrom py (diskInfo key raw) = true ∨ Exact n u := by
  unfold Recorded parseDiskEntry
  simp only [hkey, Bool.not_true, Bool.false_eq_true, if_false, get_size_of_sized hsized,
    Option.getD_some]
  cases hcdrom : isCdrom py (diskInfo key raw) with
  | true => simp [RightSize]
  | false =>
    rw [← sizeStrToMb_right_iff n u]
    cases hsize : sizeStrToMb tables (String.ofList (n.text ++ u.text)) with
    | none => simp [RightSize]
    | some mb =>
      have hnonneg := sizeStrToMb_nonneg hsize
      by_cases hle : mb ≤ 0
      · obtain rfl : mb = 0 := le_antisymm hle hnonneg
        simpa [RightSize] using @eq_comm _ (wholeMb n u) 0
      · simp only [hle, Bool.false_eq_true, if_false, Option.map_some, RightSize,
          Option.some.injEq, false_or]
        constructor
        · exact fun h => h.2
        · exact fun h => ⟨by omega, h⟩

/-- How many bytes a config entry stands for; a disk without a size is not counted. -/
def Describes (tables : SizeTables) (kv : String × Json) (bytes : ℚ) : Prop :=
  match kv.2 with
  | .str raw => if isDiskKey tables kv.1 then
      (∃ n u, Sized raw n u ∧ bytes = n.value * u.scale) ∨ (Unsized raw ∧ bytes = 0)
    else bytes = 0
  | _ => bytes = 0

/-- Every disk of the config that has a size is recorded with it. -/
def AllRecorded (py : Python) (tables : SizeTables) (config : Json.Fields) : Prop :=
  ∀ kv ∈ config, isDiskKey tables kv.1 = true → ∀ raw n u, kv.2 = .str raw → Sized raw n u →
    Recorded py tables kv.1 raw n u

/-- What an entry adds to the disk of its VM. -/
def contribution (entry : Option ProxmoxDiskEntry) : ℤ :=
  match entry with
  | some disk => max (disk.size.getD 0) 0
  | none => 0

theorem parse_unsized (hkey : isDiskKey tables key = true) (h : Unsized raw) :
    ∃ entry, parseDiskEntry py tables key (.str raw) = some entry ∧ contribution entry = 0 := by
  have hzero : sizeStrToMb tables "0" = some 0 := by
    let zero : Decimal := ⟨['0'], [], by decide, List.all_eq_true.mp (by decide)⟩
    have hnearest : Binary64.nearest zero.value = some 0 := by
      rw [zero.value_of_whole rfl]
      exact_mod_cast Binary64.nearest_natCast (m := 0) (by norm_num)
    have hread : sizeStrToMb tables (String.ofList (zero.text ++ SizeUnit.bytes.text)) = some 0 :=
      (sizeStrToMb_eq_iff (k := 0) (by rw [pow_zero]; rfl)).mpr
        ⟨0, hnearest, by norm_num, by norm_num⟩
    exact hread
  unfold parseDiskEntry
  simp only [hkey, Bool.not_true, Bool.false_eq_true, if_false, get_size_of_unsized h,
    Option.getD_none, hzero, Option.map_some, le_refl, if_true]
  split
  · exact ⟨_, rfl, rfl⟩
  · exact ⟨_, rfl, rfl⟩

theorem parse_sized {bytes : ℚ} (hbytes : bytes = n.value * u.scale)
    (h : Recorded py tables key raw n u) :
    ∃ entry, parseDiskEntry py tables key (.str raw) = some entry ∧
      (contribution entry : ℚ) ≤ bytes / 2 ^ 20 := by
  have hfloor : ((wholeMb n u : ℤ) : ℚ) ≤ bytes / 2 ^ 20 := hbytes ▸ Int.floor_le _
  have hnonneg : (0 : ℚ) ≤ wholeMb n u := by exact_mod_cast wholeMb_nonneg n u
  unfold Recorded at h
  match hparsed : parseDiskEntry py tables key (.str raw) with
  | none =>
    rw [hparsed] at h
    exact h.elim
  | some none => exact ⟨none, rfl, by simpa [contribution] using hnonneg.trans hfloor⟩
  | some (some entry) =>
    rw [hparsed, RightSize] at h
    refine ⟨some entry, rfl, ?_⟩
    split at h
    · simpa [contribution, h] using hnonneg.trans hfloor
    · rw [contribution, h.2, Option.getD_some, max_eq_left (wholeMb_nonneg n u)]
      exact hfloor

theorem parse_describes {kv : String × Json} {bytes : ℚ} (h : Describes tables kv bytes)
    (hright : isDiskKey tables kv.1 = true → ∀ raw n u, kv.2 = .str raw → Sized raw n u →
      Recorded py tables kv.1 raw n u) :
    ∃ entry, parseDiskEntry py tables kv.1 kv.2 = some entry ∧
      (contribution entry : ℚ) ≤ bytes / 2 ^ 20 := by
  have hnone : bytes = 0 → (contribution none : ℚ) ≤ bytes / 2 ^ 20 := by
    rintro rfl
    simp [contribution]
  obtain ⟨key, value⟩ := kv
  match value with
  | .str raw =>
    by_cases hkey : isDiskKey tables key = true
    · simp only [Describes, hkey, if_true] at h
      obtain ⟨n, u, hsized, hbytes⟩ | ⟨hunsized, rfl⟩ := h
      · exact parse_sized hbytes (hright hkey raw n u rfl hsized)
      · have hparsed : ∃ entry, parseDiskEntry py tables key (.str raw) = some entry ∧
            contribution entry = 0 := parse_unsized hkey hunsized
        obtain ⟨entry, hentry, hzero⟩ := hparsed
        exact ⟨entry, hentry, by simp [hzero]⟩
    · simp only [Describes, hkey, Bool.false_eq_true, if_false] at h
      exact ⟨none, by simp [parseDiskEntry, hkey], hnone h⟩
  | .null | .bool _ | .int _ | .float _ | .arr _ | .obj _ => exact ⟨none, rfl, hnone h⟩

theorem diskMb_le {config : Json.Fields} {bytes : List ℚ}
    (h : List.Forall₂ (Describes tables) config bytes) (hright : AllRecorded py tables config) :
    ∃ total, diskMb py tables config = some total ∧ (total : ℚ) ≤ bytes.sum / 2 ^ 20 := by
  suffices ∃ entries, config.mapM (fun kv => parseDiskEntry py tables kv.1 kv.2) = some entries ∧
      (((entries.reduceOption.map fun disk => max (disk.size.getD 0) 0).sum : ℤ) : ℚ) ≤
        bytes.sum / 2 ^ 20 by
    obtain ⟨entries, hentries, hle⟩ := this
    refine ⟨_, by rw [diskMb, parseVmConfigDisks, hentries, Option.map_some, Option.map_some], ?_⟩
    rwa [((List.mergeSort_perm _ _).map _).sum_eq]
  induction h with
  | nil => exact ⟨[], rfl, by simp⟩
  | cons hhead _ ih =>
    obtain ⟨hfirst, hrest⟩ := List.forall_mem_cons.mp hright
    obtain ⟨entry, hentry, hbound⟩ := parse_describes hhead hfirst
    obtain ⟨entries, hentries, hle⟩ := ih hrest
    refine ⟨entry :: entries, by rw [List.mapM_cons, hentry, hentries]; rfl, ?_⟩
    have hsum : (((entry :: entries).reduceOption.map fun disk => max (disk.size.getD 0) 0).sum) =
        contribution entry + (entries.reduceOption.map fun disk => max (disk.size.getD 0) 0).sum := by
      cases entry with
      | none => simp [contribution]
      | some disk => simp [contribution]
    rw [hsum, List.sum_cons, add_div, Int.cast_add]
    exact add_le_add hbound hle

/-- The recorded sizes are those of the config, and their total is no more than it, exactly if no
disk that is no CD-ROM has a size that the parser takes for another. -/
theorem disk_sizes_right_iff {py : Python} {tables : SizeTables} {config : Json.Fields}
    {bytes : List ℚ} (h : List.Forall₂ (Describes tables) config bytes) :
    (AllRecorded py tables config ∧
      ∃ total, diskMb py tables config = some total ∧ (total : ℚ) ≤ bytes.sum / 2 ^ 20) ↔
    ∀ kv ∈ config, isDiskKey tables kv.1 = true → ∀ raw n u, kv.2 = .str raw → Sized raw n u →
      isCdrom py (diskInfo kv.1 raw) = true ∨ Exact n u := by
  constructor
  · rintro ⟨hall, _⟩ kv hkv hkey raw n u hraw hsized
    exact (recorded_iff hkey hsized).mp (hall kv hkv hkey raw n u hraw hsized)
  · intro hexact
    have hall : AllRecorded py tables config := fun kv hkv hkey raw n u hraw hsized =>
      (recorded_iff hkey hsized).mpr (hexact kv hkv hkey raw n u hraw hsized)
    exact ⟨hall, diskMb_le h hall⟩

theorem disk_sizes_right_iff_gib :
    let tables := SizeTables.ascii
    let config : Json.Fields := [("scsi0", .str "local:vm-1,size=32G,ssd=1"), ("cores", .int 2)]
    AllRecorded Python.ascii tables config ∧ ∃ total, diskMb Python.ascii tables config =
      some total ∧ (total : ℚ) ≤ [(32 * 2 ^ 30 : ℚ), 0].sum / 2 ^ 20 := by
  intro tables config
  let n : Decimal := ⟨['3', '2'], [], by decide, List.all_eq_true.mp (by decide)⟩
  have hvalue : n.value = (32 : ℕ) := n.value_of_whole rfl
  have hsized : Sized "local:vm-1,size=32G,ssd=1" n .gibi :=
    ⟨"local:vm-1".toList, [], ["ssd=1".toList], by decide, by decide, by
      intro part hpart v hoption
      have hssd : option "ssd=1".toList = some ("ssd", "1") := by decide +kernel
      rw [List.mem_singleton.mp hpart, hssd] at hoption
      have hname : "ssd" = "size" := congrArg Prod.fst (Option.some.inj hoption)
      exact absurd hname (by decide)⟩
  have hdescribes : List.Forall₂ (Describes tables) config [32 * 2 ^ 30, 0] :=
    .cons (.inl ⟨n, .gibi, hsized, by rw [hvalue]; norm_num [SizeUnit.scale]⟩) (.cons rfl .nil)
  refine (disk_sizes_right_iff hdescribes).mpr ?_
  intro kv hkv hkey raw n' u hraw hsized'
  rcases List.mem_cons.mp hkv with rfl | hkv
  · obtain rfl := Json.str.inj hraw
    have hread : Dict.get "size" (diskInfo "scsi0" _) = _ := get_size_of_sized hsized
    have htext := (get_size_of_sized hsized').symm.trans hread
    obtain ⟨rfl, rfl⟩ := text_inj (String.ofList_injective (Option.some.inj htext))
    have hfinite : (32 : ℚ) * 2 ^ 10 < 2 ^ 1024 := by
      rw [show (32 : ℚ) * 2 ^ 10 = 2 ^ 15 by norm_num]
      exact pow_lt_pow_right₀ (by norm_num) (by norm_num)
    refine .inr ⟨32, ?_, hfinite, fun m => by rw [hvalue]; norm_num⟩
    rw [hvalue]
    exact_mod_cast Binary64.nearest_natCast (m := 32) (by norm_num)
  · rw [List.mem_singleton.mp hkv] at hraw
    cases hraw

/-- A firmware disk of 128 KiB counts as 128 MiB. -/
theorem kib_counted_as_mib :
    diskMb Python.ascii SizeTables.ascii [("efidisk0", .str "local:vm-1,size=128K")] = some 128 ∧
      ¬ ∀ (key raw : String) n u, isDiskKey SizeTables.ascii key = true → Sized raw n u →
        Recorded Python.ascii SizeTables.ascii key raw n u := by
  refine ⟨by decide +kernel, fun h => ?_⟩
  let n : Decimal := ⟨['1', '2', '8'], [], by decide, List.all_eq_true.mp (by decide)⟩
  have hright := h "efidisk0" "local:vm-1,size=128K" n .kibi (by decide)
    ⟨"local:vm-1".toList, [], [], by decide, by decide, by simp⟩
  have hparsed : parseDiskEntry Python.ascii SizeTables.ascii "efidisk0"
      (.str "local:vm-1,size=128K") = some (some ⟨"efidisk0", "local:vm-1,size=128K", some 128,
        some "local:vm-1", some "local", none, some "Storage: local"⟩) := by decide +kernel
  rw [Recorded, hparsed, RightSize] at hright
  have hcdrom : isCdrom Python.ascii (diskInfo "efidisk0" "local:vm-1,size=128K") = false := by
    decide +kernel
  simp only [hcdrom, Bool.false_eq_true, if_false, Option.some.injEq] at hright
  have hvalue : n.value = (128 : ℕ) := n.value_of_whole rfl
  have hwhole : wholeMb n .kibi = 0 := by
    rw [wholeMb, hvalue]
    norm_num [SizeUnit.scale]
  exact hright.1 hwhole

end ProxboxApi.Disks
