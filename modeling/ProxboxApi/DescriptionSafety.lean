import Mathlib
import ProxboxApi.DescriptionMetadata
import ProxboxApi.PayloadFields
import ProxboxApi.VmidHelpers

/-! What a `netbox-metadata` block can change in the body of a NetBox VM. -/

namespace ProxboxApi.DescriptionMetadata

open ProxboxApi.VmQueue

/-- A line that opens a fence, whatever whitespace is around it. -/
def opensFence (line : Line) : Bool := isFenceName (Text.stripChars Text.isSpace line)

def closesFence (line : Line) : Bool := Text.stripChars Text.isSpace line = ['`', '`', '`']

/-- The lines outside the fenced blocks and the blocks: each from an opening line to the first
closing line below it. -/
def blocks (text : String) : List Line × List Fence :=
  scan opensFence (fun _ line => closesFence line) none (lines text)

/-- The pattern reads the block: no other whitespace than blanks is around its fence lines, and
there is a line between them. -/
def Readable (fence : Fence) : Prop :=
  isOpening fence.opening = true ∧ fence.body ≠ [] ∧ isClosing fence.closing = true

/-- There is a fenced block. -/
def HasFence (ls : List Line) : Prop :=
  ¬ ls.Pairwise fun opening closing => opensFence opening = true → closesFence closing = false

section Lines

variable {line : Line} {ls : List Line}

theorem isSpace_of_isBlank (c : Char) (h : isBlank c = true) : Text.isSpace c = true := by
  simp only [isBlank, Bool.or_eq_true, decide_eq_true_eq] at h
  rcases h with rfl | rfl
  · decide
  · decide

theorem strip_dropCr (line : Line) :
    Text.stripChars Text.isSpace (dropCr line) = Text.stripChars Text.isSpace line := by
  unfold dropCr
  split
  · rename_i hlast
    have hline : line = line.dropLast ++ ['\r'] := by
      rw [List.getLast?_eq_some_iff] at hlast
      obtain ⟨init, rfl⟩ := hlast
      rw [List.dropLast_concat]
    have hpad : ∀ c ∈ ['\r'], Text.isSpace c = true := List.forall_mem_singleton.mpr (by decide)
    have hnil : ∀ c ∈ ([] : List Char), Text.isSpace c = true := by simp
    conv_rhs => rw [hline]
    exact (Text.stripChars_pad hnil (s := line.dropLast) hpad).symm
  · rfl

/-- The text of a fence line has nothing to strip. -/
theorem strip_of_isFenceName {s : List Char} (h : isFenceName s = true) :
    Text.stripChars Text.isSpace s = s := by
  simp only [isFenceName, Bool.and_eq_true, decide_eq_true_eq] at h
  obtain ⟨hticks, hname⟩ := h
  have hhead : s.head? = some '`' := by
    rw [← List.take_append_drop 3 s, hticks]
    rfl
  obtain ⟨pad, hpad⟩ := List.dropWhile_suffix isBlank (l := s.drop 3)
  have hlast : ∃ c, s.getLast? = some c ∧ c.toLower = 'a' := by
    have hmap := congrArg List.getLast? hname
    rw [List.getLast?_map] at hmap
    obtain ⟨c, hc, hlower⟩ := Option.map_eq_some_iff.mp
      (hmap.trans (by decide : _ = some 'a'))
    refine ⟨c, ?_, hlower⟩
    rw [← List.take_append_drop 3 s, ← hpad, List.getLast?_append, List.getLast?_append, hc]
    rfl
  obtain ⟨c, hc, hlower⟩ := hlast
  have hspace : Text.isSpace c = false := by
    unfold Char.toLower at hlower
    split at hlower
    · rename_i hupper
      have hlow : 65 ≤ c.toNat := hupper.1
      have hhigh : c.toNat ≤ 90 := hupper.2
      simp only [Text.isSpace, Bool.or_eq_false_iff, Bool.and_eq_false_imp, decide_eq_true_eq,
        decide_eq_false_iff_not]
      omega
    · rw [hlower]
      decide
  exact Text.stripChars_of_ends hhead hc (by decide) hspace

theorem opensFence_of_isOpening (h : isOpening line = true) : opensFence line = true := by
  unfold isOpening at h
  have hstrip := strip_of_isFenceName h
  rw [Text.stripChars_of_le isSpace_of_isBlank, strip_dropCr] at hstrip
  rwa [opensFence, hstrip]

theorem closesFence_of_isClosing (h : isClosing line = true) : closesFence line = true := by
  simp only [isClosing, closesFence, decide_eq_true_eq] at h ⊢
  rw [← Text.stripChars_of_le isSpace_of_isBlank, h]
  decide

/-- Lines without a fence that opens, or without one that closes it, stay as they are. -/
theorem scan_of_not_closed {opens : Line → Bool} {closes : ℕ → Line → Bool}
    (h : ∀ line ∈ ls, ∀ n, closes n line = false) (opening : Line) (body : List Line) :
    scan opens closes none ls = (ls, []) ∧
      scan opens closes (some (opening, body)) ls = (opening :: (body ++ ls), []) := by
  induction ls generalizing opening body with
  | nil => simp [scan]
  | cons line ls ih =>
    obtain ⟨hline, hrest⟩ := List.forall_mem_cons.mp h
    constructor
    · rw [scan]
      split
      · exact (ih hrest line []).2
      · rw [(ih hrest line []).1]
    · rw [scan, hline]
      have hlater := (ih hrest opening (body ++ [line])).2
      rw [List.append_assoc] at hlater
      exact hlater

/-- A fence that is open is closed by the first line that closes one. -/
theorem exists_fence_of_closed {opens : Line → Bool} {closes : ℕ → Line → Bool}
    (h : ∃ line ∈ ls, ∀ n, closes n line = true) (opening : Line) (body : List Line) :
    ∃ fence ∈ (scan opens closes (some (opening, body)) ls).2, fence.opening = opening := by
  induction ls generalizing body with
  | nil =>
    obtain ⟨line, hline, _⟩ := h
    cases hline
  | cons line ls ih =>
    rw [scan]
    split
    · exact ⟨_, .head _, rfl⟩
    · rename_i hopen
      obtain ⟨line', hline', hcloses⟩ := h
      rcases List.mem_cons.mp hline' with rfl | hline'
      · exact absurd (hcloses body.length) hopen
      · exact ih ⟨line', hline', hcloses⟩ (body ++ [line])

/-- Where every block is readable, the pattern finds the blocks. -/
theorem scan_eq_of_readable (ls : List Line) :
    ((∀ fence ∈ (scan opensFence (fun _ line => closesFence line) none ls).2, Readable fence) →
      scan isOpening (fun n line => 1 ≤ n && isClosing line) none ls =
        scan opensFence (fun _ line => closesFence line) none ls) ∧
    ∀ opening body, isOpening opening = true →
      (∀ fence ∈ (scan opensFence (fun _ line => closesFence line) (some (opening, body)) ls).2,
        Readable fence) →
      scan isOpening (fun n line => 1 ≤ n && isClosing line) (some (opening, body)) ls =
        scan opensFence (fun _ line => closesFence line) (some (opening, body)) ls := by
  induction ls with
  | nil => exact ⟨fun _ => rfl, fun _ _ _ _ => rfl⟩
  | cons line ls ih =>
    constructor
    · intro h
      rw [scan] at h ⊢
      conv_rhs => rw [scan]
      by_cases hopens : opensFence line = true
      · rw [if_pos hopens] at h ⊢
        by_cases hopening : isOpening line = true
        · rw [if_pos hopening]
          exact ih.2 line [] hopening h
        -- a line that only the wider reading opens has no closing line below
        · rw [if_neg hopening]
          have hnone : ∀ line' ∈ ls, ∀ n : ℕ, closesFence line' = false := by
            intro line' hline' _
            by_contra hcloses
            have hclosed : ∃ line ∈ ls, ∀ _ : ℕ, closesFence line = true :=
              ⟨line', hline', fun _ => by simpa using hcloses⟩
            obtain ⟨fence, hfence, hat⟩ := @exists_fence_of_closed ls opensFence
              (fun _ line => closesFence line) hclosed line []
            exact hopening (hat ▸ (h fence hfence).1)
          have hnone' : ∀ line' ∈ ls, ∀ n : ℕ, (1 ≤ n && isClosing line') = false := by
            intro line' hline' n
            rw [Bool.and_eq_false_imp]
            intro _
            by_contra hcloses
            have := closesFence_of_isClosing (by simpa using hcloses)
            rw [hnone line' hline' 0] at this
            cases this
          rw [(scan_of_not_closed hnone' line []).1, (scan_of_not_closed hnone line []).2]
          rfl
      · rw [if_neg hopens] at h ⊢
        rw [if_neg fun hopening => hopens (opensFence_of_isOpening hopening), ih.1 h]
    · intro opening body hopening h
      rw [scan] at h ⊢
      conv_rhs => rw [scan]
      by_cases hcloses : closesFence line = true
      · rw [if_pos hcloses] at h ⊢
        obtain ⟨⟨_, hbody, hclosing⟩, hrest⟩ := List.forall_mem_cons.mp h
        have hlength : 1 ≤ body.length := List.length_pos_of_ne_nil hbody
        rw [if_pos (by simp [hlength, hclosing]), ih.1 hrest]
      · rw [if_neg hcloses] at h ⊢
        rw [if_neg, ih.2 opening (body ++ [line]) hopening h]
        intro hboth
        rw [Bool.and_eq_true] at hboth
        exact hcloses (closesFence_of_isClosing hboth.2)

/-- The lines outside the blocks hold no block. -/
theorem outside_pairwise (ls : List Line) :
    (scan opensFence (fun _ line => closesFence line) none ls).1.Pairwise
      (fun opening closing => opensFence opening = true → closesFence closing = false) ∧
    ∀ opening body, (∀ line ∈ body, closesFence line = false) →
      (scan opensFence (fun _ line => closesFence line) (some (opening, body)) ls).1.Pairwise
        fun opening closing => opensFence opening = true → closesFence closing = false := by
  have hopen : ∀ (opening : Line) (body : List Line), (∀ line ∈ body, closesFence line = false) →
      (opening :: body).Pairwise
        fun opening closing => opensFence opening = true → closesFence closing = false :=
    fun opening body hbody => List.pairwise_cons.mpr ⟨fun line hline _ => hbody line hline,
      List.Pairwise.imp_of_mem (R := fun _ _ => True)
        (fun {_ b} _ hb _ _ => hbody b hb) (List.pairwise_of_forall fun _ _ => trivial)⟩
  induction ls with
  | nil => exact ⟨.nil, fun opening body hbody => hopen opening body hbody⟩
  | cons line ls ih =>
    constructor
    · rw [scan]
      split
      · exact ih.2 line [] (by simp)
      · rename_i hno
        exact List.pairwise_cons.mpr ⟨fun _ _ hopens => absurd hopens hno, ih.1⟩
    · intro opening body hbody
      rw [scan]
      split
      · exact List.pairwise_cons.mpr ⟨fun _ _ hopens => absurd hopens (by decide), ih.1⟩
      · rename_i hno
        refine ih.2 opening (body ++ [line]) ?_
        rw [List.forall_mem_append, List.forall_mem_singleton]
        exact ⟨hbody, by simpa using hno⟩

theorem outside_mem (ls : List Line) :
    ((∀ line ∈ (scan opensFence (fun _ line => closesFence line) none ls).1,
        line ∈ ls ∨ line = []) ∧
      (ls ≠ [] → (scan opensFence (fun _ line => closesFence line) none ls).1 ≠ [])) ∧
    ∀ opening body,
      (∀ line ∈ (scan opensFence (fun _ line => closesFence line) (some (opening, body)) ls).1,
        line ∈ opening :: (body ++ ls) ∨ line = []) ∧
      (scan opensFence (fun _ line => closesFence line) (some (opening, body)) ls).1 ≠ [] := by
  induction ls with
  | nil =>
    refine ⟨⟨by simp [scan], by simp⟩, fun opening body => ⟨fun line hline => .inl ?_, by simp [scan]⟩⟩
    rwa [List.append_nil]
  | cons line ls ih =>
    constructor
    · rw [scan]
      split
      · obtain ⟨hmem, hne⟩ := ih.2 line []
        exact ⟨hmem, fun _ => hne⟩
      · refine ⟨List.forall_mem_cons.mpr ⟨.inl (.head _), fun line' hline' => ?_⟩, by simp⟩
        exact (ih.1.1 line' hline').imp_left (.tail _)
    · intro opening body
      rw [scan]
      split
      · refine ⟨List.forall_mem_cons.mpr ⟨.inr rfl, fun line' hline' => ?_⟩, by simp⟩
        refine (ih.1.1 line' hline').imp_left fun hmem => ?_
        simp [hmem]
      · obtain ⟨hmem, hne⟩ := ih.2 opening (body ++ [line])
        rw [List.append_assoc] at hmem
        exact ⟨hmem, hne⟩

end Lines

section Text

/-- The lines of a text without the whitespace around them. -/
def bareLines (t : List Char) : List Line :=
  (t.splitOn '\n').map (Text.stripChars Text.isSpace)

theorem splitOn_newline_cons (t : List Char) :
    ('\n' :: t).splitOn '\n' = [] :: t.splitOn '\n' := by
  rw [List.splitOn_eq_splitOnP, List.splitOnP_cons_eq_if_modifyHead, if_pos (by simp)]
  rfl

theorem splitOn_cons_of_ne {c : Char} (hc : c ≠ '\n') (t : List Char) :
    ∃ line ls, t.splitOn '\n' = line :: ls ∧ (c :: t).splitOn '\n' = (c :: line) :: ls := by
  obtain ⟨line, ls, ht⟩ := List.exists_cons_of_ne_nil (List.splitOnP_ne_nil (· == '\n') t)
  refine ⟨line, ls, ht, ?_⟩
  rw [List.splitOn_eq_splitOnP, List.splitOnP_cons_eq_if_modifyHead, if_neg (by simpa using hc), ht]
  rfl

theorem strip_append_pad {t pad : List Char} (h : ∀ c ∈ pad, Text.isSpace c = true) :
    Text.stripChars Text.isSpace (t ++ pad) = Text.stripChars Text.isSpace t :=
  Text.stripChars_pad (s := t) (fun _ hc => absurd hc List.not_mem_nil) h

theorem strip_cons_pad {c : Char} {t : List Char} (h : Text.isSpace c = true) :
    Text.stripChars Text.isSpace (c :: t) = Text.stripChars Text.isSpace t := by
  have hc : ∀ d ∈ [c], Text.isSpace d = true := by simpa using h
  have hnil : ∀ d ∈ ([] : List Char), Text.isSpace d = true := by simp
  have hpad := Text.stripChars_pad hc (s := t) hnil
  rwa [List.append_nil] at hpad

/-- Whitespace before a text adds lines before its lines. -/
theorem bareLines_left {left : List Char} (h : ∀ c ∈ left, Text.isSpace c = true) (t : List Char) :
    (bareLines t).Sublist (bareLines (left ++ t)) := by
  induction left with
  | nil => exact List.Sublist.refl _
  | cons c left ih =>
    obtain ⟨hc, hleft⟩ := List.forall_mem_cons.mp h
    refine (ih hleft).trans ?_
    rw [List.cons_append]
    by_cases hnewline : c = '\n'
    · subst hnewline
      rw [bareLines, bareLines, splitOn_newline_cons]
      exact List.sublist_cons_self _ _
    · obtain ⟨line, ls, ht, hct⟩ := splitOn_cons_of_ne hnewline (left ++ t)
      rw [bareLines, bareLines, ht, hct, List.map_cons, List.map_cons, strip_cons_pad hc]

theorem splitOn_append_pad {right : List Char} (h : ∀ c ∈ right, Text.isSpace c = true)
    (t : List Char) : ∃ init last pad more, t.splitOn '\n' = init ++ [last] ∧
      (t ++ right).splitOn '\n' = init ++ (last ++ pad) :: more ∧
        ∀ c ∈ pad, Text.isSpace c = true := by
  induction t with
  | nil =>
    obtain ⟨pad, more, hsplit⟩ : ∃ pad more, right.splitOn '\n' = pad :: more :=
      List.exists_cons_of_ne_nil (List.splitOnP_ne_nil _ right)
    have hmem : pad ∈ right.splitOn '\n' := hsplit ▸ .head _
    exact ⟨[], [], pad, more, by simp, hsplit, fun c hc => h c ((Text.of_mem_splitOn hmem).2 c hc)⟩
  | cons c t ih =>
    obtain ⟨init, last, pad, more, ht, htr, hpad⟩ := ih
    rw [List.cons_append]
    by_cases hnewline : c = '\n'
    · subst hnewline
      refine ⟨[] :: init, last, pad, more, ?_, ?_, hpad⟩
      · rw [splitOn_newline_cons, ht, List.cons_append]
      · rw [splitOn_newline_cons, htr, List.cons_append]
    · obtain ⟨line, ls, hsplit, hcsplit⟩ := splitOn_cons_of_ne hnewline t
      obtain ⟨line', ls', hsplit', hcsplit'⟩ := splitOn_cons_of_ne hnewline (t ++ right)
      rw [hsplit] at ht
      rw [hsplit'] at htr
      cases init with
      | nil =>
        obtain ⟨rfl, rfl⟩ := List.cons.inj ht
        obtain ⟨rfl, rfl⟩ := List.cons.inj htr
        exact ⟨[], c :: line, pad, ls', hcsplit, hcsplit', hpad⟩
      | cons first init =>
        obtain ⟨hline, hls⟩ := List.cons.inj ht
        obtain ⟨hline', hls'⟩ := List.cons.inj htr
        exact ⟨(c :: first) :: init, last, pad, more,
          by rw [hcsplit, hline, hls]; rfl,
          by rw [hcsplit', hline', hls']; rfl, hpad⟩

/-- Whitespace behind a text adds lines behind its lines. -/
theorem bareLines_right {right : List Char} (h : ∀ c ∈ right, Text.isSpace c = true)
    (t : List Char) : (bareLines t).Sublist (bareLines (t ++ right)) := by
  obtain ⟨init, last, pad, more, ht, htr, hpad⟩ := splitOn_append_pad h t
  rw [bareLines, bareLines, ht, htr, List.map_append, List.map_append, List.map_cons,
    List.map_cons, strip_append_pad hpad]
  exact (List.Sublist.refl _).append (List.Sublist.cons_cons _ (List.nil_sublist _))

theorem bareLines_strip (t : List Char) :
    (bareLines (Text.stripChars Text.isSpace t)).Sublist (bareLines t) := by
  obtain ⟨left, right, ht, hleft, hright⟩ := Text.exists_pad Text.isSpace t
  conv_rhs => rw [ht]
  exact (bareLines_right hright _).trans (bareLines_left hleft _)

theorem hasFence_iff_bare (t : List Char) : HasFence (t.splitOn '\n') ↔
    ¬ (bareLines t).Pairwise fun opening closing =>
      isFenceName opening = true → closing ≠ ['`', '`', '`'] := by
  rw [HasFence, bareLines, List.pairwise_map]
  simp only [opensFence, closesFence, decide_eq_false_iff_not, ne_eq]

/-- Stripping a text makes no fence. -/
theorem not_hasFence_strip {t : List Char} (h : ¬ HasFence (t.splitOn '\n')) :
    ¬ HasFence ((Text.stripChars Text.isSpace t).splitOn '\n') := by
  rw [hasFence_iff_bare, not_not] at h ⊢
  exact h.sublist (bareLines_strip t)

/-- The text outside the blocks, without the whitespace around it. -/
def outsideText (text : String) : String := Text.strip (joined (blocks text).1)

theorem not_hasFence_outsideText (text : String) : ¬ HasFence (lines (outsideText text)) := by
  have hnewline : ∀ line ∈ (blocks text).1, '\n' ∉ line := by
    intro line hline
    rcases (outside_mem (lines text)).1.1 line hline with hmem | rfl
    · exact (Text.of_mem_splitOn hmem).1
    · simp
  have hne : (blocks text).1 ≠ [] :=
    (outside_mem (lines text)).1.2 (List.splitOnP_ne_nil _ _)
  have hjoined : (joined (blocks text).1).toList.splitOn '\n' = (blocks text).1 := by
    rw [joined, String.toList_ofList, List.splitOn_intercalate _ hnewline hne]
  have hraw : ¬ HasFence ((joined (blocks text).1).toList.splitOn '\n') := by
    rw [hjoined, HasFence, not_not]
    exact (outside_pairwise (lines text)).1
  have hstrip := not_hasFence_strip hraw
  rwa [lines, outsideText, Text.strip, String.toList_ofList]

end Text

/-- The fields that a block is meant to override. -/
def foreignKeys : List String := ["cluster", "device", "site", "role", "virtual_machine_type"]

/-- The other fields that take an integer. -/
def numericFields : List String := ["status", "vcpus", "memory", "disk"]

/-- What a positive integer makes of such a field; no number is a status. -/
def overridden (k : String) (n : ℤ) : Json := if k = "status" then .str "active" else .int n

/-- The override is of a foreign key, or changes nothing. -/
def Allowed (body : VmBody) (k : String) (n : ℤ) : Prop :=
  k ∈ foreignKeys ∨ k ∈ numericFields ∧ Dict.get k body.dump = some (overridden k n)

/-- The bodies differ at most in the foreign keys and in the description. -/
def SameBut (body body' : VmBody) : Prop :=
  ∀ k ∈ bodyFields, k ∉ foreignKeys → k ≠ "description" →
    Dict.get k body'.dump = Dict.get k body.dump

section Body

variable {py : Python} {payload : Json.Fields} {k : String} {n : ℤ}

theorem normalizeStatus_int (hn : 0 < n) : normalizeStatus py (.int n) = .active := by
  have htruthy : Python.truthy (.int n) = true := by simpa [Python.truthy] using hn.ne'
  obtain ⟨m, rfl⟩ := Int.eq_ofNat_of_zero_le hn.le
  have htext : (toString (m : ℤ)) = toString m := rfl
  have hdigits : ∀ c ∈ (toString m).toList, c.isDigit = true :=
    fun c hc => Text.isDigit_of_mem_toString hc
  have hrange : ∀ c ∈ (toString m).toList, 48 ≤ c.toNat ∧ c.toNat ≤ 57 := by
    intro c hc
    have hdigit := hdigits c hc
    simp only [Char.isDigit, Bool.and_eq_true, decide_eq_true_eq] at hdigit
    exact ⟨hdigit.1, hdigit.2⟩
  have hlower : py.lower (toString m) = toString m := by
    rw [py.lower_ascii _ fun c hc => by have := hrange c hc; omega]
    have hsame : (toString m).toList.map Char.toLower = (toString m).toList := by
      refine (List.map_congr_left fun c hc => ?_).trans (List.map_id _)
      rw [Char.toLower, dif_neg]
      · rfl
      · rintro ⟨hle, _⟩
        have hletter : 65 ≤ c.toNat := hle
        have := hrange c hc
        omega
    rw [hsame, String.ofList_toList]
  have hnot : ∀ name : String, (∃ c ∈ name.toList, c.isDigit = false) → toString m ≠ name := by
    rintro name ⟨c, hc, hletter⟩ rfl
    rw [hdigits c hc] at hletter
    cases hletter
  unfold normalizeStatus fromProxmox
  rw [if_pos htruthy]
  simp only [htruthy, if_true, Python.str]
  rw [htext, ← htext, Vmid.strip_toString, htext, hlower, VmStatus.ofText]
  have hoffline : toString m ∉ ["stopped", "paused", "offline"] := by
    simp only [List.mem_cons, List.not_mem_nil, or_false, not_or]
    exact ⟨hnot _ ⟨'s', by decide⟩, hnot _ ⟨'p', by decide⟩, hnot _ ⟨'o', by decide⟩⟩
  rw [if_neg hoffline, if_neg (hnot _ ⟨'p', by decide⟩)]
  split
  · rfl
  · rfl

/-- A positive integer is taken by the foreign keys and by the numeric fields. -/
theorem override_field (hk : k ∈ bodyFields) (hn : 0 < n)
    (hget : Dict.get k payload = some (.int n)) :
    (FieldOk py k payload ↔ k ∈ foreignKeys ∨ k ∈ numericFields) ∧
      (k ∈ numericFields → normalField py k payload = some (overridden k n)) := by
  have hfield : field k payload = .int n := by rw [field, hget]; rfl
  have hrelation : ∀ {k}, Dict.get k payload = some (.int n) →
      ∃ relation, relationField py k payload = some relation := fun hget =>
    ⟨_, relationField_int py (n := ⟨n, hn⟩) hget⟩
  simp only [bodyFields, List.mem_cons, List.not_mem_nil, or_false] at hk
  rcases hk with rfl | rfl | rfl | rfl | rfl | rfl | rfl | rfl | rfl | rfl | rfl | rfl | rfl
  · simp [FieldOk, foreignKeys, numericFields, hfield, nameField]
  · simp [FieldOk, foreignKeys, numericFields, hget, normalField, hfield, normalizeStatus_int hn,
      overridden, VmStatus.text]
  · simpa [FieldOk, foreignKeys, numericFields] using hrelation hget
  · simpa [FieldOk, foreignKeys, numericFields] using hrelation hget
  · simpa [FieldOk, foreignKeys, numericFields] using hrelation hget
  · simpa [FieldOk, foreignKeys, numericFields] using hrelation hget
  · simpa [FieldOk, foreignKeys, numericFields] using hrelation hget
  · simp [FieldOk, foreignKeys, numericFields, normalField, hfield, coerceOptionalVcpus, Python.int,
      overridden, hn.ne']
  · simp [FieldOk, foreignKeys, numericFields, normalField, hfield, coerceNullableVmInts,
      Python.int, overridden]
  · simp [FieldOk, foreignKeys, numericFields, normalField, hfield, coerceNullableVmInts,
      Python.int, overridden]
  · simp [FieldOk, foreignKeys, numericFields, hfield, tagItems]
  · simp [FieldOk, foreignKeys, numericFields, customFieldsField, hget]
  · simp [FieldOk, foreignKeys, numericFields, hfield, descriptionField]

variable {input : VmInput} {body : VmBody} {description : String} {applied : List (String × ℤ)}

theorem get_bodyKwargs (hk : k ∈ bodyFields) (description' : String) :
    (k = "description" ∧ Dict.get k (bodyKwargs input description) = some (.str description)) ∨
      (k ≠ "description" ∧ Dict.get k (bodyKwargs input description) =
        Dict.get k (bodyKwargs input description')) := by
  simp only [bodyFields, List.mem_cons, List.not_mem_nil, or_false] at hk
  rcases hk with rfl | rfl | rfl | rfl | rfl | rfl | rfl | rfl | rfl | rfl | rfl | rfl | rfl
  all_goals simp [bodyKwargs, Dict.get]

theorem get_map_int (k : String) (applied : List (String × ℤ)) :
    Dict.get k (applied.map fun kv => (kv.1, Json.int kv.2)) = (Dict.get k applied).map .int := by
  induction applied with
  | nil => rfl
  | cons kv applied ih =>
    simp only [List.map_cons, Dict.get]
    split
    · rfl
    · exact ih

/-- The overrides are taken over as they are. -/
theorem get_overridden (hnodup : (Dict.keys applied).Nodup) :
    Dict.get k (Dict.update (bodyKwargs input description)
      (applied.map fun kv => (kv.1, .int kv.2))) =
        ((Dict.get k applied).map .int).or (Dict.get k (bodyKwargs input description)) := by
  have hkeys : Dict.keys (applied.map fun kv => (kv.1, Json.int kv.2)) = Dict.keys applied := by
    simp [Dict.keys]
  rw [Dict.get_update (hkeys ▸ hnodup), get_map_int]

/-- The overrides leave a body that differs only in foreign keys if and only if they are all
allowed. -/
theorem validate_overridden_iff
    (hbase : validate py (bodyKwargs input (defaultDescription input)) = some body)
    (hnodup : (Dict.keys applied).Nodup) (hpos : ∀ kv ∈ applied, 0 < kv.2)
    (hknown : ∀ kv ∈ applied, kv.1 ∈ bodyFields) :
    (∃ body', validate py (Dict.update (bodyKwargs input description)
        (applied.map fun kv => (kv.1, .int kv.2))) = some body' ∧ SameBut body body' ∧
          Dict.get "description" body'.dump = some (.str description)) ↔
      ∀ kv ∈ applied, Allowed body kv.1 kv.2 := by
  obtain ⟨_, hok, hdump, _⟩ := validate_some py hbase
  constructor
  · rintro ⟨body', hbody', hsame, _⟩ ⟨k, n⟩ hkv
    obtain ⟨_, hok', hdump', _⟩ := validate_some py hbody'
    have hk := hknown _ hkv
    have hget : Dict.get k (Dict.update (bodyKwargs input description)
        (applied.map fun kv => (kv.1, .int kv.2))) = some (.int n) := by
      rw [get_overridden hnodup, Dict.get_of_mem hnodup hkv]
      rfl
    obtain ⟨hallowed, hvalue⟩ : (FieldOk py k _ ↔ _) ∧ _ := override_field hk (hpos _ hkv) hget
    obtain hforeign | hnumeric := hallowed.mp (hok' k hk)
    · exact .inl hforeign
    · have hboth : k ∉ foreignKeys ∧ k ≠ "description" := by
        simp only [numericFields, List.mem_cons, List.not_mem_nil, or_false] at hnumeric
        rcases hnumeric with rfl | rfl | rfl | rfl <;> decide
      exact .inr ⟨hnumeric, by rw [← hsame k hk hboth.1 hboth.2, hdump' k hk, hvalue hnumeric]⟩
  · intro hallowed
    let payload := Dict.update (bodyKwargs input description)
      (applied.map fun kv => (kv.1, Json.int kv.2))
    have hfields : ∀ k ∈ bodyFields, FieldOk py k payload ∧
        (k ∉ foreignKeys → k ≠ "description" →
          normalField py k payload = Dict.get k body.dump) ∧
        (k = "description" → Dict.get k payload = some (.str description)) := by
      intro k hk
      have hget := @get_overridden k input description applied hnodup
      cases hover : Dict.get k applied with
      | some n =>
        rw [hover] at hget
        have hkv := Dict.mem_of_get hover
        obtain ⟨hiff, hvalue⟩ : (FieldOk py k payload ↔ _) ∧ _ :=
          override_field hk (hpos _ hkv) hget
        obtain hforeign | ⟨hnumeric, hsame⟩ := hallowed _ hkv
        · refine ⟨hiff.mpr (.inl hforeign), fun hno => absurd hforeign hno, ?_⟩
          rintro rfl
          have hnot : "description" ∉ foreignKeys := by decide
          exact absurd hforeign hnot
        · refine ⟨hiff.mpr (.inr hnumeric), fun _ _ => by rw [hvalue hnumeric, hsame], ?_⟩
          rintro rfl
          have hnot : "description" ∉ numericFields := by decide
          exact absurd hnumeric hnot
      | none =>
        rw [hover, Option.map_none, Option.none_or] at hget
        obtain ⟨rfl, hdescription⟩ | ⟨hne, hsame⟩ :=
          @get_bodyKwargs k input description hk (defaultDescription input)
        · have hfield : field "description" payload = .str description := by
            rw [field, hget, hdescription]
            rfl
          exact ⟨by simp [FieldOk, hfield, descriptionField], fun _ hne => absurd rfl hne,
            fun _ => hget.trans hdescription⟩
        · obtain ⟨hnormal, hiff⟩ := normalField_congr py hk (hget.trans hsame)
          exact ⟨hiff.mpr (hok k hk), fun _ _ => hnormal.trans (hdump k hk).symm,
            fun heq => absurd heq hne⟩
    have hkeys : ∀ kv ∈ payload, kv.1 ∈ bodyFields := by
      intro kv hkv
      rcases Dict.mem_update hkv with hkv | hkv
      · have hall : ∀ kv ∈ bodyKwargs input description, kv.1 ∈ bodyFields := by
          simp [bodyKwargs, bodyFields]
        exact hall kv hkv
      · obtain ⟨kv', hkv', rfl⟩ := List.mem_map.mp hkv
        exact hknown kv' hkv'
    obtain ⟨body', hbody'⟩ := validate_of_fieldOk py hkeys fun k hk => (hfields k hk).1
    obtain ⟨_, _, hdump', _⟩ := validate_some py hbody'
    refine ⟨body', hbody', fun k hk hno hne => ?_, ?_⟩
    · rw [hdump' k hk, (hfields k hk).2.1 hno hne]
    · have hmem : "description" ∈ bodyFields := by decide
      have hfield : field "description" payload = .str description := by
        rw [field, (hfields _ hmem).2.2 rfl]
        rfl
      rw [hdump' _ hmem]
      simp [normalField, hfield, descriptionField]

end Body

variable {loads : String → Loaded} {py : Python} {input : VmInput}
  {flags : Option OverwriteFlags} {body : VmBody} {text : String}

/-- The description that is to be written. -/
def written (input : VmInput) (text : String) : String :=
  if outsideText text = "" then defaultDescription input else outsideText text

/-- The block of a description overrides only foreign keys and leaves the rest of the body and of
the description. -/
structure Honoured (loads : String → Loaded) (py : Python) (input : VmInput)
    (flags : Option OverwriteFlags) (text : String) (body : VmBody) : Prop where
  parsed : parseNetboxMetadata loads text = metadataOf loads (blocks text).2
  result : ∃ body', asNetboxCreateBody loads py input true flags = some body' ∧
    SameBut body body' ∧ Dict.get "description" body'.dump = some (.str (written input text))
  clean : ¬ HasFence (lines (written input text))

/-- The last block is no JSON that is nested too deeply, and it has no positive integer that
changes another field of the body; the placeholder, where it is written, holds no block. -/
structure Harmless (loads : String → Loaded) (input : VmInput) (flags : Option OverwriteFlags)
    (text : String) (body : VmBody) : Prop where
  allowed : ∃ metadata, metadataOf loads (blocks text).2 = some metadata ∧
    ∀ kv ∈ metadata, gated flags kv.1 = false → kv.1 ∈ bodyFields → Allowed body kv.1 kv.2
  placeholder : outsideText text = "" → ¬ HasFence (lines (defaultDescription input))

theorem fenceScan_eq (h : ∀ fence ∈ (blocks text).2, Readable fence) :
    fenceScan text = blocks text := (scan_eq_of_readable (lines text)).1 h

theorem blocks_empty : blocks "" = ([[]], []) := by
  have hlines : lines "" = [[]] := rfl
  rw [blocks, hlines]
  rfl

theorem parse_eq (h : ∀ fence ∈ (blocks text).2, Readable fence) :
    parseNetboxMetadata loads text = metadataOf loads (blocks text).2 := by
  unfold parseNetboxMetadata
  split
  · rename_i hempty
    rw [hempty, blocks_empty]
    rfl
  · rw [fenceScan_eq h]

theorem written_eq (input : VmInput) (h : ∀ fence ∈ (blocks text).2, Readable fence) :
    (match stripNetboxMetadata text with
      | some stripped => if stripped = "" then defaultDescription input else stripped
      | none => defaultDescription input) = written input text := by
  unfold stripNetboxMetadata written
  by_cases hempty : text = ""
  · have houtside : outsideText "" = "" := by
      rw [outsideText, blocks_empty]
      rfl
    simp [hempty, houtside]
  · rw [if_neg hempty, fenceScan_eq h, ← outsideText]
    by_cases houtside : outsideText text = ""
    · simp [houtside]
    · simp [houtside]

theorem resolve_eq (hdescription : input.description = some text)
    (h : ∀ fence ∈ (blocks text).2, Readable fence) :
    resolveDescriptionMetadata loads input flags =
      (metadataOf loads (blocks text).2).map fun parsed =>
        ((filterByOverwriteFlags parsed flags).filter fun kv => kv.1 ∈ bodyFields,
          written input text) := by
  rw [resolveDescriptionMetadata, hdescription, ← written_eq input h]
  exact congrArg (Option.map _) (parse_eq h)

theorem positiveInts_spec (fields : Json.Fields) :
    (Dict.keys (positiveInts fields)).Nodup ∧ ∀ kv ∈ positiveInts fields, 0 < kv.2 := by
  refine ⟨Dict.nodup_keys_update List.nodup_nil, fun kv hkv => ?_⟩
  rcases Dict.mem_update hkv with hkv | hkv
  · cases hkv
  · obtain ⟨⟨k, value⟩, _, hvalue⟩ := List.mem_filterMap.mp hkv
    split at hvalue
    · split at hvalue
      · rename_i hpos
        obtain rfl := Option.some.inj hvalue
        exact hpos
      · cases hvalue
    · cases hvalue

theorem metadataOf_spec {fences : List Fence} {metadata : List (String × ℤ)}
    (h : metadataOf loads fences = some metadata) :
    (Dict.keys metadata).Nodup ∧ ∀ kv ∈ metadata, 0 < kv.2 := by
  have hnil : (Dict.keys ([] : List (String × ℤ))).Nodup ∧
      ∀ kv ∈ ([] : List (String × ℤ)), 0 < kv.2 := by simp [Dict.keys]
  unfold metadataOf at h
  split at h
  · obtain rfl := Option.some.inj h
    exact hnil
  · simp only at h
    split at h
    · obtain rfl := Option.some.inj h
      exact hnil
    · split at h
      · obtain rfl := Option.some.inj h
        exact positiveInts_spec _
      · cases h
      · obtain rfl := Option.some.inj h
        exact hnil

/-- Where the pattern reads every block, the block is honoured if and only if it is harmless. -/
theorem block_honoured_iff (hbase : asNetboxCreateBody loads py input false flags = some body)
    (hdescription : input.description = some text)
    (hread : ∀ fence ∈ (blocks text).2, Readable fence) :
    Honoured loads py input flags text body ↔ Harmless loads input flags text body := by
  have hbase' : validate py (bodyKwargs input (defaultDescription input)) = some body := hbase
  have hclean : ¬ HasFence (lines (written input text)) ↔
      (outsideText text = "" → ¬ HasFence (lines (defaultDescription input))) := by
    unfold written
    by_cases houtside : outsideText text = ""
    · simp [houtside]
    · simpa [houtside] using not_hasFence_outsideText text
  have hresult : (∃ body', asNetboxCreateBody loads py input true flags = some body' ∧
      SameBut body body' ∧ Dict.get "description" body'.dump = some (.str (written input text))) ↔
      ∃ metadata, metadataOf loads (blocks text).2 = some metadata ∧
        ∀ kv ∈ metadata, gated flags kv.1 = false → kv.1 ∈ bodyFields →
          Allowed body kv.1 kv.2 := by
    rw [asNetboxCreateBody, if_pos rfl, resolve_eq hdescription hread]
    cases hmetadata : metadataOf loads (blocks text).2 with
    | none => simp
    | some metadata =>
      obtain ⟨hnodup, hpos⟩ := metadataOf_spec hmetadata
      simp only [Option.map_some, Option.bind_some]
      rw [validate_overridden_iff hbase']
      · simp only [Option.some.injEq, exists_eq_left', filterByOverwriteFlags, List.mem_filter,
          decide_eq_true_eq, Bool.not_eq_true', and_imp]
      · exact (Dict.keys_filter_sublist.trans Dict.keys_filter_sublist).nodup hnodup
      · exact fun kv hkv => hpos kv (List.mem_filter.mp (List.mem_filter.mp hkv).1).1
      · exact fun kv hkv => of_decide_eq_true (List.mem_filter.mp hkv).2
  constructor
  · intro h
    exact ⟨hresult.mp h.result, hclean.mp h.clean⟩
  · intro h
    exact ⟨parse_eq hread, hresult.mpr h.allowed, hclean.mpr h.placeholder⟩

/-- A VM without any relation. -/
def VmInput.sample (description : String) : VmInput :=
  { name := "vm1", status := "running", node := "pve1", description := some description
    clusterId := 1, deviceId := none, siteId := none, virtualMachineTypeId := none, roleId := none
    maxcpu := some 2, memoryMb := 2048, diskMb := 10240, tagIds := [], customFields := [] }

/-- `json.loads` of the object that gives this key the value 2. -/
def loadsKey (key text : String) : Loaded :=
  if text = "\x7b\"" ++ key ++ "\": 2\x7d" then .value (.obj [(key, .int 2)]) else .valueError

/-- The description with a block that gives this key the value 2. -/
def blockOf (key : String) : String :=
  "```netbox-metadata\n\x7b\"" ++ key ++ "\": 2\x7d\n```"

theorem block_honoured_iff_device :
    ∃ body, asNetboxCreateBody (loadsKey "device") Python.ascii (VmInput.sample (blockOf "device"))
      false none = some body ∧
    Honoured (loadsKey "device") Python.ascii (VmInput.sample (blockOf "device")) none
      (blockOf "device") body := by
  have hbase : (asNetboxCreateBody (loadsKey "device") Python.ascii
      (VmInput.sample (blockOf "device")) false none).isSome = true := by decide +kernel
  obtain ⟨body, hbody⟩ := Option.isSome_iff_exists.mp hbase
  have hread : ∀ fence ∈ (blocks (blockOf "device")).2, Readable fence := by
    unfold Readable
    decide +kernel
  refine ⟨body, hbody, (block_honoured_iff hbody rfl hread).mpr ⟨?_, fun _ => ?_⟩⟩
  · refine ⟨[("device", 2)], ?_, fun kv hkv _ _ => ?_⟩
    · have hparsed : (metadataOf (loadsKey "device") (blocks (blockOf "device")).2) =
        some [("device", 2)] := by decide +kernel
      exact hparsed
    · obtain rfl := List.mem_singleton.mp hkv
      have hforeign : "device" ∈ foreignKeys := by decide
      exact .inl hforeign
  · have hlines : lines (defaultDescription (VmInput.sample (blockOf "device"))) =
        ["Synced from Proxmox node pve1".toList] := by decide +kernel
    rw [hlines, HasFence, not_not]
    exact List.pairwise_singleton _ _

/-- A positive integer under a field that is no relation makes the body invalid. -/
theorem name_override_raises :
    (asNetboxCreateBody (loadsKey "name") Python.ascii (VmInput.sample (blockOf "name"))
      false none).isSome = true ∧
    asNetboxCreateBody (loadsKey "name") Python.ascii (VmInput.sample (blockOf "name"))
      true none = none := by
  have hraises : (asNetboxCreateBody (loadsKey "name") Python.ascii
      (VmInput.sample (blockOf "name")) true none).isNone = true := by decide +kernel
  refine ⟨?_, Option.isNone_iff_eq_none.mp hraises⟩
  decide +kernel

end ProxboxApi.DescriptionMetadata
