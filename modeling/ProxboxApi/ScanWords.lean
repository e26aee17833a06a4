import ProxboxApi.Scan
import Mathlib.Computability.Language

/-! The words that a pattern matches, and texts with every match replaced by a marker. -/

namespace Scan

/-- The pattern matches the words of a language, whatever stands around them. -/
def Pattern.Reads (p : Pattern) (L : Language Char) : Prop :=
  ∀ before text u rest, (u, rest) ∈ p.run before text ↔ u ∈ L ∧ u ++ rest = text

/-- No word of the language stands in the text. -/
def Free (L : Language Char) (text : List Char) : Prop := ∀ w ∈ L, ¬w <:+: text

/-- The characters that pass a test. -/
def oneOf (test : Char → Bool) : Language Char := {w | ∃ c, test c = true ∧ w = [c]}

/-- The texts whose characters pass a test. -/
def manyOf (test : Char → Bool) : Language Char := {w | ∀ c ∈ w, test c = true}

/-- The spellings of a word. -/
def spellings (same : Char → Char → Bool) (ks : List Char) : Language Char :=
  {w | List.Forall₂ (fun c k => same c k = true) w ks}

theorem mem_oneOf {test : Char → Bool} {w : List Char} :
    w ∈ oneOf test ↔ ∃ c, test c = true ∧ w = [c] := Iff.rfl

theorem mem_manyOf {test : Char → Bool} {w : List Char} :
    w ∈ manyOf test ↔ ∀ c ∈ w, test c = true := Iff.rfl

theorem mem_spellings {same : Char → Char → Bool} {ks w : List Char} :
    w ∈ spellings same ks ↔ List.Forall₂ (fun c k => same c k = true) w ks := Iff.rfl

namespace Pattern

variable {p q : Pattern} {L M : Language Char} {test : Char → Bool}

theorem reads_empty : empty.Reads 1 := by
  intro before text u rest
  change (u, rest) ∈ [([], text)] ↔ _
  rw [List.mem_singleton, Prod.mk.injEq, Language.mem_one]
  constructor
  · intro h
    exact ⟨h.1, by rw [h.1, h.2, List.nil_append]⟩
  · intro h
    exact ⟨h.1, by rw [← h.2, h.1, List.nil_append]⟩

theorem reads_one : (one test).Reads (oneOf test) := by
  intro before text u rest
  rw [mem_oneOf]
  cases text with
  | nil =>
    constructor
    · intro h
      cases h
    · intro h
      obtain ⟨⟨c, _, rfl⟩, happend⟩ := h
      cases happend
  | cons c text =>
    change (u, rest) ∈ (if test c then [([c], text)] else []) ↔ _
    constructor
    · intro h
      split at h
      · rename_i hc
        obtain ⟨rfl, rfl⟩ := Prod.mk.inj (List.mem_singleton.mp h)
        exact ⟨⟨c, hc, rfl⟩, rfl⟩
      · cases h
    · intro h
      obtain ⟨⟨c', hc, rfl⟩, happend⟩ := h
      obtain ⟨rfl, rfl⟩ := List.cons.inj happend
      rw [if_pos hc]
      exact List.mem_singleton_self _

theorem reads_many : (many test).Reads (manyOf test) := by
  intro before text
  change ∀ u rest, (u, rest) ∈ runMany test text ↔ _
  induction text with
  | nil =>
    intro u rest
    rw [runMany, List.mem_singleton, Prod.mk.injEq, List.append_eq_nil_iff, mem_manyOf]
    constructor
    · intro h
      exact ⟨fun c hc => by simp [h.1] at hc, h⟩
    · exact And.right
  | cons d text ih =>
    intro u rest
    -- The last way to match takes nothing; the others take the first character.
    have hlast : (u, rest) ∈ [(([] : List Char), d :: text)] ↔ u = [] ∧ rest = d :: text := by
      rw [List.mem_singleton, Prod.mk.injEq]
    cases u with
    | nil =>
      have hnone : (([] : List Char), rest) ∉
          (runMany test text).map fun r => (d :: r.1, r.2) := by simp
      have hnil : [] ∈ manyOf test := fun c hc => by cases hc
      rw [runMany]
      split
      · rw [List.mem_append, hlast]
        simp [hnone, hnil]
      · rw [hlast]
        simp [hnil]
    | cons c u =>
      have hrest : (c :: u, rest) ∈ ((runMany test text).map fun r => (d :: r.1, r.2)) ↔
          c = d ∧ (u, rest) ∈ runMany test text := by
        rw [List.mem_map]
        constructor
        · intro h
          obtain ⟨r, hr, heq⟩ := h
          obtain ⟨hcons, rfl⟩ := Prod.mk.inj heq
          obtain ⟨rfl, rfl⟩ := List.cons.inj hcons
          exact ⟨rfl, hr⟩
        · intro h
          exact ⟨(u, rest), h.2, by rw [h.1]⟩
      have hcons : (∀ c' ∈ c :: u, test c' = true) ∧ c :: u ++ rest = d :: text ↔
          c = d ∧ test d = true ∧ (∀ c' ∈ u, test c' = true) ∧ u ++ rest = text := by
        rw [List.forall_mem_cons, List.cons_append, List.cons.injEq]
        constructor
        · intro h
          exact ⟨h.2.1, h.2.1 ▸ h.1.1, h.1.2, h.2.2⟩
        · intro h
          exact ⟨⟨h.1 ▸ h.2.1, h.2.2.1⟩, h.1, h.2.2.2⟩
      rw [runMany, mem_manyOf, hcons]
      split
      · rename_i hd
        rw [List.mem_append, hlast, hrest, ih, mem_manyOf]
        simp [hd]
      · rename_i hd
        rw [hlast]
        simp [hd]

theorem Reads.seq (hp : p.Reads L) (hq : q.Reads M) : (p.seq q).Reads (L * M) := by
  intro before text u rest
  constructor
  · intro h
    obtain ⟨r, hr, h⟩ := List.mem_flatMap.mp h
    obtain ⟨r', hr', heq⟩ := List.mem_map.mp h
    obtain ⟨rfl, rfl⟩ := Prod.mk.inj heq
    obtain ⟨hL, happend⟩ := (hp _ _ _ _).mp hr
    obtain ⟨hM, happend'⟩ := (hq _ _ _ _).mp hr'
    exact ⟨Language.append_mem_mul hL hM, by rw [List.append_assoc, happend', happend]⟩
  · intro h
    obtain ⟨hu, happend⟩ := h
    obtain ⟨v, hv, w, hw, rfl⟩ := Language.mem_mul.mp hu
    rw [List.append_assoc] at happend
    exact mem_seq ((hp _ _ _ _).mpr ⟨hv, happend⟩) ((hq _ _ _ _).mpr ⟨hw, rfl⟩)

theorem Reads.alt (hp : p.Reads L) (hq : q.Reads M) : (p.alt q).Reads (L + M) := by
  intro before text u rest
  change (u, rest) ∈ p.run before text ++ q.run before text ↔ _
  rw [List.mem_append, hp, hq, Language.mem_add, or_and_right]

theorem Reads.opt (hp : p.Reads L) : p.opt.Reads (L + 1) := hp.alt reads_empty

theorem reads_word {same : Char → Char → Bool} : ∀ ks : List Char,
    (word same ks).Reads (spellings same ks)
  | [] => by
    have h : spellings same [] = 1 := by
      ext w
      exact List.forall₂_nil_right_iff
    rw [h]
    exact reads_empty
  | k :: ks => by
    have h : spellings same (k :: ks) =
        oneOf (fun c => same c k) * spellings same ks := by
      ext w
      rw [Language.mem_mul]
      constructor
      · intro hw
        obtain ⟨c, w', hc, hw', rfl⟩ := List.forall₂_cons_right_iff.mp (mem_spellings.mp hw)
        exact ⟨[c], ⟨c, hc, rfl⟩, w', hw', rfl⟩
      · intro hw
        obtain ⟨_, ⟨c, hc, rfl⟩, w', hw', rfl⟩ := hw
        exact List.Forall₂.cons hc hw'
    rw [h]
    exact reads_one.seq (reads_word ks)

end Pattern

/-- What is put for a match: some text, and another one between two signs. -/
structure Marker where
  lead : List Char
  opening : Char
  inner : List Char
  closing : Char

def Marker.text (m : Marker) : List Char := m.lead ++ m.opening :: (m.inner ++ [m.closing])

variable {p : Pattern} {L L' : Language Char} {before : Option Char} {text w : List Char}
  {ps : List Piece}

section Languages

variable {M : Language Char} {test : Char → Bool}

/-- What the pattern consumes at least `n` times: characters that pass a test. -/
def Pattern.atLeast (test : Char → Bool) : ℕ → Pattern
  | 0 => .many test
  | n + 1 => (Pattern.one test).seq (atLeast test n)

def atLeastOf (test : Char → Bool) : ℕ → Language Char
  | 0 => manyOf test
  | n + 1 => oneOf test * atLeastOf test n

theorem Pattern.reads_atLeast : ∀ n, (Pattern.atLeast test n).Reads (atLeastOf test n)
  | 0 => reads_many
  | n + 1 => reads_one.seq (reads_atLeast n)

theorem Pattern.atLeast_within {kind : Char → Prop} (h : ∀ c, test c = true → kind c) :
    ∀ n, (Pattern.atLeast test n).Within kind
  | 0 => many_within h
  | n + 1 => seq_within (one_within h) (atLeast_within h n)

theorem mem_atLeastOf {w : List Char} : ∀ {n},
    w ∈ atLeastOf test n ↔ n ≤ w.length ∧ ∀ c ∈ w, test c = true := by
  intro n
  induction n generalizing w with
  | zero => exact ⟨fun h => ⟨Nat.zero_le _, h⟩, And.right⟩
  | succ n ih =>
    rw [atLeastOf, Language.mem_mul]
    constructor
    · intro h
      obtain ⟨_, ⟨c, hc, rfl⟩, v, hv, rfl⟩ := h
      obtain ⟨hlength, hv⟩ := ih.mp hv
      exact ⟨Nat.succ_le_succ hlength, List.forall_mem_cons.mpr ⟨hc, hv⟩⟩
    · intro h
      cases w with
      | nil => exact absurd h.1 (Nat.not_succ_le_zero n)
      | cons c v =>
        obtain ⟨hc, hv⟩ := List.forall_mem_cons.mp h.2
        exact ⟨[c], ⟨c, hc, rfl⟩, v, ih.mpr ⟨Nat.le_of_succ_le_succ h.1, hv⟩, rfl⟩

/-- With a word the language has every text whose characters are related to those of the word. -/
def Closed (r : Char → Char → Prop) (L : Language Char) : Prop :=
  ∀ w ∈ L, ∀ w', List.Forall₂ r w' w → w' ∈ L

variable {r : Char → Char → Prop}

theorem closed_one : Closed r 1 := by
  intro w hw w' h
  obtain rfl := (Language.mem_one w).mp hw
  exact (Language.mem_one w').mpr (List.forall₂_nil_right_iff.mp h)

theorem closed_manyOf (h : ∀ c c', r c' c → test c = true → test c' = true) :
    Closed r (manyOf test) := by
  intro w hw w' hr
  induction hr with
  | nil => exact hw
  | cons hc _ ih =>
    obtain ⟨hc', hw⟩ := List.forall_mem_cons.mp (mem_manyOf.mp hw)
    exact List.forall_mem_cons.mpr ⟨h _ _ hc hc', ih hw⟩

theorem closed_atLeastOf {n : ℕ} (h : ∀ c c', r c' c → test c = true → test c' = true) :
    Closed r (atLeastOf test n) := by
  intro w hw w' hr
  obtain ⟨hlength, hw⟩ := mem_atLeastOf.mp hw
  exact mem_atLeastOf.mpr ⟨hr.length_eq ▸ hlength, closed_manyOf h w hw w' hr⟩

theorem closed_oneOf (h : ∀ c c', r c' c → test c = true → test c' = true) :
    Closed r (oneOf test) := by
  intro w hw w' hr
  obtain ⟨c, hc, rfl⟩ := mem_oneOf.mp hw
  obtain ⟨c', v, hcc', hv, rfl⟩ := List.forall₂_cons_right_iff.mp hr
  obtain rfl := List.forall₂_nil_right_iff.mp hv
  exact ⟨c', h c c' hcc' hc, rfl⟩

theorem closed_spellings {same : Char → Char → Bool} {ks : List Char}
    (h : ∀ k ∈ ks, ∀ c c', r c' c → same c k = true → same c' k = true) :
    Closed r (spellings same ks) := by
  intro w hw w' hr
  induction hr generalizing ks with
  | nil => exact hw
  | cons hc _ ih =>
    obtain ⟨k, ks', hk, hks, rfl⟩ := List.forall₂_cons_left_iff.mp (mem_spellings.mp hw)
    exact .cons (h k (List.mem_cons_self ..) _ _ hc hk)
      (ih (fun k' hk' => h k' (List.mem_cons_of_mem _ hk')) hks)

theorem Closed.mul (hL : Closed r L) (hM : Closed r M) : Closed r (L * M) := by
  intro w hw w' h
  obtain ⟨u, hu, v, hv, rfl⟩ := Language.mem_mul.mp hw
  have htake := hL u hu _ (List.forall₂_take_append w' u v h)
  have hdrop := hM v hv _ (List.forall₂_drop_append w' u v h)
  exact ⟨_, htake, _, hdrop, List.take_append_drop ..⟩

theorem Closed.add (hL : Closed r L) (hM : Closed r M) : Closed r (L + M) := by
  intro w hw w' h
  rcases (Language.mem_add _ _ _).mp hw with hw | hw
  · exact (Language.mem_add _ _ _).mpr (.inl (hL w hw w' h))
  · exact (Language.mem_add _ _ _).mpr (.inr (hM w hw w' h))

/-- Every word of the language has a last character, which passes the test. -/
def EndsIn (test : Char → Bool) (L : Language Char) : Prop :=
  ∀ w ∈ L, ∃ v c, w = v ++ [c] ∧ test c = true

theorem endsIn_atLeastOf {n : ℕ} (hn : n ≠ 0) : EndsIn test (atLeastOf test n) := by
  intro w hw
  obtain ⟨hlength, hw⟩ := mem_atLeastOf.mp hw
  have hne : w ≠ [] := by
    rintro rfl
    exact hn (Nat.le_zero.mp hlength)
  exact ⟨w.dropLast, w.getLast hne, (List.dropLast_append_getLast hne).symm,
    hw _ (List.getLast_mem hne)⟩

theorem EndsIn.mul (hM : EndsIn test M) : EndsIn test (L * M) := by
  intro w hw
  obtain ⟨u, _, v, hv, rfl⟩ := Language.mem_mul.mp hw
  obtain ⟨v', c, rfl, hc⟩ := hM v hv
  exact ⟨u ++ v', c, (List.append_assoc ..).symm, hc⟩

/-- A last part that may be missing. -/
theorem EndsIn.mul_opt {test' : Char → Bool} (hL : EndsIn test L)
    (h : ∀ c, test' c = true → test c = true) : EndsIn test (L * (oneOf test' + 1)) := by
  intro w hw
  obtain ⟨u, hu, v, hv, rfl⟩ := Language.mem_mul.mp hw
  rcases (Language.mem_add _ _ _).mp hv with ⟨c, hc, rfl⟩ | hv
  · exact ⟨u, c, rfl, h c hc⟩
  · obtain rfl := (Language.mem_one v).mp hv
    rw [List.append_nil]
    exact hL u hu

theorem EndsIn.mono {test' : Char → Bool} (hL : EndsIn test L)
    (h : ∀ c, test c = true → test' c = true) : EndsIn test' L := by
  intro w hw
  obtain ⟨v, c, hwc, hc⟩ := hL w hw
  exact ⟨v, c, hwc, h c hc⟩

end Languages

theorem Free.of_infix {part : List Char} (h : Free L text) (hpart : part <:+: text) :
    Free L part := fun w hw hwithin => h w hw (hwithin.trans hpart)

/-- Whether a text is free of the words of a pattern can be tried at each of its places. -/
theorem free_of_run (hp : p.Reads L) (h : ∀ s ∈ text.tails, p.run none s = []) : Free L text := by
  intro w hw hwithin
  obtain ⟨s, hstart, hsuffix⟩ := List.infix_iff_prefix_suffix.mp hwithin
  obtain ⟨rest, rfl⟩ := hstart
  have hmem := (hp none _ w rest).mpr ⟨hw, rfl⟩
  rw [h _ ((List.mem_tails _ _).mpr hsuffix)] at hmem
  cases hmem

/-- Where the scan finds nothing, no word begins. -/
theorem not_prefix_of_firstMatch (hp : p.Reads L) (hw : w ∈ L) (hne : w ≠ [])
    (h : firstMatch .empty p before text = none) : ¬w <+: text := by
  intro hstart
  obtain ⟨rest, rfl⟩ := hstart
  have hmem : (w, rest) ∈ p.run (after before []) (w ++ rest) := (hp _ _ _ _).mpr ⟨hw, rfl⟩
  have hsome : (firstMatch .empty p before (w ++ rest)).isSome = true :=
    firstMatch_isSome (List.mem_singleton_self ([], w ++ rest)) hmem hne
  rw [h] at hsome
  cases hsome

/-- The kind of what the pattern consumes is that of its words. -/
theorem Pattern.Reads.kind {kind : Char → Prop} (hp : p.Reads L) (h : p.Within kind) (hw : w ∈ L) :
    ∀ c ∈ w, kind c :=
  h none w _ ((hp none w w []).mpr ⟨hw, List.append_nil w⟩)

theorem Pattern.Reads.nil_notMem (hp : p.Reads L) (h : p.run none [] = []) : [] ∉ L := by
  intro hnil
  have hmem := (hp none [] [] []).mpr ⟨hnil, rfl⟩
  rw [h] at hmem
  cases hmem

/-- What the scan finds is a word of the pattern. -/
theorem firstMatch_word (hp : p.Reads L) {u v rest : List Char}
    (h : firstMatch .empty p before text = some (u, v, rest)) : v ∈ L ∧ v ++ rest = text := by
  obtain ⟨hlead, hvalue, happend, _⟩ := firstMatch_spec h
  obtain ⟨hu, _⟩ := Prod.mk.inj (List.mem_singleton.mp hlead)
  simp only at hu hvalue happend
  rw [hu, List.nil_append] at happend
  exact ⟨((hp _ _ _ _).mp hvalue).1, happend⟩

def Piece.replaced (m : Marker) : Piece → List Char
  | .plain c => [c]
  | .found _ _ => m.text

/-- `re.sub`: the text with the marker for every match. -/
def substitute (p : Pattern) (m : Marker) (text : List Char) : List Char :=
  (pieces .empty p text).flatMap (Piece.replaced m)

variable {m : Marker}

/-- The word begins the text, or it ends in the marker of a match that stands in the text after the
rest of the word. -/
def Enters (m : Marker) (L : Language Char) (w text : List Char) : Prop :=
  w <+: text ∨ ∃ g s u, w = g ++ s ∧ s <+: m.lead ∧ u ∈ L ∧ g ++ u <+: text

theorem Enters.cons {c : Char} (h : Enters m L w text) : Enters m L (c :: w) (c :: text) := by
  rcases h with h | ⟨g, s, u, rfl, hs, hu, h⟩
  · exact .inl (List.cons_prefix_cons.mpr ⟨rfl, h⟩)
  · exact .inr ⟨c :: g, s, u, rfl, hs, hu, List.cons_prefix_cons.mpr ⟨rfl, h⟩⟩

theorem Scans.enters (hp : p.Reads L) (h : Scans .empty p before text ps)
    (hopening : m.opening ∉ w) (hw : w <+: ps.flatMap (Piece.replaced m)) :
    Enters m L w text := by
  induction h generalizing w with
  | nil => exact .inl hw
  | plain _ _ ih =>
    rcases List.prefix_cons_iff.mp hw with rfl | ⟨w', rfl, hw'⟩
    · exact .inl List.nil_prefix
    · exact (ih (fun hmem => hopening (List.mem_cons_of_mem _ hmem)) hw').cons
  | found hm _ _ =>
    obtain ⟨hv, happend⟩ := firstMatch_word hp hm
    -- The word stops before the opening sign of the marker.
    have hlead : w <+: m.lead := by
      rw [List.flatMap_cons] at hw
      change w <+: (m.lead ++ m.opening :: (m.inner ++ [m.closing])) ++ _ at hw
      rw [List.append_assoc, List.cons_append] at hw
      exact prefix_of_not_mem hopening hw
    exact .inr ⟨[], w, _, rfl, hlead, hv, happend ▸ List.prefix_append ..⟩

/-- Where the words of a text with markers come from. -/
theorem Scans.infix_replaced (hp : p.Reads L) (h : Scans .empty p before text ps) (hne : w ≠ [])
    (hopening : m.opening ∉ w) (hclosing : m.closing ∉ w)
    (hw : w <:+: ps.flatMap (Piece.replaced m)) :
    w <:+: m.lead ∨ w <:+: m.inner ∨ ∃ b s, s <:+ text ∧ firstMatch .empty p b s = none ∧
      Enters m L w s := by
  induction h with
  | nil => exact absurd (List.eq_nil_of_infix_nil hw) hne
  | @plain b c text ps hm hps ih =>
    rcases List.infix_cons_iff.mp hw with hstart | hw
    · have hw := Scans.enters hp (.plain hm hps) hopening hstart
      exact .inr (.inr ⟨b, _, List.suffix_refl _, hm, hw⟩)
    · rcases ih hw with h | h | ⟨b, s, hs, hrest⟩
      · exact .inl h
      · exact .inr (.inl h)
      · exact .inr (.inr ⟨b, s, hs.trans (List.suffix_cons ..), hrest⟩)
  | @found b text u v rest ps hm _ ih =>
    obtain ⟨_, happend⟩ := firstMatch_word hp hm
    rw [List.flatMap_cons] at hw
    change w <:+: (m.lead ++ m.opening :: (m.inner ++ [m.closing])) ++ _ at hw
    rw [List.append_assoc, List.cons_append, List.append_assoc, List.singleton_append] at hw
    rcases infix_of_not_mem hopening hw with h | hw
    · exact .inl h
    · rcases infix_of_not_mem hclosing hw with h | hw
      · exact .inr (.inl h)
      · rcases ih hw with h | h | ⟨b, s, hs, hrest⟩
        · exact .inl h
        · exact .inr (.inl h)
        · exact .inr (.inr ⟨b, s, hs.trans ⟨v, happend⟩, hrest⟩)

/-- The words of a language keep away from a marker: they have none of its signs, none is in it,
and where one ends in a marker there is one in the text before the replacement. -/
structure Apart (m : Marker) (L L' : Language Char) : Prop where
  nonempty : [] ∉ L'
  opening : ∀ w ∈ L', m.opening ∉ w
  closing : ∀ w ∈ L', m.closing ∉ w
  lead : Free L' m.lead
  inner : Free L' m.inner
  enters : ∀ g s u, g ++ s ∈ L' → s <+: m.lead → u ∈ L → ∃ v ∈ L', v <+: g ++ u

theorem Apart.exists_start (h : Apart m L L') (hw : w ∈ L') (henters : Enters m L w text) :
    ∃ v ∈ L', v <+: text := by
  rcases henters with hstart | ⟨g, s, u, rfl, hs, hu, hstart⟩
  · exact ⟨w, hw, hstart⟩
  · obtain ⟨v, hv, hvu⟩ := h.enters g s u hw hs hu
    exact ⟨v, hv, hvu.trans hstart⟩

/-- The replacement makes no word of another language. -/
theorem Apart.free_substitute (h : Apart m L L') (hp : p.Reads L) (hfree : Free L' text) :
    Free L' (substitute p m text) := by
  intro w hw hwithin
  have hne : w ≠ [] := fun hnil => h.nonempty (hnil ▸ hw)
  rcases (pieces_scans text).infix_replaced hp hne (h.opening w hw) (h.closing w hw) hwithin with
    hlead | hinner | ⟨_, s, hs, _, henters⟩
  · exact h.lead w hw hlead
  · exact h.inner w hw hinner
  · obtain ⟨v, hv, hstart⟩ := h.exists_start hw henters
    exact hfree v hv (hstart.isInfix.trans hs.isInfix)

/-- The replacement leaves no word of its own. -/
theorem Apart.free_substitute_self (h : Apart m L L) (hp : p.Reads L) :
    Free L (substitute p m text) := by
  intro w hw hwithin
  have hne : ∀ w ∈ L, w ≠ [] := fun w hw hnil => h.nonempty (hnil ▸ hw)
  rcases (pieces_scans text).infix_replaced hp (hne w hw) (h.opening w hw) (h.closing w hw)
    hwithin with hlead | hinner | ⟨_, s, _, hmatch, henters⟩
  · exact h.lead w hw hlead
  · exact h.inner w hw hinner
  · obtain ⟨v, hv, hstart⟩ := h.exists_start hw henters
    exact not_prefix_of_firstMatch hp hv (hne v hv) hmatch hstart

/-- A text without matches stays as it is. -/
theorem substitute_of_free (hp : p.Reads L) (hfree : Free L text) : substitute p m text = text := by
  have hscan : ∀ {before text ps}, Scans .empty p before text ps → Free L text →
      ps.flatMap (Piece.replaced m) = text := by
    intro before text ps h hfree
    induction h with
    | nil => rfl
    | plain _ _ ih =>
      have hrest := ih (hfree.of_infix (List.suffix_cons ..).isInfix)
      rw [List.flatMap_cons, hrest]
      rfl
    | found hm _ _ =>
      obtain ⟨hv, happend⟩ := firstMatch_word hp hm
      exact absurd (happend ▸ List.infix_append' [] _ _) (hfree _ hv)
  exact hscan (pieces_scans text) hfree

end Scan
