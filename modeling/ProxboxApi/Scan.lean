import ProxboxApi.Text
import Mathlib.Data.List.Infix
import Mathlib.Tactic.Common

/-! Patterns that match with backtracking, and the scan of a text for them from left to right. -/

namespace Scan

/-- The ways to match at a place of a text, the preferred one first: what is consumed, and the text
after it.  The place is given by the character before it. -/
structure Pattern where
  run : Option Char → List Char → List (List Char × List Char)
  splits : ∀ before text, ∀ r ∈ run before text, r.1 ++ r.2 = text

/-- The character before the place after some text. -/
def after (before : Option Char) (text : List Char) : Option Char := text.getLast?.or before

theorem after_cons (before : Option Char) (c : Char) (text : List Char) :
    after before (c :: text) = after (some c) text := by
  cases text with
  | nil => rfl
  | cons d text =>
    unfold after
    rw [List.getLast?_cons_cons, Option.or_of_isSome (by simp), Option.or_of_isSome (by simp)]

namespace Pattern

def empty : Pattern where
  run _ text := [([], text)]
  splits _ text r hr := by
    obtain rfl := List.mem_singleton.mp hr
    rfl

/-- One character that passes a test. -/
def one (test : Char → Bool) : Pattern where
  run
    | _, [] => []
    | _, c :: text => if test c then [([c], text)] else []
  splits
    | _, [], r, hr => by cases hr
    | _, c :: text, r, hr => by
      change r ∈ (if test c then [([c], text)] else []) at hr
      split at hr
      · obtain rfl := List.mem_singleton.mp hr
        rfl
      · cases hr

def runMany (test : Char → Bool) : List Char → List (List Char × List Char)
  | [] => [([], [])]
  | c :: text =>
    if test c then (runMany test text).map (fun r => (c :: r.1, r.2)) ++ [([], c :: text)]
    else [([], c :: text)]

theorem runMany_splits (test : Char → Bool) : ∀ text, ∀ r ∈ runMany test text, r.1 ++ r.2 = text
  | [], r, hr => by
    obtain rfl := List.mem_singleton.mp hr
    rfl
  | c :: text, r, hr => by
    unfold runMany at hr
    split at hr
    · rcases List.mem_append.mp hr with h | h
      · obtain ⟨r', hr', rfl⟩ := List.mem_map.mp h
        rw [List.cons_append, runMany_splits test text r' hr']
      · obtain rfl := List.mem_singleton.mp h
        rfl
    · obtain rfl := List.mem_singleton.mp hr
      rfl

/-- Any number of characters that pass a test, as many as possible first. -/
def many (test : Char → Bool) : Pattern := ⟨fun _ => runMany test, fun _ => runMany_splits test⟩

def seq (p q : Pattern) : Pattern where
  run before text := (p.run before text).flatMap fun r =>
    (q.run (after before r.1) r.2).map fun r' => (r.1 ++ r'.1, r'.2)
  splits before text r hr := by
    obtain ⟨r₁, hr₁, hr⟩ := List.mem_flatMap.mp hr
    obtain ⟨r₂, hr₂, rfl⟩ := List.mem_map.mp hr
    rw [List.append_assoc, q.splits _ _ r₂ hr₂, p.splits _ _ r₁ hr₁]

def alt (p q : Pattern) : Pattern where
  run before text := p.run before text ++ q.run before text
  splits _ _ r hr := (List.mem_append.mp hr).elim (p.splits _ _ r) (q.splits _ _ r)

/-- A pattern if it matches, or nothing. -/
def opt (p : Pattern) : Pattern := p.alt empty

/-- The characters of a word, each up to a relation. -/
def word (same : Char → Char → Bool) : List Char → Pattern
  | [] => empty
  | k :: ks => (one fun c => same c k).seq (word same ks)

/-- The characters of a text itself. -/
def literal (s : List Char) : Pattern := word (fun c k => c == k) s

/-- The border between a character of a word and another one, or an end of the text. -/
def boundary (isWord : Char → Bool) : Pattern where
  run before text :=
    if before.any isWord != text.head?.any isWord then [([], text)] else []
  splits before text r hr := by
    split at hr
    · obtain rfl := List.mem_singleton.mp hr
      rfl
    · cases hr

/-- Every character that the pattern consumes is of a kind. -/
def Within (p : Pattern) (kind : Char → Prop) : Prop :=
  ∀ before text, ∀ r ∈ p.run before text, ∀ c ∈ r.1, kind c

/-- The pattern does not match at a character. -/
def Refuses (p : Pattern) (c : Char) : Prop := ∀ before text, p.run before (c :: text) = []

variable {p q : Pattern} {kind : Char → Prop} {test : Char → Bool} {same : Char → Char → Bool}

theorem empty_within : empty.Within kind := by
  intro before text r hr c hc
  obtain rfl := List.mem_singleton.mp hr
  cases hc

theorem one_within (h : ∀ c, test c = true → kind c) : (one test).Within kind := by
  intro before text r hr c hc
  cases text with
  | nil => cases hr
  | cons d text =>
    change r ∈ (if test d then [([d], text)] else []) at hr
    split at hr
    · rename_i hd
      obtain rfl := List.mem_singleton.mp hr
      obtain rfl := List.mem_singleton.mp hc
      exact h _ hd
    · cases hr

theorem many_within (h : ∀ c, test c = true → kind c) : (many test).Within kind := by
  intro before text r hr
  change r ∈ runMany test text at hr
  induction text generalizing r with
  | nil =>
    obtain rfl := List.mem_singleton.mp hr
    exact fun c hc => by cases hc
  | cons d text ih =>
    unfold runMany at hr
    have hlast : r = ([], d :: text) → ∀ c ∈ r.1, kind c := by
      rintro rfl c hc
      cases hc
    split at hr
    · rename_i hd
      rcases List.mem_append.mp hr with h' | h'
      · obtain ⟨r', hr', rfl⟩ := List.mem_map.mp h'
        intro c hc
        rcases List.mem_cons.mp hc with rfl | hc
        · exact h _ hd
        · exact ih r' hr' c hc
      · exact hlast (List.mem_singleton.mp h')
    · exact hlast (List.mem_singleton.mp hr)

theorem seq_within (hp : p.Within kind) (hq : q.Within kind) : (p.seq q).Within kind := by
  intro before text r hr c hc
  obtain ⟨r₁, hr₁, hr⟩ := List.mem_flatMap.mp hr
  obtain ⟨r₂, hr₂, rfl⟩ := List.mem_map.mp hr
  exact (List.mem_append.mp hc).elim (hp _ _ r₁ hr₁ c) (hq _ _ r₂ hr₂ c)

theorem alt_within (hp : p.Within kind) (hq : q.Within kind) : (p.alt q).Within kind :=
  fun before text r hr => (List.mem_append.mp hr).elim (hp before text r) (hq before text r)

theorem opt_within (hp : p.Within kind) : p.opt.Within kind := alt_within hp empty_within

theorem word_within {ks : List Char} (h : ∀ k ∈ ks, ∀ c, same c k = true → kind c) :
    (word same ks).Within kind := by
  induction ks with
  | nil => exact empty_within
  | cons k ks ih =>
    exact seq_within (one_within (h k (List.mem_cons_self ..)))
      (ih fun k' hk' => h k' (List.mem_cons_of_mem k hk'))

theorem one_refuses {c : Char} (h : test c = false) : (one test).Refuses c := by
  intro before text
  change (if test c then [([c], text)] else []) = []
  rw [h]
  rfl

theorem seq_refuses {c : Char} (hp : p.Refuses c) : (p.seq q).Refuses c := by
  intro before text
  change (p.run before (c :: text)).flatMap _ = []
  rw [hp]
  rfl

theorem alt_refuses {c : Char} (hp : p.Refuses c) (hq : q.Refuses c) : (p.alt q).Refuses c := by
  intro before text
  change p.run before (c :: text) ++ q.run before (c :: text) = []
  rw [hp, hq]
  rfl

theorem opt_seq_refuses {c : Char} (hp : p.Refuses c) (hq : q.Refuses c) :
    (p.opt.seq q).Refuses c := by
  intro before text
  change ((p.run before (c :: text) ++ [([], c :: text)]).flatMap _) = []
  rw [hp]
  simp [after, hq _ text]

theorem mem_many {before : Option Char} {text : List Char} :
    ([], text) ∈ (many test).run before text := by
  change ([], text) ∈ runMany test text
  cases text with
  | nil => exact List.mem_singleton.mpr rfl
  | cons c text =>
    unfold runMany
    split <;> simp

theorem mem_seq {before : Option Char} {text u v rest : List Char}
    (hp : (u, v ++ rest) ∈ p.run before text) (hq : (v, rest) ∈ q.run (after before u) (v ++ rest)) :
    (u ++ v, rest) ∈ (p.seq q).run before text :=
  List.mem_flatMap.mpr ⟨_, hp, List.mem_map.mpr ⟨_, hq, rfl⟩⟩

theorem mem_opt {before : Option Char} {text : List Char} : ([], text) ∈ p.opt.run before text :=
  List.mem_append_right _ (List.mem_singleton.mpr rfl)

theorem mem_one {before : Option Char} {c : Char} {text : List Char} (h : test c = true) :
    ([c], text) ∈ (one test).run before (c :: text) := by
  change ([c], text) ∈ (if test c then [([c], text)] else [])
  rw [h]
  exact List.mem_singleton.mpr rfl

theorem mem_word {before : Option Char} {ks text : List Char} (h : ∀ k ∈ ks, same k k = true) :
    (ks, text) ∈ (word same ks).run before (ks ++ text) := by
  induction ks generalizing before with
  | nil => exact List.mem_singleton.mpr rfl
  | cons k ks ih =>
    exact mem_seq (u := [k]) (mem_one (h k (List.mem_cons_self ..)))
      (ih fun k' hk' => h k' (List.mem_cons_of_mem k hk'))

end Pattern

/-- The first way to match a lead and a value after it that consumes anything. -/
def firstMatch (lead value : Pattern) (before : Option Char) (text : List Char) :
    Option (List Char × List Char × List Char) :=
  ((lead.run before text).flatMap fun r =>
    (value.run (after before r.1) r.2).map fun r' => (r.1, r'.1, r'.2)).find? fun m =>
      !(m.1 ++ m.2.1).isEmpty

/-- A part of a text: a character outside the matches, or a match. -/
inductive Piece where
  | plain (c : Char)
  | found (lead value : List Char)
  deriving DecidableEq, Repr

def stars : List Char := ['*', '*', '*']

def Piece.raw : Piece → List Char
  | .plain c => [c]
  | .found lead value => lead ++ value

/-- A match with its value masked. -/
def Piece.masked : Piece → List Char
  | .plain c => [c]
  | .found lead _ => lead ++ stars

def Piece.value? : Piece → Option (List Char)
  | .plain _ => none
  | .found _ value => some value

/-- The matches from left to right; the count is of the characters of the last one still to pass. -/
def scan (lead value : Pattern) : ℕ → Option Char → List Char → List Piece
  | _, _, [] => []
  | n + 1, _, c :: text => scan lead value n (some c) text
  | 0, before, c :: text =>
    match firstMatch lead value before (c :: text) with
    | none => .plain c :: scan lead value 0 (some c) text
    | some m => .found m.1 m.2.1 ::
        scan lead value ((m.1 ++ m.2.1).length - 1) (some c) text

def pieces (lead value : Pattern) (text : List Char) : List Piece := scan lead value 0 none text

/-- The text with the value of every match masked. -/
def mask (lead value : Pattern) (text : List Char) : List Char :=
  (pieces lead value text).flatMap Piece.masked

/-- The values of the matches. -/
def values (lead value : Pattern) (text : List Char) : List (List Char) :=
  (pieces lead value text).filterMap Piece.value?

/-- `str.replace` of a text that is not empty. -/
def replace (s : List Char) (text : List Char) : List Char := mask .empty (.literal s) text

variable (lead value : Pattern)

/-- A scan, one character or one match at a time. -/
inductive Scans : Option Char → List Char → List Piece → Prop
  | nil {before} : Scans before [] []
  | plain {before c text ps} (h : firstMatch lead value before (c :: text) = none)
      (hps : Scans (some c) text ps) : Scans before (c :: text) (.plain c :: ps)
  | found {before text u v rest ps} (h : firstMatch lead value before text = some (u, v, rest))
      (hps : Scans (after before (u ++ v)) rest ps) : Scans before text (.found u v :: ps)

variable {lead value} {before : Option Char} {text : List Char} {ps : List Piece}

theorem firstMatch_spec {m : List Char × List Char × List Char}
    (h : firstMatch lead value before text = some m) :
    (m.1, m.2.1 ++ m.2.2) ∈ lead.run before text ∧
      (m.2.1, m.2.2) ∈ value.run (after before m.1) (m.2.1 ++ m.2.2) ∧
      m.1 ++ m.2.1 ++ m.2.2 = text ∧ m.1 ++ m.2.1 ≠ [] := by
  have hne := List.find?_some h
  obtain ⟨r, hr, hm⟩ := List.mem_flatMap.mp (List.mem_of_find?_eq_some h)
  obtain ⟨r', hr', rfl⟩ := List.mem_map.mp hm
  have hsplit := value.splits _ _ r' hr'
  refine ⟨?_, ?_, ?_, by simpa using hne⟩
  · rw [hsplit]
    exact hr
  · rw [hsplit]
    exact hr'
  · rw [List.append_assoc, hsplit, lead.splits _ _ r hr]

theorem firstMatch_isSome {r r' : List Char × List Char} (hr : r ∈ lead.run before text)
    (hr' : r' ∈ value.run (after before r.1) r.2) (hne : r'.1 ≠ []) :
    (firstMatch lead value before text).isSome = true := by
  rw [firstMatch, List.find?_isSome]
  refine ⟨(r.1, r'.1, r'.2), List.mem_flatMap.mpr ⟨r, hr, List.mem_map_of_mem hr'⟩, ?_⟩
  simp [hne]

theorem scan_pass (u rest : List Char) (before : Option Char) :
    scan lead value u.length before (u ++ rest) = scan lead value 0 (after before u) rest := by
  induction u generalizing before with
  | nil => rfl
  | cons c u ih =>
    rw [List.length_cons, List.cons_append, scan, ih, after_cons]

theorem scan_scans (before : Option Char) (text : List Char) :
    Scans lead value before text (scan lead value 0 before text) := by
  induction hn : text.length using Nat.strong_induction_on generalizing before text with
  | _ n ih =>
    cases text with
    | nil => exact .nil
    | cons c text =>
      unfold scan
      cases hm : firstMatch lead value before (c :: text) with
      | none => exact .plain hm (ih _ (by simp [← hn]) _ _ rfl)
      | some m =>
        obtain ⟨u, v, rest⟩ := m
        obtain ⟨_, _, hsplit, hne⟩ := firstMatch_spec hm
        obtain ⟨d, w, hw⟩ := List.exists_cons_of_ne_nil hne
        simp only at hsplit hne hw ⊢
        have hlen : rest.length < n := by
          rw [← hn, ← hsplit, hw, List.length_append, List.length_cons]
          omega
        have hcons : d = c ∧ w ++ rest = text := by
          rwa [hw, List.cons_append, List.cons.injEq] at hsplit
        have hpass : scan lead value ((u ++ v).length - 1) (some c) text =
            scan lead value 0 (after before (u ++ v)) rest := by
          rw [← hcons.2, hw, List.length_cons, Nat.add_sub_cancel, scan_pass, after_cons, hcons.1]
        rw [hpass]
        exact .found hm (ih _ hlen _ _ rfl)

theorem pieces_scans (text : List Char) : Scans lead value none text (pieces lead value text) :=
  scan_scans none text

/-- What does not contain a character ends before it or starts after it. -/
theorem infix_of_not_mem {f a b : List Char} {d : Char} (hd : d ∉ f) (h : f <:+: a ++ d :: b) :
    f <:+: a ∨ f <:+: b := by
  have hnil : ∀ g, g <+: d :: b → g <:+: f → g = [] := by
    intro g hg hgf
    rcases List.prefix_cons_iff.mp hg with rfl | ⟨g', rfl, _⟩
    · rfl
    · exact absurd (hgf.subset (List.mem_cons_self ..)) hd
  rcases List.infix_append_iff.mp h with ha | hb | ⟨f₁, f₂, rfl, h₁, h₂⟩
  · exact .inl ha
  · rcases List.infix_cons_iff.mp hb with hpre | hb
    · rw [hnil f hpre (List.infix_refl f)]
      exact .inl (List.nil_infix)
    · exact .inr hb
  · rw [hnil f₂ h₂ (List.suffix_append ..).isInfix, List.append_nil]
    exact .inl h₁.isInfix

theorem prefix_of_not_mem {f a b : List Char} {d : Char} (hd : d ∉ f) (h : f <+: a ++ d :: b) :
    f <+: a := by
  induction a generalizing f with
  | nil =>
    rcases List.prefix_cons_iff.mp h with rfl | ⟨g, rfl, _⟩
    · exact List.nil_prefix
    · exact absurd (List.mem_cons_self ..) hd
  | cons c a ih =>
    rcases List.prefix_cons_iff.mp h with rfl | ⟨g, rfl, hg⟩
    · exact List.nil_prefix
    · exact List.cons_prefix_cons.mpr
        ⟨rfl, ih (fun hmem => hd (List.mem_cons_of_mem c hmem)) hg⟩

/-- What starts with a character starts after a text without it. -/
theorem infix_of_head_not_mem {f a b : List Char} {d : Char} (hd : d ∉ a)
    (h : d :: f <:+: a ++ b) : d :: f <:+: b := by
  rcases List.infix_append_iff.mp h with ha | hb | ⟨f₁, f₂, heq, h₁, h₂⟩
  · exact absurd (ha.subset (List.mem_cons_self ..)) hd
  · exact hb
  · cases f₁ with
    | nil =>
      rw [heq]
      exact h₂.isInfix
    | cons e f₁ =>
      obtain ⟨rfl, _⟩ := List.cons.inj heq
      exact absurd (h₁.subset (List.mem_cons_self ..)) hd

theorem masked_found {u v : List Char} : (Piece.found u v).masked ++ text =
    u ++ '*' :: '*' :: '*' :: text := by
  rw [Piece.masked, List.append_assoc]
  rfl

/-- What begins a masked text, without a star, begins the text. -/
theorem Scans.prefix_of_masked (h : Scans lead value before text ps) {f : List Char}
    (hstar : '*' ∉ f) (hf : f <+: ps.flatMap Piece.masked) : f <+: text := by
  induction h generalizing f with
  | nil => exact hf
  | @plain before c text ps _ _ ih =>
    rcases List.prefix_cons_iff.mp hf with rfl | ⟨f', rfl, hf'⟩
    · exact List.nil_prefix
    · exact List.cons_prefix_cons.mpr
        ⟨rfl, ih (fun hmem => hstar (List.mem_cons_of_mem c hmem)) hf'⟩
  | @found before text u v rest ps hm _ ih =>
    rw [List.flatMap_cons, masked_found] at hf
    rw [← (firstMatch_spec hm).2.2.1, List.append_assoc]
    exact (prefix_of_not_mem hstar hf).trans (List.prefix_append ..)

theorem infix_masked_found {f u v : List Char} (hstar : '*' ∉ f)
    (hf : f <:+: (Piece.found u v).masked ++ text) : f <:+: u ∨ f <:+: text := by
  have hnil : f <:+: [] → f <:+: u := fun h => h.trans (List.nil_infix)
  rw [masked_found] at hf
  rcases infix_of_not_mem hstar hf with hu | hf
  · exact .inl hu
  · rcases infix_of_not_mem (a := []) hstar hf with h | hf
    · exact .inl (hnil h)
    · exact (infix_of_not_mem (a := []) hstar hf).imp_left hnil

/-- What a masked text contains, without a star, the text contains. -/
theorem infix_of_mask {f : List Char} (hstar : '*' ∉ f) (hf : f <:+: mask lead value text) :
    f <:+: text := by
  have key : ∀ {before text ps}, Scans lead value before text ps →
      f <:+: ps.flatMap Piece.masked → f <:+: text := by
    intro before text ps h
    induction h with
    | nil => exact id
    | @plain before c text ps hm hps ih =>
      intro hf
      rcases List.infix_cons_iff.mp hf with hpre | hin
      · exact ((Scans.plain hm hps).prefix_of_masked hstar hpre).isInfix
      · exact (ih hin).trans (List.suffix_cons c text).isInfix
    | @found before text u v rest ps hm _ ih =>
      intro hf
      rw [← (firstMatch_spec hm).2.2.1]
      rcases infix_masked_found hstar hf with hu | hrest
      · exact hu.trans ⟨[], v ++ rest, by simp⟩
      · exact (ih hrest).trans (List.suffix_append ..).isInfix
  exact key (pieces_scans text) hf

/-- What is matched wherever it begins, and is not part of a lead, is gone from the masked text. -/
theorem not_infix_mask {f : List Char} {z : Char} (hstar : '*' ∉ f) (hz : z ∈ f)
    (hlead : lead.Within (· ≠ z))
    (hmatch : ∀ before rest, (firstMatch lead value before (f ++ rest)).isSome = true) :
    ¬f <:+: mask lead value text := by
  have key : ∀ {before text ps}, Scans lead value before text ps →
      ¬f <:+: ps.flatMap Piece.masked := by
    intro before text ps h
    induction h with
    | nil =>
      intro hf
      rw [List.flatMap_nil, List.infix_nil] at hf
      rw [hf] at hz
      cases hz
    | @plain before c text ps hm hps ih =>
      intro hf
      rcases List.infix_cons_iff.mp hf with hpre | hin
      · obtain ⟨rest, hrest⟩ := (Scans.plain hm hps).prefix_of_masked hstar hpre
        have := hmatch before rest
        rw [hrest, hm] at this
        cases this
      · exact ih hin
    | @found before text u v rest ps hm _ ih =>
      intro hf
      rcases infix_masked_found hstar hf with hu | hrest
      · exact hlead _ _ _ (firstMatch_spec hm).1 z (hu.subset hz) rfl
      · exact ih hrest
  exact key (pieces_scans text)

/-- What no lead starts in stays as it is. -/
theorem Scans.prefix_masked (h : Scans lead value before text ps) {f : List Char}
    (hrefuses : ∀ c ∈ f, lead.Refuses c) (hf : f <+: text) : f <+: ps.flatMap Piece.masked := by
  induction h generalizing f with
  | nil => exact hf
  | @plain before c text ps _ _ ih =>
    rcases List.prefix_cons_iff.mp hf with rfl | ⟨f', rfl, hf'⟩
    · exact List.nil_prefix
    · exact List.cons_prefix_cons.mpr
        ⟨rfl, ih (fun c' hc' => hrefuses c' (List.mem_cons_of_mem c hc')) hf'⟩
  | @found before text u v rest ps hm _ ih =>
    cases f with
    | nil => exact List.nil_prefix
    | cons c f =>
      obtain ⟨rest', rfl⟩ := hf
      have hmem := (firstMatch_spec hm).1
      rw [List.cons_append, hrefuses c (List.mem_cons_self ..)] at hmem
      cases hmem

/-- What starts with a character outside of all matches, and no lead starts in, stays. -/
theorem infix_mask {f : List Char} {d : Char} (hlead : lead.Within (· ≠ d))
    (hvalue : value.Within (· ≠ d)) (hrefuses : ∀ c ∈ f, lead.Refuses c) (hf : d :: f <:+: text) :
    d :: f <:+: mask lead value text := by
  have key : ∀ {before text ps}, Scans lead value before text ps → d :: f <:+: text →
      d :: f <:+: ps.flatMap Piece.masked := by
    intro before text ps h
    induction h with
    | nil => exact id
    | @plain before c text ps _ hps ih =>
      intro hf
      rcases List.infix_cons_iff.mp hf with hpre | hin
      · obtain ⟨rfl, htail⟩ := List.cons_prefix_cons.mp hpre
        exact (List.cons_prefix_cons.mpr ⟨rfl, hps.prefix_masked hrefuses htail⟩).isInfix
      · exact (ih hin).trans (List.suffix_cons ..).isInfix
    | @found before text u v rest ps hm _ ih =>
      intro hf
      obtain ⟨hu, hv, hsplit, _⟩ := firstMatch_spec hm
      have hmem : d ∉ u ++ v := by
        intro hmem
        exact (List.mem_append.mp hmem).elim (fun h => hlead _ _ _ hu d h rfl)
          (fun h => hvalue _ _ _ hv d h rfl)
      rw [← hsplit] at hf
      exact (ih (infix_of_head_not_mem hmem hf)).trans (List.suffix_append ..).isInfix
  exact key (pieces_scans text) hf

/-- The values are parts of the text. -/
theorem infix_of_mem_values {v : List Char} (hv : v ∈ values lead value text) : v <:+: text := by
  have key : ∀ {before text ps}, Scans lead value before text ps →
      v ∈ ps.filterMap Piece.value? → v <:+: text := by
    intro before text ps h
    induction h with
    | nil => exact fun hv => by cases hv
    | @plain before c text ps _ _ ih => exact fun hv => (ih hv).trans (List.suffix_cons ..).isInfix
    | @found before text u v' rest ps hm _ ih =>
      intro hv
      rw [← (firstMatch_spec hm).2.2.1]
      rcases List.mem_cons.mp hv with rfl | hv
      · exact List.infix_append ..
      · exact (ih hv).trans (List.suffix_append ..).isInfix
  exact key (pieces_scans text) hv

theorem within_of_mem_values {v : List Char} {kind : Char → Prop} (hvalue : value.Within kind)
    (hv : v ∈ values lead value text) : ∀ c ∈ v, kind c := by
  have key : ∀ {before text ps}, Scans lead value before text ps →
      v ∈ ps.filterMap Piece.value? → ∀ c ∈ v, kind c := by
    intro before text ps h
    induction h with
    | nil => exact fun hv => by cases hv
    | plain _ _ ih => exact ih
    | found hm _ ih =>
      intro hv
      rcases List.mem_cons.mp hv with rfl | hv
      · exact hvalue _ _ _ (firstMatch_spec hm).2.1
      · exact ih hv
  exact key (pieces_scans text) hv

/-- There are no more values than occurrences of a character that every lead contains. -/
theorem length_values_le {d : Char} (hlead : ∀ before text, ∀ r ∈ lead.run before text, d ∈ r.1) :
    (values lead value text).length ≤ text.count d := by
  have key : ∀ {before text ps}, Scans lead value before text ps →
      (ps.filterMap Piece.value?).length ≤ text.count d := by
    intro before text ps h
    induction h with
    | nil => exact Nat.le_refl 0
    | @plain before c text ps _ _ ih => exact ih.trans (List.count_le_count_cons)
    | @found before text u v rest ps hm _ ih =>
      obtain ⟨hu, _, hsplit, _⟩ := firstMatch_spec hm
      have hpos : 0 < u.count d := List.count_pos_iff.mpr (hlead _ _ _ hu)
      rw [← hsplit, List.count_append, List.count_append]
      simp only [List.filterMap_cons, Piece.value?, List.length_cons]
      omega
  exact key (pieces_scans text)

theorem literal_run {s : List Char} {r : List Char × List Char}
    (hr : r ∈ (Pattern.literal s).run before text) : r.1 = s := by
  induction s generalizing before text r with
  | nil =>
    obtain rfl := List.mem_singleton.mp hr
    rfl
  | cons k s ih =>
    obtain ⟨r₁, hr₁, hr⟩ := List.mem_flatMap.mp hr
    obtain ⟨r₂, hr₂, rfl⟩ := List.mem_map.mp hr
    have hfirst : r₁.1 = [k] := by
      cases text with
      | nil => cases hr₁
      | cons c text =>
        change r₁ ∈ (if c == k then [([c], text)] else []) at hr₁
        split at hr₁
        · rename_i hc
          obtain rfl := List.mem_singleton.mp hr₁
          rw [beq_iff_eq.mp hc]
        · cases hr₁
    rw [hfirst, ih hr₂]
    rfl

theorem replace_found {s u v rest : List Char}
    (h : firstMatch .empty (.literal s) before text = some (u, v, rest)) :
    u = [] ∧ v = s ∧ s ++ rest = text := by
  obtain ⟨hu, hv, hsplit, _⟩ := firstMatch_spec h
  obtain ⟨rfl, -⟩ := Prod.mk.inj (List.mem_singleton.mp hu)
  have hs : v = s := literal_run hv
  exact ⟨rfl, hs, by rw [← hsplit, hs]; rfl⟩

theorem replace_of_absent {s : List Char} (hs : ¬s <:+: text) : replace s text = text := by
  have key : ∀ {before text ps}, Scans .empty (.literal s) before text ps → ¬s <:+: text →
      ps.flatMap Piece.masked = text := by
    intro before text ps h
    induction h with
    | nil => exact fun _ => rfl
    | @plain before c text ps _ _ ih =>
      intro hs
      exact congrArg (c :: ·) (ih fun hin => hs (hin.trans (List.suffix_cons ..).isInfix))
    | found hm _ _ =>
      intro hs
      obtain ⟨_, _, rfl⟩ := replace_found hm
      exact absurd (List.prefix_append ..).isInfix hs
  exact key (pieces_scans text) hs

/-- A replacement shortens a text at most by the length of what is replaced. -/
theorem length_le_replace {s : List Char} {n : ℕ} (hs : s.length ≤ n) (hn : 0 < n) :
    text.length ≤ n * (replace s text).length := by
  have key : ∀ {before text ps}, Scans .empty (.literal s) before text ps →
      text.length ≤ n * (ps.flatMap Piece.masked).length := by
    intro before text ps h
    induction h with
    | nil => exact Nat.zero_le _
    | @plain before c text ps _ _ ih =>
      have hone : (Piece.plain c).masked.length = 1 := rfl
      rw [List.flatMap_cons, List.length_append, List.length_cons, hone, Nat.mul_add, Nat.mul_one]
      omega
    | @found before text u v rest ps hm _ ih =>
      obtain ⟨rfl, rfl, rfl⟩ := replace_found hm
      have hthree : (Piece.found [] v).masked.length = 3 := rfl
      rw [List.flatMap_cons, List.length_append, List.length_append, hthree, Nat.mul_add]
      omega
  exact key (pieces_scans text)

end Scan
