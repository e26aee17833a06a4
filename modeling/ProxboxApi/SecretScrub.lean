import Mathlib
import ProxboxApi.Scan

/-! What the intent dispatchers leave of the secrets of a payload in a message. -/

namespace ProxboxApi.SecretScrub

open Scan Scan.Pattern

/-- `re.IGNORECASE` on the letters of the keys. -/
def sameLetter (c k : Char) : Bool :=
  c.toLower == k || (k == 'i' && (c.toNat == 0x130 || c.toNat == 0x131)) ||
    (k == 's' && c.toNat == 0x17f) || (k == 'k' && c.toNat == 0x212a)

def isQuote (c : Char) : Bool := c == '"' || c.toNat == 39

def isSeparator (c : Char) : Bool := c == ':' || c == '='

def isBreak (c : Char) : Bool := c == '\r' || c == '\n'

def isClosing (c : Char) : Bool := c == '}' || c == ']'

def key (s : String) : Pattern := word sameLetter s.toList

def atLeastOne (test : Char → Bool) : Pattern := (one test).seq (many test)

/-- The text between a key and its value. -/
def separator : Pattern :=
  (one isQuote).opt.seq ((many Text.isSpace).seq ((one isSeparator).seq
    ((many Text.isSpace).seq (one isQuote).opt)))

/-- The first two groups of the pattern of `scrub_message`. -/
def keyLead : Pattern :=
  (((key "password").alt (key "cipassword")).alt ((key "secret").alt (key "token"))).seq separator

def keyValue : Pattern :=
  atLeastOne fun c => !(c == ',' || isQuote c || Text.isSpace c || isClosing c)

/-- The group of `PASSWORD_LINE_RE`. -/
def lineLead : Pattern :=
  (one isQuote).opt.seq ((key "ci").opt.seq ((key "password").seq separator))

def lineValue : Pattern :=
  atLeastOne fun c => !(isBreak c || c == ',' || isClosing c || isQuote c)

/-- `str.isalnum` or an underscore; only the ASCII characters are spelled out. -/
def isWord (alnum : Char → Bool) (c : Char) : Bool :=
  if c.toNat < 128 then c.isAlphanum || c == '_' else alnum c

/-- `PASSWORD_LINE_VALUE_RE` up to its group. -/
def secretLead (alnum : Char → Bool) : Pattern :=
  (boundary (isWord alnum)).seq ((key "password").seq ((many Text.isSpace).seq
    ((one (· == ':')).seq (many Text.isSpace))))

def secretValue : Pattern := atLeastOne fun c => !isBreak c

/-- A payload, or with holes one without its secret. -/
inductive Payload (α : Type) where
  | object (entries : List (String × Payload α))
  | list (items : List (Payload α))
  | str (s : List α)
  | other

/-- `str.lower` of a key is one of `SENSITIVE_KEYS`; of the characters beyond ASCII only the Kelvin
sign has an ASCII letter for its lower case. -/
def isSensitiveKey (key : String) : Bool :=
  ["password", "cipassword", "secret", "token"].contains
    (String.ofList (key.toList.map fun c => if c.toNat = 0x212a then 'k' else c.toLower))

/-- The value of a sensitive key, if it is a string that is not empty. -/
def sensitiveItem (key : String) (item : Payload Char) : Option (List Char) :=
  match item with
  | .str s => if isSensitiveKey key && !s.isEmpty then some s else none
  | _ => none

/-- The secret in the group of a match. -/
def lineSecret (group : List Char) : Option (List Char) :=
  let secret := Text.stripChars isQuote (Text.stripChars Text.isSpace group)
  if secret.isEmpty || secret == stars then none else some secret

variable (alnum : Char → Bool)

mutual

def collectSensitiveValues : Payload Char → List (List Char)
  | .object entries => collectEntries entries
  | .list items => collectItems items
  | .str s => (values (secretLead alnum) secretValue s).filterMap lineSecret
  | .other => []

def collectEntries : List (String × Payload Char) → List (List Char)
  | [] => []
  | (key, item) :: entries =>
    (match sensitiveItem key item with
      | some secret => [secret]
      | none => collectSensitiveValues item) ++ collectEntries entries

def collectItems : List (Payload Char) → List (List Char)
  | [] => []
  | item :: items => collectSensitiveValues item ++ collectItems items

end

/-- What `scrub_cloud_init` makes of a string. -/
def scrubText (text : List Char) : List Char := mask lineLead lineValue text

def scrubMessage (message : List Char) (payload : Option (Payload Char)) : List Char :=
  let scrubbed := scrubText (mask keyLead keyValue message)
  match payload with
  | none => scrubbed
  | some payload =>
    (collectSensitiveValues alnum payload).foldl (fun text secret => replace secret text) scrubbed

/-- A template with its holes filled. -/
def fill (s : List Char) (template : List (Option Char)) : List Char :=
  template.flatMap fun c => c.elim s ([·])

mutual

def Payload.fill (s : List Char) : Payload (Option Char) → Payload Char
  | .object entries => .object (fillEntries s entries)
  | .list items => .list (fillItems s items)
  | .str t => .str (SecretScrub.fill s t)
  | .other => .other

def fillEntries (s : List Char) :
    List (String × Payload (Option Char)) → List (String × Payload Char)
  | [] => []
  | (key, item) :: entries => (key, item.fill s) :: fillEntries s entries

def fillItems (s : List Char) : List (Payload (Option Char)) → List (Payload Char)
  | [] => []
  | item :: items => item.fill s :: fillItems s items

end

mutual

/-- The keys and the strings of a payload template. -/
def Payload.texts : Payload (Option Char) → List (List (Option Char))
  | .object entries => entryTexts entries
  | .list items => itemTexts items
  | .str t => [t]
  | .other => []

def entryTexts : List (String × Payload (Option Char)) → List (List (Option Char))
  | [] => []
  | (key, item) :: entries => key.toList.map some :: (item.texts ++ entryTexts entries)

def itemTexts : List (Payload (Option Char)) → List (List (Option Char))
  | [] => []
  | item :: items => item.texts ++ itemTexts items

end

/-- There is a hole under a sensitive key, or on a `password:` line of a string. -/
inductive Payload.Placed : Payload (Option Char) → Prop
  | key {entries name t} (h : (name, .str t) ∈ entries) (hname : isSensitiveKey name = true)
      (hole : none ∈ t) : Placed (.object entries)
  | line {a b d : List (Option Char)} (hline : ∀ c, some c ∈ b → isBreak c = false) :
      Placed (.str (a ++ "password:".toList.map some ++ b ++ none :: d))
  | entry {entries name item} (h : (name, item) ∈ entries) (hitem : item.Placed) :
      Placed (.object entries)
  | item {items item} (h : item ∈ items) (hitem : item.Placed) : Placed (.list items)

/-- A template of a message and one of a payload, both with a hole for the secret. -/
structure Form where
  message : List (Option Char)
  payload : Payload (Option Char)
  hole : none ∈ message
  placed : payload.Placed

/-- The templates are free of the secret. -/
def Form.Avoids (f : Form) (s : List Char) : Prop :=
  ∀ t ∈ f.message :: f.payload.texts, ¬s.map some <:+: t

instance (f : Form) (s : List Char) : Decidable (f.Avoids s) :=
  inferInstanceAs (Decidable (∀ t ∈ f.message :: f.payload.texts, ¬s.map some <:+: t))

def Form.scrubbed (f : Form) (s : List Char) : List Char :=
  scrubMessage alnum (fill s f.message) (some (f.payload.fill s))

/-- The scrubbed message does not depend on the secret. -/
def Form.Hides (f : Form) : Prop :=
  ∀ s s', s ≠ [] → s' ≠ [] → f.Avoids s → f.Avoids s' → f.scrubbed alnum s = f.scrubbed alnum s'

/-- How a secret begins that the patterns cut. -/
def mark : List Char := "password=z".toList

def tail (m : ℕ) : List Char := (List.replicate m ['\n', 'z']).flatten

/-- Secrets of which the patterns leave everything after the comma. -/
def secret (m : ℕ) : List Char := mark ++ ',' :: tail m

section Patterns

variable {d : Char}

theorem key_within {s : String} (h : (s.toList.all fun k => !sameLetter d k) = true) :
    (key s).Within (· ≠ d) := by
  refine word_within fun k hk c hc => ?_
  rintro rfl
  have := List.all_eq_true.mp h k hk
  rw [hc] at this
  cases this

theorem one_within_ne {test : Char → Bool} (h : test d = false) : (one test).Within (· ≠ d) := by
  refine one_within fun c hc => ?_
  rintro rfl
  rw [h] at hc
  cases hc

theorem many_within_ne {test : Char → Bool} (h : test d = false) :
    (many test).Within (· ≠ d) := by
  refine many_within fun c hc => ?_
  rintro rfl
  rw [h] at hc
  cases hc

theorem atLeastOne_within_ne {test : Char → Bool} (h : test d = false) :
    (atLeastOne test).Within (· ≠ d) :=
  seq_within (one_within_ne h) (many_within_ne h)

theorem separator_within (hquote : isQuote d = false) (hspace : Text.isSpace d = false)
    (hseparator : isSeparator d = false) : separator.Within (· ≠ d) :=
  seq_within (opt_within (one_within_ne hquote)) (seq_within (many_within_ne hspace)
    (seq_within (one_within_ne hseparator) (seq_within (many_within_ne hspace)
      (opt_within (one_within_ne hquote)))))

theorem keyLead_comma : keyLead.Within (· ≠ ',') :=
  seq_within (alt_within (alt_within (key_within rfl) (key_within rfl))
    (alt_within (key_within rfl) (key_within rfl))) (separator_within rfl rfl rfl)

theorem keyLead_z : keyLead.Within (· ≠ 'z') :=
  seq_within (alt_within (alt_within (key_within rfl) (key_within rfl))
    (alt_within (key_within rfl) (key_within rfl))) (separator_within rfl rfl rfl)

theorem lineLead_comma : lineLead.Within (· ≠ ',') :=
  seq_within (opt_within (one_within_ne rfl)) (seq_within (opt_within (key_within rfl))
    (seq_within (key_within rfl) (separator_within rfl rfl rfl)))

theorem key_refuses {s : String} {k : Char} {ks : List Char} (hs : s.toList = k :: ks)
    (h : sameLetter d k = false) : (key s).Refuses d := by
  unfold key
  rw [hs]
  exact seq_refuses (one_refuses h)

theorem keyLead_refuses (hp : sameLetter d 'p' = false) (hc : sameLetter d 'c' = false)
    (hs : sameLetter d 's' = false) (ht : sameLetter d 't' = false) : keyLead.Refuses d :=
  seq_refuses (alt_refuses (alt_refuses (key_refuses rfl hp) (key_refuses rfl hc))
    (alt_refuses (key_refuses rfl hs) (key_refuses rfl ht)))

theorem lineLead_refuses (hquote : isQuote d = false) (hp : sameLetter d 'p' = false)
    (hc : sameLetter d 'c' = false) : lineLead.Refuses d :=
  opt_seq_refuses (one_refuses hquote)
    (opt_seq_refuses (key_refuses rfl hc) (seq_refuses (key_refuses rfl hp)))

theorem mem_tail {m : ℕ} {c : Char} (hc : c ∈ tail m) : c = '\n' ∨ c = 'z' := by
  obtain ⟨l, hl, hc⟩ := List.mem_flatten.mp hc
  rw [List.eq_of_mem_replicate hl] at hc
  simpa using hc

end Patterns

/-- What is after the comma survives both patterns. -/
theorem tail_survives {text : List Char} {m : ℕ} (h : ',' :: tail m <:+: text) :
    ',' :: tail m <:+: scrubText (mask keyLead keyValue text) := by
  refine infix_mask lineLead_comma (atLeastOne_within_ne rfl) ?_
    (infix_mask keyLead_comma (atLeastOne_within_ne rfl) ?_ h)
  · intro c hc
    rcases mem_tail hc with rfl | rfl
    · exact lineLead_refuses rfl rfl rfl
    · exact lineLead_refuses rfl rfl rfl
  · intro c hc
    rcases mem_tail hc with rfl | rfl
    · exact keyLead_refuses rfl rfl rfl rfl
    · exact keyLead_refuses rfl rfl rfl rfl

theorem mark_matches (before : Option Char) (rest : List Char) :
    (firstMatch keyLead keyValue before (mark ++ rest)).isSome = true := by
  have hsame : ("password".toList.all fun k => sameLetter k k) = true := rfl
  have hseparator (before : Option Char) : (['='], 'z' :: rest) ∈ separator.run before
      ('=' :: 'z' :: rest) :=
    mem_seq (u := []) mem_opt (mem_seq (u := []) mem_many
      (mem_seq (u := ['=']) (mem_one rfl) (mem_seq (u := []) (v := []) mem_many mem_opt)))
  have hkey : ("password".toList, '=' :: 'z' :: rest) ∈ (key "password").run before
      ("password".toList ++ '=' :: 'z' :: rest) :=
    mem_word (List.all_eq_true.mp hsame)
  have hlead : ("password".toList ++ ['='], 'z' :: rest) ∈ keyLead.run before
      ("password".toList ++ '=' :: 'z' :: rest) :=
    mem_seq (List.mem_append_left _ (List.mem_append_left _ hkey)) (hseparator _)
  have hvalue : (['z'], rest) ∈ keyValue.run (some '=') ('z' :: rest) :=
    mem_seq (u := ['z']) (v := []) (mem_one rfl) mem_many
  exact firstMatch_isSome hlead hvalue (by simp)

/-- The start of the secrets does not survive the first pattern, whatever is around it. -/
theorem mark_gone (text : List Char) : ¬mark <:+: scrubText (mask keyLead keyValue text) := by
  have hstar : '*' ∉ mark := by decide
  intro h
  exact not_infix_mask hstar (by decide) keyLead_z mark_matches (infix_of_mask hstar h)

theorem infix_fill {s : List Char} {t : List (Option Char)} (h : none ∈ t) : s <:+: fill s t := by
  obtain ⟨a, b, rfl⟩ := List.append_of_mem h
  unfold fill
  rw [List.flatMap_append, List.flatMap_cons]
  exact List.infix_append' ..

theorem length_fill {s : List Char} {t : List (Option Char)} (h : none ∉ t) :
    (fill s t).length = t.length := by
  induction t with
  | nil => rfl
  | cons c t ih =>
    cases c with
    | none => exact absurd (List.mem_cons_self ..) h
    | some c => exact congrArg (· + 1) (ih fun hmem => h (List.mem_cons_of_mem _ hmem))

/-- A part without a line break that starts in the tail of a secret or after it is short. -/
theorem length_le_of_tail {m n : ℕ} {v text : List Char} (hbreak : '\n' ∉ v) (h1 : 1 ≤ n)
    (hrest : v <:+: 'z' :: text → v.length ≤ n) (h : v <:+: tail (m + 1) ++ text) :
    v.length ≤ n := by
  induction m with
  | zero =>
    rcases infix_of_not_mem (a := []) hbreak h with h | h
    · exact (List.infix_nil.mp h) ▸ Nat.zero_le n
    · exact hrest h
  | succ m ih =>
    rcases infix_of_not_mem (a := []) hbreak h with h | h
    · exact (List.infix_nil.mp h) ▸ Nat.zero_le n
    · change v <:+: ['z'] ++ '\n' :: ('z' :: (tail m ++ text)) at h
      rcases infix_of_not_mem hbreak h with h | h
      · exact h.length_le.trans h1
      · refine ih ?_
        exact h.trans (List.suffix_cons '\n' _).isInfix

/-- A line of a filled template is short, however long the secret is. -/
theorem length_line_le {m : ℕ} {v : List Char} (hbreak : '\n' ∉ v) {t : List (Option Char)}
    {a : List Char} (h : v <:+: a ++ fill (secret (m + 1)) t) :
    v.length ≤ a.length + 12 * t.length + 1 := by
  induction t generalizing a with
  | nil =>
    have := h.length_le
    simp only [fill, List.flatMap_nil, List.append_nil] at this
    omega
  | cons c t ih =>
    cases c with
    | some c =>
      have := ih (a := a ++ [c]) (by simpa [fill] using h)
      simp only [List.length_append, List.length_cons, List.length_nil] at this ⊢
      omega
    | none =>
      have hsplit : a ++ fill (secret (m + 1)) (none :: t) =
          (a ++ (mark ++ [','])) ++ '\n' :: ('z' :: (tail m ++ fill (secret (m + 1)) t)) := by
        simp [fill, secret, tail, List.replicate_succ]
      rw [hsplit] at h
      rcases infix_of_not_mem hbreak h with h | h
      · have := h.length_le
        simp only [List.length_append, List.length_cons, List.length_nil] at this ⊢
        have hmark : mark.length = 10 := rfl
        omega
      · have h' : v <:+: tail (m + 1) ++ fill (secret (m + 1)) t :=
          h.trans (List.suffix_cons '\n' _).isInfix
        refine length_le_of_tail hbreak (by omega) (fun hz => ?_) h'
        have := ih (a := ['z']) hz
        simp only [List.length_cons, List.length_nil] at this ⊢
        omega

/-- The collected values are few, and each contains the start of the secret or is short. -/
def Bounded (n : ℕ) (secrets : List (List Char)) : Prop :=
  secrets.length ≤ n ∧ ∀ q ∈ secrets, mark <:+: q ∨ q.length ≤ n

theorem Bounded.append {n n' : ℕ} {secrets secrets' : List (List Char)} (h : Bounded n secrets)
    (h' : Bounded n' secrets') : Bounded (n + n') (secrets ++ secrets') := by
  refine ⟨by rw [List.length_append]; exact Nat.add_le_add h.1 h'.1, fun q hq => ?_⟩
  rcases List.mem_append.mp hq with hq | hq
  · exact (h.2 q hq).imp_right fun hle => hle.trans (Nat.le_add_right ..)
  · exact (h'.2 q hq).imp_right fun hle => hle.trans (Nat.le_add_left ..)

theorem length_stripChars_le (p : Char → Bool) (s : List Char) :
    (Text.stripChars p s).length ≤ s.length := by
  have hsuffix : ∀ l : List Char, (l.dropWhile p).length ≤ l.length :=
    fun l => (List.dropWhile_suffix p).length_le
  unfold Text.stripChars
  rw [List.length_reverse]
  refine (hsuffix _).trans ?_
  rw [List.length_reverse]
  exact hsuffix s

variable {alnum}

theorem length_lineSecret_le {v q : List Char} (h : lineSecret v = some q) :
    q.length ≤ v.length := by
  simp only [lineSecret] at h
  split at h
  · cases h
  · obtain rfl := Option.some.inj h
    exact (length_stripChars_le ..).trans (length_stripChars_le ..)

theorem count_fill (m : ℕ) (t : List (Option Char)) :
    (fill (secret m) t).count ':' ≤ t.length := by
  induction t with
  | nil => exact Nat.zero_le 0
  | cons c t ih =>
    unfold fill at ih ⊢
    rw [List.flatMap_cons, List.count_append, List.length_cons]
    cases c with
    | some c =>
      have hone : [c].count ':' ≤ 1 := List.count_le_length
      rw [Option.elim_some]
      omega
    | none =>
      have hnone : (secret m).count ':' = 0 := by
        refine List.count_eq_zero.mpr fun hmem => ?_
        rcases List.mem_append.mp hmem with h | h
        · revert h
          decide
        · rcases List.mem_cons.mp h with h | h
          · cases h
          · rcases mem_tail h with h | h <;> cases h
      rw [Option.elim_none, hnone]
      omega

theorem secretLead_colon (before : Option Char) (text : List Char) :
    ∀ r ∈ (secretLead alnum).run before text, ':' ∈ r.1 := by
  intro r hr
  obtain ⟨r₁, _, hr⟩ := List.mem_flatMap.mp hr
  obtain ⟨r₂, hr₂, rfl⟩ := List.mem_map.mp hr
  obtain ⟨r₃, _, hr₂⟩ := List.mem_flatMap.mp hr₂
  obtain ⟨r₄, hr₄, rfl⟩ := List.mem_map.mp hr₂
  obtain ⟨r₅, _, hr₄⟩ := List.mem_flatMap.mp hr₄
  obtain ⟨r₆, hr₆, rfl⟩ := List.mem_map.mp hr₄
  obtain ⟨r₇, hr₇, hr₆⟩ := List.mem_flatMap.mp hr₆
  obtain ⟨r₈, _, rfl⟩ := List.mem_map.mp hr₆
  have hcolon : r₇.1 = [':'] := by
    cases hrest : r₅.2 with
    | nil =>
      rw [hrest] at hr₇
      cases hr₇
    | cons c rest =>
      rw [hrest] at hr₇
      change r₇ ∈ (if c == ':' then [([c], rest)] else []) at hr₇
      split at hr₇
      · rename_i hc
        obtain rfl := List.mem_singleton.mp hr₇
        rw [beq_iff_eq.mp hc]
      · cases hr₇
  simp [hcolon]

theorem sensitiveItem_bounded (key : String) (item : Payload (Option Char)) : ∃ n, ∀ m q,
    sensitiveItem key (item.fill (secret (m + 1))) = some q → Bounded n [q] := by
  cases item with
  | str t =>
    refine ⟨t.length + 1, fun m q hq => ⟨Nat.le_add_left .., fun q' hq' => ?_⟩⟩
    obtain rfl := List.mem_singleton.mp hq'
    rw [Payload.fill] at hq
    simp only [sensitiveItem, Option.ite_none_right_eq_some, Option.some.injEq] at hq
    rw [← hq.2]
    by_cases hole : none ∈ t
    · exact .inl ((List.prefix_append ..).isInfix.trans (infix_fill hole))
    · exact .inr ((length_fill hole).le.trans (Nat.le_succ _))
  | object entries =>
    refine ⟨0, fun m q hq => ?_⟩
    rw [Payload.fill] at hq
    cases hq
  | list items =>
    refine ⟨0, fun m q hq => ?_⟩
    rw [Payload.fill] at hq
    cases hq
  | other =>
    refine ⟨0, fun m q hq => ?_⟩
    rw [Payload.fill] at hq
    cases hq

theorem bounded_str (m : ℕ) (t : List (Option Char)) :
    Bounded (12 * t.length + 1)
      (collectSensitiveValues alnum (.str (fill (secret (m + 1)) t))) := by
  unfold collectSensitiveValues
  constructor
  · have hvalues : (values (secretLead alnum) secretValue (fill (secret (m + 1)) t)).length ≤ _ :=
      length_values_le secretLead_colon
    have hcount := count_fill (m + 1) t
    exact (List.length_filterMap_le ..).trans (by omega)
  · intro q hq
    obtain ⟨v, hv, hq⟩ := List.mem_filterMap.mp hq
    have hbreak : '\n' ∉ v := fun hmem =>
      within_of_mem_values (atLeastOne_within_ne rfl : secretValue.Within (· ≠ '\n')) hv _ hmem rfl
    have hline := length_line_le (a := []) hbreak (infix_of_mem_values hv)
    refine .inr ((length_lineSecret_le hq).trans ?_)
    simpa using hline

theorem Bounded.mono {n n' : ℕ} {secrets : List (List Char)} (h : Bounded n secrets)
    (hle : n ≤ n') : Bounded n' secrets :=
  ⟨h.1.trans hle, fun q hq => (h.2 q hq).imp_right fun hq => hq.trans hle⟩

mutual

/-- The bound depends on the payload template only, not on the length of the secret. -/
theorem collect_bounded : ∀ p : Payload (Option Char), ∃ n, ∀ m,
    Bounded n (collectSensitiveValues alnum (p.fill (secret (m + 1))))
  | .object entries => by
    obtain ⟨n, hn⟩ := collectEntries_bounded entries
    refine ⟨n, fun m => ?_⟩
    rw [Payload.fill, collectSensitiveValues]
    exact hn m
  | .list items => by
    obtain ⟨n, hn⟩ := collectItems_bounded items
    refine ⟨n, fun m => ?_⟩
    rw [Payload.fill, collectSensitiveValues]
    exact hn m
  | .str t => ⟨12 * t.length + 1, fun m => by
    rw [Payload.fill]
    exact bounded_str m t⟩
  | .other => ⟨0, fun m => by
    rw [Payload.fill, collectSensitiveValues]
    exact ⟨Nat.le_refl 0, fun q hq => by cases hq⟩⟩

theorem collectEntries_bounded : ∀ entries : List (String × Payload (Option Char)), ∃ n, ∀ m,
    Bounded n (collectEntries alnum (fillEntries (secret (m + 1)) entries))
  | [] => ⟨0, fun m => ⟨Nat.le_refl 0, fun q hq => by cases hq⟩⟩
  | (key, item) :: entries => by
    obtain ⟨n, hn⟩ := collect_bounded item
    obtain ⟨n', hn'⟩ := collectEntries_bounded entries
    obtain ⟨k, hk⟩ := sensitiveItem_bounded key item
    refine ⟨n + k + n', fun m => ?_⟩
    rw [fillEntries, collectEntries]
    refine Bounded.append ?_ (hn' m)
    cases hsecret : sensitiveItem key (item.fill (secret (m + 1))) with
    | none => exact (hn m).mono (Nat.le_add_right ..)
    | some q => exact ((hk m q hsecret).mono (Nat.le_add_left ..))

theorem collectItems_bounded : ∀ items : List (Payload (Option Char)), ∃ n, ∀ m,
    Bounded n (collectItems alnum (fillItems (secret (m + 1)) items))
  | [] => ⟨0, fun m => ⟨Nat.le_refl 0, fun q hq => by cases hq⟩⟩
  | item :: items => by
    obtain ⟨n, hn⟩ := collect_bounded item
    obtain ⟨n', hn'⟩ := collectItems_bounded items
    refine ⟨n + n', fun m => ?_⟩
    rw [fillItems, collectItems]
    exact (hn m).append (hn' m)

end

/-- As long as the start of the secrets is absent, the replacements shrink a text by a constant
factor only. -/
theorem length_le_foldl {n : ℕ} (hn : 0 < n) {secrets : List (List Char)}
    (h : ∀ q ∈ secrets, mark <:+: q ∨ q.length ≤ n) {text : List Char} (hmark : ¬mark <:+: text) :
    text.length ≤ n ^ secrets.length *
      (secrets.foldl (fun text secret => replace secret text) text).length := by
  have hstar : '*' ∉ mark := by decide
  induction secrets generalizing text with
  | nil => rw [List.length_nil, Nat.pow_zero, Nat.one_mul, List.foldl_nil]
  | cons q secrets ih =>
    have hq : text.length ≤ n * (replace q text).length ∧ ¬mark <:+: replace q text := by
      refine ⟨?_, fun hin => hmark (infix_of_mask hstar hin)⟩
      rcases h q (List.mem_cons_self ..) with hin | hle
      · rw [replace_of_absent fun hqt => hmark (hin.trans hqt)]
        exact Nat.le_mul_of_pos_left _ hn
      · exact length_le_replace hle hn
    calc text.length ≤ n * (replace q text).length := hq.1
      _ ≤ n * (n ^ secrets.length * _) := Nat.mul_le_mul_left n
        (ih (fun q' hq' => h q' (List.mem_cons_of_mem q hq')) hq.2)
      _ = n ^ (q :: secrets).length * _ := by
        rw [← Nat.mul_assoc, List.length_cons, Nat.pow_succ, Nat.mul_comm n]
        rfl

theorem length_tail (m : ℕ) : (tail m).length = 2 * m := by
  simp [tail, Nat.mul_comm]

/-- What is left of the secrets grows without a bound. -/
theorem scrubbed_grows (f : Form) :
    ∃ n, ∀ m, m ≤ n * (f.scrubbed alnum (secret (m + 1))).length := by
  obtain ⟨n, hn⟩ := @collect_bounded alnum f.payload
  refine ⟨(n + 1) ^ n, fun m => ?_⟩
  obtain ⟨hfew, hshort⟩ := (hn m).mono (Nat.le_succ n)
  have hfew := (hn m).1
  let text := scrubText (mask keyLead keyValue (fill (secret (m + 1)) f.message))
  have hsecret : ',' :: tail (m + 1) <:+: secret (m + 1) := (List.suffix_append ..).isInfix
  have htail : ',' :: tail (m + 1) <:+: text := tail_survives (hsecret.trans (infix_fill f.hole))
  have hlong : m ≤ text.length := by
    have := htail.length_le
    rw [List.length_cons, length_tail] at this
    omega
  calc m ≤ text.length := hlong
    _ ≤ (n + 1) ^ _ * _ := length_le_foldl (Nat.succ_pos n) hshort (mark_gone _)
    _ ≤ (n + 1) ^ n * _ := Nat.mul_le_mul_right _ (Nat.pow_le_pow_right (Nat.succ_pos n) hfew)

theorem Form.avoids_of_long (f : Form) : ∃ n, ∀ m, n ≤ m → f.Avoids (secret (m + 1)) := by
  refine ⟨(f.message :: f.payload.texts).flatten.length, fun m hm t ht hin => ?_⟩
  have hle := (List.sublist_flatten_of_mem ht).length_le
  have hlen := hin.length_le
  simp only [List.length_map, secret, List.length_append, List.length_cons, length_tail] at hlen
  omega

/-- No pair of templates hides its secret. -/
theorem not_hides (alnum : Char → Bool) (f : Form) : ¬f.Hides alnum := by
  intro h
  obtain ⟨n, hn⟩ := @scrubbed_grows alnum f
  obtain ⟨k, hk⟩ := f.avoids_of_long
  let long := n * (f.scrubbed alnum (secret (k + 1))).length + 1 + k
  have heq : f.scrubbed alnum (secret (k + 1)) = f.scrubbed alnum (secret (long + 1)) :=
    h _ _ (by simp [secret]) (by simp [secret]) (hk k (Nat.le_refl k))
      (hk long (Nat.le_add_left ..))
  have hlong := hn long
  rw [← heq] at hlong
  change n * _ + 1 + k ≤ n * _ at hlong
  omega

/-- A message and a payload with a password. -/
def passwordForm : Form where
  message := "password: ".toList.map some ++ [none]
  payload := .object [("password", .str [none])]
  hole := by decide
  placed := .key (List.mem_singleton.mpr rfl) (by decide) (List.mem_singleton.mpr rfl)

/-- Of a password with a comma, what is after the comma remains. -/
theorem comma_survives : ¬∀ (alnum : Char → Bool) (f : Form), f.Hides alnum := by
  intro h
  have := h (fun _ => false) passwordForm "a,b".toList "x".toList (by decide) (by decide)
    (by decide) (by decide)
  revert this
  decide

end ProxboxApi.SecretScrub
