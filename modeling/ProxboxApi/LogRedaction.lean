import Mathlib
import ProxboxApi.ScanWords
import ProxboxApi.SecretScrub

/-! What `log_buffer` takes out of a message before it is kept. -/

namespace ProxboxApi.LogRedaction

open Scan Scan.Pattern SecretScrub

/-- The letter that a letter counts as under `re.IGNORECASE`. -/
def fold (c : Char) : Char :=
  if c.toNat = 0x130 ∨ c.toNat = 0x131 then 'i'
  else if c.toNat = 0x17f then 's'
  else if c.toNat = 0x212a then 'k'
  else c.toLower

/-- `[a-zA-Z0-9]` under `re.IGNORECASE`. -/
def isAlnum (c : Char) : Bool :=
  (97 ≤ (fold c).toNat && (fold c).toNat ≤ 122) || (48 ≤ c.toNat && c.toNat ≤ 57)

def isSecretChar (c : Char) : Bool := isAlnum c || c == '_' || c == '-'

def isBearerChar (c : Char) : Bool := c.isAlphanum || c == '_' || c == '-' || c == '.'

def isBasicChar (c : Char) : Bool := c.isAlphanum || c == '+' || c == '/' || c == '='

def secretPattern : Pattern :=
  ((key "token").alt ((key "password").alt ((key "secret").alt ((key "key").alt
    (key "auth"))))).seq ((one isSeparator).seq ((many Text.isSpace).seq ((one isQuote).opt.seq
      ((atLeast isSecretChar 8).seq (one isQuote).opt))))

def bearerPattern : Pattern :=
  (literal "Bearer".toList).seq ((atLeast Text.isSpace 1).seq (atLeast isBearerChar 1))

def basicPattern : Pattern :=
  (literal "Basic".toList).seq ((atLeast Text.isSpace 1).seq (atLeast isBasicChar 1))

def apiKeyPattern : Pattern :=
  (key "x-proxbox-api-key:").seq ((many Text.isSpace).seq (atLeast isAlnum 1))

/-- A replacement that ends in `[REDACTED]`. -/
def redacted (lead : String) : Marker := ⟨lead.toList, '[', "REDACTED".toList, ']'⟩

/-- `_PII_PATTERNS`. -/
def piiPatterns : List (Pattern × Marker) :=
  [(secretPattern, redacted ""), (bearerPattern, redacted "Bearer "),
    (basicPattern, redacted "Basic "), (apiKeyPattern, redacted "X-Proxbox-API-Key: ")]

/-- `_redact_pii`. -/
def redactPii (text : List Char) : List Char :=
  piiPatterns.foldl (fun text entry => substitute entry.1 entry.2 text) text

/-- The pattern matches nowhere in the text. -/
def Unmatched (p : Pattern) (text : List Char) : Prop :=
  ∀ before s, s <:+ text → p.run before s = []

/-- The texts that `secretPattern` matches. -/
def secretWords : Language Char :=
  (spellings sameLetter "token".toList + (spellings sameLetter "password".toList +
    (spellings sameLetter "secret".toList + (spellings sameLetter "key".toList +
      spellings sameLetter "auth".toList)))) *
    (oneOf isSeparator * (manyOf Text.isSpace * ((oneOf isQuote + 1) *
      (atLeastOf isSecretChar 8 * (oneOf isQuote + 1)))))

/-- The texts of an authorization scheme with its credentials. -/
def schemeWords (scheme : String) (test : Char → Bool) : Language Char :=
  spellings (fun c k => c == k) scheme.toList * (atLeastOf Text.isSpace 1 * atLeastOf test 1)

def bearerWords : Language Char := schemeWords "Bearer" isBearerChar

def basicWords : Language Char := schemeWords "Basic" isBasicChar

def apiKeyWords : Language Char :=
  spellings sameLetter "x-proxbox-api-key:".toList * (manyOf Text.isSpace * atLeastOf isAlnum 1)

theorem secretPattern_reads : secretPattern.Reads secretWords :=
  ((reads_word _).alt ((reads_word _).alt ((reads_word _).alt ((reads_word _).alt
    (reads_word _))))).seq (reads_one.seq (reads_many.seq (reads_one.opt.seq
      ((reads_atLeast 8).seq reads_one.opt))))

theorem bearerPattern_reads : bearerPattern.Reads bearerWords :=
  (reads_word _).seq ((reads_atLeast 1).seq (reads_atLeast 1))

theorem basicPattern_reads : basicPattern.Reads basicWords :=
  (reads_word _).seq ((reads_atLeast 1).seq (reads_atLeast 1))

theorem apiKeyPattern_reads : apiKeyPattern.Reads apiKeyWords :=
  (reads_word _).seq (reads_many.seq (reads_atLeast 1))

section Letters

variable {c c' k : Char}

/-- A character is its own letter, or it is one of those that have another one. -/
theorem fold_cases (c : Char) : fold c = c ∨
    ((65 ≤ c.toNat ∧ c.toNat ≤ 90 ∨ c.toNat = 0x130 ∨ c.toNat = 0x131 ∨ c.toNat = 0x17f ∨
      c.toNat = 0x212a) ∧ 97 ≤ (fold c).toNat ∧ (fold c).toNat ≤ 122) := by
  unfold fold
  split
  · exact .inr ⟨by omega, by decide, by decide⟩
  · split
    · exact .inr ⟨by omega, by decide, by decide⟩
    · split
      · exact .inr ⟨by omega, by decide, by decide⟩
      · rcases Text.toLower_cases c with ⟨hlower, _⟩ | ⟨hupper, hlower⟩
        · exact .inl hlower
        · exact .inr ⟨.inl hupper, hlower⟩

theorem eq_of_fold (hfold : fold c' = fold c)
    (hc : ¬(97 ≤ (fold c).toNat ∧ (fold c).toNat ≤ 122)) : c' = c := by
  rcases fold_cases c with h | h
  · rcases fold_cases c' with h' | h'
    · rw [← h', hfold, h]
    · rw [hfold] at h'
      exact absurd h'.2 hc
  · exact absurd h.2 hc

theorem fold_of_space (h : Text.isSpace c = true) :
    ¬(97 ≤ (fold c).toNat ∧ (fold c).toNat ≤ 122) := by
  simp only [Text.isSpace, Bool.or_eq_true, Bool.and_eq_true, decide_eq_true_eq] at h
  rcases fold_cases c with hc | hc
  · rw [hc]
    omega
  · omega

theorem isSpace_alike (hfold : fold c' = fold c) (h : Text.isSpace c = true) :
    Text.isSpace c' = true := by rwa [eq_of_fold hfold (fold_of_space h)]

theorem isSeparator_alike (hfold : fold c' = fold c) (h : isSeparator c = true) :
    isSeparator c' = true := by
  have hc : c = ':' ∨ c = '=' := by simpa [isSeparator] using h
  rwa [eq_of_fold hfold]
  rcases hc with rfl | rfl <;> decide

theorem isQuote_alike (hfold : fold c' = fold c) (h : isQuote c = true) : isQuote c' = true := by
  have hc : c.toNat = 34 ∨ c.toNat = 39 := by
    simp only [isQuote, Bool.or_eq_true, beq_iff_eq] at h
    exact h.imp_left fun h => by rw [h]; rfl
  rwa [eq_of_fold hfold]
  rcases fold_cases c with hfolded | hfolded
  · rw [hfolded]
    omega
  · omega

theorem isAlnum_alike (hfold : fold c' = fold c) (h : isAlnum c = true) : isAlnum c' = true := by
  by_cases hletter : 97 ≤ (fold c).toNat ∧ (fold c).toNat ≤ 122
  · simp only [isAlnum, hfold, Bool.or_eq_true, Bool.and_eq_true, decide_eq_true_eq]
    exact .inl hletter
  · rwa [eq_of_fold hfold hletter]

theorem isSecretChar_alike (hfold : fold c' = fold c) (h : isSecretChar c = true) :
    isSecretChar c' = true := by
  by_cases hletter : 97 ≤ (fold c).toNat ∧ (fold c).toNat ≤ 122
  · have halnum : isAlnum c' = true := isAlnum_alike hfold (by
      simp only [isAlnum, Bool.or_eq_true, Bool.and_eq_true, decide_eq_true_eq]
      exact .inl hletter)
    rw [isSecretChar, halnum]
    rfl
  · rwa [eq_of_fold hfold hletter]

/-- A key is matched letter by letter. -/
theorem sameLetter_iff (hk : k.toNat < 128) : sameLetter c k = true ↔ fold c = k := by
  have hlower : c.toLower = k → c.toNat < 128 := by
    rintro rfl
    rcases Text.toLower_cases c with h | h
    · rwa [h.1] at hk
    · omega
  have hexotic : 128 ≤ c.toNat → c.toLower ≠ k := fun h heq => absurd (hlower heq) (by omega)
  simp only [sameLetter, fold, Bool.or_eq_true, Bool.and_eq_true, beq_iff_eq]
  split
  · have hc := hexotic (by omega)
    grind
  · split
    · have hc := hexotic (by omega)
      grind
    · split
      · have hc := hexotic (by omega)
        grind
      · grind

theorem sameLetter_alike (hk : k.toNat < 128) (hfold : fold c' = fold c)
    (h : sameLetter c k = true) : sameLetter c' k = true :=
  (sameLetter_iff hk).mpr (hfold.trans ((sameLetter_iff hk).mp h))

end Letters

/-- Characters that count as one letter. -/
def Alike (c' c : Char) : Prop := fold c' = fold c

theorem closed_key (s : String) (hs : (s.toList.all fun k => k.toNat < 128) = true) :
    Closed Alike (spellings sameLetter s.toList) := by
  refine closed_spellings fun k hk c c' halike hsame => ?_
  exact sameLetter_alike (of_decide_eq_true (List.all_eq_true.mp hs k hk)) halike hsame

theorem closed_secretWords : Closed Alike secretWords := by
  have hquote : Closed Alike (oneOf isQuote + 1) :=
    (closed_oneOf fun _ _ h => isQuote_alike h).add closed_one
  have hvalue : Closed Alike (atLeastOf isSecretChar 8) :=
    closed_atLeastOf fun _ _ h => isSecretChar_alike h
  have hkeys := (closed_key "token" (by decide)).add ((closed_key "password" (by decide)).add
    ((closed_key "secret" (by decide)).add ((closed_key "key" (by decide)).add
      (closed_key "auth" (by decide)))))
  have hseparator : Closed Alike (oneOf isSeparator) :=
    closed_oneOf fun _ _ h => isSeparator_alike h
  have hspace : Closed Alike (manyOf Text.isSpace) := closed_manyOf fun _ _ h => isSpace_alike h
  exact hkeys.mul (hseparator.mul (hspace.mul (hquote.mul (hvalue.mul hquote))))

theorem closed_apiKeyWords : Closed Alike apiKeyWords :=
  (closed_key "x-proxbox-api-key:" (by decide)).mul
    ((closed_manyOf fun _ _ h => isSpace_alike h).mul
      (closed_atLeastOf fun _ _ h => isAlnum_alike h))

section Signs

variable {d : Char}

theorem within_ne {test : Char → Bool} (h : test d = false) :
    ∀ c, test c = true → c ≠ d := by
  rintro c hc rfl
  rw [h] at hc
  cases hc

theorem secretPattern_within (hd : d = '[' ∨ d = ']') : secretPattern.Within (· ≠ d) := by
  have hquote : (one isQuote).Within (· ≠ d) := by
    rcases hd with rfl | rfl <;> exact one_within_ne (by decide)
  have hseparator : (one isSeparator).Within (· ≠ d) := by
    rcases hd with rfl | rfl <;> exact one_within_ne (by decide)
  have hspace : (many Text.isSpace).Within (· ≠ d) := by
    rcases hd with rfl | rfl <;> exact many_within_ne (by decide)
  have hvalue : (atLeast isSecretChar 8).Within (· ≠ d) := by
    rcases hd with rfl | rfl <;> exact atLeast_within (within_ne (by decide)) 8
  have hkey : ∀ s ∈ ["token", "password", "secret", "key", "auth"], (key s).Within (· ≠ d) := by
    intro s hs
    refine key_within ?_
    rcases hd with rfl | rfl <;> revert s <;> decide
  have hkeys := alt_within (hkey "token" (by decide)) (alt_within (hkey "password" (by decide))
    (alt_within (hkey "secret" (by decide)) (alt_within (hkey "key" (by decide))
      (hkey "auth" (by decide)))))
  exact seq_within hkeys (seq_within hseparator (seq_within hspace
    (seq_within (opt_within hquote) (seq_within hvalue (opt_within hquote)))))

theorem schemePattern_within {scheme : List Char} {test : Char → Bool} (hscheme : d ∉ scheme)
    (hspace : Text.isSpace d = false) (htest : test d = false) :
    ((literal scheme).seq ((atLeast Text.isSpace 1).seq (atLeast test 1))).Within (· ≠ d) := by
  have hliteral : (literal scheme).Within (· ≠ d) := by
    refine word_within fun k hk c hc => ?_
    rintro rfl
    exact hscheme (beq_iff_eq.mp hc ▸ hk)
  exact seq_within hliteral (seq_within (atLeast_within (within_ne hspace) 1)
    (atLeast_within (within_ne htest) 1))

theorem apiKeyPattern_within (hd : d = '[' ∨ d = ']') : apiKeyPattern.Within (· ≠ d) := by
  have hspace : (many Text.isSpace).Within (· ≠ d) := by
    rcases hd with rfl | rfl <;> exact many_within_ne (by decide)
  have hvalue : (atLeast isAlnum 1).Within (· ≠ d) := by
    rcases hd with rfl | rfl <;> exact atLeast_within (within_ne (by decide)) 1
  have hkey : (key "x-proxbox-api-key:").Within (· ≠ d) := by
    refine key_within ?_
    rcases hd with rfl | rfl <;> decide
  exact seq_within hkey (seq_within hspace hvalue)

end Signs

section Enters

variable {L L' : Language Char} {g s u : List Char}

/-- A word that does not end in a blank takes no more of the lead than what the replaced text has
in its place. -/
theorem enters_of_lead {q : List Char} (hL : ∀ u ∈ L, q <+: u) (hL' : EndsIn (· ≠ ' ') L')
    (hgs : g ++ s ∈ L') (hs : s <+: q ++ [' ']) (hu : u ∈ L) : ∃ v ∈ L', v <+: g ++ u := by
  rcases List.prefix_concat_iff.mp hs with rfl | hs
  · obtain ⟨v, c, hv, hc⟩ := hL' _ hgs
    rw [← List.append_assoc] at hv
    obtain ⟨_, hblank⟩ := List.append_inj' hv rfl
    rw [← List.singleton_inj.mp hblank] at hc
    exact absurd hc (by decide)
  · exact ⟨_, hgs, List.prefix_append_right_inj g |>.mpr (hs.trans (hL u hu))⟩

theorem map_fold_of_spelling {ks w : List Char} (hks : (ks.all fun k => k.toNat < 128) = true)
    (hw : w ∈ spellings sameLetter ks) : w.map fold = ks := by
  induction mem_spellings.mp hw with
  | nil => rfl
  | cons hc hspelled ih =>
    obtain ⟨hk, hks⟩ := Bool.and_eq_true_iff.mp (List.all_cons.symm.trans hks)
    rw [List.map_cons, ih hks hspelled, (sameLetter_iff (of_decide_eq_true hk)).mp hc]

/-- The name of the header stands in the text, in some spelling. -/
theorem enters_of_alike (hclosed : Closed Alike L') (hL' : EndsIn (· ≠ ' ') L')
    (hgs : g ++ s ∈ L') (hs : s <+: "X-Proxbox-API-Key: ".toList) (hu : u ∈ apiKeyWords) :
    ∃ v ∈ L', v <+: g ++ u := by
  obtain ⟨name, hname, value, _, rfl⟩ := Language.mem_mul.mp hu
  have hfold : name.map fold = "X-Proxbox-API-Key:".toList.map fold :=
    (map_fold_of_spelling (by decide) hname).trans (by decide)
  have halike : ∀ v w : List Char, v.map fold = w.map fold → List.Forall₂ Alike v w := by
    intro v w h
    have heq : List.Forall₂ (· = ·) (v.map fold) (w.map fold) := List.forall₂_eq_eq_eq ▸ h
    rwa [List.forall₂_map_left_iff, List.forall₂_map_right_iff] at heq
  -- The word stops before the blank of the lead, which the header need not have.
  have hshort : s <+: "X-Proxbox-API-Key:".toList := by
    have hlead : "X-Proxbox-API-Key: ".toList = "X-Proxbox-API-Key:".toList ++ [' '] := by decide
    rw [hlead] at hs
    rcases List.prefix_concat_iff.mp hs with rfl | hs
    · obtain ⟨v, c, hv, hc⟩ := hL' _ hgs
      rw [← List.append_assoc] at hv
      obtain ⟨_, hblank⟩ := List.append_inj' hv rfl
      rw [← List.singleton_inj.mp hblank] at hc
      exact absurd hc (by decide)
    · exact hs
  have htake : (name.take s.length).map fold = s.map fold := by
    rw [List.map_take, hfold, ← List.map_take, ← List.prefix_iff_eq_take.mp hshort]
  refine ⟨g ++ name.take s.length, hclosed _ hgs _ (halike _ _ ?_), ?_⟩
  · rw [List.map_append, List.map_append, htake]
  · rw [List.prefix_append_right_inj]
    exact (List.take_prefix ..).trans (List.prefix_append ..)

theorem eq_of_spelling {ks w : List Char} (hw : w ∈ spellings (fun c k => c == k) ks) : w = ks := by
  have heq : List.Forall₂ (· = ·) w ks := (mem_spellings.mp hw).imp fun _ _ => beq_iff_eq.mp
  rwa [List.forall₂_eq_eq_eq] at heq

/-- Credentials that run on into the header run on into its first letter. -/
theorem enters_of_scheme {scheme : String} {test : Char → Bool} (hscheme : 'X' ∉ scheme.toList)
    (hletter : ∀ c, sameLetter c 'x' = true → test c = true)
    (hgs : g ++ s ∈ schemeWords scheme test) (hs : s <+: "X-Proxbox-API-Key: ".toList)
    (hu : u ∈ apiKeyWords) : ∃ v ∈ schemeWords scheme test, v <+: g ++ u := by
  obtain ⟨name, hname, value, _, rfl⟩ := Language.mem_mul.mp hu
  have hx : "x-proxbox-api-key:".toList = 'x' :: "-proxbox-api-key:".toList := by decide
  rw [hx] at hname
  obtain ⟨c, name, hc, _, rfl⟩ := List.forall₂_cons_right_iff.mp (mem_spellings.mp hname)
  cases s with
  | nil =>
    rw [List.append_nil] at hgs
    exact ⟨g, hgs, List.prefix_append ..⟩
  | cons x s =>
    have hlead : "X-Proxbox-API-Key: ".toList = 'X' :: "-Proxbox-API-Key: ".toList := by decide
    rw [hlead] at hs
    obtain ⟨rfl, _⟩ := List.cons_prefix_cons.mp hs
    obtain ⟨w, hw, rest, hrest, heq⟩ := Language.mem_mul.mp hgs
    obtain ⟨sp, hsp, tok, htok, rfl⟩ := Language.mem_mul.mp hrest
    obtain ⟨_, htok⟩ := mem_atLeastOf.mp htok
    have hX : 'X' ∉ w ++ sp := by
      intro hmem
      rcases List.mem_append.mp hmem with hmem | hmem
      · exact hscheme (eq_of_spelling hw ▸ hmem)
      · exact absurd ((mem_atLeastOf.mp hsp).2 _ hmem) (by decide)
    obtain ⟨tok', rfl⟩ : ∃ tok', g = w ++ sp ++ tok' := by
      rw [← List.append_assoc] at heq
      rcases List.append_eq_append_iff.mp heq with ⟨a, ha, _⟩ | ⟨a, ha, hax⟩
      · exact ⟨a, ha⟩
      · cases a with
        | nil => exact ⟨[], by rw [ha, List.append_nil, List.append_nil]⟩
        | cons y a =>
          obtain ⟨rfl, _⟩ := List.cons.inj hax
          exact absurd (ha ▸ List.mem_append_right g (List.mem_cons_self ..)) hX
    have htoken : tok = tok' ++ 'X' :: s := by
      rw [← List.append_assoc, List.append_assoc (w ++ sp)] at heq
      exact List.append_cancel_left heq
    refine ⟨w ++ (sp ++ (tok' ++ [c])), ?_, ⟨name ++ value, by simp⟩⟩
    refine Language.append_mem_mul hw (Language.append_mem_mul hsp ?_)
    refine mem_atLeastOf.mpr ⟨by simp, ?_⟩
    intro d hd
    rcases List.mem_append.mp hd with hd | hd
    · exact htok d (htoken ▸ List.mem_append_left _ hd)
    · exact hletter d (List.mem_singleton.mp hd ▸ hc)

end Enters

/-- A word of one pattern, after the replacement of another one. -/
theorem apart {p : Pattern} {L L' : Language Char} {lead : String} (hp : p.Reads L')
    (hopening : p.Within (· ≠ '[')) (hclosing : p.Within (· ≠ ']'))
    (hlead : ∀ s ∈ lead.toList.tails, p.run none s = [])
    (hinner : ∀ s ∈ "REDACTED".toList.tails, p.run none s = [])
    (henters : ∀ g s u, g ++ s ∈ L' → s <+: lead.toList → u ∈ L → ∃ v ∈ L', v <+: g ++ u) :
    Apart (redacted lead) L L' where
  nonempty := hp.nil_notMem (hlead [] ((List.mem_tails _ _).mpr (List.nil_suffix ..)))
  opening _ hw hmem := hp.kind hopening hw _ hmem rfl
  closing _ hw hmem := hp.kind hclosing hw _ hmem rfl
  lead := free_of_run hp hlead
  inner := free_of_run hp hinner
  enters := henters

theorem endsIn_secretWords : EndsIn (· ≠ ' ') secretWords := by
  have hvalue : EndsIn (· ≠ ' ') (atLeastOf isSecretChar 8) :=
    (endsIn_atLeastOf (by decide)).mono fun c hc => decide_eq_true (within_ne (by decide) c hc)
  have hquoted : EndsIn (· ≠ ' ') (atLeastOf isSecretChar 8 * (oneOf isQuote + 1)) :=
    hvalue.mul_opt fun c hc => decide_eq_true (within_ne (by decide) c hc)
  exact hquoted.mul.mul.mul.mul

theorem endsIn_schemeWords {scheme : String} {test : Char → Bool} (h : test ' ' = false) :
    EndsIn (· ≠ ' ') (schemeWords scheme test) :=
  ((endsIn_atLeastOf (by decide)).mono fun c hc => decide_eq_true (within_ne h c hc)).mul.mul

theorem endsIn_apiKeyWords : EndsIn (· ≠ ' ') apiKeyWords :=
  ((endsIn_atLeastOf (by decide)).mono fun c hc =>
    decide_eq_true (within_ne (by decide) c hc)).mul.mul

theorem scheme_starts {scheme : String} {test : Char → Bool} {u : List Char}
    (hu : u ∈ schemeWords scheme test) : scheme.toList <+: u := by
  obtain ⟨w, hw, rest, _, rfl⟩ := Language.mem_mul.mp hu
  exact ⟨rest, by rw [eq_of_spelling hw]⟩

section Markers

variable {L : Language Char}

theorem apart_secret {lead : String}
    (hlead : ∀ s ∈ lead.toList.tails, secretPattern.run none s = [])
    (henters : ∀ g s u, g ++ s ∈ secretWords → s <+: lead.toList → u ∈ L →
      ∃ v ∈ secretWords, v <+: g ++ u) : Apart (redacted lead) L secretWords :=
  apart secretPattern_reads (secretPattern_within (.inl rfl)) (secretPattern_within (.inr rfl))
    hlead (by decide) henters

theorem apart_bearer {lead : String}
    (hlead : ∀ s ∈ lead.toList.tails, bearerPattern.run none s = [])
    (henters : ∀ g s u, g ++ s ∈ bearerWords → s <+: lead.toList → u ∈ L →
      ∃ v ∈ bearerWords, v <+: g ++ u) : Apart (redacted lead) L bearerWords :=
  apart bearerPattern_reads (schemePattern_within (by decide) (by decide) (by decide))
    (schemePattern_within (by decide) (by decide) (by decide)) hlead (by decide) henters

theorem apart_basic {lead : String} (hlead : ∀ s ∈ lead.toList.tails, basicPattern.run none s = [])
    (henters : ∀ g s u, g ++ s ∈ basicWords → s <+: lead.toList → u ∈ L →
      ∃ v ∈ basicWords, v <+: g ++ u) : Apart (redacted lead) L basicWords :=
  apart basicPattern_reads (schemePattern_within (by decide) (by decide) (by decide))
    (schemePattern_within (by decide) (by decide) (by decide)) hlead (by decide) henters

theorem bearer_lead : "Bearer ".toList = "Bearer".toList ++ [' '] := by decide

theorem basic_lead : "Basic ".toList = "Basic".toList ++ [' '] := by decide

theorem letter_x {c : Char} (h : sameLetter c 'x' = true) : c.isAlphanum = true := by
  have hlower : c.toLower = 'x' := by simpa [sameLetter] using h
  rcases Text.toLower_cases c with ⟨hc, _⟩ | ⟨hupper, _⟩
  · rw [← hc, hlower]
    decide
  · simp [Char.isAlphanum, Char.isAlpha, Char.isUpper, UInt32.le_iff_toNat_le, hupper]

theorem secret_apart : Apart (redacted "") secretWords secretWords := by
  refine apart_secret (by decide) fun g s u hgs hs _ => ?_
  obtain rfl := List.prefix_nil.mp hs
  rw [List.append_nil] at hgs
  exact ⟨g, hgs, List.prefix_append ..⟩

theorem bearer_apart : Apart (redacted "Bearer ") bearerWords secretWords ∧
    Apart (redacted "Bearer ") bearerWords bearerWords := by
  have hstarts : ∀ u ∈ bearerWords, "Bearer".toList <+: u := fun _ hu => scheme_starts hu
  constructor
  · refine apart_secret (by decide) fun g s u hgs hs hu => ?_
    rw [bearer_lead] at hs
    exact enters_of_lead hstarts endsIn_secretWords hgs hs hu
  · refine apart_bearer (by decide) fun g s u hgs hs hu => ?_
    rw [bearer_lead] at hs
    exact enters_of_lead hstarts (endsIn_schemeWords (by decide)) hgs hs hu

theorem basic_apart : Apart (redacted "Basic ") basicWords secretWords ∧
    Apart (redacted "Basic ") basicWords bearerWords ∧
    Apart (redacted "Basic ") basicWords basicWords := by
  have hstarts : ∀ u ∈ basicWords, "Basic".toList <+: u := fun _ hu => scheme_starts hu
  refine ⟨?_, ?_, ?_⟩
  · refine apart_secret (by decide) fun g s u hgs hs hu => ?_
    rw [basic_lead] at hs
    exact enters_of_lead hstarts endsIn_secretWords hgs hs hu
  · refine apart_bearer (by decide) fun g s u hgs hs hu => ?_
    rw [basic_lead] at hs
    exact enters_of_lead hstarts (endsIn_schemeWords (by decide)) hgs hs hu
  · refine apart_basic (by decide) fun g s u hgs hs hu => ?_
    rw [basic_lead] at hs
    exact enters_of_lead hstarts (endsIn_schemeWords (by decide)) hgs hs hu

theorem apiKey_apart : Apart (redacted "X-Proxbox-API-Key: ") apiKeyWords secretWords ∧
    Apart (redacted "X-Proxbox-API-Key: ") apiKeyWords bearerWords ∧
    Apart (redacted "X-Proxbox-API-Key: ") apiKeyWords basicWords ∧
    Apart (redacted "X-Proxbox-API-Key: ") apiKeyWords apiKeyWords := by
  refine ⟨?_, ?_, ?_, ?_⟩
  · refine apart_secret (by decide) fun g s u hgs hs hu => ?_
    exact enters_of_alike closed_secretWords endsIn_secretWords hgs hs hu
  · refine apart_bearer (by decide) fun g s u hgs hs hu => ?_
    refine enters_of_scheme (by decide) (fun c hc => ?_) hgs hs hu
    rw [isBearerChar, letter_x hc]
    rfl
  · refine apart_basic (by decide) fun g s u hgs hs hu => ?_
    refine enters_of_scheme (by decide) (fun c hc => ?_) hgs hs hu
    rw [isBasicChar, letter_x hc]
    rfl
  · refine apart apiKeyPattern_reads (apiKeyPattern_within (.inl rfl))
      (apiKeyPattern_within (.inr rfl)) (by decide) (by decide) fun g s u hgs hs hu => ?_
    exact enters_of_alike closed_apiKeyWords endsIn_apiKeyWords hgs hs hu

end Markers

/-- The texts that no pattern matches. -/
def Clean (text : List Char) : Prop :=
  Free secretWords text ∧ Free bearerWords text ∧ Free basicWords text ∧ Free apiKeyWords text

theorem clean_redactPii (text : List Char) : Clean (redactPii text) := by
  have hsecret : ∀ text, Free secretWords (substitute secretPattern (redacted "") text) := fun _ =>
    secret_apart.free_substitute_self secretPattern_reads
  have hbearer : ∀ text, Free secretWords text →
      Free secretWords (substitute bearerPattern (redacted "Bearer ") text) ∧
        Free bearerWords (substitute bearerPattern (redacted "Bearer ") text) := fun _ hs =>
    ⟨bearer_apart.1.free_substitute bearerPattern_reads hs,
      bearer_apart.2.free_substitute_self bearerPattern_reads⟩
  have hbasic : ∀ text, Free secretWords text → Free bearerWords text →
      Free secretWords (substitute basicPattern (redacted "Basic ") text) ∧
        Free bearerWords (substitute basicPattern (redacted "Basic ") text) ∧
        Free basicWords (substitute basicPattern (redacted "Basic ") text) := fun _ hs hb =>
    ⟨basic_apart.1.free_substitute basicPattern_reads hs,
      basic_apart.2.1.free_substitute basicPattern_reads hb,
      basic_apart.2.2.free_substitute_self basicPattern_reads⟩
  have hapiKey : ∀ text, Free secretWords text → Free bearerWords text → Free basicWords text →
      Clean (substitute apiKeyPattern (redacted "X-Proxbox-API-Key: ") text) := fun _ hs hb hc =>
    ⟨apiKey_apart.1.free_substitute apiKeyPattern_reads hs,
      apiKey_apart.2.1.free_substitute apiKeyPattern_reads hb,
      apiKey_apart.2.2.1.free_substitute apiKeyPattern_reads hc,
      apiKey_apart.2.2.2.free_substitute_self apiKeyPattern_reads⟩
  obtain ⟨hs, hb⟩ := hbearer _ (hsecret text)
  obtain ⟨hs, hb, hc⟩ := hbasic _ hs hb
  exact hapiKey _ hs hb hc

theorem redactPii_of_clean {text : List Char} (h : Clean text) : redactPii text = text := by
  obtain ⟨hs, hb, hc, hk⟩ := h
  change substitute apiKeyPattern _ (substitute basicPattern _ (substitute bearerPattern _
    (substitute secretPattern _ text))) = text
  rw [substitute_of_free secretPattern_reads hs, substitute_of_free bearerPattern_reads hb,
    substitute_of_free basicPattern_reads hc, substitute_of_free apiKeyPattern_reads hk]

theorem unmatched_iff {p : Pattern} {L : Language Char} {text : List Char} (hp : p.Reads L) :
    Unmatched p text ↔ Free L text := by
  constructor
  · intro h
    refine free_of_run hp fun s hs => ?_
    exact h none s ((List.mem_tails _ _).mp hs)
  · intro h before s hs
    refine List.eq_nil_iff_forall_not_mem.mpr fun r hr => ?_
    obtain ⟨hw, happend⟩ := (hp before s r.1 r.2).mp hr
    have hpart : r.1 <:+: s := ⟨[], r.2, by rw [List.nil_append, happend]⟩
    exact h r.1 hw (hpart.trans hs.isInfix)

theorem clean_iff {text : List Char} :
    Clean text ↔ ∀ entry ∈ piiPatterns, Unmatched entry.1 text := by
  simp only [piiPatterns, List.forall_mem_cons, List.not_mem_nil, false_implies, implies_true,
    and_true, unmatched_iff secretPattern_reads, unmatched_iff bearerPattern_reads,
    unmatched_iff basicPattern_reads, unmatched_iff apiKeyPattern_reads]
  exact Iff.rfl

/-- What is left of a text matches none of the patterns, so that a second redaction changes nothing;
and a text that matches none of them is left as it is. -/
theorem redactPii_unmatched (text : List Char) :
    (∀ entry ∈ piiPatterns, Unmatched entry.1 (redactPii text)) ∧
    redactPii (redactPii text) = redactPii text ∧
    ((∀ entry ∈ piiPatterns, Unmatched entry.1 text) → redactPii text = text) :=
  ⟨clean_iff.mp (clean_redactPii text), redactPii_of_clean (clean_redactPii text),
    fun h => redactPii_of_clean (clean_iff.mpr h)⟩

example : String.ofList (redactPii "login token='abcd1234', Basic dXNlcjpwdw== x".toList) =
    "login [REDACTED], Basic [REDACTED] x" := by decide +kernel

end ProxboxApi.LogRedaction
