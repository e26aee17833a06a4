import Mathlib
import ProxboxApi.Substitution

/-! Python string literals: what the text between two quotes stands for, and which texts stand for
themselves. -/

namespace StringLiteral

/-- What a backslash does with the text after it. -/
inductive Escape where
  | refused
  | plain
  | text (out rest : List Char)
  deriving DecidableEq, Repr

def simple : Char → Option Char
  | '\\' => some '\\'
  | '\'' => some '\''
  | '"' => some '"'
  | 'a' => some '\x07'
  | 'b' => some '\x08'
  | 'f' => some '\x0c'
  | 'n' => some '\n'
  | 'r' => some '\r'
  | 't' => some '\t'
  | 'v' => some '\x0b'
  | _ => none

/-- The number of digits after `\x`, `\u` and `\U`. -/
def width : Char → Option ℕ
  | 'x' => some 2
  | 'u' => some 4
  | 'U' => some 8
  | _ => none

def octalDigits : List Char := ['0', '1', '2', '3', '4', '5', '6', '7']

def hexDigit (c : Char) : Option ℕ :=
  if c.isDigit then some (c.toNat - '0'.toNat)
  else if 'a' ≤ c && c ≤ 'f' then some (c.toNat - 'a'.toNat + 10)
  else if 'A' ≤ c && c ≤ 'F' then some (c.toNat - 'A'.toNat + 10)
  else none

def value (base : ℕ) (digits : List Char) : ℕ :=
  digits.foldl (fun n c => n * base + (hexDigit c).getD 0) 0

/-- The character with a code; a surrogate is no character. -/
def charOf (n : ℕ) : Option Char := if n.isValidChar then some (Char.ofNat n) else none

def isNameChar (c : Char) : Bool := c.isAlphanum || c == ' ' || c == '-'

/-- `\N`, with the table of the Unicode names. -/
def readNamed (named : List Char → Option Char) : List Char → Escape
  | [] => .refused
  | c :: text =>
    let name := text.takeWhile isNameChar
    match c == '\x7b', text.drop name.length, named name with
    | true, '\x7d' :: rest, some out => .text [out] rest
    | _, _, _ => .refused

/-- Up to three octal digits, of which `c` is the first. -/
def readOctal (c : Char) (text : List Char) : Escape :=
  let digits := (text.take 2).takeWhile fun d => d ∈ octalDigits
  .text [Char.ofNat (value 8 (c :: digits))] (text.drop digits.length)

def readHex (n : ℕ) (text : List Char) : Escape :=
  let digits := text.take n
  if digits.length = n ∧ digits.all fun d => (hexDigit d).isSome then
    match charOf (value 16 digits) with
    | some out => .text [out] (text.drop n)
    | none => .refused
  else .refused

def escape (named : List Char → Option Char) : List Char → Escape
  | [] => .refused
  | c :: text =>
    if c = '\n' then .text [] text
    -- the end of a line in its other spellings
    else if c = '\r' then .text [] (if text.head? = some '\n' then text.tail else text)
    else if c = '\x00' then .refused
    else if c ∈ octalDigits then readOctal c text
    else if c = 'N' then readNamed named text
    else match simple c, width c with
    | some out, _ => .text [out] text
    | none, some n => readHex n text
    | none, none => .plain

/-- The characters that make an escape after a backslash, or that a source text cannot have. -/
def escapeLetters : List Char :=
  ['\n', '\r', '\x00', '\\', '\'', '"', 'a', 'b', 'f', 'n', 'r', 't', 'v', '0', '1', '2', '3', '4',
    '5', '6', '7', 'x', 'u', 'U', 'N']

theorem simple_isSome {c : Char} (h : (simple c).isSome) : c ∈ escapeLetters ∧ c ≠ '(' := by
  unfold simple at h
  split at h <;> first | decide | cases h

theorem width_isSome {c : Char} (h : (width c).isSome) : c ∈ escapeLetters ∧ c ≠ '(' := by
  unfold width at h
  split at h <;> first | decide | cases h

/-- An escape is at most one character, and what is read for it has no parenthesis. -/
def Escape.Short (t : List Char) : Escape → Prop
  | .text out rest => ∃ e, t = e ++ rest ∧ '(' ∉ e ∧ out.length ≤ 1
  | _ => True

theorem readOctal_short {c : Char} {text : List Char} : (readOctal c text).Short text := by
  have hprefix : (text.take 2).takeWhile (fun d => d ∈ octalDigits) <+: text :=
    (List.takeWhile_prefix _).trans (List.take_prefix _ _)
  refine ⟨(text.take 2).takeWhile fun d => d ∈ octalDigits, ?_, ?_, by simp⟩
  · exact (List.prefix_iff_eq_append.mp hprefix).symm
  · intro hmem
    have h := List.mem_takeWhile_imp hmem
    simp [octalDigits] at h

theorem readHex_short {n : ℕ} {text : List Char} : (readHex n text).Short text := by
  unfold readHex
  dsimp only
  split
  next hdigits =>
    split
    next out _ =>
      refine ⟨text.take n, (List.take_append_drop n text).symm, ?_, by simp⟩
      intro hmem
      have h := List.all_eq_true.mp hdigits.2 _ hmem
      exact absurd h (by decide)
    next => trivial
  next => trivial

theorem readNamed_short {named : List Char → Option Char} {text : List Char} :
    (readNamed named text).Short text := by
  unfold readNamed
  split
  next => trivial
  next c text =>
    dsimp only
    split
    next rest out hopen hclose _ =>
      refine ⟨c :: (text.takeWhile isNameChar ++ ['\x7d']), ?_, ?_, by simp⟩
      · have hsplit := List.prefix_iff_eq_append.mp (List.takeWhile_prefix isNameChar (l := text))
        rw [hclose] at hsplit
        simpa using hsplit.symm
      · intro hmem
        rw [List.mem_cons, List.mem_append, List.mem_singleton] at hmem
        rcases hmem with rfl | hmem | hbrace
        · exact absurd hopen (by decide)
        · exact absurd (List.mem_takeWhile_imp hmem) (by decide)
        · exact absurd hbrace (by decide)
    next => trivial

/-- The same, of a text that starts with the escape. -/
def Escape.Read (t : List Char) : Escape → Prop
  | .text out rest => ∃ e, t = e ++ rest ∧ '(' ∉ e ∧ out.length ≤ 1 ∧ e ≠ []
  | _ => True

theorem Escape.Short.cons {c : Char} {t : List Char} {e : Escape} (h : e.Short t) (hc : c ≠ '(') :
    e.Read (c :: t) := by
  cases e with
  | refused => trivial
  | plain => trivial
  | text out rest =>
    obtain ⟨e, rfl, he, hout⟩ := h
    refine ⟨c :: e, rfl, ?_, hout, by simp⟩
    simp [Ne.symm hc, he]

theorem escape_read (named : List Char → Option Char) (t : List Char) :
    (escape named t).Read t := by
  have hone : ∀ {c : Char} {out text : List Char}, c ≠ '(' → out.length ≤ 1 →
      (Escape.text out text).Read (c :: text) := by
    intro c out text hc hout
    exact ⟨[c], rfl, by simp [Ne.symm hc], hout, by simp⟩
  unfold escape
  split
  next => trivial
  next c text =>
    by_cases hn : c = '\n'
    · rw [if_pos hn]
      exact hone (by simp [hn]) (by simp)
    rw [if_neg hn]
    by_cases hr : c = '\r'
    · rw [if_pos hr]
      split
      next hhead =>
        cases text with
        | nil => cases hhead
        | cons d text =>
          cases hhead
          exact ⟨[c, '\n'], rfl, by simp [hr], by simp, by simp⟩
      next => exact hone (by simp [hr]) (by simp)
    rw [if_neg hr]
    by_cases hz : c = '\x00'
    · rw [if_pos hz]
      trivial
    rw [if_neg hz]
    by_cases ho : c ∈ octalDigits
    · rw [if_pos ho]
      exact readOctal_short.cons fun h => absurd (h ▸ ho) (by decide)
    rw [if_neg ho]
    by_cases hN : c = 'N'
    · rw [if_pos hN]
      exact readNamed_short.cons (by simp [hN])
    rw [if_neg hN]
    split
    next out _ hs => exact hone (simple_isSome (by simp [hs])).2 (by simp)
    next n _ hw => exact readHex_short.cons (width_isSome (by simp [hw])).2
    next => trivial

/-- What holds of each character of a text, by evaluation. -/
theorem forall_mem_of_all {p : Char → Prop} [DecidablePred p] {text : List Char}
    (h : (text.all fun c => decide (p c)) = true) : ∀ c ∈ text, p c :=
  fun c hc => of_decide_eq_true (List.all_eq_true.mp h c hc)

theorem mem_escapeLetters {c : Char} : c ∈ escapeLetters ↔ c = '\n' ∨ c = '\r' ∨ c = '\x00' ∨
    c ∈ octalDigits ∨ c = 'N' ∨ (simple c).isSome ∨ (width c).isSome := by
  constructor
  · have h : ∀ d ∈ escapeLetters, d = '\n' ∨ d = '\r' ∨ d = '\x00' ∨ d ∈ octalDigits ∨ d = 'N' ∨
        (simple d).isSome ∨ (width d).isSome := forall_mem_of_all (by decide)
    exact h c
  · have ho : ∀ d ∈ octalDigits, d ∈ escapeLetters := forall_mem_of_all (by decide)
    rintro (rfl | rfl | rfl | h | rfl | h | h)
    · decide
    · decide
    · decide
    · exact ho c h
    · decide
    · exact (simple_isSome h).1
    · exact (width_isSome h).1

theorem readHex_ne_plain {n : ℕ} {text : List Char} : readHex n text ≠ .plain := by
  unfold readHex
  dsimp only
  split
  next =>
    split
    next => nofun
    next => nofun
  next => nofun

theorem readNamed_ne_plain {named : List Char → Option Char} {text : List Char} :
    readNamed named text ≠ .plain := by
  unfold readNamed
  split
  next => nofun
  next =>
    dsimp only
    split
    next => nofun
    next => nofun

theorem escape_plain_iff {named : List Char → Option Char} {c : Char} {text : List Char} :
    escape named (c :: text) = .plain ↔ c ∉ escapeLetters := by
  rw [mem_escapeLetters]
  unfold escape
  dsimp only
  by_cases hn : c = '\n'
  · simp [hn]
  by_cases hr : c = '\r'
  · simp [hr]
  by_cases hz : c = '\x00'
  · simp [hz]
  by_cases ho : c ∈ octalDigits
  · simp [hn, hr, hz, ho, readOctal]
  by_cases hN : c = 'N'
  · rw [if_neg hn, if_neg hr, if_neg hz, if_neg ho, if_pos hN]
    simp [hN, readNamed_ne_plain]
  rw [if_neg hn, if_neg hr, if_neg hz, if_neg ho, if_neg hN]
  split
  next _ hs => simp [hs]
  next n hs hw => simp [hw, readHex_ne_plain]
  next hs hw => simp [hn, hr, hz, ho, hN, hs, hw]

/-- The text that a literal stands for, from what is between its quotes. -/
def readBody (named : List Char → Option Char) (quote : Char) : List Char → Option (List Char)
  | [] => some []
  | c :: text =>
    if c = quote ∨ c = '\n' ∨ c = '\r' ∨ c = '\x00' then none
    else if c = '\\' then
      match _h : escape named text with
      | .refused => none
      | .plain => (readBody named quote text).map ('\\' :: ·)
      | .text out rest => (readBody named quote rest).map (out ++ ·)
    else (readBody named quote text).map (c :: ·)
termination_by text => text.length
decreasing_by
  · simp
  · have hread := escape_read named text
    rw [_h] at hread
    obtain ⟨e, rfl, -⟩ := hread
    simp only [List.length_cons, List.length_append]
    omega
  · simp

/-- The text may stand between the quotes as it is. -/
def plain (quote : Char) : List Char → Bool
  | [] => true
  | c :: text =>
    c ≠ quote && c ≠ '\n' && c ≠ '\r' && c ≠ '\x00' &&
      (c ≠ '\\' || (match text with
        | [] => false
        | d :: _ => d ∉ escapeLetters)) && plain quote text

variable {named : List Char → Option Char} {quote : Char} {c : Char} {text : List Char}

/-- A character that stands for itself whatever follows. -/
def ordinary (quote c : Char) : Prop :=
  c ≠ quote ∧ c ≠ '\n' ∧ c ≠ '\r' ∧ c ≠ '\x00' ∧ c ≠ '\\'

theorem readBody_ordinary (hc : ordinary quote c) :
    readBody named quote (c :: text) = (readBody named quote text).map (c :: ·) := by
  rw [readBody, if_neg (by simp [hc.1, hc.2.1, hc.2.2.1, hc.2.2.2.1]), if_neg hc.2.2.2.2]

theorem readBody_append {u : List Char} (hu : ∀ c ∈ u, ordinary quote c) :
    readBody named quote (u ++ text) = (readBody named quote text).map (u ++ ·) := by
  induction u with
  | nil => simp
  | cons c u ih =>
    rw [List.cons_append, readBody_ordinary (hu c List.mem_cons_self)]
    rw [ih fun d hd => hu d (List.mem_cons_of_mem c hd), Option.map_map]
    rfl

theorem readBody_refused (hc : c = quote ∨ c = '\n' ∨ c = '\r' ∨ c = '\x00') :
    readBody named quote (c :: text) = none := by
  rw [readBody, if_pos hc]

/-- A backslash before a character that makes no escape stands for itself. -/
theorem readBody_backslash {d : Char} (hquote : quote ≠ '\\') (hd : d ∉ escapeLetters) :
    readBody named quote ('\\' :: d :: text) =
      (readBody named quote (d :: text)).map ('\\' :: ·) := by
  rw [readBody, if_neg (by simp [Ne.symm hquote]), if_pos rfl]
  split
  next h => simp [escape_plain_iff.mpr hd] at h
  next => rfl
  next h => simp [escape_plain_iff.mpr hd] at h

theorem readBody_of_plain (hquote : quote ≠ '\\') (h : plain quote text = true) :
    readBody named quote text = some text := by
  induction text with
  | nil => rw [readBody]
  | cons c text ih =>
    simp only [plain, Bool.and_eq_true, decide_eq_true_eq, ne_eq, Bool.or_eq_true] at h
    obtain ⟨⟨⟨⟨⟨hq, hn⟩, hr⟩, hz⟩, hslash⟩, hrest⟩ := h
    by_cases hc : c = '\\'
    · subst hc
      cases text with
      | nil => simp at hslash
      | cons d text =>
        have hd : d ∉ escapeLetters := by simpa using hslash
        rw [readBody_backslash hquote hd, ih hrest]
        rfl
    · rw [readBody_ordinary ⟨hq, hn, hr, hz, hc⟩, ih hrest]
      rfl

section Replaced

variable {a b : Char} {old new : List Char}

theorem head?_replaceAll (old new text : List Char) :
    (Substitution.replaceAll ('(' :: old) ('(' :: new) text).head? = text.head? := by
  cases text with
  | nil => rfl
  | cons c text =>
    by_cases h : '(' :: old <+: c :: text
    · obtain ⟨tail, htail⟩ := h
      rw [← htail, Substitution.replaceAll_found (by simp)]
      rfl
    · rw [Substitution.replaceAll_plain h]
      rfl

/-- The replaced word is found in what a literal stands for only further on. -/
theorem not_append_of_found {before tail z : List Char} (hab : a ≠ b) (hparen : '(' ∉ b :: new)
    (h : '(' :: b :: new ++ z = before ++ ('(' :: a :: old ++ tail)) :
    ∃ w, z = w ++ ('(' :: a :: old ++ tail) := by
  rcases List.append_eq_append_iff.mp h with ⟨w, -, hz⟩ | ⟨w, hw, hz⟩
  · exact ⟨w, hz⟩
  · cases before with
    | nil =>
      rw [List.nil_append] at hw
      rw [← hw] at hz
      exact absurd (List.cons.inj (List.cons.inj hz).2).1 hab
    | cons x before =>
      cases w with
      | nil => exact ⟨[], hz.symm⟩
      | cons y w =>
        -- the old word would start within the new one, at a second parenthesis
        exfalso
        apply hparen
        rw [(List.cons.inj hw).2, ← (List.cons.inj hz).1]
        simp

/-- Where the text with more before it is read from its literal after the replacement, nothing
stands before it, and it is read and replaced as it is. -/
def ReadsOwn (named : List Char → Option Char) (quote a b : Char) (old new text : List Char) :
    Prop :=
  ∀ before, readBody named quote
      (Substitution.replaceAll ('(' :: a :: old) ('(' :: b :: new) text) = some (before ++ text) →
    before = [] ∧ plain quote text = true ∧ ¬ '(' :: a :: old <:+: text

section ReadsOwn

variable {before tail : List Char}

/-- A character that stands for itself moves to the text before. -/
theorem ReadsOwn.cons (ih : ReadsOwn named quote a b old new text)
    (h : (readBody named quote
      (Substitution.replaceAll ('(' :: a :: old) ('(' :: b :: new) text)).map (c :: ·) =
        some (before ++ c :: text)) :
    before = [] ∧ plain quote text = true ∧ ¬ '(' :: a :: old <:+: text := by
  obtain ⟨z, hz, heq⟩ := Option.map_eq_some_iff.mp h
  cases before with
  | nil =>
    rw [(List.cons.inj heq).2, ← List.nil_append text] at hz
    exact ⟨rfl, (ih _ hz).2⟩
  | cons x before =>
    rw [List.cons_append] at heq
    rw [(List.cons.inj heq).2, List.append_cons] at hz
    obtain ⟨hnil, -⟩ := ih _ hz
    simp at hnil

/-- A word that is replaced is not read again. -/
theorem ReadsOwn.not_found (hnew : ∀ c ∈ '(' :: b :: new, ordinary quote c)
    (hparen : '(' ∉ b :: new) (hab : a ≠ b) (ih : ReadsOwn named quote a b old new tail)
    (h : readBody named quote (Substitution.replaceAll ('(' :: a :: old) ('(' :: b :: new)
      ('(' :: a :: old ++ tail)) = some (before ++ ('(' :: a :: old ++ tail))) : False := by
  rw [Substitution.replaceAll_found (by simp), readBody_append hnew] at h
  obtain ⟨z, hz, heq⟩ := Option.map_eq_some_iff.mp h
  obtain ⟨w, hw⟩ := not_append_of_found hab hparen heq
  rw [hw, ← List.append_assoc] at hz
  obtain ⟨hnil, -⟩ := ih _ hz
  simp at hnil

/-- The escape is shorter than what is read for it, so something stands before the rest. -/
theorem ReadsOwn.not_escaped {out rest : List Char}
    (hescape : escape named (Substitution.replaceAll ('(' :: a :: old) ('(' :: b :: new) text) =
      .text out rest)
    (ih : ∀ tail : List Char, tail.length ≤ text.length → ReadsOwn named quote a b old new tail)
    (h : (readBody named quote rest).map (out ++ ·) = some (before ++ '\\' :: text)) : False := by
  have hread := escape_read named
    (Substitution.replaceAll ('(' :: a :: old) ('(' :: b :: new) text)
  rw [hescape] at hread
  obtain ⟨e, he, hparen, hout, hne⟩ := hread
  obtain ⟨tail, rfl, hrest⟩ := Substitution.replaceAll_eq_append he hparen
  obtain ⟨z, hz, heq⟩ := Option.map_eq_some_iff.mp h
  have hlen : out.length ≤ (before ++ '\\' :: e).length := by
    simp only [List.length_append, List.length_cons]
    omega
  have hdrop : z = (before ++ '\\' :: e).drop out.length ++ tail := by
    have hd := congrArg (List.drop out.length) heq
    rw [List.drop_left] at hd
    rw [hd, ← List.drop_append_of_le_length hlen]
    simp
  rw [hdrop, ← hrest] at hz
  obtain ⟨hnil, -⟩ := ih tail (by simp) _ hz
  have hpos := List.length_pos_iff.mpr hne
  have hzero := congrArg List.length hnil
  simp only [List.length_drop, List.length_append, List.length_cons, List.length_nil] at hzero
  omega

/-- The replacement keeps the character after a backslash. -/
theorem plain_backslash (hquote : '\\' ≠ quote)
    (hescape : escape named (Substitution.replaceAll ('(' :: a :: old) ('(' :: b :: new) text) =
      .plain) (hplain : plain quote text = true) : plain quote ('\\' :: text) = true := by
  have hhead := head?_replaceAll (a :: old) (b :: new) text
  cases text with
  | nil => cases hescape
  | cons d text =>
    obtain ⟨t, ht⟩ := List.head?_eq_some_iff.mp hhead
    rw [ht, escape_plain_iff] at hescape
    rw [plain]
    simp [hquote, hescape, hplain]

end ReadsOwn

/-- The induction follows the text; what stands before it never gets shorter, because the new word
has its parenthesis at its first place alone. -/
theorem readsOwn (hnew : ∀ c ∈ '(' :: b :: new, ordinary quote c) (hparen : '(' ∉ b :: new)
    (hab : a ≠ b) (text : List Char) : ReadsOwn named quote a b old new text := by
  induction hn : text.length using Nat.strong_induction_on generalizing text with
  | _ n ih =>
  intro before h
  cases text with
  | nil =>
    rw [Substitution.replaceAll_nil, readBody, List.append_nil, Option.some_inj] at h
    exact ⟨h.symm, rfl, by simp⟩
  | cons c text =>
  rw [List.length_cons] at hn
  by_cases hp : '(' :: a :: old <+: c :: text
  · exfalso
    obtain ⟨tail, htail⟩ := hp
    rw [← htail] at h
    have hshort := congrArg List.length htail
    simp only [List.length_append, List.length_cons] at hshort
    exact (ih tail.length (by omega) tail rfl).not_found hnew hparen hab h
  · rw [Substitution.replaceAll_plain hp] at h
    have hinfix : ¬ '(' :: a :: old <:+: text → ¬ '(' :: a :: old <:+: c :: text := by
      intro hno hi
      rcases List.infix_cons_iff.mp hi with hi | hi
      · exact hp hi
      · exact hno hi
    have htext := ih text.length (by omega) text rfl
    by_cases hend : c = quote ∨ c = '\n' ∨ c = '\r' ∨ c = '\x00'
    · rw [readBody_refused hend] at h
      cases h
    have hends := not_or.mp hend
    by_cases hslash : c = '\\'
    · subst hslash
      rw [readBody, if_neg hend, if_pos rfl] at h
      split at h
      next => cases h
      next hescape =>
        obtain ⟨hbefore, hplain, hno⟩ := htext.cons h
        exact ⟨hbefore, plain_backslash hends.1 hescape hplain, hinfix hno⟩
      next out rest hescape =>
        exfalso
        refine ReadsOwn.not_escaped hescape ?_ h
        intro tail hlen
        exact ih tail.length (by omega) tail rfl
    · simp only [not_or] at hends
      rw [readBody_ordinary ⟨hends.1, hends.2.1, hends.2.2.1, hends.2.2.2, hslash⟩] at h
      obtain ⟨hbefore, hplain, hno⟩ := htext.cons h
      refine ⟨hbefore, ?_, hinfix hno⟩
      simp [plain, hends, hslash, hplain]

/-- The literal of a text after a replacement stands for the text exactly if the text stands for
itself and does not contain the replaced word. -/
theorem readBody_replaceAll_iff (hquote : quote ≠ '\\')
    (hnew : ∀ c ∈ '(' :: b :: new, ordinary quote c) (hparen : '(' ∉ b :: new) (hab : a ≠ b) :
    readBody named quote (Substitution.replaceAll ('(' :: a :: old) ('(' :: b :: new) text) =
      some text ↔ plain quote text = true ∧ ¬ '(' :: a :: old <:+: text := by
  constructor
  · intro h
    have hown : ReadsOwn named quote a b old new text := readsOwn hnew hparen hab text
    exact (hown [] h).2
  · intro ⟨hplain, hno⟩
    rw [Substitution.replaceAll_of_not_infix hno]
    exact readBody_of_plain hquote hplain

end Replaced

section Repr

def hexChar (d : ℕ) : Char := if d < 10 then Char.ofNat (48 + d) else Char.ofNat (87 + d)

/-- The last `width` hexadecimal digits of a number. -/
def hexText : ℕ → ℕ → List Char
  | 0, _ => []
  | width + 1, n => hexText width (n / 16) ++ [hexChar (n % 16)]

/-- `repr` of one character within these quotes. -/
def reprChar (printable : Char → Bool) (quote c : Char) : List Char :=
  if c = quote ∨ c = '\\' then ['\\', c]
  else if c = '\n' then ['\\', 'n']
  else if c = '\r' then ['\\', 'r']
  else if c = '\t' then ['\\', 't']
  else if (0x20 ≤ c.toNat ∧ c.toNat < 0x7f) ∨ (0x7f < c.toNat ∧ printable c = true) then [c]
  else if c.toNat < 0x100 then '\\' :: 'x' :: hexText 2 c.toNat
  else if c.toNat < 0x10000 then '\\' :: 'u' :: hexText 4 c.toNat
  else '\\' :: 'U' :: hexText 8 c.toNat

def reprQuote (text : List Char) : Char := if '\'' ∈ text ∧ '"' ∉ text then '"' else '\''

/-- `repr` of a text. -/
def reprText (printable : Char → Bool) (text : List Char) : List Char :=
  reprQuote text :: (text.flatMap (reprChar printable (reprQuote text)) ++ [reprQuote text])

theorem length_hexText (width n : ℕ) : (hexText width n).length = width := by
  induction width generalizing n with
  | zero => rfl
  | succ width ih => rw [hexText, List.length_append, ih, List.length_singleton]

theorem hexDigit_hexChar {d : ℕ} (h : d < 16) : hexDigit (hexChar d) = some d := by
  have hall : ∀ d < 16, hexDigit (hexChar d) = some d := by decide
  exact hall d h

theorem hexDigit_of_mem_hexText {width n : ℕ} {c : Char} (h : c ∈ hexText width n) :
    (hexDigit c).isSome := by
  induction width generalizing n with
  | zero => cases h
  | succ width ih =>
    rw [hexText, List.mem_append, List.mem_singleton] at h
    rcases h with h | rfl
    · exact ih h
    · rw [hexDigit_hexChar (Nat.mod_lt _ (by decide))]
      rfl

theorem value_hexText {width n : ℕ} (h : n < 16 ^ width) : value 16 (hexText width n) = n := by
  induction width generalizing n with
  | zero =>
    rw [Nat.pow_zero, Nat.lt_one_iff] at h
    exact h.symm
  | succ width ih =>
    have hdiv : n / 16 < 16 ^ width := by
      rw [Nat.div_lt_iff_lt_mul (by decide), ← Nat.pow_succ]
      exact h
    have hrest := ih hdiv
    unfold value at hrest ⊢
    rw [hexText, List.foldl_append, hrest, List.foldl_cons, List.foldl_nil,
      hexDigit_hexChar (Nat.mod_lt _ (by decide))]
    exact Nat.div_add_mod' n 16

theorem readHex_hexText {width : ℕ} {c : Char} (h : c.toNat < 16 ^ width) (text : List Char) :
    readHex width (hexText width c.toNat ++ text) = .text [c] text := by
  have htake : (hexText width c.toNat ++ text).take width = hexText width c.toNat :=
    List.take_left' (length_hexText width c.toNat)
  have hdrop : (hexText width c.toNat ++ text).drop width = text :=
    List.drop_left' (length_hexText width c.toNat)
  have hvalid : charOf c.toNat = some c := by
    unfold charOf
    rw [if_pos (show c.toNat.isValidChar from c.valid), Char.ofNat_toNat]
  unfold readHex
  dsimp only
  rw [htake, hdrop, value_hexText h, hvalid, if_pos]
  refine ⟨length_hexText _ _, ?_⟩
  rw [List.all_eq_true]
  exact fun d hd => hexDigit_of_mem_hexText hd

theorem readBody_escape {named : List Char → Option Char} {quote c : Char} {e : List Char}
    (hquote : quote ≠ '\\') (text : List Char) (h : escape named (e ++ text) = .text [c] text) :
    readBody named quote ('\\' :: e ++ text) = (readBody named quote text).map (c :: ·) := by
  rw [List.cons_append, readBody, if_neg (by simp [Ne.symm hquote]), if_pos rfl]
  split
  next he =>
    rw [h] at he
    cases he
  next he =>
    rw [h] at he
    cases he
  next he =>
    rw [h] at he
    cases he
    rfl

theorem escape_x (named : List Char → Option Char) (text : List Char) :
    escape named ('x' :: text) = readHex 2 text := rfl

theorem escape_u (named : List Char → Option Char) (text : List Char) :
    escape named ('u' :: text) = readHex 4 text := rfl

theorem escape_U (named : List Char → Option Char) (text : List Char) :
    escape named ('U' :: text) = readHex 8 text := rfl

/-- The representation of a character is read as the character. -/
theorem readBody_reprChar {named : List Char → Option Char} {printable : Char → Bool} {quote : Char}
    (hquote : quote = '"' ∨ quote = '\'') (c : Char) (text : List Char) :
    readBody named quote (reprChar printable quote c ++ text) =
      (readBody named quote text).map (c :: ·) := by
  have hslash : quote ≠ '\\' := by
    rcases hquote with rfl | rfl <;> decide
  unfold reprChar
  split
  next hc =>
    have hself : escape named ([c] ++ text) = .text [c] text := by
      rcases hc with rfl | rfl
      · rcases hquote with rfl | rfl <;> rfl
      · rfl
    exact readBody_escape hslash text hself
  next hc =>
    split
    next hn =>
      rw [hn]
      exact readBody_escape (e := ['n']) hslash text rfl
    next hn =>
      split
      next hr =>
        rw [hr]
        exact readBody_escape (e := ['r']) hslash text rfl
      next hr =>
        split
        next ht =>
          rw [ht]
          exact readBody_escape (e := ['t']) hslash text rfl
        next ht =>
          split
          next hprint =>
            have hzero : c ≠ '\x00' := by
              rintro rfl
              simp at hprint
            rw [not_or] at hc
            exact readBody_ordinary ⟨hc.1, hn, hr, hzero, hc.2⟩
          next =>
            split
            next hlt =>
              apply readBody_escape hslash text
              rw [List.cons_append, escape_x]
              exact readHex_hexText hlt text
            next =>
              split
              next hlt =>
                apply readBody_escape hslash text
                rw [List.cons_append, escape_u]
                exact readHex_hexText hlt text
              next =>
                have hlt : c.toNat < 16 ^ 8 := by
                  rcases c.valid with h | h
                  · exact Nat.lt_trans h (by decide)
                  · exact Nat.lt_trans h.2 (by decide)
                apply readBody_escape hslash text
                rw [List.cons_append, escape_U]
                exact readHex_hexText hlt text

/-- `repr` of a text is a literal of the text. -/
theorem readBody_repr {named : List Char → Option Char} {printable : Char → Bool} {quote : Char}
    (hquote : quote = '"' ∨ quote = '\'') (text : List Char) :
    readBody named quote (text.flatMap (reprChar printable quote)) = some text := by
  induction text with
  | nil => rw [List.flatMap_nil, readBody]
  | cons c text ih =>
    rw [List.flatMap_cons, readBody_reprChar hquote, ih]
    rfl

end Repr

end StringLiteral
