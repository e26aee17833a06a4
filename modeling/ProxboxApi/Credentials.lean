import Mathlib.Algebra.Order.Ring.Rat
import ProxboxApi.Runs
import ProxboxApi.Text

/-! Stored credentials: how a secret is written and read back while keys come to be known to a
process and are forgotten again. -/

namespace ProxboxApi.Credentials

/-- Fernet under the keys that are derived from texts, with the nonce of each encryption. -/
structure Cipher (κ : Type*) where
  derive : String → κ
  encrypt : κ → ℕ → String → String
  decrypt : κ → String → Option String

/-- Decryption inverts encryption under one key and fails under any other; a token is longer than
its message. -/
structure Cipher.Lawful {κ : Type*} (c : Cipher κ) : Prop where
  decrypt_encrypt : ∀ k n m, c.decrypt k (c.encrypt k n m) = some m
  decrypt_other : ∀ k k' n m, k ≠ k' → c.decrypt k' (c.encrypt k n m) = none
  length_lt : ∀ k t m, c.decrypt k t = some m → m.toList.length < t.toList.length

/-- How the plugin settings answer: they are found, the request fails, the lookup is nested in
another one, it raises, or the thread has settings of its own. -/
inductive Source where
  | found
  | failed
  | nested
  | raised
  | pinned (found : Bool)
  deriving DecidableEq, Repr

structure Lookup where
  source : Source
  now : ℚ
  deriving DecidableEq, Repr

/-- What a credential column holds for the value that was written to it. -/
structure Stored where
  written : Option String
  value : Option String
  deriving DecidableEq, Repr

/-- A value that was read back; an error is a failed decryption. -/
structure Read where
  stored : Stored
  answer : Except Unit (Option String)
  deriving DecidableEq

/-- The three places of a key, the caches of the process, and the credentials. -/
structure Process (κ : Type*) where
  env : String
  plugin : String
  localFile : String
  allowPlaintext : Bool
  encryptionKey : Option κ
  fernet : Option κ
  settingsCache : Option (String × ℚ)
  stored : List Stored
  reads : List Read

variable {κ : Type*}

namespace Process

variable (c : Cipher κ)

def initial (env plugin localFile : String) (allowPlaintext : Bool) : Process κ :=
  ⟨env, plugin, localFile, allowPlaintext, none, none, none, [], []⟩

/-- `get_settings` behind its cache: the encryption key, or an exception, and the cache. -/
def fetchSettings (p : Process κ) (at_ : Lookup) : Option String × Option (String × ℚ) :=
  match at_.source with
  | .found => (some p.plugin, some (p.plugin, at_.now))
  | .failed => (some "", some ("", at_.now))
  | _ => (none, p.settingsCache)

/-- `get_settings`. -/
def getSettings (p : Process κ) (at_ : Lookup) : Option String × Option (String × ℚ) :=
  match at_.source with
  | .pinned found => (some (if found then p.plugin else ""), p.settingsCache)
  | .nested => (some "", p.settingsCache)
  | _ =>
    match p.settingsCache with
    | some (key, time) =>
      if at_.now - time < 300 then (some key, p.settingsCache) else p.fetchSettings at_
    | none => p.fetchSettings at_

/-- `_resolve_raw_key`. -/
def resolveRawKey (p : Process κ) (at_ : Lookup) : String × Process κ :=
  if Text.strip p.env ≠ "" then (Text.strip p.env, p)
  else
    let answer := p.getSettings at_
    let plugin := Text.strip (answer.1.getD "")
    (if plugin ≠ "" then plugin else Text.strip p.localFile, { p with settingsCache := answer.2 })

/-- `_get_encryption_key`. -/
def getEncryptionKey (p : Process κ) (at_ : Lookup) : Option κ × Process κ :=
  match p.encryptionKey with
  | some key => (some key, p)
  | none =>
    let resolved := p.resolveRawKey at_
    if resolved.1 = "" then (none, resolved.2)
    else
      let key := c.derive resolved.1
      (some key, { resolved.2 with encryptionKey := some key })

/-- `_get_fernet`. -/
def getFernet (p : Process κ) (at_ : Lookup) : Option κ × Process κ :=
  match p.fernet with
  | some key => (some key, p)
  | none =>
    let answer := p.getEncryptionKey c at_
    (answer.1, { answer.2 with fernet := answer.1 })

def marked (text : String) : Bool := text.toList.take 4 = "enc:".toList

/-- `encrypt_value`; the second lookup is the one of `_require_credential_storage_allowed`. -/
def encryptValue (p : Process κ) (value : Option String) (nonce : ℕ) (at_ again : Lookup) :
    Except Unit (Option String) × Process κ :=
  match value with
  | none => (.ok none, p)
  | some plaintext =>
    let fernet := p.getFernet c at_
    match fernet.1 with
    | some key => (.ok (some ("enc:" ++ c.encrypt key nonce plaintext)), fernet.2)
    | none =>
      if plaintext = "" then (.ok (some plaintext), fernet.2)
      else
        let enabled := fernet.2.getEncryptionKey c again
        if enabled.1.isSome || p.allowPlaintext then (.ok (some plaintext), enabled.2)
        else (.error (), enabled.2)

/-- `decrypt_value`. -/
def decryptValue (p : Process κ) (value : Option String) (at_ : Lookup) :
    Except Unit (Option String) × Process κ :=
  match value with
  | none => (.ok none, p)
  | some ciphertext =>
    let fernet := p.getFernet c at_
    match fernet.1 with
    | none => (.ok (some ciphertext), fernet.2)
    | some key =>
      if marked ciphertext then
        match c.decrypt key (String.ofList (ciphertext.toList.drop 4)) with
        | some plaintext => (.ok (some plaintext), fernet.2)
        | none => (.error (), fernet.2)
      else (.ok (some ciphertext), fernet.2)

/-- `reset_encryption_cache`. -/
def resetEncryptionCache (p : Process κ) : Process κ :=
  { p with encryptionKey := none, fernet := none }

/-- `invalidate_settings_cache`. -/
def invalidateSettingsCache (p : Process κ) : Process κ := { p with settingsCache := none }

def forget (p : Process κ) : Process κ := p.resetEncryptionCache.invalidateSettingsCache

end Process

/-- What happens to the keys and the caches. A key is configured only where there is none. -/
inductive Change where
  | resetKeys
  | resetSettings
  | restart (allowPlaintext : Bool)
  | configureEnv (key : String)
  | configurePlugin (key : String)
  | setLocal (key : String)

def Process.change (p : Process κ) : Change → Option (Process κ)
  | .resetKeys => some p.resetEncryptionCache
  | .resetSettings => some p.invalidateSettingsCache
  | .restart allowPlaintext => some { p.forget with allowPlaintext }
  | .configureEnv key => if Text.strip p.env = "" then some { p.forget with env := key } else none
  | .configurePlugin key =>
    if Text.strip p.plugin = "" then some { p with plugin := key } else none
  | .setLocal key =>
    if Text.strip key ≠ "" ∧ Text.strip p.localFile = "" then
      some { p.forget with localFile := Text.strip key }
    else none

inductive Label where
  | write (value : Option String) (nonce : ℕ) (at_ again : Lookup)
  | read (i : ℕ) (at_ : Lookup)
  | change (change : Change)

def step (c : Cipher κ) (p : Process κ) : Label → Option (Process κ)
  | .write value nonce at_ again =>
    let answer := p.encryptValue c value nonce at_ again
    match answer.1 with
    | .ok stored => some { answer.2 with stored := p.stored ++ [⟨value, stored⟩] }
    | .error _ => some answer.2
  | .read i at_ => p.stored[i]?.map fun e =>
    let answer := p.decryptValue c e.value at_
    { answer.2 with reads := p.reads ++ [⟨e, answer.1⟩] }
  | .change change => p.change change

/-- A value reads back as it was written; reading raises only where it was encrypted. -/
def Read.Right (r : Read) : Prop :=
  r.answer = .ok r.stored.written ∨ r.answer = .error () ∧ r.stored.value ≠ r.stored.written

/-- An encrypted value is read while a key is resolved, and one that is stored as it was written
either has no mark or is read while none is. -/
def Readable (c : Cipher κ) (p : Process κ) : Label → Prop
  | .read i at_ => ∀ e ∈ p.stored[i]?, ∀ text ∈ e.value,
    if e.value = e.written then Process.marked text = true → (p.getFernet c at_).1 = none
    else (p.getFernet c at_).1 ≠ none
  | _ => True

instance [DecidableEq κ] (c : Cipher κ) (p : Process κ) : ∀ l, Decidable (Readable c p l)
  | .read _ _ => inferInstanceAs (Decidable (∀ _ ∈ _, ∀ _ ∈ _, _))
  | .write _ _ _ _ | .change _ => isTrue trivial

section Lemmas

variable {c : Cipher κ} {p q : Process κ} {at_ again : Lookup} {value : Option String} {e : Stored}

/-- Nothing of the credentials is different. -/
def SameStore (p q : Process κ) : Prop := q.stored = p.stored ∧ q.reads = p.reads

theorem resolveRawKey_store : SameStore p (p.resolveRawKey at_).2 := by
  unfold Process.resolveRawKey
  split_ifs <;> exact ⟨rfl, rfl⟩

theorem getEncryptionKey_store : SameStore p (p.getEncryptionKey c at_).2 := by
  unfold Process.getEncryptionKey
  have hresolved : SameStore p (p.resolveRawKey at_).2 := resolveRawKey_store
  split
  · exact ⟨rfl, rfl⟩
  · generalize p.resolveRawKey at_ = resolved at hresolved
    dsimp only
    split_ifs
    · exact hresolved
    · exact ⟨hresolved.1, hresolved.2⟩

theorem getFernet_store : SameStore p (p.getFernet c at_).2 := by
  unfold Process.getFernet
  have hkey : SameStore p (p.getEncryptionKey c at_).2 := getEncryptionKey_store
  split
  · exact ⟨rfl, rfl⟩
  · exact hkey

theorem encryptValue_store {nonce : ℕ} :
    SameStore p (p.encryptValue c value nonce at_ again).2 := by
  unfold Process.encryptValue
  have hfernet : SameStore p (p.getFernet c at_).2 := getFernet_store
  split
  · exact ⟨rfl, rfl⟩
  · dsimp only
    split
    · exact hfernet
    · have hkey : SameStore (p.getFernet c at_).2
          ((p.getFernet c at_).2.getEncryptionKey c again).2 := getEncryptionKey_store
      have hboth : SameStore p ((p.getFernet c at_).2.getEncryptionKey c again).2 :=
        ⟨hkey.1.trans hfernet.1, hkey.2.trans hfernet.2⟩
      split_ifs
      · exact hfernet
      · exact hboth
      · exact hboth

theorem decryptValue_store : SameStore p (p.decryptValue c value at_).2 := by
  unfold Process.decryptValue
  have hfernet : SameStore p (p.getFernet c at_).2 := getFernet_store
  split
  · exact ⟨rfl, rfl⟩
  · dsimp only
    split
    · exact hfernet
    · split_ifs
      · split <;> exact hfernet
      · exact hfernet

theorem change_store {change : Change} (hchange : p.change change = some q) : SameStore p q := by
  cases change <;> unfold Process.change at hchange <;> dsimp only at hchange
  case resetKeys | resetSettings | restart =>
    cases hchange
    exact ⟨rfl, rfl⟩
  all_goals
    split at hchange
    · cases hchange
      exact ⟨rfl, rfl⟩
    · cases hchange

/-- A credential is stored as it was written or encrypted under some key. -/
def Kept (c : Cipher κ) (e : Stored) : Prop :=
  e.value = e.written ∨
    ∃ k n m, e.written = some m ∧ e.value = some ("enc:" ++ c.encrypt k n m)

theorem kept_encryptValue {nonce : ℕ} {stored : Option String}
    (hstored : (p.encryptValue c value nonce at_ again).1 = .ok stored) :
    Kept c ⟨value, stored⟩ := by
  unfold Process.encryptValue at hstored
  cases value with
  | none =>
    cases hstored
    exact Or.inl rfl
  | some plaintext =>
    dsimp only at hstored
    split at hstored
    · cases hstored
      exact Or.inr ⟨_, nonce, plaintext, rfl, rfl⟩
    · split_ifs at hstored <;> cases hstored <;> exact Or.inl rfl

theorem encrypted_longer (hc : c.Lawful) (k : κ) (n : ℕ) (m : String) :
    m.toList.length < ("enc:" ++ c.encrypt k n m).toList.length := by
  have hlonger := hc.length_lt k _ m (hc.decrypt_encrypt k n m)
  rw [String.toList_append, List.length_append]
  omega

theorem marked_append (text : String) : Process.marked ("enc:" ++ text) = true := by
  simp [Process.marked, String.toList_append]

theorem drop_append (text : String) :
    String.ofList (("enc:" ++ text).toList.drop 4) = text := by
  have hmark : "enc:".toList = ['e', 'n', 'c', ':'] := rfl
  rw [String.toList_append, hmark]
  simp only [List.cons_append, List.nil_append, List.drop_succ_cons, List.drop_zero,
    String.ofList_toList]

/-- Of a value that is stored as it was written. -/
theorem plain_right (hc : c.Lawful) (text : String) :
    (Read.mk ⟨some text, some text⟩ (p.decryptValue c (some text) at_).1).Right ↔
      (Process.marked text = true → (p.getFernet c at_).1 = none) := by
  unfold Process.decryptValue Read.Right
  dsimp only
  cases hkey : (p.getFernet c at_).1 with
  | none => simp
  | some key =>
    by_cases hmarked : Process.marked text = true
    · cases hdecrypt : c.decrypt key (String.ofList (text.toList.drop 4)) with
      | none => simp [hmarked, hdecrypt]
      | some m =>
        have hshort := hc.length_lt _ _ _ hdecrypt
        rw [String.toList_ofList, List.length_drop] at hshort
        have hne : m ≠ text := by
          rintro rfl
          omega
        simp [hmarked, hdecrypt, hne]
    · simp [hmarked]

/-- Of a value that was encrypted. -/
theorem encrypted_right (hc : c.Lawful) (k : κ) (n : ℕ) (m : String) :
    (Read.mk ⟨some m, some ("enc:" ++ c.encrypt k n m)⟩
      (p.decryptValue c (some ("enc:" ++ c.encrypt k n m)) at_).1).Right ↔
      (p.getFernet c at_).1 ≠ none := by
  have hne : "enc:" ++ c.encrypt k n m ≠ m := by
    intro heq
    have hlonger := encrypted_longer hc k n m
    rw [heq] at hlonger
    omega
  unfold Process.decryptValue Read.Right
  dsimp only
  cases hkey : (p.getFernet c at_).1 with
  | none => simp [hne]
  | some key =>
    dsimp only
    rw [if_pos (marked_append _), drop_append]
    by_cases hsame : k = key
    · subst hsame
      simp [hc.decrypt_encrypt]
    · simp [hc.decrypt_other k key n m hsame, hne]

theorem read_right_iff (hc : c.Lawful) (he : Kept c e) :
    (Read.mk e (p.decryptValue c e.value at_).1).Right ↔
      ∀ text ∈ e.value, if e.value = e.written then
        Process.marked text = true → (p.getFernet c at_).1 = none
      else (p.getFernet c at_).1 ≠ none := by
  obtain ⟨written, value⟩ := e
  rcases he with hplain | ⟨k, n, m, hwritten, hvalue⟩
  · dsimp only at hplain
    subst hplain
    cases value with
    | none => simp [Process.decryptValue, Read.Right]
    | some text =>
      rw [plain_right hc text]
      simp
  · dsimp only at hwritten hvalue
    subst hwritten hvalue
    have hne : "enc:" ++ c.encrypt k n m ≠ m := by
      intro heq
      have hlonger := encrypted_longer hc k n m
      rw [heq] at hlonger
      omega
    rw [encrypted_right hc k n m]
    simp [hne]

def AllKept (c : Cipher κ) (p : Process κ) : Prop := ∀ e ∈ p.stored, Kept c e

theorem kept_of_store (hp : AllKept c p) (hstored : q.stored = p.stored) : AllKept c q := by
  intro e he
  rw [hstored] at he
  exact hp e he

theorem kept_step {l : Label} (hp : AllKept c p) (hstep : step c p l = some q) :
    AllKept c q := by
  cases l with
  | write value nonce at_ again =>
    have hstore : SameStore p (p.encryptValue c value nonce at_ again).2 := encryptValue_store
    unfold step at hstep
    dsimp only at hstep
    split at hstep <;> cases hstep
    · rename_i stored hstored
      intro e he
      rcases List.mem_append.mp he with he | he
      · exact hp e he
      · rw [List.mem_singleton.mp he]
        exact kept_encryptValue hstored
    · exact kept_of_store hp hstore.1
  | read i at_ =>
    obtain ⟨e, -, rfl⟩ := Option.map_eq_some_iff.mp hstep
    have hstore : SameStore p (p.decryptValue c e.value at_).2 := decryptValue_store
    exact kept_of_store hp hstore.1
  | change change => exact kept_of_store hp (change_store hstep).1

/-- The read values are right after a step if they were right before it and the step, where it
reads a value, reads a readable one. -/
theorem reads_step {l : Label} (hc : c.Lawful) (hp : AllKept c p) (hstep : step c p l = some q) :
    (∀ r ∈ q.reads, r.Right) ↔ (∀ r ∈ p.reads, r.Right) ∧ Readable c p l := by
  have hquiet : q.reads = p.reads → Readable c p l →
      ((∀ r ∈ q.reads, r.Right) ↔ (∀ r ∈ p.reads, r.Right) ∧ Readable c p l) := by
    intro hreads hreadable
    rw [hreads]
    exact ⟨fun hall => ⟨hall, hreadable⟩, fun hall => hall.1⟩
  cases l with
  | write value nonce at_ again =>
    have hstore : SameStore p (p.encryptValue c value nonce at_ again).2 := encryptValue_store
    unfold step at hstep
    dsimp only at hstep
    split at hstep <;> cases hstep <;> exact hquiet hstore.2 trivial
  | read i at_ =>
    obtain ⟨e, he, rfl⟩ := Option.map_eq_some_iff.mp hstep
    have hreadable : Readable c p (.read i at_) ↔
        (Read.mk e (p.decryptValue c e.value at_).1).Right := by
      rw [read_right_iff hc (hp e (List.mem_of_getElem? he))]
      simp [Readable, he]
    rw [hreadable]
    simp only [List.mem_append, List.mem_singleton]
    constructor
    · intro hall
      exact ⟨fun r hr => hall r (Or.inl hr), hall _ (Or.inr rfl)⟩
    · rintro ⟨hall, hlast⟩ r (hr | rfl)
      · exact hall r hr
      · exact hlast
  | change change => exact hquiet (change_store hstep).2 trivial

end Lemmas

/-- In every run all values read back as they were written, or their decryption fails, if and only
if every value that is read is readable there. -/
theorem reads_right_iff (c : Cipher κ) (hc : c.Lawful) (env plugin localFile : String)
    (allowPlaintext : Bool) (labels : List Label) (p : Process κ)
    (hrun : Runs.exec (step c) (.initial env plugin localFile allowPlaintext) labels = some p) :
    (∀ r ∈ p.reads, r.Right) ↔
      Runs.Guarded (step c) (Readable c) (.initial env plugin localFile allowPlaintext) labels := by
  have hempty : AllKept c (.initial env plugin localFile allowPlaintext) := by
    intro e he
    simp [Process.initial] at he
  have hlog := Runs.log_iff_guarded (AllKept c) Process.reads Read.Right
    (fun p l q => kept_step) (fun p l q => reads_step hc) hempty hrun
  rw [hlog]
  simp [Process.initial]


/-- A cipher whose tokens show the length of the key before the message. -/
def tally : Cipher ℕ where
  derive raw := raw.toList.length
  encrypt k _ m := String.ofList (List.replicate k 'k' ++ '|' :: m.toList)
  decrypt k t :=
    if t.toList.take (k + 1) = List.replicate k 'k' ++ ['|'] then
      some (String.ofList (t.toList.drop (k + 1)))
    else none

theorem tally_lawful : tally.Lawful where
  decrypt_encrypt := by
    intro k n m
    have hsplit : List.replicate k 'k' ++ '|' :: m.toList =
        (List.replicate k 'k' ++ ['|']) ++ m.toList := by simp
    have hlength : (List.replicate k 'k' ++ ['|']).length = k + 1 := by simp
    simp only [tally, String.toList_ofList, hsplit]
    rw [List.take_left' hlength, List.drop_left' hlength, if_pos rfl, String.ofList_toList]
  decrypt_other := by
    intro k k' n m hne
    simp only [tally, String.toList_ofList]
    rw [if_neg]
    intro heq
    -- At the end of the shorter key one of the texts has its mark and the other does not.
    have hat : ∀ i, i < k' + 1 → (List.replicate k 'k' ++ '|' :: m.toList)[i]? =
        (List.replicate k' 'k' ++ ['|'])[i]? := by
      intro i hi
      rw [← heq, List.getElem?_take_of_lt hi]
    rcases Nat.lt_or_gt_of_ne hne with hlt | hlt
    · have hmark := hat k (by omega)
      rw [List.getElem?_append_right (by simp), List.getElem?_append_left (by simpa using hlt)]
        at hmark
      simp [hlt] at hmark
    · have hmark := hat k' (by omega)
      rw [List.getElem?_append_left (by simpa using hlt), List.getElem?_append_right (by simp)]
        at hmark
      simp [hlt] at hmark
  length_lt := by
    intro k t m hdecrypt
    simp only [tally] at hdecrypt
    split_ifs at hdecrypt with hmark
    cases hdecrypt
    have hlength := congrArg List.length hmark
    rw [List.length_take, List.length_append, List.length_replicate, List.length_singleton]
      at hlength
    rw [String.toList_ofList, List.length_drop]
    omega

/-- One secret is stored before there is a key and one after; both are read after a restart. -/
def firstKey : List Label :=
  [.write (some "hunter2") 0 ⟨.found, 0⟩ ⟨.found, 0⟩, .change (.setLocal "key"),
    .write (some "swordfish") 1 ⟨.found, 1⟩ ⟨.found, 1⟩, .change (.restart false),
    .read 0 ⟨.failed, 2⟩, .read 1 ⟨.failed, 400⟩]

theorem reads_right_iff_firstKey :
    ∃ p, Runs.exec (step tally) (.initial "" "" "" true) firstKey = some p ∧
      ∀ r ∈ p.reads, r.Right := by
  have hrun : (Runs.exec (step tally) (.initial "" "" "" true) firstKey).isSome := by
    decide +kernel
  obtain ⟨p, hp⟩ := Option.isSome_iff_exists.mp hrun
  have hright := reads_right_iff tally tally_lawful "" "" "" true firstKey p hp
  exact ⟨p, hp, hright.mpr (by decide +kernel)⟩

/-- After a restart the plugin settings are out of reach. -/
def lostSettings : List Label :=
  [.write (some "swordfish") 0 ⟨.found, 0⟩ ⟨.found, 0⟩, .change (.restart false),
    .read 0 ⟨.failed, 1⟩]

/-- A secret with the mark is stored before there is a key. -/
def markedSecret : List Label :=
  [.write (some "enc:swordfish") 0 ⟨.found, 0⟩ ⟨.found, 0⟩, .change (.setLocal "key"),
    .read 0 ⟨.found, 1⟩]

theorem reads_not_right :
    (∃ p, Runs.exec (step tally) (.initial "" "key" "" false) lostSettings = some p ∧
      p.reads = [⟨⟨some "swordfish", some "enc:kkk|swordfish"⟩, .ok (some "enc:kkk|swordfish")⟩] ∧
      ¬ ∀ r ∈ p.reads, r.Right) ∧
    ∃ p, Runs.exec (step tally) (.initial "" "" "" true) markedSecret = some p ∧
      p.reads = [⟨⟨some "enc:swordfish", some "enc:swordfish"⟩, .error ()⟩] ∧
      ¬ ∀ r ∈ p.reads, r.Right := by
  have hlost : (Runs.exec (step tally) (.initial "" "key" "" false) lostSettings).map (·.reads) =
      some [⟨⟨some "swordfish", some "enc:kkk|swordfish"⟩, .ok (some "enc:kkk|swordfish")⟩] := by
    decide +kernel
  have hmarked : (Runs.exec (step tally) (.initial "" "" "" true) markedSecret).map (·.reads) =
      some [⟨⟨some "enc:swordfish", some "enc:swordfish"⟩, .error ()⟩] := by
    decide +kernel
  obtain ⟨p, hp, hreads⟩ := Option.map_eq_some_iff.mp hlost
  obtain ⟨q, hq, hreads'⟩ := Option.map_eq_some_iff.mp hmarked
  refine ⟨⟨p, hp, hreads, ?_⟩, q, hq, hreads', ?_⟩
  · rw [hreads]
    simp [Read.Right]
  · rw [hreads']
    simp [Read.Right]

end ProxboxApi.Credentials
