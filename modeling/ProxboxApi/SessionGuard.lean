import ProxboxApi.Requests

/-! Programs that read records, open sessions on them, and write on the session that is open: a
write is guarded where the record of its session was read and allows writes. -/

namespace SessionGuard

open Requests

/-- The records that were read, and the one that the open session is of. -/
structure Use (ρ : Type) where
  read : List ρ
  session : Option ρ

variable {Q : Type} {A : Q → Type} {ρ α β : Type}

/-- What requests do to the records and to the session, and which of them write. -/
structure Interface (Q : Type) (A : Q → Type) (ρ : Type) where
  writes : Q → Bool
  next : (q : Q) → A q → Use ρ → Use ρ
  allows : ρ → Bool

namespace Interface

variable (I : Interface Q A ρ)

/-- The session is of a record that was read and allows writes. -/
def Ready (u : Use ρ) : Prop := ∃ r ∈ u.read, u.session = some r ∧ I.allows r = true

def useAfter (u : Use ρ) (log : List (Prog.Exchange Q A)) : Use ρ :=
  log.foldl (fun u x => I.next x.1 x.2 u) u

/-- Every write of a run finds the session ready. -/
def Guarded (u : Use ρ) (log : List (Prog.Exchange Q A)) : Prop :=
  ∀ before x after, log = before ++ x :: after → I.writes x.1 = true →
    I.Ready (I.useAfter u before)

/-- On every run the writes find the session ready, and the result is as `post` says. -/
def Covers (post : Use ρ → α → Prop) : Use ρ → Prog Q A α → Prop
  | u, .ret a => post u a
  | u, .ask q k =>
    (I.writes q = true → I.Ready u) ∧ ∀ reply, Covers post (I.next q reply u) (k reply)

/-- A program that writes nothing and leaves the records and the session. -/
def Quiet (p : Prog Q A α) : Prop := ∀ u, I.Covers (fun u' _ => u' = u) u p

variable {I} {u : Use ρ} {post post' : Use ρ → α → Prop}

theorem Covers.mono {p : Prog Q A α} (h : I.Covers post u p)
    (hpost : ∀ u a, post u a → post' u a) : I.Covers post' u p := by
  induction p generalizing u with
  | ret a => exact hpost u a h
  | ask q k ih => exact ⟨h.1, fun reply => ih reply (h.2 reply)⟩

theorem covers_bind {post : Use ρ → β → Prop} {p : Prog Q A α} {f : α → Prog Q A β} :
    I.Covers post u (p.bind f) ↔ I.Covers (fun u a => I.Covers post u (f a)) u p := by
  induction p generalizing u with
  | ret a => rfl
  | ask q k ih => simp only [Prog.bind, Covers, ih]

theorem Covers.bind {mid : Use ρ → α → Prop} {post : Use ρ → β → Prop} {p : Prog Q A α}
    {f : α → Prog Q A β} (hp : I.Covers mid u p)
    (hf : ∀ u a, mid u a → I.Covers post u (f a)) : I.Covers post u (p.bind f) :=
  covers_bind.mpr (hp.mono hf)

/-- The writes of a run of a program that is covered are guarded. -/
theorem Covers.guarded {p : Prog Q A α} {log : List (Prog.Exchange Q A)} {a : α}
    (h : I.Covers post u p) (hruns : Prog.Runs p log a) : I.Guarded u log := by
  induction hruns generalizing u with
  | ret a =>
    intro before x after hlog
    simp at hlog
  | @ask q k reply log a _ ih =>
    intro before x after hlog hwrites
    cases before with
    | nil =>
      obtain ⟨rfl, rfl⟩ := List.cons.inj hlog
      exact h.1 hwrites
    | cons y before =>
      obtain ⟨rfl, hrest⟩ := List.cons.inj hlog
      exact ih (h.2 reply) before x after hrest hwrites

theorem guarded_nil : I.Guarded u [] := by
  intro before x after hlog
  simp at hlog

theorem guarded_cons_iff {q : Q} {reply : A q} {log : List (Prog.Exchange Q A)} :
    I.Guarded u (⟨q, reply⟩ :: log) ↔
      (I.writes q = true → I.Ready u) ∧ I.Guarded (I.next q reply u) log := by
  constructor
  · intro h
    refine ⟨fun hwrites => h [] ⟨q, reply⟩ log rfl hwrites, ?_⟩
    intro before x after hlog hwrites
    exact h (⟨q, reply⟩ :: before) x after (by rw [hlog, List.cons_append]) hwrites
  · rintro ⟨hhead, htail⟩ before x after hlog hwrites
    cases before with
    | nil =>
      obtain ⟨rfl, rfl⟩ := List.cons.inj hlog
      exact hhead hwrites
    | cons y before =>
      obtain ⟨rfl, hrest⟩ := List.cons.inj hlog
      exact htail before x after hrest hwrites

theorem Quiet.ret (a : α) : I.Quiet (.ret a : Prog Q A α) := fun _ => rfl

theorem Quiet.ask {q : Q} {k : A q → Prog Q A α} (hwrites : I.writes q = false)
    (hnext : ∀ reply u, I.next q reply u = u) (hk : ∀ reply, I.Quiet (k reply)) :
    I.Quiet (.ask q k) := by
  intro u
  refine ⟨fun h => by simp [hwrites] at h, fun reply => ?_⟩
  rw [hnext reply u]
  exact hk reply u

theorem Quiet.bind {p : Prog Q A α} {f : α → Prog Q A β} (hp : I.Quiet p)
    (hf : ∀ a, I.Quiet (f a)) : I.Quiet (p.bind f) := by
  intro u
  refine (hp u).bind ?_
  rintro _ a rfl
  exact hf a _

theorem Quiet.covers {p : Prog Q A α} (hp : I.Quiet p) (hpost : ∀ a, post u a) :
    I.Covers post u p := by
  refine (hp u).mono ?_
  rintro _ a rfl
  exact hpost a

/-- After a program that is quiet. -/
theorem Quiet.before {post : Use ρ → β → Prop} {p : Prog Q A α} {f : α → Prog Q A β}
    (hp : I.Quiet p) (hf : ∀ a, I.Covers post u (f a)) : I.Covers post u (p.bind f) := by
  refine (hp u).bind ?_
  rintro _ a rfl
  exact hf a

/-- From records and a session as `P` says, all writes of every run are guarded. -/
def From (I : Interface Q A ρ) (P : Use ρ → Prop) (p : Prog Q A α) : Prop :=
  ∀ u, P u → I.Covers (fun _ _ => True) u p

variable {P : Use ρ → Prop}

theorem Quiet.from {p : Prog Q A α} (hp : I.Quiet p) : I.From P p :=
  fun _ _ => hp.covers fun _ => trivial

/-- A program that is followed by one that needs nothing of the session. -/
theorem From.bind {p : Prog Q A α} {f : α → Prog Q A β} (hp : I.From P p)
    (hf : ∀ a, I.From (fun _ => True) (f a)) : I.From P (p.bind f) :=
  fun u hpre => (hp u hpre).bind fun u a _ => hf a u trivial

theorem Quiet.bindFrom {p : Prog Q A α} {f : α → Prog Q A β} (hp : I.Quiet p)
    (hf : ∀ a, I.From P (f a)) : I.From P (p.bind f) :=
  fun u hpre => hp.before fun a => hf a u hpre

section Exceptions

variable {ε : Type}

theorem Quiet.andThen {p : Prog Q A (Except ε α)} {f : α → Prog Q A (Except ε β)}
    (hp : I.Quiet p) (hf : ∀ a, I.Quiet (f a)) : I.Quiet (p.andThen f) := by
  apply hp.bind
  rintro (e | a)
  · exact .ret _
  · exact hf a

theorem From.andThen {p : Prog Q A (Except ε α)} {f : α → Prog Q A (Except ε β)}
    (hp : I.From P p) (hf : ∀ a, I.From (fun _ => True) (f a)) : I.From P (p.andThen f) := by
  apply hp.bind
  rintro (e | a)
  · exact (Quiet.ret _).from
  · exact hf a

theorem Quiet.andThenFrom {p : Prog Q A (Except ε α)} {f : α → Prog Q A (Except ε β)}
    (hp : I.Quiet p) (hf : ∀ a, I.From P (f a)) : I.From P (p.andThen f) := by
  apply hp.bindFrom
  rintro (e | a)
  · exact (Quiet.ret _).from
  · exact hf a

theorem From.rescue {p : Prog Q A (Except ε α)} {h : ε → Prog Q A (Except ε α)}
    (hp : I.From P p) (hh : ∀ e, I.From (fun _ => True) (h e)) : I.From P (p.rescue h) := by
  apply hp.bind
  rintro (e | a)
  · exact hh e
  · exact (Quiet.ret _).from

theorem From.lastly {p : Prog Q A (Except ε α)} {cleanup : Prog Q A (Except ε Unit)}
    (hp : I.From P p) (hcleanup : I.Quiet cleanup) : I.From P (p.lastly cleanup) := by
  apply hp.bind
  intro r
  apply hcleanup.bindFrom
  rintro (e | _) <;> exact (Quiet.ret _).from

end Exceptions

end Interface

end SessionGuard
