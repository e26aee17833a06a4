import Mathlib.Data.List.Basic

/-! Programs that issue requests and go on with their replies.  What holds on every allowed run is
computed backwards over the program, with the exchanges so far at hand. -/

namespace Requests

/-- A program that issues requests `q : Q`, each answered by a reply of type `A q`. -/
inductive Prog (Q : Type) (A : Q → Type) (α : Type) where
  | ret (a : α)
  | ask (q : Q) (next : A q → Prog Q A α)

variable {Q : Type} {A : Q → Type} {α β : Type}

namespace Prog

def bind : Prog Q A α → (α → Prog Q A β) → Prog Q A β
  | ret a, f => f a
  | ask q next, f => ask q fun reply => (next reply).bind f

/-- A request and its reply. -/
abbrev Exchange (Q : Type) (A : Q → Type) := (q : Q) × A q

/-- The run of a program on a server. -/
def run {σ : Type} (answer : (q : Q) → σ → A q × σ) : Prog Q A α → σ → α × σ
  | ret a, s => (a, s)
  | ask q next, s => run answer (next (answer q s).1) (answer q s).2

theorem run_bind {σ : Type} {answer : (q : Q) → σ → A q × σ} (p : Prog Q A α)
    (f : α → Prog Q A β) (s : σ) :
    (p.bind f).run answer s = (f (p.run answer s).1).run answer (p.run answer s).2 := by
  induction p generalizing s with
  | ret a => rfl
  | ask q next ih => exact ih _ _

/-- On every run on allowed replies, each request is good after the exchanges before it, and the
result meets `post`. -/
def Always (allows : (q : Q) → A q → Prop) (good : List (Exchange Q A) → Q → Prop)
    (post : List (Exchange Q A) → α → Prop) : List (Exchange Q A) → Prog Q A α → Prop
  | log, ret a => post log a
  | log, ask q next =>
    good log q ∧ ∀ reply, allows q reply → Always allows good post (log ++ [⟨q, reply⟩]) (next reply)

variable {allows : (q : Q) → A q → Prop} {good : List (Exchange Q A) → Q → Prop}
  {post post' : List (Exchange Q A) → α → Prop} {log : List (Exchange Q A)}

theorem always_bind {post : List (Exchange Q A) → β → Prop} {p : Prog Q A α}
    {f : α → Prog Q A β} : Always allows good post log (p.bind f) ↔
      Always allows good (fun log a => Always allows good post log (f a)) log p := by
  induction p generalizing log with
  | ret a => rfl
  | ask q next ih => simp only [bind, Always, ih]

theorem Always.mono {p : Prog Q A α} (h : Always allows good post log p)
    (hpost : ∀ log a, post log a → post' log a) : Always allows good post' log p := by
  induction p generalizing log with
  | ret a => exact hpost _ _ h
  | ask q next ih => exact ⟨h.1, fun reply hreply => ih reply (h.2 reply hreply)⟩

/-- A step of a run keeps what holds on every run. -/
theorem Always.step {q : Q} {next : A q → Prog Q A α}
    (h : Always allows good post log (ask q next)) {reply : A q} (hreply : allows q reply) :
    Always allows good post (log ++ [⟨q, reply⟩]) (next reply) :=
  h.2 reply hreply

/-- A whole run, with its exchanges and its result. -/
inductive Runs : Prog Q A α → List (Exchange Q A) → α → Prop where
  | ret (a : α) : Runs (ret a) [] a
  | ask {q : Q} {next : A q → Prog Q A α} (reply : A q) {log : List (Exchange Q A)} {a : α}
      (h : Runs (next reply) log a) : Runs (ask q next) (⟨q, reply⟩ :: log) a

/-- The run on a server whose replies go by the request alone. -/
def trace (answer : (q : Q) → A q) : Prog Q A α → List (Exchange Q A) × α
  | ret a => ([], a)
  | ask q next =>
    let rest := trace answer (next (answer q))
    (⟨q, answer q⟩ :: rest.1, rest.2)

theorem runs_trace (answer : (q : Q) → A q) (p : Prog Q A α) :
    Runs p (p.trace answer).1 (p.trace answer).2 := by
  induction p with
  | ret a => exact .ret a
  | ask q next ih => exact .ask (answer q) (ih (answer q))

theorem allowed_trace {answer : (q : Q) → A q} (h : ∀ q, allows q (answer q)) (p : Prog Q A α) :
    ∀ x ∈ (p.trace answer).1, allows x.1 x.2 := by
  induction p with
  | ret a => simp [trace]
  | ask q next ih =>
    rw [trace, List.forall_mem_cons]
    exact ⟨h q, ih (answer q)⟩

theorem Always.of_runs {p : Prog Q A α} {log' : List (Exchange Q A)} {a : α}
    (h : Always allows good post log p) (hruns : Runs p log' a)
    (hallows : ∀ x ∈ log', allows x.1 x.2) : post (log ++ log') a := by
  induction hruns generalizing log with
  | ret a => rwa [List.append_nil]
  | ask reply _ ih =>
    obtain ⟨hreply, hrest⟩ := List.forall_mem_cons.mp hallows
    have hpost := ih (h.2 reply hreply) hrest
    rwa [List.append_assoc, List.singleton_append] at hpost

/-- Each request of a run is good after the exchanges before it. -/
theorem Always.good_of_runs {p : Prog Q A α} {log' before after : List (Exchange Q A)} {a : α}
    {x : Exchange Q A} (h : Always allows good post log p) (hruns : Runs p log' a)
    (hallows : ∀ x ∈ log', allows x.1 x.2) (hx : log' = before ++ x :: after) :
    good (log ++ before) x.1 := by
  induction hruns generalizing log before with
  | ret a => simp at hx
  | ask reply _ ih =>
    obtain ⟨hreply, hrest⟩ := List.forall_mem_cons.mp hallows
    cases before with
    | nil =>
      obtain ⟨rfl, rfl⟩ := List.cons.inj hx
      rw [List.append_nil]
      exact h.1
    | cons y before =>
      obtain ⟨rfl, hsplit⟩ := List.cons.inj hx
      have hgood := ih (h.2 reply hreply) hrest hsplit
      rwa [List.append_assoc, List.singleton_append] at hgood

theorem runs_bind {p : Prog Q A α} {f : α → Prog Q A β} {log : List (Exchange Q A)} {b : β}
    (h : Runs (p.bind f) log b) :
    ∃ first a rest, log = first ++ rest ∧ Runs p first a ∧ Runs (f a) rest b := by
  induction p generalizing log with
  | ret a => exact ⟨[], a, log, rfl, .ret a, h⟩
  | ask q next ih =>
    cases h with
    | ask reply h =>
      obtain ⟨first, a, rest, rfl, hfirst, hrest⟩ := ih reply h
      exact ⟨⟨q, reply⟩ :: first, a, rest, rfl, .ask reply hfirst, hrest⟩

/-- A program whose requests are a part of those of a larger system. -/
def via {Q' : Type} {A' : Q' → Type} (f : Q → Q') (reply : ∀ q, A' (f q) → A q) :
    Prog Q A α → Prog Q' A' α
  | ret a => ret a
  | ask q next => ask (f q) fun r => via f reply (next (reply q r))

/-- The run on a server, with its exchanges. -/
def traceFrom {σ : Type} (answer : (q : Q) → σ → A q × σ) :
    Prog Q A α → σ → List (Exchange Q A) × α
  | ret a, _ => ([], a)
  | ask q next, s =>
    let rest := traceFrom answer (next (answer q s).1) (answer q s).2
    (⟨q, (answer q s).1⟩ :: rest.1, rest.2)

theorem runs_traceFrom {σ : Type} (answer : (q : Q) → σ → A q × σ) (p : Prog Q A α) (s : σ) :
    Runs p (p.traceFrom answer s).1 (p.traceFrom answer s).2 := by
  induction p generalizing s with
  | ret a => exact .ret a
  | ask q next ih => exact .ask _ (ih _ _)

section Exceptions

variable {ε : Type}

/-- One statement after another; an exception ends them. -/
def andThen (p : Prog Q A (Except ε α)) (f : α → Prog Q A (Except ε β)) :
    Prog Q A (Except ε β) :=
  p.bind fun
    | .ok a => f a
    | .error e => ret (.error e)

/-- `try` with its handlers. -/
def rescue (p : Prog Q A (Except ε α)) (h : ε → Prog Q A (Except ε α)) : Prog Q A (Except ε α) :=
  p.bind fun
    | .ok a => ret (.ok a)
    | .error e => h e

/-- `finally`: what the clean-up raises replaces the outcome. -/
def lastly (p : Prog Q A (Except ε α)) (cleanup : Prog Q A (Except ε Unit)) :
    Prog Q A (Except ε α) :=
  p.bind fun r => cleanup.bind fun
    | .ok () => ret r
    | .error e => ret (.error e)

end Exceptions

end Prog

end Requests
