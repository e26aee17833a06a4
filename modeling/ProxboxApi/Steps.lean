import ProxboxApi.Requests

/-! Programs of requests that keep a state, and their rules: what holds of the exchanges and the
state before a step, and of its result after it. -/

namespace Requests

/-- A step from a state: its result, and the state that it leaves. -/
abbrev Step (Q : Type) (A : Q → Type) (σ α : Type) := σ → Prog Q A (α × σ)

variable {Q : Type} {A : Q → Type} {σ α β : Type}

namespace Step

def ret (a : α) : Step Q A σ α := fun s => .ret (a, s)

/-- A step that reads the state. -/
def read (f : σ → Step Q A σ α) : Step Q A σ α := fun s => f s s

def modify (f : σ → σ) : Step Q A σ Unit := fun s => .ret ((), f s)

def request (q : Q) : Step Q A σ (A q) := fun s => .ask q fun reply => .ret (reply, s)

def bind (p : Step Q A σ α) (f : α → Step Q A σ β) : Step Q A σ β :=
  fun s => (p s).bind fun r => f r.1 r.2

abbrev Log (Q : Type) (A : Q → Type) := List (Prog.Exchange Q A)

/-- From exchanges and a state as `pre` says, each request is good, and the step ends as `post`
says. -/
def Rule (allows : (q : Q) → A q → Prop) (good : Log Q A → Q → Prop) (pre : Log Q A → σ → Prop)
    (p : Step Q A σ α) (post : Log Q A → α → σ → Prop) : Prop :=
  ∀ log s, pre log s → (p s).Always allows good (fun log r => post log r.1 r.2) log

variable {allows : (q : Q) → A q → Prop} {good : Log Q A → Q → Prop}
  {pre pre' : Log Q A → σ → Prop} {post mid : Log Q A → α → σ → Prop}

theorem Rule.ret {a : α} (h : ∀ log s, pre log s → post log a s) :
    Rule allows good pre (ret a) post :=
  h

theorem Rule.read {f : σ → Step Q A σ α}
    (h : ∀ s, Rule allows good (fun log s' => pre log s' ∧ s' = s) (f s) post) :
    Rule allows good pre (read f) post :=
  fun log s hpre => h s log s ⟨hpre, rfl⟩

theorem Rule.modify {f : σ → σ} {post : Log Q A → Unit → σ → Prop}
    (h : ∀ log s, pre log s → post log () (f s)) : Rule allows good pre (modify f) post :=
  h

theorem Rule.request {q : Q} (post : Log Q A → A q → σ → Prop)
    (hgood : ∀ log s, pre log s → good log q)
    (h : ∀ log s reply, pre log s → allows q reply → post (log ++ [⟨q, reply⟩]) reply s) :
    Rule allows good pre (request q) post :=
  fun log s hpre => ⟨hgood log s hpre, fun reply hreply => h log s reply hpre hreply⟩

theorem Rule.bind {p : Step Q A σ α} {f : α → Step Q A σ β} {post : Log Q A → β → σ → Prop}
    (hp : Rule allows good pre p mid)
    (hf : ∀ a, Rule allows good (fun log s => mid log a s) (f a) post) :
    Rule allows good pre (p.bind f) post := by
  intro log s hpre
  rw [Step.bind, Prog.always_bind]
  exact (hp log s hpre).mono fun log r hr => hf r.1 log r.2 hr

theorem Rule.after {p : Step Q A σ α} {f : α → Step Q A σ β} {post : Log Q A → β → σ → Prop}
    (mid : Log Q A → α → σ → Prop) (hp : Rule allows good pre p mid)
    (hf : ∀ a, Rule allows good (fun log s => mid log a s) (f a) post) :
    Rule allows good pre (p.bind f) post :=
  hp.bind hf

theorem Rule.mono {p : Step Q A σ α} (h : Rule allows good pre p mid)
    (hpre : ∀ log s, pre' log s → pre log s)
    (hpost : ∀ log a s, mid log a s → post log a s) : Rule allows good pre' p post :=
  fun log s hs => (h log s (hpre log s hs)).mono fun log r hr => hpost log r.1 r.2 hr

/-- A step that is taken only where something holds. -/
theorem Rule.of_pre {p : Step Q A σ α} (h : ∀ log s, pre log s →
    Rule allows good (fun log' s' => log' = log ∧ s' = s) p post) : Rule allows good pre p post :=
  fun log s hpre => h log s hpre log s ⟨rfl, rfl⟩

end Step

end Requests
