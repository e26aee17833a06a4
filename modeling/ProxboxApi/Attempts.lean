import ProxboxApi.Steps

/-! Steps that may raise: their handlers and their clean-up, and the rules for what holds where a
step returns and where it raises. -/

namespace Requests

/-- A step that returns, or raises an exception. -/
abbrev Attempt (Q : Type) (A : Q → Type) (σ ε α : Type) := Step Q A σ (Except ε α)

variable {Q : Type} {A : Q → Type} {σ ε α β : Type}

namespace Attempt

def ret (a : α) : Attempt Q A σ ε α := Step.ret (.ok a)

def throw (e : ε) : Attempt Q A σ ε α := Step.ret (.error e)

/-- A step that reads the state. -/
def read (f : σ → Attempt Q A σ ε α) : Attempt Q A σ ε α := Step.read f

def modify (f : σ → σ) : Attempt Q A σ ε Unit := fun s => .ret (.ok (), f s)

/-- A request whose reply is a value or an exception. -/
def ask (q : Q) (result : A q → Except ε α) : Attempt Q A σ ε α :=
  Step.bind (Step.request q) fun reply => Step.ret (result reply)

def bind (p : Attempt Q A σ ε α) (f : α → Attempt Q A σ ε β) : Attempt Q A σ ε β :=
  Step.bind p fun
    | .ok a => f a
    | .error e => throw e

/-- `try` with its handlers. -/
def handle (p : Attempt Q A σ ε α) (h : ε → Attempt Q A σ ε α) : Attempt Q A σ ε α :=
  Step.bind p fun
    | .ok a => ret a
    | .error e => h e

/-- `finally`: what the clean-up raises replaces the outcome. -/
def ensure (p : Attempt Q A σ ε α) (cleanup : Attempt Q A σ ε Unit) : Attempt Q A σ ε α :=
  Step.bind p fun r => Step.bind cleanup fun
    | .ok () => Step.ret r
    | .error e => throw e

abbrev Log (Q : Type) (A : Q → Type) := Step.Log Q A

/-- From exchanges and a state as `pre` says, the step returns as `ok` says or raises as `err`
says. -/
def Triple (allows : (q : Q) → A q → Prop) (pre : Log Q A → σ → Prop) (p : Attempt Q A σ ε α)
    (ok : Log Q A → α → σ → Prop) (err : Log Q A → ε → σ → Prop) : Prop :=
  Step.Rule allows (fun _ _ => True) pre p fun log r s => match r with
    | .ok a => ok log a s
    | .error e => err log e s

variable {allows : (q : Q) → A q → Prop} {pre pre' : Log Q A → σ → Prop}
  {ok mid : Log Q A → α → σ → Prop} {ok' : Log Q A → β → σ → Prop}
  {err caught : Log Q A → ε → σ → Prop}

theorem Triple.ret {a : α} (h : ∀ log s, pre log s → ok log a s) :
    Triple allows pre (ret a) ok err :=
  h

theorem Triple.throw {e : ε} (h : ∀ log s, pre log s → err log e s) :
    Triple allows pre (throw e : Attempt Q A σ ε α) ok err :=
  h

theorem Triple.read {f : σ → Attempt Q A σ ε α}
    (h : ∀ s, Triple allows (fun log s' => pre log s' ∧ s' = s) (f s) ok err) :
    Triple allows pre (read f) ok err :=
  Step.Rule.read h

theorem Triple.modify {f : σ → σ} {ok : Log Q A → Unit → σ → Prop}
    (h : ∀ log s, pre log s → ok log () (f s)) :
    Triple allows pre (modify f : Attempt Q A σ ε Unit) ok err :=
  h

/-- A step from what holds for some value. -/
theorem Triple.exists {ι : Sort*} {pre : ι → Log Q A → σ → Prop} {p : Attempt Q A σ ε α}
    (h : ∀ i, Triple allows (pre i) p ok err) :
    Triple allows (fun log s => ∃ i, pre i log s) p ok err := by
  rintro log s ⟨i, hpre⟩
  exact h i log s hpre

theorem Triple.or {p : Attempt Q A σ ε α} (h : Triple allows pre p ok err)
    (h' : Triple allows pre' p ok err) :
    Triple allows (fun log s => pre log s ∨ pre' log s) p ok err := by
  rintro log s (hpre | hpre)
  · exact h log s hpre
  · exact h' log s hpre

/-- A step that is taken only where something holds. -/
theorem Triple.of_pre {P : Prop} {p : Attempt Q A σ ε α} (h : P → Triple allows pre p ok err) :
    Triple allows (fun log s => P ∧ pre log s) p ok err := by
  rintro log s ⟨hP, hpre⟩
  exact h hP log s hpre

theorem Triple.ask {q : Q} {result : A q → Except ε α}
    (h : ∀ log s reply, pre log s → allows q reply → match result reply with
      | .ok a => ok (log ++ [⟨q, reply⟩]) a s
      | .error e => err (log ++ [⟨q, reply⟩]) e s) :
    Triple allows pre (ask q result) ok err := by
  refine Step.Rule.after (fun log reply s => match result reply with
    | .ok a => ok log a s
    | .error e => err log e s) ?_ fun reply => Step.Rule.ret fun log s hmid => hmid
  exact Step.Rule.request _ (fun _ _ _ => trivial) h

theorem Triple.bind {p : Attempt Q A σ ε α} {f : α → Attempt Q A σ ε β}
    (hp : Triple allows pre p mid err)
    (hf : ∀ a, Triple allows (fun log s => mid log a s) (f a) ok' err) :
    Triple allows pre (p.bind f) ok' err := by
  refine Step.Rule.bind hp fun r => ?_
  cases r with
  | ok a => exact hf a
  | error e => exact Triple.throw fun _ _ h => h

theorem Triple.after {p : Attempt Q A σ ε α} {f : α → Attempt Q A σ ε β}
    (mid : Log Q A → α → σ → Prop) (hp : Triple allows pre p mid err)
    (hf : ∀ a, Triple allows (fun log s => mid log a s) (f a) ok' err) :
    Triple allows pre (p.bind f) ok' err :=
  hp.bind hf

variable (caught) in
theorem Triple.handle {p : Attempt Q A σ ε α} {h : ε → Attempt Q A σ ε α}
    (hp : Triple allows pre p ok caught)
    (hh : ∀ e, Triple allows (fun log s => caught log e s) (h e) ok err) :
    Triple allows pre (p.handle h) ok err := by
  refine Step.Rule.bind hp fun r => ?_
  cases r with
  | ok a => exact Triple.ret fun _ _ h => h
  | error e => exact hh e

variable (mid caught) in
theorem Triple.ensure {p : Attempt Q A σ ε α} {cleanup : Attempt Q A σ ε Unit}
    (hp : Triple allows pre p mid caught)
    (hok : ∀ a, Triple allows (fun log s => mid log a s) cleanup (fun log _ s => ok log a s) err)
    (herr : ∀ e, Triple allows (fun log s => caught log e s) cleanup
      (fun log _ s => err log e s) err) :
    Triple allows pre (p.ensure cleanup) ok err := by
  refine Step.Rule.bind hp fun r => ?_
  cases r with
  | ok a =>
    refine Step.Rule.bind (hok a) fun r => ?_
    cases r with
    | ok u => exact Triple.ret fun _ _ h => h
    | error e => exact Triple.throw fun _ _ h => h
  | error e =>
    refine Step.Rule.bind (herr e) fun r => ?_
    cases r with
    | ok u => exact Triple.throw fun _ _ h => h
    | error e' => exact Triple.throw fun _ _ h => h

theorem Triple.mono {p : Attempt Q A σ ε α} (h : Triple allows pre p mid caught)
    (hpre : ∀ log s, pre' log s → pre log s) (hok : ∀ log a s, mid log a s → ok log a s)
    (herr : ∀ log e s, caught log e s → err log e s) : Triple allows pre' p ok err := by
  refine Step.Rule.mono h hpre ?_
  rintro log (e | a) s hpost
  · exact herr log e s hpost
  · exact hok log a s hpost

/-- What a triple says of a whole run. -/
theorem Triple.of_runs {p : Attempt Q A σ ε α} (h : Triple allows pre p ok err) {s s' : σ}
    {log : Log Q A} {r : Except ε α} (hruns : Prog.Runs (p s) log (r, s'))
    (hallows : ∀ x ∈ log, allows x.1 x.2) (hpre : pre [] s) :
    (∀ a, r = .ok a → ok log a s') ∧ ∀ e, r = .error e → err log e s' := by
  have hpost := (h [] s hpre).of_runs hruns hallows
  rw [List.nil_append] at hpost
  refine ⟨?_, ?_⟩
  · rintro a rfl
    exact hpost
  · rintro e rfl
    exact hpost

end Attempt

end Requests
