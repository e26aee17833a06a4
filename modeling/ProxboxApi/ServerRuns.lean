import ProxboxApi.Attempts

/-! Two programs on one server: what an observer who sees only some of the requests can tell them
apart by. -/

namespace Requests

variable {Q : Type} {A : Q → Type} {σ τ α β γ δ : Type}

namespace Prog

variable {answer : (q : Q) → τ → A q × τ}

theorem bind_assoc (p : Prog Q A α) (f : α → Prog Q A β) (g : β → Prog Q A γ) :
    (p.bind f).bind g = p.bind fun a => (f a).bind g := by
  induction p with
  | ret a => rfl
  | ask q next ih => exact congrArg (ask q) (funext ih)

theorem bind_ret (p : Prog Q A α) : p.bind ret = p := by
  induction p with
  | ret a => rfl
  | ask q next ih => exact congrArg (ask q) (funext ih)

theorem traceFrom_snd (p : Prog Q A α) (s : τ) :
    (p.traceFrom answer s).2 = (p.run answer s).1 := by
  induction p generalizing s with
  | ret a => rfl
  | ask q next ih => exact ih _ _

theorem traceFrom_bind (p : Prog Q A α) (f : α → Prog Q A β) (s : τ) :
    ((p.bind f).traceFrom answer s).1 = (p.traceFrom answer s).1 ++
      ((f (p.run answer s).1).traceFrom answer (p.run answer s).2).1 := by
  induction p generalizing s with
  | ret a => rfl
  | ask q next ih => exact congrArg (_ :: ·) (ih _ _)

/-- Each reply of a run is an answer of the server. -/
theorem answered_of_mem {p : Prog Q A α} {s : τ} {x : Exchange Q A}
    (h : x ∈ (p.traceFrom answer s).1) : ∃ s', x.2 = (answer x.1 s').1 := by
  induction p generalizing s with
  | ret a => cases h
  | ask q next ih =>
    rcases List.mem_cons.mp h with rfl | h
    · exact ⟨s, rfl⟩
    · exact ih _ h

end Prog

namespace Step

theorem bind_assoc (p : Step Q A σ α) (f : α → Step Q A σ β) (g : β → Step Q A σ γ) :
    (p.bind f).bind g = p.bind fun a => (f a).bind g :=
  funext fun _ => Prog.bind_assoc _ _ _

theorem bind_ret (p : Step Q A σ α) : p.bind ret = p := funext fun _ => Prog.bind_ret _

/-- The exchanges that an observer sees. -/
def seen (sees : Q → Bool) (log : Log Q A) : Log Q A := log.filter fun x => sees x.1

/-- The step has no request that is seen, and a result as `post` says. -/
def Hidden (sees : Q → Bool) (post : α → Prop) (p : Step Q A σ α) : Prop :=
  Rule (fun _ _ => True) (fun _ q => sees q = false) (fun _ _ => True) p fun _ a _ => post a

variable {sees : Q → Bool} {post : α → Prop}

theorem Hidden.ret {a : α} (h : post a) : Hidden sees post (ret a : Step Q A σ α) :=
  Rule.ret fun _ _ _ => h

theorem Hidden.bind {p : Step Q A σ α} {f : α → Step Q A σ β} {post' : β → Prop}
    (hp : Hidden sees post p) (hf : ∀ a, post a → Hidden sees post' (f a)) :
    Hidden sees post' (p.bind f) := by
  refine Rule.after (fun _ a _ => post a) hp fun a log s h => ?_
  exact hf a h log s trivial

theorem Hidden.read {f : σ → Step Q A σ α} (h : ∀ s, Hidden sees post (f s)) :
    Hidden sees post (read f) :=
  fun log s _ => h s log s trivial

theorem Hidden.mono {p : Step Q A σ α} {post' : α → Prop} (h : Hidden sees post p)
    (hpost : ∀ a, post a → post' a) : Hidden sees post' p :=
  Rule.mono h (fun _ _ h => h) fun _ a _ h => hpost a h

/-- A step that is hidden is so on every server. -/
theorem Hidden.of_server {p : Step Q A σ α} (h : Hidden sees post p)
    (answer : (q : Q) → τ → A q × τ) (s : σ) (t : τ) :
    (∀ x ∈ ((p s).traceFrom answer t).1, sees x.1 = false) ∧ post ((p s).run answer t).1.1 := by
  have hruns := Prog.runs_traceFrom answer (p s) t
  constructor
  · intro x hx
    obtain ⟨before, after, hlog⟩ := List.append_of_mem hx
    exact (h [] s trivial).good_of_runs hruns (fun _ _ => trivial) hlog
  · rw [← Prog.traceFrom_snd]
    exact (h [] s trivial).of_runs hruns fun _ _ => trivial

theorem Hidden.seen_eq {p : Step Q A σ α} (h : Hidden sees post p)
    (answer : (q : Q) → τ → A q × τ) (s : σ) (t : τ) :
    seen sees ((p s).traceFrom answer t).1 = [] :=
  List.filter_eq_nil_iff.mpr fun x hx => by simp [(h.of_server answer s t).1 x hx]

/-- What hidden requests do not change holds after a hidden step. -/
theorem Hidden.frame {p : Step Q A σ α} {holds : Log Q A → Prop} (h : Hidden sees post p)
    (hkeeps : ∀ log x, holds log → sees x.1 = false → holds (log ++ [x])) :
    Rule (fun _ _ => True) (fun _ _ => True) (fun log _ => holds log) p
      fun log a _ => holds log ∧ post a := by
  have hprog : ∀ (p : Prog Q A (α × σ)) (log log' : Log Q A), holds log →
      p.Always (fun _ _ => True) (fun _ q => sees q = false) (fun _ r => post r.1) log' →
      p.Always (fun _ _ => True) (fun _ _ => True) (fun log r => holds log ∧ post r.1) log := by
    intro p
    induction p with
    | ret r => exact fun log log' hlog h => ⟨hlog, h⟩
    | ask q next ih =>
      intro log log' hlog h
      refine ⟨trivial, fun reply _ =>
        ih reply _ (log' ++ [⟨q, reply⟩]) (hkeeps log ⟨q, reply⟩ hlog h.1) ?_⟩
      exact h.2 reply trivial
  exact fun log s hlog => hprog (p s) log [] hlog (h [] s trivial)

/-- On this server, from the same state, the observer sees the same of both steps; their results
look the same, and where there is something to go on with, so are the states they leave. -/
def Agrees (sees : Q → Bool) (answer : (q : Q) → τ → A q × τ) (view : α → Option γ)
    (view' : β → Option γ) (p : Step Q A σ α) (q : Step Q A σ β) : Prop :=
  ∀ s t, seen sees ((p s).traceFrom answer t).1 = seen sees ((q s).traceFrom answer t).1 ∧
    view ((p s).run answer t).1.1 = view' ((q s).run answer t).1.1 ∧
    ((view ((p s).run answer t).1.1).isSome = true →
      ((p s).run answer t).1.2 = ((q s).run answer t).1.2 ∧
      ((p s).run answer t).2 = ((q s).run answer t).2)

variable {answer : (q : Q) → τ → A q × τ} {view : α → Option γ} {view' : β → Option γ}

theorem Agrees.refl (p : Step Q A σ α) : Agrees sees answer view view p p :=
  fun _ _ => ⟨rfl, rfl, fun _ => ⟨rfl, rfl⟩⟩

theorem Agrees.bind {α' β' : Type} {view₁ : α' → Option δ} {view₁' : β' → Option δ}
    {p : Step Q A σ α} {q : Step Q A σ β} {f : α → Step Q A σ α'} {g : β → Step Q A σ β'}
    (h : Agrees sees answer view view' p q)
    (hf : ∀ a b, view a = view' b → (view a).isSome = true →
      Agrees sees answer view₁ view₁' (f a) (g b))
    (hnone : ∀ a, view a = none → Hidden sees (view₁ · = none) (f a))
    (hnone' : ∀ b, view' b = none → Hidden sees (view₁' · = none) (g b)) :
    Agrees sees answer view₁ view₁' (p.bind f) (q.bind g) := by
  intro s t
  obtain ⟨hseen, hview, hstate⟩ := h s t
  simp only [Step.bind, Prog.traceFrom_bind, Prog.run_bind, seen, List.filter_append] at hseen ⊢
  rw [hseen]
  cases hsome : view ((p s).run answer t).1.1 with
  | none =>
    have hf' := hnone _ hsome
    have hg' := hnone' _ (hview.symm.trans hsome)
    obtain ⟨hleft, hright⟩ :
        seen sees ((f _ _).traceFrom answer _).1 = [] ∧ seen sees ((g _ _).traceFrom answer _).1 = [] :=
      ⟨hf'.seen_eq answer ((p s).run answer t).1.2 ((p s).run answer t).2,
        hg'.seen_eq answer ((q s).run answer t).1.2 ((q s).run answer t).2⟩
    unfold seen at hleft hright
    rw [hleft, hright]
    have hdead := (hf'.of_server answer ((p s).run answer t).1.2 ((p s).run answer t).2).2
    refine ⟨rfl, hdead.trans (hg'.of_server answer _ _).2.symm, fun h => ?_⟩
    rw [hdead] at h
    cases h
  | some c =>
    obtain ⟨hlocal, hserver⟩ := hstate (by rw [hsome]; rfl)
    rw [hlocal, hserver]
    obtain ⟨hseen', hrest⟩ := hf _ _ hview (by rw [hsome]; rfl) ((q s).run answer t).1.2
      ((q s).run answer t).2
    unfold seen at hseen'
    rw [hseen']
    exact ⟨rfl, hrest⟩

/-- A step that is hidden, leaves the server and the state as they are and has this result. -/
def Silent (sees : Q → Bool) (answer : (q : Q) → τ → A q × τ) (a : α) (p : Step Q A σ α) : Prop :=
  ∀ s t, seen sees ((p s).traceFrom answer t).1 = [] ∧ (p s).run answer t = ((a, s), t)

theorem Agrees.skip {a : α} {p : Step Q A σ α} {f : α → Step Q A σ β} {q : Step Q A σ γ}
    {view : β → Option δ} {view' : γ → Option δ} (hp : Silent sees answer a p)
    (h : Agrees sees answer view view' (f a) q) : Agrees sees answer view view' (p.bind f) q := by
  intro s t
  obtain ⟨hseen, hrun⟩ := hp s t
  have hrest := h s t
  simp only [Step.bind, Prog.traceFrom_bind, Prog.run_bind, seen, List.filter_append] at hseen hrest ⊢
  rw [hseen, hrun]
  exact hrest

end Step

namespace Attempt

variable {ε : Type} {sees : Q → Bool}

theorem ret_bind (a : α) (f : α → Attempt Q A σ ε β) : (ret a).bind f = f a := rfl

theorem bind_ret (p : Attempt Q A σ ε α) : p.bind ret = p := by
  refine (congrArg (Step.bind p) (funext fun r => ?_)).trans (Step.bind_ret p)
  cases r with
  | ok a => rfl
  | error e => rfl

theorem bind_assoc (p : Attempt Q A σ ε α) (f : α → Attempt Q A σ ε β)
    (g : β → Attempt Q A σ ε γ) : (p.bind f).bind g = p.bind fun a => (f a).bind g := by
  refine (Step.bind_assoc p _ _).trans (congrArg (Step.bind p) (funext fun r => ?_))
  cases r with
  | ok a => rfl
  | error e => rfl

/-- The attempt has no request that is seen, and returns only as `post` says. -/
def Hidden (sees : Q → Bool) (post : α → Prop) (p : Attempt Q A σ ε α) : Prop :=
  Step.Hidden sees (fun r => ∀ a, r = .ok a → post a) p

variable {post : α → Prop}

theorem Hidden.ret {a : α} (h : post a) : Hidden sees post (ret a : Attempt Q A σ ε α) := by
  refine Step.Hidden.ret ?_
  rintro _ ⟨⟩
  exact h

theorem Hidden.throw {e : ε} : Hidden sees post (throw e : Attempt Q A σ ε α) :=
  Step.Hidden.ret nofun

theorem Hidden.ask {q : Q} {result : A q → Except ε α} (hq : sees q = false)
    (h : ∀ reply a, result reply = .ok a → post a) :
    Hidden sees post (ask q result : Attempt Q A σ ε α) := by
  have hrequest : Step.Hidden sees (fun _ => True) (Step.request q : Step Q A σ (A q)) :=
    Step.Rule.request _ (fun _ _ _ => hq) fun _ _ _ _ _ => trivial
  exact Step.Hidden.bind hrequest fun reply _ => Step.Hidden.ret (h reply)

theorem Hidden.modify {f : σ → σ} {post : Unit → Prop} (h : post ()) :
    Hidden sees post (modify f : Attempt Q A σ ε Unit) :=
  fun _ _ _ _ _ => h

theorem Hidden.bind {p : Attempt Q A σ ε α} {f : α → Attempt Q A σ ε β} {post' : β → Prop}
    (hp : Hidden sees post p) (hf : ∀ a, post a → Hidden sees post' (f a)) :
    Hidden sees post' (p.bind f) := by
  refine Step.Hidden.bind hp fun r hr => ?_
  cases r with
  | ok a => exact hf a (hr a rfl)
  | error e => exact Hidden.throw

theorem Hidden.read {f : σ → Attempt Q A σ ε α} (h : ∀ s, Hidden sees post (f s)) :
    Hidden sees post (read f) :=
  Step.Hidden.read h

theorem Hidden.seq {p : Attempt Q A σ ε α} {f : α → Attempt Q A σ ε β} {post : β → Prop}
    (hp : Hidden sees (fun _ => True) p) (hf : ∀ a, Hidden sees post (f a)) :
    Hidden sees post (p.bind f) :=
  hp.bind fun a _ => hf a

theorem Hidden.handle {p : Attempt Q A σ ε α} {h : ε → Attempt Q A σ ε α}
    (hp : Hidden sees post p) (hh : ∀ e, Hidden sees post (h e)) :
    Hidden sees post (p.handle h) := by
  refine Step.Hidden.bind hp fun r hr => ?_
  cases r with
  | ok a => exact Hidden.ret (hr a rfl)
  | error e => exact hh e

theorem Hidden.triple {p : Attempt Q A σ ε α} {holds : Log Q A → Prop} (h : Hidden sees post p)
    (hkeeps : ∀ log x, holds log → sees x.1 = false → holds (log ++ [x])) :
    Triple (fun _ _ => True) (fun log _ => holds log) p (fun log a _ => holds log ∧ post a)
      fun log _ _ => holds log := by
  refine Step.Rule.mono (Step.Hidden.frame h hkeeps) (fun _ _ h => h) fun log r _ hr => ?_
  cases r with
  | ok a => exact ⟨hr.1, hr.2 a rfl⟩
  | error e => exact hr.1

/-- What is looked at of a result; an exception is nothing to go on with. -/
def viewed (view : α → Option γ) (r : Except ε α) : Option γ := r.toOption.bind view

def Agrees (sees : Q → Bool) (answer : (q : Q) → τ → A q × τ) (view : α → Option γ)
    (view' : β → Option γ) (p : Attempt Q A σ ε α) (q : Attempt Q A σ ε β) : Prop :=
  Step.Agrees sees answer (viewed view) (viewed view') p q

variable {answer : (q : Q) → τ → A q × τ} {view : α → Option γ} {view' : β → Option γ}

theorem Hidden.viewed {p : Attempt Q A σ ε α} (h : Hidden sees (view · = none) p) :
    Step.Hidden sees (viewed view · = none) p := by
  refine Step.Hidden.mono h fun r hr => ?_
  cases r with
  | ok a => exact hr a rfl
  | error e => rfl

theorem Agrees.bind {α' β' : Type} {view₁ : α' → Option δ} {view₁' : β' → Option δ}
    {p : Attempt Q A σ ε α} {q : Attempt Q A σ ε β} {f : α → Attempt Q A σ ε α'}
    {g : β → Attempt Q A σ ε β'} (h : Agrees sees answer view view' p q)
    (hf : ∀ a b c, view a = some c → view' b = some c →
      Agrees sees answer view₁ view₁' (f a) (g b))
    (hnone : ∀ a, view a = none → Hidden sees (view₁ · = none) (f a))
    (hnone' : ∀ b, view' b = none → Hidden sees (view₁' · = none) (g b)) :
    Agrees sees answer view₁ view₁' (p.bind f) (q.bind g) := by
  refine Step.Agrees.bind h (fun r r' heq hsome => ?_) (fun r hr => ?_) (fun r hr => ?_)
  · obtain ⟨c, hc⟩ := Option.isSome_iff_exists.mp hsome
    rw [hc] at heq
    cases r with
    | error e => cases hc
    | ok a =>
      cases r' with
      | error e => cases heq
      | ok b => exact hf a b c hc heq.symm
  · cases r with
    | error e => exact Hidden.throw.viewed
    | ok a => exact (hnone a hr).viewed
  · cases r with
    | error e => exact Hidden.throw.viewed
    | ok b => exact (hnone' b hr).viewed

/-- Two attempts with the same values. -/
theorem Agrees.step {α' β' : Type} {view₁ : α' → Option δ} {view₁' : β' → Option δ}
    {p q : Attempt Q A σ ε α} {f : α → Attempt Q A σ ε α'} {g : α → Attempt Q A σ ε β'}
    (h : Agrees sees answer some some p q) (hf : ∀ a, Agrees sees answer view₁ view₁' (f a) (g a)) :
    Agrees sees answer view₁ view₁' (p.bind f) (q.bind g) := by
  refine Agrees.bind h (fun a b c ha hb => ?_) nofun nofun
  obtain rfl := Option.some.inj ha
  obtain rfl := Option.some.inj hb
  exact hf _

theorem Agrees.refl (p : Attempt Q A σ ε α) : Agrees sees answer view view p p :=
  Step.Agrees.refl p

/-- The handler only cleans up. -/
theorem Agrees.handle {p : Attempt Q A σ ε α} {q : Attempt Q A σ ε β} {h : ε → Attempt Q A σ ε α}
    (hp : Agrees sees answer view view' p q) (hh : ∀ e, Hidden sees (view · = none) (h e)) :
    Agrees sees answer view view' (p.handle h) q := by
  rw [← Step.bind_ret q]
  refine Step.Agrees.bind hp (fun r r' heq hsome => ?_) (fun r hr => ?_) fun r hr =>
    Step.Hidden.ret hr
  · cases r with
    | error e => cases hsome
    | ok a =>
      intro s t
      exact ⟨rfl, heq, fun _ => ⟨rfl, rfl⟩⟩
  · cases r with
    | error e => exact (hh e).viewed
    | ok a => exact Step.Hidden.ret hr

theorem Agrees.skip {a : α} {p : Attempt Q A σ ε α} {f : α → Attempt Q A σ ε β}
    {q : Attempt Q A σ ε γ} {view : β → Option δ} {view' : γ → Option δ}
    (hp : Step.Silent sees answer (.ok a) p) (h : Agrees sees answer view view' (f a) q) :
    Agrees sees answer view view' (p.bind f) q :=
  Step.Agrees.skip hp h

section Bind

variable {p : Attempt Q A σ ε α} {f : α → Attempt Q A σ ε β} {s : σ} {t : τ}

theorem traceFrom_bind_ok {a : α} (h : ((p s).run answer t).1.1 = .ok a) :
    ((p.bind f s).traceFrom answer t).1 = ((p s).traceFrom answer t).1 ++
      ((f a ((p s).run answer t).1.2).traceFrom answer ((p s).run answer t).2).1 := by
  simp only [bind, Step.bind, Prog.traceFrom_bind, h]

theorem traceFrom_bind_error {e : ε} (h : ((p s).run answer t).1.1 = .error e) :
    ((p.bind f s).traceFrom answer t).1 = ((p s).traceFrom answer t).1 := by
  simp only [bind, Step.bind, Prog.traceFrom_bind, h]
  exact List.append_nil _

theorem run_bind_ok {a : α} (h : ((p s).run answer t).1.1 = .ok a) :
    (p.bind f s).run answer t =
      (f a ((p s).run answer t).1.2).run answer ((p s).run answer t).2 := by
  simp only [bind, Step.bind, Prog.run_bind, h]

end Bind

/-- What a triple says of the run on a server. -/
theorem Triple.of_server {pre : Log Q A → σ → Prop} {ok : Log Q A → α → σ → Prop}
    {err : Log Q A → ε → σ → Prop} {p : Attempt Q A σ ε α}
    (h : Triple (fun _ _ => True) pre p ok err) {s : σ} (hpre : pre [] s)
    (answer : (q : Q) → τ → A q × τ) (t : τ) :
    (∀ a, ((p s).run answer t).1.1 = .ok a →
      ok ((p s).traceFrom answer t).1 a ((p s).run answer t).1.2) ∧
    ∀ e, ((p s).run answer t).1.1 = .error e →
      err ((p s).traceFrom answer t).1 e ((p s).run answer t).1.2 := by
  have hruns := Prog.runs_traceFrom answer (p s) t
  rw [Prog.traceFrom_snd] at hruns
  exact h.of_runs hruns (fun _ _ => trivial) hpre

theorem hidden_cleanup {cleanup : Attempt Q A σ ε Unit} (h : Hidden sees (fun _ => True) cleanup)
    (r : Except ε α) : Step.Hidden sees (fun _ => True) (Step.bind cleanup fun
      | .ok () => Step.ret r
      | .error e => throw e) := by
  refine Step.Hidden.bind h fun r' _ => ?_
  cases r' with
  | ok u => exact Step.Hidden.ret trivial
  | error e => exact Step.Hidden.ret trivial

/-- A clean-up that is hidden leaves what is seen. -/
theorem seen_ensure {p : Attempt Q A σ ε α} {cleanup : Attempt Q A σ ε Unit}
    (h : Hidden sees (fun _ => True) cleanup) (s : σ) (t : τ) :
    Step.seen sees ((p.ensure cleanup s).traceFrom answer t).1 =
      Step.seen sees ((p s).traceFrom answer t).1 := by
  have hrest := (hidden_cleanup h ((p s).run answer t).1.1).seen_eq answer ((p s).run answer t).1.2
    ((p s).run answer t).2
  simp only [ensure, Step.bind, Prog.traceFrom_bind, Step.seen, List.filter_append] at hrest ⊢
  exact (congrArg (_ ++ ·) hrest).trans (List.append_nil _)

theorem ok_of_ensure {p : Attempt Q A σ ε α} {cleanup : Attempt Q A σ ε Unit} {s : σ} {t : τ} {a : α}
    (h : ((p.ensure cleanup s).run answer t).1.1 = .ok a) : ((p s).run answer t).1.1 = .ok a := by
  simp only [ensure, Step.bind, Prog.run_bind] at h
  generalize ((cleanup ((p s).run answer t).1.2).run answer ((p s).run answer t).2) = r at h
  obtain ⟨⟨e | u, _⟩, _⟩ := r
  · cases h
  · exact h

end Attempt

end Requests
