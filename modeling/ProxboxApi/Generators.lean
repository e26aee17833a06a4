import ProxboxApi.Attempts

/-! Generators: programs that yield values to a consumer, keep a state and may raise.  A consumer
that reads a generator to its end meets one run, which the rules below build from its parts. -/

namespace Requests

/-- A generator of values `φ`; the consumer answers each by asking for the next. -/
abbrev Generator (φ σ ε α : Type) := Attempt φ (fun _ => Unit) σ ε α

namespace Generator

variable {φ σ ε α β : Type}

def yield (f : φ) : Generator φ σ ε Unit := Attempt.ask f fun _ => .ok ()

/-- Read to its end from a state, the generator yields these values and ends so. -/
def Yields (p : Generator φ σ ε α) (s : σ) (values : List φ) (r : Except ε α) (s' : σ) : Prop :=
  Prog.Runs (p s) (values.map fun f => ⟨f, ()⟩) (r, s')

theorem runs_append {Q : Type} {A : Q → Type} {p : Prog Q A α} {f : α → Prog Q A β}
    {first rest : List (Prog.Exchange Q A)} {a : α} {b : β} (hp : Prog.Runs p first a)
    (hf : Prog.Runs (f a) rest b) : Prog.Runs (p.bind f) (first ++ rest) b := by
  induction hp with
  | ret a => exact hf
  | ask reply _ ih => exact .ask reply (ih hf)

theorem runs_unique {p : Prog φ (fun _ => Unit) α} {log log' : List (Prog.Exchange φ fun _ => Unit)}
    {a b : α} (h : Prog.Runs p log a) (h' : Prog.Runs p log' b) : log = log' ∧ a = b := by
  induction h generalizing log' with
  | ret a =>
    cases h'
    exact ⟨rfl, rfl⟩
  | ask reply _ ih =>
    cases h' with
    | ask reply' h' =>
      obtain ⟨hlog, ha⟩ := ih h'
      exact ⟨by rw [hlog], ha⟩

namespace Yields

variable {p : Generator φ σ ε α} {f : α → Generator φ σ ε β} {s s' s'' : σ} {a : α} {e : ε}
  {values values' : List φ}

/-- A generator has one run. -/
theorem unique {r r' : Except ε α} (h : Yields p s values r s') (h' : Yields p s values' r' s'') :
    values = values' ∧ r = r' ∧ s' = s'' := by
  obtain ⟨hlog, hend⟩ := runs_unique h h'
  obtain ⟨hr, hs⟩ := Prod.mk.inj hend
  refine ⟨?_, hr, hs⟩
  have hfst := congrArg (List.map Sigma.fst) hlog
  simpa [List.map_map, Function.comp_def] using hfst

theorem ret : Yields (Attempt.ret a : Generator φ σ ε α) s [] (.ok a) s := Prog.Runs.ret _

theorem throw : Yields (Attempt.throw e : Generator φ σ ε α) s [] (.error e) s := Prog.Runs.ret _

theorem modify {g : σ → σ} : Yields (Attempt.modify g : Generator φ σ ε Unit) s [] (.ok ()) (g s) :=
  Prog.Runs.ret _

theorem yield {v : φ} : Yields (yield v : Generator φ σ ε Unit) s [v] (.ok ()) s :=
  Prog.Runs.ask (A := fun _ => Unit) () (Prog.Runs.ret _)

theorem read {g : σ → Generator φ σ ε α} {r : Except ε α} (h : Yields (g s) s values r s') :
    Yields (Attempt.read g) s values r s' := h

theorem bind {r : Except ε β} (hp : Yields p s values (.ok a) s')
    (hf : Yields (f a) s' values' r s'') :
    Yields (Attempt.bind p f) s (values ++ values') r s'' := by
  unfold Yields
  rw [List.map_append]
  exact runs_append hp hf

/-- What follows an exception is not run. -/
theorem bind_error (hp : Yields p s values (.error e) s') :
    Yields (Attempt.bind p f) s values (.error e) s' := by
  unfold Yields
  rw [← List.append_nil values, List.map_append]
  have hend : Yields (Attempt.throw e : Generator φ σ ε β) s' [] (.error e) s' := throw
  exact runs_append hp hend

variable {h : ε → Generator φ σ ε α} {cleanup : Generator φ σ ε Unit}

theorem handle (hp : Yields p s values (.ok a) s') :
    Yields (Attempt.handle p h) s values (.ok a) s' := by
  unfold Yields
  rw [← List.append_nil values, List.map_append]
  have hend : Yields (Attempt.ret a : Generator φ σ ε α) s' [] (.ok a) s' := ret
  exact runs_append hp hend

theorem handle_error {r : Except ε α} (hp : Yields p s values (.error e) s')
    (hh : Yields (h e) s' values' r s'') :
    Yields (Attempt.handle p h) s (values ++ values') r s'' := by
  unfold Yields
  rw [List.map_append]
  exact runs_append hp hh

theorem ensure {r : Except ε α} (hp : Yields p s values r s')
    (hc : Yields cleanup s' values' (.ok ()) s'') :
    Yields (Attempt.ensure p cleanup) s (values ++ values') r s'' := by
  unfold Yields
  rw [← List.append_nil values', List.map_append, List.map_append]
  have hend : Yields (Step.ret r : Generator φ σ ε α) s'' [] r s'' := Prog.Runs.ret _
  exact runs_append hp (runs_append hc hend)

end Yields

end Generator

end Requests
