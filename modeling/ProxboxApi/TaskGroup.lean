import Mathlib
import ProxboxApi.Requests
import ProxboxApi.Runs

/-! Groups of programs that run concurrently under a semaphore, each of which writes what it comes
to into one store. -/

namespace Requests

variable {Q : Type} {A : Q → Type} {ω σ : Type}

namespace Prog

/-- What is left of a program after some exchanges. -/
inductive Reaches : Prog Q A ω → List (Exchange Q A) → Prog Q A ω → Prop where
  | refl (p : Prog Q A ω) : Reaches p [] p
  | step {p : Prog Q A ω} {log : List (Exchange Q A)} {q : Q} {next : A q → Prog Q A ω}
      (h : Reaches p log (ask q next)) (reply : A q) : Reaches p (log ++ [⟨q, reply⟩]) (next reply)

/-- Every run has at most `n` requests. -/
def Within : ℕ → Prog Q A ω → Prop
  | _, ret _ => True
  | 0, ask _ _ => False
  | n + 1, ask _ next => ∀ reply, Within n (next reply)

theorem Reaches.runs {p rest : Prog Q A ω} {log log' : List (Exchange Q A)} {a : ω}
    (h : Reaches p log rest) (hrest : Runs rest log' a) : Runs p (log ++ log') a := by
  induction h generalizing log' with
  | refl => exact hrest
  | step h reply ih =>
    rw [List.append_assoc, List.singleton_append]
    exact ih (.ask reply hrest)

theorem Reaches.within {p rest : Prog Q A ω} {log : List (Exchange Q A)} {n : ℕ}
    (h : Reaches p log rest) (hp : Within n p) :
    log.length ≤ n ∧ Within (n - log.length) rest := by
  induction h with
  | refl => exact ⟨Nat.zero_le n, hp⟩
  | @step log q next h reply ih =>
    obtain ⟨hle, hwithin⟩ := ih
    rw [List.length_append, List.length_singleton]
    cases hleft : n - log.length with
    | zero =>
      rw [hleft] at hwithin
      exact hwithin.elim
    | succ m =>
      rw [hleft] at hwithin
      have hm : n - (log.length + 1) = m := by omega
      exact ⟨by omega, hm ▸ hwithin reply⟩

/-- A run is decided by its replies. -/
theorem Runs.unique {p : Prog Q A ω} {log : List (Exchange Q A)} {a b : ω} (ha : Runs p log a)
    (hb : Runs p log b) : a = b := by
  induction ha with
  | ret a =>
    cases hb
    rfl
  | ask reply h ih =>
    cases hb with
    | ask _ hb => exact ih hb

end Prog

/-- A task of a group: it waits for a permit, runs, and is done. -/
inductive GroupTask (Q : Type) (A : Q → Type) (ω : Type) where
  | waiting (p : Prog Q A ω)
  | running (log : List (Prog.Exchange Q A)) (q : Q) (next : A q → Prog Q A ω)
  | done (log : List (Prog.Exchange Q A)) (a : ω)

namespace GroupTask

def isRunning : GroupTask Q A ω → Bool
  | running .. => true
  | _ => false

def isDone : GroupTask Q A ω → Bool
  | done .. => true
  | _ => false

/-- What a task came to, if it is done. -/
def outcome : GroupTask Q A ω → Option ω
  | done _ a => some a
  | _ => none

/-- A task that runs a program. -/
def Of (p : Prog Q A ω) : GroupTask Q A ω → Prop
  | waiting p' => p' = p
  | running log q next => p.Reaches log (.ask q next)
  | done log a => p.Reaches log (.ret a)

/-- The events that a task has taken. -/
def cost : GroupTask Q A ω → ℕ
  | waiting _ => 0
  | running log _ _ => log.length + 1
  | done log _ => log.length + 1

theorem Of.cost_le {p : Prog Q A ω} {t : GroupTask Q A ω} {n : ℕ} (h : t.Of p) (hp : p.Within n) :
    t.cost ≤ n + 1 := by
  cases t with
  | waiting p' => exact Nat.zero_le _
  | running log q next => exact Nat.succ_le_succ (Prog.Reaches.within h hp).1
  | done log a => exact Nat.succ_le_succ (Prog.Reaches.within h hp).1

theorem Of.runs {p : Prog Q A ω} {log : List (Prog.Exchange Q A)} {a : ω}
    (h : (done log a : GroupTask Q A ω).Of p) : p.Runs log a := by
  have hruns := Prog.Reaches.runs h (.ret a)
  rwa [List.append_nil] at hruns

end GroupTask

structure TaskGroup (Q : Type) (A : Q → Type) (ω σ : Type) where
  tasks : List (GroupTask Q A ω)
  store : σ

namespace TaskGroup

/-- A task gets a permit and goes on to its first request, or its request is answered and it goes on
to the next one. -/
inductive Event (Q : Type) (A : Q → Type) where
  | acquire (i : ℕ)
  | reply (i : ℕ) (answers : (q : Q) → A q)

variable (permits : ℕ) (finish : ℕ → ω → σ → σ)

/-- A task goes on to its next request, or is done and writes what it came to. -/
def settle (g : TaskGroup Q A ω σ) (i : ℕ) (log : List (Prog.Exchange Q A)) :
    Prog Q A ω → TaskGroup Q A ω σ
  | .ret a => ⟨g.tasks.set i (.done log a), finish i a g.store⟩
  | .ask q next => ⟨g.tasks.set i (.running log q next), g.store⟩

def step (g : TaskGroup Q A ω σ) : Event Q A → Option (TaskGroup Q A ω σ)
  | .acquire i => match g.tasks[i]? with
    | some (.waiting p) =>
      if g.tasks.countP GroupTask.isRunning < permits then some (settle finish g i [] p) else none
    | _ => none
  | .reply i answers => match g.tasks[i]? with
    | some (.running log q next) =>
      some (settle finish g i (log ++ [⟨q, answers q⟩]) (next (answers q)))
    | _ => none

def start (progs : List (Prog Q A ω)) (store : σ) : TaskGroup Q A ω σ :=
  ⟨progs.map .waiting, store⟩

/-- Every task is done. -/
def Complete (g : TaskGroup Q A ω σ) : Prop := ∀ t ∈ g.tasks, t.isDone = true

variable {permits finish} {g g' : TaskGroup Q A ω σ} {e : Event Q A}

/-- What an event does: one task that is not done goes on. -/
theorem step_cases (h : step permits finish g e = some g') :
    ∃ (i : ℕ) (t : GroupTask Q A ω) (log : List (Prog.Exchange Q A)) (rest : Prog Q A ω),
    g.tasks[i]? = some t ∧ t.isDone = false ∧ g' = settle finish g i log rest ∧
      log.length = t.cost ∧ ∀ p : Prog Q A ω, t.Of p → p.Reaches log rest := by
  cases e with
  | acquire i =>
    rw [step] at h
    split at h
    · rename_i p hi
      split at h
      · cases h
        refine ⟨i, _, [], p, hi, rfl, rfl, rfl, ?_⟩
        rintro p' rfl
        exact .refl p
      · cases h
    · cases h
  | reply i answers =>
    rw [step] at h
    split at h
    · rename_i log q next hi
      cases h
      refine ⟨i, _, _, _, hi, rfl, rfl, ?_, fun p hp => .step hp (answers q)⟩
      rw [List.length_append]
      rfl
    · cases h

/-- The task that went on. -/
theorem settle_task (finish : ℕ → ω → σ → σ) (g : TaskGroup Q A ω σ) (i : ℕ) (log : List (Prog.Exchange Q A))
    (rest : Prog Q A ω) : ∃ t : GroupTask Q A ω,
      (settle finish g i log rest).tasks = g.tasks.set i t ∧ t.cost = log.length + 1 ∧
      (∀ p : Prog Q A ω, p.Reaches log rest → t.Of p) ∧
      (settle finish g i log rest).store = match t.outcome with
        | some a => finish i a g.store
        | none => g.store := by
  cases rest with
  | ret a => exact ⟨.done log a, rfl, rfl, fun p hp => hp, rfl⟩
  | ask q next => exact ⟨.running log q next, rfl, rfl, fun p hp => hp, rfl⟩

/-- The tasks are those of the programs. -/
def Running (progs : List (Prog Q A ω)) (g : TaskGroup Q A ω σ) : Prop :=
  g.tasks.length = progs.length ∧
    ∀ (i : ℕ) (t : GroupTask Q A ω), g.tasks[i]? = some t → ∃ p, progs[i]? = some p ∧ t.Of p

theorem Running.step {progs : List (Prog Q A ω)} (hg : Running progs g)
    (h : step permits finish g e = some g') : Running progs g' := by
  obtain ⟨i, t, log, rest, hi, -, rfl, -, hreaches⟩ := step_cases h
  obtain ⟨t', htasks, -, hof, -⟩ := settle_task finish g i log rest
  refine ⟨by rw [htasks, List.length_set, hg.1], ?_⟩
  intro j u hu
  rw [htasks] at hu
  rcases Runs.party_set hu with ⟨rfl, rfl⟩ | ⟨hne, hu⟩
  · obtain ⟨p, hp, ht⟩ := hg.2 _ t hi
    exact ⟨p, hp, hof p (hreaches p ht)⟩
  · exact hg.2 j u hu

theorem sum_le {l : List ℕ} {k : ℕ} (h : ∀ c ∈ l, c ≤ k) : l.sum ≤ k * l.length := by
  induction l with
  | nil => exact Nat.zero_le _
  | cons c l ih =>
    rw [List.forall_mem_cons] at h
    have hrest := ih h.2
    have hhead := h.1
    rw [List.sum_cons, List.length_cons, Nat.mul_succ]
    omega

/-- What holds after a run of a group. -/
structure Outcome (progs : List (Prog Q A ω)) (P : ℕ → Option ω → σ → Prop)
    (events : List (Event Q A)) (g : TaskGroup Q A ω σ) : Prop where
  running : Running progs g
  stored : ∀ (i : ℕ) (t : GroupTask Q A ω), g.tasks[i]? = some t → P i t.outcome g.store
  cost : (g.tasks.map GroupTask.cost).sum = events.length

/-- A group of programs with at most `n` requests each takes at most `n + 1` events a task. -/
theorem Outcome.length_le {progs : List (Prog Q A ω)} {P : ℕ → Option ω → σ → Prop}
    {events : List (Event Q A)} {n : ℕ} (h : Outcome progs P events g)
    (hwithin : ∀ p ∈ progs, p.Within n) : events.length ≤ (n + 1) * progs.length := by
  obtain ⟨hlength, htasks⟩ := h.running
  have hle : ∀ c ∈ g.tasks.map GroupTask.cost, c ≤ n + 1 := by
    intro c hc
    obtain ⟨t, ht, rfl⟩ := List.mem_map.mp hc
    obtain ⟨i, hi⟩ := List.mem_iff_getElem?.mp ht
    obtain ⟨p, hp, hof⟩ := htasks i t hi
    exact hof.cost_le (hwithin p (List.mem_of_getElem? hp))
  have hsum := sum_le hle
  rw [h.cost, List.length_map, hlength] at hsum
  exact hsum

end TaskGroup

end Requests
