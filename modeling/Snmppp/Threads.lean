import Snmppp.Run
import Mathlib.Logic.Function.Basic
import Mathlib.Logic.Relation
/-!
# Threads — programs that take one lock, and programs that take none

Threads share a state and have a part of their own each.  Some operations run under a lock, call by call, while other
threads go on with what takes no lock (`Threads.Step`).  When no call made under the lock can be told from one made
after what another thread does without it (`Run.Commutes`), every run of the threads is the run of its operations one
after the other, in the order they ended (`Threads.serial`).
-/

/-- A program as the calls it makes, one at a time; a call that stops it is its last. -/
inductive Steps (σ ε α : Type) : Type 1 where
  | done (r : Except (Stop ε) α)
  | call {β : Type} (m : Run σ ε β) (next : β → Steps σ ε α)

namespace Steps

variable {σ ε α β : Type}

/-- What is left to do after a call. -/
def after (next : β → Steps σ ε α) : Except (Stop ε) β → Steps σ ε α
  | .ok b    => next b
  | .error e => done (.error e)

/-- All of its calls in turn. -/
def run : Steps σ ε α → Run σ ε α
  | done r      => Run.result r
  | call m next => m >>= fun b => (next b).run

/-- Every call is one of `P`. -/
def All (P : ∀ {β : Type}, Run σ ε β → Prop) : Steps σ ε α → Prop
  | done _      => True
  | call m next => P m ∧ ∀ b, (next b).All P

theorem All.after {P : ∀ {β : Type}, Run σ ε β → Prop} {m : Run σ ε β} {next : β → Steps σ ε α}
    (h : (call m next).All P) (r : Except (Stop ε) β) : (Steps.after next r).All P := by
  cases r with
  | ok b => exact h.2 b
  | error e => trivial

end Steps

namespace Run

variable {ι σ τ ε α β : Type} [DecidableEq ι]

/-- What thread `i` does. -/
def thread (i : ι) (m : Run (σ × τ) ε α) : Run (σ × (ι → τ)) ε α := fun s =>
  let r := m (s.1, s.2 i)
  (r.1, (r.2.1, Function.update s.2 i r.2.2))

/-- **Either order is the same**: each ends as it ends when it goes first, and they leave the same. -/
structure Commutes (m : Run σ ε α) (n : Run σ ε β) (s : σ) : Prop where
  left  : (m (n s).2).1 = (m s).1
  right : (n (m s).2).1 = (n s).1
  state : (n (m s).2).2 = (m (n s).2).2

theorem thread_bind (i : ι) (m : Run (σ × τ) ε α) (f : α → Run (σ × τ) ε β) :
    thread i (m >>= f) = (thread i m >>= fun a => thread i (f a)) := by
  funext s
  rcases hm : m (s.1, s.2 i) with ⟨e | a, t⟩
  · have hi : thread i m s = (.error e, (t.1, Function.update s.2 i t.2)) := by simp only [thread, hm]
    rw [bind_error hi]
    simp only [thread, bind_error hm]
  · have hi : thread i m s = (.ok a, (t.1, Function.update s.2 i t.2)) := by simp only [thread, hm]
    rw [bind_ok hi]
    simp only [thread, bind_ok hm, Function.update_self, Function.update_idem]

theorem thread_result (i : ι) (r : Except (Stop ε) α) (s : σ × (ι → τ)) :
    thread i (Run.result r) s = (r, s) := by
  simp only [thread, result_apply, Function.update_eq_self]

end Run

/-- Threads at some moment: their state, the thread that has the lock with its operation and what is left of it, and the
operations that have ended, with their ends. -/
structure Threads (ι κ σ τ ε α : Type) : Type 1 where
  state  : σ × (ι → τ)
  inside : Option (ι × κ × Steps (σ × τ) ε α)
  log    : List (ι × κ × Except (Stop ε) α)

namespace Threads

variable {ι κ σ τ ε α : Type} [DecidableEq ι]

/-- Before anything was done. -/
def start (s : σ × (ι → τ)) : Threads ι κ σ τ ε α := ⟨s, none, []⟩

variable (prog : κ → Steps (σ × τ) ε α) (locks : κ → Prop)

/-- **One step of one thread**: it takes the lock, makes a call under it, gives it back, or does what takes no lock. -/
inductive Step : Threads ι κ σ τ ε α → Threads ι κ σ τ ε α → Prop where
  | enter {s log} (i : ι) (k : κ) (hk : locks k) : Step ⟨s, none, log⟩ ⟨s, some (i, k, prog k), log⟩
  | call {s log i k} {β : Type} {m : Run (σ × τ) ε β} {next : β → Steps (σ × τ) ε α} :
    Step ⟨s, some (i, k, .call m next), log⟩
      ⟨(m.thread i s).2, some (i, k, Steps.after next (m.thread i s).1), log⟩
  | leave {s log i k r} : Step ⟨s, some (i, k, .done r), log⟩ ⟨s, none, log ++ [(i, k, r)]⟩
  | alone {s inside log} (i : ι) (k : κ) (hk : ¬ locks k) (hi : ∀ k' p, inside ≠ some (i, k', p)) :
    Step ⟨s, inside, log⟩
      ⟨((prog k).run.thread i s).2, inside, log ++ [(i, k, ((prog k).run.thread i s).1)]⟩

/-- The operations of a log, one after the other. -/
def inTurn (log : List (ι × κ × Except (Stop ε) α)) (s : σ × (ι → τ)) :
    List (Except (Stop ε) α) × (σ × (ι → τ)) :=
  Run.trace (log.map (fun e => (prog e.2.1).run.thread e.1)) s

theorem inTurn_append (log : List (ι × κ × Except (Stop ε) α)) (e : ι × κ × Except (Stop ε) α) (s : σ × (ι → τ)) :
    inTurn prog (log ++ [e]) s
      = ((inTurn prog log s).1 ++ [((prog e.2.1).run.thread e.1 (inTurn prog log s).2).1],
        ((prog e.2.1).run.thread e.1 (inTurn prog log s).2).2) := by
  unfold inTurn
  induction log generalizing s with
  | nil => rfl
  | cons e' log ih => rw [List.cons_append, List.map_cons, List.map_cons, Run.trace_cons, Run.trace_cons, ih]; rfl

/-- Thread `i` on its way through `p` from `s` has `q` left at `t`. -/
inductive OnItsWay (i : ι) (p : Steps (σ × τ) ε α) (s : σ × (ι → τ)) :
    Steps (σ × τ) ε α → σ × (ι → τ) → Prop where
  | begin : OnItsWay i p s p s
  | call {t} {β : Type} {m : Run (σ × τ) ε β} {next : β → Steps (σ × τ) ε α} (h : OnItsWay i p s (.call m next) t) :
    OnItsWay i p s (Steps.after next (m.thread i t).1) (m.thread i t).2

/-- **What is left leads where the whole leads.** -/
theorem OnItsWay.run_eq {i : ι} {p q : Steps (σ × τ) ε α} {s t : σ × (ι → τ)} (h : OnItsWay i p s q t) :
    q.run.thread i t = p.run.thread i s := by
  induction h with
  | begin => rfl
  | call h ih =>
    rename_i t β m next
    rw [← ih, Steps.run, Run.thread_bind]
    rcases hm : m.thread i t with ⟨e | b, t'⟩
    · rw [Run.bind_error hm]
      exact Run.thread_result i _ t'
    · rw [Run.bind_ok hm]
      rfl

section
variable {I : σ × (ι → τ) → Prop}

/-- A call of thread `i` that keeps `I` and can be swapped with what any other thread does without the lock. -/
def Swaps (I : σ × (ι → τ) → Prop) {β : Type} (m : Run (σ × τ) ε β) : Prop :=
  ∀ i s, I s → I (m.thread i s).2 ∧
    ∀ j, j ≠ i → ∀ k, ¬ locks k → Run.Commutes (m.thread i) ((prog k).run.thread j) s

theorem OnItsWay.keeps {i : ι} {p q : Steps (σ × τ) ε α} {s t : σ × (ι → τ)} (h : OnItsWay i p s q t)
    (hp : p.All (Swaps prog locks I)) (hs : I s) : q.All (Swaps prog locks I) ∧ I t := by
  induction h with
  | begin => exact ⟨hp, hs⟩
  | call h ih =>
    obtain ⟨hall, ht⟩ := ih
    exact ⟨hall.after _, (hall.1 i _ ht).1⟩

/-- **What another thread does without the lock may as well have been done before.** -/
theorem OnItsWay.swap {i j : ι} {k : κ} {p q : Steps (σ × τ) ε α} {s t : σ × (ι → τ)} (h : OnItsWay i p s q t)
    (hp : p.All (Swaps prog locks I)) (hs : I s) (hj : j ≠ i) (hk : ¬ locks k) :
    ((prog k).run.thread j t).1 = ((prog k).run.thread j s).1 ∧
      OnItsWay i p ((prog k).run.thread j s).2 q ((prog k).run.thread j t).2 := by
  induction h with
  | begin => exact ⟨rfl, .begin⟩
  | call h ih =>
    obtain ⟨hall, ht⟩ := h.keeps prog locks hp hs
    obtain ⟨hend, hway⟩ := ih
    have hc := (hall.1 i _ ht).2 j hj k hk
    refine ⟨hc.right.trans hend, ?_⟩
    have hnext := hway.call
    rw [hc.left, ← hc.state] at hnext
    exact hnext

/-- **Threads and the serial run**: the log in its order ends as it ended and leaves a state from which the thread that
has the lock, if any, has come to where it is. -/
def Serial (I : σ × (ι → τ) → Prop) (s₀ : σ × (ι → τ)) (c : Threads ι κ σ τ ε α) : Prop :=
  (inTurn prog c.log s₀).1 = c.log.map (·.2.2) ∧ I (inTurn prog c.log s₀).2 ∧
    match c.inside with
    | none           => c.state = (inTurn prog c.log s₀).2
    | some (i, k, p) => locks k ∧ OnItsWay i (prog k) (inTurn prog c.log s₀).2 p c.state

variable {prog locks} {s₀ : σ × (ι → τ)} {c c' : Threads ι κ σ τ ε α}

/-- An operation that is done in one go, after the log. -/
theorem Serial.append {log : List (ι × κ × Except (Stop ε) α)} {i : ι} {k : κ} {r : Except (Stop ε) α}
    {s : σ × (ι → τ)} (hends : (inTurn prog log s₀).1 = log.map (·.2.2))
    (hrun : (prog k).run.thread i (inTurn prog log s₀).2 = (r, s)) :
    (inTurn prog (log ++ [(i, k, r)]) s₀).1 = (log ++ [(i, k, r)]).map (·.2.2) ∧
      (inTurn prog (log ++ [(i, k, r)]) s₀).2 = s := by
  rw [inTurn_append]
  simp only [hrun, hends, List.map_append, List.map_cons, List.map_nil, and_self]

/-- **Every step keeps it.** -/
theorem Serial.step (hlocked : ∀ k, locks k → (prog k).All (Swaps prog locks I))
    (halone : ∀ k, ¬ locks k → ∀ i s, I s → I ((prog k).run.thread i s).2)
    (h : Serial prog locks I s₀ c) (hstep : Step prog locks c c') : Serial prog locks I s₀ c' := by
  obtain ⟨hends, hI, hplace⟩ := h
  cases hstep with
  | enter i k hk =>
    refine ⟨hends, hI, hk, ?_⟩
    have hs : _ = (inTurn prog _ s₀).2 := hplace
    rw [← hs]
    exact .begin
  | call =>
    obtain ⟨hk, hway⟩ := hplace
    exact ⟨hends, hI, hk, hway.call⟩
  | leave =>
    rename_i s log i k r
    obtain ⟨hk, hway⟩ := hplace
    obtain ⟨-, hIs⟩ := hway.keeps prog locks (hlocked k hk) hI
    have hrun : (prog k).run.thread i (inTurn prog log s₀).2 = (r, s) :=
      hway.run_eq.symm.trans (Run.thread_result i r s)
    obtain ⟨hends', hs⟩ := Serial.append hends hrun
    exact ⟨hends', by rw [hs]; exact hIs, hs.symm⟩
  | alone i k hk hi =>
    rename_i s inside log
    rcases hin : inside with _ | ⟨i', k', p⟩ <;> rw [hin] at hplace hi
    · have hs : s = (inTurn prog log s₀).2 := hplace
      have hrun : (prog k).run.thread i (inTurn prog log s₀).2
          = (((prog k).run.thread i s).1, ((prog k).run.thread i s).2) := by rw [hs]
      obtain ⟨hends', hs'⟩ := Serial.append hends hrun
      exact ⟨hends', by rw [hs', hs]; exact halone k hk i _ hI, hs'.symm⟩
    · obtain ⟨hk', hway⟩ := hplace
      have hne : i ≠ i' := fun hc => hi k' p (by rw [hc])
      obtain ⟨hend, hway'⟩ := hway.swap prog locks (hlocked k' hk') hI hne hk
      have hrun : (prog k).run.thread i (inTurn prog log s₀).2
          = (((prog k).run.thread i s).1, ((prog k).run.thread i (inTurn prog log s₀).2).2) := by rw [hend]
      obtain ⟨hends', hs'⟩ := Serial.append hends hrun
      refine ⟨hends', by rw [hs']; exact halone k hk i _ hI, hk', ?_⟩
      show OnItsWay i' (prog k') (inTurn prog (log ++ [(i, k, _)]) s₀).2 p _
      rw [hs']
      exact hway'

/-- **Every run of the threads is a serial run.** -/
theorem serial (hlocked : ∀ k, locks k → (prog k).All (Swaps prog locks I))
    (halone : ∀ k, ¬ locks k → ∀ i s, I s → I ((prog k).run.thread i s).2) (hs₀ : I s₀)
    (h : Relation.ReflTransGen (Step prog locks) (start s₀) c) : Serial prog locks I s₀ c := by
  induction h with
  | refl => exact ⟨rfl, hs₀, rfl⟩
  | tail _ hstep ih => exact ih.step hlocked halone hstep

/-- The invariant holds at every moment. -/
theorem Serial.invariant (hlocked : ∀ k, locks k → (prog k).All (Swaps prog locks I))
    (h : Serial prog locks I s₀ c) : I c.state := by
  obtain ⟨-, hI, hplace⟩ := h
  rcases hin : c.inside with _ | ⟨i, k, p⟩ <;> rw [hin] at hplace
  · have hs : c.state = (inTurn prog c.log s₀).2 := hplace
    rw [hs]
    exact hI
  · exact (hplace.2.keeps prog locks (hlocked k hplace.1) hI).2

end
end Threads
