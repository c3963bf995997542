import Snmppp.Threads
/-!
# Calls — programs as calls with names

Which calls a program may make (`Calls.Makes`), which it comes to whatever the others return (`Calls.Leads`), and which
it makes in a run (`Calls.made`).  Without the names it is a program as `Threads` has them (`Calls.steps`), and runs as
that does (`Calls.made_run`).
-/

/-- A program as the calls it makes, each under its name. -/
inductive Calls (ν σ ε α : Type) : Type 1 where
  | done (r : Except (Stop ε) α)
  | call {β : Type} (f : ν) (m : Run σ ε β) (next : β → Calls ν σ ε α)

namespace Calls

variable {ν σ ε α β : Type}

/-- What is left to do after a call. -/
def after (next : β → Calls ν σ ε α) : Except (Stop ε) β → Calls ν σ ε α
  | .ok b    => next b
  | .error e => done (.error e)

/-- The calls without their names. -/
def steps : Calls ν σ ε α → Steps σ ε α
  | done r        => .done r
  | call _ m next => .call m fun b => (next b).steps

/-- A call of `P` is among those it may make. -/
inductive Makes (P : ν → Prop) : Calls ν σ ε α → Prop where
  | here {β : Type} {f : ν} {m : Run σ ε β} {next : β → Calls ν σ ε α} (hf : P f) : Makes P (call f m next)
  | later {β : Type} {f : ν} {m : Run σ ε β} {next : β → Calls ν σ ε α} (b : β) (h : Makes P (next b)) :
    Makes P (call f m next)

/-- **It comes to a call of `P`**, whatever the calls before return. -/
inductive Leads (P : ν → Prop) : Calls ν σ ε α → Prop where
  | here {β : Type} {f : ν} {m : Run σ ε β} {next : β → Calls ν σ ε α} (hf : P f) : Leads P (call f m next)
  | later {β : Type} {f : ν} {m : Run σ ε β} {next : β → Calls ν σ ε α} (hret : ∀ s, ∃ b, (m s).1 = .ok b)
      (h : ∀ b, Leads P (next b)) : Leads P (call f m next)

theorem Leads.makes {P : ν → Prop} {p : Calls ν σ ε α} (h : p.Leads P) (s : σ) : p.Makes P := by
  induction h with
  | here hf => exact .here hf
  | later hret _ ih =>
    obtain ⟨b, -⟩ := hret s
    exact .later b (ih b)

theorem Makes.of_after {P : ν → Prop} {f : ν} {m : Run σ ε β} {next : β → Calls ν σ ε α} {r : Except (Stop ε) β}
    (h : (after next r).Makes P) : (call f m next).Makes P := by
  cases r with
  | ok b => exact .later b h
  | error e => cases h

/-! ## The calls of a run -/

/-- The calls made from `s` on, and what they come to. -/
def made : Calls ν σ ε α → σ → List ν × Except (Stop ε) α × σ
  | done r, s        => ([], r, s)
  | call f m next, s =>
    match m s with
    | (.ok b, t)    => let rest := (next b).made t; (f :: rest.1, rest.2)
    | (.error e, t) => ([f], .error e, t)

/-- **They come to what the program comes to.** -/
theorem made_run (p : Calls ν σ ε α) : ∀ s, (p.made s).2 = p.steps.run s := by
  induction p with
  | done r => exact fun s => rfl
  | call f m next ih =>
    intro s
    rcases hm : m s with ⟨e | b, t⟩
    · simp only [made, steps, Steps.run, hm, Run.bind_error hm]
    · simp only [made, steps, Steps.run, hm, Run.bind_ok hm, ih]

theorem makes_of_mem_made {f : ν} (p : Calls ν σ ε α) : ∀ {s}, f ∈ (p.made s).1 → p.Makes (· = f) := by
  induction p with
  | done r => exact fun hf => by cases hf
  | call g m next ih =>
    intro s hf
    rcases hm : m s with ⟨e | b, t⟩ <;> simp only [made, hm] at hf
    · exact .here (List.mem_singleton.1 hf).symm
    · rcases List.mem_cons.1 hf with rfl | hf
      · exact .here rfl
      · exact .later b (ih b hf)

end Calls
