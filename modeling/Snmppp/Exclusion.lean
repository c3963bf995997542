import Snmppp.Calls
/-!
# Exclusion — calls that no two threads may be inside at once

Each thread does a list of operations, some of them under one lock, and is inside each call of theirs for a while
(`Exclusion.Step`).  Two threads come to be inside calls of one kind at once, in some interleaving, exactly when one of
them has such a call to make without the lock and the other has one to make at all (`Exclusion.overlap_iff`).
-/

namespace Exclusion

/-- Where a thread is: in an operation, with what is left of it and whether it is inside the next call, or in none; and
what it does then. -/
structure Place (ν κ σ ε α : Type) : Type 1 where
  now  : Option (κ × Calls ν σ ε α × Bool)
  todo : List κ

/-- Threads at some moment. -/
structure Moment (ι ν κ σ τ ε α : Type) : Type 1 where
  state  : σ × (ι → τ)
  holder : Option ι
  place  : ι → Place ν κ (σ × τ) ε α

variable {ι ν κ σ τ ε α : Type}

/-- Before anything was done. -/
def start (s : σ × (ι → τ)) (ops : ι → List κ) : Moment ι ν κ σ τ ε α := ⟨s, none, fun i => ⟨none, ops i⟩⟩

theorem start_place (s : σ × (ι → τ)) (ops : ι → List κ) (i : ι) :
    (start s ops : Moment ι ν κ σ τ ε α).place i = ⟨none, ops i⟩ := rfl

/-- Thread `i` is inside a call of `P`. -/
def Inside (P : ν → Prop) (c : Moment ι ν κ σ τ ε α) (i : ι) : Prop :=
  ∃ k f, ∃ (β : Type) (m : Run (σ × τ) ε β) (next : β → Calls ν (σ × τ) ε α) (ks : List κ),
    c.place i = ⟨some (k, .call f m next, true), ks⟩ ∧ P f

/-! ## Steps -/

section
variable [DecidableEq ι] (prog : κ → Calls ν (σ × τ) ε α) (locks : κ → Prop) [DecidablePred locks]

/-- Thread `i` goes to `p`. -/
def Moment.put (c : Moment ι ν κ σ τ ε α) (i : ι) (p : Place ν κ (σ × τ) ε α) : Moment ι ν κ σ τ ε α :=
  { c with place := Function.update c.place i p }

/-- **One step of one thread**: it enters its next operation, with the lock where it takes it, begins a call, returns
from it, or leaves the operation and gives the lock back. -/
inductive Step : Moment ι ν κ σ τ ε α → Moment ι ν κ σ τ ε α → Prop where
  | enter {c i k ks} (hat : c.place i = ⟨none, k :: ks⟩) (hfree : locks k → c.holder = none) :
    Step c { c.put i ⟨some (k, prog k, false), ks⟩ with holder := if locks k then some i else c.holder }
  | begin {c i k f ks} {β : Type} {m : Run (σ × τ) ε β} {next : β → Calls ν (σ × τ) ε α}
      (hat : c.place i = ⟨some (k, .call f m next, false), ks⟩) :
    Step c (c.put i ⟨some (k, .call f m next, true), ks⟩)
  | back {c i k f ks} {β : Type} {m : Run (σ × τ) ε β} {next : β → Calls ν (σ × τ) ε α}
      (hat : c.place i = ⟨some (k, .call f m next, true), ks⟩) :
    Step c { c.put i ⟨some (k, Calls.after next (m.thread i c.state).1, false), ks⟩ with
      state := (m.thread i c.state).2 }
  | leave {c i k r ks} (hat : c.place i = ⟨some (k, .done r, false), ks⟩) :
    Step c { c.put i ⟨none, ks⟩ with holder := if locks k then none else c.holder }

theorem put_self (c : Moment ι ν κ σ τ ε α) (i : ι) (p : Place ν κ (σ × τ) ε α) : (c.put i p).place i = p := by
  unfold Moment.put
  exact Function.update_self i p c.place

theorem put_of_ne (c : Moment ι ν κ σ τ ε α) {i j : ι} (hj : j ≠ i) (p : Place ν κ (σ × τ) ε α) :
    (c.put i p).place j = c.place j := by
  unfold Moment.put
  exact Function.update_of_ne hj p c.place

end

/-! ## What is kept -/

/-- **What is so of thread `i` at every moment**: it has only its operations to do, the one it is in makes what calls it
has left, and it has the lock while in one that takes it. -/
structure Kept (prog : κ → Calls ν (σ × τ) ε α) (locks : κ → Prop) (ops : ι → List κ)
    (c : Moment ι ν κ σ τ ε α) (i : ι) : Prop where
  todo  : ∀ k ∈ (c.place i).todo, k ∈ ops i
  own   : ∀ k p b, (c.place i).now = some (k, p, b) → k ∈ ops i
  makes : ∀ k p b, (c.place i).now = some (k, p, b) → ∀ P : ν → Prop, p.Makes P → (prog k).Makes P
  holds : ∀ k p b, (c.place i).now = some (k, p, b) → locks k → c.holder = some i

section
variable {prog : κ → Calls ν (σ × τ) ε α} {locks : κ → Prop} {ops : ι → List κ} {c c' : Moment ι ν κ σ τ ε α} {i j : ι}
  {ks : List κ} {now : Option (κ × Calls ν (σ × τ) ε α × Bool)}

theorem Kept.todo_at (h : Kept prog locks ops c i) (hat : c.place i = ⟨now, ks⟩) : ∀ k ∈ ks, k ∈ ops i := by
  have htodo := h.todo
  rwa [hat] at htodo

/-- A thread that is where it was, and has the lock if it had it. -/
theorem Kept.still (h : Kept prog locks ops c j) (hat : c'.place j = c.place j)
    (hholder : c.holder = some j → c'.holder = some j) : Kept prog locks ops c' j where
  todo  := hat ▸ h.todo
  own   := hat ▸ h.own
  makes := hat ▸ h.makes
  holds := fun k p b hnow hk => hholder (h.holds k p b (hat ▸ hnow) hk)

/-- The thread that goes to `p`. -/
theorem Kept.moved (hat : c'.place i = ⟨now, ks⟩) (htodo : ∀ k ∈ ks, k ∈ ops i)
    (hnow : ∀ k p b, now = some (k, p, b) →
      k ∈ ops i ∧ (∀ P : ν → Prop, p.Makes P → (prog k).Makes P) ∧ (locks k → c'.holder = some i)) :
    Kept prog locks ops c' i where
  todo  := hat ▸ htodo
  own   := fun k p b h => (hnow k p b (by rw [← h, hat])).1
  makes := fun k p b h => (hnow k p b (by rw [← h, hat])).2.1
  holds := fun k p b h => (hnow k p b (by rw [← h, hat])).2.2

end

variable [DecidableEq ι] {prog : κ → Calls ν (σ × τ) ε α} {locks : κ → Prop} [DecidablePred locks] {ops : ι → List κ}
  {c c' : Moment ι ν κ σ τ ε α} {i j : ι} {k : κ} {ks : List κ}

/-- **Every step keeps it.** -/
theorem Kept.step (h : ∀ i, Kept prog locks ops c i) (hstep : Step prog locks c c') :
    ∀ i, Kept prog locks ops c' i := by
  intro j
  cases hstep with
  | @enter i k ks hat hfree =>
    have hi := h i
    by_cases hj : j = i
    · subst hj
      refine .moved (put_self c j _) (fun k' hk' => hi.todo_at hat k' (List.mem_cons_of_mem _ hk')) ?_
      intro k' p b hnow
      cases hnow
      exact ⟨hi.todo_at hat k List.mem_cons_self, fun _ hp => hp, fun hk => if_pos hk⟩
    · refine (h j).still (put_of_ne c hj _) (fun hholder => ?_)
      have hk : ¬ locks k := fun hk => by rw [hfree hk] at hholder; cases hholder
      exact (if_neg hk).trans hholder
  | @begin i k f ks β m next hat =>
    have hi := h i
    by_cases hj : j = i
    · subst hj
      refine .moved (put_self c j _) (hi.todo_at hat) (fun k' p b hnow => ?_)
      cases hnow
      exact ⟨hi.own k _ _ (by rw [hat]), hi.makes k _ _ (by rw [hat]), hi.holds k _ _ (by rw [hat])⟩
    · exact (h j).still (put_of_ne c hj _) id
  | @back i k f ks β m next hat =>
    have hi := h i
    by_cases hj : j = i
    · subst hj
      refine .moved (put_self c j _) (hi.todo_at hat) (fun k' p b hnow => ?_)
      cases hnow
      exact ⟨hi.own k _ _ (by rw [hat]), fun P hp => hi.makes k _ _ (by rw [hat]) P hp.of_after,
        hi.holds k _ _ (by rw [hat])⟩
    · exact (h j).still (put_of_ne c hj _) id
  | @leave i k r ks hat =>
    have hi := h i
    by_cases hj : j = i
    · subst hj
      exact .moved (put_self c j _) (hi.todo_at hat) (fun k' p b hnow => by cases hnow)
    · refine (h j).still (put_of_ne c hj _) (fun hholder => ?_)
      have hk : ¬ locks k := fun hk => by
        rw [hi.holds k _ _ (by rw [hat]) hk] at hholder
        exact hj (Option.some.inj hholder).symm
      exact (if_neg hk).trans hholder

theorem kept_of_reaches {s : σ × (ι → τ)} (h : Relation.ReflTransGen (Step prog locks) (start s ops) c) :
    ∀ i, Kept prog locks ops c i := by
  induction h with
  | refl => exact fun i => ⟨fun _ hk => hk, nofun, nofun, nofun⟩
  | tail _ hstep ih => exact Kept.step ih hstep

/-! ## Where a thread gets by itself -/

/-- Thread `i` gets from `c` to `c'` while the others stay where they are. -/
structure Alone (prog : κ → Calls ν (σ × τ) ε α) (locks : κ → Prop) [DecidablePred locks] (i : ι)
    (c c' : Moment ι ν κ σ τ ε α) : Prop where
  steps  : Relation.ReflTransGen (Step prog locks) c c'
  others : ∀ j, j ≠ i → c'.place j = c.place j

theorem Alone.refl (c : Moment ι ν κ σ τ ε α) : Alone prog locks i c c := ⟨.refl, fun _ _ => rfl⟩

theorem Alone.head {c₁ : Moment ι ν κ σ τ ε α} (hstep : Step prog locks c c₁)
    (hothers : ∀ j, j ≠ i → c₁.place j = c.place j) (h : Alone prog locks i c₁ c') : Alone prog locks i c c' where
  steps  := .head hstep h.steps
  others := fun j hj => (h.others j hj).trans (hothers j hj)

theorem Alone.trans {c₁ : Moment ι ν κ σ τ ε α} (h : Alone prog locks i c c₁) (h' : Alone prog locks i c₁ c') :
    Alone prog locks i c c' where
  steps  := h.steps.trans h'.steps
  others := fun j hj => (h'.others j hj).trans (h.others j hj)

variable (prog locks)

/-- **A call takes its thread to what is left after it.** -/
theorem Alone.called {f : ν} {β : Type} {m : Run (σ × τ) ε β} {next : β → Calls ν (σ × τ) ε α}
    (hat : c.place i = ⟨some (k, .call f m next, false), ks⟩) :
    ∃ c', Alone prog locks i c c' ∧ c'.holder = c.holder ∧
      c'.place i = ⟨some (k, Calls.after next (m.thread i c.state).1, false), ks⟩ := by
  have hinside := put_self c i ⟨some (k, .call f m next, true), ks⟩
  refine ⟨_, .head (.begin hat) (fun j hj => put_of_ne c hj _) (.head (.back hinside) (fun j hj => ?_) (.refl _)), rfl,
    put_self _ i _⟩
  exact put_of_ne _ hj _

/-- **Every operation can be left.** -/
theorem Alone.left (p : Calls ν (σ × τ) ε α) : ∀ {c : Moment ι ν κ σ τ ε α},
    c.place i = ⟨some (k, p, false), ks⟩ → ∃ c', Alone prog locks i c c' ∧
      c'.holder = (if locks k then none else c.holder) ∧ c'.place i = ⟨none, ks⟩ := by
  induction p with
  | done r =>
    intro c hat
    exact ⟨_, .head (.leave hat) (fun j hj => put_of_ne c hj _) (.refl _), rfl, put_self c i _⟩
  | call f m next ih =>
    intro c hat
    obtain ⟨c₁, hcalled, hholder, hat₁⟩ := Alone.called prog locks hat
    cases hr : (m.thread i c.state).1 with
    | ok b =>
      rw [hr] at hat₁
      obtain ⟨c', hleft, hholder', hat'⟩ := ih b hat₁
      exact ⟨c', hcalled.trans hleft, by rw [hholder', hholder], hat'⟩
    | error e =>
      rw [hr] at hat₁
      exact ⟨_, hcalled.trans (.head (.leave hat₁) (fun j hj => put_of_ne c₁ hj _) (.refl _)),
        by rw [← hholder], put_self c₁ i _⟩

/-- **With the lock free a thread gets to each of its operations.** -/
theorem Alone.entered : ∀ (before : List κ) {c : Moment ι ν κ σ τ ε α}, c.holder = none →
    c.place i = ⟨none, before ++ k :: ks⟩ → ∃ c', Alone prog locks i c c' ∧
      c'.holder = (if locks k then some i else none) ∧ c'.place i = ⟨some (k, prog k, false), ks⟩
  | [], c, hfree, hat          => by
    refine ⟨_, .head (.enter hat (fun _ => hfree)) (fun j hj => put_of_ne c hj _) (.refl _), ?_, put_self c i _⟩
    rw [hfree]
  | k₀ :: before, c, hfree, hat => by
    have hin := put_self c i ⟨some (k₀, prog k₀, false), before ++ k :: ks⟩
    obtain ⟨c₁, hleft, hholder, hat₁⟩ := Alone.left prog locks
      (c := { c.put i _ with holder := if locks k₀ then some i else c.holder }) (prog k₀) hin
    have hfree₁ : c₁.holder = none := by
      rw [hholder]
      by_cases hk : locks k₀
      · exact if_pos hk
      · rw [if_neg hk]
        exact (if_neg hk).trans hfree
    obtain ⟨c', hentered, hc'⟩ := Alone.entered before hfree₁ hat₁
    exact ⟨c', .trans (.head (.enter hat (fun _ => hfree)) (fun j hj => put_of_ne c hj _) hleft) hentered, hc'⟩

/-- **A thread gets inside the call it is led to.** -/
theorem Alone.inside {P : ν → Prop} {p : Calls ν (σ × τ) ε α} (hp : p.Leads P) : ∀ {c : Moment ι ν κ σ τ ε α},
    c.place i = ⟨some (k, p, false), ks⟩ → ∃ c', Alone prog locks i c c' ∧ c'.holder = c.holder ∧ Inside P c' i := by
  induction hp with
  | @here β f m next hf =>
    intro c hat
    exact ⟨_, .head (.begin hat) (fun j hj => put_of_ne c hj _) (.refl _), rfl, k, f, β, m, next, ks,
      put_self c i _, hf⟩
  | @later β f m next hret _ ih =>
    intro c hat
    obtain ⟨c₁, hcalled, hholder, hat₁⟩ := Alone.called prog locks hat
    obtain ⟨b, hb⟩ := hret (c.state.1, c.state.2 i)
    have hr : (m.thread i c.state).1 = .ok b := hb
    rw [hr] at hat₁
    obtain ⟨c', hinside, hholder', hin⟩ := ih b hat₁
    exact ⟨c', hcalled.trans hinside, hholder'.trans hholder, hin⟩

variable {prog locks}

/-! ## Two threads inside -/

/-- **When two threads can be inside calls of `P` at once**: when one of them has an operation that makes such a call
without the lock, and the other has one that makes such a call. -/
theorem overlap_iff {P : ν → Prop} (hleads : ∀ k, (prog k).Makes P → (prog k).Leads P) (s : σ × (ι → τ))
    (ops : ι → List κ) :
    (∃ c, Relation.ReflTransGen (Step prog locks) (start s ops) c ∧ ∃ i j, i ≠ j ∧ Inside P c i ∧ Inside P c j) ↔
      ∃ i j, i ≠ j ∧ (∃ k ∈ ops i, ¬ locks k ∧ (prog k).Makes P) ∧ ∃ k ∈ ops j, (prog k).Makes P := by
  constructor
  · rintro ⟨c, h, i, j, hij, ⟨k, f, β, m, next, ks, hat, hf⟩, ⟨k', f', β', m', next', ks', hat', hf'⟩⟩
    have hi := kept_of_reaches h i
    have hj := kept_of_reaches h j
    have hnow : (c.place i).now = some (k, .call f m next, true) := by rw [hat]
    have hnow' : (c.place j).now = some (k', .call f' m' next', true) := by rw [hat']
    have hk := hi.makes k _ _ hnow P (.here hf)
    have hk' := hj.makes k' _ _ hnow' P (.here hf')
    by_cases hlock : locks k
    · refine ⟨j, i, hij.symm, ⟨k', hj.own k' _ _ hnow', fun hlock' => ?_, hk'⟩, k, hi.own k _ _ hnow, hk⟩
      have hboth := (hi.holds k _ _ hnow hlock).symm.trans (hj.holds k' _ _ hnow' hlock')
      exact hij (Option.some.inj hboth)
    · exact ⟨i, j, hij, ⟨k, hi.own k _ _ hnow, hlock, hk⟩, k', hj.own k' _ _ hnow', hk'⟩
  · rintro ⟨i, j, hij, ⟨k, hki, hlock, hk⟩, k', hkj, hk'⟩
    obtain ⟨before, ks, hops⟩ := List.append_of_mem hki
    obtain ⟨before', ks', hops'⟩ := List.append_of_mem hkj
    -- thread `i` goes first, and is inside without the lock when thread `j` starts
    have hat : (start s ops : Moment ι ν κ σ τ ε α).place i = ⟨none, before ++ k :: ks⟩ := by rw [start_place, hops]
    obtain ⟨c₁, h₁, hholder₁, hat₁⟩ := Alone.entered prog locks before rfl hat
    rw [if_neg hlock] at hholder₁
    obtain ⟨c₂, h₂, hholder₂, hin⟩ := Alone.inside prog locks (hleads k hk) hat₁
    have hj : c₂.place j = ⟨none, before' ++ k' :: ks'⟩ := by
      rw [h₂.others j hij.symm, h₁.others j hij.symm, start_place, hops']
    obtain ⟨c₃, h₃, -, hat₃⟩ := Alone.entered prog locks before' (hholder₂.trans hholder₁) hj
    obtain ⟨c₄, h₄, -, hin'⟩ := Alone.inside prog locks (hleads k' hk') hat₃
    have hstill : c₄.place i = c₂.place i := (h₄.others i hij).trans (h₃.others i hij)
    refine ⟨c₄, h₁.steps.trans (h₂.steps.trans (h₃.steps.trans h₄.steps)), i, j, hij, ?_, hin'⟩
    unfold Inside
    rw [hstill]
    exact hin

end Exclusion
