import Mathlib.Tactic.Common
/-!
# Arena — storage that counts its releases

An arena hands out addresses in increasing order and never the same one twice.  Besides what lives where it counts, for
every address, how often it has been released; the structure carries the accounting, so that an address handed out is
either live and never released or dead and released exactly once (`Arena.freed_eq_one`).  Releasing what is not live
changes nothing here: a program that would do so has to fault instead.
-/

/-- Cells of `α` by address, with the number of times each address has been released. -/
structure Arena (α : Type) where
  cell  : Nat → Option α
  next  : Nat
  freed : Nat → Nat
  /-- Nothing at or beyond `next` has been handed out. -/
  fresh : ∀ a, next ≤ a → cell a = none ∧ freed a = 0
  /-- An address handed out is live, or it has been released once. -/
  once  : ∀ a, a < next → freed a = if (cell a).isSome then 0 else 1

namespace Arena

variable {α : Type} (A : Arena α)

def empty : Arena α where
  cell  := fun _ => none
  next  := 0
  freed := fun _ => 0
  fresh := fun _ _ => ⟨rfl, rfl⟩
  once  := fun _ h => absurd h (Nat.not_lt_zero _)

def Live (a : Nat) : Prop := (A.cell a).isSome = true

instance (a : Nat) : Decidable (A.Live a) := inferInstanceAs (Decidable (_ = true))

theorem live_of_cell {a : Nat} {x : α} (h : A.cell a = some x) : A.Live a := by
  rw [Live, h]; rfl

theorem not_live_of_le {a : Nat} (h : A.next ≤ a) : ¬ A.Live a := by
  rw [Live, (A.fresh a h).1]
  simp

theorem lt_next_of_cell {a : Nat} {x : α} (h : A.cell a = some x) : a < A.next := by
  by_contra hn
  rw [(A.fresh a (by omega)).1] at h
  cases h

theorem freed_of_cell {a : Nat} {x : α} (h : A.cell a = some x) : A.freed a = 0 := by
  rw [A.once a (A.lt_next_of_cell h), h]; rfl

/-- **Every address handed out that is not live has been released exactly once.** -/
theorem freed_eq_one {a : Nat} (ha : a < A.next) (h : A.cell a = none) : A.freed a = 1 := by
  rw [A.once a ha, h]; rfl

theorem freed_of_not_live {a : Nat} (ha : a < A.next) (h : ¬ A.Live a) : A.freed a = 1 :=
  A.freed_eq_one ha (Option.not_isSome_iff_eq_none.1 h)

theorem freed_le_one (a : Nat) : A.freed a ≤ 1 := by
  by_cases ha : a < A.next
  · rw [A.once a ha]; split <;> omega
  · rw [(A.fresh a (by omega)).2]; omega

/-- A new cell, at address `A.next`. -/
def alloc (x : α) : Arena α where
  cell  := fun a => if a = A.next then some x else A.cell a
  next  := A.next + 1
  freed := A.freed
  fresh := fun a h => by
    rw [if_neg (by omega)]
    exact A.fresh a (by omega)
  once  := fun a h => by
    by_cases ha : a = A.next
    · subst ha
      simp [(A.fresh A.next (Nat.le_refl _)).2]
    · rw [if_neg ha]
      exact A.once a (by omega)

/-- The cell at `a` overwritten, if it is live. -/
def put (a : Nat) (x : α) : Arena α where
  cell  := fun b => if b = a ∧ A.Live a then some x else A.cell b
  next  := A.next
  freed := A.freed
  fresh := fun b h => by
    have hb := A.fresh b h
    rw [if_neg (fun hc => by
      obtain ⟨rfl, hl⟩ := hc
      rw [Live, hb.1] at hl
      cases hl)]
    exact hb
  once  := fun b h => by
    by_cases hb : b = a ∧ A.Live a
    · obtain ⟨rfl, hl⟩ := hb
      have hl' : (A.cell b).isSome = true := hl
      simp [hl, A.once b h, hl']
    · rw [if_neg hb]
      exact A.once b h

/-- The cell at `a` released, if it is live. -/
def free (a : Nat) : Arena α where
  cell  := fun b => if b = a then none else A.cell b
  next  := A.next
  freed := fun b => if b = a ∧ A.Live a then A.freed b + 1 else A.freed b
  fresh := fun b h => by
    have hb := A.fresh b h
    refine ⟨by rw [hb.1]; exact ite_self _, ?_⟩
    rw [if_neg (fun hc => by
      obtain ⟨rfl, hl⟩ := hc
      rw [Live, hb.1] at hl
      cases hl)]
    exact hb.2
  once  := fun b h => by
    have hb := A.once b h
    by_cases hba : b = a
    · subst hba
      by_cases hl : A.Live b
      · rw [Live] at hl
        simp [Live, hl, hb]
      · rw [Live] at hl
        simp [Live, hl, hb]
    · rw [if_neg (fun hc => hba hc.1), if_neg hba]
      exact hb

variable (a b : Nat) (x : α)

@[simp] theorem next_alloc : (A.alloc x).next = A.next + 1 := rfl

@[simp] theorem next_put : (A.put a x).next = A.next := rfl

theorem cell_alloc : (A.alloc x).cell b = if b = A.next then some x else A.cell b := rfl

@[simp] theorem cell_alloc_next : (A.alloc x).cell A.next = some x := if_pos rfl

theorem cell_alloc_of_lt (h : b < A.next) : (A.alloc x).cell b = A.cell b := if_neg (by omega)

theorem live_alloc : (A.alloc x).Live b ↔ A.Live b ∨ b = A.next := by
  rw [Live, cell_alloc]
  by_cases hb : b = A.next
  · simp [hb]
  · simp [hb, Live]

theorem live_free : (A.free a).Live b ↔ A.Live b ∧ b ≠ a := by
  by_cases hb : b = a
  · simp [Live, free, hb]
  · simp [Live, free, hb]

@[simp] theorem cell_free_self : (A.free a).cell a = none := if_pos rfl

theorem cell_free_of_ne (h : b ≠ a) : (A.free a).cell b = A.cell b := if_neg h

theorem freed_free_self (h : A.cell a = some x) : (A.free a).freed a = A.freed a + 1 :=
  if_pos ⟨rfl, A.live_of_cell h⟩

theorem cell_put_self {y : α} (h : A.cell a = some y) : (A.put a x).cell a = some x :=
  if_pos ⟨rfl, A.live_of_cell h⟩

theorem cell_put_of_ne (h : b ≠ a) : (A.put a x).cell b = A.cell b := if_neg (fun hc => h hc.1)

theorem put_self (h : A.cell a = some x) : A.put a x = A := by
  have hcell : (A.put a x).cell = A.cell := by
    funext b
    by_cases hb : b = a
    · subst hb
      rw [A.cell_put_self b x h, h]
    · rw [A.cell_put_of_ne a b x hb]
  cases A
  simp only [put] at hcell ⊢
  congr

theorem put_put (y : α) : (A.put a x).put a y = A.put a y := by
  have hcell : ((A.put a x).put a y).cell = (A.put a y).cell := by
    funext b
    by_cases hb : b = a
    · subst hb
      cases h : A.cell b with
      | none => simp [put, Live, h]
      | some z => rw [(A.put b x).cell_put_self b y (A.cell_put_self b x h), A.cell_put_self b y h]
    · rw [cell_put_of_ne _ _ _ _ hb, cell_put_of_ne _ _ _ _ hb, cell_put_of_ne _ _ _ _ hb]
  simp only [put] at hcell ⊢
  congr

theorem cell_put_isSome : ((A.put a x).cell b).isSome = (A.cell b).isSome := by
  show (if b = a ∧ A.Live a then some x else A.cell b).isSome = _
  split
  · rename_i h
    obtain ⟨rfl, hl⟩ := h
    rw [Live] at hl
    rw [hl]; rfl
  · rfl

/-- A release and an allocation of different cells may change places. -/
theorem free_alloc (h : a ≠ A.next) : (A.alloc x).free a = (A.free a).alloc x := by
  have hcell : ((A.alloc x).free a).cell = ((A.free a).alloc x).cell := by
    funext b
    show (if b = a then none else if b = A.next then some x else A.cell b)
      = if b = A.next then some x else if b = a then none else A.cell b
    by_cases hb : b = a
    · rw [if_pos hb, if_neg (by omega), if_pos hb]
    · rw [if_neg hb, if_neg hb]
  have hlive : (A.alloc x).Live a ↔ A.Live a := by
    rw [live_alloc]
    exact or_iff_left h
  have hfreed : ((A.alloc x).free a).freed = ((A.free a).alloc x).freed := by
    funext b
    show (if b = a ∧ (A.alloc x).Live a then A.freed b + 1 else A.freed b)
      = if b = a ∧ A.Live a then A.freed b + 1 else A.freed b
    simp only [hlive]
  simp only [free, alloc] at hcell hfreed ⊢
  congr

end Arena
