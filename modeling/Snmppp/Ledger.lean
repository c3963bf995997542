import Snmppp.Arena
import Mathlib.Data.Multiset.UnionInter
/-!
# Ledger — who holds the cells of an arena

A bag of addresses accounts for an arena when it names every live cell once and nothing else: no cell is held twice,
none is forgotten and none dangles (`Arena.HeldBy`).  A part of the program that may touch the cells of one bag only
leaves the cells of any other bag alone (`Arena.Framed`); what it allocates, overwrites and releases is booked by the
rules below, whatever the rest of the arena holds.
-/

namespace Arena

variable {α : Type} {A B : Arena α} {M M' N F : Multiset Nat} {a b : Nat} {x : α}

/-- The cell a pointer holds, none when it is NULL. -/
def ofPtr : Option Nat → Multiset Nat
  | none   => 0
  | some a => {a}

@[simp] theorem ofPtr_none : ofPtr none = 0 := rfl

@[simp] theorem ofPtr_some : ofPtr (some a) = {a} := rfl

theorem mem_ofPtr {p : Option Nat} : a ∈ ofPtr p ↔ p = some a := by
  cases p with
  | none => simp
  | some b => simp [eq_comm]

theorem mem_ofPtr_add {p : Option Nat} : a ∈ ofPtr p + M ↔ p = some a ∨ a ∈ M := by
  rw [Multiset.mem_add, mem_ofPtr]

/-- **`M` names every live cell once, and nothing else.** -/
structure HeldBy (A : Arena α) (M : Multiset Nat) : Prop where
  nodup : M.Nodup
  live  : ∀ a, A.Live a ↔ a ∈ M

theorem heldBy_empty : (empty : Arena α).HeldBy 0 :=
  ⟨Multiset.nodup_zero, fun a => iff_of_false (empty.not_live_of_le (Nat.zero_le a)) (Multiset.notMem_zero a)⟩

namespace HeldBy

theorem cell (h : A.HeldBy M) (ha : a ∈ M) : ∃ x, A.cell a = some x :=
  Option.isSome_iff_exists.1 ((h.live a).2 ha)

theorem mem (h : A.HeldBy M) (hx : A.cell a = some x) : a ∈ M := (h.live a).1 (A.live_of_cell hx)

theorem next_notMem (h : A.HeldBy M) : A.next ∉ M := fun hm =>
  A.not_live_of_le (Nat.le_refl _) ((h.live _).2 hm)

theorem alloc (h : A.HeldBy M) (x : α) : (A.alloc x).HeldBy ({A.next} + M) where
  nodup := by
    rw [Multiset.singleton_add, Multiset.nodup_cons]
    exact ⟨h.next_notMem, h.nodup⟩
  live a := by
    rw [live_alloc, h.live, Multiset.mem_add, Multiset.mem_singleton, or_comm]

theorem put (h : A.HeldBy M) (a : Nat) (x : α) : (A.put a x).HeldBy M where
  nodup := h.nodup
  live b := by
    rw [← h.live b, Live, Live, cell_put_isSome]

theorem free (h : A.HeldBy ({a} + M)) : (A.free a).HeldBy M := by
  obtain ⟨hnodup, hlive⟩ := h
  rw [Multiset.singleton_add, Multiset.nodup_cons] at hnodup
  refine ⟨hnodup.2, fun b => ?_⟩
  rw [live_free, hlive, Multiset.mem_add, Multiset.mem_singleton]
  constructor
  · rintro ⟨hb, hne⟩
    exact hb.resolve_left hne
  · intro hb
    exact ⟨.inr hb, fun hba => hnodup.1 (hba ▸ hb)⟩

/-- The cells of two parts of a bag are different cells. -/
theorem apart (h : A.HeldBy (M + N)) (ha : a ∈ M) : a ∉ N :=
  Multiset.disjoint_left.1 (Multiset.nodup_add.1 h.nodup).2.2 ha

end HeldBy

/-- **A change within a frame**: `M` and the frame account for the arena, and the cells of the frame are those of
`A₀`. -/
structure Framed (A₀ : Arena α) (F : Multiset Nat) (A : Arena α) (M : Multiset Nat) : Prop where
  held  : A.HeldBy (M + F)
  frame : ∀ a ∈ F, A.cell a = A₀.cell a

namespace Framed

variable {A₀ : Arena α}

theorem refl (h : A.HeldBy (M + F)) : Framed A F A M := ⟨h, fun _ _ => rfl⟩

theorem cell (h : Framed A₀ F A M) (ha : a ∈ M) : ∃ x, A.cell a = some x :=
  h.held.cell (Multiset.mem_add.2 (.inl ha))

theorem alloc (h : Framed A₀ F A M) (x : α) : Framed A₀ F (A.alloc x) ({A.next} + M) where
  held := by
    rw [Multiset.add_assoc]
    exact h.held.alloc x
  frame a ha := by
    obtain ⟨y, hy⟩ := h.held.cell (Multiset.mem_add.2 (.inr ha))
    rw [cell_alloc_of_lt _ _ _ (A.lt_next_of_cell hy), h.frame a ha]

theorem put (h : Framed A₀ F A M) (ha : a ∈ M) (x : α) : Framed A₀ F (A.put a x) M where
  held := h.held.put a x
  frame b hb := by
    have hne : b ≠ a := fun hba => h.held.apart ha (hba ▸ hb)
    rw [cell_put_of_ne _ _ _ _ hne, h.frame b hb]

theorem free (h : Framed A₀ F A ({a} + M)) : Framed A₀ F (A.free a) M where
  held := by
    have hheld := h.held
    rw [Multiset.add_assoc] at hheld
    exact hheld.free
  frame b hb := by
    have ha : a ∈ {a} + M := Multiset.mem_add.2 (.inl (Multiset.mem_singleton_self a))
    have hne : b ≠ a := fun hba => h.held.apart ha (hba ▸ hb)
    rw [cell_free_of_ne _ _ _ hne, h.frame b hb]

/-- **The rule of the frame**: what part of a bag accounts for may be left to the frame. -/
theorem widen (h : Framed A₀ F A (M + N)) : Framed A (N + F) A M := .refl (by rw [← Multiset.add_assoc]; exact h.held)

theorem narrow (h : Framed A₀ F A (M + N)) (h' : Framed A (N + F) B M') : Framed A₀ F B (M' + N) where
  held := by
    rw [Multiset.add_assoc]
    exact h'.held
  frame a ha := by rw [h'.frame a (Multiset.mem_add.2 (.inr ha)), h.frame a ha]

end Framed
end Arena
