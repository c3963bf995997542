import Mathlib.Order.Lattice
import Mathlib.Data.List.Basic
import Mathlib.Tactic.Common
/-!
# OrdSet — ordered sets of unique keys

A set held as the ascending list of its elements, the order an iteration visits them in; `insert` drops what is already
there.  The list a set is built from comes back as it was exactly when it was ascending (`OrdSet.ofList_elems_iff`).
-/

/-- A set of `α` by its elements in strictly ascending order. -/
structure OrdSet (α : Type) [LinearOrder α] where
  elems     : List α
  ascending : elems.Pairwise (· < ·)
deriving DecidableEq

namespace OrdSet

variable {α : Type} [LinearOrder α]

/-- `x` put at its place in an ascending list, unless it is there. -/
def place (x : α) : List α → List α
  | []      => [x]
  | y :: ys => if x < y then x :: y :: ys else if x = y then y :: ys else y :: place x ys

theorem mem_place {x z : α} : ∀ {l : List α}, z ∈ place x l ↔ z = x ∨ z ∈ l
  | []      => by simp [place]
  | y :: ys => by
    unfold place
    split
    · simp
    · split
      · rename_i hxy
        subst hxy
        simp
      · rw [List.mem_cons, mem_place, List.mem_cons]
        tauto

theorem ascending_place (x : α) : ∀ {l : List α}, l.Pairwise (· < ·) → (place x l).Pairwise (· < ·)
  | [], _      => by simp [place]
  | y :: ys, h => by
    unfold place
    rw [List.pairwise_cons] at h
    split
    · rename_i hxy
      refine List.pairwise_cons.2 ⟨fun z hz => ?_, List.pairwise_cons.2 h⟩
      rcases List.mem_cons.1 hz with rfl | hz
      · exact hxy
      · exact lt_trans hxy (h.1 z hz)
    · split
      · exact List.pairwise_cons.2 h
      · rename_i hxy hne
        refine List.pairwise_cons.2 ⟨fun z hz => ?_, ascending_place x h.2⟩
        rcases mem_place.1 hz with rfl | hz
        · exact lt_of_le_of_ne (not_lt.1 hxy) (Ne.symm hne)
        · exact h.1 z hz

theorem place_of_forall_lt {x : α} : ∀ {l : List α}, (∀ y ∈ l, y < x) → place x l = l ++ [x]
  | [], _      => rfl
  | y :: ys, h => by
    have hy : y < x := h y List.mem_cons_self
    rw [place, if_neg (not_lt_of_gt hy), if_neg (ne_of_gt hy),
      place_of_forall_lt (fun z hz => h z (List.mem_cons_of_mem _ hz)), List.cons_append]

def empty : OrdSet α := ⟨[], List.Pairwise.nil⟩

def insert (s : OrdSet α) (x : α) : OrdSet α := ⟨place x s.elems, ascending_place x s.ascending⟩

/-- The set of a list's elements, inserted one by one. -/
def ofList (l : List α) : OrdSet α := l.foldl insert empty

@[simp] theorem elems_empty : (empty : OrdSet α).elems = [] := rfl

@[simp] theorem elems_insert (s : OrdSet α) (x : α) : (s.insert x).elems = place x s.elems := rfl

theorem mem_foldl_insert {z : α} : ∀ (l : List α) (s : OrdSet α),
    z ∈ (l.foldl insert s).elems ↔ z ∈ s.elems ∨ z ∈ l
  | [], s      => by simp
  | x :: xs, s => by
    rw [List.foldl_cons, mem_foldl_insert xs, elems_insert, mem_place, List.mem_cons]
    tauto

theorem mem_ofList {l : List α} {z : α} : z ∈ (ofList l).elems ↔ z ∈ l := by
  rw [ofList, mem_foldl_insert]
  simp

theorem foldl_insert_elems : ∀ (l : List α) (s : OrdSet α), (s.elems ++ l).Pairwise (· < ·) →
    (l.foldl insert s).elems = s.elems ++ l
  | [], s, _      => by simp
  | x :: xs, s, h => by
    have hx : (s.insert x).elems = s.elems ++ [x] :=
      place_of_forall_lt (fun y hy => (List.pairwise_append.1 h).2.2 y hy x List.mem_cons_self)
    rw [List.foldl_cons, foldl_insert_elems xs (s.insert x) (by rw [hx]; simpa using h), hx]
    simp

/-- **A list comes back from its set as it was exactly when it is strictly ascending.** -/
theorem ofList_elems_iff {l : List α} : (ofList l).elems = l ↔ l.Pairwise (· < ·) := by
  constructor
  · intro h
    rw [← h]
    exact (ofList l).ascending
  · intro h
    exact foldl_insert_elems l empty (by simpa using h)

end OrdSet
