import Mathlib.Order.Lattice
import Mathlib.Data.List.Basic
import Mathlib.Tactic.Common
/-!
# OrdMap — ordered maps with unique keys

A map held as the list of its entries in ascending order of their keys; `set` overwrites what is there under a key, so
of several values set under one key the last one stays.
-/

/-- A map from `κ` to `β` by its entries, their keys in strictly ascending order. -/
structure OrdMap (κ β : Type) [LinearOrder κ] where
  entries   : List (κ × β)
  ascending : entries.Pairwise (fun a b => a.1 < b.1)

namespace OrdMap

variable {κ β : Type} [LinearOrder κ]

/-- `x` put under `k` at its place in an ascending list of entries. -/
def place (k : κ) (x : β) : List (κ × β) → List (κ × β)
  | []      => [(k, x)]
  | e :: es => if k < e.1 then (k, x) :: e :: es else if k = e.1 then (k, x) :: es else e :: place k x es

theorem mem_place {k z : κ} {x : β} : ∀ {l : List (κ × β)},
    z ∈ (place k x l).map Prod.fst ↔ z = k ∨ z ∈ l.map Prod.fst
  | []      => by simp [place]
  | e :: es => by
    unfold place
    split
    · simp
    · split
      · rename_i hk
        simp [← hk]
      · rw [List.map_cons, List.map_cons, List.mem_cons, mem_place, List.mem_cons]
        tauto

theorem ascending_place (k : κ) (x : β) : ∀ {l : List (κ × β)}, l.Pairwise (fun a b => a.1 < b.1) →
    (place k x l).Pairwise (fun a b => a.1 < b.1)
  | [], _      => by simp [place]
  | e :: es, h => by
    unfold place
    rw [List.pairwise_cons] at h
    split
    · rename_i hk
      refine List.pairwise_cons.2 ⟨fun z hz => ?_, List.pairwise_cons.2 h⟩
      rcases List.mem_cons.1 hz with rfl | hz
      · exact hk
      · exact lt_trans hk (h.1 z hz)
    · split
      · rename_i hk
        exact List.pairwise_cons.2 ⟨fun z hz => by rw [hk]; exact h.1 z hz, h.2⟩
      · rename_i hk hne
        refine List.pairwise_cons.2 ⟨fun z hz => ?_, ascending_place k x h.2⟩
        rcases mem_place.1 (List.mem_map_of_mem hz) with hzk | hz
        · rw [hzk]
          exact lt_of_le_of_ne (not_lt.1 hk) (Ne.symm hne)
        · obtain ⟨y, hy, hyz⟩ := List.mem_map.1 hz
          rw [← hyz]
          exact h.1 y hy

def empty : OrdMap κ β := ⟨[], List.Pairwise.nil⟩

/-- `m[k] = x`. -/
def set (m : OrdMap κ β) (k : κ) (x : β) : OrdMap κ β := ⟨place k x m.entries, ascending_place k x m.ascending⟩

def keys (m : OrdMap κ β) : List κ := m.entries.map Prod.fst

/-- What stands under `k`. -/
def find (m : OrdMap κ β) (k : κ) : Option β := (m.entries.find? (fun e => decide (e.1 = k))).map Prod.snd

@[simp] theorem keys_empty : (empty : OrdMap κ β).keys = [] := rfl

theorem mem_keys_set {m : OrdMap κ β} {k z : κ} {x : β} : z ∈ (m.set k x).keys ↔ z = k ∨ z ∈ m.keys := mem_place

theorem find_place_self (k : κ) (x : β) : ∀ (l : List (κ × β)),
    ((place k x l).find? (fun e => decide (e.1 = k))).map Prod.snd = some x
  | []      => by simp [place]
  | e :: es => by
    unfold place
    split
    · simp
    · split
      · simp
      · rename_i hne
        rw [List.find?_cons_of_neg (by simpa using Ne.symm hne), find_place_self]

theorem find_place_of_ne {k k' : κ} (h : k' ≠ k) (x : β) : ∀ (l : List (κ × β)),
    (place k x l).find? (fun e => decide (e.1 = k')) = l.find? (fun e => decide (e.1 = k'))
  | []      => by simp [place, Ne.symm h]
  | e :: es => by
    unfold place
    split
    · rw [List.find?_cons_of_neg (by simpa using Ne.symm h)]
    · split
      · rename_i hk
        rw [List.find?_cons_of_neg (by simpa using Ne.symm h),
          List.find?_cons_of_neg (by rw [← hk]; simpa using Ne.symm h)]
      · rw [List.find?_cons, List.find?_cons, find_place_of_ne h]

@[simp] theorem find_set_self (m : OrdMap κ β) (k : κ) (x : β) : (m.set k x).find k = some x :=
  find_place_self k x m.entries

theorem find_set_of_ne (m : OrdMap κ β) {k k' : κ} (h : k' ≠ k) (x : β) : (m.set k x).find k' = m.find k' :=
  congrArg (Option.map Prod.snd) (find_place_of_ne h x m.entries)

end OrdMap
