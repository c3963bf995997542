import Snmppp.OrdMap
import Mathlib.Logic.Function.Iterate
/-!
# Cursor — walking an ordered map by its keys

A cursor is a key, in the map or not.  `next` is the first entry behind it and `advance` moves it there; behind the last
entry it stays.  The entries that so many moves pass are the entries behind the start, in order (`OrdMap.next_advance`),
and a cursor at the end never leaves it (`OrdMap.advance_of_length_le`).
-/
namespace OrdMap

variable {κ β : Type} [LinearOrder κ]

/-- The entries behind `k`. -/
def after (m : OrdMap κ β) (k : κ) : List (κ × β) := m.entries.filter (fun e => decide (k < e.1))

/-- The first entry behind `k`. -/
def next (m : OrdMap κ β) (k : κ) : Option (κ × β) := (m.after k).head?

/-- The key of the first entry behind `k`, or `k` when there is none. -/
def advance (m : OrdMap κ β) (k : κ) : κ := ((m.next k).map Prod.fst).getD k

variable {m : OrdMap κ β} {k : κ} {e : κ × β}

theorem mem_after : e ∈ m.after k ↔ e ∈ m.entries ∧ k < e.1 := by
  rw [after, List.mem_filter, decide_eq_true_iff]

theorem ascending_after (m : OrdMap κ β) (k : κ) : (m.after k).Pairwise (fun a b => a.1 < b.1) :=
  m.ascending.filter _

theorem after_eq_nil_of_next (h : m.next k = none) : m.after k = [] := List.head?_eq_none_iff.1 h

theorem lt_of_next (h : m.next k = some e) : k < e.1 := (mem_after.1 (List.mem_of_head? h)).2

theorem advance_of_none (h : m.next k = none) : m.advance k = k := by
  rw [advance, h]
  rfl

theorem advance_of_some (h : m.next k = some e) : m.advance k = e.1 := by
  rw [advance, h]
  rfl

/-- **One move passes one entry.** -/
theorem after_of_next (h : m.next k = some e) : m.after k = e :: m.after e.1 := by
  obtain ⟨rest, hrest⟩ := List.head?_eq_some_iff.1 h
  have hasc := m.ascending_after k
  rw [hrest, List.pairwise_cons] at hasc
  have hlt := lt_of_next h
  have hstep : m.after e.1 = (m.after k).filter (fun x => decide (e.1 < x.1)) := by
    rw [after, after, List.filter_filter]
    refine List.filter_congr (fun x _ => ?_)
    by_cases hx : e.1 < x.1
    · rw [decide_eq_true hx, decide_eq_true (lt_trans hlt hx), Bool.and_self]
    · rw [decide_eq_false hx, Bool.false_and]
  rw [hstep, hrest, List.filter_cons_of_neg (by simp), List.filter_eq_self.2 (fun x hx => by simpa using hasc.1 x hx)]

theorem after_advance (m : OrdMap κ β) (k : κ) : m.after (m.advance k) = (m.after k).tail := by
  cases h : m.next k with
  | none =>
    rw [advance_of_none h, after_eq_nil_of_next h]
    rfl
  | some e =>
    rw [advance_of_some h, after_of_next h]
    rfl

theorem after_advance_iterate (m : OrdMap κ β) (k : κ) : ∀ i, m.after (m.advance^[i] k) = (m.after k).drop i
  | 0     => rfl
  | i + 1 => by
    rw [Function.iterate_succ_apply', after_advance, after_advance_iterate m k i, List.tail_drop]

/-- **The entries that the moves of a cursor pass are the entries behind its start, in order.** -/
theorem next_advance (m : OrdMap κ β) (k : κ) (i : Nat) : m.next (m.advance^[i] k) = (m.after k)[i]? := by
  rw [next, after_advance_iterate, List.head?_drop]

/-- After so many moves the cursor is at the entry passed last. -/
theorem advance_of_getElem {i : Nat} (h : (m.after k)[i]? = some e) : m.advance^[i + 1] k = e.1 := by
  rw [Function.iterate_succ_apply']
  exact advance_of_some ((m.next_advance k i).trans h)

/-- **At the end a cursor stays.** -/
theorem advance_of_length_le (m : OrdMap κ β) (k : κ) {i : Nat} (h : (m.after k).length ≤ i) :
    m.advance^[i] k = ((m.after k).getLast?.map Prod.fst).getD k := by
  induction i, h using Nat.le_induction with
  | base =>
    cases hlen : (m.after k).length with
    | zero =>
      rw [List.length_eq_zero_iff.1 hlen]
      rfl
    | succ i =>
      obtain ⟨e, he⟩ : ∃ e, (m.after k)[i]? = some e :=
        ⟨_, List.getElem?_eq_getElem (hlen ▸ Nat.lt_succ_self i)⟩
      rw [advance_of_getElem he, List.getLast?_eq_getElem?, hlen, Nat.add_sub_cancel, he]
      rfl
  | succ i hi ih =>
    have hend : m.next (m.advance^[i] k) = none := by
      rw [next_advance, List.getElem?_eq_none hi]
    rw [Function.iterate_succ_apply', advance_of_none hend, ih]

end OrdMap
