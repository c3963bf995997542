import Mathlib.Data.List.DropRight
import Mathlib.Logic.Relation
import Mathlib.Tactic.Common
/-!
# Stem — lists as the paths of a tree

A list grows out of every shorter list it begins with (`Stem.Over`); `List.rdrop` goes back towards the root.  Going
back adds up (`Stem.rdrop_rdrop`), the stems of one list are in line (`Stem.over_total`), and a list grows out of
another by steps of one value each (`Stem.transGen_next`).
-/
namespace Stem

variable {α : Type} {a b c : List α}

/-- `a` grows out of `b`: it begins with `b` and is longer. -/
def Over (a b : List α) : Prop := b <+: a ∧ b.length < a.length

/-- `a` is `b` with one value behind it. -/
def Next (a b : List α) : Prop := ∃ x, a = b ++ [x]

theorem over_irrefl (a : List α) : ¬ Over a a := fun h => Nat.lt_irrefl _ h.2

theorem Over.trans (hab : Over a b) (hbc : Over b c) : Over a c :=
  ⟨hbc.1.trans hab.1, Nat.lt_trans hbc.2 hab.2⟩

theorem over_append (b : List α) {c : List α} (hc : c ≠ []) : Over (b ++ c) b := by
  have := List.length_pos_iff.2 hc
  exact ⟨List.prefix_append b c, by rw [List.length_append]; omega⟩

theorem over_iff_append : Over a b ↔ ∃ c, c ≠ [] ∧ a = b ++ c := by
  constructor
  · rintro ⟨⟨c, rfl⟩, hlt⟩
    refine ⟨c, fun hc => ?_, rfl⟩
    rw [hc, List.append_nil] at hlt
    exact Nat.lt_irrefl _ hlt
  · rintro ⟨c, hc, rfl⟩
    exact over_append b hc

/-! ## Going back -/

theorem length_rdrop (a : List α) (k : Nat) : (a.rdrop k).length = a.length - k := by
  rw [List.rdrop, List.length_take]
  omega

theorem rdrop_append_length (b c : List α) : (b ++ c).rdrop c.length = b := by
  rw [List.rdrop, List.length_append, Nat.add_sub_cancel, List.take_left]

theorem rdrop_rdrop (a : List α) (j k : Nat) : (a.rdrop j).rdrop k = a.rdrop (j + k) := by
  rw [List.rdrop, length_rdrop, List.rdrop, List.rdrop, List.take_take, Nat.sub_sub,
    Nat.min_eq_left (Nat.sub_le_sub_left (Nat.le_add_right j k) a.length)]

/-- **A list grows out of exactly what is left when some of its values are cut off.** -/
theorem over_iff_rdrop : Over a b ↔ ∃ k, 1 ≤ k ∧ k ≤ a.length ∧ a.rdrop k = b := by
  constructor
  · intro h
    obtain ⟨c, hc, rfl⟩ := over_iff_append.1 h
    have := List.length_pos_iff.2 hc
    exact ⟨c.length, this, by rw [List.length_append]; omega, rdrop_append_length b c⟩
  · rintro ⟨k, hk, hle, rfl⟩
    exact ⟨List.take_prefix _ _, by rw [length_rdrop]; omega⟩

theorem next_iff_rdrop : Next a b ↔ a ≠ [] ∧ a.rdrop 1 = b := by
  constructor
  · rintro ⟨x, rfl⟩
    exact ⟨by simp, rdrop_append_length b [x]⟩
  · rintro ⟨hne, rfl⟩
    exact ⟨a.getLast hne, by rw [List.rdrop, ← List.dropLast_eq_take, List.dropLast_concat_getLast]⟩

/-! ## The stems of one list -/

/-- **The stems of a list are in line.** -/
theorem over_total (ha : Over c a) (hb : Over c b) (hne : a ≠ b) : Over a b ∨ Over b a := by
  rcases List.prefix_or_prefix_of_prefix ha.1 hb.1 with h | h
  · exact .inr ⟨h, Nat.lt_of_le_of_ne h.length_le (fun hl => hne (h.eq_of_length hl))⟩
  · exact .inl ⟨h, Nat.lt_of_le_of_ne h.length_le (fun hl => hne (h.eq_of_length hl).symm)⟩

/-- **A list grows out of its stem one value at a time**, and stays above the stem on the way. -/
theorem transGen_next (h : Over a b) : Relation.TransGen (fun x y => Next x y ∧ b <+: y) a b := by
  obtain ⟨c, hc, rfl⟩ := over_iff_append.1 h
  clear h
  induction c using List.reverseRecOn with
  | nil => exact absurd rfl hc
  | append_singleton c x ih =>
    have hlast : Next (b ++ (c ++ [x])) (b ++ c) ∧ b <+: b ++ c :=
      ⟨⟨x, (List.append_assoc b c [x]).symm⟩, List.prefix_append b c⟩
    by_cases hnil : c = []
    · subst hnil
      rw [List.append_nil] at hlast
      exact .single hlast
    · exact .head hlast (ih hnil)

end Stem
