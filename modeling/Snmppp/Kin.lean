import Snmppp.Oid
import Snmppp.Stem
/-!
# Kin — parents and children of an OID (OID.cpp)

`isChildOf` compares value by value up to the length of the parent, `parent` truncates the vector, and the immediate
forms compare the lengths first.  They are one tree order, the one of `Stem` on the vectors without its root
(`OID.tree_order`): the empty OID is nobody's parent.
-/
namespace Snmppp
namespace OID

/-! ## The relations -/

/-- The loop looks for a mismatch among the values of `rhs`. -/
def isChildOf (o rhs : OID) : Bool :=
  if rhs.size > 0 ∧ o.size > 0 then
    if rhs.size < o.size then (List.range rhs.size).all (fun idx => decide (o.v[idx]? = rhs.v[idx]?))
    else false
  else false

def isParentOf (o rhs : OID) : Bool := rhs.isChildOf o

def isImmediateChildOf (o rhs : OID) : Bool := decide (o.size = rhs.size + 1) && o.isChildOf rhs

def isImmediateParentOf (o rhs : OID) : Bool := rhs.isImmediateChildOf o

def parent (o : OID) (level : Nat) : OID :=
  if level ≥ o.size then o.clear else ⟨o.v.take (o.size - level)⟩

/-! ## What they compute -/

theorem parent_v (o : OID) (level : Nat) : (o.parent level).v = o.v.rdrop level := by
  unfold parent
  split
  · rename_i h
    have hzero : o.v.length - level = 0 := Nat.sub_eq_zero_of_le h
    rw [List.rdrop, hzero, List.take_zero]
    rfl
  · rfl

theorem parent_eq_iff {a b : OID} {level : Nat} : a.parent level = b ↔ a.v.rdrop level = b.v := by
  rw [← parent_v]
  exact ⟨congrArg OID.v, congrArg OID.mk⟩

theorem isChildOf_iff {a b : OID} : a.isChildOf b = true ↔ b.v ≠ [] ∧ Stem.Over a.v b.v := by
  have hpos : b.size > 0 ↔ b.v ≠ [] := List.length_pos_iff
  have hsame : (List.range b.size).all (fun idx => decide (a.v[idx]? = b.v[idx]?)) = true ↔ b.v <+: a.v := by
    rw [List.prefix_iff_getElem?, List.all_eq_true]
    constructor
    · intro h idx hidx
      rw [← List.getElem?_eq_getElem hidx]
      simpa using h idx (List.mem_range.2 hidx)
    · intro h idx hidx
      have hidx := List.mem_range.1 hidx
      rw [decide_eq_true_iff, h idx hidx, List.getElem?_eq_getElem hidx]
  have hsmaller : Stem.Over a.v b.v ↔ b.v <+: a.v ∧ b.size < a.size := Iff.rfl
  unfold isChildOf
  rw [hsmaller, ← hpos]
  by_cases hsizes : b.size > 0 ∧ a.size > 0
  · rw [if_pos hsizes]
    by_cases hlt : b.size < a.size
    · rw [if_pos hlt, hsame]
      exact ⟨fun hp => ⟨hsizes.1, hp, hlt⟩, fun h => h.2.1⟩
    · rw [if_neg hlt]
      exact ⟨fun hf => absurd hf Bool.false_ne_true, fun h => absurd h.2.2 hlt⟩
  · rw [if_neg hsizes]
    exact ⟨fun hf => absurd hf Bool.false_ne_true,
      fun h => absurd ⟨h.1, Nat.lt_of_le_of_lt (Nat.zero_le _) h.2.2⟩ hsizes⟩

theorem isImmediateChildOf_iff {a b : OID} : a.isImmediateChildOf b = true ↔ b.v ≠ [] ∧ Stem.Next a.v b.v := by
  unfold isImmediateChildOf
  rw [Bool.and_eq_true, decide_eq_true_iff, isChildOf_iff, Stem.over_iff_append]
  constructor
  · rintro ⟨hsize, hne, c, -, hv⟩
    have hlen : c.length = 1 := by
      rw [OID.size, OID.size, hv, List.length_append] at hsize
      omega
    obtain ⟨x, rfl⟩ := List.length_eq_one_iff.1 hlen
    exact ⟨hne, x, hv⟩
  · rintro ⟨hne, x, hv⟩
    refine ⟨?_, hne, [x], List.cons_ne_nil x [], hv⟩
    rw [OID.size, OID.size, hv, List.length_append, List.length_singleton]

/-! ## One tree order -/

theorem isChildOf_iff_parent {a b : OID} :
    a.isChildOf b = true ↔ b.empty = false ∧ ∃ k, 1 ≤ k ∧ k < a.size ∧ a.parent k = b := by
  rw [isChildOf_iff, Stem.over_iff_rdrop, OID.empty, List.isEmpty_eq_false_iff]
  constructor
  · rintro ⟨hne, k, hk, hle, hv⟩
    refine ⟨hne, k, hk, ?_, parent_eq_iff.2 hv⟩
    have hlen := Stem.length_rdrop a.v k
    rw [hv] at hlen
    have := List.length_pos_iff.2 hne
    rw [OID.size]
    omega
  · rintro ⟨hne, k, hk, hlt, hp⟩
    exact ⟨hne, k, hk, Nat.le_of_lt hlt, parent_eq_iff.1 hp⟩

theorem isImmediateChildOf_iff_parent {a b : OID} : a.isImmediateChildOf b = true ↔ 2 ≤ a.size ∧ a.parent 1 = b := by
  rw [isImmediateChildOf_iff, Stem.next_iff_rdrop, parent_eq_iff]
  constructor
  · rintro ⟨hne, -, hv⟩
    have hlen := Stem.length_rdrop a.v 1
    rw [hv] at hlen
    have := List.length_pos_iff.2 hne
    exact ⟨by rw [OID.size]; omega, hv⟩
  · rintro ⟨hsize, hv⟩
    have hlen := Stem.length_rdrop a.v 1
    rw [hv] at hlen
    rw [OID.size] at hsize
    exact ⟨List.ne_nil_of_length_pos (by omega), List.ne_nil_of_length_pos (by omega), hv⟩

theorem parent_parent (a : OID) (j k : Nat) : (a.parent j).parent k = a.parent (j + k) := by
  rw [parent_eq_iff, parent_v, parent_v, Stem.rdrop_rdrop]

theorem isChildOf_iff_transGen {a b : OID} :
    a.isChildOf b = true ↔ Relation.TransGen (fun x y : OID => x.isImmediateChildOf y = true) a b := by
  constructor
  · intro h
    obtain ⟨hne, hover⟩ := isChildOf_iff.1 h
    refine Relation.TransGen.lift OID.mk (fun x y hxy => ?_) a.v b.v (Stem.transGen_next hover)
    have hy : y ≠ [] := fun hy => hne (List.prefix_nil.1 (hy ▸ hxy.2))
    exact isImmediateChildOf_iff.2 ⟨hy, hxy.1⟩
  · intro h
    have hstep : ∀ {x y : OID}, x.isImmediateChildOf y = true → x.isChildOf y = true := fun hxy =>
      ((Bool.and_eq_true _ _).mp hxy).2
    induction h with
    | single hab => exact hstep hab
    | tail _ hbc ih =>
      have hbc := isChildOf_iff.1 (hstep hbc)
      exact isChildOf_iff.2 ⟨hbc.1, (isChildOf_iff.1 ih).2.trans hbc.2⟩

/-- **The relations are one tree order**: a child is what a proper, non-empty parent is taken of, an immediate child
one level down; the parents of an OID are in line, and children are reached by immediate steps. -/
theorem tree_order :
    (∀ a b : OID, a.isChildOf b = true ↔ b.empty = false ∧ ∃ k, 1 ≤ k ∧ k < a.size ∧ a.parent k = b) ∧
    (∀ a b : OID, a.isImmediateChildOf b = true ↔ 2 ≤ a.size ∧ a.parent 1 = b) ∧
    (∀ a b : OID, a.isParentOf b = b.isChildOf a ∧ a.isImmediateParentOf b = b.isImmediateChildOf a) ∧
    (∀ a : OID, a.isChildOf a = false) ∧
    (∀ a b c : OID, a.isChildOf b = true → b.isChildOf c = true → a.isChildOf c = true) ∧
    (∀ (a : OID) (j k : Nat), (a.parent j).parent k = a.parent (j + k)) ∧
    (∀ a b c : OID, c.isChildOf a = true → c.isChildOf b = true → a ≠ b →
      a.isChildOf b = true ∨ b.isChildOf a = true) ∧
    ∀ a b : OID, a.isChildOf b = true ↔ Relation.TransGen (fun x y : OID => x.isImmediateChildOf y = true) a b := by
  refine ⟨fun a b => isChildOf_iff_parent, fun a b => isImmediateChildOf_iff_parent, fun a b => ⟨rfl, rfl⟩,
    fun a => ?_, fun a b c hab hbc => ?_, parent_parent, fun a b c ha hb hne => ?_, fun a b => isChildOf_iff_transGen⟩
  · rw [← Bool.not_eq_true, isChildOf_iff]
    exact fun h => Stem.over_irrefl _ h.2
  · have hbc := isChildOf_iff.1 hbc
    exact isChildOf_iff.2 ⟨hbc.1, (isChildOf_iff.1 hab).2.trans hbc.2⟩
  · have ha := isChildOf_iff.1 ha
    have hb := isChildOf_iff.1 hb
    rcases Stem.over_total ha.2 hb.2 (fun hv => hne (congrArg OID.mk hv)) with h | h
    · exact .inl (isChildOf_iff.2 ⟨hb.1, h⟩)
    · exact .inr (isChildOf_iff.2 ⟨ha.1, h⟩)

end OID
end Snmppp
