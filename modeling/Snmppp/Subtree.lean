import Snmppp.Kin
import Snmppp.Span
import Snmppp.Views
import Mathlib.Order.Monotone.Basic
/-!
# Subtree — the children of an OID are one run of the order (OID.hpp, OID.cpp)

`operator<` compares the vectors and `isChildOf` the values up to the parent's length.  An OID and its children are one
span of the order, so in anything ascending (a `SetOID`, the keys of a `MapOidVarList`, the OIDs a walk is given) the
children of an OID directly follow it, and the first OID that is no child ends them (`OID.subtree_run`).
-/
namespace Snmppp
namespace OID

/-- `operator+( const oid )`, and what `operator+=( const oid )` leaves. -/
def plus (o : OID) (n : oid) : OID := ⟨o.v ++ [n]⟩

/-- `b` or one of its children. -/
def Within (b x : OID) : Prop := x = b ∨ x.isChildOf b = true

/-- In `l`, the children of `b` are what directly follows `b`: none before it, and none from the first OID on that is
no child. -/
def FollowedByChildren (b : OID) (l : List OID) : Prop :=
  ∀ pre post : List OID, l = pre ++ b :: post →
    l.filter (·.isChildOf b) = post.takeWhile (·.isChildOf b) ∧
    ∀ x ∈ post.dropWhile (·.isChildOf b), x.isChildOf b = false

theorem lt_of_isChildOf {a b : OID} (h : a.isChildOf b = true) : b < a := (isChildOf_iff.1 h).2.lt

theorem within_iff {b x : OID} (hb : b.v ≠ []) : Within b x ↔ b.v <+: x.v := by
  unfold Within
  rw [isChildOf_iff]
  constructor
  · rintro (rfl | h)
    · exact List.prefix_refl _
    · exact h.2.1
  · intro h
    by_cases hlen : b.v.length < x.v.length
    · exact .inr ⟨hb, h, hlen⟩
    · exact .inl (congrArg OID.mk (h.eq_of_length_le (Nat.le_of_not_lt hlen))).symm

theorem not_within_of_lt {b c : OID} (hlt : b < c) (hc : c.isChildOf b = false) : ¬ Within b c := by
  rintro (rfl | h)
  · exact lt_irrefl _ hlt
  · exact Bool.false_ne_true (hc.symm.trans h)

/-- **The children of an OID end for good**: an OID behind it that is no child is behind every child. -/
theorem lt_of_not_isChildOf {a b c : OID} (hlt : b < c) (hc : c.isChildOf b = false) (ha : a.isChildOf b = true) :
    a < c := by
  obtain ⟨hb, hover⟩ := isChildOf_iff.1 ha
  have hnot : ¬ b.v <+: c.v := fun h => not_within_of_lt hlt hc ((within_iff hb).2 h)
  exact Stem.lt_of_not_begins hover.1 hnot hlt

theorem within_of_le_of_le {b x y z : OID} (hxy : x ≤ y) (hyz : y ≤ z) (hx : Within b x) (hz : Within b z) :
    Within b y := by
  by_cases hb : b.v = []
  · -- the empty OID has no children
    have halone : ∀ {u : OID}, Within b u → u = b := fun hu => hu.resolve_right (fun h => (isChildOf_iff.1 h).1 hb)
    rw [halone hx] at hxy
    rw [halone hz] at hyz
    exact .inl (le_antisymm hyz hxy)
  · rw [within_iff hb] at hx hz ⊢
    exact Stem.prefix_of_le_of_le hx hz hxy hyz

theorem plus_lt_plus (b : OID) {n m : oid} (h : n < m) : b.plus n < b.plus m :=
  Stem.append_cons_lt_append_cons b.v [] [] h

theorem isChildOf_plus_lt (b : OID) {n m : oid} (h : n < m) {a : OID} (ha : a.isChildOf (b.plus n) = true) :
    a < b.plus m := by
  obtain ⟨-, hover⟩ := isChildOf_iff.1 ha
  obtain ⟨c, -, hc⟩ := Stem.over_iff_append.1 hover
  have hlt : b.v ++ n :: c < b.v ++ m :: [] := Stem.append_cons_lt_append_cons b.v c [] h
  have hlast : a.v = b.v ++ n :: c := by rw [hc, plus, List.append_assoc, List.singleton_append]
  rw [← hlast] at hlt
  exact hlt

theorem lt_succ_of_lt_max {n : oid} (h : n.toNat < 2 ^ 64 - 1) : n < n + 1 := by
  rw [UInt64.lt_iff_toNat_lt, UInt64.toNat_add, UInt64.toNat_one, Nat.mod_eq_of_lt (by omega)]
  exact Nat.lt_succ_self _

theorem followedByChildren_of_ascending (b : OID) {l : List OID} (hl : l.Pairwise (· < ·)) :
    b.FollowedByChildren l := by
  rintro pre post rfl
  exact Span.follows_of_span (p := (·.isChildOf b)) (fun _ => lt_of_isChildOf)
    (fun _ hlt hc _ => lt_of_not_isChildOf hlt hc) hl

theorem followedByChildren_elems (b : OID) (s : SetOID) : b.FollowedByChildren s.elems :=
  followedByChildren_of_ascending b s.ascending

theorem followedByChildren_keys (b : OID) (m : MapOidVarList) : b.FollowedByChildren m.keys :=
  followedByChildren_of_ascending b (List.pairwise_map.2 m.ascending)

/-- A walk that goes up leaves the children of an OID it passed once and for all. -/
theorem not_isChildOf_of_walk {b : OID} {w : Nat → OID} (hup : ∀ i, w i < w (i + 1)) {k i j : Nat} (hk : w k = b)
    (hi : k < i) (hout : (w i).isChildOf b = false) (hj : i ≤ j) : (w j).isChildOf b = false := by
  have hmono : StrictMono w := strictMono_nat_of_lt_succ hup
  have hlt : b < w i := hk ▸ hmono hi
  rw [← Bool.not_eq_true]
  intro hchild
  exact not_lt_of_ge (hmono.monotone hj) (lt_of_not_isChildOf hlt hout hchild)

/-- **A subtree is one contiguous run in OID order**: the children of `b` are greater than `b`, nothing else stands
among `b` and them, whatever is greater than `b` and no child is greater than every child, and `b + n` with its
children comes before `b + ( n + 1 )`.  So in whatever is ascending the children of `b` directly follow `b`. -/
theorem subtree_run (b : OID) :
    (∀ a : OID, a.isChildOf b = true → b < a) ∧
    (∀ x y z : OID, x ≤ y → y ≤ z → Within b x → Within b z → Within b y) ∧
    (∀ c : OID, b < c → c.isChildOf b = false → ∀ a : OID, a.isChildOf b = true → a < c) ∧
    (∀ n : oid, n.toNat < 2 ^ 64 - 1 →
      b.plus n < b.plus (n + 1) ∧ ∀ a : OID, a.isChildOf (b.plus n) = true → a < b.plus (n + 1)) ∧
    (∀ l : List OID, l.Pairwise (· < ·) → b.FollowedByChildren l) ∧
    (∀ s : SetOID, b.FollowedByChildren s.elems) ∧
    (∀ m : MapOidVarList, b.FollowedByChildren m.keys) ∧
    ∀ w : Nat → OID, (∀ i, w i < w (i + 1)) → ∀ k i : Nat, w k = b → k < i → (w i).isChildOf b = false →
      ∀ j, i ≤ j → (w j).isChildOf b = false := by
  refine ⟨fun a => lt_of_isChildOf, fun x y z => within_of_le_of_le, fun c hlt hc a => lt_of_not_isChildOf hlt hc,
    fun n hn => ⟨?_, fun a ha => ?_⟩, fun l => followedByChildren_of_ascending b, followedByChildren_elems b,
    followedByChildren_keys b, fun w hup k i hk hi hout j => not_isChildOf_of_walk hup hk hi hout⟩
  · exact plus_lt_plus b (lt_succ_of_lt_max hn)
  · exact isChildOf_plus_lt b (lt_succ_of_lt_max hn) ha

end OID
end Snmppp
