import Snmppp.MibName
/-!
# MibExact — two tests for an exact match in the MIB

`getTree` rebuilds the path of the node found and compares it with the OID; `nameFromMib` compares two lengths.  Both
accept a node exactly when its path spells the OID, because the path of the node found never leaves the OID
(`OID.getTree_exact`, `OID.exact_iff_labels`), so they name the same node; where neither accepts one, the name ends with
the stored number (`OID.exact_tests_agree_iff`).
-/
namespace Snmppp

namespace Mib

/-- The path of the node at `t` spells `o` exactly. -/
def RootPath (mib : Mib) (t : TreePtr) (o : OID) : Prop :=
  ∃ c, mib.tree.Path (some t) c ∧ c.map TreeNode.subid = o.v

/-- **What `get_tree` finds**: the deepest node whose path spells the first values of `o`, and nothing only when there
is none; `c` is its path. -/
structure Finds (mib : Mib) (o : OID) (c : List TreeNode) : Prop extends Spells mib o c where
  deepest : ∀ t c', mib.tree.Path (some t) c' → c'.map TreeNode.subid <+: o.v → c'.length ≤ c.length

theorem isoOrg_finds (n : oid) : ∃ c, isoOrg.Finds ⟨[1, 3, n]⟩ c :=
  ⟨_, ⟨.node rfl (.node rfl .top), ⟨[n], rfl⟩⟩, fun _ _ hpath _ => hpath.length_le.1⟩

end Mib

namespace OID

variable {mib : Mib} {o : OID} {c : List TreeNode} {L : List (List Char)}

/-! ## The test of `getTree` -/

/-- **A node on the way to the OID is the OID's when it is as deep.** -/
theorem spells_iff_length (hc : mib.Spells o c) : c.map TreeNode.subid = o.v ↔ c.length = o.size := by
  rw [← List.length_map TreeNode.subid]
  exact ⟨congrArg List.length, hc.spells.eq_of_length⟩

theorem found_of_spells (ho : o.empty = false) (hc : mib.Spells o c) (h : c.map TreeNode.subid = o.v) :
    ∃ t, mib.getTree o = some t ∧ mib.RootPath t o := by
  cases ht : mib.getTree o with
  | none =>
    have hpath := hc.path
    rw [ht] at hpath
    cases hpath
    exact absurd h.symm (v_ne_nil ho)
  | some t => exact ⟨t, rfl, c, by rw [← ht]; exact hc.path, h⟩

/-- **The node found is the OID's when any node is.** -/
theorem rootPath_iff (ho : o.empty = false) (hc : mib.Finds o c) :
    (∃ t, mib.RootPath t o) ↔ c.map TreeNode.subid = o.v := by
  constructor
  · rintro ⟨t, c', hpath, hspells⟩
    have hdeep := hc.deepest t c' hpath (hspells ▸ List.prefix_rfl)
    have hlen := congrArg List.length hspells
    have hle := hc.spells.length_le
    rw [List.length_map] at hlen hle
    rw [spells_iff_length hc.toSpells]
    exact Nat.le_antisymm hle (by rw [size, ← hlen]; exact hdeep)
  · intro h
    obtain ⟨t, -, ht⟩ := found_of_spells ho hc.toSpells h
    exact ⟨t, ht⟩

/-- **`getTree( true )` ends** and accepts the node found when its path spells the OID. -/
theorem getTree_true (ho : o.empty = false) (hc : mib.Spells o c) :
    getTree mib true o = .ok (if c.map TreeNode.subid = o.v then mib.getTree o else none) := by
  have hup : subidsUp mib (mib.getTree o) = .ok (c.map TreeNode.subid).reverse := by
    rw [subidsUp, Forest.climb_all _ hc.path (fun _ _ => rfl)]
    rfl
  rw [getTree, if_neg (Bool.eq_false_iff.1 ho)]
  simp only [if_true]
  rw [hup]
  change Except.ok (if o.v ≠ (c.map TreeNode.subid).reverse.reverse then none else mib.getTree o) = _
  rw [List.reverse_reverse]
  by_cases h : c.map TreeNode.subid = o.v
  · rw [if_neg (not_not_intro h.symm), if_pos h]
  · rw [if_pos (Ne.symm h), if_neg h]

theorem getTree_false (ho : o.empty = false) : getTree mib false o = .ok (mib.getTree o) := by
  rw [getTree, if_neg (Bool.eq_false_iff.1 ho)]
  rfl

/-- **What `getTree( true )` finds** is a node whose path spells the OID, and it finds one when there is one. -/
theorem getTree_exact (ho : o.empty = false) (hc : mib.Finds o c) :
    ∃ r, getTree mib true o = .ok r ∧ (r ≠ none ↔ ∃ t, mib.RootPath t o) ∧
      ∀ t, r = some t → mib.RootPath t o ∧ getTree mib false o = .ok (some t) := by
  refine ⟨_, getTree_true ho hc.toSpells, ?_⟩
  rw [rootPath_iff ho hc]
  by_cases h : c.map TreeNode.subid = o.v
  · obtain ⟨t, hfound, ht⟩ := found_of_spells ho hc.toSpells h
    rw [if_pos h, getTree_false ho, hfound]
    refine ⟨iff_of_true (by simp) h, fun t' ht' => ?_⟩
    cases ht'
    exact ⟨ht, rfl⟩
  · rw [if_neg h]
    exact ⟨iff_of_false (by simp) h, fun t ht => by cases ht⟩

/-! ## The test of `nameFromMib` -/

/-- **The three names that show the last component show the same one.** -/
theorem last_components (ho : o.empty = false) (hlab : mib.Labelled) (hL : mib.LabelsOf o L) :
    ∃ leaf, (if L.length = o.size then L else o.v.map num).getLast? = some leaf ∧
      nameFromMib mib .kLeafOnly o = .ok leaf ∧
      (∃ front, front.length + 1 = o.size ∧ nameFromMib mib .kPartial o = .ok (joined (front ++ [leaf]))) ∧
      (∃ front, front.length + 1 = o.size ∧ nameFromMib mib .kFull o = .ok (joined (front ++ [leaf]))) := by
  have hfound := namesFound_eq hlab hL
  have hlen := length_labels hL
  have hpos := size_pos ho
  obtain ⟨leaf, hleaf, hpart, honly⟩ := nameFromMib_last ho hfound
  have hfull := nameFromMib_all (.inl rfl) ho (by rw [lookedUp_of_ne (by decide)]; exact hfound) hlen
  refine ⟨leaf, hleaf, honly, ⟨_, ?_, hpart⟩, ?_⟩
  · rw [List.length_dropLast, List.length_map]
    exact Nat.sub_add_cancel hpos
  · obtain ⟨front, hfront⟩ := List.getLast?_eq_some_iff.1 ((getLast_parts o hlen).trans hleaf)
    have hsize := congrArg List.length hfront
    rw [List.length_append, List.length_drop, List.length_map, List.length_append, List.length_singleton] at hsize
    refine ⟨front, ?_, by rw [hfull, hfront]⟩
    unfold size at hlen ⊢
    omega

/-- What the last component is to be: the label of the node `getTree( true )` finds, or, when it finds none, the last
number. -/
def LeafName (mib : Mib) (o : OID) (x : List Char) : Prop :=
  match getTree mib true o with
  | .ok (some t) => ∃ n, mib.tree.nodes[t]? = some n ∧ n.label = some x
  | .ok none     => ∃ n, o.v.getLast? = some n ∧ x = Nat.toDigits 10 n.toNat
  | .error _     => False

theorem leafName_iff (ho : o.empty = false) (hc : mib.Finds o c) (hL : L.map some = c.map TreeNode.label)
    {leaf : List Char} (hleaf : (if L.length = o.size then L else o.v.map num).getLast? = some leaf) :
    LeafName mib o leaf ↔ (∃ t, mib.RootPath t o) ∨ ∀ n, o.v.getLast? = some n → n.toNat < 10 ^ 9 := by
  have hlen : L.length = c.length := by
    have h := congrArg List.length hL
    rwa [List.length_map, List.length_map] at h
  rw [rootPath_iff ho hc, LeafName, getTree_true ho hc.toSpells]
  by_cases h : c.map TreeNode.subid = o.v
  · obtain ⟨t, hfound, -⟩ := found_of_spells ho hc.toSpells h
    rw [if_pos h, hfound]
    refine iff_of_true ?_ (.inl h)
    have hpath := hc.path
    rw [hfound] at hpath
    obtain ⟨n, hn, hlast⟩ := hpath.last
    refine ⟨n, hn, ?_⟩
    rw [if_pos (hlen.trans ((spells_iff_length hc.toSpells).1 h))] at hleaf
    have hlabel := congrArg List.getLast? hL
    rw [List.getLast?_map, List.getLast?_map, hleaf, hlast] at hlabel
    exact (Option.some.inj hlabel).symm
  · rw [if_neg h]
    rw [if_neg (fun hc' => h ((spells_iff_length hc.toSpells).2 (hlen.symm.trans hc'))), List.getLast?_map,
      Option.map_eq_some_iff] at hleaf
    obtain ⟨n, hn, rfl⟩ := hleaf
    rw [hn]
    constructor
    · rintro ⟨m, hm, hnum⟩
      cases hm
      refine .inr (fun m hm => ?_)
      cases hm
      exact (num_eq_iff n).1 hnum
    · intro hsmall
      exact ⟨n, rfl, num_of_lt (hsmall.resolve_left h n rfl)⟩

/-! ## The tests agree -/

/-- **The two tests agree**: on which node is the OID's, and on the name that shows it. -/
structure ExactTestsAgree (mib : Mib) (o : OID) : Prop where
  getTree   : ∃ r, OID.getTree mib true o = .ok r ∧ (r ≠ none ↔ ∃ t, mib.RootPath t o) ∧
    ∀ t, r = some t → mib.RootPath t o ∧ OID.getTree mib false o = .ok (some t)
  kLeafOnly : ∃ x, LeafName mib o x ∧ nameFromMib mib .kLeafOnly o = .ok x
  kPartial  : ∃ x front, LeafName mib o x ∧ front.length + 1 = o.size ∧
    nameFromMib mib .kPartial o = .ok (joined (front ++ [x]))
  kFull     : ∃ x front, LeafName mib o x ∧ front.length + 1 = o.size ∧
    nameFromMib mib .kFull o = .ok (joined (front ++ [x]))

/-- **The two tests agree, and name the last component, exactly when there is a node for the OID or its last value has
at most nine digits**: the number stored for it holds no more. -/
theorem exact_tests_agree_iff (mib : Mib) (hlab : mib.Labelled) (o : OID) (ho : o.empty = false)
    (hget : ∃ c, mib.Finds o c) :
    ExactTestsAgree mib o ↔ (∃ t, mib.RootPath t o) ∨ ∀ n, o.v.getLast? = some n → n.toNat < 10 ^ 9 := by
  obtain ⟨c, hc⟩ := hget
  obtain ⟨L, hL⟩ := exists_labels hlab (fun _ => ⟨c, hc.toSpells⟩)
  obtain ⟨leaf, hleaf, honly, ⟨front, hfront, hpart⟩, ⟨front', hfront', hfull⟩⟩ := last_components ho hlab hL
  have hLc : L.map some = c.map TreeNode.label := by
    rcases hL with ⟨he, -⟩ | ⟨-, c', hc', hLc⟩
    · rw [ho] at he
      cases he
    · rw [hc.path.unique hc'.path, hLc]
  rw [← leafName_iff ho hc hLc hleaf]
  constructor
  · intro h
    obtain ⟨x, hx, hrun⟩ := h.kLeafOnly
    cases honly.symm.trans hrun
    exact hx
  · intro h
    exact {
      getTree   := getTree_exact ho hc
      kLeafOnly := ⟨leaf, h, honly⟩
      kPartial  := ⟨leaf, front, h, hfront, hpart⟩
      kFull     := ⟨leaf, front', h, hfront', hfull⟩ }

theorem exact_tests_agree_witness :
    ExactTestsAgree Mib.isoOrg ⟨[1, 3, 6]⟩ ↔
      (∃ t, Mib.isoOrg.RootPath t ⟨[1, 3, 6]⟩) ∨ ∀ n, ([1, 3, 6] : List oid).getLast? = some n → n.toNat < 10 ^ 9 :=
  exact_tests_agree_iff Mib.isoOrg Mib.isoOrg_labelled ⟨[1, 3, 6]⟩ rfl (Mib.isoOrg_finds 6)

/-- No node for the OID, and a last value of ten digits: the name ends with the first nine. -/
theorem leaf_drops_digit :
    let o : OID := ⟨[1, 3, 4294967295]⟩
    Mib.isoOrg.Labelled ∧ (∃ c, Mib.isoOrg.Finds o c) ∧ getTree Mib.isoOrg true o = .ok none ∧
      nameFromMib Mib.isoOrg .kLeafOnly o = .ok "429496729".toList ∧ ¬ ExactTestsAgree Mib.isoOrg o := by
  refine ⟨Mib.isoOrg_labelled, Mib.isoOrg_finds _, by decide, by decide, fun h => ?_⟩
  obtain ⟨x, ⟨n, hn, rfl⟩, hrun⟩ := h.kLeafOnly
  cases hn
  exact absurd hrun (by decide)

end OID
end Snmppp
