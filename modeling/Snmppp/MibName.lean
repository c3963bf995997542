import Snmppp.Mib
import Snmppp.OidText
/-!
# MibName — what `nameFromMib` renders

The node found for an OID has a path that spells the first values of the OID; the labels on the path take their places
and the numbers behind them stay (`OID.nameFromMib_renders`).  A number is what fits of it into nine characters, so
without a MIB the name is the number exactly when no value has more digits (`OID.names_are_numbers_iff`).
-/
namespace Snmppp

namespace Mib

/-- Every node has a label. -/
def Labelled (mib : Mib) : Prop := ∀ n ∈ mib.tree.nodes, ∃ l, n.label = some l

/-- `get_tree` finds for `o` nothing, or a node whose path spells the first values of `o`; `c` is the path. -/
structure Spells (mib : Mib) (o : OID) (c : List TreeNode) : Prop where
  path   : mib.tree.Path (mib.getTree o) c
  spells : c.map TreeNode.subid <+: o.v

/-- The labels, from the root down, on the path of the node found for `o`; the empty OID is not looked up. -/
def LabelsOf (mib : Mib) (o : OID) (L : List (List Char)) : Prop :=
  o.empty = true ∧ L = [] ∨ o.empty = false ∧ ∃ c, mib.Spells o c ∧ L.map some = c.map TreeNode.label

/-- No MIB file is installed. -/
def notInstalled : Mib where
  tree      := .ofList [] (by decide)
  getTree _ := none

/-- `.1` is `iso` and `.1.3` is `org`; no other node is known. -/
def isoOrg : Mib where
  tree      := .ofList [⟨some "iso".toList, 1, none⟩, ⟨some "org".toList, 3, some 0⟩] (by decide)
  getTree o :=
    match o.v with
    | 1 :: 3 :: _ => some 1
    | 1 :: _      => some 0
    | _           => none

theorem isoOrg_labelled : isoOrg.Labelled := by
  have hall : ∀ n ∈ isoOrg.tree.nodes, n.label.isSome = true := by decide
  intro n hn
  exact Option.isSome_iff_exists.1 (hall n hn)

end Mib

namespace OID

variable {mib : Mib} {o : OID} {L : List (List Char)}

/-! ## Finding the names -/

theorem exists_labels (hlab : mib.Labelled) (hget : o.empty = false → ∃ c, mib.Spells o c) :
    ∃ L, mib.LabelsOf o L := by
  by_cases ho : o.empty = true
  · exact ⟨[], .inl ⟨ho, rfl⟩⟩
  · rw [Bool.not_eq_true] at ho
    obtain ⟨c, hc⟩ := hget ho
    refine ⟨c.map (fun n => n.label.getD []), .inr ⟨ho, c, hc, ?_⟩⟩
    rw [List.map_map]
    apply List.map_congr_left
    intro n hn
    obtain ⟨l, hl⟩ := hlab n (hc.path.mem n hn)
    rw [Function.comp_apply, hl]
    rfl

theorem length_labels (h : mib.LabelsOf o L) : L.length ≤ o.size := by
  rcases h with ⟨-, rfl⟩ | ⟨-, c, hc, hL⟩
  · exact Nat.zero_le _
  · have hlen := congrArg List.length hL
    rw [List.length_map, List.length_map] at hlen
    have hle := hc.spells.length_le
    rw [List.length_map] at hle
    rw [hlen]
    exact hle

/-- **The label loop ends** and has collected the labels of the path backwards. -/
theorem namesFound_eq (hlab : mib.Labelled) (h : mib.LabelsOf o L) : namesFound mib o = .ok L.reverse := by
  rcases h with ⟨ho, rfl⟩ | ⟨ho, c, hc, hL⟩
  · rw [namesFound, if_pos ho]
    rfl
  · have hread : ∀ n ∈ mib.tree.nodes, n.label = some (n.label.getD []) := fun n hn => by
      obtain ⟨l, hl⟩ := hlab n hn
      rw [hl]
      rfl
    have hLc : L = c.map (fun n => n.label.getD []) := by
      have hget := congrArg (List.map (fun l : Option (List Char) => l.getD [])) hL
      rw [List.map_map, List.map_map] at hget
      exact (List.map_id L).symm.trans hget
    rw [namesFound, if_neg (Bool.eq_false_iff.1 ho), labelsUp, Forest.climb_all _ hc.path hread, ← hLc]
    rfl

/-! ## Building the name -/

theorem lookedUp_of_ne {lookup : ENameLookup} (h : lookup ≠ .kInverted) (o : OID) : o.lookedUp lookup = o := by
  rw [lookedUp, if_neg h, parent_eq_iff]
  exact List.rdrop_zero o.v

theorem buildName_all {parts : List (List Char)} (hne : parts ≠ []) :
    buildName parts parts.length 0 ['.'] = .ok (joined parts) := by
  cases parts with
  | nil => exact absurd rfl hne
  | cons s rest => exact buildName_eq [] s rest ['.']

theorem buildName_last (front : List (List Char)) (s : List Char) :
    buildName (front ++ [s]) (front ++ [s]).length front.length [] = .ok s := by
  rw [buildName_eq front s [] [], List.nil_append, joined, List.flatMap_nil, List.append_nil]

theorem nameFromMib_of_parts {lookup : ENameLookup} {parts : List (List Char)} (ho : o.empty = false)
    (hunknown : lookup ≠ .kUnknown) (hparts : nameParts mib lookup o = .ok parts) :
    nameFromMib mib lookup o =
      if lookup = .kLeafOnly then buildName parts o.size (o.size - 1) [] else buildName parts o.size 0 ['.'] := by
  rw [nameFromMib, if_neg (Bool.eq_false_iff.1 ho), if_neg hunknown, hparts]
  rfl

/-- **`kFull` and `kInverted`**: the names in front, the numbers behind them. -/
theorem nameFromMib_all {lookup : ENameLookup} (hlook : lookup = .kFull ∨ lookup = .kInverted) (ho : o.empty = false)
    (hfound : namesFound mib (o.lookedUp lookup) = .ok L.reverse) (hlen : L.length ≤ o.size) :
    nameFromMib mib lookup o = .ok (joined (L ++ (o.v.map num).drop L.length)) := by
  have hleaf : lookup ≠ .kLeafOnly := by rcases hlook with rfl | rfl <;> decide
  have hpart : lookup ≠ .kPartial := by rcases hlook with rfl | rfl <;> decide
  have hunknown : lookup ≠ .kUnknown := by rcases hlook with rfl | rfl <;> decide
  have hparts : nameParts mib lookup o = .ok (L ++ (o.v.map num).drop L.length) := by
    have hroom : L.reverse.length ≤ (o.v.map num).length := by
      rw [List.length_reverse, List.length_map]
      exact hlen
    have hcopy := copyNames_all hleaf hpart hroom
    rw [List.reverse_reverse, List.length_reverse] at hcopy
    rw [nameParts, hfound]
    exact hcopy
  have hsize : o.size = (L ++ (o.v.map num).drop L.length).length := by
    rw [List.length_append, List.length_drop, List.length_map]
    unfold size at hlen ⊢
    omega
  have hne : L ++ (o.v.map num).drop L.length ≠ [] := by
    rw [← List.length_pos_iff, ← hsize]
    exact size_pos ho
  rw [nameFromMib_of_parts ho hunknown hparts, if_neg hleaf, hsize, buildName_all hne]

/-- **The last component**: the last label when there is one for every value, and the number else. -/
theorem nameParts_last (ho : o.empty = false) (hfound : namesFound mib o = .ok L.reverse) :
    ∃ leaf, (if L.length = o.size then L else o.v.map num).getLast? = some leaf ∧
      ∀ lookup, lookup = .kLeafOnly ∨ lookup = .kPartial →
        nameParts mib lookup o = .ok ((o.v.map num).dropLast ++ [leaf]) := by
  have hne : o.v.map num ≠ [] := by
    rw [Ne, List.map_eq_nil_iff]
    exact v_ne_nil ho
  have hrun : ∀ lookup, lookup = .kLeafOnly ∨ lookup = .kPartial → nameParts mib lookup o
      = .ok (if L.length = o.size then (o.v.map num).dropLast ++ L.reverse.take 1 else o.v.map num) := by
    intro lookup hlook
    have hinverted : lookup ≠ .kInverted := by rcases hlook with rfl | rfl <;> decide
    have hcopy := copyNames_last hlook L.reverse hne
    rw [List.length_reverse, List.length_map] at hcopy
    rw [nameParts, lookedUp_of_ne hinverted, hfound]
    exact hcopy
  by_cases hlen : L.length = o.size
  · have hLne : L ≠ [] := by
      rw [← List.length_pos_iff, hlen]
      exact size_pos ho
    obtain ⟨front, leaf, rfl⟩ := (List.eq_nil_or_concat' L).resolve_left hLne
    refine ⟨leaf, by rw [if_pos hlen, List.getLast?_concat], fun lookup hlook => ?_⟩
    rw [hrun lookup hlook, if_pos hlen, List.reverse_append]
    rfl
  · refine ⟨(o.v.map num).getLast hne, by rw [if_neg hlen, List.getLast?_eq_some_getLast hne], fun lookup hlook => ?_⟩
    rw [hrun lookup hlook, if_neg hlen, List.dropLast_concat_getLast hne]

/-- **`kPartial` and `kLeafOnly`**: the numbers but for the last component, and the last component alone. -/
theorem nameFromMib_last (ho : o.empty = false) (hfound : namesFound mib o = .ok L.reverse) :
    ∃ leaf, (if L.length = o.size then L else o.v.map num).getLast? = some leaf ∧
      nameFromMib mib .kPartial o = .ok (joined ((o.v.map num).dropLast ++ [leaf])) ∧
      nameFromMib mib .kLeafOnly o = .ok leaf := by
  obtain ⟨leaf, hleaf, hparts⟩ := nameParts_last ho hfound
  have hpos := size_pos ho
  have hfront : ((o.v.map num).dropLast).length = o.size - 1 := by
    rw [List.length_dropLast, List.length_map]
    rfl
  have hlen : o.size = ((o.v.map num).dropLast ++ [leaf]).length := by
    rw [List.length_append, hfront, List.length_singleton]
    omega
  refine ⟨leaf, hleaf, ?_, ?_⟩
  · rw [nameFromMib_of_parts ho (by decide) (hparts _ (.inr rfl)), if_neg (by decide), hlen, buildName_all (by simp)]
  · rw [nameFromMib_of_parts ho (by decide) (hparts _ (.inl rfl)), if_pos rfl, ← hfront]
    have hlast := buildName_last (o.v.map num).dropLast leaf
    rwa [← hlen] at hlast

/-- The last of the parts `kFull` and `kInverted` are made of. -/
theorem getLast_parts (o : OID) (hlen : L.length ≤ o.size) :
    (L ++ (o.v.map num).drop L.length).getLast? = (if L.length = o.size then L else o.v.map num).getLast? := by
  have hnums : (o.v.map num).length = o.size := List.length_map num
  by_cases h : L.length = o.size
  · rw [if_pos h, h, ← hnums, List.drop_length, List.append_nil]
  · have hlt : ¬ (o.v.map num).length ≤ L.length := by omega
    have hdrop : (o.v.map num).drop L.length ≠ [] := by
      rw [Ne, List.drop_eq_nil_iff]
      exact hlt
    rw [if_neg h, List.getLast?_append_of_ne_nil _ hdrop, List.getLast?_drop, if_neg hlt]

/-- **The names of a labelled MIB**: in every mode `nameFromMib` ends, writes only to places that are there, and shows
the labels found for the OID it looks up with the numbers behind them. -/
theorem nameFromMib_renders (mib : Mib) (hlab : mib.Labelled) (v : OID) (hv : v.empty = false)
    (hget : ∀ o, o = v ∨ o = v.parent 1 → o.empty = false → ∃ c, mib.Spells o c) :
    let nums := v.v.map num
    ∃ L L', mib.LabelsOf v L ∧ mib.LabelsOf (v.parent 1) L' ∧ L.length ≤ v.size ∧ L'.length < v.size ∧
      nameFromMib mib .kFull v = .ok (joined (L ++ nums.drop L.length)) ∧
      nameFromMib mib .kInverted v = .ok (joined (L' ++ nums.drop L'.length)) ∧
      (L' ++ nums.drop L'.length).getLast? = nums.getLast? ∧
      ∃ leaf, (if L.length = v.size then L else nums).getLast? = some leaf ∧
        nameFromMib mib .kPartial v = .ok (joined (nums.dropLast ++ [leaf])) ∧
        nameFromMib mib .kLeafOnly v = .ok leaf := by
  intro nums
  obtain ⟨L, hL⟩ := exists_labels hlab (hget v (.inl rfl))
  obtain ⟨L', hL'⟩ := exists_labels hlab (hget (v.parent 1) (.inr rfl))
  have hpos := size_pos hv
  have hlen := length_labels hL
  have hlen' : L'.length < v.size := by
    have hle := length_labels hL'
    unfold size at hle hpos ⊢
    rw [parent_v, List.rdrop, List.length_take] at hle
    omega
  have hfull : v.lookedUp .kFull = v := lookedUp_of_ne (by decide) v
  have hinverted : v.lookedUp .kInverted = v.parent 1 := rfl
  refine ⟨L, L', hL, hL', hlen, hlen', ?_, ?_, ?_, nameFromMib_last hv (namesFound_eq hlab hL)⟩
  · exact nameFromMib_all (.inl rfl) hv (by rw [hfull]; exact namesFound_eq hlab hL) hlen
  · exact nameFromMib_all (.inr rfl) hv (by rw [hinverted]; exact namesFound_eq hlab hL') (Nat.le_of_lt hlen')
  · rw [getLast_parts v (Nat.le_of_lt hlen'), if_neg (Nat.ne_of_lt hlen')]

theorem nameFromMib_renders_witness :
    let v : OID := ⟨[1, 3, 6]⟩
    ∃ L L', Mib.isoOrg.LabelsOf v L ∧ Mib.isoOrg.LabelsOf (v.parent 1) L' ∧ L.length ≤ v.size ∧ L'.length < v.size ∧
      nameFromMib Mib.isoOrg .kFull v = .ok (joined (L ++ (v.v.map num).drop L.length)) ∧
      nameFromMib Mib.isoOrg .kInverted v = .ok (joined (L' ++ (v.v.map num).drop L'.length)) ∧
      (L' ++ (v.v.map num).drop L'.length).getLast? = (v.v.map num).getLast? ∧
      ∃ leaf, (if L.length = v.size then L else v.v.map num).getLast? = some leaf ∧
        nameFromMib Mib.isoOrg .kPartial v = .ok (joined ((v.v.map num).dropLast ++ [leaf])) ∧
        nameFromMib Mib.isoOrg .kLeafOnly v = .ok leaf :=
  nameFromMib_renders Mib.isoOrg Mib.isoOrg_labelled ⟨[1, 3, 6]⟩ rfl (fun o ho _ => by
    rcases ho with rfl | rfl
    · exact ⟨_, .node rfl (.node rfl .top), by decide⟩
    · exact ⟨_, .node rfl (.node rfl .top), by decide⟩)

/-! ## The numbers -/

theorem length_num_le (n : oid) : (num n).length ≤ 9 := by
  rw [num, snprintfLong, List.length_take]
  exact Nat.min_le_left _ _

theorem length_digits_le_iff (n : oid) : (Nat.toDigits 10 n.toNat).length ≤ 9 ↔ n.toNat < 10 ^ 9 :=
  Nat.length_toDigits_le_iff (by decide) (by decide)

/-- **A number is stored in full when it has at most nine digits.** -/
theorem num_of_lt {n : oid} (h : n.toNat < 10 ^ 9) : num n = Nat.toDigits 10 n.toNat := by
  have hint : n.toInt64.toInt = n.toNat := BitVec.toInt_eq_toNat_of_lt (by
    change 2 * n.toNat < 2 ^ 64
    omega)
  rw [num, snprintfLong, hint, if_neg (by omega), List.nil_append, Int.natAbs_natCast]
  exact List.take_of_length_le ((length_digits_le_iff n).2 h)

theorem num_eq_iff (n : oid) : num n = Nat.toDigits 10 n.toNat ↔ n.toNat < 10 ^ 9 := by
  constructor
  · intro h
    rw [← length_digits_le_iff, ← h]
    exact length_num_le n
  · exact num_of_lt

theorem length_num_le_digits (n : oid) : (num n).length ≤ (Nat.toDigits 10 n.toNat).length := by
  by_cases h : n.toNat < 10 ^ 9
  · rw [num_of_lt h]
  · have := length_num_le n
    have := mt (length_digits_le_iff n).1 h
    omega

theorem toStr_eq_joined (o : OID) : o.toStr = joined (o.v.map (fun n => Nat.toDigits 10 n.toNat)) := by
  rw [joined, List.flatMap_map]
  rfl

/-- **Short numbers show in the length of the text.** -/
theorem length_joined_num : ∀ v : List oid, (joined (v.map num)).length ≤ (toStr ⟨v⟩).length ∧
    ((joined (v.map num)).length = (toStr ⟨v⟩).length → ∀ n ∈ v, n.toNat < 10 ^ 9)
  | []     => ⟨Nat.le_refl _, fun _ n hn => by cases hn⟩
  | n :: v => by
    obtain ⟨hle, heq⟩ := length_joined_num v
    have hn := length_num_le_digits n
    have hl : (joined ((n :: v).map num)).length = (num n).length + 1 + (joined (v.map num)).length := by
      rw [joined, List.map_cons, List.flatMap_cons, List.length_append, List.length_cons]
      rfl
    have hr : (toStr ⟨n :: v⟩).length = (Nat.toDigits 10 n.toNat).length + 1 + (toStr ⟨v⟩).length := by
      rw [toStr_cons, List.length_cons, List.length_append]
      omega
    refine ⟨by omega, fun h m hm => ?_⟩
    rcases List.mem_cons.1 hm with rfl | hm
    · have := length_num_le m
      exact (length_digits_le_iff m).1 (by omega)
    · exact heq (by omega) m hm

theorem map_num_of_lt {v : List oid} (h : ∀ n ∈ v, n.toNat < 10 ^ 9) :
    v.map num = v.map (fun n => Nat.toDigits 10 n.toNat) :=
  List.map_congr_left (fun n hn => num_of_lt (h n hn))

/-- The text behind the last dot. -/
def afterLastDot (s : List Char) : List Char := s.rtakeWhile (fun c => c != '.')

theorem afterLastDot_toStr (w : List oid) (n : oid) : afterLastDot (toStr ⟨w ++ [n]⟩) = Nat.toDigits 10 n.toNat := by
  have hds : ∀ c ∈ (Nat.toDigits 10 n.toNat).reverse, (c != '.') = true := fun c hc => by
    have hd := isDigit_toDigits n.toNat c (List.mem_reverse.1 hc)
    rw [bne_iff_ne]
    rintro rfl
    cases hd
  have hstr : toStr ⟨w ++ [n]⟩ = toStr ⟨w⟩ ++ '.' :: Nat.toDigits 10 n.toNat := by
    rw [toStr, List.flatMap_append]
    simp [toStr]
  have hdot : ('.' :: (toStr ⟨w⟩).reverse).takeWhile (fun c => c != '.') = [] := rfl
  rw [afterLastDot, hstr, List.rtakeWhile, List.reverse_append, List.reverse_cons, List.append_assoc,
    List.singleton_append, List.takeWhile_append_of_pos hds, hdot, List.append_nil, List.reverse_reverse]

/-! ## Without a MIB -/

/-- Every name is the number. -/
def NamesAreNumbers (mib : Mib) (o : OID) : Prop :=
  nameFromMib mib .kFull o = .ok o.toStr ∧ nameFromMib mib .kPartial o = .ok o.toStr ∧
    nameFromMib mib .kInverted o = .ok o.toStr ∧ nameFromMib mib .kLeafOnly o = .ok (afterLastDot o.toStr)

theorem namesFound_none (h : o.empty = false → mib.getTree o = none) : namesFound mib o = .ok [] := by
  by_cases ho : o.empty = true
  · rw [namesFound, if_pos ho]
  · rw [namesFound, if_neg ho, h (Bool.eq_false_iff.2 ho), labelsUp, Forest.climb_eq _ Forest.Path.top]
    rfl

/-- **Without a node in the MIB the names are the number exactly when every value has at most nine digits**: the buffer
for one of them holds no more. -/
theorem names_are_numbers_iff (mib : Mib) (o : OID) (ho : o.empty = false) (hnone : mib.getTree o = none)
    (hparent : (o.parent 1).empty = false → mib.getTree (o.parent 1) = none) :
    NamesAreNumbers mib o ↔ ∀ n ∈ o.v, n.toNat < 10 ^ 9 := by
  have hfound : namesFound mib o = .ok [] := namesFound_none (fun _ => hnone)
  have hfull := nameFromMib_all (L := []) (.inl rfl) ho (by rw [lookedUp_of_ne (by decide)]; exact hfound)
    (Nat.zero_le _)
  have hinverted := nameFromMib_all (L := []) (.inr rfl) ho (namesFound_none hparent) (Nat.zero_le _)
  obtain ⟨leaf, hleaf, hpart, honly⟩ := nameFromMib_last (L := []) ho hfound
  obtain ⟨w, n, hw⟩ := (List.eq_nil_or_concat' o.v).resolve_left (v_ne_nil ho)
  have hne : ¬ ([] : List (List Char)).length = o.size := by
    rw [size, hw, List.length_append, List.length_singleton]
    exact Nat.ne_of_lt (Nat.succ_pos _)
  rw [if_neg hne, hw, List.map_append, List.map_singleton, List.getLast?_concat, Option.some.injEq] at hleaf
  have hall : joined ((o.v.map num).dropLast ++ [leaf]) = joined (o.v.map num) := by
    rw [← hleaf, hw, List.map_append, List.map_singleton, List.dropLast_concat]
  constructor
  · rintro ⟨h, -⟩
    have hlen := congrArg List.length (Except.ok.inj (hfull.symm.trans h))
    exact (length_joined_num o.v).2 hlen
  · intro hsmall
    have htext : joined (o.v.map num) = o.toStr := by rw [map_num_of_lt hsmall, ← toStr_eq_joined]
    refine ⟨?_, ?_, ?_, ?_⟩
    · rw [hfull, List.nil_append, List.length_nil, List.drop_zero, htext]
    · rw [hpart, hall, htext]
    · rw [hinverted, List.nil_append, List.length_nil, List.drop_zero, htext]
    · have hn : n.toNat < 10 ^ 9 := hsmall n (by rw [hw]; simp)
      have hlast : afterLastDot o.toStr = Nat.toDigits 10 n.toNat := by
        rw [← afterLastDot_toStr w n, ← hw]
      rw [honly, ← hleaf, num_of_lt hn, hlast]

theorem names_are_numbers_witness :
    NamesAreNumbers Mib.isoOrg ⟨[2, 5]⟩ ↔ ∀ n ∈ ([2, 5] : List oid), n.toNat < 10 ^ 9 :=
  names_are_numbers_iff Mib.isoOrg ⟨[2, 5]⟩ rfl rfl (fun _ => rfl)

/-- The largest sub-identifier loses its last digit. -/
theorem names_drop_digits :
    let o : OID := ⟨[1, 4294967295]⟩
    nameFromMib Mib.notInstalled .kFull o = .ok ".1.429496729".toList ∧ o.toStr = ".1.4294967295".toList ∧
      nameFromMib Mib.notInstalled .kLeafOnly o = .ok "429496729".toList ∧ ¬ NamesAreNumbers Mib.notInstalled o := by
  refine ⟨by decide, by decide, by decide, fun h => ?_⟩
  exact absurd h.1 (by decide)

end OID
end Snmppp
