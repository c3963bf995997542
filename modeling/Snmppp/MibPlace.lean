import Snmppp.MibExact
/-!
# MibPlace — whose label stands where (OID.cpp)

The labels are collected from the node found up to the first node without one, and copied to as many places from the
front.  The copying loop is run with a note of what it writes where (`OID.copyStep`); the `j`-th label collected goes to
the place from which `j` more were collected (`OID.copyTraced_spec`), which is the place of its own node exactly when
the whole path was collected.  So a label stands at another node's place when only the lower end of the path is
labelled, in the modes that copy all labels (`OID.labels_in_place_iff`).
-/
namespace Snmppp

/-- The path of the node found for `o`, which is not looked up when it is empty. -/
def Mib.Matched (mib : Mib) (o : OID) (path : List TreeNode) : Prop :=
  o.empty = true ∧ path = [] ∨ o.empty = false ∧ mib.Spells o path

/-- `.1` is `iso` and `.1.3.6` is `dod`; the node between them has no label. -/
def Mib.isoDod : Mib where
  tree      := .ofList [⟨some "iso".toList, 1, none⟩, ⟨none, 3, some 0⟩, ⟨some "dod".toList, 6, some 1⟩] (by decide)
  getTree o :=
    match o.v with
    | 1 :: 3 :: 6 :: _ => some 2
    | 1 :: 3 :: _      => some 1
    | 1 :: _           => some 0
    | _                => none

theorem Mib.isoOrg_path : Mib.isoOrg.tree.Path (some 1)
    [⟨some "iso".toList, 1, none⟩, ⟨some "org".toList, 3, some 0⟩] := by
  let iso : TreeNode := ⟨some "iso".toList, 1, none⟩
  have hiso : Mib.isoOrg.tree.Path (some 0) ([] ++ [iso]) := .node rfl .top
  have horg : Mib.isoOrg.tree.Path (some 1) ([iso] ++ [⟨some "org".toList, 3, some 0⟩]) := .node rfl hiso
  exact horg

theorem Mib.isoDod_path : Mib.isoDod.tree.Path (some 2)
    [⟨some "iso".toList, 1, none⟩, ⟨none, 3, some 0⟩, ⟨some "dod".toList, 6, some 1⟩] := by
  let iso : TreeNode := ⟨some "iso".toList, 1, none⟩
  let org : TreeNode := ⟨none, 3, some 0⟩
  have hiso : Mib.isoDod.tree.Path (some 0) ([] ++ [iso]) := .node rfl .top
  have horg : Mib.isoDod.tree.Path (some 1) ([iso] ++ [org]) := .node rfl hiso
  have hdod : Mib.isoDod.tree.Path (some 2) ([iso, org] ++ [⟨some "dod".toList, 6, some 1⟩]) := .node rfl horg
  exact hdod

namespace OID

/-- The turn of the copying loop with a note for every place: `none` for the number, `some j` for the name
`tmp[ j ]`. -/
def copyStep (lookup : ENameLookup) (tmp : List (List Char)) :
    Nat × List (List Char) × List (Option Nat) →
      (Nat × List (List Char) × List (Option Nat)) ⊕ Option (List (List Char) × List (Option Nat))
  | (idx, vstr, origins) =>
    match copyTurn lookup tmp (idx, vstr) with
    | .inl (idx', vstr') => .inl (idx', vstr', origins.set (tmp.length - idx - 1) (some idx))
    | .inr r             => .inr (r.map (fun vstr => (vstr, origins)))

def copyTraced (lookup : ENameLookup) (tmp vstr : List (List Char)) : Res (List (List Char) × List (Option Nat)) :=
  ofLoop (Loop.run (copyStep lookup tmp) (tmp.length + 1) (0, vstr, vstr.map (fun _ => none))).join

/-- What `nameFromMib` makes of its parts. -/
def shown (lookup : ENameLookup) (parts : List (List Char)) : List Char :=
  if lookup = .kLeafOnly then parts.getLast?.getD [] else joined parts

/-- **Part `i` is the number of the `i`-th value or the label of the node at depth `i`**: a label collected as the
`j`-th is that of the node `j` above the last one. -/
def InPlace (path : List TreeNode) (nums parts : List (List Char)) (origins : List (Option Nat)) : Prop :=
  ∀ i < nums.length, origins[i]? = some none ∧ parts[i]? = nums[i]? ∨
    ∃ j n, origins[i]? = some (some j) ∧ i + j + 1 = path.length ∧ path[i]? = some n ∧ n.label = parts[i]?

/-- **No label of `nameFromMib`'s result stands at another node's place.** -/
def LabelsInPlace (mib : Mib) (lookup : ENameLookup) (o : OID) (path : List TreeNode) : Prop :=
  ∃ tmp parts origins, namesFound mib (o.lookedUp lookup) = .ok tmp ∧
    copyTraced lookup tmp (o.v.map num) = .ok (parts, origins) ∧ nameFromMib mib lookup o = .ok (shown lookup parts) ∧
    InPlace path (o.v.map num) parts origins

/-! ## What the loop writes where -/

/-- The note changes nothing. -/
theorem run_copyStep (lookup : ENameLookup) (tmp : List (List Char)) (turns : Nat) (idx : Nat)
    (vstr : List (List Char)) (origins : List (Option Nat)) :
    Loop.run (copyTurn lookup tmp) turns (idx, vstr)
      = (Loop.run (copyStep lookup tmp) turns (idx, vstr, origins)).map (Option.map Prod.fst) := by
  have hturn : ∀ s : Nat × List (List Char) × List (Option Nat),
      copyTurn lookup tmp (s.1, s.2.1) = (copyStep lookup tmp s).map (fun s => (s.1, s.2.1)) (Option.map Prod.fst) := by
    rintro ⟨idx, vstr, origins⟩
    unfold copyStep
    rcases hturn : copyTurn lookup tmp (idx, vstr) with ⟨idx', vstr'⟩ | _ | vstr' <;> simp only [hturn] <;> rfl
  exact Loop.run_map (fun s : Nat × List (List Char) × List (Option Nat) => (s.1, s.2.1)) (Option.map Prod.fst) hturn
    turns (idx, vstr, origins)

theorem copyNames_of_traced {lookup : ENameLookup} {tmp vstr parts : List (List Char)} {origins : List (Option Nat)}
    (h : copyTraced lookup tmp vstr = .ok (parts, origins)) : copyNames lookup tmp vstr = .ok parts := by
  unfold copyTraced at h
  rw [copyNames, run_copyStep lookup tmp (tmp.length + 1) 0 vstr (vstr.map (fun _ => none))]
  rcases hrun : Loop.run (copyStep lookup tmp) (tmp.length + 1) (0, vstr, vstr.map (fun _ => none)) with _ | _ | r
  · rw [hrun] at h; cases h
  · rw [hrun] at h; cases h
  · rw [hrun] at h; cases h; rfl

/-- Only the last label may be copied, and only where there is one for every value. -/
def OnlyLast (lookup : ENameLookup) : Prop := lookup = .kLeafOnly ∨ lookup = .kPartial

/-- **A turn of the copying loop** ends at the last label, or early where only the last may be copied, and writes one
label otherwise. -/
theorem copyTurn_cases (lookup : ENameLookup) {tmp vstr : List (List Char)} (hlen : tmp.length ≤ vstr.length)
    (idx : Nat) :
    (copyTurn lookup tmp (idx, vstr) = .inr (some vstr) ∧ (OnlyLast lookup ∨ tmp.length ≤ idx)) ∨
    ∃ name, tmp[idx]? = some name ∧ (OnlyLast lookup → tmp.length = vstr.length) ∧
      copyTurn lookup tmp (idx, vstr) = .inl (idx + 1, vstr.set (tmp.length - idx - 1) name) := by
  cases hname : tmp[idx]? with
  | none => exact .inl ⟨by simp only [copyTurn, hname], .inr (List.getElem?_eq_none_iff.1 hname)⟩
  | some name =>
    have hidx : idx < tmp.length := (List.getElem?_eq_some_iff.1 hname).1
    by_cases hstop : (lookup = .kLeafOnly ∨ lookup = .kPartial) ∧ (tmp.length ≠ vstr.length ∨ idx > 0)
    · exact .inl ⟨by simp only [copyTurn, hname, if_pos hstop], .inl hstop.1⟩
    · have hroom : tmp.length - idx - 1 < vstr.length := by omega
      refine .inr ⟨name, rfl, fun hlast => ?_, by simp only [copyTurn, hname, if_neg hstop, if_pos hroom]⟩
      by_contra hne
      exact hstop ⟨hlast, .inl hne⟩

/-- **What the notes say after `idx` turns**: every place holds its number, or the label collected as many places after
the first as the place is before the last of those to fill; of these the last `idx` are filled. -/
structure Traced (lookup : ENameLookup) (tmp nums : List (List Char)) (idx : Nat) (parts : List (List Char))
    (origins : List (Option Nat)) : Prop where
  turns  : idx ≤ tmp.length
  length : parts.length = nums.length
  places : origins.length = nums.length
  source : ∀ i < nums.length, origins[i]? = some none ∧ parts[i]? = nums[i]? ∨
    ∃ j, origins[i]? = some (some j) ∧ i + j + 1 = tmp.length ∧ parts[i]? = tmp[j]? ∧
      (OnlyLast lookup → tmp.length = nums.length)
  filled : ∀ i, tmp.length - idx ≤ i → i < tmp.length → ∃ j, origins[i]? = some (some j)

section
variable {lookup : ENameLookup} {tmp nums parts : List (List Char)} {origins : List (Option Nat)} {idx : Nat}

theorem traced_start (lookup : ENameLookup) (tmp nums : List (List Char)) :
    Traced lookup tmp nums 0 nums (nums.map (fun _ => none)) where
  turns  := Nat.zero_le _
  length := rfl
  places := List.length_map _
  source := fun i hi => .inl ⟨by rw [List.getElem?_map, List.getElem?_eq_getElem hi]; rfl, rfl⟩
  filled := fun i hle hlt => by omega

/-- **Writing a label keeps the notes true.** -/
theorem Traced.write (h : Traced lookup tmp nums idx parts origins) (hroom : tmp.length ≤ nums.length)
    {name : List Char} (hname : tmp[idx]? = some name) (hlast : OnlyLast lookup → tmp.length = nums.length) :
    Traced lookup tmp nums (idx + 1) (parts.set (tmp.length - idx - 1) name)
      (origins.set (tmp.length - idx - 1) (some idx)) where
  turns  := (List.getElem?_eq_some_iff.1 hname).1
  length := by rw [List.length_set, h.length]
  places := by rw [List.length_set, h.places]
  source := fun i hi => by
    have hidx : idx < tmp.length := (List.getElem?_eq_some_iff.1 hname).1
    by_cases hi' : tmp.length - idx - 1 = i
    · refine .inr ⟨idx, ?_, by omega, ?_, hlast⟩
      · rw [hi', List.getElem?_set_self (by rw [h.places]; exact hi)]
      · rw [hi', List.getElem?_set_self (by rw [h.length]; exact hi), hname]
    · rw [List.getElem?_set_ne hi', List.getElem?_set_ne hi']
      exact h.source i hi
  filled := fun i hle hlt => by
    by_cases hi' : tmp.length - idx - 1 = i
    · exact ⟨idx, by rw [hi', List.getElem?_set_self (by rw [h.places]; omega)]⟩
    · rw [List.getElem?_set_ne hi']
      exact h.filled i (by omega) hlt

/-- **The copying loop with its notes** ends, with every place explained and, where all labels are copied, one in each
place to fill. -/
theorem copyTraced_spec (lookup : ENameLookup) {tmp nums : List (List Char)} (hroom : tmp.length ≤ nums.length) :
    ∃ parts origins idx, copyTraced lookup tmp nums = .ok (parts, origins) ∧
      Traced lookup tmp nums idx parts origins ∧ (OnlyLast lookup ∨ tmp.length ≤ idx) := by
  let I : Nat × List (List Char) × List (Option Nat) → Prop := fun st => Traced lookup tmp nums st.1 st.2.1 st.2.2
  let Q : Option (List (List Char) × List (Option Nat)) → Prop := fun r =>
    ∃ parts origins idx, r = some (parts, origins) ∧ Traced lookup tmp nums idx parts origins ∧
      (OnlyLast lookup ∨ tmp.length ≤ idx)
  have hon : ∀ st st', I st → copyStep lookup tmp st = .inl st' → I st' ∧ tmp.length - st'.1 < tmp.length - st.1 := by
    rintro ⟨idx, parts, origins⟩ st' hI hst
    have hlen : tmp.length ≤ parts.length := hI.length.symm ▸ hroom
    unfold copyStep at hst
    rcases copyTurn_cases lookup hlen idx with ⟨hturn, -⟩ | ⟨name, hname, hlast, hturn⟩
    · simp only [hturn] at hst
      cases hst
    · simp only [hturn] at hst
      cases hst
      have hidx := (List.getElem?_eq_some_iff.1 hname).1
      exact ⟨hI.write hroom hname (fun h => (hlast h).trans hI.length), by simp only; omega⟩
  have hend : ∀ st r, I st → copyStep lookup tmp st = .inr r → Q r := by
    rintro ⟨idx, parts, origins⟩ r hI hst
    have hlen : tmp.length ≤ parts.length := hI.length.symm ▸ hroom
    unfold copyStep at hst
    rcases copyTurn_cases lookup hlen idx with ⟨hturn, hstop⟩ | ⟨name, -, -, hturn⟩
    · simp only [hturn] at hst
      cases hst
      exact ⟨parts, origins, idx, rfl, hI, hstop⟩
    · simp only [hturn] at hst
      cases hst
  obtain ⟨r, hrun, parts, origins, idx, rfl, htraced, hstop⟩ := Loop.run_of_variant (I := I) (Q := Q)
    (fun st => tmp.length - st.1) hon hend (tmp.length + 1) (0, nums, nums.map (fun _ => none))
    (traced_start lookup tmp nums) (by simp only; omega)
  refine ⟨parts, origins, idx, ?_, htraced, hstop⟩
  rw [copyTraced, hrun]
  rfl

end

/-! ## The labels found -/

theorem namesFound_of_matched {mib : Mib} {o : OID} {path : List TreeNode} (hc : mib.Matched o path) :
    namesFound mib o = .ok (Forest.upTo TreeNode.label path.reverse) := by
  unfold namesFound
  rcases hc with ⟨ho, rfl⟩ | ⟨ho, hc⟩
  · rw [if_pos ho]
    rfl
  · rw [if_neg (Bool.eq_false_iff.1 ho), labelsUp, Forest.climb_eq TreeNode.label hc.path]
    rfl

theorem length_matched {mib : Mib} {o : OID} {path : List TreeNode} (hc : mib.Matched o path) :
    path.length ≤ o.size := by
  rcases hc with ⟨-, rfl⟩ | ⟨-, hc⟩
  · exact Nat.zero_le _
  · have hle := hc.spells.length_le
    rwa [List.length_map] at hle

theorem size_lookedUp_le (lookup : ENameLookup) (o : OID) : (o.lookedUp lookup).size ≤ o.size := by
  rw [size, lookedUp, parent_v, Stem.length_rdrop]
  exact Nat.sub_le _ _

/-- The label collected as the `j`-th is that of the node `j` above the last. -/
theorem label_of_found {path : List TreeNode} {i j : Nat} (hij : i + j + 1 = path.length) {name : List Char}
    (hname : (Forest.upTo TreeNode.label path.reverse)[j]? = some name) :
    ∃ n, path[i]? = some n ∧ n.label = some name := by
  obtain ⟨n, hn, hlabel⟩ := Forest.getElem_upTo TreeNode.label hname
  rw [List.getElem?_reverse (by omega)] at hn
  have hi : path.length - 1 - j = i := by omega
  exact ⟨n, hi ▸ hn, hlabel⟩

/-- **The name is made of the parts the copying loop leaves.** -/
theorem nameFromMib_of_traced {mib : Mib} {lookup : ENameLookup} {o : OID} {tmp parts : List (List Char)}
    {origins : List (Option Nat)} (ho : o.empty = false) (hunknown : lookup ≠ .kUnknown)
    (hfound : namesFound mib (o.lookedUp lookup) = .ok tmp)
    (hcopy : copyTraced lookup tmp (o.v.map num) = .ok (parts, origins)) (hlen : parts.length = o.size) :
    nameFromMib mib lookup o = .ok (shown lookup parts) := by
  have hparts : nameParts mib lookup o = .ok parts := by
    rw [nameParts, hfound]
    exact copyNames_of_traced hcopy
  have hne : parts ≠ [] := by
    rw [← List.length_pos_iff, hlen]
    exact size_pos ho
  rw [nameFromMib_of_parts ho hunknown hparts, shown, ← hlen]
  by_cases hleaf : lookup = .kLeafOnly
  · obtain ⟨front, leaf, rfl⟩ := (List.eq_nil_or_concat' parts).resolve_left hne
    have hfront : (front ++ [leaf]).length - 1 = front.length := by
      rw [List.length_append, List.length_singleton, Nat.add_sub_cancel]
    rw [if_pos hleaf, if_pos hleaf, hfront, buildName_last, List.getLast?_concat]
    rfl
  · rw [if_neg hleaf, if_neg hleaf, buildName_all hne]

section
variable {lookup : ENameLookup} {path : List TreeNode} {tmp nums parts : List (List Char)}
  {origins : List (Option Nat)} {idx : Nat}

/-- **Labels in place were collected from the whole path**, where all are copied and there is one: the last collected
is copied to the front. -/
theorem Traced.whole (h : Traced lookup tmp nums idx parts origins) (hidx : tmp.length ≤ idx)
    (hroom : tmp.length ≤ nums.length) (hne : tmp.length ≠ 0) (hplace : InPlace path nums parts origins) :
    tmp.length = path.length := by
  obtain ⟨j, hj⟩ := h.filled 0 (by omega) (Nat.pos_of_ne_zero hne)
  have hplace₀ := hplace 0 (by omega)
  have hsource₀ := h.source 0 (by omega)
  rw [hj] at hplace₀ hsource₀
  obtain ⟨hno, -⟩ | ⟨j', n, hj', hdepth, -⟩ := hplace₀
  · cases hno
  obtain ⟨hno, -⟩ | ⟨j'', hj'', hcount, -⟩ := hsource₀
  · cases hno
  cases hj'
  cases hj''
  exact hcount.symm.trans hdepth

/-- **Labels collected from the whole path are in place.** -/
theorem Traced.inPlace (h : Traced lookup tmp nums idx parts origins)
    (htmp : tmp = Forest.upTo TreeNode.label path.reverse)
    (hwhole : tmp.length ≠ 0 → (OnlyLast lookup → tmp.length = nums.length) → tmp.length = path.length) :
    InPlace path nums parts origins := by
  subst htmp
  intro i hi
  rcases h.source i hi with hnum | ⟨j, hj, hcount, hpart, hlast⟩
  · exact .inl hnum
  · have hdepth : i + j + 1 = path.length := hcount.trans (hwhole (by omega) hlast)
    have hj' : j < (Forest.upTo TreeNode.label path.reverse).length := by omega
    have hname := List.getElem?_eq_getElem hj'
    obtain ⟨n, hn, hlabel⟩ := label_of_found hdepth hname
    refine .inr ⟨j, n, hj, hdepth, hn, ?_⟩
    rw [hlabel, hpart, hname]

end

/-- **A label stands at another node's place exactly when** all labels are copied and the node found has one while a
node above it has none. -/
theorem labels_in_place_iff (mib : Mib) {lookup : ENameLookup} (hunknown : lookup ≠ .kUnknown) {o : OID}
    (ho : o.empty = false) {path : List TreeNode} (hc : mib.Matched (o.lookedUp lookup) path) :
    LabelsInPlace mib lookup o path ↔
      lookup = .kLeafOnly ∨ lookup = .kPartial ∨ (∀ n, path.getLast? = some n → n.label = none) ∨
        ∀ n ∈ path, n.label ≠ none := by
  let tmp := Forest.upTo TreeNode.label path.reverse
  have hfound : namesFound mib (o.lookedUp lookup) = .ok tmp := namesFound_of_matched hc
  have hsize : (o.v.map num).length = o.size := List.length_map num
  have hdeep : path.length ≤ o.size := Nat.le_trans (length_matched hc) (size_lookedUp_le lookup o)
  have htmp : tmp.length ≤ path.length := by
    have hle := Forest.length_upTo_le TreeNode.label path.reverse
    rwa [List.length_reverse] at hle
  have hnone : tmp.length = 0 ↔ ∀ n, path.getLast? = some n → n.label = none := by
    rw [List.length_eq_zero_iff, Forest.upTo_eq_nil_iff, List.head?_reverse]
  have hall : tmp.length = path.length ↔ ∀ n ∈ path, n.label ≠ none := by
    have hlen : path.length = path.reverse.length := List.length_reverse.symm
    rw [hlen, Forest.length_upTo_eq_iff]
    simp only [List.mem_reverse]
  have hroom : tmp.length ≤ (o.v.map num).length := by omega
  obtain ⟨parts, origins, idx, hcopy, htraced, hstop⟩ := copyTraced_spec lookup hroom
  have hname := nameFromMib_of_traced ho hunknown hfound hcopy (htraced.length.trans hsize)
  rw [← hnone, ← hall]
  constructor
  · rintro ⟨tmp', parts', origins', hfound', hcopy', -, hplace⟩
    obtain rfl := Except.ok.inj (hfound.symm.trans hfound')
    obtain ⟨rfl, rfl⟩ := Prod.mk.inj (Except.ok.inj (hcopy.symm.trans hcopy'))
    rcases hstop with (hleaf | hpart) | hidx
    · exact .inl hleaf
    · exact .inr (.inl hpart)
    · by_cases hzero : tmp.length = 0
      · exact .inr (.inr (.inl hzero))
      · exact .inr (.inr (.inr (htraced.whole hidx hroom hzero hplace)))
  · intro hwhen
    refine ⟨tmp, parts, origins, hfound, hcopy, hname, htraced.inPlace rfl (fun hne hlast => ?_)⟩
    rcases hwhen with hleaf | hpart | hzero | hsame
    · have := hlast (.inl hleaf)
      omega
    · have := hlast (.inr hpart)
      omega
    · exact absurd hzero hne
    · exact hsame

theorem labels_in_place_witness :
    let o : OID := ⟨[1, 3, 6]⟩
    let path : List TreeNode := [⟨some "iso".toList, 1, none⟩, ⟨some "org".toList, 3, some 0⟩]
    LabelsInPlace Mib.isoOrg .kFull o path ↔
      ENameLookup.kFull = .kLeafOnly ∨ ENameLookup.kFull = .kPartial ∨
        (∀ n, path.getLast? = some n → n.label = none) ∨ ∀ n ∈ path, n.label ≠ none :=
  labels_in_place_iff Mib.isoOrg (by decide) (o := ⟨[1, 3, 6]⟩) rfl
    (.inr ⟨rfl, Mib.isoOrg_path, by decide⟩)

/-- With no label between `iso` and `dod`, the name of `.1.3.6` shows `dod` at the place of `iso`. -/
theorem labels_misplaced :
    let o : OID := ⟨[1, 3, 6]⟩
    let path : List TreeNode := [⟨some "iso".toList, 1, none⟩, ⟨none, 3, some 0⟩, ⟨some "dod".toList, 6, some 1⟩]
    Mib.isoDod.Finds o path ∧ nameFromMib Mib.isoDod .kFull o = .ok ".dod.3.6".toList ∧
      (o.v.map num)[0]? = some "1".toList ∧ (path[0]?.bind TreeNode.label) = some "iso".toList ∧
      ¬ LabelsInPlace Mib.isoDod .kFull o path := by
  refine ⟨⟨⟨Mib.isoDod_path, by decide⟩, fun _ _ hpath _ => hpath.length_le.1⟩, by decide, rfl,
    rfl, ?_⟩
  rintro ⟨tmp, parts, origins, hfound, hcopy, -, hplace⟩
  cases hfound
  cases hcopy
  obtain ⟨hno, -⟩ | ⟨j, n, hj, hdepth, -⟩ := hplace 0 (by decide)
  · cases hno
  · cases hj
    cases hdepth

end OID
end Snmppp
