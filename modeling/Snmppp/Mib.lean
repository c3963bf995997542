import Snmppp.Varlist
import Snmppp.Kin
import Snmppp.Forest
/-!
# Mib — names from the MIB tree (OID.cpp)

`nameFromMib` prints every value of an OID into a small buffer, asks net-snmp for the node closest to the OID, collects
the labels from there up to the root, copies them over the numbers and joins what it has.  `getTree` collects the
sub-identifiers on the same way and compares them with the OID.
-/
namespace Snmppp

abbrev TreePtr := Nat

/-- The fields of net-snmp's `struct tree` that are read here. -/
structure TreeNode where
  label  : Option (List Char)
  subid  : oid
  parent : Option TreePtr
deriving DecidableEq, Repr

/-- net-snmp's MIB: its nodes, each linked to a parent made before it, and `get_tree( o, o, get_tree_head() )`. -/
structure Mib where
  tree    : Forest TreeNode.parent
  getTree : OID → Option TreePtr

namespace OID

inductive ENameLookup where
  | kUnknown
  | kLeafOnly
  | kPartial
  | kInverted
  | kFull
deriving DecidableEq, Repr

/-- The value of the enumerator. -/
def ENameLookup.toNat : ENameLookup → Nat
  | kUnknown  => 0
  | kLeafOnly => 1
  | kPartial  => 2
  | kInverted => 3
  | kFull     => 4

/-- `snprintf( buffer, size, "%ld", n )`: the text of `n` as a signed `long`, as far as it fits before the NUL. -/
def snprintfLong (size : Nat) (n : oid) : List Char :=
  let i := n.toInt64.toInt
  ((if i < 0 then ['-'] else []) ++ Nat.toDigits 10 i.natAbs).take (size - 1)

/-- The text `nameFromMib` first stores for a value, through `char buffer[10]`. -/
def num (n : oid) : List Char := snprintfLong 10 n

/-- What a loop gives; a loop that ran into undefined behaviour or has not ended gives nothing. -/
def ofLoop : Option α → Res α
  | none   => .error .fault
  | some a => .ok a

/-- `while ( t != NULL && t->label != NULL )`: the labels from `t` up. -/
def labelsUp (mib : Mib) (t : Option TreePtr) : Res (List (List Char)) := ofLoop (mib.tree.climb TreeNode.label t)

/-- One turn of the loop that copies the names in `tmp` to their places in `vstr`. -/
def copyTurn (lookup : ENameLookup) (tmp : List (List Char)) :
    Nat × List (List Char) → (Nat × List (List Char)) ⊕ Option (List (List Char))
  | (idx, vstr) =>
    match tmp[idx]? with
    | none      => .inr (some vstr)
    | some name =>
      if (lookup = .kLeafOnly ∨ lookup = .kPartial) ∧ (tmp.length ≠ vstr.length ∨ idx > 0) then .inr (some vstr)
      -- a write behind the end of `vstr` is undefined behaviour
      else if tmp.length - idx - 1 < vstr.length then .inl (idx + 1, vstr.set (tmp.length - idx - 1) name)
      else .inr none

def copyNames (lookup : ENameLookup) (tmp vstr : List (List Char)) : Res (List (List Char)) :=
  ofLoop (Loop.run (copyTurn lookup tmp) (tmp.length + 1) (0, vstr)).join

/-- One turn of the loop that builds the name; `size` is that of the OID. -/
def buildTurn (vstr : List (List Char)) (size : Nat) : Nat × List Char → (Nat × List Char) ⊕ Option (List Char)
  | (idx, name) =>
    match vstr[idx]? with
    | none   => .inr none
    | some s => if idx + 1 ≥ size then .inr (some (name ++ s)) else .inl (idx + 1, name ++ s ++ ['.'])

def buildName (vstr : List (List Char)) (size idx : Nat) (name : List Char) : Res (List Char) :=
  ofLoop (Loop.run (buildTurn vstr size) (size + 1) (idx, name)).join

/-- The OID `nameFromMib` looks up. -/
def lookedUp (lookup : ENameLookup) (o : OID) : OID := o.parent (if lookup = .kInverted then 1 else 0)

/-- `tmp` of `nameFromMib`: the names of the node found, the last one first. -/
def namesFound (mib : Mib) (o : OID) : Res (List (List Char)) :=
  if o.empty then .ok [] else labelsUp mib (mib.getTree o)

/-- `vstr` of `nameFromMib` before the name is built. -/
def nameParts (mib : Mib) (lookup : ENameLookup) (o : OID) : Res (List (List Char)) := do
  let tmp ← namesFound mib (o.lookedUp lookup)
  copyNames lookup tmp (o.v.map num)

def nameFromMib (mib : Mib) (lookup : ENameLookup) (o : OID) : Res (List Char) :=
  if o.empty then .ok []
  else if lookup = .kUnknown then
    .error (.exn ⟨.invalidArgument, "Invalid lookup type ".toList ++ Nat.toDigits 10 lookup.toNat ++
      " for OID ".toList ++ o.toStr ++ ".".toList⟩)
  else do
    let vstr ← nameParts mib lookup o
    if lookup = .kLeafOnly then buildName vstr o.size (o.size - 1) [] else buildName vstr o.size 0 ['.']

/-- `while ( p != NULL )`: the sub-identifiers from `t` up. -/
def subidsUp (mib : Mib) (t : Option TreePtr) : Res (List oid) := ofLoop (mib.tree.climb (fun n => some n.subid) t)

def getTree (mib : Mib) (exact : Bool) (o : OID) : Res (Option TreePtr) :=
  if o.empty then .ok none
  else
    let t := mib.getTree o
    if exact then do
      let tmpOid ← subidsUp mib t
      pure (if o.v ≠ tmpOid.reverse then none else t)
    else .ok t

/-! ## What the loops give -/

/-- Every part behind a dot. -/
def joined (parts : List (List Char)) : List Char := parts.flatMap (fun s => '.' :: s)

/-- Of the first `tmp.length` places the last `idx` are filled. -/
def filled (tmp vstr : List (List Char)) (idx : Nat) : List (List Char) :=
  vstr.take (tmp.length - idx) ++ ((tmp.take idx).reverse ++ vstr.drop tmp.length)

theorem copyTurn_filled {lookup : ENameLookup} (hl : lookup ≠ .kLeafOnly) (hp : lookup ≠ .kPartial)
    {tmp vstr : List (List Char)} (hlen : tmp.length ≤ vstr.length) {idx : Nat} {name : List Char}
    (hname : tmp[idx]? = some name) :
    copyTurn lookup tmp (idx, filled tmp vstr idx) = .inl (idx + 1, filled tmp vstr (idx + 1)) := by
  obtain ⟨hidx, hget⟩ := List.getElem?_eq_some_iff.1 hname
  obtain ⟨k, hk⟩ : ∃ k, tmp.length - idx = k + 1 := ⟨tmp.length - idx - 1, by omega⟩
  have hkv : k < vstr.length := by omega
  have hsplit : filled tmp vstr idx
      = vstr.take k ++ vstr[k] :: ((tmp.take idx).reverse ++ vstr.drop tmp.length) := by
    rw [filled, hk, List.take_succ_eq_append_getElem hkv, List.append_assoc, List.singleton_append]
  have hset : (filled tmp vstr idx).set k name = filled tmp vstr (idx + 1) := by
    rw [hsplit, List.set_append_right _ _ (by simp), List.length_take, Nat.min_eq_left (by omega), Nat.sub_self,
      List.set_cons_zero, filled, List.take_succ_eq_append_getElem hidx, hget, List.reverse_append]
    have hk' : tmp.length - (idx + 1) = k := by omega
    rw [hk', List.reverse_singleton, List.append_assoc, List.singleton_append]
  have hlt : tmp.length - idx - 1 < (filled tmp vstr idx).length := by
    rw [hsplit, List.length_append, List.length_take, List.length_cons]
    omega
  have hk' : tmp.length - idx - 1 = k := by omega
  simp only [copyTurn, hname, hl, hp, false_or, false_and, if_false, hlt, if_true]
  rw [hk', hset]

theorem run_copy {lookup : ENameLookup} (hl : lookup ≠ .kLeafOnly) (hp : lookup ≠ .kPartial)
    {tmp vstr : List (List Char)} (hlen : tmp.length ≤ vstr.length) : ∀ (turns idx : Nat), idx ≤ tmp.length →
    tmp.length - idx < turns →
    Loop.run (copyTurn lookup tmp) turns (idx, filled tmp vstr idx) = some (some (filled tmp vstr tmp.length))
  | 0, _, _, h => absurd h (Nat.not_lt_zero _)
  | turns + 1, idx, hidx, h => by
    cases hname : tmp[idx]? with
    | none =>
      have heq : idx = tmp.length := Nat.le_antisymm hidx (List.getElem?_eq_none_iff.1 hname)
      have hend : copyTurn lookup tmp (idx, filled tmp vstr idx) = .inr (some (filled tmp vstr idx)) := by
        simp only [copyTurn, hname]
      rw [Loop.run_end hend, heq]
    | some name =>
      have hlt : idx < tmp.length := (List.getElem?_eq_some_iff.1 hname).1
      rw [Loop.run_on (copyTurn_filled hl hp hlen hname)]
      exact run_copy hl hp hlen turns (idx + 1) hlt (by omega)

/-- **All names are copied**, from the front, when there are places for them. -/
theorem copyNames_all {lookup : ENameLookup} (hl : lookup ≠ .kLeafOnly) (hp : lookup ≠ .kPartial)
    {tmp vstr : List (List Char)} (hlen : tmp.length ≤ vstr.length) :
    copyNames lookup tmp vstr = .ok (tmp.reverse ++ vstr.drop tmp.length) := by
  have hstart : filled tmp vstr 0 = vstr := by
    rw [filled, Nat.sub_zero, List.take_zero, List.reverse_nil, List.nil_append, List.take_append_drop]
  have hlast : filled tmp vstr tmp.length = tmp.reverse ++ vstr.drop tmp.length := by
    rw [filled, Nat.sub_self, List.take_zero, List.nil_append, List.take_length]
  have hrun := run_copy hl hp hlen (tmp.length + 1) 0 (Nat.zero_le _) (by omega)
  rw [hstart, hlast] at hrun
  rw [copyNames, hrun]
  rfl

/-- **Only the last name is copied**, and only over the last place. -/
theorem copyNames_last {lookup : ENameLookup} (hlook : lookup = .kLeafOnly ∨ lookup = .kPartial)
    (tmp : List (List Char)) {vstr : List (List Char)} (hne : vstr ≠ []) :
    copyNames lookup tmp vstr
      = .ok (if tmp.length = vstr.length then vstr.dropLast ++ tmp.take 1 else vstr) := by
  have hpos := List.length_pos_iff.2 hne
  cases tmp with
  | nil =>
    have hend : copyTurn lookup [] (0, vstr) = .inr (some vstr) := rfl
    have hlen : ¬ ([] : List (List Char)).length = vstr.length := Nat.ne_of_lt hpos
    rw [copyNames, Loop.run_end hend, if_neg hlen]
    rfl
  | cons x xs =>
    by_cases hlen : (x :: xs).length = vstr.length
    · have hfirst : copyTurn lookup (x :: xs) (0, vstr) = .inl (1, vstr.set (vstr.length - 1) x) := by
        have hlt : vstr.length - 1 < vstr.length := by omega
        simp only [copyTurn, List.getElem?_cons_zero, hlook, hlen, true_and, ne_eq, not_true_eq_false, gt_iff_lt,
          Nat.lt_irrefl, or_self, if_false, Nat.sub_zero, hlt, if_true, Nat.zero_add]
      have hset : vstr.set (vstr.length - 1) x = vstr.dropLast ++ [x] := by
        rw [← List.dropLast_concat_getLast hne, List.dropLast_concat, List.length_append, List.length_singleton,
          Nat.add_sub_cancel, List.set_append_right _ _ (Nat.le_refl _), Nat.sub_self, List.set_cons_zero]
      have hsecond : copyTurn lookup (x :: xs) (1, vstr.dropLast ++ [x]) = .inr (some (vstr.dropLast ++ [x])) := by
        cases xs <;> simp [copyTurn, hlook]
      rw [copyNames, if_pos hlen, Loop.run_on hfirst, hset, List.length_cons, Loop.run_end hsecond]
      rfl
    · have hend : copyTurn lookup (x :: xs) (0, vstr) = .inr (some vstr) := by
        simp only [copyTurn, List.getElem?_cons_zero, hlook, true_and, ne_eq, hlen, not_false_eq_true, true_or, if_true]
      rw [copyNames, Loop.run_end hend, if_neg hlen]
      rfl

theorem run_build : ∀ (rest pre : List (List Char)) (s name : List Char) (turns : Nat), rest.length < turns →
    Loop.run (buildTurn (pre ++ s :: rest) (pre ++ s :: rest).length) turns (pre.length, name)
      = some (some (name ++ s ++ joined rest))
  | _, _, _, _, 0, h => absurd h (Nat.not_lt_zero _)
  | [], pre, s, name, turns + 1, _ => by
    have hend : buildTurn (pre ++ [s]) (pre ++ [s]).length (pre.length, name) = .inr (some (name ++ s)) := by
      simp [buildTurn]
    rw [Loop.run_end hend]
    simp [joined]
  | r :: rest, pre, s, name, turns + 1, h => by
    have hon : buildTurn (pre ++ s :: r :: rest) (pre ++ s :: r :: rest).length (pre.length, name)
        = .inl ((pre ++ [s]).length, name ++ s ++ ['.']) := by
      simp [buildTurn]
    have hpre : pre ++ s :: r :: rest = (pre ++ [s]) ++ r :: rest := by simp
    rw [Loop.run_on hon, hpre, run_build rest (pre ++ [s]) r _ turns (by simpa using h)]
    simp [joined]

/-- **The name is built of the parts from `idx` on.** -/
theorem buildName_eq (pre : List (List Char)) (s : List Char) (rest : List (List Char)) (name : List Char) :
    buildName (pre ++ s :: rest) (pre ++ s :: rest).length pre.length name = .ok (name ++ s ++ joined rest) := by
  rw [buildName, run_build rest pre s name _ (by simp; omega)]
  rfl

end OID
end Snmppp
