import Mathlib.Algebra.Group.Nat.Defs
import Mathlib.Order.Defs.LinearOrder
import Mathlib.Tactic.Common
/-!
# Oid — object identifiers and their text (OID.hpp, OID.cpp)

An `OID` wraps a vector of net-snmp's `oid`, an `unsigned long` of 64 bits, and is compared as the vector is.  Text is a
list of characters; the parser keeps the source's position into the string.
-/
namespace Snmppp

/-- net-snmp's sub-identifier, `unsigned long`. -/
abbrev oid := UInt64

structure OID where
  v : List oid
deriving DecidableEq, Repr

/-- The comparison operators compare the vectors, element by element and the shorter prefix first. -/
instance : LinearOrder OID where
  le a b := a.v ≤ b.v
  lt a b := a.v < b.v
  le_refl a := Std.le_refl a.v
  le_trans _ _ _ h₁ h₂ := Std.le_trans h₁ h₂
  le_antisymm a b h₁ h₂ := by
    cases a; cases b
    exact congrArg OID.mk (Std.le_antisymm h₁ h₂)
  le_total _ _ := Std.le_total
  lt_iff_le_not_ge _ _ := Std.lt_iff_le_and_not_ge
  toDecidableLE := fun a b => inferInstanceAs (Decidable (a.v ≤ b.v))
  toDecidableLT := fun a b => inferInstanceAs (Decidable (a.v < b.v))
  toDecidableEq := inferInstance

/-- The result of `atoi` on text that starts with a digit: `strtol` of the leading digits, saturating at the largest
64-bit `long`, converted to a 32-bit `int`. -/
def atoi (p : List Char) : Int32 :=
  Int32.ofNat (min (Nat.ofDigitChars 10 (p.takeWhile Char.isDigit) 0) (2 ^ 63 - 1))

/-- `s.find_first_not_of( "0123456789", pos )`, `none` for `npos`. -/
def findFirstNotOfDigits (s : List Char) (pos : Nat) : Option Nat :=
  ((s.drop pos).findIdx? (fun c => !c.isDigit)).map (pos + ·)

namespace OID

inductive ECommon where
  | kInvalid
  | kEmpty
  | kInternet
  | kPrivateEnterprise
  | kSysUpTime
  | kTrap
deriving DecidableEq, Repr

def empty (o : OID) : Bool := o.v.isEmpty

def size (o : OID) : Nat := o.v.length

theorem v_ne_nil {o : OID} (ho : o.empty = false) : o.v ≠ [] := List.isEmpty_eq_false_iff.1 ho

theorem size_pos {o : OID} (ho : o.empty = false) : 0 < o.size := List.length_pos_iff.2 (v_ne_nil ho)

def clear (_o : OID) : OID := ⟨[]⟩

/-- `operator std::string`: every value behind a dot. -/
def toStr (o : OID) : List Char := o.v.flatMap (fun n => '.' :: Nat.toDigits 10 n.toNat)

/-- "move past the next "." character". -/
def skipDot (s : List Char) (pos : Nat) : Nat := if s[pos]? = some '.' then pos + 1 else pos

/-- One turn of the loop of `operator+( const std::string & )` at `pos`: the values it pushes, and the position the
loop goes on from, `none` where it breaks or reaches `npos`. -/
def textTurn (s : List Char) (pos : Nat) : List oid × Option Nat :=
  let pos := skipDot s pos
  if pos ≥ s.length then ([], none)
  else
    let p := s.drop pos
    if p.head?.any Char.isDigit = false then ([], none)
    -- the `int` is converted to `unsigned long` with its sign
    else ([(atoi p).toInt64.toUInt64], findFirstNotOfDigits s pos)

def textLoop (s : List Char) : Nat → Nat → List oid → List oid
  | 0, _, v          => v
  | turns + 1, pos, v =>
    match textTurn s pos with
    | (ns, none)      => v ++ ns
    | (ns, some pos') => textLoop s turns pos' (v ++ ns)

/-- `operator+( const std::string & )`.  A turn that goes on has passed a digit, so the string's length bounds the
number of turns (`textLoop_enough`). -/
def appendText (o : OID) (s : List Char) : OID := ⟨textLoop s (s.length + 1) 0 o.v⟩

def plusAssignText (o : OID) (s : List Char) : OID := ⟨(o.appendText s).v⟩

/-- `set( const std::string & )`. -/
def setText (o : OID) (s : List Char) : OID := o.clear.plusAssignText s

def ofText (s : List Char) : OID := setText ⟨[]⟩ s

/-- `std::string( s )` of a C string: what stands before its first NUL. -/
def cString (s : List Char) : List Char := s.takeWhile (fun c => c.toNat != 0)

/-- `set( const char * const )`. -/
def setCString (o : OID) : Option (List Char) → OID
  | none   => o.clear
  | some s => o.clear.plusAssignText (cString s)

def ofCString (s : Option (List Char)) : OID := setCString ⟨[]⟩ s

/-- `operator=( const std::string & )`. -/
def assignText (o : OID) (s : List Char) : OID := o.setText s

/-- `operator=( const char * const )`. -/
def assignCString (o : OID) (s : Option (List Char)) : OID := o.setCString s

/-- `set( const OID::ECommon & )`. -/
def setCommon (o : OID) : ECommon → OID
  | .kInvalid           => o.clear.setText "".toList
  | .kEmpty             => o.clear.setText "".toList
  | .kInternet          => o.clear.setText "1.3.6.1".toList
  | .kPrivateEnterprise => o.clear.setText "1.3.6.1.4".toList
  | .kSysUpTime         => o.clear.setText "1.3.6.1.2.1.1.3.0".toList
  | .kTrap              => o.clear.setText "1.3.6.1.6.3.1.1.4.1.0".toList

def ofCommon (location : ECommon) : OID := setCommon ⟨[]⟩ location

/-! ## The loop ends -/

theorem le_skipDot (s : List Char) (pos : Nat) : pos ≤ skipDot s pos := by
  unfold skipDot; split <;> omega

theorem findFirstNotOfDigits_bound {s : List Char} {pos pos' : Nat} (h : findFirstNotOfDigits s pos = some pos')
    (hd : (s.drop pos).head?.any Char.isDigit = true) : pos < pos' ∧ pos' < s.length := by
  unfold findFirstNotOfDigits at h
  obtain ⟨i, hi, rfl⟩ := Option.map_eq_some_iff.1 h
  obtain ⟨hlt, hc, -⟩ := List.findIdx?_eq_some_iff_getElem.1 hi
  rw [List.length_drop] at hlt
  refine ⟨?_, by omega⟩
  cases i with
  | zero =>
    cases hs : s.drop pos with
    | nil => rw [hs] at hd; cases hd
    | cons c cs =>
      simp only [hs, List.head?_cons, Option.any_some, List.getElem_cons_zero] at hd hc
      simp [hd] at hc
  | succ i => omega

/-- **A turn that goes on goes forward**, inside the string. -/
theorem textTurn_bound {s : List Char} {pos pos' : Nat} {ns : List oid} (h : textTurn s pos = (ns, some pos')) :
    pos < pos' ∧ pos' < s.length := by
  unfold textTurn at h
  simp only at h
  split at h
  · cases h
  · split at h
    · cases h
    · rename_i hd
      rw [Bool.not_eq_false] at hd
      have hb := findFirstNotOfDigits_bound (Prod.mk.inj h).2 hd
      exact ⟨Nat.lt_of_le_of_lt (le_skipDot s pos) hb.1, hb.2⟩

/-- **Enough turns are enough**: from the string's length on, their number does not matter. -/
theorem textLoop_enough (s : List Char) : ∀ (turns turns' pos : Nat) (v : List oid),
    s.length - pos < turns → s.length - pos < turns' → textLoop s turns pos v = textLoop s turns' pos v
  | 0, _, _, _, h, _ => by omega
  | _, 0, _, _, _, h => by omega
  | turns + 1, turns' + 1, pos, v, h, h' => by
    unfold textLoop
    cases ht : textTurn s pos with
    | mk ns next =>
      cases next with
      | none => rfl
      | some pos' =>
        have hb := textTurn_bound ht
        exact textLoop_enough s turns turns' pos' (v ++ ns) (by omega) (by omega)

end OID
end Snmppp
