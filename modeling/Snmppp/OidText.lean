import Mathlib.Data.List.TakeWhile
import Snmppp.Oid
/-!
# OidText — the number the parser makes of a run of digits

A run is read up to what is no digit and goes through `atoi`.  The digits of a value read back as `readBack`, which is
the value itself below 2^31 and at 2^64-1 only (`readBack_eq_iff`).
-/
namespace Snmppp
namespace OID

def groupValue (ds : List Char) : oid := (atoi ds).toInt64.toUInt64

/-- What the parser makes of the text of one value. -/
def readBack (n : oid) : oid := groupValue (Nat.toDigits 10 n.toNat)

theorem takeWhile_group {ds rest : List Char} (hds : ∀ c ∈ ds, c.isDigit = true)
    (hr : rest.head?.any Char.isDigit = false) : (ds ++ rest).takeWhile Char.isDigit = ds := by
  rw [List.takeWhile_append_of_pos hds]
  cases rest with
  | nil => simp
  | cons c cs =>
    have hc : c.isDigit = false := by simpa using hr
    simp [hc]

theorem atoi_group {ds rest : List Char} (hds : ∀ c ∈ ds, c.isDigit = true)
    (hr : rest.head?.any Char.isDigit = false) : atoi (ds ++ rest) = atoi ds := by
  unfold atoi
  rw [takeWhile_group hds hr, List.takeWhile_eq_self_iff.2 hds]

theorem findFirstNotOfDigits_group {ds rest : List Char} (hds : ∀ c ∈ ds, c.isDigit = true)
    (hr : rest.head?.any Char.isDigit = false) (pre : List Char) :
    findFirstNotOfDigits (pre ++ (ds ++ rest)) pre.length
      = if rest = [] then none else some (pre.length + ds.length) := by
  unfold findFirstNotOfDigits
  have hnone : ds.findIdx? (fun c => !c.isDigit) = none :=
    List.findIdx?_eq_none_iff.2 (fun c hc => by simp [hds c hc])
  rw [List.drop_left, List.findIdx?_append, hnone, Option.none_or]
  cases rest with
  | nil => rfl
  | cons c cs =>
    have hc : c.isDigit = false := by simpa using hr
    simp [List.findIdx?_cons, hc]

theorem isDigit_toDigits (n : Nat) : ∀ c ∈ Nat.toDigits 10 n, c.isDigit = true :=
  fun _ hc => Nat.isDigit_of_mem_toDigits (by decide) (by decide) hc

theorem toDigits_inj {m n : Nat} (h : Nat.toDigits 10 m = Nat.toDigits 10 n) : m = n := by
  calc m = Nat.ofDigitChars 10 (Nat.toDigits 10 m) 0 := Nat.ofDigitChars_ten_toDigits.symm
    _ = Nat.ofDigitChars 10 (Nat.toDigits 10 n) 0 := by rw [h]
    _ = n := Nat.ofDigitChars_ten_toDigits

theorem toStr_cons (n : oid) (ns : List oid) :
    toStr ⟨n :: ns⟩ = '.' :: (Nat.toDigits 10 n.toNat ++ toStr ⟨ns⟩) := rfl

/-! ## Which values read back -/

/-- The value of a non-negative `int` conversion of `k`, sign-extended to `unsigned long`. -/
theorem toNat_ofInt32 (k : Nat) :
    (Int32.ofNat k).toInt64.toUInt64.toNat
      = if k % 2 ^ 32 < 2 ^ 31 then k % 2 ^ 32 else 2 ^ 64 - 2 ^ 32 + k % 2 ^ 32 := by
  have hbits : (Int32.ofNat k).toInt64.toUInt64.toNat = (BitVec.signExtend 64 (BitVec.ofNat 32 k)).toNat := by
    rw [← UInt64.toNat_toBitVec]; simp
  rw [hbits, BitVec.toNat_signExtend, BitVec.msb_eq_decide, BitVec.toNat_setWidth, BitVec.toNat_ofNat]
  by_cases hk : k % 2 ^ 32 < 2 ^ 31
  · rw [if_pos hk, if_neg (by simpa using hk)]
    omega
  · rw [if_neg hk, if_pos (by simpa using hk)]
    omega

theorem toNat_readBack (n : oid) :
    (readBack n).toNat
      = let k := min n.toNat (2 ^ 63 - 1) % 2 ^ 32
        if k < 2 ^ 31 then k else 2 ^ 64 - 2 ^ 32 + k := by
  have hds : (Nat.toDigits 10 n.toNat).takeWhile Char.isDigit = Nat.toDigits 10 n.toNat :=
    List.takeWhile_eq_self_iff.2 (isDigit_toDigits n.toNat)
  rw [readBack, groupValue, atoi, hds, Nat.ofDigitChars_ten_toDigits, toNat_ofInt32]

/-- **What reads back as itself**: the values below 2^31, and 2^64-1, the one value a saturated `int` extends to. -/
theorem readBack_eq_iff (n : oid) : readBack n = n ↔ n.toNat < 2 ^ 31 ∨ n.toNat = 2 ^ 64 - 1 := by
  have hn : n.toNat < 2 ^ 64 := n.toNat_lt
  rw [← UInt64.toNat_inj, toNat_readBack]
  simp only
  split <;> omega

theorem map_readBack_eq_iff (l : List oid) : l.map readBack = l ↔ ∀ n ∈ l, readBack n = n := by
  conv => lhs; rhs; rw [← List.map_id l]
  rw [List.map_inj_left]
  rfl

end OID
end Snmppp
