import Mathlib.Algebra.Group.Nat.Defs
import Mathlib.Tactic.Common
/-!
# Bytes — numbers as their bytes in memory

The `n` low bytes of a number, lowest first, and the number a run of bytes denotes; a run of equally wide numbers laid
out one after the other reads back as it was (`Bytes.words_flatMap`).
-/
namespace Bytes

/-- The `n` low bytes of `x`, lowest first. -/
def ofNat : Nat → Nat → List UInt8
  | 0, _     => []
  | n + 1, x => UInt8.ofNat x :: ofNat n (x / 256)

/-- The number some bytes denote, lowest first. -/
def toNat : List UInt8 → Nat
  | []      => 0
  | b :: bs => b.toNat + 256 * toNat bs

/-- The first `k` numbers of `n` bytes each. -/
def words (n : Nat) : Nat → List UInt8 → List Nat
  | 0, _      => []
  | k + 1, bs => toNat (bs.take n) :: words n k (bs.drop n)

@[simp] theorem length_ofNat : ∀ (n x : Nat), (ofNat n x).length = n
  | 0, _     => rfl
  | n + 1, x => by rw [ofNat, List.length_cons, length_ofNat n]

theorem toNat_ofNat : ∀ (n x : Nat), toNat (ofNat n x) = x % 256 ^ n
  | 0, x     => by simp [ofNat, toNat, Nat.mod_one]
  | n + 1, x => by
    have hb : (UInt8.ofNat x).toNat = x % 256 := by simp
    rw [ofNat, toNat, toNat_ofNat n, hb, Nat.pow_succ, Nat.mul_comm (256 ^ n) 256, Nat.mod_mul]

theorem words_flatMap {β : Type} (n : Nat) (f : β → Nat) (hf : ∀ b, f b < 256 ^ n) : ∀ (l : List β),
    words n l.length (l.flatMap (fun b => ofNat n (f b))) = l.map f
  | []     => rfl
  | b :: l => by
    have hlen : (ofNat n (f b)).length = n := length_ofNat n (f b)
    have ht : (ofNat n (f b) ++ l.flatMap (fun b => ofNat n (f b))).take n = ofNat n (f b) :=
      List.take_left' hlen
    have hd : (ofNat n (f b) ++ l.flatMap (fun b => ofNat n (f b))).drop n = l.flatMap (fun b => ofNat n (f b)) :=
      List.drop_left' hlen
    rw [List.flatMap_cons, List.length_cons, words, ht, hd, toNat_ofNat, Nat.mod_eq_of_lt (hf b),
      words_flatMap n f hf l, List.map_cons]

theorem length_flatMap {β : Type} (n : Nat) (f : β → Nat) : ∀ (l : List β),
    (l.flatMap (fun b => ofNat n (f b))).length = l.length * n
  | []     => by simp
  | b :: l => by
    rw [List.flatMap_cons, List.length_append, length_ofNat, length_flatMap n f l, List.length_cons, Nat.succ_mul,
      Nat.add_comm]

end Bytes
