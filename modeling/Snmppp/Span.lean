import Snmppp.Stem
import Mathlib.Order.Lattice
/-!
# Span — what grows out of one list, in the order of lists

Lists are compared element by element and the shorter prefix first.  A list that does not begin with `b` stands on one
side of everything that does (`Stem.append_lt_of_not_begins`), so `b` and what grows out of it are one span of the
order (`Stem.prefix_of_le_of_le`).  In an ascending list a span that starts at one of its elements is what directly
follows that element (`Span.follows_of_span`).
-/
namespace Stem

section Order

variable {α : Type} [LT α]

theorem lt_append_cons : ∀ (b : List α) (x : α) (s : List α), b < b ++ x :: s
  | [], x, s     => List.nil_lt_cons x s
  | _ :: b, x, s => List.Lex.cons (lt_append_cons b x s)

/-- **A list comes before everything that grows out of it.** -/
theorem Over.lt {a b : List α} (h : Over a b) : b < a := by
  obtain ⟨c, hc, rfl⟩ := over_iff_append.1 h
  obtain ⟨x, s, rfl⟩ := List.exists_cons_of_ne_nil hc
  exact lt_append_cons b x s

/-- **A greater list that does not begin with `b` is greater than everything that does.** -/
theorem append_lt_of_not_begins : ∀ {b c : List α} (s : List α), ¬ b <+: c → b < c → b ++ s < c
  | [], c, _, hp, _          => absurd List.nil_prefix hp
  | _ :: _, [], _, _, hlt    => absurd hlt (List.not_lt_nil _)
  | x :: b, y :: c, s, hp, hlt => by
    rcases List.cons_lt_cons_iff.1 hlt with hxy | ⟨rfl, htail⟩
    · exact List.Lex.rel hxy
    · refine List.Lex.cons (append_lt_of_not_begins s (fun h => hp ?_) htail)
      exact List.cons_prefix_cons.2 ⟨rfl, h⟩

theorem lt_of_not_begins {a b c : List α} (ha : b <+: a) (hc : ¬ b <+: c) (hlt : b < c) : a < c := by
  obtain ⟨s, rfl⟩ := ha
  exact append_lt_of_not_begins s hc hlt

/-- **What grows out of `b` through a smaller value comes before what grows out of it through a greater one.** -/
theorem append_cons_lt_append_cons {x y : α} (b s t : List α) (hxy : x < y) : b ++ x :: s < b ++ y :: t :=
  List.append_left_lt (List.Lex.rel hxy)

end Order

/-- **The lists that begin with `b` are one span**: what stands between two of them is one of them. -/
theorem prefix_of_le_of_le {α : Type} [LT α] [LE α] [Std.IsLinearOrder α] [Std.LawfulOrderLT α] {b x y z : List α}
    (hx : b <+: x) (hz : b <+: z) (hxy : x ≤ y) (hyz : y ≤ z) : b <+: y := by
  by_contra hy
  have hby : b ≤ y := List.le_trans (List.IsPrefix.le hx) hxy
  have hlt : b < y := by
    rcases List.le_iff_lt_or_eq.1 hby with h | rfl
    · exact h
    · exact absurd (List.prefix_refl _) hy
  exact hyz (lt_of_not_begins hz hy hlt)

end Stem

/-! ## A span in an ascending list -/

namespace Span

variable {β : Type} {p : β → Bool}

/-- Where `p` fails for good, nothing that is left satisfies it. -/
theorem not_of_mem_dropWhile : ∀ {l : List β}, l.Pairwise (fun x y => p x = false → p y = false) →
    ∀ y ∈ l.dropWhile p, p y = false
  | [], _, _, hy    => absurd hy List.not_mem_nil
  | x :: l, h, y, hy => by
    rw [List.pairwise_cons] at h
    cases hx : p x with
    | true =>
      rw [List.dropWhile_cons_of_pos hx] at hy
      exact not_of_mem_dropWhile h.2 y hy
    | false =>
      rw [List.dropWhile_cons_of_neg (by simp [hx])] at hy
      rcases List.mem_cons.1 hy with rfl | hy
      · exact hx
      · exact h.1 y hy hx

theorem filter_eq_takeWhile {l : List β} (h : l.Pairwise (fun x y => p x = false → p y = false)) :
    l.filter p = l.takeWhile p := by
  have htake : (l.takeWhile p).filter p = l.takeWhile p :=
    List.filter_eq_self.2 (List.all_eq_true.1 List.all_takeWhile)
  have hdrop : (l.dropWhile p).filter p = [] := by
    refine List.filter_eq_nil_iff.2 (fun y hy => ?_)
    rw [not_of_mem_dropWhile h y hy]
    exact Bool.false_ne_true
  calc l.filter p = (l.takeWhile p ++ l.dropWhile p).filter p := by rw [List.takeWhile_append_dropWhile]
    _ = l.takeWhile p := by rw [List.filter_append, htake, hdrop, List.append_nil]

/-- In an ascending list a span of the order fails for good behind its start. -/
theorem pairwise_of_span [LinearOrder β] {b : β} {l : List β}
    (hend : ∀ c, b < c → p c = false → ∀ a, p a = true → a < c) (hb : ∀ x ∈ l, b < x) (hl : l.Pairwise (· < ·)) :
    l.Pairwise (fun x y => p x = false → p y = false) := by
  refine hl.imp_of_mem (fun {x y} hx _ hxy hpx => ?_)
  rw [← Bool.not_eq_true]
  intro hpy
  exact lt_asymm hxy (hend x (hb x hx) hpx y hpy)

/-- **In an ascending list a span is what directly follows its start**: nothing before the start belongs to it, and
nothing from the first element on that does not. -/
theorem follows_of_span [LinearOrder β] {b : β} {pre post : List β} (hstart : ∀ a, p a = true → b < a)
    (hend : ∀ c, b < c → p c = false → ∀ a, p a = true → a < c) (hl : (pre ++ b :: post).Pairwise (· < ·)) :
    (pre ++ b :: post).filter p = post.takeWhile p ∧ ∀ x ∈ post.dropWhile p, p x = false := by
  obtain ⟨-, htail, hpre⟩ := List.pairwise_append.1 hl
  rw [List.pairwise_cons] at htail
  have hgood := pairwise_of_span hend htail.1 htail.2
  have hnone : pre.filter p = [] := by
    refine List.filter_eq_nil_iff.2 (fun a ha hpa => ?_)
    exact lt_asymm (hstart a hpa) (hpre a ha b List.mem_cons_self)
  have hself : ¬ p b = true := fun h => lt_irrefl b (hstart b h)
  refine ⟨?_, not_of_mem_dropWhile hgood⟩
  rw [List.filter_append, hnone, List.nil_append, List.filter_cons_of_neg hself, filter_eq_takeWhile hgood]

end Span
