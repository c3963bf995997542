import Snmppp.Views
/-!
# ValueText — what asString strips from a printed value (Varlist.cpp)

`asString` cuts the printed text at the first `": "`, which is the one behind the type whenever the type has none of
its own (`findText_sep`), and takes the outer quotes off a string.  What is left is the value, whatever it holds
(`Varlist.asString_strips`).
-/
namespace Snmppp

/-- **The spec of `find`**: the first place the text stands at. -/
theorem findText_eq_some_iff {t : List Char} : ∀ {s : List Char} {i : Nat},
    findText t s = some i ↔ t <+: s.drop i ∧ ∀ j < i, ¬ t <+: s.drop j
  | [], i => by
    unfold findText
    rw [List.drop_nil, List.prefix_nil]
    by_cases ht : t = []
    · rw [if_pos ht, Option.some.injEq]
      refine ⟨fun h => ⟨ht, fun j hj => absurd hj (by omega)⟩, fun h => ?_⟩
      by_contra hne
      refine h.2 0 (by omega) ?_
      rw [ht]
      exact List.nil_prefix
    · rw [if_neg ht]
      exact ⟨fun h => (Option.some_ne_none _ h.symm).elim, fun h => absurd h.1 ht⟩
  | c :: cs, i => by
    unfold findText
    by_cases ht : t <+: c :: cs
    · rw [if_pos (List.isPrefixOf_iff_prefix.2 ht), Option.some.injEq]
      refine ⟨?_, fun h => ?_⟩
      · rintro rfl
        exact ⟨ht, fun j hj => absurd hj (Nat.not_lt_zero j)⟩
      · by_contra hne
        exact h.2 0 (by omega) ht
    · rw [if_neg (fun h => ht (List.isPrefixOf_iff_prefix.1 h))]
      cases i with
      | zero =>
        refine ⟨fun h => ?_, fun h => absurd h.1 ht⟩
        obtain ⟨k, -, hk⟩ := Option.map_eq_some_iff.1 h
        exact absurd hk (Nat.succ_ne_zero k)
      | succ i =>
        rw [Option.map_eq_some_iff]
        constructor
        · rintro ⟨k, hk, hki⟩
          obtain rfl : k = i := Nat.succ.inj hki
          obtain ⟨hat, hbefore⟩ := findText_eq_some_iff.1 hk
          refine ⟨hat, fun j hj => ?_⟩
          cases j with
          | zero => exact ht
          | succ j => exact hbefore j (Nat.lt_of_succ_lt_succ hj)
        · rintro ⟨hat, hbefore⟩
          exact ⟨i, findText_eq_some_iff.2 ⟨hat, fun j hj => hbefore (j + 1) (Nat.succ_lt_succ hj)⟩, rfl⟩

theorem findText_eq_none {t s : List Char} (h : ¬ t <:+: s) : findText t s = none := by
  rw [Option.eq_none_iff_forall_ne_some]
  intro i hi
  exact h ((findText_eq_some_iff.1 hi).1.isInfix.trans (List.drop_suffix i s).isInfix)

/-- **A separator of two different characters is found right behind a text that does not contain it**, also where that
text ends in the first of the two. -/
theorem findText_sep {a b : Char} (hab : a ≠ b) {T : List Char} (hT : ¬ [a, b] <:+: T) (V : List Char) :
    findText [a, b] (T ++ ([a, b] ++ V)) = some T.length := by
  refine findText_eq_some_iff.2 ⟨?_, fun j hj hpre => ?_⟩
  · rw [List.drop_left]
    exact List.prefix_append _ _
  · rw [List.drop_append_of_le_length (Nat.le_of_lt hj), List.drop_eq_getElem_cons hj, List.cons_append,
      List.cons_prefix_cons] at hpre
    obtain ⟨hx, hrest⟩ := hpre
    cases hu : T.drop (j + 1) with
    | nil =>
      -- the separator would have to begin twice
      rw [hu] at hrest
      exact hab (List.cons_prefix_cons.1 hrest).1.symm
    | cons y u =>
      rw [hu] at hrest
      have hy : b = y := (List.cons_prefix_cons.1 hrest).1
      refine hT (List.IsInfix.trans ?_ (List.drop_suffix j T).isInfix)
      rw [List.drop_eq_getElem_cons hj, hu, ← hx, ← hy]
      exact (List.prefix_append [a, b] u).isInfix

/-! ## The value behind the type -/

/-- `txt` stands in double quotes around `w`. -/
def Quoted (txt w : List Char) : Prop := txt = Char.ofNat 34 :: (w ++ [Char.ofNat 34])

/-- **The test of `asString` finds the quotes at both ends**; a lone quote is not two. -/
theorem quoted_iff {txt : List Char} :
    txt.length ≥ 2 ∧ txt[0]? = some (Char.ofNat 34) ∧ txt[txt.length - 1]? = some (Char.ofNat 34) ↔
      ∃ w, Quoted txt w := by
  rw [← List.getLast?_eq_getElem?, List.getLast?_eq_some_iff]
  constructor
  · rintro ⟨hlen, hfirst, ys, rfl⟩
    cases ys with
    | nil => exact absurd hlen (by decide)
    | cons c w =>
      rw [List.cons_append, List.getElem?_cons_zero, Option.some.injEq] at hfirst
      exact ⟨w, by rw [hfirst]; rfl⟩
  · rintro ⟨w, rfl⟩
    refine ⟨?_, rfl, Char.ofNat 34 :: w, rfl⟩
    rw [List.length_cons, List.length_append, List.length_singleton]
    omega

instance (txt : List Char) : Decidable (∃ w, Quoted txt w) := decidable_of_iff _ quoted_iff

/-- The two erases leave what stands between the quotes. -/
theorem Quoted.erased {txt w : List Char} (h : Quoted txt w) : (txt.take (txt.length - 1)).drop 1 = w := by
  rw [← List.dropLast_eq_take, h, ← List.cons_append, List.dropLast_concat]
  rfl

section
variable {T V : List Char}

theorem valueText_typed (hT : ¬ ": ".toList <:+: T) (V : List Char) : valueText (T ++ (": ".toList ++ V)) =
    if T = "STRING".toList ∧ ∃ w, Quoted V w then (V.take (V.length - 1)).drop 1 else V := by
  have hfind : findText ": ".toList (T ++ (": ".toList ++ V)) = some T.length := findText_sep (by decide) hT V
  have htxt : (T ++ (": ".toList ++ V)).drop (T.length + 2) = V := by
    rw [← List.drop_drop, List.drop_left]
    rfl
  unfold valueText
  rw [hfind]
  simp only [List.take_left, htxt, quoted_iff]

theorem valueText_quoted (hT : ¬ ": ".toList <:+: T) {W : List Char} (hstring : T = "STRING".toList)
    (hV : Quoted V W) : valueText (T ++ (": ".toList ++ V)) = W := by
  rw [valueText_typed hT, if_pos ⟨hstring, W, hV⟩, hV.erased]

theorem valueText_bare (hT : ¬ ": ".toList <:+: T) (h : ¬ (T = "STRING".toList ∧ ∃ W, Quoted V W)) :
    valueText (T ++ (": ".toList ++ V)) = V := by
  rw [valueText_typed hT, if_neg h]

theorem valueText_untyped {buf : List Char} (h : ¬ ": ".toList <:+: buf) : valueText buf = buf := by
  unfold valueText
  rw [findText_eq_none h]

/-- A lone quote stands in no quotes. -/
theorem not_quoted_singleton (c : Char) : ¬ ∃ W, Quoted [c] W := by
  rw [← quoted_iff]
  exact fun h => Nat.not_succ_le_self 1 h.1

end

namespace Varlist

/-- **`asString` strips exactly the type and the outer quotes**, of the varbind the lookup finds: from a text `T: V`
whose type `T` holds no `": "` it returns `V`, and what stands between the quotes of a `STRING`; a text without `": "`
it returns as it is. -/
theorem asString_strips (sprint : SprintValue) (vl : List Varbind) (o : OID) {p : Varbind}
    (hp : lookup vl o = .ok p) :
    (∀ T V : List Char, ¬ ": ".toList <:+: T → sprint o p = T ++ (": ".toList ++ V) →
      (∀ W, T = "STRING".toList → V = Char.ofNat 34 :: (W ++ [Char.ofNat 34]) → asString sprint vl o = .ok W) ∧
      ((¬ ∃ W, T = "STRING".toList ∧ V = Char.ofNat 34 :: (W ++ [Char.ofNat 34])) → asString sprint vl o = .ok V) ∧
      (V = [Char.ofNat 34] → asString sprint vl o = .ok V)) ∧
    (¬ ": ".toList <:+: sprint o p → asString sprint vl o = .ok (sprint o p)) := by
  rw [asString_of_lookup sprint hp]
  refine ⟨fun T V hT hbuf => ⟨fun W hstring hV => ?_, fun hbare => ?_, fun hlone => ?_⟩, fun huntyped => ?_⟩
  · rw [hbuf, valueText_quoted hT hstring hV]
  · rw [hbuf, valueText_bare hT (fun h => hbare ?_)]
    obtain ⟨hstring, W, hV⟩ := h
    exact ⟨W, hstring, hV⟩
  · rw [hbuf, valueText_bare hT (fun h => not_quoted_singleton (Char.ofNat 34) ?_)]
    rw [hlone] at h
    exact h.2
  · rw [valueText_untyped huntyped]

/-- A string that looks like a typed value and ends in a quote of its own. -/
theorem asString_strips_witness :
    let vl : List Varbind := [⟨[1, 3], ASN_OCTET_STR, []⟩]
    let sprint : SprintValue := fun _ _ => "STRING: \"OID: a\"\"".toList
    asString sprint vl ⟨[1, 3]⟩ = .ok "OID: a\"".toList :=
  ((asString_strips (fun _ _ => "STRING: \"OID: a\"\"".toList) [⟨[1, 3], ASN_OCTET_STR, []⟩] ⟨[1, 3]⟩
    (p := ⟨[1, 3], ASN_OCTET_STR, []⟩) rfl).1 "STRING".toList "\"OID: a\"\"".toList
    (fun h => absurd (h.subset List.mem_cons_self) (by decide)) rfl).1 "OID: a\"".toList rfl rfl

end Varlist
end Snmppp
