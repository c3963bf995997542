import Snmppp.OidText
import Snmppp.Kin
import Snmppp.Dotted
import Snmppp.Loop
/-!
# OidParse — what the text parser accepts

The loop of `operator+( const std::string & )` is the scan of `Dotted` with a dot and the decimal digits
(`OID.appendText_of_reads`): it appends the value of every digit run of the longest prefix in `[.]? D+ ([.] D+)*`, and
ends without leaving the string (`OID.text_accepts_grammar`).  Since it keeps nothing from one call to the next, text
may be appended in pieces that are cut at a dot (`OID.text_pieces`).
-/
namespace Snmppp
namespace OID

open Dotted (Reads Longest)

/-- `[.]? D+ ([.] D+)*`. -/
def dotted : Language Char := Dotted.grammar '.' Char.isDigit

/-- The positions a turn at `pos` indexes: `s[ pos ]`, and behind the dot what `isdigit` and `atoi` read from `&s[pos]`
on. -/
def textReads (s : List Char) (pos : Nat) : List Nat :=
  let p := skipDot s pos
  pos :: if p ≥ s.length then [] else List.range' p (((s.drop p).takeWhile Char.isDigit).length + 1)

/-- The turn with its position, the values so far and the positions indexed so far. -/
def textStep (s : List Char) : Nat × List oid × List Nat → (Nat × List oid × List Nat) ⊕ (List oid × List Nat)
  | (pos, v, reads) =>
    match textTurn s pos with
    | (ns, none)      => .inr (v ++ ns, reads ++ textReads s pos)
    | (ns, some pos') => .inl (pos', v ++ ns, reads ++ textReads s pos)

theorem dot_not_digit : Char.isDigit '.' = false := rfl

/-! ## The loop is the scan -/

theorem skipDot_le {s : List Char} {pos : Nat} (h : pos ≤ s.length) : skipDot s pos ≤ s.length := by
  unfold skipDot
  split
  · rename_i hdot
    exact (List.getElem?_eq_some_iff.1 hdot).1
  · exact h

theorem drop_skipDot (s : List Char) (pos : Nat) : s.drop (skipDot s pos) = Dotted.skip '.' (s.drop pos) := by
  unfold skipDot
  by_cases hdot : s[pos]? = some '.'
  · obtain ⟨hlt, hc⟩ := List.getElem?_eq_some_iff.1 hdot
    rw [if_pos hdot, List.drop_eq_getElem_cons hlt, hc, Dotted.skip_sep]
  · rw [if_neg hdot, Dotted.skip_of_head (by rw [List.head?_drop]; exact hdot)]

theorem textTurn_stop {s : List Char} {pos : Nat}
    (h : (Dotted.skip '.' (s.drop pos)).head?.any Char.isDigit = false) : textTurn s pos = ([], none) := by
  unfold textTurn
  simp only
  rw [drop_skipDot, if_pos h, ite_self]

theorem textTurn_run {s ds rest : List Char} {pos : Nat} (hpos : pos ≤ s.length)
    (hskip : Dotted.skip '.' (s.drop pos) = ds ++ rest) (hds : ds ∈ Dotted.digits Char.isDigit)
    (hrest : rest.head?.any Char.isDigit = false) :
    textTurn s pos = ([groupValue ds], if rest = [] then none else some (s.length - rest.length)) := by
  have hdrop : s.drop (skipDot s pos) = ds ++ rest := (drop_skipDot s pos).trans hskip
  have hpre : (s.take (skipDot s pos)).length = skipDot s pos := by
    rw [List.length_take, Nat.min_eq_left (skipDot_le hpos)]
  have hs : s = s.take (skipDot s pos) ++ (ds ++ rest) := by rw [← hdrop, List.take_append_drop]
  have hlen : s.length = skipDot s pos + (ds.length + rest.length) := by
    have := congrArg List.length hs
    rwa [List.length_append, List.length_append, hpre] at this
  have hfind : findFirstNotOfDigits s (skipDot s pos)
      = if rest = [] then none else some (skipDot s pos + ds.length) := by
    have hgroup := findFirstNotOfDigits_group hds.2 hrest (s.take (skipDot s pos))
    rwa [← hs, hpre] at hgroup
  have hne := List.length_pos_iff.2 hds.1
  have hin : ¬ skipDot s pos ≥ s.length := by omega
  have hnext : skipDot s pos + ds.length = s.length - rest.length := by omega
  unfold textTurn
  simp only
  rw [if_neg hin, hdrop, Dotted.head_digits hds, if_neg (by simp), hfind, atoi_group hds.2 hrest, hnext, groupValue]

/-- The position behind a run is where the rest begins. -/
theorem drop_rest {s ds rest : List Char} {pos : Nat} (hskip : Dotted.skip '.' (s.drop pos) = ds ++ rest) :
    s.drop (s.length - rest.length) = rest := by
  have hsuf : rest <:+ s := by
    refine List.IsSuffix.trans ⟨ds, hskip.symm⟩ ?_
    rw [← drop_skipDot]
    exact List.drop_suffix _ _
  exact (List.suffix_iff_eq_drop.1 hsuf).symm

theorem eq_nil_of_reads_nil {tail : List Char} {rs : List (List Char)} (h : Reads '.' Char.isDigit [] rs tail) :
    rs = [] := by
  cases h with
  | stop => rfl
  | turn hskip hds => exact absurd (List.append_eq_nil_iff.1 hskip.symm).1 hds.1

theorem textLoop_of_reads {s : List Char} : ∀ {u tail : List Char} {rs : List (List Char)},
    Reads '.' Char.isDigit u rs tail → ∀ (turns pos : Nat) (v : List oid), s.drop pos = u → pos ≤ s.length →
      s.length - pos < turns → textLoop s turns pos v = v ++ rs.map groupValue := by
  intro u tail rs h
  induction h with
  | stop hstop =>
    rintro (_ | turns) pos v rfl _ hturns
    · omega
    · rw [textLoop, textTurn_stop hstop]
      rfl
  | @turn u ds rest tail rs hskip hds hrest h ih =>
    rintro (_ | turns) pos v rfl hpos hturns
    · omega
    · rw [textLoop, textTurn_run hpos hskip hds hrest]
      by_cases hnil : rest = []
      · have hrs : rs = [] := eq_nil_of_reads_nil (hnil ▸ h)
        rw [if_pos hnil, hrs]
        rfl
      · have hturn := textTurn_run hpos hskip hds hrest
        rw [if_neg hnil] at hturn ⊢
        have hb := textTurn_bound hturn
        simp only
        rw [ih turns _ _ (drop_rest hskip) (Nat.sub_le _ _) (by omega), List.append_assoc]
        rfl

/-- **Appending text appends the value of every run the scan passes.** -/
theorem appendText_of_reads {s tail : List Char} {rs : List (List Char)} (h : Reads '.' Char.isDigit s rs tail)
    (o : OID) : o.appendText s = ⟨o.v ++ rs.map groupValue⟩ := by
  unfold appendText
  rw [textLoop_of_reads h (s.length + 1) 0 o.v rfl (Nat.zero_le _) (by omega)]

/-! ## The loop ends and stays in the string -/

theorem textReads_le {s : List Char} {pos : Nat} (hpos : pos ≤ s.length) : ∀ i ∈ textReads s pos, i ≤ s.length := by
  intro i hi
  unfold textReads at hi
  rcases List.mem_cons.1 hi with rfl | hi
  · exact hpos
  · split at hi
    · cases hi
    · have hle := (List.takeWhile_sublist (p := Char.isDigit) (l := s.drop (skipDot s pos))).length_le
      rw [List.length_drop] at hle
      rw [List.mem_range'_1] at hi
      omega

theorem textStep_ends (s : List Char) (v : List oid) :
    ∃ reads, Loop.run (textStep s) (s.length + 1) (0, v, []) = some (textLoop s (s.length + 1) 0 v, reads) ∧
      ∀ i ∈ reads, i ≤ s.length := by
  let I : Nat × List oid × List Nat → Prop := fun st =>
    st.1 ≤ s.length ∧ (∀ i ∈ st.2.2, i ≤ s.length) ∧
      textLoop s (s.length - st.1 + 1) st.1 st.2.1 = textLoop s (s.length + 1) 0 v
  let Q : List oid × List Nat → Prop := fun r =>
    r.1 = textLoop s (s.length + 1) 0 v ∧ ∀ i ∈ r.2, i ≤ s.length
  have happend : ∀ {reads : List Nat} {pos : Nat}, (∀ i ∈ reads, i ≤ s.length) → pos ≤ s.length →
      ∀ i ∈ reads ++ textReads s pos, i ≤ s.length := fun hreads hpos i hi =>
    (List.mem_append.1 hi).elim (hreads i) (textReads_le hpos i)
  have hon : ∀ st st', I st → textStep s st = .inl st' → I st' ∧ s.length - st'.1 < s.length - st.1 := by
    rintro ⟨pos, v, reads⟩ st' ⟨hpos, hreads, hloop⟩ hst
    simp only at hpos hreads hloop
    unfold textStep at hst
    rcases ht : textTurn s pos with ⟨ns, _ | pos'⟩ <;> simp only [ht] at hst
    · cases hst
    · cases hst
      have hb := textTurn_bound ht
      refine ⟨⟨Nat.le_of_lt hb.2, happend hreads hpos, ?_⟩, by simp only; omega⟩
      rw [textLoop, ht] at hloop
      exact (textLoop_enough s _ _ pos' (v ++ ns) (by omega) (by omega)).trans hloop
  have hend : ∀ st r, I st → textStep s st = .inr r → Q r := by
    rintro ⟨pos, v, reads⟩ r ⟨hpos, hreads, hloop⟩ hst
    simp only at hpos hreads hloop
    unfold textStep at hst
    rcases ht : textTurn s pos with ⟨ns, _ | pos'⟩ <;> simp only [ht] at hst
    · cases hst
      rw [textLoop, ht] at hloop
      exact ⟨hloop, happend hreads hpos⟩
    · cases hst
  obtain ⟨r, hrun, hv, hreads⟩ := Loop.run_of_variant (I := I) (Q := Q) (fun st => s.length - st.1) hon hend
    (s.length + 1) (0, v, []) ⟨Nat.zero_le _, by simp, rfl⟩ (by simp only; omega)
  exact ⟨r.2, hrun.trans (congrArg some (Prod.ext hv rfl)), hreads⟩

/-! ## The grammar -/

/-- What a C string loses behind its NUL says nothing to the parser. -/
theorem appendText_cString (o : OID) (s : List Char) : o.appendText (cString s) = o.appendText s := by
  obtain ⟨rs, tail, h⟩ := Dotted.reads_total '.' Char.isDigit (cString s)
  have hsplit : cString s ++ s.dropWhile (fun c => c.toNat != 0) = s := List.takeWhile_append_dropWhile
  have hhead : ∀ c, (s.dropWhile (fun c => c.toNat != 0)).head? = some c → c.toNat = 0 := fun c hc => by
    have := List.head?_dropWhile_not (fun c : Char => c.toNat != 0) s
    rw [hc] at this
    simpa using this
  have hdigit : (s.dropWhile (fun c => c.toNat != 0)).head?.any Char.isDigit = false := by
    cases hc : (s.dropWhile (fun c => c.toNat != 0)).head? with
    | none => rfl
    | some c =>
      have hnul : c = Char.ofNat 0 := by rw [← hhead c hc, Char.ofNat_toNat]
      rw [hnul]
      rfl
  have hdot : (s.dropWhile (fun c => c.toNat != 0)).head? ≠ some '.' := fun hc => by
    have := hhead _ hc
    exact absurd this (by decide)
  obtain ⟨tail', h'⟩ := h.junk hdigit hdot
  rw [hsplit] at h'
  rw [appendText_of_reads h, appendText_of_reads h']

/-- **The text parser accepts exactly its grammar and always ends.**  The loop ends within one turn more than the
string has characters and indexes nothing behind its terminator; what it appends is the value of each digit run of the
longest prefix in the grammar, whatever stands behind that prefix; the result has the OID it was appended to for its
parent, as many levels up as there are runs; and the other operators that take text agree with it. -/
theorem text_accepts_grammar (o : OID) (s : List Char) :
    (∃ reads, Loop.run (textStep s) (s.length + 1) (0, o.v, []) = some ((o.appendText s).v, reads) ∧
      ∀ i ∈ reads, i ≤ s.length) ∧
    (∃ pre, Longest dotted pre s ∧
      let groups := Dotted.runs Char.isDigit pre
      o.appendText s = ⟨o.v ++ groups.map (fun ds => (atoi ds).toInt64.toUInt64)⟩ ∧
      (∀ s', Longest dotted pre s' → o.appendText s' = o.appendText s) ∧
      (o.appendText s = o ∨ (o.empty = false → (o.appendText s).isChildOf o = true)) ∧
      (o.appendText s).parent groups.length = o) ∧
    o.plusAssignText s = o.appendText s ∧ o.setText s = appendText ⟨[]⟩ s ∧ o.assignText s = appendText ⟨[]⟩ s ∧
    ofText s = appendText ⟨[]⟩ s ∧ o.setCString (some s) = appendText ⟨[]⟩ s ∧
    o.assignCString (some s) = appendText ⟨[]⟩ s ∧ ofCString (some s) = appendText ⟨[]⟩ s := by
  have hvalue : ∀ s', ∃ pre, Longest dotted pre s' ∧
      o.appendText s' = ⟨o.v ++ (Dotted.runs Char.isDigit pre).map groupValue⟩ := fun s' => by
    obtain ⟨rs, tail, h⟩ := Dotted.reads_total '.' Char.isDigit s'
    obtain ⟨pre, -, hlong, rfl⟩ := h.longest dot_not_digit
    exact ⟨pre, hlong, appendText_of_reads h o⟩
  obtain ⟨pre, hlong, happ⟩ := hvalue s
  have hc := appendText_cString ⟨[]⟩ s
  refine ⟨textStep_ends s o.v, ⟨pre, hlong, happ, fun s' hs' => ?_, ?_, ?_⟩, rfl, rfl, rfl, rfl, hc, hc, hc⟩
  · obtain ⟨pre', hlong', happ'⟩ := hvalue s'
    rw [happ, happ', hs'.unique hlong']
  · by_cases hnil : Dotted.runs Char.isDigit pre = []
    · rw [happ, hnil, List.map_nil, List.append_nil]
      exact .inl rfl
    · rw [happ]
      refine .inr (fun ho => isChildOf_iff.2 ⟨v_ne_nil ho, Stem.over_append o.v ?_⟩)
      exact fun hmap => hnil (List.map_eq_nil_iff.1 hmap)
  · rw [happ, parent_eq_iff]
    have hlen : (Dotted.runs Char.isDigit pre).length = ((Dotted.runs Char.isDigit pre).map groupValue).length :=
      (List.length_map _).symm
    rw [hlen, Stem.rdrop_append_length]

/-! ## Text in pieces -/

/-- A text read to its end, and one behind it that begins with no digit. -/
theorem appendText_append {s t : List Char} {rs : List (List Char)} (h : Reads '.' Char.isDigit s rs [])
    (ht : t.head?.any Char.isDigit = false) (o : OID) : (o.appendText s).appendText t = o.appendText (s ++ t) := by
  obtain ⟨rs', tail, h'⟩ := Dotted.reads_total '.' Char.isDigit t
  rw [appendText_of_reads h, appendText_of_reads h', appendText_of_reads (h.append ht h'), List.map_append,
    List.append_assoc]

theorem appendText_dot {t : List Char} (ht : t.head? ≠ some '.') (o : OID) :
    o.appendText ('.' :: t) = o.appendText t := by
  obtain ⟨rs, tail, h⟩ := Dotted.reads_total '.' Char.isDigit t
  obtain ⟨tail', h'⟩ := h.sep_cons ht
  rw [appendText_of_reads h, appendText_of_reads h']

theorem appendText_nil (o : OID) : o.appendText [] = o := by
  rw [appendText_of_reads (.stop rfl), List.map_nil, List.append_nil]

/-- The dot behind a text read to its end may go with either piece. -/
theorem appendText_snoc_dot {s t : List Char} {rs : List (List Char)} (h : Reads '.' Char.isDigit s rs [])
    (ht : t.head? ≠ some '.') (o : OID) :
    (o.appendText (s ++ ['.'])).appendText t = o.appendText (s ++ ['.'] ++ t) := by
  have hdot : o.appendText (s ++ ['.']) = o.appendText s := by
    rw [← appendText_append h rfl, appendText_dot (by simp), appendText_nil]
  calc (o.appendText (s ++ ['.'])).appendText t
      = (o.appendText s).appendText ('.' :: t) := by rw [hdot, appendText_dot ht]
    _ = o.appendText (s ++ '.' :: t) := appendText_append h rfl o
    _ = o.appendText (s ++ ['.'] ++ t) := by rw [List.append_assoc]; rfl

/-- **Cut at a dot**, on either side of it, a plain text may be appended in two pieces. -/
theorem appendText_cut {s t : List Char} (hplain : Dotted.Plain '.' Char.isDigit (s ++ t))
    (hcut : s = [] ∨ t = [] ∨ t.head? = some '.' ∨ s.getLast? = some '.') (o : OID) :
    (o.appendText s).appendText t = o.appendText (s ++ t) := by
  by_cases hlast : s.getLast? = some '.'
  · obtain ⟨s', rfl⟩ := List.getLast?_eq_some_iff.1 hlast
    obtain ⟨rs, tail, h⟩ := Dotted.reads_total '.' Char.isDigit s'
    have hs' : s'.getLast? ≠ some '.' := fun hc => hplain.of_append.1.head_of_last hc rfl
    rw [h.eq_nil_of_plain hplain.of_append.1.of_append.1 hs'] at h
    exact appendText_snoc_dot h (hplain.head_of_last hlast) o
  · obtain ⟨rs, tail, h⟩ := Dotted.reads_total '.' Char.isDigit s
    rw [h.eq_nil_of_plain hplain.of_append.1 hlast] at h
    rcases hcut with rfl | rfl | ht | hs
    · rw [appendText_nil, List.nil_append]
    · rw [appendText_nil, List.append_nil]
    · exact appendText_append h (by rw [ht]; rfl) o
    · exact absurd hs hlast

theorem foldl_appendText (o : OID) (pieces : List (List Char)) (hplain : Dotted.Plain '.' Char.isDigit pieces.flatten)
    (hcut : ∀ a b, pieces = a ++ b → a.flatten = [] ∨ b.flatten = [] ∨ b.flatten.head? = some '.' ∨
      a.flatten.getLast? = some '.') :
    pieces.foldl appendText o = o.appendText pieces.flatten := by
  induction pieces using List.reverseRecOn with
  | nil => exact (appendText_nil o).symm
  | append_singleton a t ih =>
    rw [List.flatten_append, List.flatten_singleton] at hplain ⊢
    have hlast := hcut a [t] rfl
    rw [List.flatten_singleton] at hlast
    rw [List.foldl_append, ih hplain.of_append.1 (fun x y hxy => ?_)]
    · exact appendText_cut hplain hlast o
    · have hxt := hcut x (y ++ [t]) (by rw [hxy, List.append_assoc])
      rw [List.flatten_append] at hxt
      cases hy : y.flatten with
      | nil => exact .inr (.inl rfl)
      | cons c cs =>
        rw [hy] at hxt
        exact hxt.imp_right (fun h => .inr (h.resolve_left (by simp)))

/-- **Appending text piecewise is appending it at once**, where the first piece ends at the boundary of a group and the
second may hold anything; and so is any number of pieces cut at the dots of a dotted string. -/
theorem text_pieces :
    (∀ (o : OID) (s t : List Char),
      (s ∈ dotted ∧ (t = [] ∨ t.head? = some '.')) ∨
        ((s = ['.'] ∨ ∃ s' ∈ dotted, s = s' ++ ['.']) ∧ t.head? ≠ some '.') →
      (o.appendText s).appendText t = o.appendText (s ++ t)) ∧
    ∀ (o : OID) (pieces : List (List Char)),
      (pieces.flatten ∈ dotted ∨ ∃ s ∈ dotted, pieces.flatten = s ++ ['.']) →
      (∀ a b, pieces = a ++ b → a.flatten = [] ∨ b.flatten = [] ∨ b.flatten.head? = some '.' ∨
        a.flatten.getLast? = some '.') →
      pieces.foldl plusAssignText o = o.plusAssignText pieces.flatten := by
  constructor
  · rintro o s t (⟨hs, ht⟩ | ⟨rfl | ⟨s', hs', rfl⟩, ht⟩)
    · obtain ⟨rs, h⟩ := Dotted.reads_of_mem dot_not_digit hs
      apply appendText_append h
      rcases ht with rfl | ht
      · rfl
      · rw [ht]; rfl
    · exact appendText_snoc_dot (s := []) (.stop rfl) ht o
    · obtain ⟨rs, h⟩ := Dotted.reads_of_mem dot_not_digit hs'
      exact appendText_snoc_dot h ht o
  · intro o pieces hdotted hcut
    apply foldl_appendText o pieces _ hcut
    rcases hdotted with hmem | ⟨s, hs, heq⟩
    · obtain ⟨rs, h⟩ := Dotted.reads_of_mem dot_not_digit hmem
      exact (h.plain dot_not_digit rfl).of_append.1
    · obtain ⟨rs, h⟩ := Dotted.reads_of_mem dot_not_digit hs
      rw [heq]
      exact h.plain dot_not_digit rfl

end OID
end Snmppp
