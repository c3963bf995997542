import Snmppp.OidParse
/-!
# OidPrint — the text of an OID, and reading it back (OID.cpp)

`operator std::string` writes a chain of `Dotted`, the decimal digits of one value a run (`OID.toStr_eq_text`).  The
runs of the text are those it was written from, so two OIDs with one text are one OID, and the parser's loop passes the
text to its end (`OID.print_exact`).  What may differ when the text is read back is only the number `atoi` makes of a
run (`OID.appendText_toStr`, `OID.text_round_trip_iff`).
-/
namespace Snmppp
namespace OID

open Dotted (Reads Longest)

/-- The digits `operator std::string` writes for one value. -/
def decimal (n : oid) : List Char := Nat.toDigits 10 n.toNat

theorem decimal_mem_digits (n : oid) : decimal n ∈ Dotted.digits Char.isDigit :=
  ⟨Nat.toDigits_ne_nil, isDigit_toDigits n.toNat⟩

theorem decimal_injective : Function.Injective decimal := fun _ _ h => UInt64.toNat_inj.1 (toDigits_inj h)

theorem toStr_eq_text (a : OID) : a.toStr = Dotted.text '.' (a.v.map decimal) := by
  rw [toStr, Dotted.text, List.flatMap_map]
  rfl

theorem mem_digits_of_mem_map (a : OID) : ∀ ds ∈ a.v.map decimal, ds ∈ Dotted.digits Char.isDigit := by
  intro ds hds
  obtain ⟨n, -, rfl⟩ := List.mem_map.1 hds
  exact decimal_mem_digits n

theorem runs_toStr (a : OID) : Dotted.runs Char.isDigit a.toStr = a.v.map decimal := by
  rw [toStr_eq_text, Dotted.runs_text dot_not_digit (mem_digits_of_mem_map a)]

/-- **One text, one OID.** -/
theorem toStr_injective {a b : OID} (h : a.toStr = b.toStr) : a = b := by
  have hruns : a.v.map decimal = b.v.map decimal := by rw [← runs_toStr, ← runs_toStr, h]
  exact congrArg OID.mk (List.map_injective_iff.2 decimal_injective hruns)

theorem reads_toStr (a : OID) : Reads '.' Char.isDigit a.toStr (a.v.map decimal) [] := by
  rw [toStr_eq_text]
  exact Dotted.reads_text dot_not_digit (mem_digits_of_mem_map a)

theorem longest_toStr (a : OID) : Longest dotted a.toStr a.toStr := by
  obtain ⟨pre, hpre, hlong, -⟩ := (reads_toStr a).longest dot_not_digit
  rw [List.append_nil] at hpre
  exact hpre ▸ hlong

/-! ## Reading back -/

/-- **Appending the text of an OID appends its values as they read back.** -/
theorem appendText_toStr (o a : OID) : o.appendText a.toStr = ⟨o.v ++ a.v.map readBack⟩ := by
  rw [appendText_of_reads (reads_toStr a), List.map_map]
  rfl

theorem setText_toStr (o a : OID) : o.setText a.toStr = ⟨a.v.map readBack⟩ := appendText_toStr o.clear a

theorem ofText_toStr_iff (o : OID) : ofText o.toStr = o ↔ ∀ n ∈ o.v, readBack n = n := by
  rw [ofText, setText_toStr, ← map_readBack_eq_iff]
  exact ⟨fun h => congrArg OID.v h, fun h => congrArg OID.mk h⟩

/-- **The text round trip**: on sub-identifiers of the SNMP range, parsing an OID's own text gives it back, into a new
object and into any old one, exactly when every sub-identifier is below 2^31. -/
theorem text_round_trip_iff (o : OID) (hrange : ∀ n ∈ o.v, n.toNat < 2 ^ 32) :
    (ofText o.toStr = o ∧ ∀ o₂ : OID, o₂.setText o.toStr = o) ↔ ∀ n ∈ o.v, n.toNat < 2 ^ 31 := by
  have hval : ∀ n ∈ o.v, (readBack n = n ↔ n.toNat < 2 ^ 31) := fun n hn => by
    have := hrange n hn
    rw [readBack_eq_iff]
    omega
  constructor
  · rintro ⟨h, -⟩ n hn
    exact (hval n hn).1 ((ofText_toStr_iff o).1 h n hn)
  · intro h
    have hall := (ofText_toStr_iff o).2 (fun n hn => (hval n hn).2 (h n hn))
    exact ⟨hall, fun o₂ => hall⟩

theorem text_round_trip_witness :
    (ofText (toStr ⟨[1, 3, 2147483647]⟩) = ⟨[1, 3, 2147483647]⟩ ∧
      ∀ o₂ : OID, o₂.setText (toStr ⟨[1, 3, 2147483647]⟩) = ⟨[1, 3, 2147483647]⟩) ↔
      ∀ n ∈ ([1, 3, 2147483647] : List oid), n.toNat < 2 ^ 31 :=
  text_round_trip_iff ⟨[1, 3, 2147483647]⟩ (by simp)

/-- **A sub-identifier of 2^31 comes back sign-extended.** -/
theorem text_round_trip_fails :
    (∀ n ∈ ([1, 3, 2147483648] : List oid), n.toNat < 2 ^ 32) ∧
      ¬ (ofText (toStr ⟨[1, 3, 2147483648]⟩) = ⟨[1, 3, 2147483648]⟩ ∧
        ∀ o₂ : OID, o₂.setText (toStr ⟨[1, 3, 2147483648]⟩) = ⟨[1, 3, 2147483648]⟩) := by
  have h : ofText (toStr ⟨[1, 3, 2147483648]⟩) = ⟨[1, 3, 18446744071562067968]⟩ := by decide
  refine ⟨by simp, fun hc => ?_⟩
  rw [h] at hc
  exact absurd hc.1 (by decide)

/-! ## The loop passes the whole text -/

/-- Every position before the one a turn goes on from has been read. -/
theorem mem_textReads {s ds rest : List Char} {pos i : Nat}
    (hskip : Dotted.skip '.' (s.drop pos) = ds ++ rest) (hds : ds ∈ Dotted.digits Char.isDigit)
    (hrest : rest.head?.any Char.isDigit = false) (hi : pos ≤ i) (hlt : i < s.length - rest.length) :
    i ∈ textReads s pos := by
  have hdrop : s.drop (skipDot s pos) = ds ++ rest := (drop_skipDot s pos).trans hskip
  have hlen := congrArg List.length hdrop
  rw [List.length_drop, List.length_append] at hlen
  have hne := List.length_pos_iff.2 hds.1
  unfold textReads
  simp only
  rw [if_neg (by omega), hdrop, takeWhile_group hds.2 hrest, List.mem_cons, List.mem_range'_1]
  -- the turn moves at most one character before its run
  have hskip1 : skipDot s pos ≤ pos + 1 := by
    unfold skipDot
    split <;> omega
  omega

/-- **A text scanned to its end is read by the loop, every character of it.** -/
theorem textStep_reads_all {s : List Char} : ∀ {u tail : List Char} {rs : List (List Char)},
    Reads '.' Char.isDigit u rs tail → tail = [] → ∀ (turns pos : Nat) (v : List oid) (reads : List Nat),
      s.drop pos = u → pos ≤ s.length → s.length - pos < turns → (∀ i < pos, i ∈ reads) →
      ∃ reads', Loop.run (textStep s) turns (pos, v, reads) = some (v ++ rs.map groupValue, reads') ∧
        ∀ i < s.length, i ∈ reads' := by
  intro u tail rs h htail
  induction h with
  | stop hstop =>
    rintro (_ | turns) pos v reads rfl _ hturns hreads
    · omega
    · have hend : s.length ≤ pos := List.drop_eq_nil_iff.1 htail
      have hstep : textStep s (pos, v, reads) = .inr (v ++ [], reads ++ textReads s pos) := by
        unfold textStep
        simp only [textTurn_stop hstop]
      refine ⟨_, Loop.run_end hstep turns, fun i hi => List.mem_append_left _ (hreads i (by omega))⟩
  | @turn u ds rest tail rs hskip hds hrest h ih =>
    rintro (_ | turns) pos v reads rfl hpos hturns hreads
    · omega
    · have hcover : ∀ i < s.length - rest.length, i ∈ reads ++ textReads s pos := by
        intro i hi
        by_cases hlt : i < pos
        · exact List.mem_append_left _ (hreads i hlt)
        · exact List.mem_append_right _ (mem_textReads hskip hds hrest (Nat.le_of_not_lt hlt) hi)
      have hturn := textTurn_run hpos hskip hds hrest
      by_cases hnil : rest = []
      · rw [if_pos hnil] at hturn
        have hstep : textStep s (pos, v, reads) = .inr (v ++ [groupValue ds], reads ++ textReads s pos) := by
          unfold textStep
          simp only [hturn]
        have hrs : rs = [] := eq_nil_of_reads_nil (hnil ▸ h)
        rw [hnil] at hcover
        rw [hrs]
        exact ⟨_, Loop.run_end hstep turns, hcover⟩
      · rw [if_neg hnil] at hturn
        have hstep : textStep s (pos, v, reads)
            = .inl (s.length - rest.length, v ++ [groupValue ds], reads ++ textReads s pos) := by
          unfold textStep
          simp only [hturn]
        have hb := textTurn_bound hturn
        obtain ⟨reads', hrun, hall⟩ := ih htail turns (s.length - rest.length) (v ++ [groupValue ds])
          (reads ++ textReads s pos) (drop_rest hskip) (Nat.sub_le _ _) (by omega) hcover
        refine ⟨reads', ?_, hall⟩
        rw [Loop.run_on hstep, hrun, List.append_assoc]
        rfl

/-- **Printing never merges two OIDs**: two OIDs of one text are equal, whatever their values.  The text of an OID is
itself the longest prefix the parser's grammar has in it, with a digit run for each value, and the parser's loop reads
all of it and appends one value a run. -/
theorem print_exact :
    (∀ a b : OID, a.toStr = b.toStr → a = b) ∧
    ∀ a : OID,
      Longest dotted a.toStr a.toStr ∧ (Dotted.runs Char.isDigit a.toStr).length = a.size ∧
      ∀ o : OID,
        (o.appendText a.toStr).size = o.size + a.size ∧
        ∃ reads,
          Loop.run (textStep a.toStr) (a.toStr.length + 1) (0, o.v, []) = some ((o.appendText a.toStr).v, reads) ∧
            ∀ i < a.toStr.length, i ∈ reads := by
  refine ⟨fun a b => toStr_injective, fun a => ⟨longest_toStr a, ?_, fun o => ?_⟩⟩
  · rw [runs_toStr, List.length_map]
    rfl
  · have happ := appendText_of_reads (reads_toStr a) o
    refine ⟨?_, ?_⟩
    · rw [happ, OID.size, List.length_append, List.length_map, List.length_map]
      rfl
    · rw [happ]
      exact textStep_reads_all (reads_toStr a) rfl (a.toStr.length + 1) 0 o.v [] rfl (Nat.zero_le _) (by omega)
        (fun i hi => absurd hi (Nat.not_lt_zero i))

end OID
end Snmppp
