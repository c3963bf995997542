import Snmppp.Views
import Snmppp.PduRun
import Snmppp.OidText
/-!
# Listing — the printed listing of a variable list (Varlist.cpp, PDU.cpp)

`operator<<` copies the names of the list and looks each type and text up again by its name, so behind a repeated name
it shows what the lookups find, the first varbind of the name.  The listing describes the list exactly when varbinds of
one name have one type and one text (`Varlist.print_describes_iff`).
-/
namespace Snmppp

/-- What one turn of `operator<<` writes: a name, an ASN type and a text. -/
def entryText (o : OID) (type : UInt8) (txt : List Char) : List Char :=
  "\t".toList ++ o.toStr ++ ": ASN type=".toList ++ Nat.toDigits 10 type.toNat ++ ", txt=".toList ++ txt ++ "\n".toList

namespace Varlist

/-- The loop of `operator<<`: what each turn writes. -/
def printLoop (sprint : SprintValue) (vl : List Varbind) : VecOID → Res (List (List Char))
  | []     => pure []
  | o :: v => do
    let type ← asnType vl o
    let txt ← asString sprint vl o
    let es ← printLoop sprint vl v
    pure (entryText o type txt :: es)

/-- `operator<<( std::ostream &, const Varlist & )`: what each of its statements writes, first the number of OIDs. -/
def print (sprint : SprintValue) (vl : List Varbind) : Res (List (List Char)) := do
  let v := getOids vl []
  let es ← printLoop sprint vl v
  pure (("Number of OIDs in the variable list: ".toList ++ Nat.toDigits 10 v.length ++ "\n".toList) :: es)

end Varlist

/-- `operator<<( std::ostream &, const PDU & )`. -/
def PDU.print (sprint : SprintValue) (h : PDU) : Snmp (List (List Char)) := do
  let e ← h.empty
  if e then pure ["PDU is empty.\n".toList]
  else do
    let vl ← h.varlist
    let c ← chain vl.varlist
    Run.result (Varlist.print sprint c)

/-! ## What an entry shows -/

/-- A number and a text can be told from the text they are written into, when no digit follows the number. -/
theorem numbered_inj {front sep last txt txt' : List Char} {m n : Nat}
    (hsep : ∀ rest : List Char, (sep ++ rest).head?.any Char.isDigit = false)
    (h : front ++ Nat.toDigits 10 m ++ sep ++ txt ++ last = front ++ Nat.toDigits 10 n ++ sep ++ txt' ++ last) :
    m = n ∧ txt = txt' := by
  simp only [List.append_assoc, List.append_cancel_left_eq] at h
  have hdigits := congrArg (List.takeWhile Char.isDigit) h
  rw [OID.takeWhile_group (OID.isDigit_toDigits m) (hsep _),
    OID.takeWhile_group (OID.isDigit_toDigits n) (hsep _)] at hdigits
  rw [hdigits, List.append_cancel_left_eq, List.append_cancel_left_eq, List.append_cancel_right_eq] at h
  exact ⟨OID.toDigits_inj hdigits, h⟩

theorem entryText_inj {o : OID} {t t' : UInt8} {txt txt' : List Char} :
    entryText o t txt = entryText o t' txt' ↔ t = t' ∧ txt = txt' := by
  constructor
  · intro h
    obtain ⟨ht, htxt⟩ := numbered_inj (fun _ => rfl) h
    exact ⟨UInt8.toNat_inj.1 ht, htxt⟩
  · rintro ⟨rfl, rfl⟩
    rfl

namespace Varlist

/-- The entry that describes a varbind. -/
def entryOf (sprint : SprintValue) (b : Varbind) : List Char :=
  entryText ⟨b.name⟩ b.type (valueText (sprint ⟨b.name⟩ b))

/-- Varbinds of one name have one type and one text. -/
def SameShown (sprint : SprintValue) (vl : List Varbind) : Prop :=
  ∀ b ∈ vl, ∀ c ∈ vl, b.name = c.name →
    b.type = c.type ∧ valueText (sprint ⟨b.name⟩ b) = valueText (sprint ⟨c.name⟩ c)

/-- The first varbind of the name of `b`; what the lookups find. -/
theorem exists_lookup {vl : List Varbind} {b : Varbind} (hb : b ∈ vl) :
    ∃ p ∈ vl, p.name = b.name ∧ ∀ c ∈ vl, c.name = b.name → lookup vl ⟨c.name⟩ = .ok p := by
  obtain ⟨pre, p, post, rfl, hp, hpre⟩ := exists_first (o := ⟨b.name⟩) ⟨b, hb, rfl⟩
  refine ⟨p, by simp, hp, fun c _ hc => ?_⟩
  rw [hc, lookup, atOID_first hp hpre]
  rfl

/-- **The loop writes, of every name, what the lookups find under it.** -/
theorem printLoop_eq (sprint : SprintValue) (vl : List Varbind) : ∀ l : List Varbind, (∀ b ∈ l, b ∈ vl) →
    ∃ es, printLoop sprint vl (oidsOf l) = .ok es ∧ es.length = l.length ∧
      ∀ (i : Nat) (b p : Varbind), l[i]? = some b → lookup vl ⟨b.name⟩ = .ok p →
        es[i]? = some (entryText ⟨b.name⟩ p.type (valueText (sprint ⟨b.name⟩ p)))
  | [], _     => ⟨[], rfl, rfl, fun i b p hi => absurd hi (by simp)⟩
  | b :: l, h => by
    obtain ⟨es, hrun, hlen, hes⟩ := printLoop_eq sprint vl l (fun c hc => h c (List.mem_cons_of_mem b hc))
    obtain ⟨p, -, -, hlook⟩ := exists_lookup (h b List.mem_cons_self)
    have hfind := hlook b (h b List.mem_cons_self) rfl
    refine ⟨entryText ⟨b.name⟩ p.type (valueText (sprint ⟨b.name⟩ p)) :: es, ?_, by simp [hlen], fun i c q hc hq => ?_⟩
    · have hcons : oidsOf (b :: l) = ⟨b.name⟩ :: oidsOf l := rfl
      rw [hcons, printLoop, asnType_of_lookup hfind, asString_of_lookup sprint hfind, hrun]
      rfl
    · cases i with
      | zero =>
        cases hc
        rw [hfind] at hq
        cases hq
        rfl
      | succ i => exact hes i c q hc hq

/-- **The listing describes the list it prints exactly when varbinds of one name show the same**: then its entry at
every position shows the name, the type and the text of the varbind there. -/
theorem print_describes_iff (sprint : SprintValue) (vl : List Varbind) :
    ∃ out, print sprint vl = .ok out ∧ out.length = vl.length + 1 ∧
      (∀ (w : World) (h : PDU) (p : PduPtr) (d : NetsnmpPdu), h.pdu = some p → w.pdus.cell p = some d →
        w.vars d.variableList = some vl → vl ≠ [] → h.print sprint w = (.ok out, w)) ∧
      ((∀ (i : Nat) (b : Varbind), vl[i]? = some b → out[i + 1]? = some (entryOf sprint b)) ↔
        SameShown sprint vl) := by
  obtain ⟨es, hrun, hlen, hes⟩ := printLoop_eq sprint vl vl (fun _ hb => hb)
  have hprint : print sprint vl = .ok (("Number of OIDs in the variable list: ".toList ++
      Nat.toDigits 10 (getOids vl []).length ++ "\n".toList) :: es) := by
    rw [print, getOids_eq]
    unfold oidsOf at hrun
    rw [hrun]
    rfl
  refine ⟨_, hprint, by rw [List.length_cons, hlen], fun w h p d hp hd hvs hne => ?_, ?_⟩
  · have hvl : d.variableList ≠ none := fun hc => hne ((World.vars_eq_nil_iff hvs).2 hc)
    rw [PDU.print, Run.bind_ok (PDU.empty_ok hp hd), Option.isNone_eq_false_iff.2 (Option.isSome_iff_ne_none.2 hvl),
      if_neg Bool.false_ne_true, Run.bind_ok (PDU.varlist_ok hp hd hvl), Run.bind_ok (chain_ok hvs), hprint]
    rfl
  · constructor
    · intro hall b hb c hc hname
      obtain ⟨p, -, -, hlook⟩ := exists_lookup hb
      have hshows : ∀ x ∈ vl, x.name = b.name →
          p.type = x.type ∧ valueText (sprint ⟨x.name⟩ p) = valueText (sprint ⟨x.name⟩ x) := fun x hx hxb => by
        obtain ⟨i, hi⟩ := List.mem_iff_getElem?.1 hx
        exact entryText_inj.1 (Option.some.inj ((hes i x p hi (hlook x hx hxb)).symm.trans (hall i x hi)))
      obtain ⟨htb, hxb⟩ := hshows b hb rfl
      obtain ⟨htc, hxc⟩ := hshows c hc hname.symm
      rw [← hname] at hxc ⊢
      exact ⟨htb.symm.trans htc, hxb.symm.trans hxc⟩
    · intro hsame i b hi
      have hb := List.mem_of_getElem? hi
      obtain ⟨p, hp, hpb, hlook⟩ := exists_lookup hb
      obtain ⟨ht, hx⟩ := hsame p hp b hb hpb
      rw [hpb] at hx
      rw [List.getElem?_cons_succ, hes i b p hi (hlook b hb rfl), ht, hx]
      rfl

/-- The second of two varbinds of one name is shown as the first. -/
theorem print_repeats :
    let vl : List Varbind := [⟨[1, 3], ASN_INTEGER, [7, 0, 0, 0, 0, 0, 0, 0]⟩, ⟨[1, 3], 130, []⟩]
    let sprint : SprintValue := fun _ b => if b.type = ASN_INTEGER then "INTEGER: 7".toList else "No more".toList
    ∃ out, print sprint vl = .ok out ∧ out[2]? = some "\t.1.3: ASN type=2, txt=7\n".toList ∧
      entryOf sprint ⟨[1, 3], 130, []⟩ = "\t.1.3: ASN type=130, txt=No more\n".toList ∧
      ¬ ∀ (i : Nat) (b : Varbind), vl[i]? = some b → out[i + 1]? = some (entryOf sprint b) := by
  refine ⟨_, rfl, by decide, by decide, fun hall => ?_⟩
  exact absurd (hall 1 _ rfl) (by decide)

end Varlist
end Snmppp
