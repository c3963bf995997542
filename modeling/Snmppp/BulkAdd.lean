import Snmppp.Adding
import Snmppp.PduRun
/-!
# BulkAdd — what a bulk add leaves when it throws (Varlist.cpp, PDU.cpp)

`addNullVars` stops at the first OID it cannot add and keeps what it has appended until then.  Only a PDU without a
variable list collects the new one apart and sets it when it is complete; everywhere else a bulk add that throws leaves
the list as it was exactly when it throws at its first OID (`AddNullVars.allOrNothing_iff`).
-/
namespace Snmppp

/-- A call of one of the two overloads of `addNullVars`, which `Varlist` and `PDU` both have. -/
inductive AddNullVars where
  | set (s : SetOID)
  | vec (v : VecOID)

namespace AddNullVars

/-- The OIDs in the order of the iteration. -/
def oids : AddNullVars → List OID
  | set s => s.elems
  | vec v => v

variable (env : NetSnmp)

def onVarlist : AddNullVars → Method Varlist Unit
  | set s => Varlist.addNullVarsSet env s
  | vec v => Varlist.addNullVarsVec env v

def onPdu : AddNullVars → Method PDU Unit
  | set s => PDU.addNullVarsSet env s
  | vec v => PDU.addNullVarsVec env v

theorem onVarlist_eq (c : AddNullVars) : c.onVarlist env = Run.each (Varlist.addNullVar env) c.oids := by
  cases c <;> rfl

theorem onPdu_eq (c : AddNullVars) : c.onPdu env = PDU.addVia (c.onVarlist env) := by
  cases c <;> rfl

end AddNullVars

/-! ## All or nothing -/

/-- **All or nothing, on the variable list `vs` of `v`**: it returns and the list is `vs ++ added`, or it throws and
the object and its list are as they were. -/
def Varlist.AllOrNothing (m : Method Varlist Unit) (added : List Varbind) (w : World) (v : Varlist)
    (vs : List Varbind) : Prop :=
  m.Leaves (w, v) (fun _ t => t.1.vars t.2.varlist = some (vs ++ added))
    (fun e t => (∃ x, e = .exn x) ∧ t.2 = v ∧ t.1.vars v.varlist = some vs)

/-- **All or nothing, on the variable list `vs` of the PDU at `p`.** -/
def PDU.AllOrNothing (m : Method PDU Unit) (added : List Varbind) (w : World) (h : PDU) (p : PduPtr) (d : NetsnmpPdu)
    (vs : List Varbind) : Prop :=
  m.Leaves (w, h)
    (fun _ t => t.2 = h ∧ ∃ d', t.1.pdus.cell p = some d' ∧ t.1.vars d'.variableList = some (vs ++ added))
    (fun e t => (∃ x, e = .exn x) ∧ t.2 = h ∧ t.1.pdus.cell p = some d ∧ t.1.vars d.variableList = some vs)

/-- None of the adds of `os`, made from the `n`-th call on, fails, or already the first one does. -/
def NoneOrFirst (env : NetSnmp) (n : Nat) (os : List OID) : Prop :=
  AllAdd env n (os.take 1) → AllAdd env n os

theorem Grows.head_of_nil {w w' : World} {vl vl' : Option VarPtr} {vs : List Varbind} (h : Grows [] w vl w' vl')
    (hv : w.vars vl = some vs) : vl' = vl := by
  rcases h.head with hvl | ⟨rfl, -⟩
  · exact hvl
  · have hvs : vs = [] := (World.vars_eq_nil_iff hv).2 rfl
    have hv' := h.vars vs hv
    rw [hvs, List.append_nil] at hv'
    exact (World.vars_eq_nil_iff hv').1 rfl

/-- **The adds before the one that fails are the ones that stay**: none stays exactly when the first one fails. -/
theorem take_eq_nil_iff {env : NetSnmp} {n k : Nat} {os : List OID} (hk : k < os.length)
    (hall : AllAdd env n (os.take k)) (hstop : ¬ AllAdd env n (os.take (k + 1))) :
    (os.take k).map (nullVarbind env) = [] ↔ NoneOrFirst env n os := by
  constructor
  · intro hnil hfirst
    rw [List.map_eq_nil_iff, List.take_eq_nil_iff] at hnil
    have hk0 : k = 0 := hnil.resolve_right (fun hc => by simp [hc] at hk)
    subst hk0
    exact absurd hfirst hstop
  · intro hnf
    cases k with
    | zero => rfl
    | succ k =>
      refine absurd ((hnf ?_).take (k + 1 + 1)) hstop
      have htake := hall.take 1
      rwa [List.take_take, Nat.min_eq_left (by omega)] at htake

/-- What a bulk add that threw has appended, read off the list. -/
theorem Grows.vars_eq_iff {w w' : World} {vl vl' : Option VarPtr} {vs xs : List Varbind} (h : Grows xs w vl w' vl')
    (hv : w.vars vl = some vs) : (vl' = vl ∧ w'.vars vl = some vs) ↔ xs = [] := by
  constructor
  · rintro ⟨rfl, hv'⟩
    rw [h.vars vs hv, Option.some.injEq] at hv'
    exact List.append_right_eq_self.1 hv'
  · rintro rfl
    have hvl := h.head_of_nil hv
    have hv' := h.vars vs hv
    rw [hvl, List.append_nil] at hv'
    exact ⟨hvl, hv'⟩

namespace AddNullVars

variable (env : NetSnmp) (c : AddNullVars) {w : World}

theorem onVarlist_allOrNothing {v : Varlist} {vs : List Varbind} (hv : w.vars v.varlist = some vs) :
    v.AllOrNothing (c.onVarlist env) (c.oids.map (nullVarbind env)) w vs ↔ NoneOrFirst env w.calls c.oids := by
  unfold Varlist.AllOrNothing Run.Leaves
  rw [onVarlist_eq]
  rcases Varlist.each_addNullVar env c.oids w v vs hv with
    ⟨w', v', hrun, -, -, hgrow, hall⟩ | ⟨e, w', v', k, hrun, -, hk, hgrow, hall, hstop⟩
  · rw [hrun]
    exact iff_of_true (hgrow.vars vs hv) (fun _ => hall)
  · rw [hrun, ← take_eq_nil_iff hk hall hstop, ← hgrow.vars_eq_iff hv]
    constructor
    · rintro ⟨-, hv', hvars⟩
      exact ⟨congrArg Varlist.varlist hv', hvars⟩
    · rintro ⟨hhead, hvars⟩
      exact ⟨⟨e, rfl⟩, congrArg Varlist.mk hhead, hvars⟩

theorem onPdu_allOrNothing {h : PDU} {p : PduPtr} {d : NetsnmpPdu} {vs : List Varbind} (hp : h.pdu = some p)
    (hd : w.pdus.cell p = some d) (hv : w.vars d.variableList = some vs) :
    h.AllOrNothing (c.onPdu env) (c.oids.map (nullVarbind env)) w p d vs ↔
      d.variableList = none ∨ NoneOrFirst env w.calls c.oids := by
  unfold PDU.AllOrNothing Run.Leaves
  rw [onPdu_eq, onVarlist_eq]
  rcases Varlist.each_addNullVar env c.oids w ⟨d.variableList⟩ vs hv with
    ⟨w', v', hrun, hpdus, -, hgrow, hall⟩ | ⟨e, w', v', k, hrun, hpdus, hk, hgrow, hall, hstop⟩
  · rw [PDU.addVia_ok hp hd hrun hpdus hgrow]
    have hd' : w'.pdus.cell p = some d := by rw [hpdus, hd]
    exact iff_of_true ⟨rfl, _, w'.pdus.cell_put_self p _ hd', hgrow.vars vs hv⟩ (.inr fun _ => hall)
  · rw [PDU.addVia_error hp hd hrun]
    have hkept : ((∃ x, Stop.exn e = .exn x) ∧ h = h ∧ w'.pdus.cell p = some d ∧
        w'.vars d.variableList = some vs) ↔ w'.vars d.variableList = some vs :=
      ⟨fun hc => hc.2.2.2, fun hc => ⟨⟨e, rfl⟩, rfl, by rw [hpdus, hd], hc⟩⟩
    apply hkept.trans
    rw [← take_eq_nil_iff hk hall hstop, ← hgrow.vars_eq_iff hv]
    cases hl : d.variableList with
    | none =>
      -- the list that was begun is dropped with the local object
      have hnil : vs = [] := (World.vars_eq_nil_iff hv).2 hl
      rw [hnil]
      exact iff_of_true rfl (.inl rfl)
    | some l =>
      rw [hl] at hgrow
      exact ⟨fun hc => .inr ⟨hgrow.head_eq, hc⟩, fun hc => (hc.resolve_left (by simp)).2⟩

/-- **A bulk add is all or nothing exactly when no add fails or the first one does**, whatever the list, the OIDs and
net-snmp; on a PDU without a variable list it always is. -/
theorem allOrNothing_iff :
    (∀ (v : Varlist) (vs : List Varbind), w.vars v.varlist = some vs →
      (v.AllOrNothing (c.onVarlist env) (c.oids.map (nullVarbind env)) w vs ↔ NoneOrFirst env w.calls c.oids)) ∧
    (∀ (h : PDU) (p : PduPtr) (d : NetsnmpPdu) (vs : List Varbind),
      h.pdu = some p → w.pdus.cell p = some d → w.vars d.variableList = some vs →
      (h.AllOrNothing (c.onPdu env) (c.oids.map (nullVarbind env)) w p d vs ↔
        d.variableList = none ∨ NoneOrFirst env w.calls c.oids)) := by
  constructor
  · intro v vs hv
    exact onVarlist_allOrNothing env c hv
  · intro h p d vs hp hd hv
    exact onPdu_allOrNothing env c hp hd hv

/-- The second OID is empty: the call throws and the first one stays in the list. -/
theorem addNullVars_keeps_first :
    let env := NetSnmp.working (fun _ => .timeout)
    let v : VecOID := [⟨[1, 3]⟩, ⟨[]⟩]
    let s := (vec v).onVarlist env (World.start, Varlist.new)
    s.1 = .error (.exn (invalidArgument "Cannot add an empty OID.")) ∧
      s.2.1.vars s.2.2.varlist = some [⟨[1, 3], ASN_NULL, []⟩] ∧
      ¬ Varlist.new.AllOrNothing ((vec v).onVarlist env) (v.map (nullVarbind env)) World.start [] :=
  ⟨rfl, rfl, fun hc => by cases hc.2.1⟩

end AddNullVars
end Snmppp
