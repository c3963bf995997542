import Snmppp.Memory
import Snmppp.Pdu
/-!
# PduRun — what the methods of a PDU do when its pointers are good

One equation for each way a method ends, on a PDU whose `netsnmp_pdu` is live or that has none.
-/
namespace Snmppp

theorem Varlist.empty_iff (v : Varlist) : v.empty = true ↔ v.varlist = none := Option.isNone_iff_eq_none

theorem Varlist.free_ok {w : World} {v : Varlist} {vs : List Varbind} (hv : w.vars v.varlist = some vs) :
    Varlist.free (w, v) = (.ok (), (w.freeList v.varlist, ⟨none⟩)) := by
  obtain ⟨_ | l⟩ := v
  · rfl
  · have hsome : (⟨some l⟩ : Varlist).varlist.isSome = true := rfl
    rw [Varlist.free, Run.this_bind, if_pos hsome, Run.lift_bind (snmpFreeVarbind_ok hv), clear, Run.setThis_apply]

namespace PDU

variable {h : PDU} {p : PduPtr} {d : NetsnmpPdu} {r : Request} {w : World}

theorem inherit_ok (hd : w.pdus.cell p = some d) : inherit (some p) w = (.ok ⟨d.command, some p⟩, w) := by
  rw [inherit, Run.bind_ok (deref_ok hd), Run.pure_apply]

theorem free_null (hp : h.pdu = none) : free (w, h) = (.ok (), (w, null)) := by
  rw [free, Run.this_bind, hp]
  rfl

theorem free_ok (hp : h.pdu = some p) (hr : w.request p = some r) : free (w, h) = (.ok (), (w.freePdu p, null)) := by
  have hsome : h.pdu.isSome = true := by rw [hp]; rfl
  rw [free, Run.this_bind, if_pos hsome, hp, Run.lift_bind (snmpFreePdu_ok hr), clear, Run.setThis_apply]

theorem empty_null (hp : h.pdu = none) : h.empty w = (.ok true, w) := by
  simp only [empty, hp, Run.pure_apply]

theorem empty_ok (hp : h.pdu = some p) (hd : w.pdus.cell p = some d) :
    h.empty w = (.ok d.variableList.isNone, w) := by
  simp only [empty, hp]
  rw [Run.bind_ok (deref_ok hd), Run.pure_apply]

theorem varlist_none (hp : h.pdu = some p) (hd : w.pdus.cell p = some d) (hvl : d.variableList = none) :
    h.varlist w = (.error (.exn (logicError "The PDU does not contain a variable list.")), w) := by
  simp only [varlist, hp]
  rw [Run.bind_ok (deref_ok hd), if_pos hvl, Run.throws_apply]

theorem varlist_ok (hp : h.pdu = some p) (hd : w.pdus.cell p = some d) (hvl : d.variableList ≠ none) :
    h.varlist w = (.ok ⟨d.variableList⟩, w) := by
  simp only [varlist, hp]
  rw [Run.bind_ok (deref_ok hd), if_neg hvl, Run.pure_apply]

variable (env : NetSnmp) (t : EType)

theorem create_none (hc : env.pduCreate w.calls = none) :
    create env t w = (.error (.exn ⟨.runtimeError, "Failed to create a PDU.".toList⟩), w.tick) := by
  rw [create, Run.bind_ok (snmpPduCreate_none env t hc)]
  rfl

theorem create_some {errstat errindex : Int} (hc : env.pduCreate w.calls = some (errstat, errindex)) :
    create env t w = (.ok ⟨t, some w.pdus.next⟩,
      ((w.newPdu ⟨t, errstat, errindex, none⟩).logs (.created w.pdus.next)).tick) := by
  rw [create, Run.bind_ok (snmpPduCreate_some env t hc)]
  rfl

end PDU
end Snmppp
