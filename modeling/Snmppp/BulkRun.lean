import Snmppp.SyncRun
/-!
# BulkRun — the request getBulk hands to sync

What `getBulk` does before it calls `sync`, one equation or case for each way it goes: a GETBULK is sent as it is, any
other PDU is released and its OIDs go through a set into a new one.
-/
namespace Snmppp

def NetsnmpPdu.bulk (d : NetsnmpPdu) (maxRepetitions nonRepeaters : Int) : NetsnmpPdu :=
  { d with errstat := nonRepeaters, errindex := maxRepetitions }

section
variable (env : NetSnmp) {w : World} {h : PDU} {p : PduPtr} {d : NetsnmpPdu} {vs : List Varbind}
  (maxRepetitions nonRepeaters : Int)

theorem getBulkRequest_null (hp : h.pdu = none) :
    getBulkRequest env maxRepetitions nonRepeaters (w, h)
      = (.error (.exn (invalidArgument "Request PDU must not be NULL.")), (w, h)) := by
  rw [getBulkRequest, Run.this_bind, if_pos hp, Run.throws_apply]

/-- **The direct path.** -/
theorem getBulkRequest_direct (hp : h.pdu = some p) (ht : h.type = kGetBulk) (hd : w.pdus.cell p = some d) :
    getBulkRequest env maxRepetitions nonRepeaters (w, h)
      = (.ok (), (w.setPdu p (d.bulk maxRepetitions nonRepeaters), h)) := by
  have htarget : getBulkTarget env (w, h) = (.ok (some p), (w, h)) := by
    rw [getBulkTarget, Run.this_bind, if_neg (not_not_intro ht), Run.pure_apply, hp]
  rw [getBulkRequest, Run.this_bind, if_neg (by rw [hp]; simp), Run.bind_ok htarget]
  exact Run.lift_of (assign_ok hd _) h

theorem getBulkRequest_error (hp : h.pdu = some p) (ht : h.type ≠ kGetBulk) {e : Stop Exc} {s : World × PDU}
    (hrun : getBulkRebuild env (w, h) = (.error e, s)) :
    getBulkRequest env maxRepetitions nonRepeaters (w, h) = (.error e, s) := by
  have htarget : getBulkTarget env (w, h) = (.error e, s) := by
    rw [getBulkTarget, Run.this_bind, if_pos ht, hrun]
  rw [getBulkRequest, Run.this_bind, if_neg (by rw [hp]; simp), Run.bind_error htarget]

theorem getBulkRequest_noList (hp : h.pdu = some p) (ht : h.type ≠ kGetBulk) (hd : w.pdus.cell p = some d)
    (hvl : d.variableList = none) :
    getBulkRequest env maxRepetitions nonRepeaters (w, h)
      = (.error (.exn (logicError "The PDU does not contain a variable list.")), (w, h)) := by
  apply getBulkRequest_error env _ _ hp ht
  rw [getBulkRebuild, Run.this_bind, Run.bind_error (Run.lift_of (PDU.varlist_none hp hd hvl) h)]

/-- **The rebuild path**: the PDU is released first; then the new one cannot be created, or one of the adds throws and
leaves it live in the handle, or it asks for the OIDs of the set. -/
theorem getBulkRequest_rebuild (hp : h.pdu = some p) (ht : h.type ≠ kGetBulk) (hd : w.pdus.cell p = some d)
    (hvl : d.variableList ≠ none) (hvs : w.vars d.variableList = some vs) :
    let oids := (Varlist.getOidsSet vs).elems
    let freed := w.freePdu p
    let rebuilt : PDU := ⟨kGetBulk, some w.pdus.next⟩
    (env.pduCreate w.calls = none ∧
      ∃ e, getBulkRequest env maxRepetitions nonRepeaters (w, h) = (.error (.exn e), (freed.tick, PDU.null))) ∨
    (env.pduCreate w.calls ≠ none ∧ ¬ AllAdd env (w.calls + 1) oids ∧
      ∃ e w', getBulkRequest env maxRepetitions nonRepeaters (w, h) = (.error (.exn e), (w', rebuilt)) ∧
        Built kGetBulk [] freed w') ∨
    (env.pduCreate w.calls ≠ none ∧ AllAdd env (w.calls + 1) oids ∧
      ∃ w', getBulkRequest env maxRepetitions nonRepeaters (w, h) = (.ok (), (w', rebuilt)) ∧
        Built kGetBulk (oids.map (nullVarbind env)) freed w' ∧
        w'.request w.pdus.next
          = some ⟨w.pdus.next, kGetBulk, nonRepeaters, maxRepetitions, oids.map (nullVarbind env)⟩) := by
  intro oids freed rebuilt
  have hr : w.request p = some ⟨p, d.command, d.errstat, d.errindex, vs⟩ :=
    World.request_eq_some.2 ⟨d, vs, hd, hvs, rfl⟩
  have hcalls : freed.calls = w.calls := w.calls_freePdu p
  have hnext : freed.pdus.next = w.pdus.next := w.next_freePdu p
  -- what comes before the new PDU
  have hstart : getBulkRebuild env (w, h)
      = (do
          let q ← Run.lift (PDU.create env kGetBulk)
          Run.setThis q
          PDU.addNullVarsSet env (Varlist.getOidsSet vs)
          let pdu ← Run.this
          pure pdu.pdu : Method PDU (Option PduPtr)) (freed, PDU.null) := by
    rw [getBulkRebuild, Run.this_bind, Run.lift_bind (PDU.varlist_ok hp hd hvl), Run.lift_bind (chain_ok hvs),
      Run.bind_ok (PDU.free_ok hp hr)]
  by_cases hc : env.pduCreate w.calls = none
  · have hcreate := PDU.create_none env kGetBulk (w := freed) (by rw [hcalls]; exact hc)
    exact .inl ⟨hc, _, getBulkRequest_error env _ _ hp ht
      (hstart.trans (Run.bind_error (Run.lift_of hcreate PDU.null)))⟩
  obtain ⟨w₁, hcreate, hcalls₁, hbuilt⟩ := Built.create env kGetBulk (w := freed) (by rw [hcalls]; exact hc)
  rw [hnext] at hcreate
  rw [hcalls] at hcalls₁
  rcases hbuilt.addNullVarsSet env (Varlist.getOidsSet vs) (h := rebuilt) (congrArg some hnext.symm) with
    ⟨w₂, hadd, hbuilt₂, hall⟩ | ⟨e, w₂, hadd, hbuilt₂, hall⟩ <;> rw [hcalls₁] at hall
  · obtain ⟨w₃, hassign, hbuilt₃, hreq⟩ := hbuilt₂.assign nonRepeaters maxRepetitions
    rw [hnext] at hassign hreq
    have htarget : getBulkTarget env (w, h) = (.ok (some w.pdus.next), (w₂, rebuilt)) := by
      rw [getBulkTarget, Run.this_bind, if_pos ht, hstart, Run.lift_bind hcreate, Run.setThis_bind,
        Run.bind_ok hadd, Run.this_bind, Run.pure_apply]
    refine .inr (.inr ⟨hc, hall, w₃, ?_, hbuilt₃, hreq⟩)
    rw [getBulkRequest, Run.this_bind, if_neg (by rw [hp]; simp), Run.bind_ok htarget]
    exact Run.lift_of hassign rebuilt
  · refine .inr (.inl ⟨hc, hall, e, w₂, getBulkRequest_error env _ _ hp ht ?_, hbuilt₂⟩)
    rw [hstart, Run.lift_bind hcreate, Run.setThis_bind, Run.bind_error hadd]

end
end Snmppp
