import Snmppp.NetSnmp
/-!
# Memory — what the calls do to the memory

For each change of the world, what it does to the PDUs, the lists, the count of calls and the log; then each net-snmp
call as the change it makes on pointers that are good.
-/
namespace Snmppp

namespace World

variable (w : World)

@[simp] theorem pdus_tick : w.tick.pdus = w.pdus := rfl
@[simp] theorem lists_tick : w.tick.lists = w.lists := rfl
@[simp] theorem calls_tick : w.tick.calls = w.calls + 1 := rfl
@[simp] theorem log_tick : w.tick.log = w.log := rfl

@[simp] theorem pdus_logs (e : Event) : (w.logs e).pdus = w.pdus := rfl
@[simp] theorem lists_logs (e : Event) : (w.logs e).lists = w.lists := rfl
@[simp] theorem calls_logs (e : Event) : (w.logs e).calls = w.calls := rfl
@[simp] theorem log_logs (e : Event) : (w.logs e).log = w.log ++ [e] := rfl

@[simp] theorem pdus_newPdu (d : NetsnmpPdu) : (w.newPdu d).pdus = w.pdus.alloc d := rfl
@[simp] theorem lists_newPdu (d : NetsnmpPdu) : (w.newPdu d).lists = w.lists := rfl
@[simp] theorem calls_newPdu (d : NetsnmpPdu) : (w.newPdu d).calls = w.calls := rfl
@[simp] theorem log_newPdu (d : NetsnmpPdu) : (w.newPdu d).log = w.log := rfl

@[simp] theorem pdus_setPdu (p : PduPtr) (d : NetsnmpPdu) : (w.setPdu p d).pdus = w.pdus.put p d := rfl
@[simp] theorem lists_setPdu (p : PduPtr) (d : NetsnmpPdu) : (w.setPdu p d).lists = w.lists := rfl
@[simp] theorem calls_setPdu (p : PduPtr) (d : NetsnmpPdu) : (w.setPdu p d).calls = w.calls := rfl
@[simp] theorem log_setPdu (p : PduPtr) (d : NetsnmpPdu) : (w.setPdu p d).log = w.log := rfl

@[simp] theorem pdus_newList (vs : List Varbind) : (w.newList vs).2.pdus = w.pdus := by cases vs <;> rfl
@[simp] theorem calls_newList (vs : List Varbind) : (w.newList vs).2.calls = w.calls := by cases vs <;> rfl
@[simp] theorem log_newList (vs : List Varbind) : (w.newList vs).2.log = w.log := by cases vs <;> rfl

@[simp] theorem pdus_freeList (vl : Option VarPtr) : (w.freeList vl).pdus = w.pdus := by cases vl <;> rfl
@[simp] theorem calls_freeList (vl : Option VarPtr) : (w.freeList vl).calls = w.calls := by cases vl <;> rfl
@[simp] theorem log_freeList (vl : Option VarPtr) : (w.freeList vl).log = w.log := by cases vl <;> rfl

@[simp] theorem pdus_append (vb : Varbind) (vl : Option VarPtr) : (w.append vb vl).2.pdus = w.pdus := by
  unfold append; split
  · simp
  · split <;> rfl

@[simp] theorem calls_append (vb : Varbind) (vl : Option VarPtr) : (w.append vb vl).2.calls = w.calls := by
  unfold append; split
  · simp
  · split <;> rfl

@[simp] theorem log_append (vb : Varbind) (vl : Option VarPtr) : (w.append vb vl).2.log = w.log := by
  unfold append; split
  · simp
  · split <;> rfl

/-- Releasing a dead PDU changes no cell, so this needs no hypothesis. -/
theorem cell_freePdu (p a : PduPtr) :
    (w.freePdu p).pdus.cell a = if a = p then none else w.pdus.cell a := by
  unfold freePdu
  cases hp : w.pdus.cell p with
  | none =>
    simp only
    split
    · rename_i h; rw [h, hp]
    · rfl
  | some d => rfl

theorem live_freePdu (p a : PduPtr) : (w.freePdu p).pdus.Live a ↔ w.pdus.Live a ∧ a ≠ p := by
  rw [Arena.Live, cell_freePdu]
  by_cases ha : a = p
  · simp [ha]
  · simp [ha, Arena.Live]

@[simp] theorem next_freePdu (p : PduPtr) : (w.freePdu p).pdus.next = w.pdus.next := by
  unfold freePdu; split <;> rfl

@[simp] theorem calls_freePdu (p : PduPtr) : (w.freePdu p).calls = w.calls := by
  unfold freePdu; split <;> simp

@[simp] theorem log_freePdu (p : PduPtr) : (w.freePdu p).log = w.log := by
  unfold freePdu; split <;> simp

theorem freed_freePdu_self {p : PduPtr} {d : NetsnmpPdu} (h : w.pdus.cell p = some d) :
    (w.freePdu p).pdus.freed p = w.pdus.freed p + 1 := by
  unfold freePdu
  rw [h]
  exact w.pdus.freed_free_self p d h

@[simp] theorem pdus_deliver (r : Response) :
    (w.deliver r).pdus = w.pdus.alloc ⟨r.command, r.errstat, r.errindex, (w.newList r.vars).1⟩ := by
  simp [deliver]

@[simp] theorem calls_deliver (r : Response) : (w.deliver r).calls = w.calls := by simp [deliver]

@[simp] theorem log_deliver (r : Response) : (w.deliver r).log = w.log ++ [.received w.pdus.next r.vars] := by
  simp [deliver]

/-! ## What a pointer reaches -/

@[simp] theorem vars_none : w.vars none = some [] := rfl

theorem vars_congr {w w' : World} (h : w'.lists = w.lists) (vl : Option VarPtr) : w'.vars vl = w.vars vl := by
  cases vl with
  | none => rfl
  | some l => simp only [vars, h]

/-- A head pointer is NULL exactly when it reaches nothing. -/
theorem vars_eq_nil_iff {w : World} {vl : Option VarPtr} {vs : List Varbind} (h : w.vars vl = some vs) :
    vs = [] ↔ vl = none := by
  cases vl with
  | none =>
    simp only [vars, Option.some.injEq] at h
    simp [← h]
  | some l =>
    simp only [vars] at h
    obtain ⟨c, -, rfl⟩ := Option.map_eq_some_iff.1 h
    simp [c.ne]

theorem vars_newList (vs : List Varbind) : (w.newList vs).2.vars (w.newList vs).1 = some vs := by
  cases vs with
  | nil => rfl
  | cons v vs => simp [newList, vars]

theorem vars_append {w : World} {vl : Option VarPtr} {vs : List Varbind} (h : w.vars vl = some vs) (vb : Varbind) :
    (w.append vb vl).2.vars (w.append vb vl).1 = some (vs ++ [vb]) := by
  cases vl with
  | none =>
    simp only [vars, Option.some.injEq] at h
    simp [← h, append, vars_newList]
  | some l =>
    simp only [vars] at h
    obtain ⟨c, hc, rfl⟩ := Option.map_eq_some_iff.1 h
    simp only [append, hc, vars]
    rw [w.lists.cell_put_self l _ hc]
    rfl

theorem append_head (vb : Varbind) (l : VarPtr) : (w.append vb (some l)).1 = some l := by
  simp only [append]
  split <;> rfl

theorem request_eq_some {w : World} {p : PduPtr} {r : Request} :
    w.request p = some r ↔
      ∃ d vs, w.pdus.cell p = some d ∧ w.vars d.variableList = some vs ∧
        r = ⟨p, d.command, d.errstat, d.errindex, vs⟩ := by
  unfold request
  rw [Option.bind_eq_some_iff]
  constructor
  · rintro ⟨d, hd, h⟩
    obtain ⟨vs, hvs, rfl⟩ := Option.map_eq_some_iff.1 h
    exact ⟨d, vs, hd, hvs, rfl⟩
  · rintro ⟨d, vs, hd, hvs, rfl⟩
    exact ⟨d, hd, Option.map_eq_some_iff.2 ⟨vs, hvs, rfl⟩⟩

theorem request_deliver (r : Response) :
    (w.deliver r).request w.pdus.next
      = some ⟨w.pdus.next, r.command, r.errstat, r.errindex, r.vars⟩ := by
  refine request_eq_some.2 ⟨⟨r.command, r.errstat, r.errindex, (w.newList r.vars).1⟩, r.vars, ?_, ?_, rfl⟩
  · simp
  · rw [vars_congr (w := (w.newList r.vars).2) (by rfl)]
    exact w.vars_newList r.vars

theorem setPdu_self {w : World} {p : PduPtr} {d : NetsnmpPdu} (h : w.pdus.cell p = some d) : w.setPdu p d = w := by
  unfold setPdu
  rw [Arena.put_self w.pdus p d h]

/-! ## What was created -/

/-- The events logged from `w` on. -/
def since (w w' : World) : List Event := w'.log.drop w.log.length

theorem since_eq {w w' : World} {es : List Event} (h : w'.log = w.log ++ es) : w.since w' = es := by
  rw [since, h, List.drop_left]

theorem since_of_log_eq {w w' : World} (h : w'.log = w.log) : w.since w' = [] :=
  since_eq (by rw [h, List.append_nil])

end World

/-- The PDUs `snmp_pdu_create` returned. -/
def createdIn (es : List Event) : List PduPtr :=
  es.filterMap (fun e => match e with | .created p => some p | _ => none)

/-- The requests handed to `snmp_sess_synch_response`. -/
def sentIn (es : List Event) : List Request :=
  es.filterMap (fun e => match e with | .sent r => some r | _ => none)

/-- The responses delivered: each with its varbinds. -/
def receivedIn (es : List Event) : List (PduPtr × List Varbind) :=
  es.filterMap (fun e => match e with | .received p vs => some (p, vs) | _ => none)

theorem sentIn_append (es es' : List Event) : sentIn (es ++ es') = sentIn es ++ sentIn es' := List.filterMap_append

theorem receivedIn_append (es es' : List Event) : receivedIn (es ++ es') = receivedIn es ++ receivedIn es' :=
  List.filterMap_append

/-- The lists handed to `netsnmp_send_traps`, with what it returned. -/
def trapsIn (es : List Event) : List (List Varbind × Int) :=
  es.filterMap (fun e => match e with | .trap vs rc => some (vs, rc) | _ => none)

/-! ## The calls, on good pointers -/

section
variable {w : World} {p : PduPtr} {d : NetsnmpPdu} {r : Request} {vl : Option VarPtr} {vs : List Varbind}

theorem deref_ok (h : w.pdus.cell p = some d) : deref p w = (.ok d, w) := by
  simp only [deref, h]

theorem chain_ok (h : w.vars vl = some vs) : chain vl w = (.ok vs, w) := by
  simp only [chain, h]

theorem assign_ok (h : w.pdus.cell p = some d) (f : NetsnmpPdu → NetsnmpPdu) :
    assign p f w = (.ok (), w.setPdu p (f d)) := by
  simp only [assign, h]

theorem snmpFreeVarbind_ok (h : w.vars vl = some vs) : snmpFreeVarbind vl w = (.ok (), w.freeList vl) := by
  simp only [snmpFreeVarbind, h]

theorem snmpFreePdu_ok (h : w.request p = some r) : snmpFreePdu (some p) w = (.ok (), w.freePdu p) := by
  simp only [snmpFreePdu, h]

variable (env : NetSnmp)

theorem snmpPduCreate_none (command : Int) (h : env.pduCreate w.calls = none) :
    snmpPduCreate env command w = (.ok none, w.tick) := by
  simp only [snmpPduCreate, h]

theorem snmpPduCreate_some (command : Int) {errstat errindex : Int}
    (h : env.pduCreate w.calls = some (errstat, errindex)) :
    snmpPduCreate env command w = (.ok (some w.pdus.next),
      ((w.newPdu ⟨command, errstat, errindex, none⟩).logs (.created w.pdus.next)).tick) := by
  simp only [snmpPduCreate, h]

theorem snmpVarlistAddVariable_ok (h : w.vars vl = some vs) (name : OID) (type : UInt8) (value : List UInt8)
    (ha : env.addVariable w.calls = true) :
    snmpVarlistAddVariable env vl name type value w
      = (.ok ((w.append ⟨name.v, type, env.copyValue type value⟩ vl).1, true),
          (w.append ⟨name.v, type, env.copyValue type value⟩ vl).2.tick) := by
  simp only [snmpVarlistAddVariable, h, ha, if_true]

theorem snmpVarlistAddVariable_null (h : w.vars vl = some vs) (name : OID) (type : UInt8) (value : List UInt8)
    (ha : env.addVariable w.calls = false) :
    snmpVarlistAddVariable env vl name type value w = (.ok (vl, false), w.tick) := by
  simp only [snmpVarlistAddVariable, h, ha, Bool.false_eq_true, if_false]

theorem netsnmpSendTraps_ok (h : w.vars vl = some vs) :
    netsnmpSendTraps env vl w
      = (.ok (env.sendTraps w.calls), (w.logs (.trap vs (env.sendTraps w.calls))).tick) := by
  simp only [netsnmpSendTraps, h]

end
end Snmppp
