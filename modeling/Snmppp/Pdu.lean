import Snmppp.Varlist
/-!
# Pdu — the PDU wrapper (PDU.hpp, PDU.cpp)

A `PDU` is a type tag and a pointer.  The destructor frees nothing, so a `PDU` going out of scope has no effect here.
-/
namespace Snmppp

/-- The numbers of `PDU::EType`; `static_cast` makes one of any command. -/
abbrev EType := Int

def kInvalid : EType := 0
def kUnknown : EType := 0
def kGet : EType := 0xA0
def kGetNext : EType := 0xA1
def kResponse : EType := 0xA2
def kSet : EType := 0xA3
def kGetBulk : EType := 0xA5
def kInform : EType := 0xA6
def kTrap2 : EType := 0xA7
def kReport : EType := 0xA8

structure PDU where
  type : EType
  pdu  : Option PduPtr
deriving DecidableEq, Repr

namespace PDU

def null : PDU := ⟨kInvalid, none⟩

/-- `PDU( netsnmp_pdu * )`. -/
def inherit : Option PduPtr → Snmp PDU
  | none   => pure ⟨kUnknown, none⟩
  | some p => do
    let d ← deref p
    pure ⟨d.command, some p⟩

def clear : Method PDU Unit := Run.setThis null

def free : Method PDU Unit := do
  let h ← Run.this
  Run.lift (if h.pdu.isSome then snmpFreePdu h.pdu else pure ())
  clear

/-! ## The const methods -/

def empty (h : PDU) : Snmp Bool :=
  match h.pdu with
  | none   => pure true
  | some p => do
    let d ← deref p
    pure d.variableList.isNone

/-- `varlist( void )`, const or not: a copy of the head pointer. -/
def varlist (h : PDU) : Snmp Varlist :=
  match h.pdu with
  | none   => Run.throws (logicError "Cannot reference a NULL PDU.")
  | some p => do
    let d ← deref p
    if d.variableList = none then Run.throws (logicError "The PDU does not contain a variable list.")
    else pure ⟨d.variableList⟩

def size (h : PDU) : Snmp Nat := do
  let e ← h.empty
  if e then pure 0
  else do
    let vl ← h.varlist
    let c ← chain vl.varlist
    pure (Varlist.size c)

def contains (h : PDU) (o : OID) : Snmp Bool := do
  let e ← h.empty
  if e then pure false
  else do
    let vl ← h.varlist
    let c ← chain vl.varlist
    pure (Varlist.contains c o)

/-- `operator[]`. -/
def index (h : PDU) (idx : Nat) : Snmp (List Varbind) := do
  let e ← h.empty
  if e then pure []
  else do
    let vl ← h.varlist
    let c ← chain vl.varlist
    pure (Varlist.index c idx)

def firstOID (h : PDU) : Snmp OID := do
  let vl ← h.varlist
  let c ← chain vl.varlist
  Run.result (Varlist.firstOID c)

/-! ## Methods that change the PDU -/

/-- `setVarlist( netsnmp_variable_list * )`; the overload for a `Varlist` passes its head pointer. -/
def setVarlist (vl : Option VarPtr) : Method PDU Unit := do
  let h ← Run.this
  match h.pdu with
  | none   => Run.throws (logicError "Cannot set variable list on a NULL PDU.")
  | some p => do
    let d ← Run.lift (deref p)
    if vl ≠ d.variableList then do
      Run.lift (snmpFreeVarbind d.variableList)
      Run.lift (assign p (fun d => { d with variableList := vl }))
    else pure ()

/-- The body the `add` methods share: `add` on a new `Varlist`, which is then set, while the PDU has no list, and
on a temporary copy of the head pointer once it has one. -/
def addVia (add : Method Varlist Unit) : Method PDU Unit := do
  let h ← Run.this
  match h.pdu with
  | none   => Run.throws (logicError "Cannot reference a NULL PDU.")
  | some p => do
    let d ← Run.lift (deref p)
    if d.variableList = none then do
      let vl ← Run.lift (Run.on Varlist.new add)
      setVarlist vl.2.varlist
    else do
      let vl ← Run.lift h.varlist
      let _ ← Run.lift (Run.on vl add)
      pure ()

section
variable (env : NetSnmp)

def create (t : EType) : Snmp PDU := do
  let p ← snmpPduCreate env t
  match p with
  | none   => Run.throws ⟨.runtimeError, "Failed to create a PDU.".toList⟩
  | some p => pure ⟨t, some p⟩

def clone (h : PDU) : Snmp PDU := do
  let p ← snmpClonePdu env h.pdu
  inherit p

def addBooleanVar (o : OID) (value : Bool) : Method PDU Unit := addVia (Varlist.addBooleanVar env o value)

def addIntegerVar (o : OID) (value : Int32) : Method PDU Unit := addVia (Varlist.addIntegerVar env o value)

def addInteger64Var (o : OID) (value : Int64) : Method PDU Unit := addVia (Varlist.addInteger64Var env o value)

def addGaugeVar (o : OID) (value : UInt32) : Method PDU Unit := addVia (Varlist.addGaugeVar env o value)

def addOctetStringVar (o : OID) (value : List UInt8) : Method PDU Unit :=
  addVia (Varlist.addOctetStringVar env o value)

def addNullVar (o : OID) : Method PDU Unit := addVia (Varlist.addNullVar env o)

/-- `addNullVars( const SetOID & )`. -/
def addNullVarsSet (s : SetOID) : Method PDU Unit := addVia (Varlist.addNullVarsSet env s)

/-- `addNullVars( const VecOID & )`. -/
def addNullVarsVec (v : VecOID) : Method PDU Unit := addVia (Varlist.addNullVarsVec env v)

end
end PDU

def AddCall.onPdu (env : NetSnmp) : AddCall → Method PDU Unit
  | addBooleanVar o b     => PDU.addBooleanVar env o b
  | addIntegerVar o n     => PDU.addIntegerVar env o n
  | addInteger64Var o n   => PDU.addInteger64Var env o n
  | addGaugeVar o n       => PDU.addGaugeVar env o n
  | addOctetStringVar o s => PDU.addOctetStringVar env o s
  | addNullVar o          => PDU.addNullVar env o

theorem AddCall.onPdu_eq (env : NetSnmp) (c : AddCall) : c.onPdu env = PDU.addVia (c.onVarlist env) := by
  cases c <;> rfl

end Snmppp
