import Snmppp.Pdu
/-!
# Trap — SNMPv2 traps (Trap.cpp)
-/
namespace Snmppp

section
variable (env : NetSnmp)

def trapError (rc : Int) : Exc :=
  ⟨.runtimeError, "Failed to send trap (rc=".toList ++ (toString rc).toList ++ ").".toList⟩

/-- `sendV2Trap( Varlist & )`. -/
def sendV2Trap : Method Varlist Unit := do
  let vl ← Run.this
  if vl.empty then Run.throws (invalidArgument "Cannot send SNMPv2 trap using a NULL variable list.")
  else do
    let c ← Run.lift (chain vl.varlist)
    if Varlist.size c < 2 then do
      Varlist.free
      Run.throws (invalidArgument "Variable list is too small to be a valid SNMPv2 trap.")
    else do
      let rc ← Run.lift (netsnmpSendTraps env vl.varlist)
      Varlist.free
      if rc ≠ 0 then Run.throws (trapError rc) else pure ()

/-- `sendV2Trap( PDU & )`: the list is stolen from the PDU, which is freed without it. -/
def sendV2TrapPdu : Method PDU Unit := do
  let pdu ← Run.this
  let e ← Run.lift pdu.empty
  if e then do
    PDU.free
    Run.throws (invalidArgument "Cannot send a trap using an empty PDU.")
  else
    match pdu.pdu with
    | none   => Run.faults
    | some p => do
      let d ← Run.lift (deref p)
      Run.lift (assign p (fun d => { d with variableList := none }))
      PDU.free
      let _ ← Run.lift (Run.on (⟨d.variableList⟩ : Varlist) (sendV2Trap env))
      pure ()

/-- `createV2TrapVarlist`, which does not look at what its two adds return. -/
def createV2TrapVarlist (o : OID) (uptime : Int64) : Snmp Varlist :=
  if o.empty then Run.throws (invalidArgument "Cannot create SNMPv2 trap without an OID.")
  else do
    let sysUpTime := OID.ofCommon .kSysUpTime
    let trap := OID.ofCommon .kTrap
    let r ← snmpVarlistAddVariable env none sysUpTime ASN_TIMETICKS (Bytes.ofNat 8 uptime.toUInt64.toNat)
    let r ← snmpVarlistAddVariable env r.1 trap ASN_OBJECT_ID (o.v.flatMap (fun n => Bytes.ofNat 8 n.toNat))
    pure ⟨r.1⟩

/-- `sendV2Trap( const OID &, long )`. -/
def sendV2TrapOid (o : OID) (uptime : Int64) : Snmp Unit := do
  let vl ← createV2TrapVarlist env o uptime
  let _ ← Run.on vl (sendV2Trap env)
  pure ()

end
end Snmppp
