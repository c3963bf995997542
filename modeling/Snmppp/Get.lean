import Snmppp.Pdu
/-!
# Get — requests (Get.cpp, Set.cpp)

Every request goes through `sync`.  A request passed by reference is the object of a `Method`; a function that builds
its own has it as a local `PDU`.
-/
namespace Snmppp

abbrev SessionHandle := Option Nat

def syncError (e : SessError) : Exc :=
  ⟨.runtimeError,
    "Failed to get. [cliberrno=".toList ++ (toString e.cliberrno).toList ++ ", snmperrno=".toList ++
      (toString e.snmperrno).toList ++
      (match e.msg with
       | none     => []
       | some []  => []
       | some msg => ", ".toList ++ msg) ++ "]".toList⟩

/-- No response, one with an error, or a status other than success. -/
def syncFailed (status : Int) : Option PduPtr → Snmp Bool
  | none          => pure true
  | some response => do
    let d ← deref response
    pure (decide (d.errstat ≠ SNMP_ERR_NOERROR) || decide (status ≠ STAT_SUCCESS))

/-- `while ( vl->next_variable != NULL )`: the pointer to the last varbind. -/
def lastVarbind : List Varbind → List Varbind
  | []           => []
  | [p]          => [p]
  | _ :: p :: ps => lastVarbind (p :: ps)

section
variable (env : NetSnmp) (session : SessionHandle)

def sync : Method PDU PDU := do
  let request ← Run.this
  match request.pdu with
  | none     => Run.throws (invalidArgument "Request PDU must not be NULL.")
  | some pdu =>
    if session = none then do
      PDU.free
      Run.throws (invalidArgument "Session handle must not be NULL.")
    else do
      let r ← Run.lift (snmpSessSynchResponse env pdu)
      PDU.clear
      let failed ← Run.lift (syncFailed r.1 r.2)
      if failed then do
        let e ← Run.lift (snmpSessError env)
        Run.lift (snmpFreePdu r.2)
        Run.throws (syncError e)
      else Run.lift (PDU.inherit r.2)

/-- `get( SessionHandle &, PDU & )`. -/
def get : Method PDU PDU := sync env session

/-- `set( SessionHandle &, PDU & )`. -/
def set : Method PDU PDU := sync env session

/-- The body shared by the functions that ask about one OID: a local request of type `t`, filled by `add` and sent. -/
def requestOne (t : EType) (o : OID) (add : Method PDU Unit) : Snmp PDU :=
  if o.empty then Run.throws (invalidArgument "OID cannot be empty.")
  else do
    let request ← PDU.create env t
    let filled ← Run.on request add
    let response ← Run.on filled.2 (sync env session)
    pure response.1

/-- `get( SessionHandle &, const OID & )`. -/
def getOid (o : OID) : Snmp PDU := requestOne env session kGet o (PDU.addNullVar env o)

/-- `getNext( SessionHandle &, const OID & )`. -/
def getNextOid (o : OID) : Snmp PDU := requestOne env session kGetNext o (PDU.addNullVar env o)

def setBooleanVar (o : OID) (v : Bool) : Snmp PDU := requestOne env session kSet o (PDU.addBooleanVar env o v)

def setIntegerVar (o : OID) (v : Int32) : Snmp PDU := requestOne env session kSet o (PDU.addIntegerVar env o v)

def setInteger64Var (o : OID) (v : Int64) : Snmp PDU := requestOne env session kSet o (PDU.addInteger64Var env o v)

def setGaugeVar (o : OID) (v : UInt32) : Snmp PDU := requestOne env session kSet o (PDU.addGaugeVar env o v)

def setOctetStringVar (o : OID) (v : List UInt8) : Snmp PDU :=
  requestOne env session kSet o (PDU.addOctetStringVar env o v)

/-- `getNext( SessionHandle &, PDU & )`. -/
def getNext : Method PDU PDU := do
  let pdu ← Run.this
  let e ← Run.lift pdu.empty
  if e then Run.throws (invalidArgument "Cannot GETNEXT with an empty PDU.")
  else if pdu.type = kGetNext then sync env session
  else do
    let vl ← Run.lift pdu.varlist
    let c ← Run.lift (chain vl.varlist)
    PDU.free
    Run.lift (getNextOid env session (OID.ofVarlist (lastVarbind c)))

/-- `get( SessionHandle &, const SetOID & )`. -/
def getSet (oids : SetOID) : Snmp PDU :=
  if oids.elems = [] then Run.throws (invalidArgument "Cannot GET an empty set of OIDs.")
  else do
    let pdu ← PDU.create env kGet
    let filled ← Run.on pdu (Run.each (PDU.addNullVar env) oids.elems)
    let response ← Run.on filled.2 (sync env session)
    pure response.1

/-- "copy the OIDs and build a new PDU to use for getbulk". -/
def getBulkRebuild : Method PDU (Option PduPtr) := do
  let pdu ← Run.this
  let vl ← Run.lift pdu.varlist
  let c ← Run.lift (chain vl.varlist)
  PDU.free
  let q ← Run.lift (PDU.create env kGetBulk)
  Run.setThis q
  PDU.addNullVarsSet env (Varlist.getOidsSet c)
  let pdu ← Run.this
  pure pdu.pdu

/-- The PDU `getBulk` sends: its own, rebuilt unless it is a GETBULK already. -/
def getBulkTarget : Method PDU (Option PduPtr) := do
  let pdu ← Run.this
  if pdu.type ≠ kGetBulk then getBulkRebuild env else pure pdu.pdu

def getBulkRequest (maxRepetitions nonRepeaters : Int) : Method PDU Unit := do
  let pdu ← Run.this
  if pdu.pdu = none then Run.throws (invalidArgument "Request PDU must not be NULL.")
  else do
    let p ← getBulkTarget env
    match p with
    | none   => Run.faults
    | some p => Run.lift (assign p (fun d => { d with errstat := nonRepeaters, errindex := maxRepetitions }))

/-- `getBulk( SessionHandle &, PDU &, int, int )`. -/
def getBulk (maxRepetitions nonRepeaters : Int) : Method PDU PDU := do
  getBulkRequest env maxRepetitions nonRepeaters
  sync env session

/-- `getBulk( SessionHandle &, const OID &, int, int )`. -/
def getBulkOid (o : OID) (maxRepetitions nonRepeaters : Int) : Snmp PDU := do
  let pdu ← PDU.create env kGetBulk
  let filled ← Run.on pdu (PDU.addNullVar env o)
  let response ← Run.on filled.2 (getBulk env session maxRepetitions nonRepeaters)
  pure response.1

end
end Snmppp
