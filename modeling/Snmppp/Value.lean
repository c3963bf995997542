import Snmppp.BulkAdd
import Snmppp.Release
import Snmppp.TrapRelease
/-!
# Value — what the wrapper would be if PDUs were values

The wrapper over plain data: a PDU is its tag and what it says, a variable list its varbinds, and nothing is allocated,
shared or released.  What remains are the calls net-snmp answers, what goes out, and a count of what the wrapper leaves
behind: what a temporary held when an exception took it, and what a variable held when it was overwritten.
-/
namespace Snmppp

/-- What a PDU says. -/
abbrev Content := Response

def Request.content (r : Request) : Content := ⟨r.command, r.errstat, r.errindex, r.vars⟩

inductive Outgoing where
  | request (content : Content)
  | trap (vars : List Varbind)
deriving DecidableEq, Repr

/-- The calls made so far, what went out, and how many PDUs and variable lists were left behind. -/
structure Net where
  calls     : Nat
  out       : List Outgoing
  lostPdus  : Nat
  lostLists : Nat
deriving DecidableEq, Repr

def Net.start : Net := ⟨0, [], 0, 0⟩

namespace Value

/-- A PDU: its tag, and what it says unless it is NULL. -/
structure Pdu where
  type : EType
  body : Option Content
deriving DecidableEq, Repr

abbrev Vars := List Varbind

abbrev Func (α : Type) := Run Net Exc α

abbrev Method (τ α : Type) := Run (Net × τ) Exc α

def Pdu.null : Pdu := ⟨kInvalid, none⟩

def Pdu.vars (v : Pdu) : Vars := (v.body.map Response.vars).getD []

/-- The answer to the next call. -/
def ask {β : Type} (answer : Nat → β) : Func β := fun x => (.ok (answer x.calls), { x with calls := x.calls + 1 })

def emit (o : Outgoing) : Func Unit := fun x => (.ok (), { x with out := x.out ++ [o] })

/-! ## What is left behind -/

/-- An empty variable list is NULL. -/
def listCount (vs : Vars) : Nat := if vs = [] then 0 else 1

def loseVars (x : Net) (vs : Vars) : Net := { x with lostLists := x.lostLists + listCount vs }

def losePdu (x : Net) (v : Pdu) : Net :=
  match v.body with
  | none   => x
  | some b => { x with lostPdus := x.lostPdus + 1, lostLists := x.lostLists + listCount b.vars }

/-- A method called on a temporary: when it throws, what the temporary holds is left behind. -/
def onPdu {α : Type} (v : Pdu) (m : Method Pdu α) : Func (α × Pdu) := fun x =>
  match m (x, v) with
  | (.ok a, t)    => (.ok (a, t.2), t.1)
  | (.error e, t) => (.error e, losePdu t.1 t.2)

section
variable (env : NetSnmp)

/-! ## Building -/

def create (t : EType) : Func Pdu := do
  let fields ← ask env.pduCreate
  match fields with
  | none                     => Run.throws ⟨.runtimeError, "Failed to create a PDU.".toList⟩
  | some (errstat, errindex) => pure ⟨t, some ⟨t, errstat, errindex, []⟩⟩

/-- A NULL PDU cannot be cloned. -/
def clone (v : Pdu) : Func Pdu :=
  match v.body with
  | none   => Run.faults
  | some b => do
    let copied ← ask env.pduClone
    if copied then pure ⟨b.command, some b⟩ else pure ⟨kUnknown, none⟩

def addVar (c : AddCall) : Method Vars Unit :=
  if c.oid.empty then Run.throws (invalidArgument "Cannot add an empty OID.")
  else do
    let vs ← Run.this
    let added ← Run.lift (ask env.addVariable)
    if added then Run.setThis (vs ++ [c.varbind env])
    else Run.throws ⟨.runtimeError, "Failed to add ".toList ++ c.oid.toStr ++ " to the variable list.".toList⟩

/-- A loop of adds stops at the first one that throws and keeps what was added. -/
def addNullVars (os : List OID) : Method Vars Unit := Run.each (fun o => addVar env (.addNullVar o)) os

/-- An add to a PDU.  While it has no varbinds, an add that throws leaves it as it was, and what was begun behind. -/
def onBody (add : Method Vars Unit) : Method Pdu Unit := fun s =>
  match s.2.body with
  | none   => (.error (.exn (logicError "Cannot reference a NULL PDU.")), s)
  | some b =>
    match add (s.1, b.vars) with
    | (.ok _, t)    => (.ok (), (t.1, { s.2 with body := some { b with vars := t.2 } }))
    | (.error e, t) =>
      if b.vars = [] then (.error e, (loseVars t.1 t.2, s.2))
      else (.error e, (t.1, { s.2 with body := some { b with vars := t.2 } }))

section
variable {add : Method Vars Unit} {x x' : Net} {v : Pdu} {b : Content} {vs : Vars} {e : Stop Exc}

theorem onBody_null (hb : v.body = none) :
    onBody add (x, v) = (.error (.exn (logicError "Cannot reference a NULL PDU.")), (x, v)) := by
  simp only [onBody, hb]

theorem onBody_ok (hb : v.body = some b) (h : add (x, b.vars) = (.ok (), (x', vs))) :
    onBody add (x, v) = (.ok (), (x', { v with body := some { b with vars := vs } })) := by
  simp only [onBody, hb, h]

theorem onBody_begun (hb : v.body = some b) (hb' : b.vars = []) (h : add (x, b.vars) = (.error e, (x', vs))) :
    onBody add (x, v) = (.error e, (loseVars x' vs, v)) := by
  simp only [onBody, hb, h, if_pos hb']

theorem onBody_error (hb : v.body = some b) (hb' : b.vars ≠ []) (h : add (x, b.vars) = (.error e, (x', vs))) :
    onBody add (x, v) = (.error e, (x', { v with body := some { b with vars := vs } })) := by
  simp only [onBody, hb, h, if_neg hb']

end

/-! ## Requests -/

section
variable (session : SessionHandle)

def syncThrows {α : Type} : Method Pdu α := do
  let e ← Run.lift (ask env.sessError)
  Run.throws (syncError e)

/-- A request is spent when it is sent, whatever comes back; a response without an error is returned. -/
def sync : Method Pdu Pdu := do
  let v ← Run.this
  match v.body with
  | none   => Run.throws (invalidArgument "Request PDU must not be NULL.")
  | some b => do
    Run.setThis Pdu.null
    if session = none then Run.throws (invalidArgument "Session handle must not be NULL.")
    else do
      Run.lift (emit (.request b))
      let reply ← Run.lift (ask env.synchResponse)
      match reply.response with
      | none   => syncThrows env
      | some a => if a.Good reply.status then pure ⟨a.command, some a⟩ else syncThrows env

/-- After a request went out. -/
def spent (x : Net) (b : Content) : Net := { x with calls := x.calls + 1, out := x.out ++ [.request b] }

def ticked (x : Net) : Net := { x with calls := x.calls + 1 }

section
variable {x : Net} {v : Pdu} {b a : Content}

theorem sync_null (hb : v.body = none) :
    sync env session (x, v) = (.error (.exn (invalidArgument "Request PDU must not be NULL.")), (x, v)) := by
  rw [sync, Run.this_bind]
  simp only [hb, Run.throws_apply]

theorem sync_noSession (hb : v.body = some b) :
    sync env none (x, v)
      = (.error (.exn (invalidArgument "Session handle must not be NULL.")), (x, Pdu.null)) := by
  rw [sync, Run.this_bind]
  simp only [hb]
  rw [Run.setThis_bind, if_pos trivial, Run.throws_apply]

theorem sync_sent (hs : session ≠ none) (hb : v.body = some b) :
    sync env session (x, v)
      = (match (env.synchResponse x.calls).response with
          | none   => syncThrows env
          | some a => if a.Good (env.synchResponse x.calls).status then pure ⟨a.command, some a⟩ else syncThrows env
            : Method Pdu Pdu) (spent x b, Pdu.null) := by
  have hemit : emit (.request b) x = (.ok (), { x with out := x.out ++ [.request b] }) := rfl
  have hask : ask env.synchResponse { x with out := x.out ++ [.request b] }
      = (.ok (env.synchResponse x.calls), spent x b) := rfl
  rw [sync, Run.this_bind]
  simp only [hb]
  rw [Run.setThis_bind, if_neg hs, Run.lift_bind hemit, Run.lift_bind hask]

theorem sync_failed (hs : session ≠ none) (hb : v.body = some b)
    (hbad : ∀ a, (env.synchResponse x.calls).response = some a → ¬ a.Good (env.synchResponse x.calls).status) :
    sync env session (x, v)
      = (.error (.exn (syncError (env.sessError (x.calls + 1)))), (ticked (spent x b), Pdu.null)) := by
  rw [sync_sent env session hs hb]
  cases hresp : (env.synchResponse x.calls).response with
  | none => rfl
  | some a => simp only [if_neg (hbad a hresp)]; rfl

theorem sync_response (hs : session ≠ none) (hb : v.body = some b)
    (hresp : (env.synchResponse x.calls).response = some a) (hgood : a.Good (env.synchResponse x.calls).status) :
    sync env session (x, v) = (.ok ⟨a.command, some a⟩, (spent x b, Pdu.null)) := by
  rw [sync_sent env session hs hb]
  simp only [hresp, if_pos hgood]
  rfl

end

def requestOne (t : EType) (c : AddCall) : Func Pdu :=
  if c.oid.empty then Run.throws (invalidArgument "OID cannot be empty.")
  else do
    let request ← create env t
    let filled ← onPdu request (onBody (addVar env c))
    let response ← onPdu filled.2 (sync env session)
    pure response.1

def getSet (oids : SetOID) : Func Pdu :=
  if oids.elems = [] then Run.throws (invalidArgument "Cannot GET an empty set of OIDs.")
  else do
    let request ← create env kGet
    let filled ← onPdu request (Run.each (fun o => onBody (addVar env (.addNullVar o))) oids.elems)
    let response ← onPdu filled.2 (sync env session)
    pure response.1

/-- A GETNEXT goes out as it is, any other PDU as a GETNEXT of its last name. -/
def getNext : Method Pdu Pdu := do
  let v ← Run.this
  if v.vars = [] then Run.throws (invalidArgument "Cannot GETNEXT with an empty PDU.")
  else if v.type = kGetNext then sync env session
  else do
    Run.setThis Pdu.null
    Run.lift (requestOne env session kGetNext (.addNullVar (OID.ofVarlist (lastVarbind v.vars))))

/-- A GETBULK is sent as it is, any other PDU as a GETBULK of its names in order. -/
def getBulkTarget : Method Pdu Unit := do
  let v ← Run.this
  if v.type = kGetBulk then pure ()
  else if v.vars = [] then Run.throws (logicError "The PDU does not contain a variable list.")
  else do
    Run.setThis Pdu.null
    let q ← Run.lift (create env kGetBulk)
    Run.setThis q
    onBody (addNullVars env (Varlist.getOidsSet v.vars).elems)

def Pdu.bulk (v : Pdu) (maxRepetitions nonRepeaters : Int) : Pdu :=
  { v with body := v.body.map (fun b => { b with errstat := nonRepeaters, errindex := maxRepetitions }) }

def getBulkRequest (maxRepetitions nonRepeaters : Int) : Method Pdu Unit := do
  let v ← Run.this
  if v.body = none then Run.throws (invalidArgument "Request PDU must not be NULL.")
  else do
    getBulkTarget env
    let v ← Run.this
    Run.setThis (v.bulk maxRepetitions nonRepeaters)

def getBulk (maxRepetitions nonRepeaters : Int) : Method Pdu Pdu := do
  getBulkRequest env maxRepetitions nonRepeaters
  sync env session

def getBulkOid (o : OID) (maxRepetitions nonRepeaters : Int) : Func Pdu := do
  let request ← create env kGetBulk
  let filled ← onPdu request (onBody (addVar env (.addNullVar o)))
  let response ← onPdu filled.2 (getBulk env session maxRepetitions nonRepeaters)
  pure response.1

end

/-! ## Traps -/

/-- A list is spent when it is sent; fewer than two varbinds are not. -/
def sendV2Trap : Method Vars Unit := do
  let vs ← Run.this
  if vs = [] then Run.throws (invalidArgument "Cannot send SNMPv2 trap using a NULL variable list.")
  else do
    Run.setThis []
    if vs.length < 2 then Run.throws (invalidArgument "Variable list is too small to be a valid SNMPv2 trap.")
    else do
      Run.lift (emit (.trap vs))
      let rc ← Run.lift (ask env.sendTraps)
      if rc = 0 then pure () else Run.throws (trapError rc)

def sendV2TrapPdu : Method Pdu Unit := do
  let v ← Run.this
  Run.setThis Pdu.null
  if v.vars = [] then Run.throws (invalidArgument "Cannot send a trap using an empty PDU.")
  else do
    let _ ← Run.lift (Run.on v.vars (sendV2Trap env))
    pure ()

/-- Neither of the two adds is looked at. -/
def createV2TrapVarlist (o : OID) (uptime : Int64) : Func Vars :=
  if o.empty then Run.throws (invalidArgument "Cannot create SNMPv2 trap without an OID.")
  else do
    let first ← ask env.addVariable
    let second ← ask env.addVariable
    let vs := trapVarbinds env o uptime
    pure ((if first then vs.take 1 else []) ++ (if second then vs.drop 1 else []))

def sendV2TrapOid (o : OID) (uptime : Int64) : Func Unit := do
  let vs ← createV2TrapVarlist env o uptime
  let _ ← Run.on vs (sendV2Trap env)
  pure ()

end
end Value
end Snmppp
