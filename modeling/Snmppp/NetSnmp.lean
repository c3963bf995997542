import Snmppp.Run
import Snmppp.Arena
import Snmppp.Oid
import Snmppp.Bytes
/-!
# NetSnmp — the net-snmp library as the wrapper sees it

The memory net-snmp manages (PDUs and variable lists, each in an `Arena`), the calls the wrapper makes on it, and a log
of what was created, sent, received and trapped.  A variable list is the varbinds its head pointer reaches along
`next_variable`; NULL is the empty list.  What net-snmp answers is a parameter: `NetSnmp` gives the outcome of the
`n`-th call for every `n`, so a statement about every `NetSnmp` is one about every outcome of every call.  Using a
pointer to released memory is a fault.
-/
namespace Snmppp

abbrev PduPtr := Nat

/-- A pointer to the head of a variable list. -/
abbrev VarPtr := Nat

/-- `netsnmp_variable_list` but for its link; `val` holds the `val_len` bytes of the value. -/
structure Varbind where
  name : List oid
  type : UInt8
  val  : List UInt8
deriving DecidableEq, Repr

/-- What a head pointer that is not NULL reaches. -/
structure Varbinds where
  vars : List Varbind
  ne   : vars ≠ []
deriving DecidableEq, Repr

/-- `netsnmp_pdu`; `variableList` is its `variables`. -/
structure NetsnmpPdu where
  command      : Int
  errstat      : Int
  errindex     : Int
  variableList : Option VarPtr
deriving DecidableEq, Repr

structure Request where
  ptr      : PduPtr
  command  : Int
  errstat  : Int
  errindex : Int
  vars     : List Varbind
deriving DecidableEq, Repr

structure Response where
  command  : Int
  errstat  : Int
  errindex : Int
  vars     : List Varbind
deriving DecidableEq, Repr

/-- What `snmp_sess_synch_response` ends with: its status, and the response unless that stayed NULL. -/
structure Reply where
  status   : Int
  response : Option Response
deriving DecidableEq, Repr

/-- What `snmp_sess_error` fills in; `msg` is the text of the C string, unless NULL. -/
structure SessError where
  cliberrno : Int
  snmperrno : Int
  msg       : Option (List Char)
deriving DecidableEq, Repr

inductive Event where
  | created (p : PduPtr)
  | sent (request : Request)
  | received (p : PduPtr) (vars : List Varbind)
  | trap (vars : List Varbind) (rc : Int)
deriving DecidableEq, Repr

/-- The outcome of the `n`-th call, whichever it is, and the bytes net-snmp keeps of a value of a type. -/
structure NetSnmp where
  /-- `snmp_pdu_create`: NULL, or the errstat and errindex of the new PDU. -/
  pduCreate     : Nat → Option (Int × Int)
  /-- `snmp_clone_pdu`: not NULL. -/
  pduClone      : Nat → Bool
  /-- `snmp_varlist_add_variable`: not NULL. -/
  addVariable   : Nat → Bool
  copyValue     : UInt8 → List UInt8 → List UInt8
  synchResponse : Nat → Reply
  sessError     : Nat → SessError
  sendTraps     : Nat → Int

/-- The memory, the number of calls made so far, and the log. -/
structure World where
  pdus  : Arena NetsnmpPdu
  lists : Arena Varbinds
  calls : Nat
  log   : List Event

inductive ExcKind where
  | invalidArgument
  | runtimeError
  | logicError
deriving DecidableEq, Repr

/-- A `std::exception` by its class and its text. -/
structure Exc where
  kind : ExcKind
  what : List Char
deriving DecidableEq, Repr

abbrev Snmp (α : Type) := Run World Exc α

/-- A method of an object of type `τ`, or a function with one `τ &` parameter. -/
abbrev Method (τ α : Type) := Run (World × τ) Exc α

def invalidArgument (what : String) : Exc := ⟨.invalidArgument, what.toList⟩

def logicError (what : String) : Exc := ⟨.logicError, what.toList⟩

/-! ## ASN types and other constants of net-snmp -/

def ASN_BOOLEAN : UInt8 := 1
def ASN_INTEGER : UInt8 := 2
def ASN_OCTET_STR : UInt8 := 4
def ASN_NULL : UInt8 := 5
def ASN_OBJECT_ID : UInt8 := 6
def ASN_GAUGE : UInt8 := 66
def ASN_TIMETICKS : UInt8 := 67
def ASN_INTEGER64 : UInt8 := 74

def SNMP_ERR_NOERROR : Int := 0
def STAT_SUCCESS : Int := 0
def STAT_TIMEOUT : Int := 2

namespace World

def tick (w : World) : World := { w with calls := w.calls + 1 }

/-- The varbinds a head pointer reaches; `none` when it dangles. -/
def vars (w : World) : Option VarPtr → Option (List Varbind)
  | none   => some []
  | some l => (w.lists.cell l).map Varbinds.vars

/-- A new list of the given varbinds, NULL when there are none. -/
def newList (w : World) : List Varbind → Option VarPtr × World
  | []      => (none, w)
  | v :: vs => (some w.lists.next, { w with lists := w.lists.alloc ⟨v :: vs, List.cons_ne_nil v vs⟩ })

def freeList (w : World) : Option VarPtr → World
  | none   => w
  | some l => { w with lists := w.lists.free l }

/-- `vb` appended at the tail of the list of a head pointer; a NULL head becomes the new varbind's address. -/
def append (w : World) (vb : Varbind) : Option VarPtr → Option VarPtr × World
  | none   => w.newList [vb]
  | some l =>
    match w.lists.cell l with
    | none    => (some l, w)
    | some vs => (some l, { w with lists := w.lists.put l ⟨vs.vars ++ [vb], by simp⟩ })

def newPdu (w : World) (d : NetsnmpPdu) : World := { w with pdus := w.pdus.alloc d }

def setPdu (w : World) (p : PduPtr) (d : NetsnmpPdu) : World := { w with pdus := w.pdus.put p d }

def freePdu (w : World) (p : PduPtr) : World :=
  match w.pdus.cell p with
  | none   => w
  | some d => { w.freeList d.variableList with pdus := w.pdus.free p }

def logs (w : World) (e : Event) : World := { w with log := w.log ++ [e] }

def request (w : World) (p : PduPtr) : Option Request :=
  (w.pdus.cell p).bind (fun d =>
    (w.vars d.variableList).map (fun vs => ⟨p, d.command, d.errstat, d.errindex, vs⟩))

def deliver (w : World) (r : Response) : World :=
  ((w.newList r.vars).2.newPdu ⟨r.command, r.errstat, r.errindex, (w.newList r.vars).1⟩).logs
    (.received w.pdus.next r.vars)

end World

/-! ## The calls -/

def deref (p : PduPtr) : Snmp NetsnmpPdu := fun w =>
  match w.pdus.cell p with
  | none   => (.error .fault, w)
  | some d => (.ok d, w)

def chain (vl : Option VarPtr) : Snmp (List Varbind) := fun w =>
  match w.vars vl with
  | none    => (.error .fault, w)
  | some vs => (.ok vs, w)

def assign (p : PduPtr) (f : NetsnmpPdu → NetsnmpPdu) : Snmp Unit := fun w =>
  match w.pdus.cell p with
  | none   => (.error .fault, w)
  | some d => (.ok (), w.setPdu p (f d))

/-- `snmp_free_varbind`, which takes NULL. -/
def snmpFreeVarbind (vl : Option VarPtr) : Snmp Unit := fun w =>
  match w.vars vl with
  | none   => (.error .fault, w)
  | some _ => (.ok (), w.freeList vl)

/-- `snmp_free_pdu`, which takes NULL and frees the variable list along. -/
def snmpFreePdu : Option PduPtr → Snmp Unit
  | none   => pure ()
  | some p => fun w =>
    match w.request p with
    | none   => (.error .fault, w)
    | some _ => (.ok (), w.freePdu p)

section
variable (env : NetSnmp)

def snmpPduCreate (command : Int) : Snmp (Option PduPtr) := fun w =>
  match env.pduCreate w.calls with
  | none                     => (.ok none, w.tick)
  | some (errstat, errindex) =>
    (.ok (some w.pdus.next), ((w.newPdu ⟨command, errstat, errindex, none⟩).logs (.created w.pdus.next)).tick)

/-- `snmp_clone_pdu`: a copy with a variable list of its own.  It reads through the pointer it is given. -/
def snmpClonePdu : Option PduPtr → Snmp (Option PduPtr)
  | none   => Run.faults
  | some p => fun w =>
    match w.request p with
    | none   => (.error .fault, w)
    | some r =>
      if env.pduClone w.calls then
        (.ok (some w.pdus.next),
          ((w.newList r.vars).2.newPdu ⟨r.command, r.errstat, r.errindex, (w.newList r.vars).1⟩).tick)
      else (.ok none, w.tick)

/-- `snmp_varlist_add_variable`: the head pointer it leaves, and whether it returned a varbind. -/
def snmpVarlistAddVariable (head : Option VarPtr) (name : OID) (type : UInt8) (value : List UInt8) :
    Snmp (Option VarPtr × Bool) := fun w =>
  match w.vars head with
  | none   => (.error .fault, w)
  | some _ =>
    if env.addVariable w.calls then
      let r := w.append ⟨name.v, type, env.copyValue type value⟩ head
      (.ok (r.1, true), r.2.tick)
    else (.ok (head, false), w.tick)

/-- `snmp_sess_synch_response`: it takes over the request and frees it, and answers with a status and a response. -/
def snmpSessSynchResponse (p : PduPtr) : Snmp (Int × Option PduPtr) := fun w =>
  match w.request p with
  | none   => (.error .fault, w)
  | some r =>
    let sent := ((w.logs (.sent r)).freePdu p).tick
    let reply := env.synchResponse w.calls
    match reply.response with
    | none   => (.ok (reply.status, none), sent)
    | some a => (.ok (reply.status, some sent.pdus.next), sent.deliver a)

def snmpSessError : Snmp SessError := fun w => (.ok (env.sessError w.calls), w.tick)

/-- `netsnmp_send_traps`, which leaves the list it is given alone. -/
def netsnmpSendTraps (vl : Option VarPtr) : Snmp Int := fun w =>
  match w.vars vl with
  | none    => (.error .fault, w)
  | some vs => (.ok (env.sendTraps w.calls), (w.logs (.trap vs (env.sendTraps w.calls))).tick)

end

/-! ## A process that has just started, and a net-snmp that never fails -/

def World.start : World := ⟨Arena.empty, Arena.empty, 0, []⟩

/-- The bytes kept of a value: an `int` of ASN_INTEGER is widened to a `long`, anything else is copied. -/
def widenInteger (type : UInt8) (value : List UInt8) : List UInt8 :=
  if type = ASN_INTEGER ∧ value.length = 4 then
    Bytes.ofNat 8 (UInt32.ofNat (Bytes.toNat value)).toInt32.toInt64.toUInt64.toNat
  else value

/-- Every call succeeds, and `reply n` answers a request sent by the `n`-th. -/
def NetSnmp.working (reply : Nat → Reply) : NetSnmp where
  pduCreate     := fun _ => some (0, 0)
  pduClone      := fun _ => true
  addVariable   := fun _ => true
  copyValue     := widenInteger
  synchResponse := reply
  sessError     := fun _ => ⟨0, 0, none⟩
  sendTraps     := fun _ => 0

/-- No agent answers: the request times out. -/
def Reply.timeout : Reply := ⟨STAT_TIMEOUT, none⟩

end Snmppp
