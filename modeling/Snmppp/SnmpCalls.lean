import Snmppp.Calls
import Snmppp.SessionRun
/-!
# SnmpCalls — the functions as the calls of net-snmp they make (Session.cpp, Trap.cpp, net-snmppp.cpp)

The opens, `closeSession` and the requests of a session, and the functions of the agent and the logs, call by call and
each call under its name.  Without the names the functions of sessions are what they were (`ThreadOp.calls_run`).
-/
namespace Snmppp

/-- The calls of net-snmp, and `own` for what a function does between them. -/
inductive SnmpCall where
  | own
  | netsnmpDsSetBoolean
  | initAgent (name : List Char)
  | initSnmp (name : List Char)
  | initTraps
  | initSnmpLogging
  | snmpShutdown (name : List Char)
  | shutdownAgent
  | generateKu
  | snmpSessOpen
  | snmpSessSession
  | snmpSessClose
  | snmpError
  | snmpDisableLog
  | snmpEnableStderrlog
  | snmpDisableStderrlog
  | snmpEnableSyslog
  | snmpDisableSyslog
  | snmpEnableFilelog (filename : List Char) (dontZeroLog : Nat)
  | snmpDisableFilelog
deriving DecidableEq, Repr

abbrev SnmpCalls := Calls SnmpCall (Sessions × SessionHandle) Exc Unit

/-- A call that looks at no session and returns nothing that is looked at. -/
def quiet (f : SnmpCall) (next : SnmpCalls) : SnmpCalls := .call f (pure ()) fun _ => next

def returns : SnmpCalls := .done (.ok ())

/-! ## Sessions -/

/-- Reading through the handle of a session. -/
def snmpSessRead (a : Nat) : Run Sessions Exc Unit := fun w =>
  if w.sessions.Live a then (.ok (), w) else (.error .fault, w)

/-- What `sync` does with its session. -/
def requestSession : SessMethod Unit := do
  match ← Run.this with
  | none               => Run.throws (invalidArgument "Session handle must not be NULL.")
  | some sessionHandle => Run.lift (snmpSessRead sessionHandle)

/-- What a thread does with its handle. -/
inductive ThreadOp where
  | session (op : SessionOp)
  | request

section
variable (env : NetSnmpSess)

def ThreadOp.run : ThreadOp → SessMethod Unit
  | session op => op.run env
  | request    => requestSession

def openFailed (session : NetsnmpSession) : SnmpCalls :=
  .call .snmpError (Run.lift (snmpError env session)) fun e => .done (.error (.exn (openError session e)))

/-- `openWith`, call by call.  `snmp_sess_session` is not called on NULL. -/
def openCalls (session : NetsnmpSession) : SnmpCalls :=
  .call .snmpSessOpen (do
    let sessionHandle ← Run.lift (snmpSessOpen env session)
    Run.setThis sessionHandle
    pure sessionHandle) fun sessionHandle =>
  match sessionHandle with
  | none   => openFailed env session
  | some _ =>
    .call .snmpSessSession (do let sessionHandle ← Run.this; Run.lift (isOpened env sessionHandle)) fun opened =>
    if opened then returns else openFailed env session

/-- `keyFor`, which calls `generate_Ku` where a key is wanted. -/
def keyCall (wanted : Bool) (proto : UsmProtocol) (pass : List Char) (room : Nat) (what : String)
    (next : List UInt8 → SnmpCalls) : SnmpCalls :=
  .call (if wanted then .generateKu else .own) (Run.lift (keyFor env wanted proto pass room what)) next

/-- `v3Session`, call by call, and what is done with the session. -/
def v3Calls (server authUser authPassword privPassword secLevel authProtocol privProtocol : List Char)
    (retryAttempts timeout : Int) : SnmpCalls :=
  .call .own (Run.lift (securityLevel secLevel)) fun level =>
  .call .own (Run.lift (securityAuthProto authProtocol)) fun authProto =>
  .call .own (Run.lift (securityPrivProto privProtocol)) fun privProto =>
  keyCall env (secLevel = "authPriv".toList ∨ secLevel = "authNoPriv".toList) authProto authPassword
    USM_AUTH_KU_LEN "Error generating Ku from authentication pass phrase" fun authKey =>
  keyCall env (secLevel = "authPriv".toList) authProto privPassword USM_PRIV_KU_LEN
    "Error generating Ku from privacy pass phrase" fun privKey =>
  openCalls env
    { env.sessInit with
      version           := SNMP_VERSION_3
      retries           := retryAttempts
      timeout           := timeout
      peername          := OID.cString server
      engineBoots       := 0
      engineTime        := 0
      securityName      := authUser
      securityModel     := USM_SEC_MODEL_NUMBER
      securityLevel     := level
      securityAuthProto := some authProto
      securityAuthKey   := authKey
      securityPrivProto := some privProto
      securityPrivKey   := privKey }

/-- `closeSession`, call by call.  `snmp_sess_close` is not called on NULL. -/
def closeCalls : SnmpCalls :=
  .call .own Run.this fun sessionHandle =>
  match sessionHandle with
  | none               => returns
  | some sessionHandle =>
    .call .snmpSessClose (Run.lift (snmpSessClose sessionHandle)) fun _ =>
    .call .own (Run.setThis none) fun _ => returns

/-- The functions of sessions as the calls they make. -/
def ThreadOp.calls : ThreadOp → SnmpCalls
  | session (.openSession server community version retryAttempts timeout) =>
    .call .own (Run.setThis none) fun _ => openCalls env (v2Session env server community version retryAttempts timeout)
  | session (.openSessionV3 server authUser authPassword privPassword secLevel authProtocol privProtocol retryAttempts
      timeout) =>
    .call .own (Run.setThis none) fun _ =>
    quiet (.initSnmp "SNMPpp".toList) <|
    v3Calls env server authUser authPassword privPassword secLevel authProtocol privProtocol retryAttempts timeout
  | session .closeSession => closeCalls
  | request               => .call .own requestSession fun _ => returns

theorem openCalls_run (session : NetsnmpSession) : (openCalls env session).steps.run = openWith env session := by
  funext s
  unfold openCalls openWith
  rcases hopen : snmpSessOpen env session s.1 with ⟨e | sessionHandle, w⟩
  · have hthrow : Run.lift (snmpSessOpen env session) s = (.error e, (w, s.2)) := Run.lift_of hopen s.2
    simp only [Calls.steps, Steps.run, Run.bind_assoc]
    rw [Run.bind_error hthrow, Run.bind_error hthrow]
  · have hopened : Run.lift (snmpSessOpen env session) s = (.ok sessionHandle, (w, s.2)) := Run.lift_of hopen s.2
    simp only [Calls.steps, Steps.run, Run.bind_assoc]
    rw [Run.bind_ok hopened, Run.bind_ok hopened]
    cases sessionHandle with
    | none   => rfl
    | some a =>
      show (Run.lift (isOpened env (some a)) >>= fun opened => _) (w, some a)
        = (Run.lift (isOpened env (some a)) >>= fun opened => _) (w, some a)
      refine congrFun (congrArg _ (funext fun opened => ?_)) _
      cases opened <;> rfl

theorem v3Calls_run (server authUser authPassword privPassword secLevel authProtocol privProtocol : List Char)
    (retryAttempts timeout : Int) :
    (v3Calls env server authUser authPassword privPassword secLevel authProtocol privProtocol retryAttempts
      timeout).steps.run
      = Run.lift (v3Session env server authUser authPassword privPassword secLevel authProtocol privProtocol
          retryAttempts timeout) >>= openWith env := by
  unfold v3Calls v3Session
  simp only [keyCall, Calls.steps, Steps.run, openCalls_run, Run.lift_seq, Run.bind_assoc]
  rfl

theorem closeCalls_run : closeCalls.steps.run = closeSession := by
  funext ⟨w, v⟩
  cases v with
  | none => rfl
  | some a => rfl

/-- **The calls of a function are the function.** -/
theorem ThreadOp.calls_run (op : ThreadOp) : (op.calls env).steps.run = op.run env := by
  rcases op with op | _
  · cases op with
    | openSession server community version retryAttempts timeout =>
      simp only [calls, Calls.steps, Steps.run, openCalls_run]
      rfl
    | openSessionV3 server authUser authPassword privPassword secLevel authProtocol privProtocol retryAttempts
      timeout =>
      simp only [calls, quiet, Calls.steps, Steps.run, v3Calls_run]
      rfl
    | closeSession => exact closeCalls_run
  · funext s
    rcases h : requestSession s with ⟨e | _, t⟩
    · simp only [calls, Calls.steps, Steps.run, Run.bind_error h, run, h]
    · simp only [calls, returns, Calls.steps, Steps.run, Run.bind_ok h, run, h, Run.result_apply]

end

/-! ## The agent -/

/-- What net-snmp's agent library answers to the `n`-th call. -/
structure NetSnmpAgent where
  initAgent : Nat → List Char → Int
  /-- `snmp_error` of no session. -/
  snmpError : Nat → SessError

section
variable (agent : NetSnmpAgent)

def agentError (name : List Char) (rc : Int) (e : SessError) : Exc :=
  ⟨.runtimeError,
    "Failed to initialize the SNMP agent for \"".toList ++ name ++ "\". [rc=".toList ++ (toString rc).toList ++
      ", cliberrno=".toList ++ (toString e.cliberrno).toList ++
      ", snmperrno=".toList ++ (toString e.snmperrno).toList ++
      (match e.msg with
       | none     => []
       | some []  => []
       | some msg => ", ".toList ++ msg) ++ "]".toList⟩

/-- A call of the agent library. -/
def askAgent {β : Type} (answer : Nat → β) : SessMethod β := fun s => (.ok (answer s.1.calls), (s.1.tick, s.2))

def initializeNetSnmpAgent (name : List Char) : SnmpCalls :=
  quiet .netsnmpDsSetBoolean <|
  .call (.initAgent (OID.cString name)) (askAgent fun n => agent.initAgent n (OID.cString name)) fun rc =>
  if rc ≠ 0 then .call .snmpError (askAgent agent.snmpError) fun e => .done (.error (.exn (agentError name rc e)))
  else quiet (.initSnmp (OID.cString name)) <| quiet .initTraps returns

def shutdownNetSnmpAgent (name : List Char) : SnmpCalls :=
  quiet (.snmpShutdown (OID.cString name)) <| quiet .shutdownAgent returns

/-! ## Logging -/

def netsnmpDisableLogging : SnmpCalls := quiet .snmpDisableLog returns

/-- Turning a log on or off. -/
def logSwitch (enable disable : SnmpCall) (enabled : Bool) : SnmpCalls :=
  if enabled then quiet .initSnmpLogging <| quiet enable returns else quiet disable returns

def netsnmpLogStdErr : Bool → SnmpCalls := logSwitch .snmpEnableStderrlog .snmpDisableStderrlog

def netsnmpLogSyslog : Bool → SnmpCalls := logSwitch .snmpEnableSyslog .snmpDisableSyslog

def netsnmpLogToFile (enabled : Bool) (filename : List Char) : SnmpCalls :=
  logSwitch (.snmpEnableFilelog (OID.cString filename) 1) .snmpDisableFilelog (enabled && !filename.isEmpty)

end

end Snmppp
