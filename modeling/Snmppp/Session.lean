import Snmppp.Get
/-!
# Session — opening and closing sessions (Session.hpp, Session.cpp)

`openSession` and `openSessionV3` fill in a `netsnmp_session`, the second after it has checked its arguments and
generated the keys, and both hand it to net-snmp in the same way (`openWith`).  The open sessions live in an `Arena`;
what net-snmp answers is a parameter, `NetSnmpSess`, for the `n`-th call whichever it is.  The mutex serialises the
opens, so one open is one program.
-/
namespace Snmppp

/-- The protocol OIDs of the user-based security model, with their lengths. -/
inductive UsmProtocol where
  | usmHMACMD5AuthProtocol
  | usmHMACSHA1AuthProtocol
  | usmDESPrivProtocol
  | usmAESPrivProtocol
deriving DecidableEq, Repr

/-- The fields of `netsnmp_session` that are set here; a text or a key stands for its pointer and length. -/
structure NetsnmpSession where
  version           : Int
  retries           : Int
  timeout           : Int
  peername          : List Char
  community         : List Char
  engineBoots       : Nat
  engineTime        : Nat
  securityName      : List Char
  securityModel     : Int
  securityLevel     : Int
  securityAuthProto : Option UsmProtocol
  securityAuthKey   : List UInt8
  securityPrivProto : Option UsmProtocol
  securityPrivKey   : List UInt8
deriving DecidableEq, Repr

/-- What net-snmp does about sessions: the outcome of the `n`-th call. -/
structure NetSnmpSess where
  /-- What `snmp_sess_init` leaves in a session of zeros. -/
  sessInit    : NetsnmpSession
  /-- `generate_Ku` of a protocol, a pass phrase and the room for the key: the key, unless it failed. -/
  generateKu  : Nat → UsmProtocol → List Char → Nat → Option (List UInt8)
  /-- `snmp_sess_open`: not NULL. -/
  sessOpen    : Nat → NetsnmpSession → Bool
  /-- `snmp_sess_session` of an open session: not NULL. -/
  sessSession : Nat → Bool
  snmpError   : Nat → NetsnmpSession → SessError

/-- The open sessions and the number of calls made so far. -/
structure Sessions where
  sessions : Arena NetsnmpSession
  calls    : Nat

def Sessions.tick (w : Sessions) : Sessions := { w with calls := w.calls + 1 }

/-- A function with one `SessionHandle &` parameter. -/
abbrev SessMethod (α : Type) := Run (Sessions × SessionHandle) Exc α

def runtimeError (what : String) : Exc := ⟨.runtimeError, what.toList⟩

def SNMP_VERSION_3 : Int := 3
def USM_SEC_MODEL_NUMBER : Int := 3
def SNMP_SEC_LEVEL_NOAUTH : Int := 1
def SNMP_SEC_LEVEL_AUTHNOPRIV : Int := 2
def SNMP_SEC_LEVEL_AUTHPRIV : Int := 3
def USM_AUTH_KU_LEN : Nat := 32
def USM_PRIV_KU_LEN : Nat := 32

/-! ## The calls -/

section
variable (env : NetSnmpSess)

def generateKu (proto : UsmProtocol) (pass : List Char) (room : Nat) : Run Sessions Exc (Option (List UInt8)) :=
  fun w => (.ok (env.generateKu w.calls proto pass room), w.tick)

def snmpSessOpen (session : NetsnmpSession) : Run Sessions Exc SessionHandle := fun w =>
  if env.sessOpen w.calls session then
    (.ok (some w.sessions.next), { w with sessions := w.sessions.alloc session, calls := w.calls + 1 })
  else (.ok none, w.tick)

/-- Whether `snmp_sess_session` returns a session; it reads through the handle. -/
def snmpSessSession (a : Nat) : Run Sessions Exc Bool := fun w =>
  if w.sessions.Live a then (.ok (env.sessSession w.calls), w.tick) else (.error .fault, w)

def snmpError (session : NetsnmpSession) : Run Sessions Exc SessError := fun w =>
  (.ok (env.snmpError w.calls session), w.tick)

/-- `snmp_sess_close`, which frees the session: closing one that is not open is undefined. -/
def snmpSessClose (a : Nat) : Run Sessions Exc Unit := fun w =>
  if w.sessions.Live a then (.ok (), { w with sessions := w.sessions.free a }) else (.error .fault, w)

/-! ## Opening -/

def openError (session : NetsnmpSession) (e : SessError) : Exc :=
  ⟨.runtimeError,
    "Failed to open SNMP session to \"".toList ++ session.peername ++ "\". [e1=".toList ++
      (toString e.cliberrno).toList ++ ", e2=".toList ++ (toString e.snmperrno).toList ++
      (match e.msg with
       | none     => []
       | some []  => []
       | some msg => ", ".toList ++ msg) ++ "]".toList⟩

/-- `sessionHandle == NULL || snmp_sess_session( sessionHandle ) == NULL`, negated. -/
def isOpened : SessionHandle → Run Sessions Exc Bool
  | none   => pure false
  | some a => snmpSessSession env a

/-- What both functions do with the session they have filled in. -/
def openWith (session : NetsnmpSession) : SessMethod Unit := do
  let sessionHandle ← Run.lift (snmpSessOpen env session)
  Run.setThis sessionHandle
  let opened ← Run.lift (isOpened env sessionHandle)
  if opened then pure ()
  else do
    let e ← Run.lift (snmpError env session)
    Run.throws (openError session e)

/-- The session `openSession` opens. -/
def v2Session (server community : List Char) (version retryAttempts timeout : Int) : NetsnmpSession :=
  { env.sessInit with
    version   := version
    retries   := retryAttempts
    timeout   := timeout
    peername  := OID.cString server
    community := community }

def openSession (server community : List Char) (version retryAttempts timeout : Int) : SessMethod Unit := do
  Run.setThis none
  openWith env (v2Session env server community version retryAttempts timeout)

/-- `if ( s == name ) .. else if .. else throw`: what is said of the first name `s` equals. -/
def oneOf {α : Type} (names : List (String × α)) (what : String) (s : List Char) : Run Sessions Exc α :=
  match names.find? (fun n => n.1.toList = s) with
  | some n => pure n.2
  | none   => Run.throws (runtimeError what)

def securityLevel : List Char → Run Sessions Exc Int :=
  oneOf [("authPriv", SNMP_SEC_LEVEL_AUTHPRIV), ("authNoPriv", SNMP_SEC_LEVEL_AUTHNOPRIV),
      ("noAuthNoPriv", SNMP_SEC_LEVEL_NOAUTH)]
    "Unsupported secLevel, valid: authPriv, authNoPriv, noAuthNoPriv"

def securityAuthProto : List Char → Run Sessions Exc UsmProtocol :=
  oneOf [("MD5", .usmHMACMD5AuthProtocol), ("SHA1", .usmHMACSHA1AuthProtocol)]
    "Unsupported authProtocol, valid: MD5, SHA1"

def securityPrivProto : List Char → Run Sessions Exc UsmProtocol :=
  oneOf [("DES", .usmDESPrivProtocol), ("AES", .usmAESPrivProtocol)] "Unsupported privProtocol, valid: DES, AES"

/-- The key for a pass phrase where one is wanted; without one the key keeps its room of zeros. -/
def keyFor (wanted : Bool) (proto : UsmProtocol) (pass : List Char) (room : Nat) (what : String) :
    Run Sessions Exc (List UInt8) :=
  if wanted then do
    match ← generateKu env proto pass room with
    | none     => Run.throws (runtimeError what)
    | some key => pure key
  else pure (List.replicate room 0)

/-- The session `openSessionV3` opens, which it may fail to fill in. -/
def v3Session (server authUser authPassword privPassword secLevel authProtocol privProtocol : List Char)
    (retryAttempts timeout : Int) : Run Sessions Exc NetsnmpSession := do
  let level ← securityLevel secLevel
  let authProto ← securityAuthProto authProtocol
  let privProto ← securityPrivProto privProtocol
  let authKey ← keyFor env (secLevel = "authPriv".toList ∨ secLevel = "authNoPriv".toList) authProto authPassword
    USM_AUTH_KU_LEN "Error generating Ku from authentication pass phrase"
  -- with the authentication protocol too
  let privKey ← keyFor env (secLevel = "authPriv".toList) authProto privPassword USM_PRIV_KU_LEN
    "Error generating Ku from privacy pass phrase"
  pure { env.sessInit with
    version           := SNMP_VERSION_3
    retries           := retryAttempts
    timeout           := timeout
    peername          := OID.cString server
    engineBoots       := 0
    engineTime        := 0
    securityName      := authUser
    securityModel     := USM_SEC_MODEL_NUMBER
    securityLevel     := level
    securityAuthProto := some authProto
    securityAuthKey   := authKey
    securityPrivProto := some privProto
    securityPrivKey   := privKey }

def openSessionV3 (server authUser authPassword privPassword secLevel authProtocol privProtocol : List Char)
    (retryAttempts timeout : Int) : SessMethod Unit := do
  Run.setThis none
  -- `init_snmp` readies the library and touches no session
  let session ← Run.lift (v3Session env server authUser authPassword privPassword secLevel authProtocol privProtocol
    retryAttempts timeout)
  openWith env session

end

def closeSession : SessMethod Unit := do
  match ← Run.this with
  | none               => pure ()
  | some sessionHandle => do
    Run.lift (snmpSessClose sessionHandle)
    Run.setThis none

end Snmppp
