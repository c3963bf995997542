import Snmppp.Inits
/-!
# InitOrder — `init_agent` comes before `init_snmp` (Trap.cpp, Session.cpp)

"init_agent() must be called before init_snmp()", says `initializeNetSnmpAgent`, and calls them in that order.  But
`openSessionV3` calls `init_snmp`, too.  So a process keeps the order exactly when, each time it initializes the agent,
it has called neither of the two with effect since it started or shut the agent down (`agent_first_iff`).
-/
namespace Snmppp

namespace SnmpCall

/-- Whether `init_snmp` has been called since net-snmp was shut down. -/
def ready : SnmpCall → Bool → Bool
  | initSnmp _, _     => true
  | snmpShutdown _, _ => false
  | _, before         => before

def initsAgent : SnmpCall → Bool
  | initAgent _ => true
  | _           => false

/-- **`init_agent` is called before `init_snmp`**: at no time after it, until net-snmp is shut down. -/
def AgentFirst : Bool → List SnmpCall → Prop
  | _, []           => True
  | before, f :: fs => (f.initsAgent = true → before = false) ∧ AgentFirst (f.ready before) fs

instance decidableAgentFirst : (before : Bool) → (fs : List SnmpCall) → Decidable (AgentFirst before fs)
  | _, []           => .isTrue trivial
  | before, f :: fs => @instDecidableAnd _ _ _ (decidableAgentFirst (f.ready before) fs)

/-- A call that is none of the three. -/
def Idle (f : SnmpCall) : Prop := (∀ before, f.ready before = before) ∧ f.initsAgent = false

theorem agentFirst_append : ∀ (fs gs : List SnmpCall) (before : Bool),
    AgentFirst before (fs ++ gs) ↔ AgentFirst before fs ∧ AgentFirst (fs.foldl (fun b f => f.ready b) before) gs
  | [], gs, before     => by rw [AgentFirst, true_and]; rfl
  | f :: fs, gs, before => by
    rw [List.cons_append, AgentFirst, AgentFirst, agentFirst_append fs gs, List.foldl_cons, and_assoc]

theorem agentFirst_idle : ∀ {fs : List SnmpCall}, (∀ f ∈ fs, f.Idle) → ∀ before, AgentFirst before fs ∧
    fs.foldl (fun b f => f.ready b) before = before
  | [], _, _           => ⟨trivial, rfl⟩
  | f :: fs, h, before => by
    obtain ⟨hready, hagent⟩ := h f List.mem_cons_self
    obtain ⟨hfirst, hfold⟩ := agentFirst_idle (fun g hg => h g (List.mem_cons_of_mem _ hg)) before
    rw [AgentFirst, List.foldl_cons, hready]
    exact ⟨⟨fun hf => absurd hf (Bool.eq_false_iff.1 hagent), hfirst⟩, hfold⟩

end SnmpCall

namespace ProcOp

/-- Whether `init_snmp` has been called since the last shutdown, after `op` has come to `r`. -/
def ready : ProcOp → Except (Stop Exc) Unit → Bool → Bool
  | initializeNetSnmpAgent _, r, before         => before || r.isOk
  | shutdownNetSnmpAgent _, _, _                => false
  | thread (.session (.openSessionV3 ..)), _, _ => true
  | _, _, before                                => before

def initsAgent : ProcOp → Bool
  | initializeNetSnmpAgent _ => true
  | _                        => false

/-- Every `initializeNetSnmpAgent` is called when `init_snmp` has not been. -/
def InOrder : Bool → List (ProcOp × Except (Stop Exc) Unit) → Prop
  | _, []                 => True
  | before, (op, r) :: es => (op.initsAgent = true → before = false) ∧ InOrder (op.ready r before) es

instance decidableInOrder : (before : Bool) → (es : List (ProcOp × Except (Stop Exc) Unit)) →
    Decidable (InOrder before es)
  | _, []                 => .isTrue trivial
  | before, (op, r) :: es => @instDecidableAnd _ _ _ (decidableInOrder (op.ready r before) es)

variable (env : NetSnmpSess) (agent : NetSnmpAgent)

def run (op : ProcOp) : SessMethod Unit := (op.calls env agent).steps.run

open SnmpCall

/-- All calls it may make are idle. -/
def IdleCalls (p : SnmpCalls) : Prop := ∀ f, p.Makes (· = f) → f.Idle

theorem IdleCalls.done (r : Except (Stop Exc) Unit) : IdleCalls (.done r) := fun _ h => by cases h

theorem IdleCalls.call {β : Type} {f : SnmpCall} {m : SessMethod β} {next : β → SnmpCalls} (hf : f.Idle)
    (h : ∀ b, IdleCalls (next b)) : IdleCalls (.call f m next) := fun g hg => by
  cases hg with
  | here hg    => exact hg ▸ hf
  | later b hg => exact h b g hg

theorem IdleCalls.openFailed (session : NetsnmpSession) : IdleCalls (openFailed env session) :=
  .call ⟨fun _ => rfl, rfl⟩ fun _ => .done _

theorem IdleCalls.openCalls (session : NetsnmpSession) : IdleCalls (openCalls env session) :=
  .call ⟨fun _ => rfl, rfl⟩ fun sessionHandle => by
    cases sessionHandle with
    | none   => exact .openFailed env session
    | some _ =>
      refine .call ⟨fun _ => rfl, rfl⟩ fun opened => ?_
      cases opened with
      | true  => exact .done _
      | false => exact .openFailed env session

theorem IdleCalls.keyCall (wanted : Bool) (proto : UsmProtocol) (pass : List Char) (room : Nat) (what : String)
    {next : List UInt8 → SnmpCalls} (h : ∀ key, IdleCalls (next key)) :
    IdleCalls (keyCall env wanted proto pass room what next) := by
  refine .call ?_ h
  cases wanted <;> exact ⟨fun _ => rfl, rfl⟩

theorem IdleCalls.v3Calls (server authUser authPassword privPassword secLevel authProtocol privProtocol : List Char)
    (retryAttempts timeout : Int) :
    IdleCalls (v3Calls env server authUser authPassword privPassword secLevel authProtocol privProtocol retryAttempts
      timeout) :=
  .call ⟨fun _ => rfl, rfl⟩ fun _ => .call ⟨fun _ => rfl, rfl⟩ fun _ => .call ⟨fun _ => rfl, rfl⟩ fun _ =>
  .keyCall env _ _ _ _ _ fun _ => .keyCall env _ _ _ _ _ fun _ => .openCalls env _

theorem IdleCalls.closeCalls : IdleCalls closeCalls :=
  .call ⟨fun _ => rfl, rfl⟩ fun sessionHandle => by
    cases sessionHandle with
    | none   => exact .done _
    | some _ => exact .call ⟨fun _ => rfl, rfl⟩ fun _ => .call ⟨fun _ => rfl, rfl⟩ fun _ => .done _

theorem IdleCalls.logSwitch (enable disable : SnmpCall) (he : enable.Idle) (hd : disable.Idle) (enabled : Bool) :
    IdleCalls (logSwitch enable disable enabled) := by
  cases enabled with
  | true  => exact .call ⟨fun _ => rfl, rfl⟩ fun _ => .call he fun _ => .done _
  | false => exact .call hd fun _ => .done _

theorem IdleCalls.made {p : SnmpCalls} (h : IdleCalls p) (s : Sessions × SessionHandle) (before : Bool) :
    AgentFirst before (p.made s).1 ∧ (p.made s).1.foldl (fun b f => f.ready b) before = before :=
  agentFirst_idle (fun f hf => h f (p.makes_of_mem_made hf)) before

/-- **What one function does to the order**: its calls keep it unless it initializes the agent too late, and whether
`init_snmp` is among them is as `ready` says. -/
def MadeInOrder (op : ProcOp) (s : Sessions × SessionHandle) (before : Bool) : Prop :=
  let made := (op.calls env agent).made s
  (AgentFirst before made.1 ↔ (op.initsAgent = true → before = false)) ∧
    made.1.foldl (fun b f => f.ready b) before = op.ready made.2.1 before

variable {env agent}

theorem MadeInOrder.of_idle {op : ProcOp} {s : Sessions × SessionHandle} {before : Bool}
    (h : IdleCalls (op.calls env agent)) (hop : op.initsAgent = false)
    (hready : ∀ r, op.ready r before = before) : MadeInOrder env agent op s before := by
  obtain ⟨hfirst, hfold⟩ := h.made s before
  exact ⟨iff_of_true hfirst (fun h => absurd h (Bool.eq_false_iff.1 hop)), hfold.trans (hready _).symm⟩

variable (env agent)

theorem madeInOrder_initialize (name : List Char) (s : Sessions × SessionHandle) (before : Bool) :
    MadeInOrder env agent (initializeNetSnmpAgent name) s before := by
  by_cases hrc : agent.initAgent s.1.calls (OID.cString name) = 0
  · have hmade : ((initializeNetSnmpAgent name).calls env agent).made s =
        ([.netsnmpDsSetBoolean, .initAgent (OID.cString name), .initSnmp (OID.cString name), .initTraps],
          .ok (), (s.1.tick, s.2)) := by
      simp only [calls, Snmppp.initializeNetSnmpAgent, quiet, Calls.made, askAgent, Run.pure_apply, hrc]
      rfl
    unfold MadeInOrder
    rw [hmade]
    simp [AgentFirst, SnmpCall.ready, SnmpCall.initsAgent, initsAgent, ready, Except.isOk, Except.toBool]
  · have hmade : ∃ e t, ((initializeNetSnmpAgent name).calls env agent).made s =
        ([.netsnmpDsSetBoolean, .initAgent (OID.cString name), .snmpError], .error e, t) := by
      simp only [calls, Snmppp.initializeNetSnmpAgent, quiet, Calls.made, askAgent, Run.pure_apply, ne_eq, hrc,
        not_false_iff, if_true]
      exact ⟨_, _, rfl⟩
    obtain ⟨e, t, hmade⟩ := hmade
    unfold MadeInOrder
    rw [hmade]
    simp [AgentFirst, SnmpCall.ready, SnmpCall.initsAgent, initsAgent, ready, Except.isOk, Except.toBool]

theorem madeInOrder (op : ProcOp) (s : Sessions × SessionHandle) (before : Bool) :
    MadeInOrder env agent op s before := by
  cases op with
  | thread op =>
    rcases op with op | _
    · cases op with
      | openSession =>
        exact .of_idle (.call ⟨fun _ => rfl, rfl⟩ fun _ => .openCalls env _) rfl (fun _ => rfl)
      | openSessionV3 server authUser authPassword privPassword secLevel authProtocol privProtocol retryAttempts
        timeout =>
        have hrest := IdleCalls.v3Calls env server authUser authPassword privPassword secLevel authProtocol privProtocol
          retryAttempts timeout
        obtain ⟨hfirst, hfold⟩ := hrest.made (s.1, none) true
        exact ⟨iff_of_true ⟨nofun, nofun, hfirst⟩ nofun, hfold⟩
      | closeSession => exact .of_idle .closeCalls rfl (fun _ => rfl)
    · exact .of_idle (.call ⟨fun _ => rfl, rfl⟩ fun _ => .done _) rfl (fun _ => rfl)
  | initializeNetSnmpAgent name => exact madeInOrder_initialize env agent name s before
  | shutdownNetSnmpAgent name => exact ⟨iff_of_true ⟨nofun, nofun, trivial⟩ nofun, rfl⟩
  | netsnmpDisableLogging => exact .of_idle (.call ⟨fun _ => rfl, rfl⟩ fun _ => .done _) rfl (fun _ => rfl)
  | netsnmpLogStdErr =>
    exact .of_idle (.logSwitch .snmpEnableStderrlog .snmpDisableStderrlog ⟨fun _ => rfl, rfl⟩ ⟨fun _ => rfl, rfl⟩ _) rfl
      (fun _ => rfl)
  | netsnmpLogSyslog =>
    exact .of_idle (.logSwitch .snmpEnableSyslog .snmpDisableSyslog ⟨fun _ => rfl, rfl⟩ ⟨fun _ => rfl, rfl⟩ _) rfl
      (fun _ => rfl)
  | netsnmpLogToFile =>
    exact .of_idle (.logSwitch (.snmpEnableFilelog _ _) .snmpDisableFilelog ⟨fun _ => rfl, rfl⟩ ⟨fun _ => rfl, rfl⟩ _)
      rfl (fun _ => rfl)

end ProcOp

/-- The calls of net-snmp that functions called in turn make. -/
def callsInTurn (env : NetSnmpSess) (agent : NetSnmpAgent) : List ProcOp → Sessions × SessionHandle → List SnmpCall
  | [], _      => []
  | op :: ops, s =>
    let made := (op.calls env agent).made s
    made.1 ++ callsInTurn env agent ops made.2.2

/-- What they come to. -/
def endsInTurn (env : NetSnmpSess) (agent : NetSnmpAgent) (ops : List ProcOp) (s : Sessions × SessionHandle) :
    List (Except (Stop Exc) Unit) := (Run.trace (ops.map (·.run env agent)) s).1

theorem agentFirst_from (env : NetSnmpSess) (agent : NetSnmpAgent) : ∀ (ops : List ProcOp)
    (s : Sessions × SessionHandle) (before : Bool),
    SnmpCall.AgentFirst before (callsInTurn env agent ops s) ↔
      ProcOp.InOrder before (ops.zip (endsInTurn env agent ops s))
  | [], _, _            => Iff.rfl
  | op :: ops, s, before => by
    obtain ⟨hfirst, hready⟩ := op.madeInOrder env agent s before
    have hrun : ((op.calls env agent).made s).2 = op.run env agent s := Calls.made_run _ s
    have hrest := agentFirst_from env agent ops (op.run env agent s).2 (op.ready (op.run env agent s).1 before)
    rw [hrun] at hready
    show SnmpCall.AgentFirst before (((op.calls env agent).made s).1 ++
      callsInTurn env agent ops ((op.calls env agent).made s).2.2) ↔
      (op.initsAgent = true → before = false) ∧
        ProcOp.InOrder (op.ready (op.run env agent s).1 before)
          (ops.zip (endsInTurn env agent ops (op.run env agent s).2))
    rw [SnmpCall.agentFirst_append, hfirst, hready, hrun, hrest]

/-- **`init_agent` is called before `init_snmp`**, whatever else a process calls, if and only if it initializes the
agent only when it has called neither `openSessionV3` nor, with success, `initializeNetSnmpAgent` since it started or
shut the agent down. -/
theorem agent_first_iff (env : NetSnmpSess) (agent : NetSnmpAgent) (ops : List ProcOp)
    (s : Sessions × SessionHandle) :
    SnmpCall.AgentFirst false (callsInTurn env agent ops s) ↔
      ProcOp.InOrder false (ops.zip (endsInTurn env agent ops s)) := agentFirst_from env agent ops s false

end Snmppp
