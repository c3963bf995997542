import Snmppp.SessionThreads
import Snmppp.Exclusion
/-!
# Inits — net-snmp's initializations (Trap.cpp, net-snmppp.cpp, Session.cpp)

net-snmp wants its `init_*` and `snmp_*open` calls synchronized.  The opens make theirs under `mtxOpenSession`;
`initializeNetSnmpAgent` and the functions that turn logging on take no lock.  So threads keep the calls apart exactly
when none of these is left to one thread while another has such calls to make (`inits_exclusive_iff`).
-/
namespace Snmppp

/-- `init_*` and `snmp_*open`. -/
def SnmpCall.Initializes : SnmpCall → Prop
  | initAgent _ | initSnmp _ | initTraps | initSnmpLogging | snmpSessOpen => True
  | _                                                                     => False

/-! ## Threads that do any of this -/

/-- What a thread calls. -/
inductive ProcOp where
  | thread (op : ThreadOp)
  | initializeNetSnmpAgent (name : List Char)
  | shutdownNetSnmpAgent (name : List Char)
  | netsnmpDisableLogging
  | netsnmpLogStdErr (enabled : Bool)
  | netsnmpLogSyslog (enabled : Bool)
  | netsnmpLogToFile (enabled : Bool) (filename : List Char)

namespace ProcOp

def calls (env : NetSnmpSess) (agent : NetSnmpAgent) : ProcOp → SnmpCalls
  | thread op                         => op.calls env
  | initializeNetSnmpAgent name       => Snmppp.initializeNetSnmpAgent agent name
  | shutdownNetSnmpAgent name         => Snmppp.shutdownNetSnmpAgent name
  | netsnmpDisableLogging             => Snmppp.netsnmpDisableLogging
  | netsnmpLogStdErr enabled          => Snmppp.netsnmpLogStdErr enabled
  | netsnmpLogSyslog enabled          => Snmppp.netsnmpLogSyslog enabled
  | netsnmpLogToFile enabled filename => Snmppp.netsnmpLogToFile enabled filename

/-- Only the opens take `mtxOpenSession`. -/
def locks : ProcOp → Bool
  | thread (.session .closeSession) => false
  | thread (.session _)             => true
  | _                               => false

/-- It initializes net-snmp without the lock. -/
def initsAlone : ProcOp → Bool
  | initializeNetSnmpAgent _          => true
  | netsnmpLogStdErr enabled          => enabled
  | netsnmpLogSyslog enabled          => enabled
  | netsnmpLogToFile enabled filename => enabled && !filename.isEmpty
  | _                                 => false

/-- It initializes net-snmp: under the lock or without. -/
def inits (op : ProcOp) : Bool := op.locks || op.initsAlone

theorem locks_of_initsAlone {op : ProcOp} (h : op.initsAlone = true) : op.locks = false := by
  cases op with
  | thread => cases h
  | _      => rfl

theorem locks_iff (op : ThreadOp) : (thread op).locks = true ↔ op.Locks := by
  rcases op with op | _
  · cases op <;> simp [locks, ThreadOp.Locks]
  · simp [locks, ThreadOp.Locks]

variable (env : NetSnmpSess) (agent : NetSnmpAgent)

theorem leads_quiet {f : SnmpCall} {next : SnmpCalls} (h : next.Leads SnmpCall.Initializes) :
    (quiet f next).Leads SnmpCall.Initializes := .later (fun _ => ⟨(), rfl⟩) (fun _ => h)

theorem not_makes_returns : ¬ returns.Makes SnmpCall.Initializes := nofun

theorem not_makes_call {β : Type} {f : SnmpCall} {m : SessMethod β} {next : β → SnmpCalls} (hf : ¬ f.Initializes)
    (h : ∀ b, ¬ (next b).Makes SnmpCall.Initializes) : ¬ (Calls.call f m next).Makes SnmpCall.Initializes := by
  intro hmakes
  cases hmakes with
  | here hf'   => exact hf hf'
  | later b hm => exact h b hm

theorem closeCalls_not_makes : ¬ closeCalls.Makes SnmpCall.Initializes :=
  not_makes_call id fun sessionHandle => by
    cases sessionHandle with
    | none   => exact not_makes_returns
    | some _ => exact not_makes_call id fun _ => not_makes_call id fun _ => not_makes_returns

theorem logSwitch_inits {enable disable : SnmpCall} (hdisable : ¬ disable.Initializes) (enabled : Bool) :
    if enabled then (logSwitch enable disable enabled).Leads SnmpCall.Initializes
    else ¬ (logSwitch enable disable enabled).Makes SnmpCall.Initializes := by
  cases enabled with
  | true  => exact .here trivial
  | false => exact not_makes_call hdisable fun _ => not_makes_returns

/-- **A function comes to an initialization**, whatever net-snmp answers before, or makes none. -/
theorem calls_inits (op : ProcOp) :
    if op.inits then (op.calls env agent).Leads SnmpCall.Initializes
    else ¬ (op.calls env agent).Makes SnmpCall.Initializes := by
  cases op with
  | thread op =>
    rcases op with op | _
    · cases op with
      | openSession   => exact .later (fun _ => ⟨(), rfl⟩) (fun _ => .here trivial)
      | openSessionV3 => exact .later (fun _ => ⟨(), rfl⟩) (fun _ => .here trivial)
      | closeSession  => exact closeCalls_not_makes
    · exact not_makes_call id fun _ => not_makes_returns
  | initializeNetSnmpAgent name       => exact leads_quiet (.here trivial)
  | shutdownNetSnmpAgent name         => exact not_makes_call id fun _ => not_makes_call id fun _ => not_makes_returns
  | netsnmpDisableLogging             => exact not_makes_call id fun _ => not_makes_returns
  | netsnmpLogStdErr enabled          => exact logSwitch_inits id enabled
  | netsnmpLogSyslog enabled          => exact logSwitch_inits id enabled
  | netsnmpLogToFile enabled filename => exact logSwitch_inits id (enabled && !filename.isEmpty)

end ProcOp

variable {ι : Type} [DecidableEq ι] (env : NetSnmpSess) (agent : NetSnmpAgent)

/-- One step of one thread. -/
def Goes : (c c' : Exclusion.Moment ι SnmpCall ProcOp Sessions SessionHandle Exc Unit) → Prop :=
  Exclusion.Step (ProcOp.calls env agent) (fun op => op.locks = true)

/-- Threads that call so much each get from `s` to `c`. -/
def Gets (s : Sessions × (ι → SessionHandle)) (ops : ι → List ProcOp)
    (c : Exclusion.Moment ι SnmpCall ProcOp Sessions SessionHandle Exc Unit) : Prop :=
  Relation.ReflTransGen (Goes env agent) (Exclusion.start s ops) c

/-- **Initializations are synchronized**: in every interleaving no two threads are inside one at once, if and only if no
thread calls `initializeNetSnmpAgent` or turns logging on while another has an open or one of these to call. -/
theorem inits_exclusive_iff (s : Sessions × (ι → SessionHandle)) (ops : ι → List ProcOp) :
    (∀ c, Gets env agent s ops c → ∀ i j, Exclusion.Inside SnmpCall.Initializes c i →
      Exclusion.Inside SnmpCall.Initializes c j → i = j) ↔
    ∀ i j, i ≠ j → ∀ op ∈ ops i, op.initsAlone = true → ∀ op' ∈ ops j, op'.inits = false := by
  have hinits : ∀ op : ProcOp, (op.calls env agent).Makes SnmpCall.Initializes ↔ op.inits = true :=
    fun op => by
      have hcalls := op.calls_inits env agent
      split at hcalls
      · rename_i h
        exact iff_of_true (hcalls.makes (s.1, none)) h
      · rename_i h
        exact iff_of_false hcalls h
  have hleads : ∀ op : ProcOp, (op.calls env agent).Makes SnmpCall.Initializes →
      (op.calls env agent).Leads SnmpCall.Initializes := fun op h => by
    have hcalls := op.calls_inits env agent
    rwa [if_pos ((hinits op).1 h)] at hcalls
  have hoverlap : (∃ c, Gets env agent s ops c ∧ ∃ i j, i ≠ j ∧ Exclusion.Inside SnmpCall.Initializes c i ∧
      Exclusion.Inside SnmpCall.Initializes c j) ↔
      ∃ i j, i ≠ j ∧ (∃ op ∈ ops i, ¬ op.locks = true ∧ (op.calls env agent).Makes SnmpCall.Initializes) ∧
        ∃ op ∈ ops j, (op.calls env agent).Makes SnmpCall.Initializes := Exclusion.overlap_iff hleads s ops
  simp only [hinits] at hoverlap
  constructor
  · intro hsafe i j hij op hop halone op' hop'
    by_contra hbusy
    rw [Bool.not_eq_false] at hbusy
    have hlock := ProcOp.locks_of_initsAlone halone
    have hinit : op.inits = true := by rw [ProcOp.inits, halone, Bool.or_true]
    obtain ⟨c, hc, i', j', hne, hi', hj'⟩ :=
      hoverlap.2 ⟨i, j, hij, ⟨op, hop, Bool.eq_false_iff.1 hlock, hinit⟩, op', hop', hbusy⟩
    exact hne (hsafe c hc i' j' hi' hj')
  · intro hapart c hc i j hi hj
    by_contra hne
    obtain ⟨i', j', hij, ⟨op, hop, hlock, hinit⟩, op', hop', hinit'⟩ := hoverlap.1 ⟨c, hc, i, j, hne, hi, hj⟩
    have halone : op.initsAlone = true := by
      rw [Bool.not_eq_true] at hlock
      rwa [ProcOp.inits, hlock, Bool.false_or] at hinit
    rw [hapart i' j' hij op hop halone op' hop'] at hinit'
    cases hinit'

end Snmppp
