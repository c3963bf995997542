import Snmppp.Varlist
import Mathlib.Data.Nat.Digits.Defs
/-!
# Uptime — how long something has been up (Trap.cpp)

Times are `long`s.  `centisecondsSince` counts the hundredths of a second from a time to now and takes no time from the
future; `centisecondsPidStarted` counts from the time of the process's directory in `/proc`, whose name it writes into a
small buffer.
-/
namespace Snmppp

/-- What the system answers: the time, the process, when a path was changed last, and its own two clocks. -/
structure Clocks where
  time      : Int64
  getpid    : Int32
  stat      : List Char → Option Int64
  getUptime : UInt64
  /-- The seconds that `sysinfo` says, zero where it fails. -/
  sysinfo   : Int64

/-- A result of arithmetic on `long`s, which must not overflow. -/
def ofLong (i : Int) : Res Int64 := if -2 ^ 63 ≤ i ∧ i < 2 ^ 63 then .ok (Int64.ofInt i) else .error .fault

/-- `sprintf( path, "/proc/%d", pid )` -/
def procPath (pid : Int32) : List Char :=
  "/proc/".toList ++ (if pid.toInt < 0 then ['-'] else []) ++ Nat.toDigits 10 pid.toInt.natAbs

/-- A text and its NUL written into a `char` array of `size`. -/
def intoBuffer (size : Nat) (s : List Char) : Res (List Char) := if s.length < size then .ok s else .error .fault

variable (clocks : Clocks)

def centisecondsSince (t : Int64) : Res Int64 :=
  if t > clocks.time then .ok 0
  else do
    let elapsed ← ofLong (clocks.time.toInt - t.toInt)
    ofLong (100 * elapsed.toInt)

def centisecondsNetSnmpUptime : Int64 := clocks.getUptime.toInt64

def centisecondsPidStarted (pid : Int32) : Res Int64 := do
  let pid := if pid = 0 then clocks.getpid else pid
  let path ← intoBuffer 20 (procPath pid)
  match clocks.stat path with
  | none   => pure (centisecondsNetSnmpUptime clocks)
  | some t => centisecondsSince clocks t

def centisecondsUptime : Res Int64 := ofLong (100 * clocks.sysinfo.toInt)

/-- The process that is asked about. -/
def askedPid (pid : Int32) : Int32 := if pid = 0 then clocks.getpid else pid

/-! ## What they come to -/

theorem ofLong_eq_ok_iff {i : Int} {r : Int64} : ofLong i = .ok r ↔ r.toInt = i := by
  unfold ofLong
  split
  · rename_i h
    have hi := Int64.toInt_ofInt_of_le h.1 h.2
    rw [Except.ok.injEq]
    constructor
    · rintro rfl
      exact hi
    · intro hr
      exact Int64.toInt_inj.1 (hi.trans hr.symm)
  · rename_i h
    refine iff_of_false nofun (fun hr => h ?_)
    rw [← hr]
    exact ⟨r.le_toInt, r.toInt_lt⟩

theorem ofLong_fault_iff {i : Int} : ofLong i = .error .fault ↔ i < -2 ^ 63 ∨ 2 ^ 63 ≤ i := by
  unfold ofLong
  split
  · exact iff_of_false nofun (by omega)
  · exact iff_of_true rfl (by omega)

/-- **The name of a process's directory fits into `char path[20]`.** -/
theorem length_procPath_lt (pid : Int32) : (procPath pid).length < 20 := by
  have hlo := pid.le_toInt
  have hhi := pid.toInt_lt
  have hdigits : (Nat.toDigits 10 pid.toInt.natAbs).length ≤ 10 :=
    Nat.toDigits_length 10 _ 10 (by decide) (by omega)
  have hsign : (if pid.toInt < 0 then ['-'] else []).length ≤ 1 := by split <;> simp
  have hproc : "/proc/".toList.length = 6 := by decide
  unfold procPath
  rw [List.length_append, List.length_append]
  omega

/-- **A time that has passed is counted from, and one that has not counts nothing.** -/
theorem centisecondsSince_eq (t : Int64) :
    centisecondsSince clocks t = ofLong (100 * max 0 (clocks.time.toInt - t.toInt)) := by
  unfold centisecondsSince
  split
  · rename_i h
    have hlt : clocks.time.toInt < t.toInt := Int64.lt_iff_toInt_lt.1 h
    rw [max_eq_left (by omega)]
    rfl
  · rename_i h
    have hle : t.toInt ≤ clocks.time.toInt := Int.not_lt.1 (mt Int64.lt_iff_toInt_lt.2 h)
    rw [max_eq_right (by omega)]
    cases hd : ofLong (clocks.time.toInt - t.toInt) with
    | ok elapsed =>
      rw [ofLong_eq_ok_iff] at hd
      rw [← hd]
      rfl
    | error e =>
      have hfault : ofLong (clocks.time.toInt - t.toInt) = .error .fault := by
        unfold ofLong at hd ⊢
        split at hd
        · cases hd
        · rename_i hno
          rw [if_neg hno]
      rw [hfault] at hd
      cases hd
      have hbig := ofLong_fault_iff.1 hfault
      exact (ofLong_fault_iff.2 (by omega)).symm

/-- **The time since the directory's, or net-snmp's own** where there is no directory. -/
theorem centisecondsPidStarted_eq (pid : Int32) :
    centisecondsPidStarted clocks pid = match clocks.stat (procPath (askedPid clocks pid)) with
      | none   => .ok (centisecondsNetSnmpUptime clocks)
      | some t => ofLong (100 * max 0 (clocks.time.toInt - t.toInt)) := by
  have hpath : intoBuffer 20 (procPath (askedPid clocks pid)) = .ok (procPath (askedPid clocks pid)) :=
    if_pos (length_procPath_lt _)
  unfold centisecondsPidStarted
  show (intoBuffer 20 (procPath (askedPid clocks pid)) >>= _) = _
  rw [hpath]
  show (match clocks.stat (procPath (askedPid clocks pid)) with
    | none   => pure (centisecondsNetSnmpUptime clocks)
    | some t => centisecondsSince clocks t) = _
  split
  · rfl
  · exact centisecondsSince_eq clocks _

/-- **A reading is undefined** exactly when the directory is there and the hundredths of a second since its time are too
many for a `long`. -/
theorem centisecondsPidStarted_fault_iff (pid : Int32) :
    centisecondsPidStarted clocks pid = .error .fault ↔
      ∃ t, clocks.stat (procPath (askedPid clocks pid)) = some t ∧ 2 ^ 63 ≤ 100 * (clocks.time.toInt - t.toInt) := by
  rw [centisecondsPidStarted_eq]
  cases clocks.stat (procPath (askedPid clocks pid)) with
  | none   => exact iff_of_false nofun nofun
  | some t =>
    simp only [ofLong_fault_iff, Option.some.injEq, exists_eq_left']
    omega

end Snmppp
