import Snmppp.SnmpCalls
/-!
# SessionThreads — sessions used from many threads (Session.hpp, Session.cpp, Get.cpp)

Every thread has a `SessionHandle` of its own.  The opens hold `mtxOpenSession` from their first line to their last,
closes and requests take no lock, and each call of net-snmp happens at once.  However the calls of the threads are
interleaved, they end as the same operations one after the other (`threads_serial`), and no thread ever uses or closes a
session that is not open or not its own (`threads_safe`).
-/
namespace Snmppp

namespace ThreadOp

variable (env : NetSnmpSess)

/-- `std::lock_guard<std::mutex> lock(mtxOpenSession)` -/
def Locks : ThreadOp → Prop
  | session op => op ≠ .closeSession
  | request    => False

/-- An operation as the calls it makes, without their names. -/
def steps (op : ThreadOp) : Steps (Sessions × SessionHandle) Exc Unit := (op.calls env).steps

/-- **The calls of an operation are the operation.** -/
theorem steps_run (op : ThreadOp) : (op.steps env).run = op.run env := op.calls_run env

end ThreadOp

/-! ## Handles of different threads -/

section
variable {ι : Type}

/-- **Every handle is NULL or the handle of an open session that no other thread has.** -/
structure Apart (s : Sessions × (ι → SessionHandle)) : Prop where
  live : ∀ i a, s.2 i = some a → s.1.sessions.Live a
  own  : ∀ i j a, s.2 i = some a → s.2 j = some a → i = j

theorem apart_null (w : Sessions) : Apart (w, fun _ : ι => none) :=
  ⟨fun _ _ ha => (by cases ha), fun _ _ _ ha => (by cases ha)⟩

variable [DecidableEq ι]

/-- After thread `j` has closed its session `a`. -/
def closed (j : ι) (a : Nat) (s : Sessions × (ι → SessionHandle)) : Sessions × (ι → SessionHandle) :=
  ({ s.1 with sessions := s.1.sessions.free a }, Function.update s.2 j none)

theorem update_eq_some {f : ι → SessionHandle} {i k : ι} {v : SessionHandle} {b : Nat} :
    Function.update f i v k = some b ↔ (k = i ∧ v = some b) ∨ (k ≠ i ∧ f k = some b) := by
  by_cases hk : k = i
  · subst hk
    simp
  · simp [hk]

namespace Apart

variable {s : Sessions × (ι → SessionHandle)} {i j : ι} {a : Nat}

/-- A handle that is set to NULL, or to a session that was not open. -/
theorem set (h : Apart s) {w : Sessions} {v : SessionHandle} (hlive : ∀ b, s.1.sessions.Live b → w.sessions.Live b)
    (hv : ∀ b, v = some b → w.sessions.Live b ∧ ¬ s.1.sessions.Live b) : Apart (w, Function.update s.2 i v) := by
  refine ⟨fun k b hb => ?_, fun k l b hk hl => ?_⟩
  · rcases update_eq_some.1 hb with ⟨-, hvb⟩ | ⟨-, hkb⟩
    · exact (hv b hvb).1
    · exact hlive b (h.live k b hkb)
  · rcases update_eq_some.1 hk with ⟨rfl, hvb⟩ | ⟨-, hkb⟩ <;> rcases update_eq_some.1 hl with ⟨rfl, hvb'⟩ | ⟨-, hlb⟩
    · rfl
    · exact absurd (h.live l b hlb) (hv b hvb).2
    · exact absurd (h.live k b hkb) (hv b hvb').2
    · exact h.own k l b hkb hlb

/-- What is left of the handles when thread `j` has closed its own. -/
theorem closed_some (h : Apart s) (hj : s.2 j = some a) {k : ι} {b : Nat}
    (hk : (Snmppp.closed j a s).2 k = some b) : s.2 k = some b ∧ b ≠ a := by
  rcases update_eq_some.1 hk with ⟨-, hnone⟩ | ⟨hne, hkb⟩
  · cases hnone
  · exact ⟨hkb, fun hba => hne (h.own k j b hkb (by rw [hj, hba]))⟩

theorem closed (h : Apart s) (hj : s.2 j = some a) : Apart (closed j a s) := by
  refine ⟨fun k b hb => ?_, fun k l b hk hl => ?_⟩
  · obtain ⟨hkb, hne⟩ := h.closed_some hj hb
    exact (Arena.live_free _ _ _).2 ⟨h.live k b hkb, hne⟩
  · exact h.own k l b (h.closed_some hj hk).1 (h.closed_some hj hl).1

end Apart

/-- **What a thread does without the lock**: nothing to the sessions, or it closes its own. -/
theorem alone_cases (env : NetSnmpSess) {op : ThreadOp} (hop : ¬ op.Locks) (j : ι) (v : SessionHandle) :
    (∃ r, r ≠ .error .fault ∧ ∀ s : Sessions × (ι → SessionHandle), Apart s → s.2 j = v →
      (op.run env).thread j s = (r, s)) ∨
    ∃ a, v = some a ∧ ∀ s : Sessions × (ι → SessionHandle), Apart s → s.2 j = v →
      (op.run env).thread j s = (.ok (), closed j a s) := by
  rcases op with op | _
  · obtain rfl : op = .closeSession := not_not.1 hop
    rcases v with _ | a
    · refine .inl ⟨.ok (), (by intro h; cases h), fun s _ hs => ?_⟩
      have hrun : closeSession (s.1, s.2 j) = (.ok (), (s.1, s.2 j)) := by rw [hs, closeSession_null]
      simp only [Run.thread, ThreadOp.run, SessionOp.run, hrun, Function.update_eq_self]
    · refine .inr ⟨a, rfl, fun s h hs => ?_⟩
      have hrun := closeSession_open (h.live j a hs)
      rw [← hs] at hrun
      simp only [Run.thread, ThreadOp.run, SessionOp.run, hrun, closed]
  · left
    rcases v with _ | a
    · refine ⟨.error (.exn (invalidArgument "Session handle must not be NULL.")), (by intro h; cases h),
        fun s _ hs => ?_⟩
      have hrun : requestSession (s.1, s.2 j)
          = (.error (.exn (invalidArgument "Session handle must not be NULL.")), (s.1, s.2 j)) := by
        rw [hs]
        rfl
      simp only [Run.thread, ThreadOp.run, hrun, Function.update_eq_self]
    · refine ⟨.ok (), (by intro h; cases h), fun s h hs => ?_⟩
      have hread : snmpSessRead a s.1 = (.ok (), s.1) := if_pos (h.live j a hs)
      have hrun : requestSession (s.1, s.2 j) = (.ok (), (s.1, s.2 j)) := by
        rw [hs, requestSession, Run.this_bind]
        exact Run.lift_of hread _
      simp only [Run.thread, ThreadOp.run, hrun, Function.update_eq_self]

/-- **A call under the lock that a close of another thread's session passes by.** -/
structure Passes (ι : Type) [DecidableEq ι] {α : Type} (m : SessMethod α) : Prop where
  keeps  : ∀ (i : ι) s, Apart s → Apart (m.thread i s).2
  passes : ∀ (i j : ι) a s, i ≠ j → Apart s → s.2 j = some a →
    m.thread i (closed j a s) = ((m.thread i s).1, closed j a (m.thread i s).2)

/-- What looks at no session and touches none. -/
def Blind {α : Type} (f : Run Sessions Exc α) : Prop :=
  ∀ w A, f { w with sessions := A } = ((f w).1, { (f w).2 with sessions := A })

namespace Blind

variable {α β : Type}

theorem pure (a : α) : Blind (Pure.pure a : Run Sessions Exc α) := fun _ _ => rfl

theorem throws (e : Exc) : Blind (Run.throws e : Run Sessions Exc α) := fun _ _ => rfl

theorem bind {f : Run Sessions Exc α} {g : α → Run Sessions Exc β} (hf : Blind f) (hg : ∀ a, Blind (g a)) :
    Blind (f >>= g) := fun w A => by
  have hfA := hf w A
  rcases h : f w with ⟨e | a, w'⟩ <;> rw [h] at hfA
  · rw [Run.bind_error hfA, Run.bind_error h]
  · rw [Run.bind_ok hfA, Run.bind_ok h, hg a w' A]

theorem sessions {f : Run Sessions Exc α} (hf : Blind f) (w : Sessions) : (f w).2.sessions = w.sessions := by
  have hself := congrArg (fun r => r.2.sessions) (hf w w.sessions)
  exact hself

end Blind

namespace Passes

variable {α : Type}

theorem setThis : Passes ι (Run.setThis none : SessMethod Unit) where
  keeps i s h := h.set (fun _ hb => hb) (fun b hb => by cases hb)
  passes i j a s hij _ _ := Prod.ext rfl (Prod.ext rfl (Function.update_comm hij.symm _ _ _))

theorem lift {f : Run Sessions Exc α} (hf : Blind f) : Passes ι (Run.lift f : SessMethod α) where
  keeps i s h := by
    have hsess : (f s.1).2.sessions = s.1.sessions := hf.sessions s.1
    simp only [Run.thread, Run.lift_apply, Function.update_eq_self]
    exact ⟨fun k b hb => by rw [hsess]; exact h.live k b hb, h.own⟩
  passes i j a s hij _ _ := by
    have hfA := hf s.1 (s.1.sessions.free a)
    have hsess : (f s.1).2.sessions = s.1.sessions := hf.sessions s.1
    simp only [Run.thread, Run.lift_apply, Function.update_eq_self, closed, hfA, hsess]

variable (env : NetSnmpSess)

theorem sessOpen (session : NetsnmpSession) :
    Passes ι (do
      let sessionHandle ← Run.lift (snmpSessOpen env session)
      Run.setThis sessionHandle
      pure sessionHandle) := by
  have hopened : ∀ w v, env.sessOpen w.calls session = true →
      (do
        let sessionHandle ← Run.lift (snmpSessOpen env session)
        Run.setThis sessionHandle
        pure sessionHandle : SessMethod SessionHandle) (w, v)
        = (.ok (some w.sessions.next), (w.opened session 1, some w.sessions.next)) := fun w v ho => by
    rw [Run.lift_bind (snmpSessOpen_opened env session w ho)]
    rfl
  have hnot : ∀ w v, env.sessOpen w.calls session = false →
      (do
        let sessionHandle ← Run.lift (snmpSessOpen env session)
        Run.setThis sessionHandle
        pure sessionHandle : SessMethod SessionHandle) (w, v)
        = (.ok none, (w.tick, none)) := fun w v ho => by
    have hnull : snmpSessOpen env session w = (.ok none, w.tick) := by
      rw [snmpSessOpen, if_neg (by rw [ho]; exact Bool.false_ne_true)]
    rw [Run.lift_bind hnull]
    rfl
  constructor
  · intro i s h
    cases ho : env.sessOpen s.1.calls session with
    | true =>
      simp only [Run.thread, hopened s.1 _ ho]
      refine h.set (fun b hb => (Arena.live_alloc _ _ _).2 (.inl hb)) (fun b hb => ?_)
      cases hb
      exact ⟨(Arena.live_alloc _ _ _).2 (.inr rfl), s.1.sessions.not_live_of_le (Nat.le_refl _)⟩
    | false =>
      simp only [Run.thread, hnot s.1 _ ho]
      exact h.set (fun b hb => hb) (fun b hb => by cases hb)
  · intro i j a s hij h hj
    have ha : a ≠ s.1.sessions.next := fun hc =>
      s.1.sessions.not_live_of_le (Nat.le_of_eq hc.symm) (h.live j a hj)
    have hcomm : ∀ v : SessionHandle, Function.update (Function.update s.2 j none) i v
        = Function.update (Function.update s.2 i v) j none := fun v => Function.update_comm hij.symm _ _ _
    cases ho : env.sessOpen s.1.calls session with
    | true =>
      simp only [Run.thread, hopened s.1 _ ho, closed, hopened { s.1 with sessions := s.1.sessions.free a } _ ho, hcomm]
      rw [Sessions.opened, Sessions.opened, Arena.free_alloc _ _ _ ha]
      rfl
    | false =>
      simp only [Run.thread, hnot s.1 _ ho, closed, hnot { s.1 with sessions := s.1.sessions.free a } _ ho, hcomm]
      rfl

theorem isOpened :
    Passes ι (do let sessionHandle ← Run.this; Run.lift (isOpened env sessionHandle) : SessMethod Bool) := by
  have hnull : ∀ w, (do let sessionHandle ← Run.this; Run.lift (Snmppp.isOpened env sessionHandle) : SessMethod Bool)
      (w, none) = (.ok false, (w, none)) := fun w => rfl
  have hread : ∀ w a, w.sessions.Live a →
      (do let sessionHandle ← Run.this; Run.lift (Snmppp.isOpened env sessionHandle) : SessMethod Bool) (w, some a)
        = (.ok (env.sessSession w.calls), (w.tick, some a)) := fun w a hlive => by
    have hsess : Snmppp.isOpened env (some a) w = (.ok (env.sessSession w.calls), w.tick) := if_pos hlive
    rw [Run.this_bind, Run.lift_of hsess]
  have hself : ∀ (f : ι → SessionHandle) {i : ι} {v : SessionHandle}, f i = v → Function.update f i v = f :=
    fun f i v hv => by rw [← hv, Function.update_eq_self]
  constructor
  · intro i s h
    rcases hv : s.2 i with _ | b
    · simp only [Run.thread, hv, hnull, hself s.2 hv]
      exact h
    · simp only [Run.thread, hv, hread s.1 b (h.live i b hv), hself s.2 hv]
      exact ⟨h.live, h.own⟩
  · intro i j a s hij h hj
    have hi : Function.update s.2 j none i = s.2 i := Function.update_of_ne hij _ _
    rcases hv : s.2 i with _ | b
    · simp only [Run.thread, closed, hi, hv, hnull, hself s.2 hv, hself _ (hi.trans hv)]
    · have hlive := h.live i b hv
      have hba : b ≠ a := fun hc => hij (h.own i j b hv (by rw [hj, hc]))
      have hlive' : (s.1.sessions.free a).Live b := (Arena.live_free _ _ _).2 ⟨hlive, hba⟩
      simp only [Run.thread, closed, hi, hv, hread s.1 b hlive, hself s.2 hv, hself _ (hi.trans hv),
        hread { s.1 with sessions := s.1.sessions.free a } b hlive']
      rfl

/-- **Such a call can be swapped with what another thread does without the lock.** -/
theorem swaps {m : SessMethod α} (hm : Passes ι m) :
    Threads.Swaps (ThreadOp.steps env) ThreadOp.Locks (Apart (ι := ι)) m := by
  intro i s h
  refine ⟨hm.keeps i s h, fun j hj op hop => ?_⟩
  rw [ThreadOp.steps_run]
  have h' := hm.keeps i s h
  have hsame : (m.thread i s).2.2 j = s.2 j := Function.update_of_ne hj _ _
  rcases alone_cases env hop j (s.2 j) with ⟨r, -, hrun⟩ | ⟨a, ha, hrun⟩
  · exact ⟨by rw [hrun s h rfl], by rw [hrun s h rfl, hrun _ h' hsame], by rw [hrun s h rfl, hrun _ h' hsame]⟩
  · have hpass := hm.passes i j a s hj.symm h ha
    exact ⟨by rw [hrun s h rfl, hpass], by rw [hrun s h rfl, hrun _ h' hsame],
      by rw [hrun s h rfl, hrun _ h' hsame, hpass]⟩

end Passes

/-! ## The calls of an open -/

theorem oneOf_blind {α : Type} (names : List (String × α)) (what : String) (s : List Char) :
    Blind (oneOf names what s) := by
  unfold oneOf
  split
  · exact .pure _
  · exact .throws _

section
variable (env : NetSnmpSess)

theorem keyFor_blind (wanted : Bool) (proto : UsmProtocol) (pass : List Char) (room : Nat) (what : String) :
    Blind (keyFor env wanted proto pass room what) := by
  unfold keyFor
  split
  · refine .bind (fun _ _ => rfl) (fun key => ?_)
    cases key with
    | none => exact .throws _
    | some key => exact .pure key
  · exact .pure _

theorem openFailed_swap (session : NetsnmpSession) :
    (openFailed env session).steps.All (Threads.Swaps (ThreadOp.steps env) ThreadOp.Locks (Apart (ι := ι))) := by
  have herror : Blind (snmpError env session) := fun _ _ => rfl
  exact ⟨(Passes.lift herror).swaps env, fun _ => trivial⟩

theorem openCalls_swap (session : NetsnmpSession) :
    (openCalls env session).steps.All (Threads.Swaps (ThreadOp.steps env) ThreadOp.Locks (Apart (ι := ι))) := by
  refine ⟨(Passes.sessOpen env session).swaps env, fun sessionHandle => ?_⟩
  cases sessionHandle with
  | none => exact openFailed_swap env session
  | some a =>
    refine ⟨(Passes.isOpened env).swaps env, fun opened => ?_⟩
    cases opened with
    | true => trivial
    | false => exact openFailed_swap env session

/-- **Every call of an open can be swapped with what another thread does without the lock.** -/
theorem steps_swap {op : ThreadOp} (hop : op.Locks) :
    (op.steps env).All (Threads.Swaps (ThreadOp.steps env) ThreadOp.Locks (Apart (ι := ι))) := by
  rcases op with op | _
  · cases op with
    | openSession server community version retryAttempts timeout =>
      exact ⟨Passes.setThis.swaps env, fun _ => openCalls_swap env _⟩
    | openSessionV3 server authUser authPassword privPassword secLevel authProtocol privProtocol retryAttempts
      timeout =>
      exact ⟨Passes.setThis.swaps env, fun _ =>
        ⟨(Passes.lift (Blind.pure ())).swaps env, fun _ =>
        ⟨(Passes.lift (oneOf_blind _ _ secLevel)).swaps env, fun _ =>
        ⟨(Passes.lift (oneOf_blind _ _ authProtocol)).swaps env, fun authProto =>
        ⟨(Passes.lift (oneOf_blind _ _ privProtocol)).swaps env, fun _ =>
        ⟨(Passes.lift (keyFor_blind env _ authProto authPassword _ _)).swaps env, fun _ =>
        ⟨(Passes.lift (keyFor_blind env _ authProto privPassword _ _)).swaps env, fun _ =>
          openCalls_swap env _⟩⟩⟩⟩⟩⟩⟩
    | closeSession => exact absurd rfl hop
  · exact hop.elim

theorem alone_keeps {op : ThreadOp} (hop : ¬ op.Locks) (i : ι) (s : Sessions × (ι → SessionHandle)) (h : Apart s) :
    Apart (((op.steps env).run).thread i s).2 := by
  rw [ThreadOp.steps_run]
  rcases alone_cases env hop i (s.2 i) with ⟨r, -, hrun⟩ | ⟨a, ha, hrun⟩ <;> rw [hrun s h rfl]
  · exact h
  · exact h.closed ha

/-! ## Whole runs -/

/-- What threads come to that start with NULL handles, next to the sessions of `w`. -/
def Reaches (w : Sessions) (c : Threads ι ThreadOp Sessions SessionHandle Exc Unit) : Prop :=
  Relation.ReflTransGen (Threads.Step (ThreadOp.steps env) ThreadOp.Locks) (Threads.start (w, fun _ => none)) c

theorem reaches_serial {w : Sessions} {c : Threads ι ThreadOp Sessions SessionHandle Exc Unit} (h : Reaches env w c) :
    Threads.Serial (ThreadOp.steps env) ThreadOp.Locks Apart (w, fun _ => none) c :=
  Threads.serial (fun _ hop => steps_swap env hop) (fun _ hop => alone_keeps env hop) (apart_null w) h

/-- A net-snmp that opens every session. -/
def NetSnmpSess.opensAll : NetSnmpSess := { NetSnmpSess.showsNone with sessSession := fun _ => true }

/-- Two threads: while the first opens a session the second makes a request. -/
theorem two_threads :
    ∃ c : Threads (Fin 2) ThreadOp Sessions SessionHandle Exc Unit,
      Reaches NetSnmpSess.opensAll ⟨Arena.empty, 0⟩ c ∧ c.inside = none ∧
        c.log.map (fun e => (e.1, e.2.1)) = [(1, .request), (0, .session (.openSession [] [] 1 3 1000))] ∧
        c.state.2 0 = some 0 := by
  let op : ThreadOp := .session (.openSession [] [] 1 3 1000)
  have hop : op.Locks := fun hc => by cases hc
  have hreach := ((((((Relation.ReflTransGen.refl (r := Threads.Step (ι := Fin 2)
    (ThreadOp.steps NetSnmpSess.opensAll) ThreadOp.Locks) (a := Threads.start (⟨Arena.empty, 0⟩, fun _ => none))).tail
      (.enter 0 op hop)).tail .call).tail
      (.alone 1 .request (by simp [ThreadOp.Locks]) (by simp))).tail .call).tail .call).tail .leave
  exact ⟨_, hreach, rfl, rfl, rfl⟩

/-- **The threads take turns.**  However the calls of opens, closes and requests of any number of threads are
interleaved, every operation ends as it would if the operations were run one after the other in the order they ended;
and unless a thread is inside an open, the sessions and handles are what that leaves. -/
theorem threads_serial (w : Sessions) (c : Threads ι ThreadOp Sessions SessionHandle Exc Unit) (h : Reaches env w c) :
    let serial := Run.trace (c.log.map (fun e => (e.2.1.run env).thread e.1)) (w, fun _ => none)
    serial.1 = c.log.map (·.2.2) ∧ (c.inside = none → c.state = serial.2) := by
  intro serial
  obtain ⟨hends, -, hplace⟩ := reaches_serial env h
  have hturn : Threads.inTurn (ThreadOp.steps env) c.log (w, fun _ => none) = serial := by
    unfold Threads.inTurn
    simp only [ThreadOp.steps_run]
    rfl
  rw [hturn] at hends hplace
  refine ⟨hends, fun hin => ?_⟩
  rw [hin] at hplace
  exact hplace

theorem threads_serial_two :
    let env := NetSnmpSess.opensAll
    ∃ c : Threads (Fin 2) ThreadOp Sessions SessionHandle Exc Unit,
      c.log.map (fun e => (e.1, e.2.1)) = [(1, .request), (0, .session (.openSession [] [] 1 3 1000))] ∧
        let serial := Run.trace (c.log.map (fun e => (e.2.1.run env).thread e.1)) (⟨Arena.empty, 0⟩, fun _ => none)
        serial.1 = c.log.map (·.2.2) ∧ c.state = serial.2 := by
  intro env
  obtain ⟨c, h, hin, hlog, -⟩ := two_threads
  obtain ⟨hends, hstate⟩ := threads_serial env ⟨Arena.empty, 0⟩ c h
  exact ⟨c, hlog, hends, hstate hin⟩

/-- **The three ends of an open of a thread.** -/
theorem open_cases {op : SessionOp} (hop : op ≠ .closeSession) (i : ι) (s : Sessions × (ι → SessionHandle)) :
    (∃ e w', (op.run env).thread i s = (.error (.exn e), (w', Function.update s.2 i none)) ∧
      w'.sessions = s.1.sessions ∧ ¬ op.Unreadable env s.1) ∨
    (∃ session w', (op.run env).thread i s = (.ok (), (w', Function.update s.2 i (some s.1.sessions.next))) ∧
      w'.sessions = s.1.sessions.alloc session ∧ ¬ op.Unreadable env s.1) ∨
    ∃ e session w', (op.run env).thread i s
        = (.error (.exn e), (w', Function.update s.2 i (some s.1.sessions.next))) ∧
      w'.sessions = s.1.sessions.alloc session ∧ op.Unreadable env s.1 := by
  cases hfill : op.fill env with
  | none => exact absurd (SessionOp.eq_closeSession env hfill) hop
  | some m =>
    obtain ⟨hrun, hopens⟩ := SessionOp.run_of_fill env hfill
    rw [hrun]
    simp only [SessionOp.unreadable_iff env hfill, Run.thread]
    rcases openFilled_cases env hopens s.1 (s.2 i) with ⟨e, w', hend, hsess, hno⟩ | ⟨session, w', hend, hsess, hno⟩ |
      ⟨e, session, w', hend, hsess, hu⟩ <;> rw [hend]
    · exact .inl ⟨e, w', rfl, hsess, hno⟩
    · exact .inr (.inl ⟨session, w', rfl, hsess, hno⟩)
    · exact .inr (.inr ⟨e, session, w', rfl, hsess, hu⟩)

/-- A handle that is set to a new session. -/
theorem Apart.opened {s : Sessions × (ι → SessionHandle)} (h : Apart s) (i : ι) {w' : Sessions}
    {session : NetsnmpSession} (hsess : w'.sessions = s.1.sessions.alloc session) :
    Apart (w', Function.update s.2 i (some s.1.sessions.next)) := by
  refine h.set (fun b hb => ?_) (fun b hb => ?_)
  · rw [hsess]
    exact (Arena.live_alloc _ _ _).2 (.inl hb)
  · cases hb
    rw [hsess]
    exact ⟨(Arena.live_alloc _ _ _).2 (.inr rfl), s.1.sessions.not_live_of_le (Nat.le_refl _)⟩

/-- **One operation** of one thread, run to its end: it does not fault, and handles stay apart. -/
theorem op_safe (op : ThreadOp) (i : ι) (s : Sessions × (ι → SessionHandle)) (h : Apart s) :
    ((op.run env).thread i s).1 ≠ .error .fault ∧ Apart ((op.run env).thread i s).2 := by
  by_cases hop : op.Locks
  · rcases op with op | _
    · rcases open_cases env hop i s with ⟨e, w', hrun, hsess, -⟩ | ⟨session, w', hrun, hsess, -⟩ |
        ⟨e, session, w', hrun, hsess, -⟩ <;> rw [ThreadOp.run, hrun]
      · exact ⟨fun hc => (by cases hc), h.set (fun b hb => by rw [hsess]; exact hb) (fun b hb => by cases hb)⟩
      · exact ⟨fun hc => (by cases hc), h.opened i hsess⟩
      · exact ⟨fun hc => (by cases hc), h.opened i hsess⟩
    · exact hop.elim
  · rcases alone_cases env hop i (s.2 i) with ⟨r, hr, hrun⟩ | ⟨a, ha, hrun⟩ <;> rw [hrun s h rfl]
    · exact ⟨hr, h⟩
    · exact ⟨fun hc => (by cases hc), h.closed ha⟩

theorem trace_safe : ∀ (ops : List (ι × ThreadOp)) (s : Sessions × (ι → SessionHandle)), Apart s →
    ∀ r ∈ (Run.trace (ops.map (fun e => (e.2.run env).thread e.1)) s).1, r ≠ .error .fault
  | [], _, _, r, hr => by cases hr
  | e :: ops, s, h, r, hr => by
    obtain ⟨hfault, hkept⟩ := op_safe env e.2 e.1 s h
    rcases List.mem_cons.1 hr with rfl | hr
    · exact hfault
    · exact trace_safe ops _ hkept r hr

/-- **Sessions are safe from other threads.**  At every moment of every run each handle is NULL or the handle of an open
session that no other thread has, and no operation has used or closed a session that was not open. -/
theorem threads_safe (w : Sessions) (c : Threads ι ThreadOp Sessions SessionHandle Exc Unit) (h : Reaches env w c) :
    Apart c.state ∧ ∀ e ∈ c.log, e.2.2 ≠ .error .fault := by
  refine ⟨(reaches_serial env h).invariant (fun _ hop => steps_swap env hop), fun e he => ?_⟩
  obtain ⟨hends, -⟩ := threads_serial env w c h
  have hsafe := trace_safe env (c.log.map (fun e => (e.1, e.2.1))) (w, fun _ => none) (apart_null w)
  rw [List.map_map] at hsafe
  refine hsafe _ ?_
  have hmem : e.2.2 ∈ c.log.map (·.2.2) := List.mem_map.2 ⟨e, he, rfl⟩
  rw [← hends] at hmem
  exact hmem

theorem threads_safe_two :
    ∃ c : Threads (Fin 2) ThreadOp Sessions SessionHandle Exc Unit,
      c.state.2 0 = some 0 ∧ Apart c.state ∧ ∀ e ∈ c.log, e.2.2 ≠ .error .fault := by
  obtain ⟨c, h, -, -, hopen⟩ := two_threads
  exact ⟨c, hopen, threads_safe NetSnmpSess.opensAll ⟨Arena.empty, 0⟩ c h⟩

/-- Every open of the run is made on a NULL handle, and none runs into a session it cannot read. -/
def Careful : List (ι × ThreadOp) → Sessions × (ι → SessionHandle) → Prop
  | [], _             => True
  | (i, op) :: ops, s =>
    (∀ o, op = .session o → o ≠ .closeSession → s.2 i = none ∧ ¬ o.Unreadable env s.1) ∧
      Careful ops ((op.run env).thread i s).2

/-- **The sessions opened since `w` are those the handles have.** -/
structure Books (w : Sessions) (s : Sessions × (ι → SessionHandle)) : Prop where
  apart : Apart s
  live  : ∀ a, s.1.sessions.Live a ↔ w.sessions.Live a ∨ ∃ i, s.2 i = some a
  new   : ∀ i a, s.2 i = some a → ¬ w.sessions.Live a

/-- **A new session goes to the handle of the thread that opened it.** -/
theorem Books.opened {w : Sessions} {s : Sessions × (ι → SessionHandle)} (h : Books w s) {i : ι} (hi : s.2 i = none)
    {w' : Sessions} {session : NetsnmpSession} (hsess : w'.sessions = s.1.sessions.alloc session) :
    Books w (w', Function.update s.2 i (some s.1.sessions.next)) := by
  have hnext : ¬ s.1.sessions.Live s.1.sessions.next := s.1.sessions.not_live_of_le (Nat.le_refl _)
  refine ⟨h.apart.opened i hsess, fun b => ?_, fun k b hk => ?_⟩
  · rw [hsess, Arena.live_alloc, h.live b]
    constructor
    · rintro ((hw | ⟨k, hk⟩) | rfl)
      · exact .inl hw
      · have hne : k ≠ i := fun hc => by
          rw [hc, hi] at hk
          cases hk
        exact .inr ⟨k, update_eq_some.2 (.inr ⟨hne, hk⟩)⟩
      · exact .inr ⟨i, update_eq_some.2 (.inl ⟨rfl, rfl⟩)⟩
    · rintro (hw | ⟨k, hk⟩)
      · exact .inl (.inl hw)
      · rcases update_eq_some.1 hk with ⟨-, hb⟩ | ⟨-, hkb⟩
        · exact .inr (Option.some.inj hb).symm
        · exact .inl (.inr ⟨k, hkb⟩)
  · rcases update_eq_some.1 hk with ⟨-, hb⟩ | ⟨-, hkb⟩
    · cases hb
      exact fun hw => hnext ((h.live _).2 (.inl hw))
    · exact h.new k b hkb

/-- **A session closed is that of the handle of the thread that closed it.** -/
theorem Books.closed {w : Sessions} {s : Sessions × (ι → SessionHandle)} (h : Books w s) {i : ι} {a : Nat}
    (hi : s.2 i = some a) : Books w (Snmppp.closed i a s) := by
  refine ⟨h.apart.closed hi, fun b => ?_, fun k b hk => h.new k b (h.apart.closed_some hi hk).1⟩
  have hlive : (Snmppp.closed i a s).1.sessions.Live b ↔ s.1.sessions.Live b ∧ b ≠ a := Arena.live_free _ _ _
  rw [hlive, h.live b]
  constructor
  · rintro ⟨hw | ⟨k, hk⟩, hne⟩
    · exact .inl hw
    · have hki : k ≠ i := fun hc => hne (Option.some.inj (by rw [← hk, hc, hi]))
      exact .inr ⟨k, update_eq_some.2 (.inr ⟨hki, hk⟩)⟩
  · rintro (hw | ⟨k, hk⟩)
    · exact ⟨.inl hw, fun hba => h.new i a hi (hba ▸ hw)⟩
    · obtain ⟨hkb, hne⟩ := h.apart.closed_some hi hk
      exact ⟨.inr ⟨k, hkb⟩, hne⟩

theorem Books.step {w : Sessions} {s : Sessions × (ι → SessionHandle)} (h : Books w s) (i : ι) (op : ThreadOp)
    (hop : ∀ o, op = .session o → o ≠ .closeSession → s.2 i = none ∧ ¬ o.Unreadable env s.1) :
    Books w ((op.run env).thread i s).2 := by
  by_cases hlock : op.Locks
  · rcases op with op | _
    · obtain ⟨hi, hread⟩ := hop op rfl hlock
      rcases open_cases env hlock i s with ⟨e, w', hrun, hsess, -⟩ | ⟨session, w', hrun, hsess, -⟩ |
        ⟨e, session, w', hrun, hsess, hu⟩
      · have hsame : Function.update s.2 i none = s.2 := by rw [← hi, Function.update_eq_self]
        rw [ThreadOp.run, hrun, hsame]
        exact ⟨⟨fun k b hb => by rw [hsess]; exact h.apart.live k b hb, h.apart.own⟩,
          fun b => by rw [hsess]; exact h.live b, h.new⟩
      · rw [ThreadOp.run, hrun]
        exact h.opened hi hsess
      · exact absurd hu hread
    · exact hlock.elim
  · rcases alone_cases env hlock i (s.2 i) with ⟨r, -, hrun⟩ | ⟨a, ha, hrun⟩ <;> rw [hrun s h.apart rfl]
    · exact h
    · exact h.closed ha

theorem trace_books : ∀ (ops : List (ι × ThreadOp)) {w : Sessions} {s : Sessions × (ι → SessionHandle)}, Books w s →
    Careful env ops s → Books w (Run.trace (ops.map (fun e => (e.2.run env).thread e.1)) s).2
  | [], _, _, h, _               => h
  | (i, op) :: ops, _, _, h, hop => trace_books ops (h.step env i op hop.1) hop.2

/-- **No session is lost between threads.**  When every open was made on a NULL handle and none ran into a session it
could not read, and no thread is inside an open, the sessions opened since and still open are exactly those of the
handles, one each. -/
theorem threads_hold (w : Sessions) (c : Threads ι ThreadOp Sessions SessionHandle Exc Unit) (h : Reaches env w c)
    (hin : c.inside = none) (hop : Careful env (c.log.map (fun e => (e.1, e.2.1))) (w, fun _ => none)) :
    Books w c.state := by
  obtain ⟨-, hplace⟩ := threads_serial env w c h
  have hstart : Books w (w, fun _ : ι => none) :=
    ⟨apart_null w, fun a => ⟨.inl, fun ha => ha.elim id (fun ⟨_, hi⟩ => by cases hi)⟩, fun _ _ hi => by cases hi⟩
  have hbooks := trace_books env _ hstart hop
  rw [List.map_map] at hbooks
  rw [hplace hin]
  exact hbooks

theorem threads_hold_two :
    ∃ c : Threads (Fin 2) ThreadOp Sessions SessionHandle Exc Unit,
      c.state.2 0 = some 0 ∧ Books ⟨Arena.empty, 0⟩ c.state := by
  obtain ⟨c, h, hin, hlog, hopen⟩ := two_threads
  refine ⟨c, hopen, threads_hold NetSnmpSess.opensAll ⟨Arena.empty, 0⟩ c h hin ?_⟩
  rw [hlog]
  refine ⟨fun o ho => (by cases ho), fun o ho _ => ⟨rfl, ?_⟩, trivial⟩
  rintro ⟨fill, -, session, w', -, -, hshown⟩
  cases hshown

end
end
end Snmppp
