import Snmppp.Session
/-!
# SessionRun — what a failed open leaves

An open ends in one of three ways (`openFilled_cases`): it throws with the handle NULL and nothing opened, it returns
the handle of one new session, or it throws with that session still open and its handle in the caller's hands, because
`snmp_sess_session` returned NULL for a handle `snmp_sess_open` had returned.  Without the third the handle of a run of
opens and closes says what the last open did, and no session is left behind (`sessions_run`).
-/
namespace Snmppp

/-- **A failed open leaves nothing open**, and one that returns leaves one new session open, and its handle. -/
def Clean (s : Sessions × SessionHandle) (r : Except (Stop Exc) Unit × (Sessions × SessionHandle)) : Prop :=
  match r.1 with
  | .ok _           => ∃ a, r.2.2 = some a ∧ ¬ s.1.sessions.Live a ∧
      ∀ b, r.2.1.sessions.Live b ↔ s.1.sessions.Live b ∨ b = a
  | .error (.exn _) => r.2.2 = none ∧ ∀ b, r.2.1.sessions.Live b ↔ s.1.sessions.Live b
  | .error .fault   => False

/-! ## Filling in a session -/

/-- What neither opens nor closes a session, and throws at worst. -/
def OpensNone {α : Type} (m : Run Sessions Exc α) : Prop :=
  ∀ w, m.Leaves w (fun _ w' => w'.sessions = w.sessions) (fun e w' => (∃ x, e = .exn x) ∧ w'.sessions = w.sessions)

theorem OpensNone.pure {α : Type} (a : α) : OpensNone (Pure.pure a : Run Sessions Exc α) := fun _ => Run.Leaves.pure rfl

theorem OpensNone.throws {α : Type} (e : Exc) : OpensNone (Run.throws e : Run Sessions Exc α) :=
  fun _ => Run.Leaves.throws ⟨⟨e, rfl⟩, rfl⟩

theorem OpensNone.bind {α β : Type} {m : Run Sessions Exc α} {f : α → Run Sessions Exc β} (hm : OpensNone m)
    (hf : ∀ a, OpensNone (f a)) : OpensNone (m >>= f) := by
  intro w
  apply Run.Leaves.bind
  apply (hm w).imp
  · intro a w' hw
    exact (hf a w').imp (fun _ _ h => h.trans hw) (fun _ _ h => ⟨h.1, h.2.trans hw⟩)
  · exact fun _ _ h => h

theorem oneOf_opensNone {α : Type} (names : List (String × α)) (what : String) (s : List Char) :
    OpensNone (oneOf names what s) := by
  unfold oneOf
  split
  · exact OpensNone.pure _
  · exact OpensNone.throws _

section
variable (env : NetSnmpSess)

theorem generateKu_opensNone (proto : UsmProtocol) (pass : List Char) (room : Nat) :
    OpensNone (generateKu env proto pass room) := by
  intro w
  exact rfl

theorem keyFor_opensNone (wanted : Bool) (proto : UsmProtocol) (pass : List Char) (room : Nat) (what : String) :
    OpensNone (keyFor env wanted proto pass room what) := by
  unfold keyFor
  split
  · apply (generateKu_opensNone env proto pass room).bind
    rintro (_ | key)
    · exact OpensNone.throws _
    · exact OpensNone.pure key
  · exact OpensNone.pure _

theorem v3Session_opensNone (server authUser authPassword privPassword secLevel authProtocol privProtocol : List Char)
    (retryAttempts timeout : Int) :
    OpensNone (v3Session env server authUser authPassword privPassword secLevel authProtocol privProtocol retryAttempts
      timeout) := by
  apply (oneOf_opensNone _ _ secLevel).bind
  intro level
  apply (oneOf_opensNone _ _ authProtocol).bind
  intro authProto
  apply (oneOf_opensNone _ _ privProtocol).bind
  intro privProto
  apply (keyFor_opensNone env _ authProto authPassword _ _).bind
  intro authKey
  apply (keyFor_opensNone env _ authProto privPassword _ _).bind
  intro privKey
  exact OpensNone.pure _

/-! ## An open -/

/-- An open in general: a session is filled in and opened. -/
def openFilled (fill : Run Sessions Exc NetsnmpSession) : SessMethod Unit := do
  Run.setThis none
  let session ← Run.lift fill
  openWith env session

/-- `snmp_sess_open` returns a handle for the session, and `snmp_sess_session` returns NULL for that handle. -/
def Unreadable (session : NetsnmpSession) (w : Sessions) : Prop :=
  env.sessOpen w.calls session = true ∧ env.sessSession (w.calls + 1) = false

variable (session : NetsnmpSession) (w : Sessions)

/-- The sessions with a new one, after a number of calls. -/
def Sessions.opened (calls : Nat) : Sessions := ⟨w.sessions.alloc session, w.calls + calls⟩

theorem openWith_null (h : SessionHandle) (ho : env.sessOpen w.calls session = false) :
    openWith env session (w, h)
      = (.error (.exn (openError session (env.snmpError (w.calls + 1) session))), (w.tick.tick, none)) := by
  have hopen : snmpSessOpen env session w = (.ok none, w.tick) := by
    rw [snmpSessOpen, if_neg (by rw [ho]; exact Bool.false_ne_true)]
  unfold openWith
  rw [Run.lift_bind hopen, Run.setThis_bind]
  rfl

theorem snmpSessOpen_opened (ho : env.sessOpen w.calls session = true) :
    snmpSessOpen env session w = (.ok (some w.sessions.next), w.opened session 1) := by
  rw [snmpSessOpen, if_pos ho]
  rfl

theorem snmpSessSession_opened :
    snmpSessSession env w.sessions.next (w.opened session 1)
      = (.ok (env.sessSession (w.calls + 1)), w.opened session 2) := by
  have hlive : (w.opened session 1).sessions.Live w.sessions.next := (Arena.live_alloc _ _ _).2 (.inr rfl)
  rw [snmpSessSession, if_pos hlive]
  rfl

theorem openWith_returned (h : SessionHandle) (ho : env.sessOpen w.calls session = true)
    (hs : env.sessSession (w.calls + 1) = true) :
    openWith env session (w, h) = (.ok (), (w.opened session 2, some w.sessions.next)) := by
  have hread := snmpSessSession_opened env session w
  rw [hs] at hread
  unfold openWith
  rw [Run.lift_bind (snmpSessOpen_opened env session w ho), Run.setThis_bind, isOpened, Run.lift_bind hread]
  rfl

/-- The handle stays where it was put, and the session open. -/
theorem openWith_unreadable (h : SessionHandle) (hu : Unreadable env session w) :
    openWith env session (w, h)
      = (.error (.exn (openError session (env.snmpError (w.calls + 2) session))),
        (w.opened session 3, some w.sessions.next)) := by
  have hread := snmpSessSession_opened env session w
  rw [hu.2] at hread
  unfold openWith
  rw [Run.lift_bind (snmpSessOpen_opened env session w hu.1), Run.setThis_bind, isOpened, Run.lift_bind hread]
  rfl

/-- An open that gets as far as a session net-snmp opens and then does not show. -/
def OpensUnreadable (fill : Run Sessions Exc NetsnmpSession) (w : Sessions) : Prop :=
  ∃ session w', fill w = (.ok session, w') ∧ Unreadable env session w'

/-- **The three ends of an open**, from whatever handle it starts. -/
theorem openFilled_cases {fill : Run Sessions Exc NetsnmpSession} (hfill : OpensNone fill) (w : Sessions)
    (h : SessionHandle) :
    (∃ e w', openFilled env fill (w, h) = (.error (.exn e), (w', none)) ∧ w'.sessions = w.sessions ∧
      ¬ OpensUnreadable env fill w) ∨
    (∃ session w', openFilled env fill (w, h) = (.ok (), (w', some w.sessions.next)) ∧
      w'.sessions = w.sessions.alloc session ∧ ¬ OpensUnreadable env fill w) ∨
    ∃ e session w', openFilled env fill (w, h) = (.error (.exn e), (w', some w.sessions.next)) ∧
      w'.sessions = w.sessions.alloc session ∧ OpensUnreadable env fill w := by
  have hopens := hfill w
  unfold Run.Leaves at hopens
  have hstart : ∀ r, (Run.lift fill >>= openWith env) (w, none) = r → openFilled env fill (w, h) = r := fun r hr => by
    unfold openFilled
    rw [Run.setThis_bind]
    exact hr
  rcases hf : fill w with ⟨e | session, w₁⟩ <;> rw [hf] at hopens
  · obtain ⟨⟨x, rfl⟩, hsess⟩ := hopens
    refine .inl ⟨x, w₁, hstart _ (Run.bind_error (Run.lift_of hf none)), hsess, ?_⟩
    rintro ⟨session, w', hok, -⟩
    rw [hf] at hok
    cases hok
  · have hsess : w₁.sessions = w.sessions := hopens
    have hon : OpensUnreadable env fill w ↔ Unreadable env session w₁ := by
      constructor
      · rintro ⟨session', w', hok, hu⟩
        rw [hf] at hok
        cases hok
        exact hu
      · exact fun hu => ⟨session, w₁, hf, hu⟩
    rw [hon, ← hsess]
    have hlift := Run.lift_bind (f := openWith env) hf none
    cases ho : env.sessOpen w₁.calls session with
    | false =>
      refine .inl ⟨_, _, hstart _ (hlift.trans (openWith_null env session w₁ none ho)), rfl, fun hu => ?_⟩
      rw [hu.1] at ho
      cases ho
    | true =>
      cases hs : env.sessSession (w₁.calls + 1) with
      | true =>
        refine .inr (.inl ⟨session, _, hstart _ (hlift.trans (openWith_returned env session w₁ none ho hs)), rfl,
          fun hu => ?_⟩)
        rw [hu.2] at hs
        cases hs
      | false =>
        exact .inr (.inr ⟨_, session, _, hstart _ (hlift.trans (openWith_unreadable env session w₁ none ⟨ho, hs⟩)),
          rfl, ho, hs⟩)

/-- **An open is clean exactly when it does not run into a session it cannot read.** -/
theorem openFilled_clean_iff {fill : Run Sessions Exc NetsnmpSession} (hfill : OpensNone fill) (w : Sessions)
    (h : SessionHandle) :
    Clean (w, h) (openFilled env fill (w, h)) ↔ ¬ OpensUnreadable env fill w := by
  unfold Clean
  rcases openFilled_cases env hfill w h with ⟨e, w', hrun, hsess, hno⟩ | ⟨session, w', hrun, hsess, hno⟩ |
    ⟨e, session, w', hrun, -, hu⟩
  · rw [hrun]
    exact ⟨fun _ => hno, fun _ => ⟨rfl, fun b => by rw [hsess]⟩⟩
  · rw [hrun]
    refine ⟨fun _ => hno, fun _ => ⟨w.sessions.next, rfl, w.sessions.not_live_of_le (Nat.le_refl _), fun b => ?_⟩⟩
    rw [hsess]
    exact Arena.live_alloc _ _ _
  · rw [hrun]
    exact ⟨fun hc => absurd hc.1 (Option.some_ne_none _), fun hno => absurd hu hno⟩

end

/-! ## Runs of opens and closes -/

inductive SessionOp where
  | openSession (server community : List Char) (version retryAttempts timeout : Int)
  | openSessionV3 (server authUser authPassword privPassword secLevel authProtocol privProtocol : List Char)
      (retryAttempts timeout : Int)
  | closeSession

namespace SessionOp

def run (env : NetSnmpSess) : SessionOp → SessMethod Unit
  | openSession server community version retryAttempts timeout =>
    Snmppp.openSession env server community version retryAttempts timeout
  | openSessionV3 server authUser authPassword privPassword secLevel authProtocol privProtocol retryAttempts timeout =>
    Snmppp.openSessionV3 env server authUser authPassword privPassword secLevel authProtocol privProtocol retryAttempts
      timeout
  | closeSession => Snmppp.closeSession

/-- What an open fills in. -/
def fill (env : NetSnmpSess) : SessionOp → Option (Run Sessions Exc NetsnmpSession)
  | openSession server community version retryAttempts timeout =>
    some (pure (v2Session env server community version retryAttempts timeout))
  | openSessionV3 server authUser authPassword privPassword secLevel authProtocol privProtocol retryAttempts timeout =>
    some (v3Session env server authUser authPassword privPassword secLevel authProtocol privProtocol retryAttempts
      timeout)
  | closeSession => none

/-- An open that runs into a session it cannot read. -/
def Unreadable (env : NetSnmpSess) (op : SessionOp) (w : Sessions) : Prop :=
  ∃ fill ∈ op.fill env, OpensUnreadable env fill w

variable (env : NetSnmpSess)

theorem run_of_fill {op : SessionOp} {m : Run Sessions Exc NetsnmpSession} (h : op.fill env = some m) :
    op.run env = openFilled env m ∧ OpensNone m := by
  cases op with
  | openSession server community version retryAttempts timeout =>
    cases h
    exact ⟨rfl, OpensNone.pure _⟩
  | openSessionV3 server authUser authPassword privPassword secLevel authProtocol privProtocol retryAttempts timeout =>
    cases h
    exact ⟨rfl, v3Session_opensNone env _ _ _ _ _ _ _ _ _⟩
  | closeSession => cases h

theorem eq_closeSession {op : SessionOp} (h : op.fill env = none) : op = closeSession := by
  cases op with
  | closeSession => rfl
  | openSession => cases h
  | openSessionV3 => cases h

theorem unreadable_iff {op : SessionOp} {m : Run Sessions Exc NetsnmpSession} (h : op.fill env = some m)
    (w : Sessions) : op.Unreadable env w ↔ OpensUnreadable env m w := by
  unfold Unreadable
  rw [h]
  constructor
  · rintro ⟨fill, hmem, hu⟩
    cases hmem
    exact hu
  · exact fun hu => ⟨m, rfl, hu⟩

/-- An event that leaves a session open: an open that returned. -/
def leavesOpen : SessionOp → Except (Stop Exc) Unit → Bool
  | closeSession, _ => false
  | _, r            => r.isOk

theorem leavesOpen_of_fill {op : SessionOp} {m : Run Sessions Exc NetsnmpSession} (h : op.fill env = some m)
    (r : Except (Stop Exc) Unit) : op.leavesOpen r = r.isOk := by
  cases op with
  | closeSession => cases h
  | openSession => rfl
  | openSessionV3 => rfl

end SessionOp

/-- Whether a session is open after the events: what the last open did, unless it was closed since; `before` where
there is neither. -/
def openAfter : List (SessionOp × Except (Stop Exc) Unit) → Bool → Bool
  | [], before       => before
  | (op, r) :: es, _ => openAfter es (op.leavesOpen r)

section
variable (env : NetSnmpSess)

/-- **The handle is not NULL exactly when the last open returned and has not been closed.** -/
def HandleTells (ops : List SessionOp) (s : Sessions × SessionHandle) (before : Bool) : Prop :=
  let run := Run.trace (ops.map (·.run env)) s
  run.2.2 ≠ none ↔ openAfter (ops.zip run.1) before = true

/-- No open of the run runs into a session it cannot read. -/
def Readable : List SessionOp → Sessions × SessionHandle → Prop
  | [], _        => True
  | op :: ops, s => ¬ op.Unreadable env s.1 ∧ Readable ops (op.run env s).2

/-- Every open of the run is made on a closed handle. -/
def OnClosed : List SessionOp → Sessions × SessionHandle → Prop
  | [], _        => True
  | op :: ops, s => (op ≠ .closeSession → s.2 = none) ∧ OnClosed ops (op.run env s).2

/-- The session of a handle that is not NULL is open. -/
def HandleOpen (s : Sessions × SessionHandle) : Prop := ∀ a, s.2 = some a → s.1.sessions.Live a

/-- **The handle holds the one session opened since `w`**, if any. -/
structure Owns (w : Sessions) (s : Sessions × SessionHandle) : Prop where
  live : ∀ a, s.1.sessions.Live a ↔ w.sessions.Live a ∨ s.2 = some a
  new  : ∀ a, s.2 = some a → ¬ w.sessions.Live a

theorem closeSession_null (w : Sessions) : closeSession (w, none) = (.ok (), (w, none)) := rfl

theorem closeSession_open {w : Sessions} {a : Nat} (h : w.sessions.Live a) :
    closeSession (w, some a) = (.ok (), ({ w with sessions := w.sessions.free a }, none)) := by
  have hclose : snmpSessClose a w = (.ok (), { w with sessions := w.sessions.free a }) := by
    rw [snmpSessClose, if_pos h]
  unfold closeSession
  rw [Run.this_bind]
  exact Run.lift_bind hclose (some a)

/-- **A close of a held handle returns** and leaves it NULL. -/
theorem closeSession_held {s : Sessions × SessionHandle} (hs : HandleOpen s) :
    ∃ w', closeSession s = (.ok (), (w', none)) := by
  obtain ⟨w, _ | a⟩ := s
  · exact ⟨w, closeSession_null w⟩
  · exact ⟨_, closeSession_open (hs a rfl)⟩

/-- **An open in a run**: it never faults, leaves a handle that is open or NULL, and the handle tells whether it
returned unless it ran into a session it cannot read. -/
theorem openFilled_step {m : Run Sessions Exc NetsnmpSession} (hopens : OpensNone m) (w : Sessions)
    (h : SessionHandle) :
    let r := openFilled env m (w, h)
    r.1 ≠ .error .fault ∧ HandleOpen r.2 ∧ ((r.2.2 ≠ none ↔ r.1.isOk = true) ↔ ¬ OpensUnreadable env m w) := by
  intro r
  have hnew : ∀ {w' : Sessions} {session : NetsnmpSession}, w'.sessions = w.sessions.alloc session →
      HandleOpen (w', some w.sessions.next) := fun {w' session} hsess a ha => by
    cases ha
    rw [hsess]
    exact (Arena.live_alloc _ _ _).2 (.inr rfl)
  rcases openFilled_cases env hopens w h with ⟨e, w', hend, -, hno⟩ | ⟨session, w', hend, hsess, hno⟩ |
    ⟨e, session, w', hend, hsess, hu⟩
  · have hr : r = (.error (.exn e), (w', none)) := hend
    rw [hr]
    refine ⟨fun h => (by cases h), fun a ha => (by cases ha), fun _ => hno, fun _ => ?_⟩
    exact ⟨fun h => absurd rfl h, fun h => (by cases h)⟩
  · have hr : r = (.ok (), (w', some w.sessions.next)) := hend
    rw [hr]
    exact ⟨fun h => (by cases h), hnew hsess, fun _ => hno, fun _ => ⟨fun _ => rfl, fun _ => Option.some_ne_none _⟩⟩
  · have hr : r = (.error (.exn e), (w', some w.sessions.next)) := hend
    rw [hr]
    refine ⟨fun h => (by cases h), hnew hsess, fun htells => ?_, fun hno => absurd hu hno⟩
    exact absurd (htells.1 (Option.some_ne_none _)) Bool.false_ne_true

/-- **One step of a run.**  It never faults and leaves a handle that is open or NULL, also after an open that went
wrong, and the handle tells what the step did unless that is such an open. -/
theorem step_held {s : Sessions × SessionHandle} (hs : HandleOpen s) (op : SessionOp) :
    (op.run env s).1 ≠ .error .fault ∧ HandleOpen (op.run env s).2 ∧
      (((op.run env s).2.2 ≠ none ↔ op.leavesOpen (op.run env s).1 = true) ↔ ¬ op.Unreadable env s.1) := by
  cases hfill : op.fill env with
  | none =>
    obtain rfl := SessionOp.eq_closeSession env hfill
    obtain ⟨w', hrun⟩ := closeSession_held hs
    have hrun : SessionOp.closeSession.run env s = (.ok (), (w', none)) := hrun
    rw [hrun]
    refine ⟨fun h => (by cases h), fun a ha => (by cases ha), ?_⟩
    constructor
    · rintro - ⟨fill, hmem, -⟩
      cases hmem
    · exact fun _ => ⟨fun h => absurd rfl h, fun h => absurd h Bool.false_ne_true⟩
  | some m =>
    obtain ⟨hrun, hopens⟩ := SessionOp.run_of_fill env hfill
    rw [hrun, SessionOp.unreadable_iff env hfill, SessionOp.leavesOpen_of_fill env hfill]
    exact openFilled_step env hopens s.1 s.2

theorem handleTells_cons (op : SessionOp) (ops : List SessionOp) (s : Sessions × SessionHandle) (before : Bool) :
    HandleTells env (op :: ops) s before
      ↔ HandleTells env ops (op.run env s).2 (op.leavesOpen (op.run env s).1) := Iff.rfl

/-- **The handle tells after every step of a run exactly when no open runs into a session it cannot read.** -/
theorem handle_tells_iff : ∀ (ops : List SessionOp) (s : Sessions × SessionHandle) (before : Bool), HandleOpen s →
    (s.2 ≠ none ↔ before = true) →
      ((∀ pre, pre <+: ops → HandleTells env pre s before) ↔ Readable env ops s)
  | [], s, before, _, hb => by
    refine ⟨fun _ => trivial, fun _ pre hpre => ?_⟩
    rw [List.prefix_nil.1 hpre]
    exact hb
  | op :: ops, s, before, hs, hb => by
    obtain ⟨-, hheld, hstep⟩ := step_held env hs op
    constructor
    · intro hall
      have hone : HandleTells env [op] s before := hall [op] ⟨ops, rfl⟩
      have hnow : (op.run env s).2.2 ≠ none ↔ op.leavesOpen (op.run env s).1 = true := hone
      refine ⟨hstep.1 hnow, (handle_tells_iff ops _ _ hheld hnow).1 (fun pre hpre => ?_)⟩
      exact (handleTells_cons env op pre s before).1 (hall (op :: pre) (List.cons_prefix_cons.2 ⟨rfl, hpre⟩))
    · rintro ⟨hno, hread⟩ pre hpre
      cases pre with
      | nil => exact hb
      | cons op' pre =>
        obtain ⟨rfl, hrest⟩ := List.cons_prefix_cons.1 hpre
        rw [handleTells_cons]
        exact (handle_tells_iff ops _ _ hheld (hstep.2 hno)).2 hread pre hrest

theorem Owns.handleOpen {w : Sessions} {s : Sessions × SessionHandle} (h : Owns w s) : HandleOpen s :=
  fun a ha => (h.live a).2 (.inr ha)

/-- With a NULL handle the sessions open are those of `w`. -/
theorem owns_null_iff {w w' : Sessions} :
    Owns w (w', none) ↔ ∀ a, w'.sessions.Live a ↔ w.sessions.Live a := by
  have hnone : ∀ a, (w.sessions.Live a ∨ none = some a) ↔ w.sessions.Live a := fun a =>
    or_iff_left (Option.some_ne_none a).symm
  constructor
  · exact fun h a => (h.live a).trans (hnone a)
  · exact fun h => ⟨fun a => (h a).trans (hnone a).symm, fun a ha => (by cases ha)⟩

/-- **A close ends the session of the handle**, and no other. -/
theorem Owns.closed {w : Sessions} {s : Sessions × SessionHandle} (h : Owns w s) : Owns w (closeSession s).2 := by
  obtain ⟨w₁, _ | a⟩ := s
  · exact h
  · rw [closeSession_open (h.handleOpen a rfl)]
    refine owns_null_iff.2 (fun b => ?_)
    have hlive : w₁.sessions.Live b ↔ w.sessions.Live b ∨ some a = some b := h.live b
    rw [Arena.live_free, hlive]
    constructor
    · rintro ⟨hb | hb, hne⟩
      · exact hb
      · exact absurd (Option.some.inj hb).symm hne
    · exact fun hb => ⟨.inl hb, fun hba => h.new a rfl (hba ▸ hb)⟩

/-- **A clean open on a closed handle begins the session of the handle**, or none. -/
theorem Owns.opened {w w₁ : Sessions} (h : Owns w (w₁, none)) {r : Except (Stop Exc) Unit × (Sessions × SessionHandle)}
    (hclean : Clean (w₁, none) r) : Owns w r.2 := by
  have hlive := owns_null_iff.1 h
  obtain ⟨⟨⟨e⟩ | _⟩ | _, w', handle⟩ := r
  · obtain ⟨hnone, hsame⟩ := hclean
    have hnone : handle = none := hnone
    rw [hnone]
    exact owns_null_iff.2 (fun b => (hsame b).trans (hlive b))
  · exact hclean.elim
  · obtain ⟨a, ha, hnew, hmore⟩ := hclean
    have ha : handle = some a := ha
    rw [ha]
    refine ⟨fun b => ?_, fun b hb => ?_⟩
    · rw [hmore b, hlive b, Option.some_inj, eq_comm]
    · cases hb
      exact fun hw => hnew ((hlive a).2 hw)

/-- **One step of a run keeps the account.** -/
theorem Owns.step {w : Sessions} {s : Sessions × SessionHandle} (h : Owns w s) {op : SessionOp}
    (hclosed : op ≠ .closeSession → s.2 = none) (hread : ¬ op.Unreadable env s.1) : Owns w (op.run env s).2 := by
  cases hfill : op.fill env with
  | none =>
    obtain rfl := SessionOp.eq_closeSession env hfill
    exact h.closed
  | some m =>
    obtain ⟨hrun, hopens⟩ := SessionOp.run_of_fill env hfill
    obtain ⟨w₁, handle⟩ := s
    have hnull : handle = none := by
      apply hclosed
      rintro rfl
      cases hfill
    rw [SessionOp.unreadable_iff env hfill] at hread
    rw [hnull] at h ⊢
    rw [hrun]
    exact h.opened ((openFilled_clean_iff env hopens w₁ none).2 hread)

/-- **A run that leaves nothing open but what its handle holds**, and does not fault. -/
theorem owns_trace : ∀ (ops : List SessionOp) {w : Sessions} {s : Sessions × SessionHandle}, Owns w s →
    Readable env ops s → OnClosed env ops s →
      Owns w (Run.trace (ops.map (·.run env)) s).2 ∧
        ∀ r ∈ (Run.trace (ops.map (·.run env)) s).1, r ≠ .error .fault
  | [], _, _, h, _, _ => ⟨h, fun r hr => (by cases hr)⟩
  | op :: ops, w, s, h, ⟨hno, hread⟩, ⟨hnull, hclosed⟩ => by
    obtain ⟨hfault, -, -⟩ := step_held env h.handleOpen op
    obtain ⟨howns, hrest⟩ := owns_trace ops (h.step env hnull hno) hread hclosed
    refine ⟨howns, fun r hr => ?_⟩
    rcases List.mem_cons.1 hr with rfl | hr
    · exact hfault
    · exact hrest r hr

/-- **A failed open leaves nothing open exactly when it does not run into a session it cannot read**: `snmp_sess_open`
returning a handle for which `snmp_sess_session` returns NULL.  In a run of opens and closes that starts without a
session, the handle is not NULL exactly when the last open returned and has not been closed, after every step, exactly
when no open of the run does; then, with every open on a closed handle, nothing else is left open and nothing faults. -/
theorem sessions_run :
    (∀ (op : SessionOp) (w : Sessions) (h : SessionHandle), op ≠ .closeSession →
      (Clean (w, h) (op.run env (w, h)) ↔ ¬ op.Unreadable env w)) ∧
    ∀ (ops : List SessionOp) (w : Sessions),
      ((∀ pre, pre <+: ops → HandleTells env pre (w, none) false) ↔ Readable env ops (w, none)) ∧
      (Readable env ops (w, none) → OnClosed env ops (w, none) →
        Owns w (Run.trace (ops.map (·.run env)) (w, none)).2 ∧
          ∀ r ∈ (Run.trace (ops.map (·.run env)) (w, none)).1, r ≠ .error .fault) := by
  constructor
  · intro op w h hop
    cases hfill : op.fill env with
    | none => exact absurd (SessionOp.eq_closeSession env hfill) hop
    | some m =>
      obtain ⟨hrun, hopens⟩ := SessionOp.run_of_fill env hfill
      rw [hrun, openFilled_clean_iff env hopens, SessionOp.unreadable_iff env hfill]
  · intro ops w
    have hheld : HandleOpen (w, none) := fun a ha => (by cases ha)
    have howns : Owns w (w, none) := owns_null_iff.2 (fun a => Iff.rfl)
    refine ⟨handle_tells_iff env ops (w, none) false hheld ?_, owns_trace env ops howns⟩
    exact ⟨fun h => absurd rfl h, fun h => absurd h Bool.false_ne_true⟩

end

/-- A net-snmp that opens every session and shows none. -/
def NetSnmpSess.showsNone : NetSnmpSess where
  sessInit        := ⟨-1, -1, -1, [], [], 0, 0, [], -1, 0, none, [], none, []⟩
  generateKu _ _ _ room := some (List.replicate room 0)
  sessOpen _ _    := true
  sessSession _   := false
  snmpError _ _   := ⟨0, 0, none⟩

/-- `openSession` throws and leaves the new session open, with its handle in the caller's hands. -/
theorem failed_open_leaves_session :
    let w : Sessions := ⟨Arena.empty, 0⟩
    let op : SessionOp := .openSession "udp:127.0.0.1:161".toList "public".toList 1 3 1000000
    let r := op.run NetSnmpSess.showsNone (w, none)
    (∃ e, r.1 = .error (.exn e)) ∧ r.2.2 = some 0 ∧ r.2.1.sessions.Live 0 ∧ ¬ Clean (w, none) r ∧
      ¬ HandleTells NetSnmpSess.showsNone [op] (w, none) false := by
  refine ⟨⟨_, rfl⟩, rfl, rfl, fun h => ?_, fun h => ?_⟩
  · exact Option.some_ne_none 0 h.1
  · exact absurd (h.1 (Option.some_ne_none 0)) Bool.false_ne_true

end Snmppp
