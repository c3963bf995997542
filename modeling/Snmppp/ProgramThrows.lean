import Snmppp.ProgramRun
import Snmppp.ValueLeaks
/-!
# ProgramThrows — what an exception leaves of the variables

What a statement that throws leaves of the variables follows from what they said and from how many calls of net-snmp
came before (`Stmt.leaves`).  All say what they said, but for the PDU or list that was to be sent, which is then empty,
and the one that was given names, which has those before the one that was refused.  So it is after every run
(`program_throws`).
-/
namespace Snmppp

namespace Value

section
variable (env : NetSnmp)

/-- The names that so many adds in turn add, from the `n`-th call on: those before the first that is refused. -/
def namesAdded : Nat → List OID → List OID
  | _, []      => []
  | n, o :: os => if o.empty = false ∧ env.addVariable n = true then o :: namesAdded (n + 1) os else []

/-- What the adds of `os` leave of a list. -/
def Vars.given (n : Nat) (os : List OID) (vs : Vars) : Vars := vs ++ (namesAdded env n os).map (nullVarbind env)

/-- What they leave of a PDU when one of them is refused. -/
def Pdu.given (n : Nat) (os : List OID) (v : Pdu) : Pdu :=
  if v.vars = [] then v else v.setVars (Vars.given env n os v.vars)

/-- What stands in the place of a PDU whose names were to go into a GETBULK of their own. -/
def Pdu.rebuilt (n : Nat) (v : Pdu) : Pdu :=
  match env.pduCreate n with
  | none                     => .null
  | some (errstat, errindex) =>
    if namesAdded env (n + 1) (Varlist.getOidsSet v.vars).elems = (Varlist.getOidsSet v.vars).elems then .null
    else ⟨kGetBulk, some ⟨kGetBulk, errstat, errindex, []⟩⟩

/-- What a GETBULK that throws leaves of its PDU. -/
def Pdu.bulkRequested (n : Nat) (v : Pdu) : Pdu :=
  if v.type = kGetBulk then if v.body = none then v else .null
  else if v.vars = [] then v
  else v.rebuilt env n

/-- **What a request that throws leaves of its PDU**: nothing, unless it was refused as empty or could not be filled. -/
def Pdu.requested (n : Nat) (v : Pdu) : Entry → Pdu
  | .sync | .get | .set => if v.body = none then v else .null
  | .getNext            => if v.vars = [] then v else .null
  | .getBulk _ _        => v.bulkRequested env n

end
end Value

/-- **What a statement that throws leaves of the variables**, from the `n`-th call on. -/
def Stmt.leaves {ι κ : Type} [DecidableEq ι] [DecidableEq κ] (env : NetSnmp) (n : Nat) (u : Value.Locals ι κ) :
    Stmt ι κ → Value.Locals ι κ
  | entry e _ i _     => { u with pdu := Function.update u.pdu i ((u.pdu i).requested env n e) }
  | sendPdu i         => { u with pdu := Function.update u.pdu i .null }
  | addNullVars i c   => { u with pdu := Function.update u.pdu i ((u.pdu i).given env n c.oids) }
  | sendVl k          => { u with vl := Function.update u.vl k [] }
  | vlAddNullVars k c => { u with vl := Function.update u.vl k (Value.Vars.given env n c.oids (u.vl k)) }
  | _                 => u

namespace Value

/-! ## What a function that throws leaves -/

section
variable (env : NetSnmp) (session : SessionHandle) {x x' : Net} {v v' : Pdu} {vs vs' : Vars} {e : Stop Exc}

theorem addVar_error {c : AddCall} (h : addVar env c (x, vs) = (.error e, (x', vs'))) : vs' = vs := by
  rcases addVar_cases env c x vs with ⟨-, hadd⟩ | ⟨-, _, _, hadd, -⟩ <;> rw [hadd] at h <;> cases h
  rfl

/-- **A loop of adds** adds the names before the first that is refused, and throws if there is one. -/
theorem addNullVars_given : ∀ (os : List OID) (x : Net) (vs : Vars),
    (namesAdded env x.calls os = os ∧ ∃ x', addNullVars env os (x, vs) = (.ok (), (x', Vars.given env x.calls os vs))) ∨
    (namesAdded env x.calls os ≠ os ∧
      ∃ e x', addNullVars env os (x, vs) = (.error e, (x', Vars.given env x.calls os vs)))
  | [], x, vs      => .inl ⟨rfl, x, by rw [Vars.given, namesAdded, List.map_nil, List.append_nil]; rfl⟩
  | o :: os, x, vs => by
    let f := fun o => addVar env (.addNullVar o)
    rcases addVar_cases env (.addNullVar o) x vs with ⟨hc, hadd⟩ | ⟨hc, e, x', hadd, -⟩
    · have hnames : namesAdded env x.calls (o :: os) = o :: namesAdded env (x.calls + 1) os := if_pos hc
      have hgiven : Vars.given env x.calls (o :: os) vs
          = Vars.given env (ticked x).calls os (vs ++ [nullVarbind env o]) := by
        rw [Vars.given, Vars.given, hnames, List.append_assoc]
        rfl
      rw [hnames, hgiven]
      rcases addNullVars_given os (ticked x) (vs ++ [nullVarbind env o]) with ⟨hall, x', hrest⟩ | ⟨hall, e, x', hrest⟩
      · exact .inl ⟨congrArg (o :: ·) hall, x', Run.each_cons_ok (f := f) hadd hrest⟩
      · exact .inr ⟨fun hc => hall (List.cons.inj hc).2, e, x', Run.each_cons_ok (f := f) hadd hrest⟩
    · have hnames : namesAdded env x.calls (o :: os) = [] := if_neg hc
      have hgiven : Vars.given env x.calls (o :: os) vs = vs := by
        rw [Vars.given, hnames, List.map_nil, List.append_nil]
      rw [hnames, hgiven]
      exact .inr ⟨nofun, e, x', Run.each_cons_error (f := f) hadd⟩

theorem addNullVars_error {os : List OID} (h : addNullVars env os (x, vs) = (.error e, (x', vs'))) :
    vs' = Vars.given env x.calls os vs := by
  rcases addNullVars_given env os x vs with ⟨-, _, hadd⟩ | ⟨-, _, _, hadd⟩ <;> rw [hadd] at h <;> cases h
  rfl

theorem Pdu.vars_of_none (hb : v.body = none) : v.vars = [] := by rw [Pdu.vars, hb]; rfl

theorem onBody_addVar_error {c : AddCall} (h : onBody (addVar env c) (x, v) = (.error e, (x', v'))) : v' = v := by
  cases hb : v.body with
  | none =>
    rw [onBody_null hb] at h
    cases h
    rfl
  | some b =>
    rcases onBody_addVar_cases env c x hb with ⟨-, hadd⟩ | ⟨-, _, _, hadd, -⟩ <;> rw [hadd] at h <;> cases h
    rfl

theorem onBody_addNullVars_error {os : List OID} (h : onBody (addNullVars env os) (x, v) = (.error e, (x', v'))) :
    v' = v.given env x.calls os := by
  cases hb : v.body with
  | none =>
    rw [onBody_null hb] at h
    cases h
    exact (if_pos (Pdu.vars_of_none hb)).symm
  | some b =>
    have hvars : v.vars = b.vars := by rw [Pdu.vars, hb]; rfl
    rcases hadd : addNullVars env os (x, b.vars) with ⟨e' | _, x'', vs''⟩
    · by_cases hnil : b.vars = []
      · rw [onBody_begun hb hnil hadd] at h
        cases h
        exact (if_pos (hvars.trans hnil)).symm
      · rw [onBody_error hb hnil hadd] at h
        cases h
        rw [Pdu.given, if_neg (by rwa [hvars]), Pdu.setVars, hb, hvars, ← addNullVars_error env hadd]
        rfl
    · rw [onBody_ok hb hadd] at h
      cases h

/-- **A request that throws is spent**, unless there was none. -/
theorem sync_error (h : sync env session (x, v) = (.error e, (x', v'))) : v' = if v.body = none then v else .null := by
  cases hb : v.body with
  | none =>
    rw [sync_null env session hb] at h
    cases h
    rfl
  | some b =>
    by_cases hs : session = none
    · subst hs
      rw [sync_noSession env hb] at h
      cases h
      rfl
    by_cases hgood : ∃ a, (env.synchResponse x.calls).response = some a ∧ a.Good (env.synchResponse x.calls).status
    · obtain ⟨a, hresp, hgood⟩ := hgood
      rw [sync_response env session hs hb hresp hgood] at h
      cases h
    · rw [sync_failed env session hs hb (fun a hresp hg => hgood ⟨a, hresp, hg⟩)] at h
      cases h
      rfl

theorem getNext_error (h : getNext env session (x, v) = (.error e, (x', v'))) :
    v' = if v.vars = [] then v else .null := by
  rw [getNext, Run.this_bind] at h
  by_cases hnil : v.vars = []
  · rw [if_pos hnil] at h ⊢
    cases h
    rfl
  rw [if_neg hnil] at h ⊢
  by_cases ht : v.type = kGetNext
  · rw [if_pos ht] at h
    exact (sync_error env session h).trans (if_neg (fun hb => hnil (Pdu.vars_of_none hb)))
  · rw [if_neg ht, Run.setThis_bind, Run.lift_apply] at h
    exact (Prod.mk.inj (Prod.mk.inj h).2).2.symm

/-- **A GETBULK is ready to be sent, or stands as `bulkRequested` says.** -/
theorem getBulkTarget_cases (x : Net) (hb : v.body ≠ none) :
    (∃ x' v', getBulkTarget env (x, v) = (.ok (), (x', v')) ∧ v'.body ≠ none ∧ v.bulkRequested env x.calls = .null) ∨
    ∃ e x', getBulkTarget env (x, v) = (.error e, (x', v.bulkRequested env x.calls)) := by
  rw [getBulkTarget, Run.this_bind, Pdu.bulkRequested]
  by_cases ht : v.type = kGetBulk
  · rw [if_pos ht, if_pos ht, if_neg hb]
    exact .inl ⟨x, v, rfl, hb, rfl⟩
  rw [if_neg ht, if_neg ht]
  by_cases hnil : v.vars = []
  · rw [if_pos hnil, if_pos hnil]
    exact .inr ⟨_, x, rfl⟩
  rw [if_neg hnil, if_neg hnil, Run.setThis_bind, Pdu.rebuilt]
  have hask : ask env.pduCreate x = (.ok (env.pduCreate x.calls), ticked x) := rfl
  cases hc : env.pduCreate x.calls with
  | none =>
    have hcreate : create env kGetBulk x
        = (.error (.exn ⟨.runtimeError, "Failed to create a PDU.".toList⟩), ticked x) := by
      rw [create, Run.bind_ok hask, hc]
      rfl
    exact .inr ⟨_, ticked x, Run.bind_error (Run.lift_of hcreate Pdu.null)⟩
  | some fields =>
    have hcreate : create env kGetBulk x = (.ok ⟨kGetBulk, some ⟨kGetBulk, fields.1, fields.2, []⟩⟩, ticked x) := by
      rw [create, Run.bind_ok hask, hc]
      rfl
    rw [Run.lift_bind hcreate, Run.setThis_bind]
    rcases addNullVars_given env (Varlist.getOidsSet v.vars).elems (ticked x) [] with
      ⟨hall, x', hadd⟩ | ⟨hall, e, x', hadd⟩
    · exact .inl ⟨x', _, onBody_ok rfl hadd, by simp, if_pos hall⟩
    · exact .inr ⟨e, _, (onBody_begun rfl rfl hadd).trans (Prod.ext rfl (Prod.ext rfl (if_neg hall).symm))⟩

theorem getBulk_error {maxRepetitions nonRepeaters : Int}
    (h : getBulk env session maxRepetitions nonRepeaters (x, v) = (.error e, (x', v'))) :
    v' = v.bulkRequested env x.calls := by
  by_cases hb : v.body = none
  · have hreq : getBulkRequest env maxRepetitions nonRepeaters (x, v)
        = (.error (.exn (invalidArgument "Request PDU must not be NULL.")), (x, v)) := by
      rw [getBulkRequest, Run.this_bind, if_pos hb, Run.throws_apply]
    rw [getBulk, Run.bind_error hreq] at h
    cases h
    rw [Pdu.bulkRequested, if_pos hb, if_pos (Pdu.vars_of_none hb), ite_self]
  rcases getBulkTarget_cases env x hb with ⟨x₁, v₁, htarget, hb₁, hnull⟩ | ⟨err, x₁, htarget⟩
  · have hreq : getBulkRequest env maxRepetitions nonRepeaters (x, v)
        = (.ok (), (x₁, v₁.bulk maxRepetitions nonRepeaters)) := by
      rw [getBulkRequest, Run.this_bind, if_neg hb, Run.bind_ok htarget]
      rfl
    rw [getBulk, Run.bind_ok hreq] at h
    have hbody : (v₁.bulk maxRepetitions nonRepeaters).body ≠ none := by simpa [Pdu.bulk] using hb₁
    rw [hnull]
    exact (sync_error env session h).trans (if_neg hbody)
  · have hreq : getBulkRequest env maxRepetitions nonRepeaters (x, v)
        = (.error err, (x₁, v.bulkRequested env x.calls)) := by
      rw [getBulkRequest, Run.this_bind, if_neg hb, Run.bind_error htarget]
    rw [getBulk, Run.bind_error hreq] at h
    cases h
    rfl

/-- **A PDU that was to be sent is empty**, whichever way the request threw. -/
theorem Pdu.requested_empty (n : Nat) (v : Pdu) (en : Entry) : (v.requested env n en).vars = [] := by
  have hnull : (if v.body = none then v else Pdu.null).vars = [] := by
    split
    · exact Pdu.vars_of_none ‹_›
    · rfl
  cases en with
  | sync | get | set => exact hnull
  | getNext =>
    show (if v.vars = [] then v else Pdu.null).vars = []
    split
    · assumption
    · rfl
  | getBulk =>
    show (v.bulkRequested env n).vars = []
    unfold Pdu.bulkRequested Pdu.rebuilt
    split
    · exact hnull
    · split
      · assumption
      · split
        · rfl
        · split <;> rfl

/-- **A request that throws leaves its PDU as `requested` says.** -/
theorem entry_error {en : Entry} (h : entry env session en (x, v) = (.error e, (x', v'))) :
    v' = v.requested env x.calls en := by
  cases en with
  | sync | get | set => exact sync_error env session h
  | getNext => exact getNext_error env session h
  | getBulk maxReps non => exact getBulk_error env session h

/-- **A list that was to be sent is spent**, and so is a PDU. -/
theorem sendV2Trap_spends (x : Net) (vs : Vars) : (sendV2Trap env (x, vs)).2.2 = [] := by
  rw [sendV2Trap, Run.this_bind]
  by_cases hnil : vs = []
  · rw [if_pos hnil]
    exact hnil
  rw [if_neg hnil, Run.setThis_bind]
  refine (?_ : Run.Keeps Prod.snd _) (x, [])
  split
  · exact .throws _
  · refine .bind .lifted (fun _ => .bind .lifted (fun rc => ?_))
    split
    · exact .pure _
    · exact .throws _

theorem sendV2TrapPdu_spends (x : Net) (v : Pdu) : (sendV2TrapPdu env (x, v)).2.2 = Pdu.null := by
  rw [sendV2TrapPdu, Run.this_bind, Run.setThis_bind]
  refine (?_ : Run.Keeps Prod.snd _) (x, Pdu.null)
  split
  · exact .throws _
  · exact .bind .lifted (fun _ => .pure _)

end
end Value

/-! ## One statement -/

section
variable {ι κ : Type} {x : Net} {u : Value.Locals ι κ} {e : Stop Exc}

/-- What never throws. -/
def Value.Returns {α : Type} (m : Value.Method (Value.Locals ι κ) α) : Prop := ∀ s, ∃ a, (m s).1 = .ok a

/-- A function that throws is given no variable. -/
theorem Value.lift_error {α : Type} {f : Value.Func α} {g : α → Value.Method (Value.Locals ι κ) Seen}
    (hg : ∀ a, Value.Returns (g a)) (h : ((Run.lift f >>= g) (x, u)).1 = .error e) :
    ((Run.lift f >>= g) (x, u)).2.2 = u := by
  rcases hf : f x with ⟨err | a, x'⟩
  · rw [Run.bind_error (Run.lift_of hf u)]
  · rw [Run.lift_bind hf] at h
    obtain ⟨r, hr⟩ := hg a (x', u)
    rw [hr] at h
    cases h

/-- A method that throws changes one PDU. -/
theorem Value.onPdu_error [DecidableEq ι] {α : Type} {m : Value.Method Value.Pdu α}
    {g : α → Value.Method (Value.Locals ι κ) Seen} (hg : ∀ a, Value.Returns (g a)) {i : ι} {v : Value.Pdu}
    (h : ((Value.Locals.onPdu i m >>= g) (x, u)).1 = .error e)
    (hm : ∀ x' v', m (x, u.pdu i) = (.error e, (x', v')) → v' = v) :
    ((Value.Locals.onPdu i m >>= g) (x, u)).2.2 = { u with pdu := Function.update u.pdu i v } := by
  rcases hr : m (x, u.pdu i) with ⟨err | a, x', v'⟩
  · have hon : Value.Locals.onPdu i m (x, u)
        = (.error err, (x', { u with pdu := Function.update u.pdu i v' })) := by simp only [Value.Locals.onPdu, hr]
    rw [Run.bind_error hon] at h ⊢
    cases h
    rw [hm x' v' hr]
  · have hon : Value.Locals.onPdu i m (x, u)
        = (.ok a, (x', { u with pdu := Function.update u.pdu i v' })) := by simp only [Value.Locals.onPdu, hr]
    rw [Run.bind_ok hon] at h
    obtain ⟨r, hr'⟩ := hg a (x', { u with pdu := Function.update u.pdu i v' })
    rw [hr'] at h
    cases h

/-- The same of a variable list. -/
theorem Value.onVl_error [DecidableEq κ] {m : Value.Method Value.Vars Unit} {k : κ} {vs : Value.Vars}
    (h : ((do Value.Locals.onVl k m; pure Seen.nothing : Value.Method (Value.Locals ι κ) Seen) (x, u)).1 = .error e)
    (hm : ∀ x' vs', m (x, u.vl k) = (.error e, (x', vs')) → vs' = vs) :
    ((do Value.Locals.onVl k m; pure Seen.nothing : Value.Method (Value.Locals ι κ) Seen) (x, u)).2.2
      = { u with vl := Function.update u.vl k vs } := by
  rcases hr : m (x, u.vl k) with ⟨err | _, x', vs'⟩
  · have hon : Value.Locals.onVl k m (x, u)
        = (.error err, (x', { u with vl := Function.update u.vl k vs' })) := by simp only [Value.Locals.onVl, hr]
    rw [Run.bind_error hon] at h ⊢
    cases h
    rw [hm x' vs' hr]
  · have hon : Value.Locals.onVl k m (x, u)
        = (.ok (), (x', { u with vl := Function.update u.vl k vs' })) := by simp only [Value.Locals.onVl, hr]
    rw [Run.bind_ok hon] at h
    cases h

variable [DecidableEq ι] [DecidableEq κ] (env : NetSnmp)

/-- **A statement that throws leaves the variables as `leaves` says.** -/
theorem Value.stmt_throws (st : Stmt ι κ) (h : (st.val env (x, u)).1 = .error e) :
    (st.val env (x, u)).2.2 = st.leaves env x.calls u := by
  have hdone : ∀ r : Unit, Returns (pure Seen.nothing : Value.Method (Value.Locals ι κ) Seen) := fun _ _ => ⟨_, rfl⟩
  have hset : ∀ (j : ι) (v : Value.Pdu), Returns (do Value.Locals.setPdu j v; pure Seen.nothing :
      Value.Method (Value.Locals ι κ) Seen) := fun _ _ _ => ⟨_, rfl⟩
  cases st with
  | construct j t => exact lift_error (hset j) h
  | clone i j => exact lift_error (hset j) h
  | query q session j => exact lift_error (hset j) h
  | createTrap k o uptime => exact lift_error (fun _ _ => ⟨_, rfl⟩) h
  | sendOid o uptime => exact lift_error (f := sendV2TrapOid env o uptime) (fun _ _ => ⟨_, rfl⟩) h
  | free i => cases h
  | clear i => cases h
  | vlFree k => cases h
  | vlClear k => cases h
  | look i q => rfl
  | add i c =>
    have hadd := onPdu_error hdone h (fun x' v' hr => onBody_addVar_error env hr)
    rwa [Function.update_eq_self] at hadd
  | vlAdd k c =>
    have hadd := onVl_error h (fun x' vs' hr => addVar_error env hr)
    rwa [Function.update_eq_self] at hadd
  | addNullVars i c => exact onPdu_error hdone h (fun x' v' hr => onBody_addNullVars_error env hr)
  | vlAddNullVars k c => exact onVl_error h (fun x' vs' hr => addNullVars_error env hr)
  | setVarlist i k =>
    by_cases hb : (u.pdu i).body = none
    · rw [Stmt.val, Run.this_bind, if_pos hb]
      rfl
    · rw [Stmt.val, Run.this_bind, if_neg hb] at h
      cases h
  | entry en session i j => exact onPdu_error (hset j) h (fun x' v' hr => entry_error env session hr)
  | sendPdu i =>
    refine onPdu_error hdone h (fun x' v' hr => ?_)
    have hspent := sendV2TrapPdu_spends env x (u.pdu i)
    rwa [hr] at hspent
  | sendVl k =>
    refine onVl_error h (fun x' vs' hr => ?_)
    have hspent := sendV2Trap_spends env x (u.vl k)
    rwa [hr] at hspent

/-- **What an exception leaves of the variables, after every run.**  The variables said some `u`, and now they say what
the statement that threw leaves of `u`. -/
theorem program_throws [Fintype ι] [Fintype κ] (sts : List (Stmt ι κ)) (st : Stmt ι κ) (e : Exc)
    (h : (st.run env (Run.trace (sts.map (·.run env)) (World.start, (Locals.null : Locals ι κ))).2).1
      = .error (.exn e)) :
    let s := (Run.trace (sts.map (·.run env)) (World.start, (Locals.null : Locals ι κ))).2
    let s' := (st.run env s).2
    ∃ u : Value.Locals ι κ, ∀ n,
      s.2.reads s.1 n = some (u.at n) ∧ s'.2.reads s'.1 n = some ((st.leaves env s.1.calls u).at n) := by
  intro s s'
  obtain ⟨-, hm⟩ := run_matches env sts (matches_start (ι := ι) (κ := κ))
  obtain ⟨hend, hm'⟩ := run_matches env [st] hm
  have hthrows : (st.val env _).1 = .error (.exn e) := (List.cons.inj hend).1.symm.trans h
  refine ⟨_, fun n => ⟨hm.reads_eq n, ?_⟩⟩
  rw [hm.tracks.calls, ← Value.stmt_throws env st hthrows]
  exact hm'.reads_eq n

/-- Three names for a PDU that has one already, the last of them refused: the other two stay. -/
theorem program_throws_bulk :
    let env := { NetSnmp.working (fun _ => .timeout) with addVariable := fun n => n != 5 }
    let sts : List (Stmt (Fin 2) (Fin 1)) :=
      [.construct 1 kGet, .add 1 (.addNullVar ⟨[1, 2]⟩), .vlAdd 0 (.addIntegerVar ⟨[1, 7]⟩ 5)]
    let st : Stmt (Fin 2) (Fin 1) := .addNullVars 1 (.vec [⟨[1, 3]⟩, ⟨[1, 4]⟩, ⟨[1, 5]⟩])
    let s := (Run.trace (sts.map (·.run env)) (World.start, Locals.null)).2
    let s' := (st.run env s).2
    s'.2.reads s'.1 (.inl 1) = some (.inl ⟨kGet, some ⟨kGet, 0, 0,
      [⟨[1, 2], ASN_NULL, []⟩, ⟨[1, 3], ASN_NULL, []⟩, ⟨[1, 4], ASN_NULL, []⟩]⟩⟩) := by
  intro env sts st
  obtain ⟨u, hu⟩ := program_throws env sts st
    ⟨.runtimeError, "Failed to add .1.5 to the variable list.".toList⟩ (by decide +kernel)
  obtain ⟨hsaid, hsays⟩ := hu (.inl 1)
  have hpdu : Sum.inl (u.pdu 1) = _ := Option.some.inj (hsaid.symm.trans
    (show _ = some (Sum.inl ⟨kGet, some ⟨kGet, 0, 0, [⟨[1, 2], ASN_NULL, []⟩]⟩⟩) by decide +kernel))
  have hcalls : (Run.trace (sts.map (·.run env)) (World.start, Locals.null)).2.1.calls = 3 := by decide +kernel
  rw [hcalls] at hsays
  refine hsays.trans (congrArg (fun v => some (Sum.inl v)) ?_)
  have hadded : (Function.update u.pdu 1 ((u.pdu 1).given env 3 [⟨[1, 3]⟩, ⟨[1, 4]⟩, ⟨[1, 5]⟩])) 1 = _ :=
    Function.update_self 1 _ u.pdu
  refine hadded.trans ?_
  rw [Sum.inl.inj hpdu]
  decide +kernel

end
end Snmppp
