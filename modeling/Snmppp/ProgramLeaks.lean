import Snmppp.ProgramRun
import Snmppp.ValueLeaks
import Mathlib.Algebra.BigOperators.Pi
/-!
# ProgramLeaks — what a program leaves behind

A statement leaves memory behind when it overwrites or forgets what a variable held, or when a function it calls does
(`Stmt.Tidy`); no other statement does.  Exactly the programs of tidy statements hold all the memory there is in their
variables (`program_leaks_iff`).
-/
namespace Snmppp

open Arena (mem_ofPtr)

/-- An entry point that leaves nothing of its own behind. -/
def Value.EntryTidy (env : NetSnmp) (x : Net) (v : Value.Pdu) : Entry → Prop
  | .sync | .get | .set => True
  | .getNext            =>
    v.vars = [] ∨ v.type = kGetNext ∨ (OID.ofVarlist (lastVarbind v.vars)).empty = true ∨
      env.pduCreate x.calls = none ∨ env.addVariable (x.calls + 1) = true
  | .getBulk _ _        =>
    v.body = none ∨ v.type = kGetBulk ∨ v.vars = [] ∨ env.pduCreate x.calls = none ∨
      NoneOrFirst env (x.calls + 1) (Varlist.getOidsSet v.vars).elems

/-- A request for one name that is filled, or not begun. -/
def Value.OneTidy (env : NetSnmp) (x : Net) (o : OID) : Prop :=
  o.empty = true ∨ env.pduCreate x.calls = none ∨ env.addVariable (x.calls + 1) = true

/-- The same of a whole request. -/
def Value.QueryTidy (env : NetSnmp) (x : Net) : Query → Prop
  | .get o | .getNext o | .setBooleanVar o _ | .setIntegerVar o _ | .setInteger64Var o _ | .setGaugeVar o _
  | .setOctetStringVar o _ => OneTidy env x o
  | .getSet oids           =>
    oids.elems = [] ∨ env.pduCreate x.calls = none ∨ AllAdd env (x.calls + 1) oids.elems
  | .getBulk o _ _         =>
    env.pduCreate x.calls = none ∨ (o.empty = false ∧ env.addVariable (x.calls + 1) = true)

/-! ## Calls -/

theorem Value.entry_spares (env : NetSnmp) (session : SessionHandle) (e : Entry) (x : Net) (v : Value.Pdu) :
    Spares x (Value.entry env session e (x, v)).2.1 (Value.EntryTidy env x v e) := by
  cases e with
  | sync | get | set => exact .same (Value.sync_lost env session x v).1 trivial
  | getNext => exact Value.getNext_spares env session x v
  | getBulk maxReps non => exact Value.getBulk_spares env session maxReps non x v

theorem Value.query_spares (env : NetSnmp) (session : SessionHandle) (q : Query) (x : Net) :
    Spares x (Value.query env session q x).2 (Value.QueryTidy env x q) := by
  cases q with
  | get o => exact Value.requestOne_spares env session kGet (.addNullVar o) x
  | getNext o => exact Value.requestOne_spares env session kGetNext (.addNullVar o) x
  | getSet oids => exact Value.getSet_spares env session oids x
  | getBulk o maxReps non => exact Value.getBulkOid_spares env session o maxReps non x
  | setBooleanVar o v => exact Value.requestOne_spares env session kSet (.addBooleanVar o v) x
  | setIntegerVar o v => exact Value.requestOne_spares env session kSet (.addIntegerVar o v) x
  | setInteger64Var o v => exact Value.requestOne_spares env session kSet (.addInteger64Var o v) x
  | setGaugeVar o v => exact Value.requestOne_spares env session kSet (.addGaugeVar o v) x
  | setOctetStringVar o v => exact Value.requestOne_spares env session kSet (.addOctetStringVar o v) x

/-- **What answers a PDU has spent it.** -/
theorem Value.entry_spent (env : NetSnmp) (session : SessionHandle) (e : Entry) (x : Net) (v : Value.Pdu)
    {r : Value.Pdu} (hr : (Value.entry env session e (x, v)).1 = .ok r) :
    (Value.entry env session e (x, v)).2.2.body = none := by
  cases e with
  | sync | get | set => exact (Value.sync_lost env session x v).2
  | getBulk maxReps non =>
    show (Value.getBulk env session maxReps non (x, v)).2.2.body = none
    rcases hreq : Value.getBulkRequest env maxReps non (x, v) with ⟨err | _, s⟩
    · rw [Value.entry, Value.getBulk, Run.bind_error hreq] at hr
      cases hr
    · rw [Value.getBulk, Run.bind_ok hreq]
      exact (Value.sync_lost env session s.1 s.2).2
  | getNext =>
    show (Value.getNext env session (x, v)).2.2.body = none
    rw [Value.entry, Value.getNext, Run.this_bind] at hr
    rw [Value.getNext, Run.this_bind]
    by_cases hnil : v.vars = []
    · rw [if_pos hnil] at hr
      cases hr
    rw [if_neg hnil]
    by_cases ht : v.type = kGetNext
    · rw [if_pos ht]
      exact (Value.sync_lost env session x v).2
    · rw [if_neg ht, Run.setThis_bind]
      rfl

theorem Look.lossless (q : Look) (v : Value.Pdu) : (q.val v).Keeps Net.lost := by
  cases q with
  | empty | size | contains o | index idx => exact .pure _
  | firstOID =>
    simp only [Look.val]
    split
    · exact .throws _
    split
    · exact .throws _
    · exact .pure _

/-! ## One statement -/

section
variable {ι κ : Type}

theorem Stmt.onPdu_lossless [DecidableEq ι] {m : Value.Method Value.Pdu Unit} (hm : m.Keeps (fun s => s.1.lost))
    (i : ι) :
    Run.Keeps (fun s => s.1.lost) (do Value.Locals.onPdu i m; pure Seen.nothing :
      Value.Method (Value.Locals ι κ) Seen) :=
  .bind (fun s => hm (s.1, s.2.pdu i)) (fun _ => .pure _)

theorem Stmt.onVl_lossless [DecidableEq κ] {m : Value.Method Value.Vars Unit} (hm : m.Keeps (fun s => s.1.lost))
    (k : κ) :
    Run.Keeps (fun s => s.1.lost) (do Value.Locals.onVl k m; pure Seen.nothing :
      Value.Method (Value.Locals ι κ) Seen) :=
  .bind (fun s => hm (s.1, s.2.vl k)) (fun _ => .pure _)

section
variable {x : Net} {u : Value.Locals ι κ} {c : Prop}

theorem Spares.of_keeps {α : Type} {m : Value.Method (Value.Locals ι κ) α} (hm : m.Keeps (fun s => s.1.lost)) (x : Net)
    (u : Value.Locals ι κ) : Spares x (m (x, u)).2.1 True :=
  .same (hm (x, u)) trivial

/-- A function whose result goes to a PDU. -/
theorem Spares.gives [DecidableEq ι] {f : Value.Func Value.Pdu} (hf : Spares x (f x).2 c) (j : ι) :
    Spares x ((do let v ← Run.lift f; Value.Locals.setPdu j v; pure Seen.nothing :
        Value.Method (Value.Locals ι κ) Seen) (x, u)).2.1
      (c ∧ ((∃ v, (f x).1 = .ok v) → (u.pdu j).body = none)) := by
  rcases hr : f x with ⟨e | v, x'⟩ <;> rw [hr] at hf
  · rw [Run.bind_error (Run.lift_of hr u)]
    exact hf.congr (by simp)
  · rw [Run.bind_ok (Run.lift_of hr u)]
    exact (hf.trans (Value.losePdu_spares x' (u.pdu j))).congr (by simp)

/-- An entry point, whose result goes to a PDU. -/
theorem Spares.answers [DecidableEq ι] {m : Value.Method Value.Pdu Value.Pdu} {i : ι}
    (hm : Spares x (m (x, u.pdu i)).2.1 c)
    (hspent : ∀ r, (m (x, u.pdu i)).1 = .ok r → (m (x, u.pdu i)).2.2.body = none) (j : ι) :
    Spares x ((do let v ← Value.Locals.onPdu i m; Value.Locals.setPdu j v; pure Seen.nothing :
        Value.Method (Value.Locals ι κ) Seen) (x, u)).2.1
      (c ∧ ((∃ v, (m (x, u.pdu i)).1 = .ok v) → j = i ∨ (u.pdu j).body = none)) := by
  rcases hr : m (x, u.pdu i) with ⟨e | r, x', v'⟩ <;> rw [hr] at hm hspent
  · have hon : Value.Locals.onPdu i m (x, u)
        = (.error e, (x', { u with pdu := Function.update u.pdu i v' })) := by simp only [Value.Locals.onPdu, hr]
    rw [Run.bind_error hon]
    exact hm.congr (by simp)
  · have hon : Value.Locals.onPdu i m (x, u)
        = (.ok r, (x', { u with pdu := Function.update u.pdu i v' })) := by simp only [Value.Locals.onPdu, hr]
    rw [Run.bind_ok hon]
    refine (hm.trans (Value.losePdu_spares x' (Function.update u.pdu i v' j))).congr ?_
    have hnull : v'.body = none := hspent r rfl
    by_cases hj : j = i
    · subst hj
      simp [hnull]
    · simp [hj]

end

section
variable [DecidableEq ι] [DecidableEq κ] (env : NetSnmp)

/-- **A statement that leaves nothing behind.**  What goes to a variable goes to one that holds nothing by then. -/
def Stmt.Tidy (y : Net × Value.Locals ι κ) : Stmt ι κ → Prop
  | .construct j _         => env.pduCreate y.1.calls = none ∨ (y.2.pdu j).body = none
  | .clone i j             => (y.2.pdu i).body = none ∨ (y.2.pdu j).body = none
  | .clear i               => (y.2.pdu i).body = none
  | .addNullVars i c       => (y.2.pdu i).body = none ∨ (y.2.pdu i).vars ≠ [] ∨ NoneOrFirst env y.1.calls c.oids
  | .entry e session i j   => Value.EntryTidy env y.1 (y.2.pdu i) e ∧
    ((∃ v, (Value.entry env session e (y.1, y.2.pdu i)).1 = .ok v) → j = i ∨ (y.2.pdu j).body = none)
  | .query q session j     => Value.QueryTidy env y.1 q ∧
    ((∃ v, (Value.query env session q y.1).1 = .ok v) → (y.2.pdu j).body = none)
  | .vlClear k             => y.2.vl k = []
  | .createTrap k o _      => o.empty = true ∨ y.2.vl k = []
  | .free _ | .add _ _ | .setVarlist _ _ | .look _ _ | .sendPdu _ | .vlFree _ | .vlAdd _ _ | .vlAddNullVars _ _
  | .sendVl _ | .sendOid _ _ => True

/-- Every statement of a run leaves nothing behind. -/
def TidyRun : List (Stmt ι κ) → Net × Value.Locals ι κ → Prop
  | [], _        => True
  | st :: sts, y => st.Tidy env y ∧ TidyRun sts (st.val env y).2

/-! ## One statement -/

section
variable (x : Net) (u : Value.Locals ι κ)

/-- **A statement leaves nothing behind exactly when it is tidy.** -/
theorem Stmt.spares (st : Stmt ι κ) : Spares x (st.val env (x, u)).2.1 (st.Tidy env (x, u)) := by
  cases st with
  | construct j t =>
    refine (Spares.gives (.same (Value.create_lossless env t x) trivial) j).congr ?_
    rcases Value.create_cases env t x with ⟨hc, e, hcreate⟩ | ⟨hc, es, ei, hcreate⟩ <;> rw [hcreate] <;>
      simp [Tidy, hc]
  | clone i j =>
    refine (Spares.gives (.same (Value.clone_lossless env (u.pdu i) x) trivial) j).congr ?_
    cases hb : (u.pdu i).body with
    | none =>
      have hno : ¬ ∃ v, (Value.clone env (u.pdu i) x).1 = .ok v := by
        rintro ⟨v, hv⟩
        simp only [Value.clone, hb] at hv
        cases hv
      simp [Tidy, hb, hno]
    | some b =>
      have hret : ∃ v, (Value.clone env (u.pdu i) x).1 = .ok v := by
        have hask : Value.ask env.pduClone x = (.ok (env.pduClone x.calls), Value.ticked x) := rfl
        simp only [Value.clone, hb, Run.bind_ok hask]
        split <;> exact ⟨_, rfl⟩
      simp [Tidy, hb, hret]
  | free i => exact .of_keeps (fun _ => rfl) x u
  | clear i => exact Value.losePdu_spares x (u.pdu i)
  | add i c => exact .of_keeps (onPdu_lossless (Value.onBody_addVar_lossless env c) i) x u
  | addNullVars i c =>
    exact Spares.bind_keeps (s := (x, u)) (m := Value.Locals.onPdu i (Value.onBody (Value.addNullVars env c.oids)))
      (Value.onBody_addNullVars_spares env c.oids x (u.pdu i)) (fun _ => .pure _)
  | setVarlist i k =>
    refine .of_keeps (.bind .this (fun u => ?_)) x u
    split
    · exact .throws _
    · exact fun _ => rfl
  | entry e session i j =>
    exact .answers (Value.entry_spares env session e x (u.pdu i))
      (fun r hr => Value.entry_spent env session e x (u.pdu i) hr) j
  | query q session j => exact .gives (Value.query_spares env session q x) j
  | look i q => exact .of_keeps (.bind .this (fun u => .lift (q.lossless (u.pdu i)))) x u
  | sendPdu i => exact .of_keeps (onPdu_lossless (Value.sendV2TrapPdu_lossless env) i) x u
  | vlFree k => exact .of_keeps (fun _ => rfl) x u
  | vlClear k => exact Value.loseVars_spares x (u.vl k)
  | vlAdd k c => exact .of_keeps (onVl_lossless (Value.addVar_lossless env c) k) x u
  | vlAddNullVars k c =>
    exact .of_keeps (onVl_lossless (.each (fun o => Value.addVar_lossless env (.addNullVar o)) _) k) x u
  | createTrap k o uptime =>
    by_cases ho : o.empty = true
    · refine .same ?_ (.inl ho)
      rw [val, Value.createV2TrapVarlist, if_pos ho]
      rfl
    · have hcalls : (Value.ticked (Value.ticked x)).lost = x.lost := rfl
      have hlose := Value.loseVars_spares (Value.ticked (Value.ticked x)) (u.vl k)
      rw [val, Value.createV2TrapVarlist, if_neg ho]
      refine (Spares.after hcalls hlose).congr ?_
      simp [Tidy, ho]
  | sendVl k => exact .of_keeps (onVl_lossless (Value.sendV2Trap_lossless env) k) x u
  | sendOid o uptime =>
    exact .of_keeps (.bind (.lift (Value.sendV2TrapOid_lossless env o uptime)) (fun _ => .pure _)) x u

/-- **A run leaves nothing behind exactly when every statement of it is tidy.** -/
theorem trace_spares : ∀ (sts : List (Stmt ι κ)) (y : Net × Value.Locals ι κ),
    Spares y.1 (Run.trace (sts.map (·.val env)) y).2.1 (TidyRun env sts y)
  | [], _         => .same rfl trivial
  | st :: sts, y => (st.spares env y.1 y.2).trans (trace_spares sts (st.val env y).2)

end
end

/-! ## Whole runs -/

section
variable [Fintype ι] [Fintype κ] {w : World} {l : Locals ι κ}

theorem Locals.mem_pdus {p : PduPtr} : p ∈ (l.mem w).1 ↔ ∃ i, (l.pdu i).pdu = some p := by
  rw [Locals.mem, Prod.fst_sum, Multiset.mem_sum]
  constructor
  · rintro ⟨i | k, -, hp⟩
    · exact ⟨i, mem_ofPtr.1 hp⟩
    · exact absurd hp (Multiset.notMem_zero p)
  · rintro ⟨i, hi⟩
    exact ⟨.inl i, Finset.mem_univ _, mem_ofPtr.2 hi⟩

theorem Locals.mem_lists {a : VarPtr} : a ∈ (l.mem w).2 ↔ ∃ n, l.listOf w n = some a := by
  rw [Locals.mem, Prod.snd_sum, Multiset.mem_sum]
  constructor
  · rintro ⟨n, -, ha⟩
    exact ⟨n, by cases n <;> exact mem_ofPtr.1 ha⟩
  · rintro ⟨n, hn⟩
    exact ⟨n, Finset.mem_univ _, by cases n <;> exact mem_ofPtr.2 hn⟩

/-- All the memory there is, is held by variables. -/
def AllHeld (w : World) (l : Locals ι κ) : Prop :=
  (∀ p, w.pdus.Live p → ∃ i, (l.pdu i).pdu = some p) ∧ ∀ a, w.lists.Live a → ∃ n, l.listOf w n = some a

/-- **Nothing is left behind exactly when nothing is counted as left behind.** -/
theorem Matches.allHeld_iff {s : World × Locals ι κ} {y : Net × Value.Locals ι κ} (h : Matches 0 s y) :
    AllHeld s.1 s.2 ↔ y.1.lost = 0 := by
  obtain ⟨lost, hcp, hcl, hfp, hfl⟩ := h.tracks.mem
  have hp := hfp.held
  have hl := hfl.held
  rw [zero_add, Prod.fst_zero, add_zero] at hp
  rw [zero_add, Prod.snd_zero, add_zero] at hl
  have hcount : y.1.lost = 0 ↔ lost.1 = 0 ∧ lost.2 = 0 := by
    rw [Net.lost, ← hcp, ← hcl, Nat.add_eq_zero_iff, Multiset.card_eq_zero, Multiset.card_eq_zero]
  rw [hcount]
  constructor
  · rintro ⟨hpdus, hlists⟩
    constructor
    · refine Multiset.eq_zero_of_forall_notMem (fun p hlost => ?_)
      obtain ⟨i, hi⟩ := hpdus p ((hp.live p).2 (Multiset.mem_add.2 (.inr hlost)))
      exact hp.apart (Locals.mem_pdus.2 ⟨i, hi⟩) hlost
    · refine Multiset.eq_zero_of_forall_notMem (fun a hlost => ?_)
      obtain ⟨n, hn⟩ := hlists a ((hl.live a).2 (Multiset.mem_add.2 (.inr hlost)))
      exact hl.apart (Locals.mem_lists.2 ⟨n, hn⟩) hlost
  · rintro ⟨hlp, hll⟩
    rw [hlp, add_zero] at hp
    rw [hll, add_zero] at hl
    exact ⟨fun p hlive => Locals.mem_pdus.1 ((hp.live p).1 hlive),
      fun a hlive => Locals.mem_lists.1 ((hl.live a).1 hlive)⟩

/-- **A program holds all the memory there is exactly when every statement of it was tidy.**  Nothing that is left
behind is ever found again. -/
theorem program_leaks_iff [DecidableEq ι] [DecidableEq κ] (env : NetSnmp) (sts : List (Stmt ι κ)) :
    let s := (Run.trace (sts.map (·.run env)) (World.start, (Locals.null : Locals ι κ))).2
    AllHeld s.1 s.2 ↔ TidyRun env sts (Net.start, Value.Locals.null) := by
  intro s
  obtain ⟨-, hm⟩ := run_matches env sts (matches_start (ι := ι) (κ := κ))
  rw [hm.allHeld_iff]
  exact (trace_spares env sts (Net.start, Value.Locals.null)).iff

end
end
end Snmppp
