import Snmppp.Program
/-!
# ProgramRun — what every program keeps

Whole runs, from a process that has just started, by every net-snmp.  The run on pointers and the run on values end
alike (`program_refines`), so no program reads, releases or shares memory it should not (`program_safe`), and what a
variable says changes only by statements that name it (`program_frame`).
-/
namespace Snmppp

open Arena (ofPtr Framed mem_ofPtr)

/-! ## Values cannot fault -/

namespace Value

open Run (NeverFaults)

variable (env : NetSnmp) (session : SessionHandle)

theorem ask_neverFaults {β : Type} (f : Nat → β) : NeverFaults (ask f) := fun _ h => by cases h

theorem emit_neverFaults (o : Outgoing) : NeverFaults (emit o) := fun _ h => by cases h

theorem onPdu_neverFaults {α : Type} {m : Method Pdu α} (hm : NeverFaults m) (v : Pdu) : NeverFaults (onPdu v m) :=
  fun x h => by
    unfold onPdu at h
    rcases hs : m (x, v) with ⟨e | a, t⟩ <;> simp only [hs] at h
    · rw [Except.error.injEq] at h
      exact hm (x, v) (by rw [hs, h])
    · cases h

theorem create_neverFaults (t : EType) : NeverFaults (create env t) :=
  .bind (ask_neverFaults _) (fun fields => by
    rcases fields with _ | ⟨_, _⟩
    · exact .throws _
    · exact .pure _)

theorem addVar_neverFaults (c : AddCall) : NeverFaults (addVar env c) := by
  unfold addVar
  split
  · exact .throws _
  · refine .bind .this (fun vs => .bind (.lift (ask_neverFaults _)) (fun added => ?_))
    split
    · exact .setThis _
    · exact .throws _

theorem onBody_neverFaults {add : Method Vars Unit} (hadd : NeverFaults add) : NeverFaults (onBody add) := by
  rintro ⟨x, v⟩ h
  cases hb : v.body with
  | none =>
    rw [onBody_null hb] at h
    cases h
  | some b =>
    rcases hs : add (x, b.vars) with ⟨e | _, t⟩
    · have he : e ≠ .fault := fun hc => hadd (x, b.vars) (by rw [hs, hc])
      by_cases hnil : b.vars = []
      · rw [onBody_begun hb hnil hs, Except.error.injEq] at h
        exact he h
      · rw [onBody_error hb hnil hs, Except.error.injEq] at h
        exact he h
    · rw [onBody_ok hb hs] at h
      cases h

theorem sync_neverFaults : NeverFaults (sync env session) := by
  have hthrows : NeverFaults (syncThrows env : Method Pdu Pdu) :=
    .bind (.lift (ask_neverFaults _)) (fun _ => .throws _)
  refine .bind .this (fun v => ?_)
  split
  · exact .throws _
  · refine .bind (.setThis _) (fun _ => ?_)
    split
    · exact .throws _
    · refine .bind (.lift (emit_neverFaults _)) (fun _ => .bind (.lift (ask_neverFaults _)) (fun reply => ?_))
      split
      · exact hthrows
      · split
        · exact .pure _
        · exact hthrows

theorem local_neverFaults {t : EType} {fill : Method Pdu Unit} {send : Method Pdu Pdu} (hfill : NeverFaults fill)
    (hsend : NeverFaults send) :
    NeverFaults (do
      let request ← create env t
      let filled ← onPdu request fill
      let response ← onPdu filled.2 send
      pure response.1) :=
  .bind (create_neverFaults env t) (fun _ => .bind (onPdu_neverFaults hfill _) (fun _ =>
    .bind (onPdu_neverFaults hsend _) (fun _ => .pure _)))

theorem requestOne_neverFaults (t : EType) (c : AddCall) : NeverFaults (requestOne env session t c) := by
  unfold requestOne
  split
  · exact .throws _
  · exact local_neverFaults env (onBody_neverFaults (addVar_neverFaults env c)) (sync_neverFaults env session)

theorem getSet_neverFaults (oids : SetOID) : NeverFaults (getSet env session oids) := by
  unfold getSet
  split
  · exact .throws _
  · exact local_neverFaults env (.each (fun o => onBody_neverFaults (addVar_neverFaults env (.addNullVar o))) _)
      (sync_neverFaults env session)

theorem getBulk_neverFaults (maxRepetitions nonRepeaters : Int) :
    NeverFaults (getBulk env session maxRepetitions nonRepeaters) := by
  have htarget : NeverFaults (getBulkTarget env) := by
    refine .bind .this (fun v => ?_)
    split
    · exact .pure _
    split
    · exact .throws _
    · exact .bind (.setThis _) (fun _ => .bind (.lift (create_neverFaults env _)) (fun _ => .bind (.setThis _) (fun _ =>
        onBody_neverFaults (.each (fun o => addVar_neverFaults env (.addNullVar o)) _))))
  refine .bind (.bind .this (fun v => ?_)) (fun _ => sync_neverFaults env session)
  split
  · exact .throws _
  · exact .bind htarget (fun _ => .bind .this (fun _ => .setThis _))

theorem entry_neverFaults (e : Entry) : NeverFaults (entry env session e) := by
  cases e with
  | sync | get | set => exact sync_neverFaults env session
  | getNext =>
    refine .bind .this (fun v => ?_)
    split
    · exact .throws _
    split
    · exact sync_neverFaults env session
    · exact .bind (.setThis _) (fun _ => .lift (requestOne_neverFaults env session _ _))
  | getBulk maxReps non => exact getBulk_neverFaults env session maxReps non

theorem query_neverFaults (q : Query) : NeverFaults (query env session q) := by
  cases q with
  | get o | getNext o | setBooleanVar o v | setIntegerVar o v | setInteger64Var o v | setGaugeVar o v
  | setOctetStringVar o v => exact requestOne_neverFaults env session _ _
  | getSet oids => exact getSet_neverFaults env session oids
  | getBulk o maxReps non =>
    exact local_neverFaults env (onBody_neverFaults (addVar_neverFaults env (.addNullVar o)))
      (getBulk_neverFaults env session maxReps non)

theorem sendV2Trap_neverFaults : NeverFaults (sendV2Trap env) := by
  refine .bind .this (fun vs => ?_)
  split
  · exact .throws _
  refine .bind (.setThis _) (fun _ => ?_)
  split
  · exact .throws _
  refine .bind (.lift (emit_neverFaults _)) (fun _ => .bind (.lift (ask_neverFaults _)) (fun rc => ?_))
  split
  · exact .pure _
  · exact .throws _

theorem sendV2TrapPdu_neverFaults : NeverFaults (sendV2TrapPdu env) := by
  refine .bind .this (fun v => .bind (.setThis _) (fun _ => ?_))
  split
  · exact .throws _
  · exact .bind (.lift (.on (sendV2Trap_neverFaults env))) (fun _ => .pure _)

theorem createV2TrapVarlist_neverFaults (o : OID) (uptime : Int64) :
    NeverFaults (createV2TrapVarlist env o uptime) := by
  unfold createV2TrapVarlist
  split
  · exact .throws _
  · exact .bind (ask_neverFaults _) (fun _ => .bind (ask_neverFaults _) (fun _ => .pure _))

theorem firstOID_neverFaults (v : Pdu) : NeverFaults (Look.firstOID.val v) := by
  by_cases hb : v.body = none
  · rw [Look.val, if_pos hb]
    exact .throws _
  rw [Look.val, if_neg hb]
  split
  · exact .throws _
  · exact .pure _

theorem look_neverFaults (q : Look) (v : Pdu) : NeverFaults (q.val v) := by
  cases q with
  | empty | size | contains o | index idx => exact .pure _
  | firstOID => exact firstOID_neverFaults v

theorem clone_fault_iff (v : Pdu) (x : Net) : (clone env v x).1 = .error .fault ↔ v.body = none := by
  cases hb : v.body with
  | none =>
    simp only [clone, hb, iff_true]
    rfl
  | some b =>
    simp only [clone, hb, reduceCtorEq, iff_false]
    refine Run.NeverFaults.bind (ask_neverFaults _) (fun copied => ?_) x
    split
    · exact .pure _
    · exact .pure _

section
variable {ι κ α : Type}

theorem Locals.onPdu_neverFaults [DecidableEq ι] {m : Method Pdu α} (hm : NeverFaults m) (i : ι) :
    NeverFaults (onPdu i m : Method (Locals ι κ) α) := fun s => hm (s.1, s.2.pdu i)

theorem Locals.onVl_neverFaults [DecidableEq κ] {m : Method Vars α} (hm : NeverFaults m) (k : κ) :
    NeverFaults (onVl k m : Method (Locals ι κ) α) := fun s => hm (s.1, s.2.vl k)

theorem Locals.setPdu_neverFaults [DecidableEq ι] (j : ι) (v : Pdu) :
    NeverFaults (setPdu j v : Method (Locals ι κ) Unit) := fun _ h => by cases h

theorem Locals.setVl_neverFaults [DecidableEq κ] (k : κ) (vs : Vars) :
    NeverFaults (setVl k vs : Method (Locals ι κ) Unit) := fun _ h => by cases h

/-- A statement that ends with nothing to tell. -/
theorem done_neverFaults {m : Method (Locals ι κ) Unit} (hm : NeverFaults m) :
    NeverFaults (do m; pure Seen.nothing) := .bind hm (fun _ => .pure _)

variable [DecidableEq ι] [DecidableEq κ]

theorem stmt_neverFaults (st : Stmt ι κ) (hne : ∀ i j, st ≠ .clone i j) : NeverFaults (st.val env) := by
  have hadds : ∀ os, NeverFaults (addNullVars env os) :=
    fun os => .each (fun o => addVar_neverFaults env (.addNullVar o)) os
  cases st with
  | clone i j => exact absurd rfl (hne i j)
  | construct j t =>
    exact .bind (.lift (create_neverFaults env t)) (fun v => done_neverFaults (Locals.setPdu_neverFaults j v))
  | free i => exact done_neverFaults (Locals.onPdu_neverFaults (.setThis _) i)
  | clear i => exact done_neverFaults (Locals.setPdu_neverFaults i _)
  | add i c => exact done_neverFaults (Locals.onPdu_neverFaults (onBody_neverFaults (addVar_neverFaults env c)) i)
  | addNullVars i c => exact done_neverFaults (Locals.onPdu_neverFaults (onBody_neverFaults (hadds _)) i)
  | setVarlist i k =>
    refine .bind .this (fun u => ?_)
    split
    · exact .throws _
    · exact .bind (Locals.onPdu_neverFaults (.setThis _) i)
        (fun _ => done_neverFaults (Locals.onVl_neverFaults (.setThis _) k))
  | entry e session i j =>
    exact .bind (Locals.onPdu_neverFaults (entry_neverFaults env session e) i)
      (fun v => done_neverFaults (Locals.setPdu_neverFaults j v))
  | query q session j =>
    exact .bind (.lift (query_neverFaults env session q)) (fun v => done_neverFaults (Locals.setPdu_neverFaults j v))
  | look i q => exact .bind .this (fun u => .lift (look_neverFaults q _))
  | sendPdu i => exact done_neverFaults (Locals.onPdu_neverFaults (sendV2TrapPdu_neverFaults env) i)
  | vlFree k => exact done_neverFaults (Locals.onVl_neverFaults (.setThis _) k)
  | vlClear k => exact done_neverFaults (Locals.setVl_neverFaults k _)
  | vlAdd k c => exact done_neverFaults (Locals.onVl_neverFaults (addVar_neverFaults env c) k)
  | vlAddNullVars k c => exact done_neverFaults (Locals.onVl_neverFaults (hadds _) k)
  | createTrap k o uptime =>
    exact .bind (.lift (createV2TrapVarlist_neverFaults env o uptime))
      (fun vs => done_neverFaults (Locals.setVl_neverFaults k vs))
  | sendVl k => exact done_neverFaults (Locals.onVl_neverFaults (sendV2Trap_neverFaults env) k)
  | sendOid o uptime =>
    exact done_neverFaults (.lift (.bind (createV2TrapVarlist_neverFaults env o uptime)
      (fun vs => .bind (.on (sendV2Trap_neverFaults env)) (fun _ => .pure _))))

/-- **Only the clone of a NULL PDU faults.** -/
theorem fault_iff (st : Stmt ι κ) (x : Net) (u : Locals ι κ) :
    (st.val env (x, u)).1 = .error .fault ↔ ∃ i j, st = .clone i j ∧ (u.pdu i).body = none := by
  by_cases hst : ∃ i j, st = .clone i j
  · obtain ⟨i, j, rfl⟩ := hst
    have hone : ((Stmt.clone i j : Stmt ι κ).val env (x, u)).1 = .error .fault ↔ (u.pdu i).body = none := by
      rw [← clone_fault_iff env (u.pdu i) x, Stmt.val, Run.this_bind]
      rcases hc : clone env (u.pdu i) x with ⟨e | v, x'⟩
      · rw [Run.bind_error (Run.lift_of hc u), Except.error.injEq, Except.error.injEq]
      · rw [Run.bind_ok (Run.lift_of hc u)]
        exact iff_of_false (fun h => by cases h) (fun h => by cases h)
    rw [hone]
    constructor
    · exact fun hb => ⟨i, j, rfl, hb⟩
    · rintro ⟨i', j', hst, hb⟩
      cases hst
      exact hb
  · have hne : ∀ i j, st ≠ .clone i j := fun i j h => hst ⟨i, j, h⟩
    exact iff_of_false (stmt_neverFaults env st hne (x, u)) (fun ⟨i, j, h, _⟩ => hne i j h)

end
end Value
/-! ## Whole runs -/

theorem matches_start {ι κ : Type} [Fintype ι] [Fintype κ] :
    Matches 0 (World.start, (Locals.null : Locals ι κ)) (Net.start, Value.Locals.null) := by
  have hmem : (Locals.null : Locals ι κ).mem World.start = 0 :=
    Finset.sum_eq_zero (fun n _ => by cases n <;> rfl)
  refine ⟨?_, fun n => by cases n <;> rfl⟩
  rw [hmem]
  exact ⟨rfl, rfl, 0, rfl, rfl, Framed.refl Arena.heldBy_empty, Framed.refl Arena.heldBy_empty⟩

section
variable {ι κ : Type} [DecidableEq ι] [DecidableEq κ] [Fintype ι] [Fintype κ] (env : NetSnmp)

/-- **A run and the run on its values.** -/
theorem run_matches (sts : List (Stmt ι κ)) {s : World × Locals ι κ} {y : Net × Value.Locals ι κ} (h : Matches 0 s y) :
    (Run.trace (sts.map (·.run env)) s).1 = (Run.trace (sts.map (·.val env)) y).1 ∧
      Matches 0 (Run.trace (sts.map (·.run env)) s).2 (Run.trace (sts.map (·.val env)) y).2 :=
  Run.Twin.trace (fun st _ _ h => st.twin env h) sts s y h

theorem Agree.body_iff {w₀ w : World} {F : Mem} {x : Net} {h : PDU} {v : Value.Pdu} (ha : Agree w₀ F (w, h) (x, v)) :
    v.body = none ↔ h.pdu = none := by
  rcases ha.cases with ⟨hp, rfl, -⟩ | ⟨p, d, vs, hp, -, -, rfl, -⟩
  · exact iff_of_true rfl hp
  · exact iff_of_false (by simp) (by rw [hp]; simp)

/-- The list a variable holds. -/
def Locals.listOf (w : World) (l : Locals ι κ) : ι ⊕ κ → Option VarPtr
  | .inl i => (l.pdu i).list w
  | .inr k => (l.vl k).varlist

/-- **Memory is where it should be**: every pointer of a variable is good, and no two variables have the same. -/
structure Separate (w : World) (l : Locals ι κ) : Prop where
  pdus  : ∀ i, (l.pdu i).Valid w
  lists : ∀ k, ∃ vs, w.vars (l.vl k).varlist = some vs
  own   : ∀ i j p, (l.pdu i).pdu = some p → (l.pdu j).pdu = some p → i = j
  apart : ∀ n m a, l.listOf w n = some a → l.listOf w m = some a → n = m

theorem Matches.separate {s : World × Locals ι κ} {y : Net × Value.Locals ι κ} (h : Matches 0 s y) :
    Separate s.1 s.2 := by
  obtain ⟨w, l⟩ := s
  obtain ⟨x, u⟩ := y
  show Separate w l
  have hmem : ∀ n a, l.listOf w n = some a → a ∈ (l.memAt w n).2 := fun n a ha => by
    cases n <;> exact mem_ofPtr.2 ha
  -- what one variable holds, no other does
  have hrest : ∀ n m, m ≠ n →
      (∀ p ∈ (l.memAt w n).1, p ∉ (l.memAt w m).1) ∧ ∀ a ∈ (l.memAt w n).2, a ∉ (l.memAt w m).2 :=
    fun n m hne => by
      have hf := h.focus n
      obtain ⟨o, ho⟩ := l.rest_eq w hne
      obtain ⟨lost, -, -, hfp, hfl⟩ := hf.mem
      have hp := hfp.held
      have hl := hfl.held
      rw [zero_add, ho, Prod.fst_add, add_assoc] at hp
      rw [zero_add, ho, Prod.snd_add, add_assoc] at hl
      refine ⟨fun p hpn hpm => hp.apart hpn ?_, fun a han ham => hl.apart han ?_⟩
      · exact Multiset.mem_add.2 (.inr (Multiset.mem_add.2 (.inl hpm)))
      · exact Multiset.mem_add.2 (.inr (Multiset.mem_add.2 (.inl ham)))
  refine ⟨fun i p hp => ?_, fun k => ⟨_, h.values (.inr k)⟩, fun i j p hi hj => ?_, fun n m a hn hm => ?_⟩
  · obtain ⟨d, vs, hd, hvs⟩ := Tracks.valid (m := 0) (by rw [add_zero]; exact (h.agree i).tracks) hp
    exact ⟨_, World.request_eq_some.2 ⟨d, vs, hd, hvs, rfl⟩⟩
  · by_contra hij
    exact (hrest (.inl i) (.inl j) (fun hc => hij (by cases hc; rfl))).1 p (mem_ofPtr.2 hi) (mem_ofPtr.2 hj)
  · by_contra hnm
    exact (hrest n m (fun hc => hnm hc.symm)).2 a (hmem n a hn) (hmem m a hm)

/-- **A statement faults when it clones a NULL PDU**, and at nothing else. -/
theorem Matches.fault_iff {s : World × Locals ι κ} {y : Net × Value.Locals ι κ} (h : Matches 0 s y) (st : Stmt ι κ) :
    (st.run env s).1 = .error .fault ↔ ∃ i j, st = .clone i j ∧ (s.2.pdu i).pdu = none := by
  obtain ⟨w, l⟩ := s
  obtain ⟨x, u⟩ := y
  have hbody : ∀ i, (u.pdu i).body = none ↔ (l.pdu i).pdu = none := fun i => (h.agree i).body_iff
  have hval := Value.fault_iff env st x u
  simp only [hbody] at hval
  rw [← hval]
  rcases (st.twin env h).cases with ⟨a, b, s', y', hrun, hsees, -⟩ | ⟨e, s', y', hrun, hsees, -⟩ <;> rw [hrun, hsees]
  exact iff_of_false (fun h => by cases h) (fun h => by cases h)

/-- **A program over PDUs and variable lists cannot be told from the same program over values**: every statement ends
alike, with the same result or the same exception; the same calls are made and the same messages go out; and after every
statement each variable says its value. -/
theorem program_refines (sts : List (Stmt ι κ)) :
    let s := Run.trace (sts.map (·.run env)) (World.start, (Locals.null : Locals ι κ))
    let y := Run.trace (sts.map (·.val env)) (Net.start, (Value.Locals.null : Value.Locals ι κ))
    s.1 = y.1 ∧ s.2.1.calls = y.2.1.calls ∧ s.2.1.out = y.2.1.out ∧
      (∀ i, (s.2.2.pdu i).val s.2.1 = y.2.2.pdu i) ∧
      ∀ k, s.2.1.vars (s.2.2.vl k).varlist = some (y.2.2.vl k) := by
  intro s y
  obtain ⟨hends, hm⟩ := run_matches env sts matches_start
  exact ⟨hends, hm.tracks.calls, hm.tracks.out, fun i => hm.values (.inl i), fun k => hm.values (.inr k)⟩

/-- **No program misuses memory.**  After every run the pointers of all variables are good and no two variables share a
PDU or a list, and the next statement faults exactly when it clones a NULL PDU. -/
theorem program_safe (sts : List (Stmt ι κ)) :
    let s := (Run.trace (sts.map (·.run env)) (World.start, (Locals.null : Locals ι κ))).2
    Separate s.1 s.2 ∧
      ∀ st : Stmt ι κ, (st.run env s).1 = .error .fault ↔ ∃ i j, st = .clone i j ∧ (s.2.pdu i).pdu = none := by
  intro s
  obtain ⟨-, hm⟩ := run_matches env sts (matches_start (ι := ι) (κ := κ))
  exact ⟨hm.separate, hm.fault_iff env⟩

end

/-! ## What a statement leaves alone -/

section
variable {ι κ : Type}

/-- The variables a statement may change. -/
def Stmt.changes : Stmt ι κ → List (ι ⊕ κ)
  | .construct j _ | .clone _ j | .query _ _ j                                          => [.inl j]
  | .free i | .clear i | .add i _ | .addNullVars i _ | .sendPdu i                       => [.inl i]
  | .setVarlist i k                                                                     => [.inl i, .inr k]
  | .entry _ _ i j                                                                      => [.inl i, .inl j]
  | .vlFree k | .vlClear k | .vlAdd k _ | .vlAddNullVars k _ | .createTrap k _ _ | .sendVl k => [.inr k]
  | .look _ _ | .sendOid _ _                                                            => []

/-- The value of a variable. -/
def Value.Locals.at (u : Value.Locals ι κ) : ι ⊕ κ → Value.Pdu ⊕ Value.Vars
  | .inl i => .inl (u.pdu i)
  | .inr k => .inr (u.vl k)

/-- What a variable says, when its pointers are good. -/
def Locals.reads (w : World) (l : Locals ι κ) : ι ⊕ κ → Option (Value.Pdu ⊕ Value.Vars)
  | .inl i => some (.inl ((l.pdu i).val w))
  | .inr k => (w.vars (l.vl k).varlist).map .inr

namespace Value

variable {α β : Type} {n : ι ⊕ κ}

/-- The variable `n` is left alone. -/
abbrev Untouched (n : ι ⊕ κ) (m : Method (Locals ι κ) α) : Prop := m.Keeps (fun s => s.2.at n)

namespace Untouched

theorem lift (m : Func α) : Untouched n (Run.lift m : Method (Locals ι κ) α) := fun _ => rfl

theorem done {m : Method (Locals ι κ) Unit} (hm : Untouched n m) : Untouched n (do m; pure Seen.nothing) :=
  hm.bind (fun _ => .pure _)

theorem onPdu [DecidableEq ι] {i : ι} (m : Method Pdu α) (hn : n ≠ .inl i) :
    Untouched n (Locals.onPdu i m : Method (Locals ι κ) α) := fun s => by
  cases n with
  | inl j => exact congrArg Sum.inl (Function.update_of_ne (fun hc => hn (by rw [hc])) _ _)
  | inr k => rfl

theorem onVl [DecidableEq κ] {k : κ} (m : Method Vars α) (hn : n ≠ .inr k) :
    Untouched n (Locals.onVl k m : Method (Locals ι κ) α) := fun s => by
  cases n with
  | inl i => rfl
  | inr j => exact congrArg Sum.inr (Function.update_of_ne (fun hc => hn (by rw [hc])) _ _)

theorem setPdu [DecidableEq ι] {j : ι} (v : Pdu) (hn : n ≠ .inl j) :
    Untouched n (Locals.setPdu j v : Method (Locals ι κ) Unit) := fun s => by
  cases n with
  | inl i => exact congrArg Sum.inl (Function.update_of_ne (fun hc => hn (by rw [hc])) _ _)
  | inr k => rfl

theorem setVl [DecidableEq κ] {k : κ} (vs : Vars) (hn : n ≠ .inr k) :
    Untouched n (Locals.setVl k vs : Method (Locals ι κ) Unit) := fun s => by
  cases n with
  | inl i => rfl
  | inr j => exact congrArg Sum.inr (Function.update_of_ne (fun hc => hn (by rw [hc])) _ _)

end Untouched

variable [DecidableEq ι] [DecidableEq κ] (env : NetSnmp)

/-- **A statement leaves alone what it does not name.** -/
theorem stmt_untouched (st : Stmt ι κ) (hn : n ∉ st.changes) : Untouched n (st.val env) := by
  have hne : ∀ {m : ι ⊕ κ}, m ∈ st.changes → n ≠ m := fun hm hc => hn (hc ▸ hm)
  cases st with
  | construct j t | query q session j =>
    exact .bind (Untouched.lift _) (fun v => Untouched.done (Untouched.setPdu v (hne (by simp [Stmt.changes]))))
  | clone i j =>
    exact .bind .this (fun u => .bind (Untouched.lift _) (fun v =>
      Untouched.done (Untouched.setPdu v (hne (by simp [Stmt.changes])))))
  | free i | add i c | addNullVars i c | sendPdu i =>
    exact Untouched.done (Untouched.onPdu _ (hne (by simp [Stmt.changes])))
  | clear i => exact Untouched.done (Untouched.setPdu _ (hne (by simp [Stmt.changes])))
  | setVarlist i k =>
    refine .bind .this (fun u => ?_)
    split
    · exact .throws _
    · exact .bind (Untouched.onPdu _ (hne (by simp [Stmt.changes])))
        (fun _ => Untouched.done (Untouched.onVl _ (hne (by simp [Stmt.changes]))))
  | entry e session i j =>
    exact .bind (Untouched.onPdu _ (hne (by simp [Stmt.changes])))
      (fun v => Untouched.done (Untouched.setPdu v (hne (by simp [Stmt.changes]))))
  | look i q => exact .bind .this (fun u => Untouched.lift _)
  | vlFree k | vlAdd k c | vlAddNullVars k c | sendVl k =>
    exact Untouched.done (Untouched.onVl _ (hne (by simp [Stmt.changes])))
  | vlClear k => exact Untouched.done (Untouched.setVl _ (hne (by simp [Stmt.changes])))
  | createTrap k o uptime =>
    exact .bind (Untouched.lift _) (fun vs => Untouched.done (Untouched.setVl vs (hne (by simp [Stmt.changes]))))
  | sendOid o uptime => exact Untouched.done (Untouched.lift _)

end Value

theorem Matches.reads_eq [Fintype ι] [Fintype κ] {s : World × Locals ι κ} {y : Net × Value.Locals ι κ}
    (h : Matches 0 s y) (n : ι ⊕ κ) :
    s.2.reads s.1 n = some (y.2.at n) := by
  cases n with
  | inl i => exact congrArg (fun v => some (Sum.inl v)) (h.values (.inl i))
  | inr k =>
    have hvars : s.1.vars (s.2.vl k).varlist = some (y.2.vl k) := h.values (.inr k)
    rw [Locals.reads, hvars]
    rfl

section
variable [DecidableEq ι] [DecidableEq κ] [Fintype ι] [Fintype κ] (env : NetSnmp)

/-- **What a variable says changes only by statements that name it**: whatever else a program builds, sends, receives,
overwrites and releases, and whatever that throws. -/
theorem program_frame (pre sts : List (Stmt ι κ)) (n : ι ⊕ κ) (hn : ∀ st ∈ sts, n ∉ st.changes) :
    let s := (Run.trace (pre.map (·.run env)) (World.start, (Locals.null : Locals ι κ))).2
    let s' := (Run.trace (sts.map (·.run env)) s).2
    s'.2.reads s'.1 n = s.2.reads s.1 n := by
  intro s s'
  obtain ⟨-, hm⟩ := run_matches env pre (matches_start (ι := ι) (κ := κ))
  obtain ⟨-, hm'⟩ := run_matches env sts hm
  rw [hm.reads_eq n, hm'.reads_eq n, Run.Keeps.trace sts _ (fun st hst => Value.stmt_untouched env st (hn st hst))]

/-- A clone that is filled and sent: the original still says what it said. -/
theorem program_frame_clone :
    let env := NetSnmp.working (fun _ => .timeout)
    let pre : List (Stmt (Fin 3) (Fin 1)) := [.construct 0 kSet, .add 0 (.addIntegerVar ⟨[1, 3]⟩ 5)]
    let sts : List (Stmt (Fin 3) (Fin 1)) :=
      [.clone 0 1, .add 1 (.addIntegerVar ⟨[1, 4]⟩ 6), .entry .set (some 7) 1 2, .clear 2]
    let s := (Run.trace (pre.map (·.run env)) (World.start, Locals.null)).2
    let s' := (Run.trace (sts.map (·.run env)) s).2
    s'.2.reads s'.1 (.inl 0) = s.2.reads s.1 (.inl 0) :=
  program_frame (NetSnmp.working (fun _ => .timeout)) _ _ (.inl 0) (by simp [Stmt.changes])

end
end
end Snmppp
