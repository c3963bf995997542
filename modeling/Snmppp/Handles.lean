import Snmppp.Tag
import Snmppp.Trap
import Snmppp.Release
import Mathlib.Logic.Function.Basic
/-!
# Handles — programs over many PDU handles

The requests, by the rules of `Tag`: what a request goes out as is what the tag of its handle says.  Then a program with
any number of handles, none of which it copies: in every state it can reach, exceptions included, all tags are right
(`Reachable.held`), so `getNext` sends GETNEXT requests only and `getBulk` GETBULK requests only.
-/
namespace Snmppp

/-! ## Requests -/

section
variable (env : NetSnmp) (session : SessionHandle) {C : Int → Prop} {own : Option PduPtr} {w₀ w w' : World} {h : PDU}

theorem Returns.after {r : PDU} (hk : Keeps C own w₀ w) (hr : Returns C none w r w') : Returns C own w₀ r w' where
  keeps  := hk.trans hr.keeps (fun _ hp => by cases hp)
  tagged := hr.tagged
  new    := fun p hp => Nat.le_trans hk.next (hr.new p hp)

theorem Returns.runs {r : PDU} (hr : Returns C own w₀ r w) : Runs C own w₀ (w, r) :=
  ⟨hr.keeps, hr.tagged, fun p hp => .inr (hr.new p hp)⟩

theorem PDU.create_leaves (t : EType) :
    (PDU.create env t).Leaves w (fun r s => Returns C none w r s ∧ r.type = t) (fun _ s => Keeps C none w s) := by
  unfold PDU.create
  refine .bind (snmpPduCreate_leaves env (.throws (.of_eq rfl rfl)) (fun d w' hc hpdus hlog => ?_))
  refine .pure ⟨⟨.alloc hpdus hlog rfl, ⟨fun hp => (by cases hp), fun p hp => ?_⟩, fun p hp => ?_⟩, rfl⟩ <;> cases hp
  · exact ⟨d, by rw [hpdus, Arena.cell_alloc_next], hc⟩
  · exact Nat.le_refl _

theorem PDU.clone_leaves :
    (h.clone env).Leaves w (fun r s => Returns C none w r s) (fun _ s => Keeps C none w s) := by
  unfold PDU.clone
  refine .bind (snmpClonePdu_leaves env .refl ?_ (fun d w' hpdus hlog => ?_))
  · exact PDU.inherit_leaves (.of_eq rfl rfl) (fun r ht hp =>
      ⟨.of_eq rfl rfl, ht, fun q hq => by rw [hp] at hq; cases hq⟩)
  · have hkeeps : Keeps C none w w' := .alloc hpdus (hlog.trans (List.append_nil _).symm) rfl
    refine PDU.inherit_leaves hkeeps (fun r ht hp => ⟨hkeeps, ht, fun q hq => ?_⟩)
    rw [hp] at hq
    cases hq
    exact Nat.le_refl _

/-- **`sync` sends its object's PDU under the command its tag says.** -/
theorem sync_runs (hr : Runs C own w₀ (w, h)) (hC : ∀ p, h.pdu = some p → C h.type) :
    (sync env session).Leaves (w, h) (fun r s => Runs C own w₀ s ∧ s.2 = PDU.null ∧ Returns C own w₀ r s.1)
      (fun _ s => Runs C own w₀ s) := by
  unfold sync
  refine .bind (.this ?_)
  split
  · exact .throws hr
  rename_i p hp
  split
  · exact .bind (PDU.free_leaves hr hr (fun w' hs => .throws hs))
  have hcommand : ∀ r, w.request p = some r → C r.command := fun r hreq => by
    obtain ⟨d, _, hd, -, hrd⟩ := World.request_eq_some.1 hreq
    obtain ⟨d', hd', hc⟩ := hr.tagged.real p hp
    rw [hd, Option.some.injEq] at hd'
    rw [hrd, hd', hc]
    exact hC p hp
  refine .bind (.lift (snmpSessSynchResponse_leaves env hr (fun r status hreq => ?_) (fun r status a hreq => ?_))) <;>
    have hgone : Runs C own w₀ (w.handed p r, PDU.null) :=
      hr.drop (.handed (hcommand r hreq)) (fun q hq => by cases hq; exact .inl hp) <;>
    refine .bind (.setThis (.bind (.lift ?_)))
  · have hasked : Runs C own w₀ ((w.handed p r).tick, PDU.null) := hgone.of_quiet (.of_eq rfl rfl)
    exact .pure (.bind (.lift (snmpSessError_leaves env (fun _ => .bind (.lift (.pure (.throws hasked)))))))
  · have hback : Runs C own w₀ ((w.handed p r).deliver a, PDU.null) := hgone.frame (.deliver _ a)
    have hnext : w₀.pdus.next ≤ w.pdus.next := hr.keeps.next
    refine .bind (deref_leaves hback (fun d hd => .pure ?_))
    split
    · have hasked : Runs C own w₀ (((w.handed p r).deliver a).tick, PDU.null) := hback.of_quiet (.of_eq rfl rfl)
      have hfreed : Runs C own w₀ ((((w.handed p r).deliver a).tick).freePdu w.pdus.next, PDU.null) :=
        .null (hasked.keeps.trans (.freePdu _ _) (fun q hq => by cases hq; exact .inr hnext))
      refine .bind (.lift (snmpSessError_leaves env (fun _ => .bind (.lift ?_))))
      exact snmpFreePdu_leaves hasked (fun hc => by cases hc) (fun q hq => by cases hq; exact .throws hfreed)
    · refine .lift (PDU.inherit_leaves hback (fun q ht hq => ⟨hback, rfl, hback.keeps, ht, fun a ha => ?_⟩))
      rw [hq] at ha
      cases ha
      exact hnext

theorem local_leaves {t : EType} {m : Method PDU Unit} {send : Method PDU PDU}
    (hm : ∀ w h, Runs C none w₀ (w, h) →
      m.Leaves (w, h) (fun _ s => Runs C none w₀ s ∧ s.2 = h) (fun _ s => Runs C none w₀ s ∧ s.2 = h))
    (hsend : ∀ w h, Runs C none w₀ (w, h) → h.type = t →
      send.Leaves (w, h) (fun r s => Runs C none w₀ s ∧ Returns C none w₀ r s.1) (fun _ s => Runs C none w₀ s)) :
    (do
      let request ← PDU.create env t
      let filled ← Run.on request m
      let response ← Run.on filled.2 send
      pure response.1 : Snmp PDU).Leaves w₀ (fun r s => Returns C none w₀ r s) (fun _ s => Keeps C none w₀ s) := by
  refine .bind ((PDU.create_leaves env t).imp (fun q w hq => ?_) (fun _ _ hs => hs))
  obtain ⟨hq, ht⟩ := hq
  refine .bind (.on ((hm w q hq.runs).imp (fun _ s hs => ?_) (fun _ _ hs => hs.1.keeps)))
  obtain ⟨hs, hsame⟩ := hs
  refine .bind (.on ((hsend s.1 s.2 hs (by rw [hsame, ht])).imp (fun r s hs => ?_) (fun _ _ hs => hs.keeps)))
  exact .pure hs.2

theorem requestOne_leaves {t : EType} (hC : C t) (o : OID) {add : Method Varlist Unit} (hadd : QuietMethod add) :
    (requestOne env session t o (PDU.addVia add)).Leaves w₀ (fun r s => Returns C none w₀ r s)
      (fun _ s => Keeps C none w₀ s) := by
  unfold requestOne
  split
  · exact .throws .refl
  · refine local_leaves env (fun w h hr => PDU.addVia_runs hadd hr) (fun w h hr ht => ?_)
    exact (sync_runs env session hr (fun _ _ => by rw [ht]; exact hC)).imp (fun _ _ hs => ⟨hs.1, hs.2.2⟩)
      (fun _ _ hs => hs)

theorem getSet_leaves (hC : C kGet) (oids : SetOID) :
    (getSet env session oids).Leaves w₀ (fun r s => Returns C none w₀ r s) (fun _ s => Keeps C none w₀ s) := by
  unfold getSet
  split
  · exact .throws .refl
  · refine local_leaves env (fun w h hr => ?_) (fun w h hr ht => ?_)
    · refine Run.Leaves.each (I := fun s => Runs C none w₀ s ∧ s.2 = h) (fun o s hs => ?_) oids.elems (w, h) ⟨hr, rfl⟩
      exact (PDU.addVia_runs (Varlist.addVar_quiet env o ASN_NULL []) hs.1).imp
        (fun _ _ ht => ⟨ht.1, ht.2.trans hs.2⟩) (fun _ _ ht => ⟨ht.1, ht.2.trans hs.2⟩)
    · exact (sync_runs env session hr (fun _ _ => by rw [ht]; exact hC)).imp (fun _ _ hs => ⟨hs.1, hs.2.2⟩)
        (fun _ _ hs => hs)

/-- **`getNext` sends GETNEXT requests, whatever it is called on.** -/
theorem getNext_runs (hC : C kGetNext) (hr : Runs C own w₀ (w, h)) :
    (getNext env session).Leaves (w, h) (fun r s => Runs C own w₀ s ∧ s.2 = PDU.null ∧ Returns C own w₀ r s.1)
      (fun _ s => Runs C own w₀ s) := by
  unfold getNext
  refine .bind (.this (.bind (.lift (PDU.empty_leaves hr (fun e => ?_)))))
  split
  · exact .throws hr
  split
  · rename_i ht
    exact sync_runs env session hr (fun _ _ => by rw [ht]; exact hC)
  refine .bind (.lift (PDU.varlist_leaves (fun vl => .bind (.lift (chain_leaves hr (fun c => ?_)))) (fun _ => hr)))
  refine .bind (PDU.free_leaves hr hr (fun w₁ hs => ?_))
  refine .lift ((requestOne_leaves env session hC _ (Varlist.addVar_quiet env _ ASN_NULL [])).imp
    (fun r w' hr' => ?_) (fun _ w' hk => hs.frame hk))
  exact ⟨hs.frame hr'.keeps, rfl, .after hs.keeps hr'⟩

theorem getBulkTarget_runs (hr : Runs C own w₀ (w, h)) :
    (getBulkTarget env).Leaves (w, h) (fun _ s => Runs C own w₀ s ∧ s.2.type = kGetBulk)
      (fun _ s => Runs C own w₀ s) := by
  unfold getBulkTarget
  refine .bind (.this ?_)
  split
  · unfold getBulkRebuild
    refine .bind (.this (.bind (.lift (PDU.varlist_leaves (fun vl => ?_) (fun _ => hr)))))
    refine .bind (.lift (chain_leaves hr (fun c => ?_)))
    refine .bind (PDU.free_leaves hr hr (fun w₁ hs => ?_))
    refine .bind (.lift ((PDU.create_leaves env kGetBulk).imp (fun q w' hq => ?_) (fun _ _ hk => hs.frame hk)))
    have hnew : Runs C own w₀ (w', q) := (hq.1.after hs.keeps).runs
    refine .bind (.setThis (.bind ?_))
    refine (PDU.addVia_runs (Varlist.each_addNullVar_quiet env _) hnew).imp (fun _ s' hs' => ?_) (fun _ _ hs' => hs'.1)
    exact .bind (.this (.pure ⟨hs'.1, by rw [hs'.2, hq.2]⟩))
  · rename_i ht
    exact .pure ⟨hr, not_not.1 ht⟩

/-- **`getBulk` sends GETBULK requests, whatever it is called on.** -/
theorem getBulk_runs (hC : C kGetBulk) (hr : Runs C own w₀ (w, h)) (maxRepetitions nonRepeaters : Int) :
    (getBulk env session maxRepetitions nonRepeaters).Leaves (w, h)
      (fun r s => Runs C own w₀ s ∧ s.2 = PDU.null ∧ Returns C own w₀ r s.1) (fun _ s => Runs C own w₀ s) := by
  unfold getBulk getBulkRequest
  refine .bind (.bind (.this ?_))
  split
  · exact .throws hr
  refine .bind ((getBulkTarget_runs env hr).imp (fun p s hs => ?_) (fun _ _ hs => hs))
  obtain ⟨hs, ht⟩ := hs
  split
  · exact .faults hs
  · refine .lift (assign_leaves hs (fun d hd => ?_))
    exact sync_runs env session (hs.frame (.setPdu hd rfl)) (fun _ _ => by rw [ht]; exact hC)

theorem getBulkOid_leaves (hC : C kGetBulk) (o : OID) (maxRepetitions nonRepeaters : Int) :
    (getBulkOid env session o maxRepetitions nonRepeaters).Leaves w₀ (fun r s => Returns C none w₀ r s)
      (fun _ s => Keeps C none w₀ s) :=
  local_leaves env (fun _ _ hr => PDU.addVia_runs (Varlist.addVar_quiet env o ASN_NULL []) hr) (fun _ _ hr _ =>
    (getBulk_runs env session hC hr maxRepetitions nonRepeaters).imp (fun _ _ hs => ⟨hs.1, hs.2.2⟩) (fun _ _ hs => hs))

theorem sendV2TrapPdu_runs (hr : Runs C own w₀ (w, h)) :
    (sendV2TrapPdu env).Leaves (w, h) (fun _ s => Runs C own w₀ s) (fun _ s => Runs C own w₀ s) := by
  unfold sendV2TrapPdu
  refine .bind (.this (.bind (.lift (PDU.empty_leaves hr (fun e => ?_)))))
  split
  · exact .bind (PDU.free_leaves hr hr (fun w' hs => .throws hs))
  split
  · exact .faults hr
  refine .bind (.lift (deref_leaves hr (fun d _ => .bind (.lift (assign_leaves hr (fun d' hd' => ?_))))))
  have hstolen : Runs C own w₀ (w.setPdu _ { d' with variableList := none }, h) := hr.frame (.setPdu hd' rfl)
  refine .bind (PDU.free_leaves hstolen hstolen (fun w₁ hs => ?_))
  refine .bind (.lift (.on ((sendV2Trap_quiet env w₁ _).imp (fun _ s' hq => ?_) (fun _ s' hq => hs.of_quiet hq))))
  exact .pure (hs.of_quiet hq)

end

def Entry.command (h : PDU) : Entry → Int
  | sync | get | set => h.type
  | getNext          => kGetNext
  | getBulk _ _      => kGetBulk

def Query.command : Query → Int
  | get _ | getSet _  => kGet
  | getNext _         => kGetNext
  | getBulk _ _ _     => kGetBulk
  | setBooleanVar _ _ | setIntegerVar _ _ | setInteger64Var _ _ | setGaugeVar _ _ | setOctetStringVar _ _ => kSet

section
variable (env : NetSnmp) (session : SessionHandle) {C : Int → Prop} {own : Option PduPtr} {w₀ w : World} {h : PDU}

theorem Entry.run_runs (e : Entry) (hr : Runs C own w₀ (w, h)) (hC : C (e.command h)) :
    (e.run env session).Leaves (w, h) (fun r s => Runs C own w₀ s ∧ s.2 = PDU.null ∧ Returns C own w₀ r s.1)
      (fun _ s => Runs C own w₀ s) := by
  cases e with
  | sync | get | set => exact sync_runs env session hr (fun _ _ => hC)
  | getNext => exact getNext_runs env session hC hr
  | getBulk maxReps non => exact getBulk_runs env session hC hr maxReps non

theorem Query.run_leaves (q : Query) (hC : C q.command) :
    (q.run env session).Leaves w (fun r s => Returns C none w r s) (fun _ s => Keeps C none w s) := by
  cases q with
  | get o | getNext o => exact requestOne_leaves env session hC o (Varlist.addVar_quiet env o ASN_NULL [])
  | getSet oids => exact getSet_leaves env session hC oids
  | getBulk o maxReps non => exact getBulkOid_leaves env session hC o maxReps non
  | setBooleanVar o v | setIntegerVar o v | setInteger64Var o v | setGaugeVar o v | setOctetStringVar o v =>
    exact requestOne_leaves env session hC o (Varlist.addVar_quiet env o _ _)

end

/-! ## Programs -/

/-- The handles of a program by number; a number not in use holds nothing. -/
abbrev Handles := Nat → PDU

def onHandle {α : Type} (i : Nat) (m : Method PDU α) : Method Handles α := fun s =>
  let r := m (s.1, s.2 i)
  (r.1, (r.2.1, Function.update s.2 i r.2.2))

def moveTo (j : Nat) (q : PDU) : Method Handles Unit := do
  let hs ← Run.this
  Run.setThis (Function.update hs j q)

inductive Op where
  | construct (i : Nat) (t : EType)
  | inherit (i : Nat) (p : Option PduPtr)
  | free (i : Nat)
  | clear (i : Nat)
  | clone (i j : Nat)
  | setVarlist (i : Nat) (vl : Option VarPtr)
  | add (i : Nat) (c : AddCall)
  | addNullVarsSet (i : Nat) (s : SetOID)
  | addNullVarsVec (i : Nat) (v : VecOID)
  | entry (e : Entry) (session : SessionHandle) (i j : Nat)
  | query (q : Query) (session : SessionHandle) (j : Nat)
  | sendV2Trap (i : Nat)

namespace Op

/-- The result of a call, if there is one, goes to handle `j`. -/
def run (env : NetSnmp) : Op → Method Handles Unit
  | construct i t       => do moveTo i (← Run.lift (PDU.create env t))
  | inherit i p         => do moveTo i (← Run.lift (PDU.inherit p))
  | free i              => onHandle i PDU.free
  | clear i             => onHandle i PDU.clear
  | clone i j           => do
    let hs ← Run.this
    moveTo j (← Run.lift ((hs i).clone env))
  | setVarlist i vl     => onHandle i (PDU.setVarlist vl)
  | add i c             => onHandle i (c.onPdu env)
  | addNullVarsSet i s  => onHandle i (PDU.addNullVarsSet env s)
  | addNullVarsVec i v  => onHandle i (PDU.addNullVarsVec env v)
  | entry e session i j => do moveTo j (← onHandle i (e.run env session))
  | query q session j   => do moveTo j (← Run.lift (q.run env session))
  | sendV2Trap i        => onHandle i (sendV2TrapPdu env)

/-- No handle is made a copy of another: a pointer inherited is not one that a handle has. -/
def NoCopy (hs : Handles) : Op → Prop
  | inherit _ p => ∀ i q, (hs i).pdu = some q → p ≠ some q
  | _           => True

end Op

/-- **The states a program reaches**, however its operations end.  Between them the rest of the world may make PDUs, use
their lists, and change them in any way but their command. -/
inductive Reachable (env : NetSnmp) : World × Handles → Prop where
  | start (w : World) : Reachable env (w, fun _ => PDU.null)
  | step {s : World × Handles} (op : Op) : Reachable env s → op.NoCopy s.2 → Reachable env (op.run env s).2
  | world {w w' : World} {hs : Handles} : Reachable env (w, hs) → Keeps (fun _ => True) none w w' →
      Reachable env (w', hs)

/-- **All tags are right, and no two handles have the same PDU.** -/
structure Held (w : World) (hs : Handles) : Prop where
  tagged : ∀ i, Tagged w (hs i)
  apart  : ∀ i j p, (hs i).pdu = some p → (hs j).pdu = some p → i = j

namespace Held

variable {C : Int → Prop} {own : Option PduPtr} {w w' : World} {hs hs' : Handles} {i : Nat} {h' : PDU}

theorem start (w : World) : Held w (fun _ => PDU.null) := ⟨fun _ => .of_null w, fun _ _ _ hp => by cases hp⟩

theorem frame (hheld : Held w hs) (hk : Keeps C none w w') : Held w' hs :=
  ⟨fun k => ((Runs.start (hheld.tagged k)).frame hk).tagged, hheld.apart⟩

theorem lt_next (hheld : Held w hs) {k : Nat} {p : PduPtr} (hp : (hs k).pdu = some p) : p < w.pdus.next := by
  obtain ⟨d, hd, -⟩ := (hheld.tagged k).real p hp
  exact w.pdus.lt_next_of_cell hd

theorem update (hother : ∀ k, k ≠ i → Tagged w (hs k))
    (hapart : ∀ k l p, (hs k).pdu = some p → (hs l).pdu = some p → k = l) (ht : Tagged w h')
    (hne : ∀ k p, k ≠ i → h'.pdu = some p → (hs k).pdu ≠ some p) : Held w (Function.update hs i h') where
  tagged := fun k => by
    by_cases hk : k = i
    · rw [hk, Function.update_self]
      exact ht
    · rw [Function.update_of_ne hk]
      exact hother k hk
  apart  := fun k l p => by
    by_cases hk : k = i <;> by_cases hl : l = i
    · exact fun _ _ => hk.trans hl.symm
    · rw [hk, Function.update_self, Function.update_of_ne hl]
      exact fun hkp hlp => absurd hlp (hne l p hl hkp)
    · rw [hl, Function.update_self, Function.update_of_ne hk]
      exact fun hkp hlp => absurd hkp (hne k p hk hlp)
    · rw [Function.update_of_ne hk, Function.update_of_ne hl]
      exact hapart k l p

theorem runs (hheld : Held w hs) (hr : Runs C (hs i).pdu w (w', h')) : Held w' (Function.update hs i h') := by
  refine .update (fun k hk => ⟨(hheld.tagged k).null, fun p hp => ?_⟩) hheld.apart hr.tagged (fun k p hk hp hkp => ?_)
  · obtain ⟨d, hd, hc⟩ := (hheld.tagged k).real p hp
    obtain ⟨d', hd', hc'⟩ := hr.keeps.old p d hd (fun hi => hk (hheld.apart k i p hp hi))
    exact ⟨d', hd', hc'.trans hc⟩
  · rcases hr.place p hp with hi | hnew
    · exact hk (hheld.apart k i p hkp hi)
    · exact absurd (hheld.lt_next hkp) (Nat.not_lt.2 hnew)

theorem returns (hheld : Held w hs) (hheld' : Held w' hs') (hr : Returns C own w h' w')
    (hsub : ∀ k p, (hs' k).pdu = some p → (hs k).pdu = some p) : Held w' (Function.update hs' i h') :=
  .update (fun k _ => hheld'.tagged k) hheld'.apart hr.tagged (fun k p _ hp hkp =>
    absurd (hheld.lt_next (hsub k p hkp)) (Nat.not_lt.2 (hr.new p hp)))

end Held

theorem onHandle_leaves {α : Type} {i : Nat} {m : Method PDU α} {w : World} {hs : Handles}
    {Q : α → World × Handles → Prop} {E : Stop Exc → World × Handles → Prop}
    (h : m.Leaves (w, hs i) (fun a s => Q a (s.1, Function.update hs i s.2))
      (fun e s => E e (s.1, Function.update hs i s.2))) : (onHandle i m).Leaves (w, hs) Q E := by
  unfold Run.Leaves at h ⊢
  unfold onHandle
  rcases hm : m (w, hs i) with ⟨e | a, t⟩ <;> rw [hm] at h <;> exact h

theorem moveTo_leaves {j : Nat} {q : PDU} {w : World} {hs : Handles} {Q : Unit → World × Handles → Prop}
    {E : Stop Exc → World × Handles → Prop} (h : Q () (w, Function.update hs j q)) : (moveTo j q).Leaves (w, hs) Q E :=
  .bind (.this (.setThis h))

section
variable (env : NetSnmp) {w : World} {hs : Handles}

theorem onHandle_held {i : Nat} {m : Method PDU Unit} (hheld : Held w hs)
    (hm : m.Leaves (w, hs i) (fun _ s => Runs (fun _ => True) (hs i).pdu w s)
      (fun _ s => Runs (fun _ => True) (hs i).pdu w s)) :
    (onHandle i m).Leaves (w, hs) (fun _ s => Held s.1 s.2) (fun _ s => Held s.1 s.2) :=
  onHandle_leaves (hm.imp (fun _ _ hr => hheld.runs hr) (fun _ _ hr => hheld.runs hr))

theorem addVia_held {i : Nat} {add : Method Varlist Unit} (hheld : Held w hs) (hadd : QuietMethod add) :
    (onHandle i (PDU.addVia add)).Leaves (w, hs) (fun _ s => Held s.1 s.2) (fun _ s => Held s.1 s.2) :=
  onHandle_held hheld ((PDU.addVia_runs hadd (.start (hheld.tagged i))).imp (fun _ _ hr => hr.1) (fun _ _ hr => hr.1))

theorem moveTo_held {j : Nat} {m : Snmp PDU} (hheld : Held w hs)
    (hm : m.Leaves w (fun r w' => Returns (fun _ => True) none w r w') (fun _ w' => Keeps (fun _ => True) none w w')) :
    (do moveTo j (← Run.lift m) : Method Handles Unit).Leaves (w, hs) (fun _ s => Held s.1 s.2)
      (fun _ s => Held s.1 s.2) := by
  refine .bind (.lift (hm.imp (fun r w' hr => moveTo_leaves ?_) (fun _ w' hk => hheld.frame hk)))
  exact hheld.returns (hheld.frame hr.keeps) hr (fun _ _ hp => hp)

/-- **One operation keeps all tags right**, however it ends. -/
theorem Op.run_held (op : Op) (hheld : Held w hs) (hnew : op.NoCopy hs) :
    (op.run env).Leaves (w, hs) (fun _ s => Held s.1 s.2) (fun _ s => Held s.1 s.2) := by
  have hstart : ∀ i, Runs (fun _ => True) (hs i).pdu w (w, hs i) := fun i => .start (hheld.tagged i)
  cases op with
  | construct i t =>
    exact moveTo_held hheld ((PDU.create_leaves env t).imp (fun _ _ hr => hr.1) (fun _ _ hk => hk))
  | inherit i p =>
    refine .bind (.lift (PDU.inherit_leaves hheld (fun r ht hp => moveTo_leaves ?_)))
    exact .update (fun k _ => hheld.tagged k) hheld.apart ht (fun k q _ hq hkq => hnew k q hkq (hp.symm.trans hq))
  | free i => exact onHandle_held hheld (PDU.free_leaves (hstart i) (hstart i) (fun _ hr => hr))
  | clear i => exact onHandle_held hheld (.setThis (.null .refl))
  | clone i j => exact .bind (.this (moveTo_held hheld (PDU.clone_leaves env)))
  | setVarlist i vl =>
    exact onHandle_held hheld ((PDU.setVarlist_runs (hstart i) vl).imp (fun _ _ hr => hr.1) (fun _ _ hr => hr.1))
  | add i c =>
    rw [run, c.onPdu_eq]
    exact addVia_held hheld (c.onVarlist_quiet env)
  | addNullVarsSet i s => exact addVia_held hheld (Varlist.each_addNullVar_quiet env s.elems)
  | addNullVarsVec i v => exact addVia_held hheld (Varlist.each_addNullVar_quiet env v)
  | entry e session i j =>
    refine .bind (onHandle_leaves ((e.run_runs env session (hstart i) trivial).imp (fun r s hr => ?_)
      (fun _ s hr => hheld.runs hr)))
    obtain ⟨hr, hnull, hret⟩ := hr
    refine moveTo_leaves (hheld.returns (hheld.runs hr) hret (fun k p hp => ?_))
    by_cases hk : k = i
    · rw [hk, Function.update_self, hnull] at hp
      cases hp
    · rwa [Function.update_of_ne hk] at hp
  | query q session j => exact moveTo_held hheld (q.run_leaves env session trivial)
  | sendV2Trap i => exact onHandle_held hheld (sendV2TrapPdu_runs env (hstart i))

end

/-- **In every state a program reaches all tags are right.** -/
theorem Reachable.held {env : NetSnmp} {s : World × Handles} (hs : Reachable env s) : Held s.1 s.2 := by
  induction hs with
  | start w => exact .start w
  | step op hs hnew ih => exact (op.run_held env ih hnew).final
  | world hs hk ih => exact ih.frame hk

/-! ## What goes out -/

/-- Every request sent since `w` has the command `c`. -/
def SentAs (c : Int) (w w' : World) : Prop := ∀ r ∈ sentIn (w.since w'), r.command = c

theorem Keeps.sentAs {c : Int} {own : Option PduPtr} {w w' : World} (hk : Keeps (· = c) own w w') : SentAs c w w' := by
  obtain ⟨es, hlog, hes⟩ := hk.sent
  rw [SentAs, World.since_eq hlog]
  exact hes

/-- **An entry point called on a handle with the right tag** sends its own command only. -/
theorem Entry.sentAs (env : NetSnmp) (session : SessionHandle) (e : Entry) {w : World} {h : PDU}
    (ht : Tagged w h) : SentAs (e.command h) w (e.run env session (w, h)).2.1 :=
  Keeps.sentAs ((e.run_runs env session (C := (· = e.command h)) (.start ht) rfl).imp (fun _ _ hr => hr.1.keeps)
    (fun _ _ hr => hr.keeps)).final

theorem Query.sentAs (env : NetSnmp) (session : SessionHandle) (q : Query) (w : World) :
    SentAs q.command w (q.run env session w).2 :=
  Keeps.sentAs ((q.run_leaves env session (C := (· = q.command)) rfl).imp (fun _ _ hr => hr.keeps)
    (fun _ _ hk => hk)).final

/-- **The tag of a handle and the command of its PDU never drift apart**: in every state a program reaches each handle
holds nothing under `kInvalid` or a PDU under its command.  So whatever handle `getNext` is called on, it sends GETNEXT
requests only, and `getBulk` GETBULK requests only. -/
theorem type_is_command (env : NetSnmp) (w : World) (hs : Handles) (hreach : Reachable env (w, hs)) :
    (∀ i, ((hs i).pdu = none → (hs i).type = kInvalid) ∧
      ∀ p, (hs i).pdu = some p → ∃ d, w.pdus.cell p = some d ∧ d.command = (hs i).type) ∧
    (∀ i session, SentAs kGetNext w (getNext env session (w, hs i)).2.1) ∧
    (∀ i session maxRepetitions nonRepeaters,
      SentAs kGetBulk w (getBulk env session maxRepetitions nonRepeaters (w, hs i)).2.1) ∧
    (∀ session o, SentAs kGetNext w (getNextOid env session o w).2) ∧
    ∀ session o maxRepetitions nonRepeaters,
      SentAs kGetBulk w (getBulkOid env session o maxRepetitions nonRepeaters w).2 := by
  have hheld := hreach.held
  refine ⟨fun i => ⟨(hheld.tagged i).null, (hheld.tagged i).real⟩, fun i session => ?_,
    fun i session maxReps non => ?_, fun session o => ?_, fun session o maxReps non => ?_⟩
  · exact Entry.getNext.sentAs env session (hheld.tagged i)
  · exact (Entry.getBulk maxReps non).sentAs env session (hheld.tagged i)
  · exact (Query.getNext o).sentAs env session w
  · exact (Query.getBulk o maxReps non).sentAs env session w

theorem type_is_command_witness :
    let env := NetSnmp.working (fun _ => .timeout)
    let s := (Run.trace [(Op.construct 0 kSet).run env, (Op.add 0 (.addNullVar ⟨[1, 3]⟩)).run env]
      (World.start, fun _ => PDU.null)).2
    let r := getNext env (some 0) (s.1, s.2 0)
    (s.2 0).pdu = some 0 ∧ (s.2 0).type = kSet ∧ sentIn (s.1.since r.2.1) ≠ [] ∧ SentAs kGetNext s.1 r.2.1 := by
  intro env s r
  have hreach : Reachable env s :=
    .step (.add 0 (.addNullVar ⟨[1, 3]⟩)) (.step (.construct 0 kSet) (.start World.start) trivial) trivial
  exact ⟨rfl, rfl, by decide, (type_is_command env s.1 s.2 hreach).2.1 0 (some 0)⟩

end Snmppp
