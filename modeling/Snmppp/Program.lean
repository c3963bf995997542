import Snmppp.Locals
/-!
# Program — client programs, and the same programs on values

A client program is a list of statements over its variables: it builds, clones, fills, sends, looks at and releases
PDUs and variable lists; it never copies a handle, and clears the variable of a list it has put into a PDU.  Each
statement runs on the pointers and on the values; the two runs cannot be told apart (`Stmt.twin`), so what is proved of
the values holds of the code.
-/
namespace Snmppp

open Arena (ofPtr Framed mem_ofPtr)

/-! ## Looking -/

/-- What a program may ask a PDU. -/
inductive Look where
  | empty
  | size
  | contains (o : OID)
  | index (idx : Nat)
  | firstOID
deriving DecidableEq

/-- What a statement tells the program. -/
inductive Seen where
  | nothing
  | flag (b : Bool)
  | count (n : Nat)
  | rest (vs : List Varbind)
  | name (o : OID)
deriving DecidableEq, Repr

def Look.run (h : PDU) : Look → Snmp Seen
  | empty      => do pure (.flag (← h.empty))
  | size       => do pure (.count (← h.size))
  | contains o => do pure (.flag (← h.contains o))
  | index idx  => do pure (.rest (← h.index idx))
  | firstOID   => do pure (.name (← h.firstOID))

def Look.val (v : Value.Pdu) : Look → Value.Func Seen
  | empty      => pure (.flag (decide (v.vars = [])))
  | size       => pure (.count v.vars.length)
  | contains o => pure (.flag (Varlist.contains v.vars o))
  | index idx  => pure (.rest (Varlist.index v.vars idx))
  | firstOID   =>
    if v.body = none then Run.throws (logicError "Cannot reference a NULL PDU.")
    else if v.vars = [] then Run.throws (logicError "The PDU does not contain a variable list.")
    else pure (.name (OID.ofVarlist v.vars))

/-- **A look sees the value and changes nothing.** -/
theorem Look.twin (q : Look) {w : World} {h : PDU} {m : Mem} {x : Net} (ht : Tracks w 0 w (h.mem w + m) x) :
    ∃ r, q.run h w = (r, w) ∧ q.val (h.val w) x = (r, x) := by
  cases hp : h.pdu with
  | none =>
    have hempty := PDU.empty_null (w := w) hp
    have hnone : h.varlist w = (.error (.exn (logicError "Cannot reference a NULL PDU.")), w) := by
      simp only [PDU.varlist, hp, Run.throws_apply]
    rw [PDU.val_null hp]
    cases q with
    | empty => exact ⟨_, Run.bind_ok hempty, rfl⟩
    | size | contains o | index idx => exact ⟨_, Run.bind_ok (Run.bind_ok hempty), rfl⟩
    | firstOID => exact ⟨_, Run.bind_error (Run.bind_error hnone), rfl⟩
  | some p =>
    obtain ⟨d, vs, hd, hvs⟩ := ht.valid hp
    have hr : w.request p = some ⟨p, d.command, d.errstat, d.errindex, vs⟩ :=
      World.request_eq_some.2 ⟨d, vs, hd, hvs, rfl⟩
    have hempty := PDU.empty_request hp hr
    have hchain := chain_ok hvs
    have hvars : (h.val w).vars = vs := by
      rw [PDU.val_of_request hp hr]
      rfl
    have hbody : (h.val w).body ≠ none := by
      rw [PDU.val_of_request hp hr]
      simp
    by_cases hnil : vs = []
    · have hno := PDU.varlist_none hp hd ((World.vars_eq_nil_iff hvs).1 hnil)
      rw [decide_eq_true hnil] at hempty
      subst hnil
      cases q with
      | empty => exact ⟨_, Run.bind_ok hempty, by rw [Look.val, hvars]; rfl⟩
      | size | contains o | index idx =>
        exact ⟨_, Run.bind_ok (Run.bind_ok hempty), by rw [Look.val, hvars]; rfl⟩
      | firstOID =>
        exact ⟨_, Run.bind_error (Run.bind_error hno), by rw [Look.val, if_neg hbody, if_pos hvars]; rfl⟩
    · have hlist := PDU.varlist_ok hp hd (fun hc => hnil ((World.vars_eq_nil_iff hvs).2 hc))
      rw [decide_eq_false hnil] at hempty
      cases q with
      | empty => exact ⟨_, Run.bind_ok hempty, by rw [Look.val, hvars, decide_eq_false hnil]; rfl⟩
      | size | contains o | index idx =>
        refine ⟨_, Run.bind_ok ((Run.bind_ok hempty).trans ((Run.bind_ok hlist).trans (Run.bind_ok hchain))), ?_⟩
        rw [Look.val, hvars]
        rfl
      | firstOID =>
        have hfirst : h.firstOID w = (.ok (OID.ofVarlist vs), w) := by
          rw [PDU.firstOID, Run.bind_ok hlist, Run.bind_ok hchain, Run.result_apply, Varlist.firstOID, if_neg hnil]
        refine ⟨_, Run.bind_ok hfirst, ?_⟩
        rw [Look.val, hvars, if_neg hbody, if_neg hnil]
        rfl

/-! ## Statements -/

/-- A statement over the variables `ι` and `κ`; what a call returns goes to variable `j` or `k`. -/
inductive Stmt (ι κ : Type) where
  | construct (j : ι) (t : EType)
  | clone (i j : ι)
  | free (i : ι)
  | clear (i : ι)
  | add (i : ι) (c : AddCall)
  | addNullVars (i : ι) (c : AddNullVars)
  | setVarlist (i : ι) (k : κ)
  | entry (e : Entry) (session : SessionHandle) (i j : ι)
  | query (q : Query) (session : SessionHandle) (j : ι)
  | look (i : ι) (q : Look)
  | sendPdu (i : ι)
  | vlFree (k : κ)
  | vlClear (k : κ)
  | vlAdd (k : κ) (c : AddCall)
  | vlAddNullVars (k : κ) (c : AddNullVars)
  | createTrap (k : κ) (o : OID) (uptime : Int64)
  | sendVl (k : κ)
  | sendOid (o : OID) (uptime : Int64)

def Value.Pdu.setVars (v : Value.Pdu) (vs : Value.Vars) : Value.Pdu :=
  { v with body := v.body.map (fun b => { b with vars := vs }) }

namespace Value

variable (env : NetSnmp)

def entry (session : SessionHandle) : Entry → Method Pdu Pdu
  | .sync | .get | .set    => sync env session
  | .getNext               => getNext env session
  | .getBulk maxReps non   => getBulk env session maxReps non

def query (session : SessionHandle) : Query → Func Pdu
  | .get o                 => requestOne env session kGet (.addNullVar o)
  | .getNext o             => requestOne env session kGetNext (.addNullVar o)
  | .getSet oids           => getSet env session oids
  | .getBulk o maxReps non => getBulkOid env session o maxReps non
  | .setBooleanVar o v     => requestOne env session kSet (.addBooleanVar o v)
  | .setIntegerVar o v     => requestOne env session kSet (.addIntegerVar o v)
  | .setInteger64Var o v   => requestOne env session kSet (.addInteger64Var o v)
  | .setGaugeVar o v       => requestOne env session kSet (.addGaugeVar o v)
  | .setOctetStringVar o v => requestOne env session kSet (.addOctetStringVar o v)

end Value

namespace Stmt

variable {ι κ : Type} [DecidableEq ι] [DecidableEq κ] (env : NetSnmp)

/-- On the pointers.  A program gives up a list that it passes on: `setVarlist i k` is `pdu.setVarlist( vl )` and then
`vl.clear()`, so the list is the PDU's alone. -/
def run : Stmt ι κ → Method (Locals ι κ) Seen
  | construct j t         => do let q ← Run.lift (PDU.create env t); Locals.setPdu j q; pure .nothing
  | clone i j             => do
    let l ← Run.this
    let q ← Run.lift ((l.pdu i).clone env)
    Locals.setPdu j q
    pure .nothing
  | free i                => do Locals.onPdu i PDU.free; pure .nothing
  | clear i               => do Locals.onPdu i PDU.clear; pure .nothing
  | add i c               => do Locals.onPdu i (c.onPdu env); pure .nothing
  | addNullVars i c       => do Locals.onPdu i (c.onPdu env); pure .nothing
  | setVarlist i k        => do
    let l ← Run.this
    Locals.onPdu i (PDU.setVarlist (l.vl k).varlist)
    Locals.onVl k Varlist.clear
    pure .nothing
  | entry e session i j   => do let q ← Locals.onPdu i (e.run env session); Locals.setPdu j q; pure .nothing
  | query q session j     => do let q ← Run.lift (q.run env session); Locals.setPdu j q; pure .nothing
  | look i q              => do
    let l ← Run.this
    Run.lift (q.run (l.pdu i))
  | sendPdu i             => do Locals.onPdu i (sendV2TrapPdu env); pure .nothing
  | vlFree k              => do Locals.onVl k Varlist.free; pure .nothing
  | vlClear k             => do Locals.onVl k Varlist.clear; pure .nothing
  | vlAdd k c             => do Locals.onVl k (c.onVarlist env); pure .nothing
  | vlAddNullVars k c     => do Locals.onVl k (c.onVarlist env); pure .nothing
  | createTrap k o uptime => do let v ← Run.lift (createV2TrapVarlist env o uptime); Locals.setVl k v; pure .nothing
  | sendVl k              => do Locals.onVl k (sendV2Trap env); pure .nothing
  | sendOid o uptime      => do Run.lift (sendV2TrapOid env o uptime); pure .nothing

/-- On the values. -/
def val : Stmt ι κ → Value.Method (Value.Locals ι κ) Seen
  | construct j t         => do let v ← Run.lift (Value.create env t); Value.Locals.setPdu j v; pure .nothing
  | clone i j             => do
    let u ← Run.this
    let v ← Run.lift (Value.clone env (u.pdu i))
    Value.Locals.setPdu j v
    pure .nothing
  | free i                => do Value.Locals.onPdu i (Run.setThis Value.Pdu.null); pure .nothing
  | clear i               => do Value.Locals.setPdu i Value.Pdu.null; pure .nothing
  | add i c               => do Value.Locals.onPdu i (Value.onBody (Value.addVar env c)); pure .nothing
  | addNullVars i c       => do Value.Locals.onPdu i (Value.onBody (Value.addNullVars env c.oids)); pure .nothing
  | setVarlist i k        => do
    let u ← Run.this
    if (u.pdu i).body = none then Run.throws (logicError "Cannot set variable list on a NULL PDU.")
    else do
      Value.Locals.onPdu i (Run.setThis ((u.pdu i).setVars (u.vl k)))
      Value.Locals.onVl k (Run.setThis [])
      pure .nothing
  | entry e session i j   => do
    let v ← Value.Locals.onPdu i (Value.entry env session e)
    Value.Locals.setPdu j v
    pure .nothing
  | query q session j     => do let v ← Run.lift (Value.query env session q); Value.Locals.setPdu j v; pure .nothing
  | look i q              => do
    let u ← Run.this
    Run.lift (q.val (u.pdu i))
  | sendPdu i             => do Value.Locals.onPdu i (Value.sendV2TrapPdu env); pure .nothing
  | vlFree k              => do Value.Locals.onVl k (Run.setThis []); pure .nothing
  | vlClear k             => do Value.Locals.setVl k []; pure .nothing
  | vlAdd k c             => do Value.Locals.onVl k (Value.addVar env c); pure .nothing
  | vlAddNullVars k c     => do Value.Locals.onVl k (Value.addNullVars env c.oids); pure .nothing
  | createTrap k o uptime => do
    let vs ← Run.lift (Value.createV2TrapVarlist env o uptime)
    Value.Locals.setVl k vs
    pure .nothing
  | sendVl k              => do Value.Locals.onVl k (Value.sendV2Trap env); pure .nothing
  | sendOid o uptime      => do Run.lift (Value.sendV2TrapOid env o uptime); pure .nothing

end Stmt

/-! ## Side by side -/

section
variable (env : NetSnmp) (session : SessionHandle) {w₀ w : World} {F : Mem} {x : Net} {h : PDU} {v : Value.Pdu}

theorem Entry.twin (e : Entry) (ha : Agree w₀ F (w, h) (x, v)) :
    Answers w₀ F (e.run env session) (Value.entry env session e) (w, h) (x, v) := by
  cases e with
  | sync | get | set => exact sync_twin env session ha
  | getNext => exact getNext_twin env session ha
  | getBulk maxReps non => exact getBulk_twin env session ha maxReps non

theorem Query.twin (q : Query) (ht : Tracks w₀ F w 0 x) :
    Gives w₀ F (q.run env session) (Value.query env session q) w x := by
  cases q with
  | get o => exact requestOne_twin env session kGet (.addNullVar o) ht
  | getNext o => exact requestOne_twin env session kGetNext (.addNullVar o) ht
  | getSet oids => exact getSet_twin env session oids ht
  | getBulk o maxReps non => exact getBulkOid_twin env session o maxReps non ht
  | setBooleanVar o v => exact requestOne_twin env session kSet (.addBooleanVar o v) ht
  | setIntegerVar o v => exact requestOne_twin env session kSet (.addIntegerVar o v) ht
  | setInteger64Var o v => exact requestOne_twin env session kSet (.addInteger64Var o v) ht
  | setGaugeVar o v => exact requestOne_twin env session kSet (.addGaugeVar o v) ht
  | setOctetStringVar o v => exact requestOne_twin env session kSet (.addOctetStringVar o v) ht

theorem AddNullVars.appends (c : AddNullVars) : Appends (c.onVarlist env) (Value.addNullVars env c.oids) := by
  rw [c.onVarlist_eq env]
  exact Appends.each (fun o => .addVar env (.addNullVar o)) _

end

namespace Stmt

variable {ι κ : Type} [DecidableEq ι] [DecidableEq κ] [Fintype ι] [Fintype κ] (env : NetSnmp) {w : World}
  {l : Locals ι κ} {x : Net} {u : Value.Locals ι κ}

/-- A method of one PDU. -/
theorem twin_onPdu {f : Method PDU Unit} {g : Value.Method Value.Pdu Unit} (h : Matches 0 (w, l) (x, u)) (i : ι)
    (hfg : ∀ F, Agree w F (w, l.pdu i) (x, u.pdu i) →
      Run.Twin f g (w, l.pdu i) (x, u.pdu i) (fun _ _ => Agree w F) (Agree w F)) :
    Run.Twin (do Locals.onPdu i f; pure Seen.nothing) (do Value.Locals.onPdu i g; pure Seen.nothing) (w, l) (x, u)
      (fun a b s y => a = b ∧ Matches 0 s y) (Matches 0) := by
  refine .bind ((Locals.onPdu_twin (e := fun _ _ => 0) (R := fun _ _ _ => True) h i (fun F ha => ?_)).imp
    (fun _ _ _ _ hs => .pure ⟨rfl, hs.1⟩) (fun _ _ hE => hE))
  exact (hfg F ha).imp (fun _ _ _ _ hs => ⟨by rw [zero_add]; exact hs.tracks, hs.val, trivial⟩) (fun _ _ hE => hE)

/-- A method of one variable list. -/
theorem twin_onVl {f : Method Varlist Unit} {g : Value.Method Value.Vars Unit} (h : Matches 0 (w, l) (x, u)) (k : κ)
    (hfg : ∀ F, AgreeVars w F (w, l.vl k) (x, u.vl k) →
      Run.Twin f g (w, l.vl k) (x, u.vl k) (fun _ _ => AgreeVars w F) (AgreeVars w F)) :
    Run.Twin (do Locals.onVl k f; pure Seen.nothing) (do Value.Locals.onVl k g; pure Seen.nothing) (w, l) (x, u)
      (fun a b s y => a = b ∧ Matches 0 s y) (Matches 0) :=
  .bind ((Locals.onVl_twin h k hfg).imp (fun _ _ _ _ hs => .pure ⟨rfl, hs⟩) (fun _ _ hE => hE))

/-- A function whose result goes to a PDU. -/
theorem twin_gives {f : Snmp PDU} {g : Value.Func Value.Pdu} (h : Matches 0 (w, l) (x, u)) (j : ι)
    (hfg : ∀ F, Tracks w F w 0 x → Gives w F f g w x) :
    Run.Twin (do let q ← Run.lift f; Locals.setPdu j q; pure Seen.nothing)
      (do let v ← Run.lift g; Value.Locals.setPdu j v; pure Seen.nothing) (w, l) (x, u)
      (fun a b s y => a = b ∧ Matches 0 s y) (Matches 0) := by
  refine .bind ((Locals.lift_twin (e := fun q w => q.mem w) (R := fun q v w => q.val w = v) h (fun F ht => ?_)).imp
    (fun q v s y hs => ?_) (fun _ _ hE => hE))
  · exact (hfg F ht).imp (fun _ _ _ _ ha => ⟨ha.tracks, ha.val⟩) (fun _ _ hE => hE)
  · exact ⟨rfl, hs.1.setPdu hs.2 j⟩

/-- An entry point, whose result goes to a PDU. -/
theorem twin_answers {f : Method PDU PDU} {g : Value.Method Value.Pdu Value.Pdu} (h : Matches 0 (w, l) (x, u))
    (i j : ι) (hfg : ∀ F, Agree w F (w, l.pdu i) (x, u.pdu i) → Answers w F f g (w, l.pdu i) (x, u.pdu i)) :
    Run.Twin (do let q ← Locals.onPdu i f; Locals.setPdu j q; pure Seen.nothing)
      (do let v ← Value.Locals.onPdu i g; Value.Locals.setPdu j v; pure Seen.nothing) (w, l) (x, u)
      (fun a b s y => a = b ∧ Matches 0 s y) (Matches 0) := by
  refine .bind ((Locals.onPdu_twin (e := fun q w => q.mem w) (R := fun q v w => q.val w = v) h i (fun F ha => ?_)).imp
    (fun q v s y hs => ?_) (fun _ _ hE => hE))
  · refine (hfg F ha).imp (fun q v s y hs => ?_) (fun _ _ hE => hE)
    obtain ⟨hq, hnull, hnull'⟩ := hs
    rw [hnull, hnull', PDU.mem_null (h := PDU.null) rfl, add_zero]
    exact ⟨hq.tracks, PDU.val_null rfl, hq.val⟩
  · exact ⟨rfl, hs.1.setPdu hs.2 j⟩

/-- **A list that goes into a PDU**, taken out of its variable. -/
theorem twin_setVarlist (h : Matches 0 (w, l) (x, u)) (i : ι) (k : κ) :
    Run.Twin (do Locals.onPdu i (PDU.setVarlist (l.vl k).varlist); Locals.onVl k Varlist.clear; pure Seen.nothing)
      (if (u.pdu i).body = none then Run.throws (logicError "Cannot set variable list on a NULL PDU.")
        else do
          Value.Locals.onPdu i (Run.setThis ((u.pdu i).setVars (u.vl k)))
          Value.Locals.onVl k (Run.setThis [])
          pure Seen.nothing)
      (w, l) (x, u) (fun a b s y => a = b ∧ Matches 0 s y) (Matches 0) := by
  have hval : (l.pdu i).val w = u.pdu i := h.values (.inl i)
  have hvs : w.vars (l.vl k).varlist = some (u.vl k) := h.values (.inr k)
  cases hp : (l.pdu i).pdu with
  | none =>
    have hbody : (u.pdu i).body = none := by rw [← hval, PDU.val_null hp]
    have hset : Locals.onPdu i (PDU.setVarlist (l.vl k).varlist) (w, l)
        = (.error (.exn (logicError "Cannot set variable list on a NULL PDU.")), (w, l)) := by
      have hthrow : PDU.setVarlist (l.vl k).varlist (w, l.pdu i)
          = (.error (.exn (logicError "Cannot set variable list on a NULL PDU.")), (w, l.pdu i)) := by
        rw [PDU.setVarlist, Run.this_bind]
        simp only [hp, Run.throws_apply]
      simp only [Locals.onPdu, hthrow, Function.update_eq_self]
    rw [if_pos hbody]
    exact .error (Run.bind_error hset) rfl h
  | some p =>
    have htaken := h.takeVl k
    obtain ⟨w', b, hset, hb, ha⟩ := setVarlist_books hp (htaken.focus (.inl i)) hvs
    rw [hval] at hb ha
    have hvars : (u.pdu i).setVars (u.vl k) = { u.pdu i with body := some { b with vars := u.vl k } } := by
      rw [Value.Pdu.setVars, hb]
      rfl
    have hrun : Locals.onPdu i (PDU.setVarlist (l.vl k).varlist) (w, l)
        = (.ok (), (w', { l with pdu := Function.update l.pdu i (l.pdu i) })) := by
      simp only [Locals.onPdu, hset]
    rw [if_neg (by rw [hb]; simp), hvars]
    refine Run.Twin.left hrun (Run.Twin.right rfl (Run.Twin.left rfl (Run.Twin.right rfl (.pure ⟨rfl, ?_⟩))))
    exact htaken.updatePdu (by rw [zero_add]; exact ha.tracks) ha.val

/-- **No statement can be told from the same statement on values.** -/
theorem twin (st : Stmt ι κ) (h : Matches 0 (w, l) (x, u)) :
    Run.Twin (st.run env) (st.val env) (w, l) (x, u) (fun a b s y => a = b ∧ Matches 0 s y) (Matches 0) := by
  cases st with
  | construct j t =>
    exact twin_gives h j (fun F ht => (create_twin env t ht).imp (fun _ _ _ _ hq => hq.1) (fun _ _ hE => hE))
  | clone i j =>
    have ha := h.agree i
    have hval : (l.pdu i).val w = u.pdu i := ha.val
    have hvalid : (l.pdu i).Valid w := fun p hp => by
      obtain ⟨d, vs, hd, hvs⟩ := Tracks.valid (m := 0) (by rw [add_zero]; exact ha.tracks) hp
      exact ⟨_, World.request_eq_some.2 ⟨d, vs, hd, hvs, rfl⟩⟩
    refine Run.Twin.this_left (Run.Twin.this_right (twin_gives h j (fun F ht => ?_)))
    rw [← hval]
    exact clone_twin env hvalid ht
  | free i =>
    refine twin_onPdu h i (fun F ha => ?_)
    obtain ⟨w', hfree, ht⟩ := ha.free
    exact .ok hfree rfl (Agree.null rfl ht)
  | clear i =>
    refine .bind (.ok rfl rfl (.pure ⟨rfl, ?_⟩))
    exact Matches.setPdu (q := PDU.null) (by rw [PDU.mem_null rfl]; exact h) (PDU.val_null rfl) i
  | add i c => exact twin_onPdu h i (fun F ha => onPdu_addVar_twin env c ha)
  | addNullVars i c =>
    refine twin_onPdu h i (fun F ha => ?_)
    rw [c.onPdu_eq env]
    exact (addVia_twin (c.appends env) ha).imp (fun _ _ _ _ hs => hs.1) (fun _ _ hs => hs.1)
  | setVarlist i k =>
    refine Run.Twin.this_left (Run.Twin.this_right ?_)
    exact twin_setVarlist h i k
  | entry e session i j => exact twin_answers h i j (fun F ha => e.twin env session ha)
  | query q session j => exact twin_gives h j (fun F ht => q.twin env session ht)
  | look i q =>
    have ht : Tracks w 0 w (0 + l.mem w) x := h.tracks
    have hval : (l.pdu i).val w = u.pdu i := h.values (.inl i)
    rw [l.mem_eq w (.inl i), zero_add] at ht
    obtain ⟨r, hrun, hsees⟩ := q.twin ht
    rw [hval] at hsees
    refine Run.Twin.this_left (Run.Twin.this_right ?_)
    cases r with
    | error e => exact .error (Run.lift_of hrun l) (Run.lift_of hsees u) h
    | ok a => exact .ok (Run.lift_of hrun l) (Run.lift_of hsees u) ⟨rfl, h⟩
  | sendPdu i => exact twin_onPdu h i (fun F ha => sendV2TrapPdu_twin env ha)
  | vlFree k =>
    refine twin_onVl h k (fun F ha => ?_)
    obtain ⟨w', hfree, ht⟩ := ha.free
    exact .ok hfree rfl (.null ht)
  | vlClear k =>
    refine .bind (.ok rfl rfl (.pure ⟨rfl, ?_⟩))
    exact Matches.setVl (v := ⟨none⟩) h rfl k
  | vlAdd k c => exact twin_onVl h k (fun F ha => (Appends.addVar env c).twin ha)
  | vlAddNullVars k c => exact twin_onVl h k (fun F ha => (c.appends env).twin ha)
  | createTrap k o uptime =>
    refine .bind ((Locals.lift_twin (e := fun v _ => v.mem) (R := fun v vs w => w.vars v.varlist = some vs) h
      (fun F ht => ?_)).imp (fun v vs s y hs => ?_) (fun _ _ hE => hE))
    · exact (createV2TrapVarlist_twin env o uptime ht).imp (fun _ _ _ _ ha => ⟨ha.tracks, ha.vars⟩) (fun _ _ hE => hE)
    · exact ⟨rfl, hs.1.setVl hs.2 k⟩
  | sendVl k =>
    have hspends : ∀ {F : Mem} (s : World × Varlist) (y : Net × Value.Vars), Spends w F s y → AgreeVars w F s y :=
      fun s y ⟨ht, hs, hy⟩ => ⟨by rw [hs]; exact ht, by rw [hs, hy]; rfl⟩
    exact twin_onVl h k (fun F ha => (sendV2Trap_twin env ha).imp (fun _ _ s y hs => hspends s y hs)
      (fun s y hs => hspends s y hs))
  | sendOid o uptime =>
    refine .bind ((Locals.lift_twin (e := fun _ _ => 0) (R := fun _ _ _ => True) h (fun F ht => ?_)).imp
      (fun _ _ _ _ hs => .pure ⟨rfl, hs.1⟩) (fun _ _ hE => hE))
    exact (sendV2TrapOid_twin env o uptime ht).imp (fun _ _ _ _ hs => ⟨hs, trivial⟩) (fun _ _ hE => hE)

end Stmt
end Snmppp
