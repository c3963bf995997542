import Snmppp.Adding
import Snmppp.PduRun
import Snmppp.Get
/-!
# SyncRun — what a request does on its way

The ways `sync` ends, one equation each, and what they have in common: the request is released (`Spent`).  The functions
that ask about one OID build a request of their own first (`Built`), and end before `sync` in three ways.
-/
namespace Snmppp

def World.handed (w : World) (p : PduPtr) (r : Request) : World := ((w.logs (.sent r)).freePdu p).tick

namespace World

variable (w : World) (p : PduPtr) (r : Request)

theorem next_handed : (w.handed p r).pdus.next = w.pdus.next := next_freePdu _ p

theorem log_handed : (w.handed p r).log = w.log ++ [.sent r] := log_freePdu _ p

theorem cell_handed (a : PduPtr) : (w.handed p r).pdus.cell a = if a = p then none else w.pdus.cell a :=
  cell_freePdu _ p a

end World

/-! ## The ways sync ends -/

section
variable (env : NetSnmp) {session : SessionHandle} {w : World} {h : PDU} {p : PduPtr} {r : Request}

theorem snmpSessSynchResponse_none (hr : w.request p = some r)
    (hresp : (env.synchResponse w.calls).response = none) :
    snmpSessSynchResponse env p w = (.ok ((env.synchResponse w.calls).status, none), w.handed p r) := by
  simp only [snmpSessSynchResponse, hr, hresp, World.handed]

theorem snmpSessSynchResponse_some (hr : w.request p = some r) {a : Response}
    (hresp : (env.synchResponse w.calls).response = some a) :
    snmpSessSynchResponse env p w
      = (.ok ((env.synchResponse w.calls).status, some w.pdus.next), (w.handed p r).deliver a) := by
  simp only [snmpSessSynchResponse, hr, hresp]
  rw [← World.next_handed w p r]
  rfl

theorem sync_null (hp : h.pdu = none) :
    sync env session (w, h) = (.error (.exn (invalidArgument "Request PDU must not be NULL.")), (w, h)) := by
  rw [sync, Run.this_bind]
  simp only [hp, Run.throws_apply]

theorem sync_noSession (hp : h.pdu = some p) (hr : w.request p = some r) :
    sync env none (w, h)
      = (.error (.exn (invalidArgument "Session handle must not be NULL.")), (w.freePdu p, PDU.null)) := by
  rw [sync, Run.this_bind]
  simp only [hp]
  rw [if_pos trivial, Run.bind_ok (PDU.free_ok hp hr), Run.throws_apply]

theorem sync_noResponse (hs : session ≠ none) (hp : h.pdu = some p) (hr : w.request p = some r)
    (hresp : (env.synchResponse w.calls).response = none) :
    sync env session (w, h)
      = (.error (.exn (syncError (env.sessError (w.handed p r).calls))), ((w.handed p r).tick, PDU.null)) := by
  have hfailed : syncFailed (env.synchResponse w.calls).status none (w.handed p r) = (.ok true, w.handed p r) := rfl
  have herr : snmpSessError env (w.handed p r) = (.ok (env.sessError (w.handed p r).calls), (w.handed p r).tick) := rfl
  have hfree : snmpFreePdu none (w.handed p r).tick = (.ok (), (w.handed p r).tick) := rfl
  rw [sync, Run.this_bind]
  simp only [hp]
  rw [if_neg hs, Run.lift_bind (snmpSessSynchResponse_none env hr hresp), PDU.clear, Run.setThis_bind,
    Run.lift_bind hfailed, if_pos rfl, Run.lift_bind herr, Run.lift_bind hfree, Run.throws_apply]

variable {a : Response}

/-- The response and the status say that the request went well. -/
def Response.Good (a : Response) (status : Int) : Prop := a.errstat = SNMP_ERR_NOERROR ∧ status = STAT_SUCCESS

instance (a : Response) (status : Int) : Decidable (a.Good status) := inferInstanceAs (Decidable (_ ∧ _))

theorem syncFailed_deliver (status : Int) (w : World) (a : Response) :
    syncFailed status (some w.pdus.next) (w.deliver a)
      = (.ok (decide (¬ a.Good status)), w.deliver a) := by
  have hcell : (w.deliver a).pdus.cell w.pdus.next
      = some ⟨a.command, a.errstat, a.errindex, (w.newList a.vars).1⟩ := by
    rw [World.pdus_deliver, Arena.cell_alloc_next]
  rw [syncFailed, Run.bind_ok (deref_ok hcell), Run.pure_apply]
  congr 2
  rw [← Bool.decide_or, decide_eq_decide]
  exact Decidable.not_and_iff_not_or_not.symm

theorem sync_badResponse (hs : session ≠ none) (hp : h.pdu = some p) (hr : w.request p = some r)
    (hresp : (env.synchResponse w.calls).response = some a) (hbad : ¬ a.Good (env.synchResponse w.calls).status) :
    sync env session (w, h)
      = (.error (.exn (syncError (env.sessError ((w.handed p r).deliver a).calls))),
          ((((w.handed p r).deliver a).tick).freePdu w.pdus.next, PDU.null)) := by
  let got := (w.handed p r).deliver a
  have hfailed := syncFailed_deliver (env.synchResponse w.calls).status (w.handed p r) a
  rw [World.next_handed, decide_eq_true hbad] at hfailed
  have herr : snmpSessError env got = (.ok (env.sessError got.calls), got.tick) := rfl
  have hfree : snmpFreePdu (some w.pdus.next) got.tick = (.ok (), got.tick.freePdu w.pdus.next) := by
    refine snmpFreePdu_ok (r := ⟨w.pdus.next, a.command, a.errstat, a.errindex, a.vars⟩) ?_
    rw [← World.next_handed w p r]
    exact World.request_deliver (w.handed p r) a
  rw [sync, Run.this_bind]
  simp only [hp]
  rw [if_neg hs, Run.lift_bind (snmpSessSynchResponse_some env hr hresp), PDU.clear, Run.setThis_bind,
    Run.lift_bind hfailed, if_pos rfl, Run.lift_bind herr, Run.lift_bind hfree, Run.throws_apply]

theorem sync_response (hs : session ≠ none) (hp : h.pdu = some p) (hr : w.request p = some r)
    (hresp : (env.synchResponse w.calls).response = some a) (hgood : a.Good (env.synchResponse w.calls).status) :
    sync env session (w, h) = (.ok ⟨a.command, some w.pdus.next⟩, ((w.handed p r).deliver a, PDU.null)) := by
  have hfailed := syncFailed_deliver (env.synchResponse w.calls).status (w.handed p r) a
  rw [World.next_handed, decide_eq_false (not_not_intro hgood)] at hfailed
  have hcell : ((w.handed p r).deliver a).pdus.cell w.pdus.next
      = some ⟨a.command, a.errstat, a.errindex, ((w.handed p r).newList a.vars).1⟩ := by
    rw [World.pdus_deliver, ← World.next_handed w p r, Arena.cell_alloc_next]
  rw [sync, Run.this_bind]
  simp only [hp]
  rw [if_neg hs, Run.lift_bind (snmpSessSynchResponse_some env hr hresp), PDU.clear, Run.setThis_bind,
    Run.lift_bind hfailed, if_neg Bool.false_ne_true, Run.lift_of (PDU.inherit_ok hcell)]

end

/-! ## A request spent -/

/-- **The request at `p` released**, every other PDU there was left alone, and no request made. -/
structure Spent (p : PduPtr) (w w' : World) : Prop where
  dead : w'.pdus.cell p = none
  next : w.pdus.next ≤ w'.pdus.next
  old  : ∀ a, a < w.pdus.next → a ≠ p → w'.pdus.cell a = w.pdus.cell a
  log  : ∃ es, w'.log = w.log ++ es ∧ createdIn es = []

namespace Spent

variable {p : PduPtr} {w w' : World} {r : Request}

theorem freed (hs : Spent p w w') {d : NetsnmpPdu} (hd : w.pdus.cell p = some d) :
    w'.pdus.freed p = w.pdus.freed p + 1 := by
  rw [w.pdus.freed_of_cell hd, w'.pdus.freed_eq_one (Nat.lt_of_lt_of_le (w.pdus.lt_next_of_cell hd) hs.next) hs.dead]

theorem freePdu (w : World) (p : PduPtr) : Spent p w (w.freePdu p) where
  dead := by rw [World.cell_freePdu, if_pos rfl]
  next := Nat.le_of_eq (w.next_freePdu p).symm
  old  := fun a _ ha => by rw [World.cell_freePdu, if_neg ha]
  log  := ⟨[], by rw [World.log_freePdu, List.append_nil], rfl⟩

theorem handed (w : World) (p : PduPtr) (r : Request) : Spent p w (w.handed p r) where
  dead := by rw [World.cell_handed, if_pos rfl]
  next := Nat.le_of_eq (w.next_handed p r).symm
  old  := fun a _ ha => by rw [World.cell_handed, if_neg ha]
  log  := ⟨[.sent r], w.log_handed p r, rfl⟩

theorem tick (hs : Spent p w w') : Spent p w w'.tick := { hs with }

theorem deliver (hs : Spent p w w') (hp : p < w.pdus.next) (a : Response) : Spent p w (w'.deliver a) where
  dead := by
    rw [World.pdus_deliver, Arena.cell_alloc_of_lt _ _ _ (Nat.lt_of_lt_of_le hp hs.next), hs.dead]
  next := by
    rw [World.pdus_deliver, Arena.next_alloc]
    exact Nat.le_succ_of_le hs.next
  old  := fun b hb hne => by
    rw [World.pdus_deliver, Arena.cell_alloc_of_lt _ _ _ (Nat.lt_of_lt_of_le hb hs.next), hs.old b hb hne]
  log  := by
    obtain ⟨es, hlog, hes⟩ := hs.log
    refine ⟨es ++ [.received w'.pdus.next a.vars], by rw [World.log_deliver, hlog, List.append_assoc], ?_⟩
    rw [createdIn, List.filterMap_append, ← createdIn, hes]
    rfl

theorem freeNew (hs : Spent p w w') {q : PduPtr} (hq : w.pdus.next ≤ q) : Spent p w (w'.freePdu q) where
  dead := by
    rw [World.cell_freePdu]
    split
    · rfl
    · exact hs.dead
  next := by
    rw [World.next_freePdu]
    exact hs.next
  old  := fun a ha hne => by
    have haq : a ≠ q := by omega
    rw [World.cell_freePdu, if_neg haq, hs.old a ha hne]
  log  := by
    rw [World.log_freePdu]
    exact hs.log

end Spent

/-- **However `sync` ends, the request it was given is released and the handle empty.** -/
theorem sync_spends (env : NetSnmp) (session : SessionHandle) {w : World} {h : PDU} {p : PduPtr} {r : Request}
    (hp : h.pdu = some p) (hr : w.request p = some r) :
    ∃ res w', sync env session (w, h) = (res, (w', PDU.null)) ∧ res ≠ .error .fault ∧ Spent p w w' := by
  obtain ⟨d, vs, hd, -, -⟩ := World.request_eq_some.1 hr
  have hlt := w.pdus.lt_next_of_cell hd
  by_cases hs : session = none
  · subst hs
    exact ⟨_, _, sync_noSession env hp hr, by simp, .freePdu w p⟩
  cases hresp : (env.synchResponse w.calls).response with
  | none => exact ⟨_, _, sync_noResponse env hs hp hr hresp, by simp, (Spent.handed w p r).tick⟩
  | some a =>
    have hgot : Spent p w ((w.handed p r).deliver a) := (Spent.handed w p r).deliver hlt a
    by_cases hgood : a.Good (env.synchResponse w.calls).status
    · exact ⟨_, _, sync_response env hs hp hr hresp hgood, by simp, hgot⟩
    · exact ⟨_, _, sync_badResponse env hs hp hr hresp hgood, by simp, hgot.tick.freeNew (Nat.le_refl _)⟩

/-! ## A request built -/

/-- **`w'` is `w` with a request more**, at `w.pdus.next`: of type `t`, asking for `vs`. -/
structure Built (t : EType) (vs : List Varbind) (w w' : World) : Prop where
  log     : w'.log = w.log ++ [.created w.pdus.next]
  next    : w'.pdus.next = w.pdus.next + 1
  old     : ∀ a, a < w.pdus.next → w'.pdus.cell a = w.pdus.cell a
  request : ∃ es ei, w'.request w.pdus.next = some ⟨w.pdus.next, t, es, ei, vs⟩

namespace Built

variable {t : EType} {vs : List Varbind} {w w' w'' : World}

theorem create (env : NetSnmp) (t : EType) {w : World} (hc : env.pduCreate w.calls ≠ none) :
    ∃ w', PDU.create env t w = (.ok ⟨t, some w.pdus.next⟩, w') ∧ w'.calls = w.calls + 1 ∧ Built t [] w w' := by
  obtain ⟨⟨es, ei⟩, hc⟩ := Option.ne_none_iff_exists'.1 hc
  exact ⟨_, PDU.create_some env t hc, rfl, {
    log     := rfl
    next    := rfl
    old     := fun a ha => w.pdus.cell_alloc_of_lt _ _ ha
    request := ⟨es, ei, World.request_eq_some.2 ⟨_, [], w.pdus.cell_alloc_next _, rfl, rfl⟩⟩ }⟩

theorem fill (hb : Built t vs w w') {xs : List Varbind} (hf : Fills w.pdus.next xs w' w'') :
    Built t (vs ++ xs) w w'' where
  log     := by rw [hf.log, hb.log]
  next    := by rw [hf.next, hb.next]
  old     := fun a ha => by rw [hf.cell_of_ne (Nat.ne_of_lt ha), hb.old a ha]
  request := by
    obtain ⟨es, ei, hr⟩ := hb.request
    exact ⟨es, ei, hf.request hr⟩

theorem assign (hb : Built t vs w w') (es ei : Int) :
    ∃ w'', Snmppp.assign w.pdus.next (fun d => { d with errstat := es, errindex := ei }) w' = (.ok (), w'') ∧
      Built t vs w w'' ∧ w''.request w.pdus.next = some ⟨w.pdus.next, t, es, ei, vs⟩ := by
  obtain ⟨es₀, ei₀, hr⟩ := hb.request
  obtain ⟨d, vs', hd, hvs, hrd⟩ := World.request_eq_some.1 hr
  simp only [Request.mk.injEq, true_and] at hrd
  obtain ⟨rfl, -, -, rfl⟩ := hrd
  have hr' : (w'.setPdu w.pdus.next { d with errstat := es, errindex := ei }).request w.pdus.next
      = some ⟨w.pdus.next, d.command, es, ei, vs⟩ :=
    World.request_eq_some.2 ⟨_, vs, w'.pdus.cell_put_self _ _ hd, hvs, rfl⟩
  refine ⟨_, assign_ok hd _, ⟨hb.log, hb.next, fun a ha => ?_, es, ei, hr'⟩, hr'⟩
  rw [World.pdus_setPdu, Arena.cell_put_of_ne _ _ _ _ (Nat.ne_of_lt ha), hb.old a ha]

/-- `addNullVars` on it, while it has no list: all of the set or nothing. -/
theorem addNullVarsSet (env : NetSnmp) (hb : Built t [] w w') (s : SetOID) {h : PDU} (hp : h.pdu = some w.pdus.next) :
    (∃ w'', PDU.addNullVarsSet env s (w', h) = (.ok (), (w'', h)) ∧
      Built t (s.elems.map (nullVarbind env)) w w'' ∧ AllAdd env w'.calls s.elems) ∨
    (∃ e w'', PDU.addNullVarsSet env s (w', h) = (.error (.exn e), (w'', h)) ∧ Built t [] w w'' ∧
      ¬ AllAdd env w'.calls s.elems) := by
  obtain ⟨es, ei, hr⟩ := hb.request
  obtain ⟨d, vs, hd, hvs, hrd⟩ := World.request_eq_some.1 hr
  obtain rfl : vs = [] := by
    simp only [Request.mk.injEq] at hrd
    exact hrd.2.2.2.2.symm
  have hnull : d.variableList = none := (World.vars_eq_nil_iff hvs).1 rfl
  rcases Varlist.each_addNullVar env s.elems w' ⟨d.variableList⟩ [] hvs with
    ⟨w₂, v₂, hrun, hpdus, -, hgrow, hall⟩ | ⟨e, w₂, v₂, k, hrun, hpdus, -, hgrow, -, hstop⟩
  · refine .inl ⟨_, PDU.addVia_ok hp hd hrun hpdus hgrow, hb.fill ⟨d, v₂.varlist, hd, ?_, { hgrow with }⟩, hall⟩
    rw [World.pdus_setPdu, hpdus]
  · refine .inr ⟨e, w₂, PDU.addVia_error hp hd hrun, ?_, fun hall => hstop (hall.take _)⟩
    exact {
      log     := by rw [hgrow.log, hb.log]
      next    := by rw [hpdus, hb.next]
      old     := fun a ha => by rw [hpdus, hb.old a ha]
      request := ⟨es, ei, World.request_eq_some.2 ⟨d, [], by rw [hpdus, hd], by rw [hnull]; rfl, hrd⟩⟩ }

theorem created (hb : Built t vs w w') : createdIn (w.since w') = [w.pdus.next] := by
  rw [World.since_eq hb.log]
  rfl

theorem live (hb : Built t vs w w') (a : PduPtr) :
    w'.pdus.Live a ↔ w.pdus.Live a ∨ a = w.pdus.next := by
  obtain ⟨_, _, hr⟩ := hb.request
  obtain ⟨d, _, hd, -, -⟩ := World.request_eq_some.1 hr
  rcases Nat.lt_trichotomy a w.pdus.next with hlt | rfl | hlt
  · rw [Arena.Live, hb.old a hlt]
    exact ⟨.inl, fun h => h.resolve_right (Nat.ne_of_lt hlt)⟩
  · exact ⟨fun _ => .inr rfl, fun _ => w'.pdus.live_of_cell hd⟩
  · refine ⟨fun h => absurd h (w'.pdus.not_live_of_le (by rw [hb.next]; exact hlt)), ?_⟩
    rintro (h | h)
    · exact absurd h (w.pdus.not_live_of_le (Nat.le_of_lt hlt))
    · exact absurd h (Nat.ne_of_gt hlt)

theorem freed (hb : Built t vs w w') : w'.pdus.freed w.pdus.next = 0 := by
  obtain ⟨_, _, hr⟩ := hb.request
  obtain ⟨d, _, hd, -, -⟩ := World.request_eq_some.1 hr
  exact w'.pdus.freed_of_cell hd

end Built

/-- **The functions that ask about one OID**: three ends before `sync`, the last of which leaves the request live. -/
theorem requestOne_cases (env : NetSnmp) (session : SessionHandle) (t : EType) (c : AddCall) (w : World) :
    (c.oid.empty = true ∧ ∃ e, requestOne env session t c.oid (c.onPdu env) w = (.error (.exn e), w)) ∨
    (c.oid.empty = false ∧ env.pduCreate w.calls = none ∧
      ∃ e, requestOne env session t c.oid (c.onPdu env) w = (.error (.exn e), w.tick)) ∨
    (c.oid.empty = false ∧ env.pduCreate w.calls ≠ none ∧ env.addVariable (w.calls + 1) = false ∧
      ∃ e w', requestOne env session t c.oid (c.onPdu env) w = (.error (.exn e), w') ∧ Built t [] w w') ∨
    (c.oid.empty = false ∧ env.pduCreate w.calls ≠ none ∧ env.addVariable (w.calls + 1) = true ∧
      ∃ w', Built t [c.varbind env] w w' ∧ w'.calls = w.calls + 2 ∧
        requestOne env session t c.oid (c.onPdu env) w
          = ((sync env session (w', ⟨t, some w.pdus.next⟩)).1,
            (sync env session (w', ⟨t, some w.pdus.next⟩)).2.1)) := by
  by_cases ho : c.oid.empty = true
  · exact .inl ⟨ho, _, by rw [requestOne, if_pos ho, Run.throws_apply]⟩
  have hof : c.oid.empty = false := Bool.eq_false_iff.2 ho
  by_cases hc : env.pduCreate w.calls = none
  · exact .inr (.inl ⟨hof, hc, _, by rw [requestOne, if_neg ho, Run.bind_error (PDU.create_none env t hc)]⟩)
  obtain ⟨w₁, hcreate, hcalls, hbuilt⟩ := Built.create env t hc
  obtain ⟨es, ei, hr⟩ := hbuilt.request
  rcases c.onPdu_step env (h := ⟨t, some w.pdus.next⟩) rfl hr with
    ⟨w₂, hadd, hcalls₂, hfill, -, ha⟩ | ⟨e, w₂, hadd, hfill, ha⟩ <;> rw [hcalls] at ha
  · refine .inr (.inr (.inr ⟨hof, hc, ha, w₂, hbuilt.fill hfill, by omega, ?_⟩))
    rw [requestOne, if_neg ho, Run.bind_ok hcreate, Run.bind_ok (Run.on_ok hadd), Run.on_fst]
  · refine .inr (.inr (.inl ⟨hof, hc, ?_, e, w₂, ?_, hbuilt.fill hfill⟩))
    · exact Bool.eq_false_iff.2 (fun hc' => ha ⟨hof, hc'⟩)
    · rw [requestOne, if_neg ho, Run.bind_ok hcreate, Run.bind_error (Run.on_error hadd)]

/-! ## The ways getNext goes -/

section
variable (env : NetSnmp) (session : SessionHandle) {w : World} {h : PDU} {p : PduPtr} {r : Request}

theorem getNext_empty (he : h.empty w = (.ok true, w)) :
    getNext env session (w, h) = (.error (.exn (invalidArgument "Cannot GETNEXT with an empty PDU.")), (w, h)) := by
  rw [getNext, Run.this_bind, Run.lift_bind he, if_pos rfl, Run.throws_apply]

theorem PDU.empty_request (hp : h.pdu = some p) (hr : w.request p = some r) :
    h.empty w = (.ok (decide (r.vars = [])), w) := by
  obtain ⟨d, vs, hd, hvs, rfl⟩ := World.request_eq_some.1 hr
  rw [PDU.empty_ok hp hd]
  congr 2
  rw [Bool.eq_iff_iff, Option.isNone_iff_eq_none, decide_eq_true_iff]
  exact (World.vars_eq_nil_iff hvs).symm

theorem getNext_same (hp : h.pdu = some p) (hr : w.request p = some r) (hne : r.vars ≠ []) (ht : h.type = kGetNext) :
    getNext env session (w, h) = sync env session (w, h) := by
  have he := PDU.empty_request hp hr
  rw [decide_eq_false hne] at he
  rw [getNext, Run.this_bind, Run.lift_bind he, if_neg Bool.false_ne_true, if_pos ht]

theorem getNext_last (hp : h.pdu = some p) (hr : w.request p = some r) (hne : r.vars ≠ []) (ht : h.type ≠ kGetNext) :
    getNext env session (w, h)
      = ((getNextOid env session (OID.ofVarlist (lastVarbind r.vars)) (w.freePdu p)).1,
          ((getNextOid env session (OID.ofVarlist (lastVarbind r.vars)) (w.freePdu p)).2, PDU.null)) := by
  have he := PDU.empty_request hp hr
  rw [decide_eq_false hne] at he
  obtain ⟨d, vs, hd, hvs, rfl⟩ := World.request_eq_some.1 hr
  have hvl : d.variableList ≠ none := fun hc => hne ((World.vars_eq_nil_iff hvs).2 hc)
  rw [getNext, Run.this_bind, Run.lift_bind he, if_neg Bool.false_ne_true, if_neg ht,
    Run.lift_bind (PDU.varlist_ok hp hd hvl), Run.lift_bind (chain_ok hvs), Run.bind_ok (PDU.free_ok hp hr),
    Run.lift_apply]

end
end Snmppp
