import Snmppp.Adding
import Snmppp.PduRun
import Snmppp.Trap
/-!
# TrapRelease — a trap releases what it is given exactly once

`sendV2Trap` on a variable list has three ways to end, one equation each; on each the list is released once and a trap
goes out with two varbinds or more or not at all (`TrapSent`).  The overload for a PDU guts the PDU and releases it
before it passes the list on, the overload for an OID passes on a list of its own.
-/
namespace Snmppp

namespace World

theorem lists_freeList_cell (w : World) (vl : Option VarPtr) (l : VarPtr) :
    (w.freeList vl).lists.cell l = if vl = some l then none else w.lists.cell l := by
  cases vl with
  | none => rfl
  | some a =>
    by_cases h : l = a
    · subst h
      rw [if_pos rfl]
      exact w.lists.cell_free_self l
    · rw [if_neg (fun hc => h (Option.some.inj hc).symm)]
      exact w.lists.cell_free_of_ne a l h

theorem lists_freeList_next (w : World) (vl : Option VarPtr) : (w.freeList vl).lists.next = w.lists.next := by
  cases vl <;> rfl

end World

/-! ## The three ways it ends -/

section
variable (env : NetSnmp) {w : World} {v : Varlist} {vs : List Varbind}

theorem sendV2Trap_null (hv : v.varlist = none) :
    sendV2Trap env (w, v)
      = (.error (.exn (invalidArgument "Cannot send SNMPv2 trap using a NULL variable list.")), (w, v)) := by
  rw [sendV2Trap, Run.this_bind, if_pos (v.empty_iff.2 hv), Run.throws_apply]

theorem sendV2Trap_short (hv : w.vars v.varlist = some vs) (hne : v.varlist ≠ none) (hlen : vs.length < 2) :
    sendV2Trap env (w, v)
      = (.error (.exn (invalidArgument "Variable list is too small to be a valid SNMPv2 trap.")),
          (w.freeList v.varlist, ⟨none⟩)) := by
  have hsize : Varlist.size vs < 2 := hlen
  rw [sendV2Trap, Run.this_bind, if_neg (mt v.empty_iff.1 hne), Run.lift_bind (chain_ok hv), if_pos hsize,
    Run.bind_ok (Varlist.free_ok hv), Run.throws_apply]

theorem sendV2Trap_sent (hv : w.vars v.varlist = some vs) (hlen : 2 ≤ vs.length) :
    sendV2Trap env (w, v)
      = (if env.sendTraps w.calls = 0 then .ok () else .error (.exn (trapError (env.sendTraps w.calls))),
          ((w.logs (.trap vs (env.sendTraps w.calls))).tick.freeList v.varlist, ⟨none⟩)) := by
  have hne : v.varlist ≠ none := fun hc => by
    rw [← World.vars_eq_nil_iff hv] at hc
    rw [hc] at hlen
    cases hlen
  have hsize : ¬ Varlist.size vs < 2 := Nat.not_lt.2 hlen
  have hv' : ((w.logs (.trap vs (env.sendTraps w.calls))).tick).vars v.varlist = some vs := hv
  rw [sendV2Trap, Run.this_bind, if_neg (mt v.empty_iff.1 hne), Run.lift_bind (chain_ok hv), if_neg hsize,
    Run.lift_bind (netsnmpSendTraps_ok env hv), Run.bind_ok (Varlist.free_ok hv')]
  by_cases hrc : env.sendTraps w.calls = 0
  · rw [if_neg (not_not_intro hrc), if_pos hrc, Run.pure_apply]
  · rw [if_pos hrc, if_neg hrc, Run.throws_apply]

end

/-! ## The accounting -/

/-- **What a trap call leaves** that was given the list `vl`, of the varbinds `vs`, and the PDU `pdu`, each or NULL: it
does not fault; what it was given or has made itself it has released once, and nothing else; it has sent `vs`, or
nothing; and it returns when the trap went out with 0. -/
structure TrapSent (vl : Option VarPtr) (vs : List Varbind) (pdu : Option PduPtr) (w : World)
    (r : Except (Stop Exc) Unit) (w' : World) : Prop where
  noFault  : r ≠ .error .fault
  list     : ∀ l, vl = some l → w'.lists.freed l = w.lists.freed l + 1 ∧ w'.lists.cell l = none
  made     : ∀ l, w.lists.next ≤ l → l < w'.lists.next → w'.lists.freed l = 1
  lists    : ∀ l, l < w.lists.next → vl ≠ some l → w'.lists.cell l = w.lists.cell l
  owner    : ∀ p, pdu = some p → w'.pdus.freed p = w.pdus.freed p + 1 ∧ w'.pdus.cell p = none
  pdus     : w'.pdus.next = w.pdus.next ∧ ∀ p, pdu ≠ some p → w'.pdus.cell p = w.pdus.cell p
  traps    : trapsIn (w.since w') = [] ∨ ∃ rc, trapsIn (w.since w') = [(vs, rc)] ∧ 2 ≤ vs.length
  returned : r = .ok () ↔ trapsIn (w.since w') = [(vs, 0)]

theorem trapsIn_since_self {w w' : World} (h : w'.log = w.log) : trapsIn (w.since w') = [] := by
  rw [World.since_of_log_eq h]
  rfl

theorem trapsIn_since_trap {w w' : World} {vs : List Varbind} {rc : Int} (h : w'.log = w.log ++ [.trap vs rc]) :
    trapsIn (w.since w') = [(vs, rc)] := by
  rw [World.since_eq h]
  rfl

theorem TrapSent.of_freeList {w w' : World} {vl : Option VarPtr} {vs : List Varbind} {r : Except (Stop Exc) Unit}
    (hv : w.vars vl = some vs) (hlists : w'.lists = (w.freeList vl).lists) (hpdus : w'.pdus = w.pdus)
    (hr : r ≠ .error .fault)
    (htraps : trapsIn (w.since w') = [] ∨ ∃ rc, trapsIn (w.since w') = [(vs, rc)] ∧ 2 ≤ vs.length)
    (hret : r = .ok () ↔ trapsIn (w.since w') = [(vs, 0)]) : TrapSent vl vs none w r w' where
  noFault  := hr
  list     := fun l hl => by
    subst hl
    obtain ⟨c, hc, -⟩ := Option.map_eq_some_iff.1 hv
    rw [hlists]
    exact ⟨w.lists.freed_free_self l c hc, w.lists.cell_free_self l⟩
  made     := fun l hle hlt => by
    rw [hlists, World.lists_freeList_next] at hlt
    omega
  lists    := fun l _ hl => by rw [hlists, World.lists_freeList_cell, if_neg hl]
  owner    := fun p hp => by cases hp
  pdus     := ⟨by rw [hpdus], fun _ _ => by rw [hpdus]⟩
  traps    := htraps
  returned := hret

/-- **`sendV2Trap( Varlist & )`.** -/
theorem sendV2Trap_releases (env : NetSnmp) {w : World} {v : Varlist} {vs : List Varbind}
    (hv : w.vars v.varlist = some vs) :
    ∃ r w', sendV2Trap env (w, v) = (r, (w', ⟨none⟩)) ∧ w'.pdus = w.pdus ∧ TrapSent v.varlist vs none w r w' := by
  by_cases hne : v.varlist = none
  · obtain ⟨_⟩ := v
    subst hne
    have hnone := trapsIn_since_self (w := w) rfl
    refine ⟨_, _, sendV2Trap_null env rfl, rfl, .of_freeList hv rfl rfl (by simp) (.inl hnone) ?_⟩
    rw [hnone]
    simp
  by_cases hlen : vs.length < 2
  · have hpdus : (w.freeList v.varlist).pdus = w.pdus := World.pdus_freeList _ _
    have hnone := trapsIn_since_self (World.log_freeList w v.varlist)
    refine ⟨_, _, sendV2Trap_short env hv hne hlen, hpdus, .of_freeList hv rfl hpdus (by simp) (.inl hnone) ?_⟩
    rw [hnone]
    simp
  · rw [Nat.not_lt] at hlen
    let sent := (w.logs (.trap vs (env.sendTraps w.calls))).tick
    have hpdus : (sent.freeList v.varlist).pdus = w.pdus := World.pdus_freeList _ _
    have hlists : (sent.freeList v.varlist).lists = (w.freeList v.varlist).lists := by cases v.varlist <;> rfl
    have hone : trapsIn (w.since (sent.freeList v.varlist)) = [(vs, env.sendTraps w.calls)] :=
      trapsIn_since_trap (World.log_freeList _ _)
    refine ⟨_, _, sendV2Trap_sent env hv hlen, hpdus,
      .of_freeList hv hlists hpdus ?_ (.inr ⟨_, hone, hlen⟩) ?_⟩
    · by_cases hrc : env.sendTraps w.calls = 0 <;> simp [hrc]
    · rw [hone]
      by_cases hrc : env.sendTraps w.calls = 0 <;> simp [hrc]

/-! ## The overloads -/

theorem TrapSent.of_freePdu {w w₁ w' : World} {p : PduPtr} {vl : Option VarPtr} {vs : List Varbind}
    {r : Except (Stop Exc) Unit} (hlists : w₁.lists = w.lists) (hlog : w₁.log = w.log)
    (hnext : w₁.pdus.next = w.pdus.next) (hfreed : w₁.pdus.freed p = w.pdus.freed p + 1)
    (hcell : ∀ q, w₁.pdus.cell q = if q = p then none else w.pdus.cell q) (hpdus : w'.pdus = w₁.pdus)
    (h : TrapSent vl vs none w₁ r w') : TrapSent vl vs (some p) w r w' := by
  have hsince : w₁.since w' = w.since w' := by rw [World.since, World.since, hlog]
  exact {
    noFault  := h.noFault
    list     := fun l hl => by rw [← hlists]; exact h.list l hl
    made     := fun l hle hlt => h.made l (by rw [hlists]; exact hle) hlt
    lists    := fun l hlt hne => by rw [h.lists l (by rw [hlists]; exact hlt) hne, hlists]
    owner    := fun q hq => by
      cases hq
      exact ⟨by rw [hpdus, hfreed], by rw [hpdus, hcell, if_pos rfl]⟩
    pdus     := ⟨by rw [hpdus, hnext], fun q hq => by rw [hpdus, hcell, if_neg (fun hc => hq (by rw [hc]))]⟩
    traps    := hsince ▸ h.traps
    returned := hsince ▸ h.returned }

/-- **`sendV2Trap( PDU & )`**: the list leaves the PDU before the PDU is released. -/
theorem sendV2TrapPdu_releases (env : NetSnmp) {w : World} {h : PDU} {p : PduPtr} {d : NetsnmpPdu}
    {vs : List Varbind} (hp : h.pdu = some p) (hd : w.pdus.cell p = some d) (hvs : w.vars d.variableList = some vs) :
    ∃ r w', sendV2TrapPdu env (w, h) = (r, (w', PDU.null)) ∧ TrapSent d.variableList vs (some p) w r w' := by
  by_cases hvl : d.variableList = none
  · have hr : w.request p = some ⟨p, d.command, d.errstat, d.errindex, vs⟩ :=
      World.request_eq_some.2 ⟨d, vs, hd, hvs, rfl⟩
    have hempty : h.empty w = (.ok true, w) := by rw [PDU.empty_ok hp hd, hvl]; rfl
    have hlists : (w.freePdu p).lists = w.lists := by simp only [World.freePdu, hd, hvl, World.freeList]
    have hnone := trapsIn_since_self (w := w.freePdu p) rfl
    have hrun : sendV2TrapPdu env (w, h)
        = (.error (.exn (invalidArgument "Cannot send a trap using an empty PDU.")), (w.freePdu p, PDU.null)) := by
      rw [sendV2TrapPdu, Run.this_bind, Run.lift_bind hempty, if_pos rfl, Run.bind_ok (PDU.free_ok hp hr),
        Run.throws_apply]
    refine ⟨_, _, hrun, .of_freePdu hlists (w.log_freePdu p) (w.next_freePdu p) (w.freed_freePdu_self hd)
      (w.cell_freePdu p) rfl (.of_freeList ?_ ?_ rfl (by simp) (.inl hnone) ?_)⟩
    · rw [World.vars_congr hlists, hvs]
    · rw [hvl]
      rfl
    · rw [hnone]
      simp
  · let gutted := w.setPdu p { d with variableList := none }
    have hempty : h.empty w = (.ok false, w) := by
      rw [PDU.empty_ok hp hd, Option.isNone_eq_false_iff.2 (Option.isSome_iff_ne_none.2 hvl)]
    have hcell : gutted.pdus.cell p = some { d with variableList := none } := Arena.cell_put_self _ p _ hd
    have hr : gutted.request p = some ⟨p, d.command, d.errstat, d.errindex, []⟩ :=
      World.request_eq_some.2 ⟨_, [], hcell, rfl, rfl⟩
    have hlists : (gutted.freePdu p).lists = w.lists := by
      simp only [World.freePdu, hcell, World.freeList]
      rfl
    have hcells : ∀ q, (gutted.freePdu p).pdus.cell q = if q = p then none else w.pdus.cell q := fun q => by
      rw [World.cell_freePdu]
      split
      · rfl
      · rename_i hq
        exact w.pdus.cell_put_of_ne p q _ hq
    have hvs' : (gutted.freePdu p).vars d.variableList = some vs := by rw [World.vars_congr hlists, hvs]
    obtain ⟨r, w', hrun, hpdus, hsent⟩ :=
      sendV2Trap_releases env (w := gutted.freePdu p) (v := ⟨d.variableList⟩) hvs'
    refine ⟨r, w', ?_, .of_freePdu hlists (World.log_freePdu _ _) (World.next_freePdu _ _)
      (gutted.freed_freePdu_self hcell) hcells hpdus hsent⟩
    rw [sendV2TrapPdu, Run.this_bind, Run.lift_bind hempty, if_neg Bool.false_ne_true]
    simp only [hp]
    rw [Run.lift_bind (deref_ok hd), Run.lift_bind (assign_ok hd _), Run.bind_ok (PDU.free_ok hp hr)]
    exact Run.lift_on_discard hrun _

theorem sendV2TrapPdu_null (env : NetSnmp) {w : World} {h : PDU} (hp : h.pdu = none) :
    ∃ r w', sendV2TrapPdu env (w, h) = (r, (w', PDU.null)) ∧ TrapSent none [] none w r w' := by
  have hrun : sendV2TrapPdu env (w, h)
      = (.error (.exn (invalidArgument "Cannot send a trap using an empty PDU.")), (w, PDU.null)) := by
    rw [sendV2TrapPdu, Run.this_bind, Run.lift_bind (PDU.empty_null hp), if_pos rfl, Run.bind_ok (PDU.free_null hp),
      Run.throws_apply]
  have hnone := trapsIn_since_self (w := w) rfl
  refine ⟨_, _, hrun, .of_freeList rfl rfl rfl (by simp) (.inl hnone) ?_⟩
  rw [hnone]
  simp

def trapVarbinds (env : NetSnmp) (o : OID) (uptime : Int64) : List Varbind :=
  [⟨(OID.ofCommon .kSysUpTime).v, ASN_TIMETICKS, env.copyValue ASN_TIMETICKS (Bytes.ofNat 8 uptime.toUInt64.toNat)⟩,
    ⟨(OID.ofCommon .kTrap).v, ASN_OBJECT_ID,
      env.copyValue ASN_OBJECT_ID (o.v.flatMap (fun n => Bytes.ofNat 8 n.toNat))⟩]

/-- **`createV2TrapVarlist`**: a list of its own, of both varbinds or of fewer than two. -/
theorem createV2TrapVarlist_made (env : NetSnmp) (w : World) (o : OID) (uptime : Int64) (ho : o.empty = false) :
    ∃ v w' xs, createV2TrapVarlist env o uptime w = (.ok v, w') ∧ w'.pdus = w.pdus ∧ Grows xs w none w' v.varlist ∧
      (env.addVariable w.calls = true ∧ env.addVariable (w.calls + 1) = true → xs = trapVarbinds env o uptime) ∧
      (2 ≤ xs.length → xs = trapVarbinds env o uptime) := by
  obtain ⟨vl₁, w₁, hrun₁, hpdus₁, hcalls₁, hgrow₁⟩ := snmpVarlistAddVariable_step env w.vars_none
    (OID.ofCommon .kSysUpTime) ASN_TIMETICKS (Bytes.ofNat 8 uptime.toUInt64.toNat)
  obtain ⟨vl₂, w₂, hrun₂, hpdus₂, -, hgrow₂⟩ := snmpVarlistAddVariable_step env (hgrow₁.vars [] rfl)
    (OID.ofCommon .kTrap) ASN_OBJECT_ID (o.v.flatMap (fun n => Bytes.ofNat 8 n.toNat))
  refine ⟨⟨vl₂⟩, w₂, _, ?_, hpdus₂.trans hpdus₁, hgrow₁.trans hgrow₂, ?_, ?_⟩
  · simp only [createV2TrapVarlist, ho, Bool.false_eq_true, if_false]
    rw [Run.bind_ok hrun₁, Run.bind_ok hrun₂, Run.pure_apply]
  · rintro ⟨ha₁, ha₂⟩
    rw [if_pos ha₁, hcalls₁, if_pos ha₂]
    rfl
  · intro hlen
    split at hlen <;> split at hlen <;> simp at hlen
    rename_i ha₁ ha₂
    rw [if_pos ha₁, if_pos ha₂]
    rfl

/-- **`sendV2Trap( const OID &, long )`**: what was made for the trap is released with it. -/
theorem sendV2TrapOid_releases (env : NetSnmp) (w : World) (o : OID) (uptime : Int64) :
    TrapSent none (trapVarbinds env o uptime) none w (sendV2TrapOid env o uptime w).1
      (sendV2TrapOid env o uptime w).2 := by
  by_cases ho : o.empty = true
  · have hrun : sendV2TrapOid env o uptime w
        = (.error (.exn (invalidArgument "Cannot create SNMPv2 trap without an OID.")), w) := by
      apply Run.bind_error
      rw [createV2TrapVarlist, if_pos ho, Run.throws_apply]
    have hnone := trapsIn_since_self (w := w) rfl
    rw [hrun]
    refine ⟨by simp, fun l hl => (by cases hl), fun l hle hlt => absurd hlt (Nat.not_lt.2 hle), fun _ _ _ => rfl,
      fun p hp => (by cases hp), ⟨rfl, fun _ _ => rfl⟩, .inl hnone, ?_⟩
    rw [hnone]
    simp
  · obtain ⟨v, w₁, xs, hmade, hpdus₁, hgrow, -, hshort⟩ :=
      createV2TrapVarlist_made env w o uptime (Bool.eq_false_iff.2 ho)
    obtain ⟨r, w', hrun, hpdus, hsent⟩ := sendV2Trap_releases env (hgrow.vars [] rfl)
    rw [List.nil_append] at hsent
    have hall : sendV2TrapOid env o uptime w = (r, w') := by
      rw [sendV2TrapOid, Run.bind_ok hmade]
      exact Run.on_discard hrun
    have hsince : w₁.since w' = w.since w' := by simp only [World.since, hgrow.log]
    rw [hall]
    exact {
      noFault  := hsent.noFault
      list     := fun l hl => by cases hl
      made     := fun l hle hlt => by
        by_cases hnext : w₁.lists.next ≤ l
        · exact hsent.made l hnext hlt
        by_cases hv : v.varlist = some l
        · have hcount := (hsent.list l hv).1
          have hle1 := w'.lists.freed_le_one l
          show w'.lists.freed l = 1
          omega
        · exact w'.lists.freed_eq_one hlt (by rw [hsent.lists l (Nat.not_le.1 hnext) hv, hgrow.new_of_ne hle hv])
      lists    := fun l hlt _ => by
        obtain ⟨hne, hold⟩ := hgrow.old_of_none hlt
        rw [hsent.lists l (Nat.lt_of_lt_of_le hlt hgrow.next) hne, hold]
      owner    := fun p hp => by cases hp
      pdus     := by rw [hpdus, hpdus₁]; exact ⟨rfl, fun _ _ => rfl⟩
      traps    := by
        rw [← hsince]
        rcases hsent.traps with hnone | ⟨rc, hone, hlen⟩
        · exact .inl hnone
        · exact .inr ⟨rc, by rw [hone, hshort hlen], Nat.le_refl _⟩
      returned := by
        rw [hsent.returned, ← hsince]
        rcases hsent.traps with hnone | ⟨rc, hone, hlen⟩
        · rw [hnone]
          simp
        · rw [hshort hlen] }

/-- What the handle `h` holds: the list `vl` of the varbinds `vs`, NULL when the PDU is NULL. -/
def PDU.Holds (w : World) (h : PDU) (vl : Option VarPtr) (vs : List Varbind) : Prop :=
  match h.pdu with
  | none   => vl = none ∧ vs = []
  | some p => ∃ d, w.pdus.cell p = some d ∧ d.variableList = vl ∧ w.vars vl = some vs

/-- **Sending a trap releases exactly once and never sends a short list.**  However each of the three overloads ends,
the list and the PDU it was given, or has made itself, have been released once, the caller's handle is empty, at most
one trap was sent, in the caller's order and with two varbinds or more, and the call returned exactly when a trap was
sent with 0. -/
theorem traps_release_once (env : NetSnmp) (w : World) :
    (∀ (v : Varlist) (vs : List Varbind), w.vars v.varlist = some vs →
      ∃ r w', sendV2Trap env (w, v) = (r, (w', ⟨none⟩)) ∧ TrapSent v.varlist vs none w r w') ∧
    (∀ (h : PDU) (vl : Option VarPtr) (vs : List Varbind), h.Holds w vl vs →
      ∃ r w', sendV2TrapPdu env (w, h) = (r, (w', PDU.null)) ∧ TrapSent vl vs h.pdu w r w') ∧
    ∀ (o : OID) (uptime : Int64), ∃ r w', sendV2TrapOid env o uptime w = (r, w') ∧
      TrapSent none (trapVarbinds env o uptime) none w r w' := by
  refine ⟨fun v vs hv => ?_, fun h vl vs hh => ?_, fun o uptime => ⟨_, _, rfl, sendV2TrapOid_releases env w o uptime⟩⟩
  · obtain ⟨r, w', hrun, -, hsent⟩ := sendV2Trap_releases env hv
    exact ⟨r, w', hrun, hsent⟩
  · unfold PDU.Holds at hh
    cases hp : h.pdu with
    | none =>
      simp only [hp] at hh
      obtain ⟨rfl, rfl⟩ := hh
      exact sendV2TrapPdu_null env hp
    | some p =>
      simp only [hp] at hh
      obtain ⟨d, hd, rfl, hvs⟩ := hh
      exact sendV2TrapPdu_releases env hp hd hvs

theorem traps_release_once_witness :
    let env := NetSnmp.working (fun _ => .timeout)
    let vs : List Varbind := [⟨[1, 3], ASN_TIMETICKS, []⟩, ⟨[1, 4], ASN_OBJECT_ID, []⟩]
    let w := (World.start.newList vs).2.newPdu ⟨kTrap2, 0, 0, some 0⟩
    ∃ w', sendV2TrapPdu env (w, ⟨kTrap2, some 0⟩) = (.ok (), (w', PDU.null)) ∧
      TrapSent (some 0) vs (some 0) w (.ok ()) w' ∧ trapsIn (w.since w') = [(vs, 0)] := by
  intro env vs w
  obtain ⟨r, w', hrun, hsent⟩ := (traps_release_once env w).2.1 ⟨kTrap2, some 0⟩ (some 0) vs
    ⟨⟨kTrap2, 0, 0, some 0⟩, rfl, rfl, rfl⟩
  have hr : r = .ok () := (Prod.mk.inj hrun).1.symm
  rw [hr] at hrun hsent
  exact ⟨w', hrun, hsent, hsent.returned.1 rfl⟩

end Snmppp
