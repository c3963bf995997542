import Snmppp.SyncRun
import Snmppp.Trap
/-!
# Tag — the type of a PDU and the command of its netsnmp_pdu

A `PDU` keeps a copy of `pdu->command` as its type, and `getNext` and `getBulk` dispatch on the copy alone.  No method
lets the two drift apart: each keeps the tag of the handle it works on right (`Runs`) and leaves the commands of all
other PDUs alone (`Keeps`), however it ends and whatever state the lists are in.
-/
namespace Snmppp

/-- **The tag of a handle is right**: it is that of nothing, or the command of its PDU. -/
structure Tagged (w : World) (h : PDU) : Prop where
  null : h.pdu = none → h.type = kInvalid
  real : ∀ p, h.pdu = some p → ∃ d, w.pdus.cell p = some d ∧ d.command = h.type

theorem Tagged.of_null (w : World) : Tagged w PDU.null := ⟨fun _ => rfl, fun _ h => by cases h⟩

/-- **What happened from `w` to `w'`**: of the PDUs there were, only `own` may have been released, and none has changed
its command; and every request sent has a command as `C` says. -/
structure Keeps (C : Int → Prop) (own : Option PduPtr) (w w' : World) : Prop where
  next : w.pdus.next ≤ w'.pdus.next
  old  : ∀ a d, w.pdus.cell a = some d → own ≠ some a → ∃ d', w'.pdus.cell a = some d' ∧ d'.command = d.command
  sent : ∃ es, w'.log = w.log ++ es ∧ ∀ r ∈ sentIn es, C r.command

namespace Keeps

variable {C : Int → Prop} {own own' : Option PduPtr} {w w₁ w' : World}

theorem of_eq (hpdus : w'.pdus = w.pdus) (hlog : w'.log = w.log) : Keeps C own w w' where
  next := Nat.le_of_eq (by rw [hpdus])
  old  := fun a d hd _ => ⟨d, by rw [hpdus, hd], rfl⟩
  sent := ⟨[], by rw [hlog, List.append_nil], fun _ h => by cases h⟩

theorem refl : Keeps C own w w := of_eq rfl rfl

theorem trans (h : Keeps C own w w₁) (h' : Keeps C own' w₁ w')
    (hown : ∀ p, own' = some p → own = some p ∨ w.pdus.next ≤ p) : Keeps C own w w' where
  next := Nat.le_trans h.next h'.next
  old  := fun a d hd hne => by
    obtain ⟨d₁, hd₁, hc₁⟩ := h.old a d hd hne
    have hne' : own' ≠ some a := fun hc => by
      rcases hown a hc with ho | ho
      · exact hne ho
      · exact absurd (w.pdus.lt_next_of_cell hd) (Nat.not_lt.2 ho)
    obtain ⟨d', hd', hc'⟩ := h'.old a d₁ hd₁ hne'
    exact ⟨d', hd', hc'.trans hc₁⟩
  sent := by
    obtain ⟨es, hlog, hes⟩ := h.sent
    obtain ⟨es', hlog', hes'⟩ := h'.sent
    refine ⟨es ++ es', by rw [hlog', hlog, List.append_assoc], fun r hr => ?_⟩
    rw [sentIn_append, List.mem_append] at hr
    exact hr.elim (hes r) (hes' r)

theorem freePdu (w : World) (p : PduPtr) : Keeps C (some p) w (w.freePdu p) where
  next := Nat.le_of_eq (w.next_freePdu p).symm
  old  := fun a d hd hne => ⟨d, by rw [World.cell_freePdu, if_neg (fun hc => hne (by rw [hc])), hd], rfl⟩
  sent := ⟨[], by rw [World.log_freePdu, List.append_nil], fun _ h => by cases h⟩

theorem setPdu {p : PduPtr} {d d' : NetsnmpPdu} (hd : w.pdus.cell p = some d) (hc : d'.command = d.command) :
    Keeps C own w (w.setPdu p d') where
  next := Nat.le_refl _
  old  := fun a x hx _ => by
    by_cases ha : a = p
    · subst ha
      rw [hd, Option.some.injEq] at hx
      exact ⟨d', w.pdus.cell_put_self a d' hd, by rw [hc, hx]⟩
    · exact ⟨x, by rw [World.pdus_setPdu, Arena.cell_put_of_ne _ _ _ _ ha, hx], rfl⟩
  sent := ⟨[], (List.append_nil _).symm, fun _ h => by cases h⟩

theorem alloc {d : NetsnmpPdu} {es : List Event} (hpdus : w'.pdus = w.pdus.alloc d) (hlog : w'.log = w.log ++ es)
    (hes : sentIn es = []) : Keeps C own w w' where
  next := by rw [hpdus, Arena.next_alloc]; exact Nat.le_succ _
  old  := fun a x hx _ => ⟨x, by rw [hpdus, Arena.cell_alloc_of_lt _ _ _ (w.pdus.lt_next_of_cell hx), hx], rfl⟩
  sent := ⟨es, hlog, fun r hr => by rw [hes] at hr; cases hr⟩

theorem handed {p : PduPtr} {r : Request} (hC : C r.command) : Keeps C (some p) w (w.handed p r) where
  next := Nat.le_of_eq (World.next_handed w p r).symm
  old  := fun a d hd hne => ⟨d, by rw [World.cell_handed, if_neg (fun hc => hne (by rw [hc])), hd], rfl⟩
  sent := ⟨[.sent r], World.log_handed w p r, fun r' hr' => by
    rw [List.mem_singleton.1 (show r' ∈ [r] from hr')]
    exact hC⟩

theorem deliver (w : World) (a : Response) : Keeps C own w (w.deliver a) :=
  .alloc (w.pdus_deliver a) (w.log_deliver a) rfl

end Keeps

/-- **The object of a method on its way**: started in `w₀` on a handle of the PDU `own`, it is now `h` in `w`, its tag
right, its PDU still that one or a new one. -/
structure Runs (C : Int → Prop) (own : Option PduPtr) (w₀ : World) (s : World × PDU) : Prop where
  keeps  : Keeps C own w₀ s.1
  tagged : Tagged s.1 s.2
  place  : ∀ p, s.2.pdu = some p → own = some p ∨ w₀.pdus.next ≤ p

/-- **What a function returns**: a handle with its tag right, of a new PDU or none. -/
structure Returns (C : Int → Prop) (own : Option PduPtr) (w₀ : World) (r : PDU) (w : World) : Prop where
  keeps  : Keeps C own w₀ w
  tagged : Tagged w r
  new    : ∀ p, r.pdu = some p → w₀.pdus.next ≤ p

namespace Runs

variable {C : Int → Prop} {own : Option PduPtr} {w₀ w w' : World} {h : PDU}

theorem start {C : Int → Prop} (ht : Tagged w h) : Runs C h.pdu w (w, h) := ⟨.refl, ht, fun _ hp => .inl hp⟩

theorem null (hk : Keeps C own w₀ w) : Runs C own w₀ (w, PDU.null) := ⟨hk, .of_null w, fun _ hp => by cases hp⟩

theorem drop {own' : Option PduPtr} (hr : Runs C own w₀ (w, h)) (hk : Keeps C own' w w')
    (ho : ∀ p, own' = some p → h.pdu = some p ∨ w.pdus.next ≤ p) : Runs C own w₀ (w', PDU.null) :=
  .null (hr.keeps.trans hk (fun p hp => (ho p hp).elim (hr.place p) (fun hle => .inr (Nat.le_trans hr.keeps.next hle))))

theorem frame (hr : Runs C own w₀ (w, h)) (hk : Keeps C none w w') : Runs C own w₀ (w', h) where
  keeps  := hr.keeps.trans hk (fun _ hp => by cases hp)
  tagged := ⟨hr.tagged.null, fun p hp => by
    obtain ⟨d, hd, hc⟩ := hr.tagged.real p hp
    obtain ⟨d', hd', hc'⟩ := hk.old p d hd (by simp)
    exact ⟨d', hd', hc'.trans hc⟩⟩
  place  := hr.place

end Runs

/-! ## The calls -/

section
variable {w : World} {α : Type}

theorem deref_leaves {p : PduPtr} {Q : NetsnmpPdu → World → Prop} {E : Stop Exc → World → Prop}
    (hE : E .fault w) (h : ∀ d, w.pdus.cell p = some d → Q d w) : (deref p).Leaves w Q E := by
  unfold Run.Leaves deref
  cases hd : w.pdus.cell p with
  | none => exact hE
  | some d => exact h d hd

theorem chain_leaves {vl : Option VarPtr} {Q : List Varbind → World → Prop} {E : Stop Exc → World → Prop}
    (hE : E .fault w) (h : ∀ vs, Q vs w) : (chain vl).Leaves w Q E := by
  unfold Run.Leaves chain
  cases w.vars vl with
  | none => exact hE
  | some vs => exact h vs

theorem assign_leaves {p : PduPtr} {f : NetsnmpPdu → NetsnmpPdu} {Q : Unit → World → Prop}
    {E : Stop Exc → World → Prop} (hE : E .fault w)
    (h : ∀ d, w.pdus.cell p = some d → Q () (w.setPdu p (f d))) : (assign p f).Leaves w Q E := by
  unfold Run.Leaves assign
  cases hd : w.pdus.cell p with
  | none => exact hE
  | some d => exact h d hd

theorem snmpFreeVarbind_leaves {vl : Option VarPtr} {Q : Unit → World → Prop} {E : Stop Exc → World → Prop}
    (hE : E .fault w) (h : Q () (w.freeList vl)) : (snmpFreeVarbind vl).Leaves w Q E := by
  unfold Run.Leaves snmpFreeVarbind
  cases w.vars vl with
  | none => exact hE
  | some vs => exact h

theorem snmpFreePdu_leaves {pdu : Option PduPtr} {Q : Unit → World → Prop} {E : Stop Exc → World → Prop}
    (hE : E .fault w) (hnone : pdu = none → Q () w) (hsome : ∀ p, pdu = some p → Q () (w.freePdu p)) :
    (snmpFreePdu pdu).Leaves w Q E := by
  cases pdu with
  | none => exact hnone rfl
  | some p =>
    cases hr : w.request p with
    | none => simpa only [Run.Leaves, snmpFreePdu, hr] using hE
    | some r => simpa only [Run.Leaves, snmpFreePdu, hr] using hsome p rfl

variable (env : NetSnmp)

theorem snmpVarlistAddVariable_leaves {vl : Option VarPtr} {name : OID} {type : UInt8} {value : List UInt8}
    {Q : Option VarPtr × Bool → World → Prop} {E : Stop Exc → World → Prop}
    (hE : E .fault w) (h : ∀ r w', w'.pdus = w.pdus → w'.log = w.log → Q r w') :
    (snmpVarlistAddVariable env vl name type value).Leaves w Q E := by
  cases hvs : w.vars vl with
  | none => simpa only [Run.Leaves, snmpVarlistAddVariable, hvs] using hE
  | some vs =>
    obtain ⟨vl', w', hrun, hpdus, -, hgrow⟩ := snmpVarlistAddVariable_step env hvs name type value
    rw [Run.Leaves, hrun]
    exact h _ _ hpdus hgrow.log

theorem snmpPduCreate_leaves {t : Int} {Q : Option PduPtr → World → Prop} {E : Stop Exc → World → Prop}
    (hnone : Q none w.tick)
    (hsome : ∀ d w', d.command = t → w'.pdus = w.pdus.alloc d → w'.log = w.log ++ [.created w.pdus.next] →
      Q (some w.pdus.next) w') : (snmpPduCreate env t).Leaves w Q E := by
  unfold Run.Leaves snmpPduCreate
  cases env.pduCreate w.calls with
  | none => exact hnone
  | some e => exact hsome ⟨t, e.1, e.2, none⟩ _ rfl rfl rfl

theorem snmpClonePdu_leaves {pdu : Option PduPtr} {Q : Option PduPtr → World → Prop} {E : Stop Exc → World → Prop}
    (hE : E .fault w) (hnone : Q none w.tick)
    (hsome : ∀ d w', w'.pdus = w.pdus.alloc d → w'.log = w.log → Q (some w.pdus.next) w') :
    (snmpClonePdu env pdu).Leaves w Q E := by
  cases pdu with
  | none => exact hE
  | some p =>
    cases hr : w.request p with
    | none => simpa only [Run.Leaves, snmpClonePdu, hr] using hE
    | some r =>
      by_cases hc : env.pduClone w.calls = true
      · simp only [Run.Leaves, snmpClonePdu, hr, hc, if_true]
        exact hsome _ _ (by rw [World.pdus_tick, World.pdus_newPdu, World.pdus_newList]) (World.log_newList _ _)
      · simp only [Run.Leaves, snmpClonePdu, hr, hc, if_false, Bool.false_eq_true]
        exact hnone

theorem snmpSessSynchResponse_leaves {p : PduPtr} {Q : Int × Option PduPtr → World → Prop}
    {E : Stop Exc → World → Prop} (hE : E .fault w)
    (hnone : ∀ r status, w.request p = some r → Q (status, none) (w.handed p r))
    (hsome : ∀ r status a, w.request p = some r →
      Q (status, some w.pdus.next) ((w.handed p r).deliver a)) : (snmpSessSynchResponse env p).Leaves w Q E := by
  unfold Run.Leaves
  cases hr : w.request p with
  | none => simpa only [snmpSessSynchResponse, hr] using hE
  | some r =>
    cases hresp : (env.synchResponse w.calls).response with
    | none =>
      rw [snmpSessSynchResponse_none env hr hresp]
      exact hnone r _ hr
    | some a =>
      rw [snmpSessSynchResponse_some env hr hresp]
      exact hsome r _ a hr

theorem snmpSessError_leaves {Q : SessError → World → Prop} {E : Stop Exc → World → Prop} (h : ∀ e, Q e w.tick) :
    (snmpSessError env).Leaves w Q E := h _

theorem netsnmpSendTraps_leaves {vl : Option VarPtr} {Q : Int → World → Prop} {E : Stop Exc → World → Prop}
    (hE : E .fault w) (h : ∀ rc w' vs, w'.pdus = w.pdus → w'.log = w.log ++ [.trap vs rc] → Q rc w') :
    (netsnmpSendTraps env vl).Leaves w Q E := by
  unfold Run.Leaves netsnmpSendTraps
  cases w.vars vl with
  | none => exact hE
  | some vs => exact h _ _ vs rfl rfl

end

/-! ## Variable lists -/

/-- **What a method of a variable list does to the world, if anything**: nothing to the PDUs, and it sends no
request. -/
def Quiet (w w' : World) : Prop := w'.pdus = w.pdus ∧ ∃ es, w'.log = w.log ++ es ∧ sentIn es = []

namespace Quiet

variable {w w₁ w' : World}

theorem of_eq (hpdus : w'.pdus = w.pdus) (hlog : w'.log = w.log) : Quiet w w' :=
  ⟨hpdus, [], by rw [hlog, List.append_nil], rfl⟩

theorem trans (h : Quiet w w₁) (h' : Quiet w₁ w') : Quiet w w' := by
  obtain ⟨hpdus, es, hlog, hes⟩ := h
  obtain ⟨hpdus', es', hlog', hes'⟩ := h'
  refine ⟨hpdus'.trans hpdus, es ++ es', by rw [hlog', hlog, List.append_assoc], ?_⟩
  rw [sentIn_append, hes, hes', List.append_nil]

theorem keeps {C : Int → Prop} {own : Option PduPtr} (h : Quiet w w') : Keeps C own w w' := by
  obtain ⟨hpdus, es, hlog, hes⟩ := h
  exact ⟨Nat.le_of_eq (by rw [hpdus]), fun a d hd _ => ⟨d, by rw [hpdus, hd], rfl⟩, es, hlog,
    fun r hr => by rw [hes] at hr; cases hr⟩

end Quiet

/-- A method of a variable list that is quiet from every state. -/
def QuietMethod (m : Method Varlist Unit) : Prop :=
  ∀ w v, m.Leaves (w, v) (fun _ s => Quiet w s.1) (fun _ s => Quiet w s.1)

section
variable (env : NetSnmp)

theorem Varlist.addVar_quiet (o : OID) (type : UInt8) (value : List UInt8) :
    QuietMethod (addVar env o type value) := by
  intro w v
  unfold addVar
  split
  · exact .throws (.of_eq rfl rfl)
  · refine .bind (.this (.bind (.lift (snmpVarlistAddVariable_leaves env (.of_eq rfl rfl)
      (fun r w' hpdus hlog => ?_)))))
    refine .bind (.setThis ?_)
    split
    · exact .pure (.of_eq hpdus hlog)
    · exact .throws (.of_eq hpdus hlog)

theorem Varlist.each_addNullVar_quiet (os : List OID) : QuietMethod (Run.each (addNullVar env) os) := by
  intro w v
  refine Run.Leaves.each (I := fun s => Quiet w s.1) (fun o s hs => ?_) os (w, v) (.of_eq rfl rfl)
  exact (addVar_quiet env o ASN_NULL [] s.1 s.2).imp (fun _ _ h => hs.trans h) (fun _ _ h => hs.trans h)

theorem AddCall.onVarlist_quiet (c : AddCall) : QuietMethod (c.onVarlist env) := by
  rw [c.onVarlist_eq]
  exact Varlist.addVar_quiet env _ _ _

theorem Varlist.free_quiet : QuietMethod Varlist.free := by
  intro w v
  unfold Varlist.free
  refine .bind (.this (.bind (.lift ?_)))
  split
  · exact snmpFreeVarbind_leaves (.of_eq rfl rfl) (.setThis (.of_eq (World.pdus_freeList _ _) (World.log_freeList _ _)))
  · exact .pure (.setThis (.of_eq rfl rfl))

theorem sendV2Trap_quiet : QuietMethod (sendV2Trap env) := by
  intro w v
  unfold sendV2Trap
  refine .bind (.this ?_)
  split
  · exact .throws (.of_eq rfl rfl)
  refine .bind (.lift (chain_leaves (.of_eq rfl rfl) (fun vs => ?_)))
  split
  · refine .bind ((Varlist.free_quiet w v).imp (fun _ s hs => .throws hs) (fun _ _ hs => hs))
  refine .bind (.lift (netsnmpSendTraps_leaves env (.of_eq rfl rfl) (fun rc w' vs hpdus hlog => ?_)))
  have hsent : Quiet w w' := ⟨hpdus, _, hlog, rfl⟩
  refine .bind ((Varlist.free_quiet w' v).imp (fun _ s hs => ?_) (fun _ _ hs => hsent.trans hs))
  split
  · exact .throws (hsent.trans hs)
  · exact .pure (hsent.trans hs)

end

/-! ## Methods of a PDU -/

section
variable {C : Int → Prop} {own : Option PduPtr} {w₀ w w' : World} {h : PDU}

theorem Runs.of_quiet (hr : Runs C own w₀ (w, h)) (hq : Quiet w w') : Runs C own w₀ (w', h) := hr.frame hq.keeps

theorem PDU.free_leaves (hr : Runs C own w₀ (w, h)) {Q : Unit → World × PDU → Prop}
    {E : Stop Exc → World × PDU → Prop} (hE : E .fault (w, h))
    (hQ : ∀ w', Runs C own w₀ (w', PDU.null) → Q () (w', PDU.null)) : PDU.free.Leaves (w, h) Q E := by
  have hnull : Runs C own w₀ (w, PDU.null) := .null hr.keeps
  unfold PDU.free
  refine .bind (.this (.bind (.lift ?_)))
  split
  · refine snmpFreePdu_leaves hE (fun _ => .setThis (hQ w hnull)) (fun p hp => .setThis (hQ (w.freePdu p) ?_))
    exact hr.drop (.freePdu w p) (fun q hq => .inl (by rw [← hq]; exact hp))
  · exact .pure (.setThis (hQ w hnull))

theorem PDU.empty_leaves {Q : Bool → World → Prop} {E : Stop Exc → World → Prop} (hE : E .fault w) (hQ : ∀ b, Q b w) :
    h.empty.Leaves w Q E := by
  unfold PDU.empty
  split
  · exact .pure (hQ _)
  · exact .bind (deref_leaves hE (fun d _ => .pure (hQ _)))

theorem PDU.varlist_leaves {Q : Varlist → World → Prop} {E : Stop Exc → World → Prop} (hQ : ∀ v, Q v w)
    (hE : ∀ e, E e w) : h.varlist.Leaves w Q E := by
  unfold PDU.varlist
  split
  · exact .throws (hE _)
  · refine .bind (deref_leaves (hE _) (fun d _ => ?_))
    split
    · exact .throws (hE _)
    · exact .pure (hQ _)

theorem PDU.inherit_leaves {pdu : Option PduPtr} {Q : PDU → World → Prop} {E : Stop Exc → World → Prop}
    (hE : E .fault w) (hQ : ∀ r, Tagged w r → r.pdu = pdu → Q r w) : (PDU.inherit pdu).Leaves w Q E := by
  cases pdu with
  | none => exact .pure (hQ _ (.of_null w) rfl)
  | some p =>
    refine .bind (deref_leaves hE (fun d hd => .pure (hQ _ ⟨fun hp => (by cases hp), fun q hq => ?_⟩ rfl)))
    cases hq
    exact ⟨d, hd, rfl⟩

theorem PDU.setVarlist_runs (hr : Runs C own w₀ (w, h)) (vl : Option VarPtr) :
    (PDU.setVarlist vl).Leaves (w, h) (fun _ s => Runs C own w₀ s ∧ s.2 = h)
      (fun _ s => Runs C own w₀ s ∧ s.2 = h) := by
  unfold PDU.setVarlist
  refine .bind (.this ?_)
  split
  · exact .throws ⟨hr, rfl⟩
  refine .bind (.lift (deref_leaves ⟨hr, rfl⟩ (fun d _ => ?_)))
  split
  · have hfreed : Runs C own w₀ (w.freeList d.variableList, h) :=
      hr.of_quiet (.of_eq (World.pdus_freeList _ _) (World.log_freeList _ _))
    refine .bind (.lift (snmpFreeVarbind_leaves ⟨hr, rfl⟩ (.lift (assign_leaves ⟨hfreed, rfl⟩ (fun d' hd' => ?_)))))
    exact ⟨hfreed.frame (.setPdu hd' rfl), rfl⟩
  · exact .pure ⟨hr, rfl⟩

theorem PDU.addVia_runs {add : Method Varlist Unit} (hadd : QuietMethod add) (hr : Runs C own w₀ (w, h)) :
    (PDU.addVia add).Leaves (w, h) (fun _ s => Runs C own w₀ s ∧ s.2 = h)
      (fun _ s => Runs C own w₀ s ∧ s.2 = h) := by
  unfold PDU.addVia
  refine .bind (.this ?_)
  split
  · exact .throws ⟨hr, rfl⟩
  refine .bind (.lift (deref_leaves ⟨hr, rfl⟩ (fun d _ => ?_)))
  split
  · refine .bind (.lift (.on ((hadd w Varlist.new).imp (fun _ s hs => ?_) (fun _ s hs => ⟨hr.of_quiet hs, rfl⟩))))
    exact PDU.setVarlist_runs (hr.of_quiet hs) _
  · refine .bind (.lift (PDU.varlist_leaves (fun v => ?_) (fun _ => ⟨hr, rfl⟩)))
    refine .bind (.lift (.on ((hadd w v).imp (fun _ s hs => ?_) (fun _ s hs => ⟨hr.of_quiet hs, rfl⟩))))
    exact .pure ⟨hr.of_quiet hs, rfl⟩

end

end Snmppp
