import Snmppp.Memory
import Snmppp.Pdu
/-!
# Adding — what the add methods do to a variable list

An `add` method either appends one varbind at the tail or throws and leaves the list as it was (`AddCall.onVarlist_ok`,
`AddCall.onVarlist_empty`, `AddCall.onVarlist_null`); whatever is made of such calls only grows the list it is called
on (`Grows`).  On a PDU it does the same to the PDU's list (`PDU.addVia_ok`, `PDU.addVia_error`).
-/
namespace Snmppp

/-- **The list at `vl` grown into the one at `vl'`** by the varbinds `added`: no other list changes, the head pointer
changes only from NULL to a new list, and no other new list stays behind. -/
structure Grows (added : List Varbind) (w : World) (vl : Option VarPtr) (w' : World) (vl' : Option VarPtr) : Prop where
  log   : w'.log = w.log
  next  : w.lists.next ≤ w'.lists.next
  head  : vl' = vl ∨ vl = none ∧ ∃ l, w.lists.next ≤ l ∧ vl' = some l
  vars  : ∀ vs, w.vars vl = some vs → w'.vars vl' = some (vs ++ added)
  other : ∀ l, l < w.lists.next → vl ≠ some l → w'.lists.cell l = w.lists.cell l
  fresh : ∀ l, w.lists.next ≤ l → w'.lists.Live l → vl' = some l

namespace Grows

variable {w w' w'' : World} {vl vl' vl'' : Option VarPtr} {xs ys : List Varbind}

theorem of_eq (hlists : w'.lists = w.lists) (hlog : w'.log = w.log) : Grows [] w vl w' vl where
  log   := hlog
  next  := Nat.le_of_eq (by rw [hlists])
  head  := .inl rfl
  vars  := fun vs h => by rw [World.vars_congr hlists, h, List.append_nil]
  other := fun l _ _ => by rw [hlists]
  fresh := fun l hl hlive => by
    rw [hlists, Arena.Live, (w.lists.fresh l hl).1] at hlive
    cases hlive

theorem refl : Grows [] w vl w vl := of_eq rfl rfl

theorem head_eq {l : VarPtr} (h : Grows xs w (some l) w' vl') : vl' = some l :=
  h.head.resolve_right (fun hn => by cases hn.1)

/-- Only the head pointer leads to a new list. -/
theorem new_of_ne {l : VarPtr} (h : Grows xs w vl w' vl') (hl : w.lists.next ≤ l) (hne : vl' ≠ some l) :
    w'.lists.cell l = none :=
  Option.not_isSome_iff_eq_none.1 (fun hlive => hne (h.fresh l hl hlive))

/-- A list that grows from nothing is no list there was, and changes none. -/
theorem old_of_none {l : VarPtr} (h : Grows xs w none w' vl') (hl : l < w.lists.next) :
    vl' ≠ some l ∧ w'.lists.cell l = w.lists.cell l := by
  refine ⟨fun hv => ?_, h.other l hl (by simp)⟩
  rcases h.head with hnull | ⟨-, a, ha, hva⟩
  · rw [hnull] at hv
    cases hv
  · rw [hva, Option.some.injEq] at hv
    subst hv
    exact Nat.not_lt.2 ha hl

theorem trans (h : Grows xs w vl w' vl') (h' : Grows ys w' vl' w'' vl'') : Grows (xs ++ ys) w vl w'' vl'' where
  log  := h'.log.trans h.log
  next := Nat.le_trans h.next h'.next
  head := by
    rcases h.head with rfl | ⟨hn, l, hl, rfl⟩
    · rcases h'.head with rfl | ⟨hn, l, hl, rfl⟩
      · exact .inl rfl
      · exact .inr ⟨hn, l, Nat.le_trans h.next hl, rfl⟩
    · exact .inr ⟨hn, l, hl, h'.head_eq⟩
  vars := fun vs hvs => by rw [h'.vars _ (h.vars vs hvs), List.append_assoc]
  other := fun l hl hne => by
    rw [h'.other l (Nat.lt_of_lt_of_le hl h.next) ?_, h.other l hl hne]
    rcases h.head with rfl | ⟨-, a, ha, rfl⟩
    · exact hne
    · intro hc
      cases hc
      omega
  fresh := fun l hl hlive => by
    by_cases hlt : l < w'.lists.next
    · by_cases hvl : vl' = some l
      · subst hvl
        exact h'.head_eq
      · refine absurd (h.fresh l hl ?_) hvl
        rw [Arena.Live, ← h'.other l hlt hvl]
        exact hlive
    · exact h'.fresh l (by omega) hlive

end Grows

theorem World.append_grows {w : World} {vl : Option VarPtr} {vs : List Varbind} (h : w.vars vl = some vs)
    (vb : Varbind) : Grows [vb] w vl (w.append vb vl).2.tick (w.append vb vl).1 where
  log   := by simp
  vars  := fun vs' h' => by rw [World.vars_congr (lists_tick _), World.vars_append h' vb]
  next  := by
    cases vl with
    | none => simp [append, newList]
    | some l => simp only [append]; split <;> simp
  head  := by
    cases vl with
    | none => exact .inr ⟨rfl, w.lists.next, Nat.le_refl _, rfl⟩
    | some l => exact .inl (append_head w vb l)
  other := fun l hl hne => by
    cases vl with
    | none => exact w.lists.cell_alloc_of_lt _ _ hl
    | some a =>
      simp only [append]
      split
      · rfl
      · exact w.lists.cell_put_of_ne _ _ _ (fun hc => hne (by rw [hc]))
  fresh := fun l hl hlive => by
    cases vl with
    | none =>
      by_cases hla : l = w.lists.next
      · rw [hla]; rfl
      · have hcell : ((w.append vb none).2.tick.lists.cell l) = w.lists.cell l := if_neg hla
        rw [Arena.Live, hcell, (w.lists.fresh l hl).1] at hlive
        cases hlive
    | some a =>
      simp only [append, Arena.Live] at hlive
      split at hlive
      · rw [lists_tick, (w.lists.fresh l hl).1] at hlive
        cases hlive
      · rw [lists_tick, Arena.cell_put_isSome, (w.lists.fresh l hl).1] at hlive
        cases hlive

/-- **One call of `snmp_varlist_add_variable`**: it appends its varbind or leaves everything as it was. -/
theorem snmpVarlistAddVariable_step (env : NetSnmp) {w : World} {vl : Option VarPtr} {vs : List Varbind}
    (h : w.vars vl = some vs) (name : OID) (type : UInt8) (value : List UInt8) :
    ∃ vl' w', snmpVarlistAddVariable env vl name type value w = (.ok (vl', env.addVariable w.calls), w') ∧
      w'.pdus = w.pdus ∧ w'.calls = w.calls + 1 ∧
      Grows (if env.addVariable w.calls then [⟨name.v, type, env.copyValue type value⟩] else []) w vl w' vl' := by
  by_cases ha : env.addVariable w.calls = true
  · have hrun := snmpVarlistAddVariable_ok env h name type value ha
    rw [← ha] at hrun
    refine ⟨_, _, hrun, World.pdus_append _ _ _, by simp, ?_⟩
    rw [if_pos ha]
    exact World.append_grows h _
  · have hf : env.addVariable w.calls = false := Bool.eq_false_iff.2 ha
    refine ⟨vl, w.tick, ?_, rfl, rfl, ?_⟩
    · rw [snmpVarlistAddVariable_null env h name type value hf, hf]
    · rw [if_neg ha]
      exact Grows.of_eq rfl rfl

/-! ## The add methods of a variable list -/

namespace AddCall

variable (env : NetSnmp) (c : AddCall) {w : World} {v : Varlist} {vs : List Varbind}

theorem onVarlist_empty (ho : c.oid.empty = true) :
    c.onVarlist env (w, v) = (.error (.exn (invalidArgument "Cannot add an empty OID.")), (w, v)) := by
  rw [onVarlist_eq, Varlist.addVar, if_pos ho]
  rfl

theorem onVarlist_ok (hv : w.vars v.varlist = some vs) (ho : c.oid.empty = false)
    (ha : env.addVariable w.calls = true) :
    c.onVarlist env (w, v)
      = (.ok (), ((w.append (c.varbind env) v.varlist).2.tick, ⟨(w.append (c.varbind env) v.varlist).1⟩)) := by
  rw [onVarlist_eq, Varlist.addVar, if_neg (Bool.eq_false_iff.1 ho)]
  simp only [Run.bind_apply, Run.this_apply, Run.lift_apply, Run.setThis_apply, if_true, Run.pure_apply,
    snmpVarlistAddVariable_ok env hv c.oid c.type c.value ha, varbind]

theorem onVarlist_null (hv : w.vars v.varlist = some vs) (ho : c.oid.empty = false)
    (ha : env.addVariable w.calls = false) :
    c.onVarlist env (w, v)
      = (.error (.exn ⟨.runtimeError,
          "Failed to add ".toList ++ c.oid.toStr ++ " to the variable list.".toList⟩), (w.tick, v)) := by
  rw [onVarlist_eq, Varlist.addVar, if_neg (Bool.eq_false_iff.1 ho)]
  simp only [Run.bind_apply, Run.this_apply, Run.lift_apply, Run.setThis_apply, Bool.false_eq_true, if_false,
    Run.throws_apply, snmpVarlistAddVariable_null env hv c.oid c.type c.value ha]

/-- **One add**: it returns and has appended its varbind, or throws and has changed nothing; and which of the two it
does depends on its OID and on net-snmp alone. -/
theorem onVarlist_step (hv : w.vars v.varlist = some vs) :
    (∃ w' v', c.onVarlist env (w, v) = (.ok (), (w', v')) ∧ w'.pdus = w.pdus ∧ w'.calls = w.calls + 1 ∧
      Grows [c.varbind env] w v.varlist w' v'.varlist ∧ c.oid.empty = false ∧ env.addVariable w.calls = true) ∨
    (∃ e w', c.onVarlist env (w, v) = (.error (.exn e), (w', v)) ∧ w'.pdus = w.pdus ∧ w'.lists = w.lists ∧
      w'.log = w.log ∧ ¬ (c.oid.empty = false ∧ env.addVariable w.calls = true)) := by
  by_cases ho : c.oid.empty = true
  · exact .inr ⟨_, w, c.onVarlist_empty env ho, rfl, rfl, rfl, by simp [ho]⟩
  · rw [Bool.not_eq_true] at ho
    by_cases ha : env.addVariable w.calls = true
    · exact .inl ⟨_, _, c.onVarlist_ok env hv ho ha, by simp, by simp, World.append_grows hv _, ho, ha⟩
    · rw [Bool.not_eq_true] at ha
      exact .inr ⟨_, _, c.onVarlist_null env hv ho ha, rfl, rfl, rfl, by simp [ha]⟩

/-- **A run of adds**, whichever of them throw: the list has grown by the varbinds of those that returned. -/
theorem trace_onVarlist : ∀ (cs : List AddCall) (w : World) (v : Varlist) (vs : List Varbind),
    w.vars v.varlist = some vs →
    Grows ((Run.returned cs (Run.trace (cs.map (·.onVarlist env)) (w, v)).1).map (·.varbind env)) w v.varlist
        (Run.trace (cs.map (·.onVarlist env)) (w, v)).2.1 (Run.trace (cs.map (·.onVarlist env)) (w, v)).2.2.varlist ∧
      ∀ r ∈ (Run.trace (cs.map (·.onVarlist env)) (w, v)).1, r ≠ .error .fault
  | [], w, v, vs, hv => ⟨Grows.refl, by simp⟩
  | c :: cs, w, v, vs, hv => by
    rcases c.onVarlist_step env hv with ⟨w', v', hrun, -, -, hgrow, -⟩ | ⟨e, w', hrun, -, hlists, hlog, -⟩
    · obtain ⟨hrest, hnf⟩ := trace_onVarlist cs w' v' _ (hgrow.vars vs hv)
      simp only [List.map_cons, Run.trace_cons, hrun, Run.returned_ok, List.mem_cons, forall_eq_or_imp]
      exact ⟨hgrow.trans hrest, by simp, hnf⟩
    · obtain ⟨hrest, hnf⟩ := trace_onVarlist cs w' v vs (by rw [World.vars_congr hlists, hv])
      simp only [List.map_cons, Run.trace_cons, hrun, Run.returned_error, List.mem_cons, forall_eq_or_imp]
      exact ⟨(Grows.of_eq hlists hlog).trans hrest, by simp, hnf⟩

end AddCall

/-- Whether every one of the adds of `os`, made from the `n`-th call on, appends. -/
def AllAdd (env : NetSnmp) (n : Nat) (os : List OID) : Prop :=
  (∀ o ∈ os, o.empty = false) ∧ ∀ i, i < os.length → env.addVariable (n + i) = true

theorem allAdd_nil (env : NetSnmp) (n : Nat) : AllAdd env n [] := ⟨by simp, by simp⟩

theorem allAdd_cons (env : NetSnmp) (n : Nat) (o : OID) (os : List OID) :
    AllAdd env n (o :: os) ↔ (o.empty = false ∧ env.addVariable n = true) ∧ AllAdd env (n + 1) os := by
  constructor
  · rintro ⟨ho, ha⟩
    refine ⟨⟨ho o (by simp), ha 0 (by simp)⟩, fun x hx => ho x (by simp [hx]), fun i hi => ?_⟩
    have := ha (i + 1) (by simpa using hi)
    rwa [show n + (i + 1) = n + 1 + i by omega] at this
  · rintro ⟨⟨ho, ha⟩, hos, has⟩
    refine ⟨by simpa using ⟨ho, hos⟩, fun i hi => ?_⟩
    cases i with
    | zero => exact ha
    | succ i =>
      rw [show n + (i + 1) = n + 1 + i by omega]
      exact has i (by simpa using hi)

theorem AllAdd.take {env : NetSnmp} {n : Nat} {os : List OID} (h : AllAdd env n os) (k : Nat) :
    AllAdd env n (os.take k) := by
  refine ⟨fun o ho => h.1 o (List.mem_of_mem_take ho), fun i hi => h.2 i ?_⟩
  rw [List.length_take] at hi
  omega

def nullVarbind (env : NetSnmp) (o : OID) : Varbind := (AddCall.addNullVar o).varbind env

/-- **`addNullVars` on a variable list**: it appends a NULL varbind for every OID, or throws at the first one that
cannot be added and has appended one for each before it. -/
theorem Varlist.each_addNullVar (env : NetSnmp) : ∀ (os : List OID) (w : World) (v : Varlist) (vs : List Varbind),
    w.vars v.varlist = some vs →
    (∃ w' v', Run.each (Varlist.addNullVar env) os (w, v) = (.ok (), (w', v')) ∧ w'.pdus = w.pdus ∧
      w'.calls = w.calls + os.length ∧ Grows (os.map (nullVarbind env)) w v.varlist w' v'.varlist ∧
      AllAdd env w.calls os) ∨
    (∃ e w' v' k, Run.each (Varlist.addNullVar env) os (w, v) = (.error (.exn e), (w', v')) ∧ w'.pdus = w.pdus ∧
      k < os.length ∧ Grows ((os.take k).map (nullVarbind env)) w v.varlist w' v'.varlist ∧
      AllAdd env w.calls (os.take k) ∧ ¬ AllAdd env w.calls (os.take (k + 1)))
  | [], w, v, vs, hv => .inl ⟨w, v, rfl, rfl, rfl, Grows.refl, allAdd_nil env _⟩
  | o :: os, w, v, vs, hv => by
    rcases (AddCall.addNullVar o).onVarlist_step env hv with
      ⟨w₁, v₁, hrun, hpdus, hcalls, hgrow, hadds⟩ | ⟨e, w₁, hrun, hpdus, hlists, hlog, hadds⟩
    · rcases Varlist.each_addNullVar env os w₁ v₁ _ (hgrow.vars vs hv) with
        ⟨w', v', hrest, hpdus', hcalls', hgrow', hall⟩ | ⟨e, w', v', k, hrest, hpdus', hk, hgrow', hall, hstop⟩
      · refine .inl ⟨w', v', Run.each_cons_ok hrun hrest, hpdus'.trans hpdus, ?_, hgrow.trans hgrow', ?_⟩
        · rw [hcalls', hcalls, List.length_cons]; omega
        · rw [allAdd_cons, ← hcalls]
          exact ⟨hadds, hall⟩
      · refine .inr ⟨e, w', v', k + 1, Run.each_cons_ok hrun hrest, hpdus'.trans hpdus, by simpa using hk,
          hgrow.trans hgrow', ?_, ?_⟩
        · rw [List.take_succ_cons, allAdd_cons, ← hcalls]
          exact ⟨hadds, hall⟩
        · rw [List.take_succ_cons, allAdd_cons, ← hcalls]
          exact fun hc => hstop hc.2
    · refine .inr ⟨e, w₁, v, 0, Run.each_cons_error hrun, hpdus, by simp, Grows.of_eq hlists hlog, allAdd_nil env _, ?_⟩
      rw [List.take_succ_cons, allAdd_cons]
      exact fun hc => hadds hc.1

/-! ## The add methods of a PDU -/

/-- **`w'` is `w` but for the variable list of the PDU at `p`**, grown by `added`. -/
def Fills (p : PduPtr) (added : List Varbind) (w w' : World) : Prop :=
  ∃ d vl', w.pdus.cell p = some d ∧ w'.pdus = w.pdus.put p { d with variableList := vl' } ∧
    Grows added w d.variableList w' vl'

namespace Fills

variable {p : PduPtr} {d : NetsnmpPdu} {r : Request} {xs ys : List Varbind} {w w' w'' : World}

theorem of_eq (hd : w.pdus.cell p = some d) (hpdus : w'.pdus = w.pdus) (hlists : w'.lists = w.lists)
    (hlog : w'.log = w.log) : Fills p [] w w' :=
  ⟨d, d.variableList, hd, by rw [hpdus, Arena.put_self w.pdus p d hd], Grows.of_eq hlists hlog⟩

theorem trans (h : Fills p xs w w') (h' : Fills p ys w' w'') : Fills p (xs ++ ys) w w'' := by
  obtain ⟨d, vl, hd, hpdus, hgrow⟩ := h
  obtain ⟨d', vl', hd', hpdus', hgrow'⟩ := h'
  rw [hpdus, Arena.cell_put_self w.pdus p _ hd, Option.some.injEq] at hd'
  subst hd'
  exact ⟨d, vl', hd, by rw [hpdus', hpdus, Arena.put_put], hgrow.trans hgrow'⟩

theorem log (h : Fills p xs w w') : w'.log = w.log := by
  obtain ⟨_, _, _, _, hgrow⟩ := h
  exact hgrow.log

theorem next (h : Fills p xs w w') : w'.pdus.next = w.pdus.next := by
  obtain ⟨_, _, _, hpdus, _⟩ := h
  rw [hpdus, Arena.next_put]

theorem cell_of_ne (h : Fills p xs w w') {a : PduPtr} (ha : a ≠ p) : w'.pdus.cell a = w.pdus.cell a := by
  obtain ⟨_, _, _, hpdus, _⟩ := h
  rw [hpdus, Arena.cell_put_of_ne _ _ _ _ ha]

theorem request (h : Fills p xs w w') (hr : w.request p = some r) :
    w'.request p = some { r with vars := r.vars ++ xs } := by
  obtain ⟨d, vl', hd, hpdus, hgrow⟩ := h
  obtain ⟨d', vs, hd', hvs, rfl⟩ := World.request_eq_some.1 hr
  rw [hd, Option.some.injEq] at hd'
  subst hd'
  refine World.request_eq_some.2 ⟨{ d with variableList := vl' }, vs ++ xs, ?_, hgrow.vars vs hvs, rfl⟩
  rw [hpdus, Arena.cell_put_self w.pdus p _ hd]

end Fills

namespace PDU

variable {h : PDU} {p : PduPtr} {d : NetsnmpPdu} {w w' : World} {v' : Varlist} {xs : List Varbind}
  {add : Method Varlist Unit}

/-- **Adding through a PDU.**  The two branches of the source, a new list that is set and an add on a copy of the head
pointer, are one: the add runs on a `Varlist` of the PDU's head pointer, and the PDU gets the head pointer it leaves. -/
theorem addVia_ok (hp : h.pdu = some p) (hd : w.pdus.cell p = some d)
    (hrun : add (w, ⟨d.variableList⟩) = (.ok (), (w', v'))) (hpdus : w'.pdus = w.pdus)
    (hgrow : Grows xs w d.variableList w' v'.varlist) :
    addVia add (w, h) = (.ok (), (w'.setPdu p { d with variableList := v'.varlist }, h)) := by
  obtain ⟨cmd, es, ei, vl⟩ := d
  have hd' : w'.pdus.cell p = some ⟨cmd, es, ei, vl⟩ := by rw [hpdus, hd]
  cases vl with
  | none =>
    have hon : Run.on Varlist.new add w = (.ok ((), v'), w') := Run.on_ok hrun
    have hset : setVarlist v'.varlist (w', h)
        = (.ok (), (w'.setPdu p ⟨cmd, es, ei, v'.varlist⟩, h)) := by
      by_cases hv' : v'.varlist = none
      · simp [setVarlist, Run.bind_apply, hp, deref_ok hd', hv', World.setPdu_self hd']
      · simp [setVarlist, Run.bind_apply, hp, deref_ok hd', hv', snmpFreeVarbind, World.freeList, assign_ok hd']
    simp [addVia, Run.bind_apply, hp, deref_ok hd, hon, hset]
  | some l =>
    have hon : Run.on (⟨some l⟩ : Varlist) add w = (.ok ((), v'), w') := Run.on_ok hrun
    have hv : v'.varlist = some l := hgrow.head_eq
    simp [addVia, Run.bind_apply, hp, deref_ok hd, varlist, hon, hv, World.setPdu_self hd']

theorem addVia_error (hp : h.pdu = some p) (hd : w.pdus.cell p = some d) {e : Stop Exc}
    (hrun : add (w, ⟨d.variableList⟩) = (.error e, (w', v'))) : addVia add (w, h) = (.error e, (w', h)) := by
  obtain ⟨cmd, es, ei, vl⟩ := d
  cases vl with
  | none =>
    have hon : Run.on Varlist.new add w = (.error e, w') := Run.on_error hrun
    simp [addVia, Run.bind_apply, hp, deref_ok hd, hon]
  | some l =>
    have hon : Run.on (⟨some l⟩ : Varlist) add w = (.error e, w') := Run.on_error hrun
    simp [addVia, Run.bind_apply, hp, deref_ok hd, varlist, hon]

end PDU

theorem AddCall.onPdu_step (env : NetSnmp) (c : AddCall) {h : PDU} {p : PduPtr} {w : World} {r : Request}
    (hp : h.pdu = some p) (hr : w.request p = some r) :
    (∃ w', c.onPdu env (w, h) = (.ok (), (w', h)) ∧ w'.calls = w.calls + 1 ∧ Fills p [c.varbind env] w w' ∧
      c.oid.empty = false ∧ env.addVariable w.calls = true) ∨
    (∃ e w', c.onPdu env (w, h) = (.error (.exn e), (w', h)) ∧ Fills p [] w w' ∧
      ¬ (c.oid.empty = false ∧ env.addVariable w.calls = true)) := by
  obtain ⟨d, vs, hd, hvs, rfl⟩ := World.request_eq_some.1 hr
  rw [onPdu_eq]
  rcases c.onVarlist_step env (v := ⟨d.variableList⟩) hvs with
    ⟨w', v', hrun, hpdus, hcalls, hgrow, hadds⟩ | ⟨e, w', hrun, hpdus, hlists, hlog, hadds⟩
  · refine .inl ⟨_, PDU.addVia_ok hp hd hrun hpdus hgrow, hcalls, ⟨d, v'.varlist, hd, ?_, ?_⟩, hadds⟩
    · rw [World.pdus_setPdu, hpdus]
    · exact { hgrow with }
  · exact .inr ⟨e, w', PDU.addVia_error hp hd hrun, Fills.of_eq hd hpdus hlists hlog, hadds⟩

theorem PDU.each_addNullVar (env : NetSnmp) {h : PDU} {p : PduPtr} (hp : h.pdu = some p) :
    ∀ (os : List OID) (w : World) (r : Request), w.request p = some r →
    (∃ w', Run.each (PDU.addNullVar env) os (w, h) = (.ok (), (w', h)) ∧ w'.calls = w.calls + os.length ∧
      Fills p (os.map (nullVarbind env)) w w' ∧ AllAdd env w.calls os) ∨
    (∃ e w' xs, Run.each (PDU.addNullVar env) os (w, h) = (.error (.exn e), (w', h)) ∧ Fills p xs w w' ∧
      ¬ AllAdd env w.calls os)
  | [], w, r, hr => by
    obtain ⟨d, vs, hd, -, -⟩ := World.request_eq_some.1 hr
    exact .inl ⟨w, rfl, rfl, Fills.of_eq hd rfl rfl rfl, allAdd_nil env _⟩
  | o :: os, w, r, hr => by
    rcases (AddCall.addNullVar o).onPdu_step env hp hr with
      ⟨w₁, hrun, hcalls, hfill, hadds⟩ | ⟨e, w₁, hrun, hfill, hadds⟩
    · rcases PDU.each_addNullVar env hp os w₁ _ (hfill.request hr) with
        ⟨w', hrest, hcalls', hfill', hall⟩ | ⟨e, w', xs, hrest, hfill', hall⟩
      · refine .inl ⟨w', Run.each_cons_ok hrun hrest, ?_, hfill.trans hfill', ?_⟩
        · rw [hcalls', hcalls, List.length_cons]; omega
        · rw [allAdd_cons, ← hcalls]
          exact ⟨hadds, hall⟩
      · refine .inr ⟨e, w', _, Run.each_cons_ok hrun hrest, hfill.trans hfill', ?_⟩
        rw [allAdd_cons, ← hcalls]
        exact fun hc => hall hc.2
    · refine .inr ⟨e, w₁, [], Run.each_cons_error hrun, hfill, ?_⟩
      rw [allAdd_cons]
      exact fun hc => hadds hc.1

end Snmppp
