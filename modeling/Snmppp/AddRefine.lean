import Snmppp.Adding
/-!
# AddRefine — adding through a PDU refines adding to its list

The `add` methods of a PDU go through a by-value `Varlist` of `pdu->variables`.  A run of them on a PDU mirrors the
same run on a `Varlist` of its head pointer: at every step the PDU holds the head pointer the `Varlist` has, and the two
lists are the same memory (`Mirrors`).
-/
namespace Snmppp

/-! ## The list calls do not look at the PDUs -/

theorem World.append_pdus (w : World) (P : Arena NetsnmpPdu) (vb : Varbind) (vl : Option VarPtr) :
    ({ w with pdus := P }).append vb vl = ((w.append vb vl).1, { (w.append vb vl).2 with pdus := P }) := by
  cases vl with
  | none => rfl
  | some l => simp only [append]; split <;> rfl

theorem AddCall.onVarlist_pdus (env : NetSnmp) (c : AddCall) {w : World} {v : Varlist} {vs : List Varbind}
    (hv : w.vars v.varlist = some vs) (P : Arena NetsnmpPdu) :
    c.onVarlist env ({ w with pdus := P }, v)
      = ((c.onVarlist env (w, v)).1,
          ({ (c.onVarlist env (w, v)).2.1 with pdus := P }, (c.onVarlist env (w, v)).2.2)) := by
  have hv' : ({ w with pdus := P } : World).vars v.varlist = some vs := by rw [← hv]; exact World.vars_congr rfl _
  by_cases ho : c.oid.empty = true
  · rw [c.onVarlist_empty env ho, c.onVarlist_empty env ho]
  · rw [Bool.not_eq_true] at ho
    by_cases ha : env.addVariable w.calls = true
    · rw [c.onVarlist_ok env hv ho ha, c.onVarlist_ok env hv' ho ha, World.append_pdus]
      rfl
    · rw [Bool.not_eq_true] at ha
      rw [c.onVarlist_null env hv ho ha, c.onVarlist_null env hv' ho ha]
      rfl

/-! ## The simulation -/

/-- **The PDU `h` at `p` stands where the `Varlist` stands**: the worlds differ at most in their PDUs, and the PDU holds
the head pointer of the `Varlist`, which reaches a list. -/
structure Mirrors (h : PDU) (p : PduPtr) (s : World × PDU) (t : World × Varlist) : Prop where
  handle : s.2 = h
  world  : s.1 = { t.1 with pdus := s.1.pdus }
  head   : ∃ d, s.1.pdus.cell p = some d ∧ d.variableList = t.2.varlist
  reach  : ∃ vs, t.1.vars t.2.varlist = some vs

theorem Mirrors.step (env : NetSnmp) {h : PDU} {p : PduPtr} (hp : h.pdu = some p) (c : AddCall) (s : World × PDU)
    (t : World × Varlist) (hm : Mirrors h p s t) :
    (c.onPdu env s).1 = (c.onVarlist env t).1 ∧ Mirrors h p (c.onPdu env s).2 (c.onVarlist env t).2 := by
  obtain ⟨w, v⟩ := t
  obtain ⟨w', h'⟩ := s
  obtain ⟨rfl, hw, ⟨d, hd, hvl⟩, ⟨vs, hv⟩⟩ := hm
  simp only at hw hd hvl hv hp
  have hfrom : c.onVarlist env (w', ⟨d.variableList⟩) = c.onVarlist env ({ w with pdus := w'.pdus }, v) := by
    rw [← hw, hvl]
  rw [c.onVarlist_pdus env hv] at hfrom
  rw [AddCall.onPdu_eq]
  rcases c.onVarlist_step env hv with
    ⟨w₁, v₁, hrun, -, -, hgrow, -⟩ | ⟨e, w₁, hrun, -, hlists, -, -⟩ <;> rw [hrun] at hfrom ⊢
  · have hgrow' : Grows [c.varbind env] w' d.variableList { w₁ with pdus := w'.pdus } v₁.varlist := by
      rw [hvl, hw]
      exact { hgrow with }
    rw [PDU.addVia_ok hp hd hfrom rfl hgrow']
    exact ⟨rfl, rfl, rfl, ⟨_, Arena.cell_put_self _ p _ hd, rfl⟩, ⟨_, hgrow.vars vs hv⟩⟩
  · rw [PDU.addVia_error hp hd hfrom]
    exact ⟨rfl, rfl, rfl, ⟨d, hd, hvl⟩, ⟨vs, by rw [World.vars_congr hlists, hv]⟩⟩

theorem Mirrors.const {h : PDU} {p : PduPtr} {s : World × PDU} {t : World × Varlist} (hp : h.pdu = some p)
    (hm : Mirrors h p s t) :
    ∃ vs, t.1.vars t.2.varlist = some vs ∧ h.empty s.1 = (.ok t.2.empty, s.1) ∧
      h.size s.1 = (.ok (Varlist.size vs), s.1) ∧
      (∀ o, h.contains o s.1 = (.ok (Varlist.contains vs o), s.1)) ∧
      ∀ i, h.index i s.1 = (.ok (Varlist.index vs i), s.1) := by
  obtain ⟨w, v⟩ := t
  obtain ⟨w', h'⟩ := s
  obtain ⟨rfl, hw, ⟨d, hd, hvl⟩, ⟨vs, hv⟩⟩ := hm
  simp only at hw hd hvl hv hp ⊢
  have hempty : h'.empty w' = (.ok v.empty, w') := by
    unfold PDU.empty
    rw [hp]
    simp only [Run.bind_apply, deref_ok hd, Run.pure_apply, hvl, Varlist.empty]
  have hvs : w'.vars v.varlist = some vs := by rw [← hv, hw]; exact World.vars_congr rfl _
  refine ⟨vs, hv, hempty, ?_⟩
  by_cases he : v.varlist = none
  · have hnil : vs = [] := (World.vars_eq_nil_iff hv).2 he
    have hempty' := hempty
    simp only [Varlist.empty, he, Option.isNone_none] at hempty'
    refine ⟨?_, fun o => ?_, fun i => ?_⟩
    · simp [PDU.size, Run.bind_ok hempty', hnil, Varlist.size]
    · simp [PDU.contains, Run.bind_ok hempty', hnil, Varlist.contains]
    · simp [PDU.index, Run.bind_ok hempty', hnil, Varlist.index]
  · have hempty' := hempty
    rw [Varlist.empty, Option.isNone_eq_false_iff.2 (Option.isSome_iff_ne_none.2 he)] at hempty'
    have hlist : h'.varlist w' = (.ok v, w') := by
      unfold PDU.varlist
      rw [hp]
      simp only [Run.bind_apply, deref_ok hd, hvl, he, if_false, Run.pure_apply]
    have hchain := chain_ok hvs
    refine ⟨?_, fun o => ?_, fun i => ?_⟩
    · simp [PDU.size, Run.bind_ok hempty', Run.bind_ok hlist, Run.bind_ok hchain]
    · simp [PDU.contains, Run.bind_ok hempty', Run.bind_ok hlist, Run.bind_ok hchain]
    · simp [PDU.index, Run.bind_ok hempty', Run.bind_ok hlist, Run.bind_ok hchain]

/-- **Adding through a PDU refines adding to its list.**  After every run of `add` calls on a PDU with a `netsnmp_pdu`,
and after the same run on a `Varlist` started on the same list, the same calls have thrown the same exceptions, the PDU
holds the head pointer of the `Varlist`, both reach the same varbinds, and the const methods agree. -/
theorem PDU.adds_refine (env : NetSnmp) (w : World) (h : PDU) (p : PduPtr) (d : NetsnmpPdu) (vs : List Varbind)
    (hp : h.pdu = some p) (hd : w.pdus.cell p = some d) (hvs : w.vars d.variableList = some vs)
    (cs : List AddCall) :
    let onPdu := Run.trace (cs.map (·.onPdu env)) (w, h)
    let onVarlist := Run.trace (cs.map (·.onVarlist env)) (w, (⟨d.variableList⟩ : Varlist))
    let w' := onPdu.2.1
    let v' := onVarlist.2.2
    onPdu.1 = onVarlist.1 ∧ onPdu.2.2 = h ∧ w'.lists = onVarlist.2.1.lists ∧
      (∃ d', w'.pdus.cell p = some d' ∧ d'.variableList = v'.varlist) ∧
      ∃ vs', w'.vars v'.varlist = some vs' ∧ onVarlist.2.1.vars v'.varlist = some vs' ∧
        h.empty w' = (.ok v'.empty, w') ∧ h.size w' = (.ok (Varlist.size vs'), w') ∧
        (∀ o, h.contains o w' = (.ok (Varlist.contains vs' o), w')) ∧
        ∀ i, h.index i w' = (.ok (Varlist.index vs' i), w') := by
  intro onPdu onVarlist w' v'
  have hstart : Mirrors h p (w, h) (w, (⟨d.variableList⟩ : Varlist)) := ⟨rfl, rfl, ⟨d, hd, rfl⟩, ⟨vs, hvs⟩⟩
  obtain ⟨hends, hm⟩ := Run.trace_simulates (Mirrors.step env hp) cs (w, h) (w, ⟨d.variableList⟩) hstart
  have hlists : w'.lists = onVarlist.2.1.lists := by
    have hw := congrArg World.lists hm.world
    exact hw
  obtain ⟨vs', hv', hconst⟩ := hm.const hp
  exact ⟨hends, hm.handle, hlists, hm.head, vs', by rw [World.vars_congr hlists, hv'], hv', hconst⟩

theorem PDU.adds_refine_witness :
    let env := { NetSnmp.working (fun _ => .timeout) with addVariable := fun n => n != 1 }
    let w := World.start.newPdu ⟨kSet, 0, 0, none⟩
    let cs := [AddCall.addNullVar ⟨[]⟩, .addIntegerVar ⟨[1, 3]⟩ (-1), .addNullVar ⟨[1, 3]⟩, .addNullVar ⟨[1, 4]⟩]
    (Run.trace (cs.map (·.onPdu env)) (w, (⟨kSet, some 0⟩ : PDU))).1
      = (Run.trace (cs.map (·.onVarlist env)) (w, Varlist.new)).1 :=
  (PDU.adds_refine _ _ ⟨kSet, some 0⟩ 0 ⟨kSet, 0, 0, none⟩ [] rfl rfl rfl _).1

end Snmppp
