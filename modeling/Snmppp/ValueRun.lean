import Snmppp.Footprint
/-!
# ValueRun — the wrapper does what it would do on values

Each operation next to its namesake of `Value`, from a handle and the value it says: both return, and what they return
and leave agrees, or both stop with the same exception.  What the code does with pointers to get there, what it releases
on the way and what it forgets, is in the books.
-/
namespace Snmppp

open Arena (ofPtr Framed mem_ofPtr mem_ofPtr_add)

section
variable {w₀ w w' : World} {F m : Mem} {x x' : Net} {h : PDU} {p : PduPtr} {d : NetsnmpPdu} {vs : List Varbind}

/-- **A handle and its value.** -/
structure Agree (w₀ : World) (F : Mem) (s : World × PDU) (y : Net × Value.Pdu) : Prop where
  tracks : Tracks w₀ F s.1 (s.2.mem s.1) y.1
  val    : s.2.val s.1 = y.2

namespace Agree

variable {v : Value.Pdu}

theorem null (hp : h.pdu = none) (ht : Tracks w₀ F w 0 x) : Agree w₀ F (w, h) (x, ⟨h.type, none⟩) :=
  ⟨by rw [PDU.mem_null hp]; exact ht, PDU.val_null hp⟩

theorem of_cell (hp : h.pdu = some p) (hd : w.pdus.cell p = some d) (hvs : w.vars d.variableList = some vs)
    (ht : Tracks w₀ F w ({p}, ofPtr d.variableList) x) :
    Agree w₀ F (w, h) (x, ⟨h.type, some ⟨d.command, d.errstat, d.errindex, vs⟩⟩) :=
  ⟨by rw [PDU.mem_of_cell hp hd]; exact ht, PDU.val_of_request hp (World.request_eq_some.2 ⟨d, vs, hd, hvs, rfl⟩)⟩

/-- **A handle is NULL, or it has a live PDU with a live list.** -/
theorem cases (ha : Agree w₀ F (w, h) (x, v)) :
    (h.pdu = none ∧ v = ⟨h.type, none⟩ ∧ Tracks w₀ F w 0 x) ∨
    ∃ p d vs, h.pdu = some p ∧ w.pdus.cell p = some d ∧ w.vars d.variableList = some vs ∧
      v = ⟨h.type, some ⟨d.command, d.errstat, d.errindex, vs⟩⟩ ∧ Tracks w₀ F w ({p}, ofPtr d.variableList) x := by
  have ht : Tracks w₀ F w (h.mem w) x := ha.tracks
  have hval : h.val w = v := ha.val
  cases hp : h.pdu with
  | none =>
    rw [PDU.mem_null hp] at ht
    exact .inl ⟨rfl, by rw [← hval, PDU.val_null hp], ht⟩
  | some p =>
    obtain ⟨d, vs, hd, hvs⟩ := Tracks.valid (m := 0) (by rw [add_zero]; exact ht) hp
    rw [PDU.mem_of_cell hp hd] at ht
    refine .inr ⟨p, d, vs, rfl, hd, hvs, ?_, ht⟩
    rw [← hval, PDU.val_of_request hp (World.request_eq_some.2 ⟨d, vs, hd, hvs, rfl⟩)]
    rfl

theorem type (ha : Agree w₀ F (w, h) (x, v)) : v.type = h.type := by
  obtain rfl : h.val w = v := ha.val
  rfl

theorem lose (ha : Agree w₀ F (w, h) (x, v)) : Tracks w₀ F w 0 (Value.losePdu x v) := by
  obtain rfl : h.val w = v := ha.val
  exact Tracks.losePdu (by rw [add_zero]; exact ha.tracks)

theorem delivered (ht : Tracks w₀ F w 0 x) (a : Response) :
    Agree w₀ F (w.deliver a, ⟨a.command, some w.pdus.next⟩) (x, ⟨a.command, some a⟩) := by
  have hcell : (w.deliver a).pdus.cell w.pdus.next = some ⟨a.command, a.errstat, a.errindex, (w.newList a.vars).1⟩ := by
    rw [World.pdus_deliver, Arena.cell_alloc_next]
  have hgot := ht.deliver a
  rw [add_zero] at hgot
  exact of_cell rfl hcell (w.vars_newList a.vars) hgot

/-- **A release.** -/
theorem free (ha : Agree w₀ F (w, h) (x, v)) :
    ∃ w', PDU.free (w, h) = (.ok (), (w', PDU.null)) ∧ Tracks w₀ F w' 0 x := by
  rcases ha.cases with ⟨hp, -, ht⟩ | ⟨p, d, vs, hp, hd, hvs, -, ht⟩
  · exact ⟨w, PDU.free_null hp, ht⟩
  · refine ⟨_, PDU.free_ok hp (World.request_eq_some.2 ⟨d, vs, hd, hvs, rfl⟩), Tracks.freePdu hd ?_⟩
    rw [add_zero]
    exact ht

end Agree

/-- **A method called on a temporary.** -/
theorem onPdu_twin {α β : Type} {q : PDU} {v : Value.Pdu} {f : Method PDU α} {g : Value.Method Value.Pdu β}
    {Q : α × PDU → β × Value.Pdu → World → Net → Prop}
    (hfg : Run.Twin f g (w, q) (x, v) (fun a b s y => Q (a, s.2) (b, y.2) s.1 y.1) (Agree w₀ F)) :
    Run.Twin (Run.on q f) (Value.onPdu v g) w x Q (fun w' x' => Tracks w₀ F w' 0 x') := by
  rcases hfg.cases with ⟨a, b, s, y, hf, hg, hq⟩ | ⟨e, s, y, hf, hg, ha⟩
  · exact .ok (Run.on_ok hf) (by simp only [Value.onPdu, hg]) hq
  · exact .error (Run.on_error hf) (by simp only [Value.onPdu, hg]) ha.lose

end

/-! ## Building -/

section
variable (env : NetSnmp) {w₀ w : World} {F : Mem} {x : Net} {h : PDU} {v : Value.Pdu}

theorem create_twin (t : EType) (ht : Tracks w₀ F w 0 x) :
    Run.Twin (PDU.create env t) (Value.create env t) w x
      (fun q v w' x' => Agree w₀ F (w', q) (x', v) ∧ q.pdu ≠ none) (fun w' x' => Tracks w₀ F w' 0 x') := by
  cases hc : env.pduCreate w.calls with
  | none =>
    refine .error (PDU.create_none env t hc) ?_ ht.tick
    rw [ht.calls] at hc
    simp [Value.create, Value.ask, Run.bind_apply, hc]
  | some fields =>
    obtain ⟨es, ei⟩ := fields
    have hnew := ((ht.newPdu ⟨t, es, ei, none⟩).logs_none (e := .created w.pdus.next) rfl).tick
    rw [add_zero] at hnew
    refine .ok (PDU.create_some env t hc) ?_ ⟨Agree.of_cell rfl (w.pdus.cell_alloc_next _) rfl hnew, by simp⟩
    rw [ht.calls] at hc
    simp [Value.create, Value.ask, Run.bind_apply, hc]

/-- **A clone shares nothing with what it was made of.** -/
theorem clone_twin (hv : h.Valid w) (ht : Tracks w₀ F w 0 x) :
    Run.Twin (h.clone env) (Value.clone env (h.val w)) w x
      (fun q v w' x' => Agree w₀ F (w', q) (x', v)) (fun w' x' => Tracks w₀ F w' 0 x') := by
  cases hp : h.pdu with
  | none =>
    rw [PDU.val_null hp, PDU.clone, hp]
    exact .error rfl rfl ht
  | some p =>
    obtain ⟨r, hr⟩ := hv p hp
    rw [PDU.val_of_request hp hr, PDU.clone, hp]
    by_cases hc : env.pduClone w.calls = true
    · let copied := ((w.newList r.vars).2.newPdu ⟨r.command, r.errstat, r.errindex, (w.newList r.vars).1⟩).tick
      have hclone : snmpClonePdu env (some p) w = (.ok (some w.pdus.next), copied) := by
        simp only [snmpClonePdu, hr, hc, if_true]
        rfl
      have hcell : copied.pdus.cell w.pdus.next = some ⟨r.command, r.errstat, r.errindex, (w.newList r.vars).1⟩ := by
        simp [copied]
      have hvars : copied.vars (w.newList r.vars).1 = some r.vars := w.vars_newList r.vars
      have hnew := (ht.newPduList r.vars r.command r.errstat r.errindex).tick
      rw [add_zero] at hnew
      refine .ok ((Run.bind_ok hclone).trans (PDU.inherit_ok hcell)) ?_ (Agree.of_cell rfl hcell hvars hnew)
      rw [ht.calls] at hc
      simp [Value.clone, Value.ask, Run.bind_apply, hc, Request.content]
    · rw [Bool.not_eq_true] at hc
      have hclone : snmpClonePdu env (some p) w = (.ok none, w.tick) := by
        simp only [snmpClonePdu, hr, hc, Bool.false_eq_true, if_false]
      refine .ok (Run.bind_ok hclone) ?_ (Agree.null (h := ⟨kUnknown, none⟩) rfl ht.tick)
      rw [ht.calls] at hc
      simp [Value.clone, Value.ask, Run.bind_apply, hc]

end

/-! ## Adding -/

theorem Grows.live_iff {w w' : World} {vl vl' : Option VarPtr} {vs xs : List Varbind} (hg : Grows xs w vl w' vl')
    (hvs : w.vars vl = some vs) (l : VarPtr) : w'.lists.Live l ↔ vl' = some l ∨ w.lists.Live l ∧ vl ≠ some l := by
  have hhead : vl' = some l → w'.lists.Live l := fun hl => by
    have hv := hg.vars vs hvs
    rw [hl] at hv
    obtain ⟨c, hc, -⟩ := Option.map_eq_some_iff.1 hv
    exact w'.lists.live_of_cell hc
  by_cases hlt : l < w.lists.next
  · by_cases hvl : vl = some l
    · subst hvl
      exact iff_of_true (hhead hg.head_eq) (.inl hg.head_eq)
    · have hsame : w'.lists.Live l ↔ w.lists.Live l := by rw [Arena.Live, hg.other l hlt hvl, Arena.Live]
      exact ⟨fun hl => .inr ⟨hsame.1 hl, hvl⟩, fun hl => hl.elim hhead (fun hl => hsame.2 hl.1)⟩
  · rw [Nat.not_lt] at hlt
    exact ⟨fun hl => .inl (hg.fresh l hlt hl), fun hl => hl.elim hhead (fun hl =>
      absurd hl.1 (w.lists.not_live_of_le hlt))⟩

/-- **A list that grows is the same one**, or the first in its place. -/
theorem Grows.framed {w w' : World} {vl vl' : Option VarPtr} {vs xs : List Varbind} {A₀ : Arena Varbinds}
    {F M : Multiset VarPtr} (hg : Grows xs w vl w' vl') (hvs : w.vars vl = some vs)
    (hf : Framed A₀ F w.lists (ofPtr vl + M)) : Framed A₀ F w'.lists (ofPtr vl' + M) := by
  have hrest : ∀ l ∈ M + F, w.lists.Live l ∧ vl ≠ some l := fun l hl => by
    have hheld := hf.held
    rw [add_assoc] at hheld
    exact ⟨(hheld.live l).2 (Multiset.mem_add.2 (.inr hl)), fun hvl => hheld.apart (mem_ofPtr.2 hvl) hl⟩
  have hnew : ∀ l ∈ M + F, vl' ≠ some l := fun l hl hvl' => by
    obtain ⟨hlive, hvl⟩ := hrest l hl
    rcases hg.head with rfl | ⟨-, b, hb, hvb⟩
    · exact hvl hvl'
    · rw [hvb, Option.some.injEq] at hvl'
      exact w.lists.not_live_of_le hb (hvl' ▸ hlive)
  refine ⟨⟨?_, fun l => ?_⟩, fun l hl => ?_⟩
  · rw [add_assoc, Multiset.nodup_add]
    have hnodup := hf.held.nodup
    rw [add_assoc, Multiset.nodup_add] at hnodup
    refine ⟨?_, hnodup.2.1, Multiset.disjoint_left.2 (fun {l} hl hm => hnew l hm (mem_ofPtr.1 hl))⟩
    cases vl' with
    | none => exact Multiset.nodup_zero
    | some a => exact Multiset.nodup_singleton a
  · have hheld := hf.held
    rw [add_assoc] at hheld
    rw [hg.live_iff hvs, hheld.live, add_assoc, mem_ofPtr_add, mem_ofPtr_add]
    constructor
    · rintro (hl | ⟨hl, hne⟩)
      · exact .inl hl
      · exact .inr (hl.resolve_left hne)
    · rintro (hl | hl)
      · exact .inl hl
      · exact .inr ⟨.inr hl, (hrest l hl).2⟩
  · obtain ⟨hlive, hne⟩ := hrest l (Multiset.mem_add.2 (.inr hl))
    have hlt : l < w.lists.next := Nat.not_le.1 (fun hle => w.lists.not_live_of_le hle hlive)
    rw [hg.other l hlt hne, hf.frame l hl]

/-- **An add that grows the list it is called on by what its namesake appends**, whether it throws or not. -/
def Appends (f : Method Varlist Unit) (g : Value.Method Value.Vars Unit) : Prop :=
  ∀ (w : World) (v : Varlist) (vs : List Varbind) (x : Net), w.vars v.varlist = some vs → w.calls = x.calls →
    ∃ res w' v' added, f (w, v) = (res, (w', v')) ∧ g (x, vs) = (res, ({ x with calls := w'.calls }, vs ++ added)) ∧
      w'.pdus = w.pdus ∧ Grows added w v.varlist w' v'.varlist

namespace Appends

variable (env : NetSnmp)

theorem addVar (c : AddCall) : Appends (c.onVarlist env) (Value.addVar env c) := by
  intro w v vs x hvs hcalls
  by_cases ho : c.oid.empty = true
  · refine ⟨_, w, v, [], c.onVarlist_empty env ho, ?_, rfl, Grows.refl⟩
    rw [Value.addVar, if_pos ho, List.append_nil, hcalls]
    rfl
  have hstart : Value.addVar env c (x, vs)
      = (if env.addVariable w.calls then Run.setThis (vs ++ [c.varbind env])
          else Run.throws ⟨.runtimeError, "Failed to add ".toList ++ c.oid.toStr ++ " to the variable list.".toList⟩
            : Value.Method Value.Vars Unit) ({ x with calls := w.calls + 1 }, vs) := by
    rw [Value.addVar, if_neg ho, hcalls]
    rfl
  rw [Bool.not_eq_true] at ho
  by_cases ha : env.addVariable w.calls = true
  · refine ⟨_, _, _, [c.varbind env], c.onVarlist_ok env hvs ho ha, ?_, by simp, World.append_grows hvs _⟩
    rw [hstart, if_pos ha, Run.setThis_apply, World.calls_tick, World.calls_append]
  · rw [if_neg ha] at hstart
    rw [Bool.not_eq_true] at ha
    refine ⟨_, _, _, [], c.onVarlist_null env hvs ho ha, ?_, rfl, Grows.of_eq rfl rfl⟩
    rw [hstart, Run.throws_apply, List.append_nil, World.calls_tick]

theorem each {κ : Type} {f : κ → Method Varlist Unit} {g : κ → Value.Method Value.Vars Unit}
    (hfg : ∀ k, Appends (f k) (g k)) : ∀ ks, Appends (Run.each f ks) (Run.each g ks)
  | [], w, v, vs, x, _, hcalls => by
    refine ⟨_, w, v, [], rfl, ?_, rfl, Grows.refl⟩
    rw [List.append_nil, hcalls]
    rfl
  | k :: ks, w, v, vs, x, hvs, hcalls => by
    obtain ⟨res, w₁, v₁, xs, hf, hg, hpdus, hgrow⟩ := hfg k w v vs x hvs hcalls
    cases res with
    | error e => exact ⟨_, w₁, v₁, xs, Run.each_cons_error hf, Run.each_cons_error hg, hpdus, hgrow⟩
    | ok _ =>
      obtain ⟨res, w₂, v₂, ys, hf₂, hg₂, hpdus₂, hgrow₂⟩ :=
        each hfg ks w₁ v₁ (vs ++ xs) { x with calls := w₁.calls } (hgrow.vars vs hvs) rfl
      rw [List.append_assoc] at hg₂
      exact ⟨res, w₂, v₂, xs ++ ys, Run.each_cons_ok hf hf₂, Run.each_cons_ok hg hg₂, hpdus₂.trans hpdus,
        hgrow.trans hgrow₂⟩

end Appends

section
variable {w₀ w : World} {F : Mem} {x : Net} {h : PDU} {v : Value.Pdu} {f : Method Varlist Unit}
  {g : Value.Method Value.Vars Unit}

/-- **Adding through a PDU.** -/
theorem addVia_twin (hfg : Appends f g) (ha : Agree w₀ F (w, h) (x, v)) :
    Run.Twin (PDU.addVia f) (Value.onBody g) (w, h) (x, v)
      (fun _ _ s y => Agree w₀ F s y ∧ s.2 = h) (fun s y => Agree w₀ F s y ∧ s.2 = h) := by
  rcases ha.cases with ⟨hp, rfl, ht⟩ | ⟨p, d, vs, hp, hd, hvs, rfl, ht⟩
  · have hthrow : PDU.addVia f (w, h) = (.error (.exn (logicError "Cannot reference a NULL PDU.")), (w, h)) := by
      rw [PDU.addVia, Run.this_bind]
      simp only [hp, Run.throws_apply]
    exact .error hthrow (Value.onBody_null rfl) ⟨ha, rfl⟩
  obtain ⟨res, w', v', added, hf, hg, hpdus, hgrow⟩ := hfg w ⟨d.variableList⟩ vs x hvs ht.calls
  have hvs' := hgrow.vars vs hvs
  have hd' : w'.pdus.cell p = some d := by rw [hpdus, hd]
  -- the books with the list as it is now, whoever has it
  have hbooks : Tracks w₀ F w' ({p}, ofPtr v'.varlist) { x with calls := w'.calls } := by
    refine ht.entry rfl ?_ ⟨rfl, rfl⟩ (fun _ hf => by rw [hpdus]; exact hf) (fun _ hf => hgrow.framed hvs hf)
    rw [World.out, hgrow.log]
    exact ht.out
  cases res with
  | ok _ =>
    refine .ok (PDU.addVia_ok hp hd hf hpdus hgrow) (Value.onBody_ok rfl hg) ⟨?_, rfl⟩
    exact Agree.of_cell (d := { d with variableList := v'.varlist }) hp (w'.pdus.cell_put_self p _ hd') hvs'
      (hbooks.setPdu (Multiset.mem_singleton_self p) _)
  | error e =>
    have hf' := PDU.addVia_error hp hd hf
    cases hl : d.variableList with
    | none =>
      have hnil : vs = [] := (World.vars_eq_nil_iff hvs).2 hl
      refine .error hf' (Value.onBody_begun rfl hnil hg) ⟨Agree.of_cell hp hd' ?_ ?_, rfl⟩
      · rw [hl, hnil]
        rfl
      · rw [← add_zero (({p}, ofPtr v'.varlist) : Mem), Mem.split', add_zero] at hbooks
        rw [hl]
        exact hbooks.loseVars hvs'
    | some l =>
      have hhead : v'.varlist = d.variableList := by
        rw [hl] at hgrow ⊢
        exact hgrow.head_eq
      have hne : vs ≠ [] := fun hc => by
        rw [(World.vars_eq_nil_iff hvs).1 hc] at hl
        cases hl
      rw [hhead] at hvs' hbooks
      exact .error hf' (Value.onBody_error rfl hne hg) ⟨Agree.of_cell hp hd' hvs' hbooks, rfl⟩

end

/-! ## Requests -/

section
variable (env : NetSnmp) (session : SessionHandle) {w₀ w : World} {F : Mem} {x : Net} {h : PDU} {v : Value.Pdu}

/-- What a method that sends its object's PDU leaves: a response and nothing else, or what it left in the handle. -/
def Answers (w₀ : World) (F : Mem) (f : Method PDU PDU) (g : Value.Method Value.Pdu Value.Pdu) (s : World × PDU)
    (y : Net × Value.Pdu) : Prop :=
  Run.Twin f g s y
    (fun q u s' y' => Agree w₀ F (s'.1, q) (y'.1, u) ∧ s'.2 = PDU.null ∧ y'.2 = Value.Pdu.null)
    (fun s' y' => Agree w₀ F s' y')

theorem sync_twin (ha : Agree w₀ F (w, h) (x, v)) :
    Answers w₀ F (sync env session) (Value.sync env session) (w, h) (x, v) := by
  rcases ha.cases with ⟨hp, rfl, -⟩ | ⟨p, d, vs, hp, hd, hvs, hv, ht⟩
  · exact .error (sync_null env hp) (Value.sync_null env session rfl) ha
  obtain ⟨r, hr, hbody⟩ : ∃ r, w.request p = some r ∧ v.body = some r.content :=
    ⟨_, World.request_eq_some.2 ⟨d, vs, hd, hvs, rfl⟩, by rw [hv]; rfl⟩
  rw [← add_zero (({p}, _) : Mem)] at ht
  by_cases hs : session = none
  · subst hs
    exact .error (sync_noSession env hp hr) (Value.sync_noSession env hbody) (Agree.null rfl (Tracks.freePdu hd ht))
  have hcalls := ht.calls
  have hsent := ht.handed hd (r := r)
  have hnext : (w.handed p r).pdus.next = w.pdus.next := World.next_handed w p r
  cases hresp : (env.synchResponse w.calls).response with
  | none =>
    have hno := sync_noResponse env hs hp hr hresp
    rw [hsent.calls] at hno
    rw [hcalls] at hresp
    refine .error hno (Value.sync_failed env session hs hbody (fun a hc => ?_)) (Agree.null rfl hsent.tick)
    rw [hresp] at hc
    cases hc
  | some a =>
    by_cases hgood : a.Good (env.synchResponse w.calls).status
    · have hback := Agree.delivered hsent a
      rw [hnext] at hback
      refine .ok (sync_response env hs hp hr hresp hgood) (Value.sync_response env session hs hbody ?_ ?_)
        ⟨hback, rfl, rfl⟩
      · rw [← hcalls, hresp]
      · rw [← hcalls]
        exact hgood
    · have hbad := sync_badResponse env hs hp hr hresp hgood
      have hback := hsent.bounced a
      rw [World.calls_deliver, hsent.calls] at hbad
      rw [hnext] at hback
      refine .error hbad (Value.sync_failed env session hs hbody (fun b hb => ?_)) (Agree.null rfl hback)
      rw [← hcalls] at hb ⊢
      rw [hresp, Option.some.injEq] at hb
      rw [← hb]
      exact hgood

/-- What a function that was given no PDU returns: a PDU of its own, and nothing else that it does not leave behind. -/
def Gives (w₀ : World) (F : Mem) (f : Snmp PDU) (g : Value.Func Value.Pdu) (w : World) (x : Net) : Prop :=
  Run.Twin f g w x (fun q v w' x' => Agree w₀ F (w', q) (x', v)) (fun w' x' => Tracks w₀ F w' 0 x')

/-- **A request of one's own**, filled and sent. -/
theorem local_twin {t : EType} {f : Method PDU Unit} {g : Value.Method Value.Pdu Unit} {send : Method PDU PDU}
    {send' : Value.Method Value.Pdu Value.Pdu}
    (hfg : ∀ s y, Agree w₀ F s y → Run.Twin f g s y (fun _ _ => Agree w₀ F) (Agree w₀ F))
    (hsend : ∀ s y, Agree w₀ F s y → Answers w₀ F send send' s y) (ht : Tracks w₀ F w 0 x) :
    Gives w₀ F
      (do
        let request ← PDU.create env t
        let filled ← Run.on request f
        let response ← Run.on filled.2 send
        pure response.1)
      (do
        let request ← Value.create env t
        let filled ← Value.onPdu request g
        let response ← Value.onPdu filled.2 send'
        pure response.1) w x := by
  refine .bind ((create_twin env t ht).imp (fun q v w₁ x₁ hq => ?_) (fun _ _ hE => hE))
  refine .bind (onPdu_twin ((hfg _ _ hq.1).imp (fun _ _ s y hs => ?_) (fun _ _ hE => hE)))
  exact .bind (onPdu_twin ((hsend _ _ hs).imp (fun _ _ _ _ hr => hr.1) (fun _ _ hE => hE)))

theorem onPdu_addVar_twin (c : AddCall) {s : World × PDU} {y : Net × Value.Pdu} (ha : Agree w₀ F s y) :
    Run.Twin (c.onPdu env) (Value.onBody (Value.addVar env c)) s y (fun _ _ => Agree w₀ F) (Agree w₀ F) := by
  rw [c.onPdu_eq env]
  exact (addVia_twin (Appends.addVar env c) ha).imp (fun _ _ _ _ hs => hs.1) (fun _ _ hs => hs.1)

theorem requestOne_twin (t : EType) (c : AddCall) (ht : Tracks w₀ F w 0 x) :
    Gives w₀ F (requestOne env session t c.oid (c.onPdu env)) (Value.requestOne env session t c) w x := by
  unfold requestOne Value.requestOne
  split
  · exact .throws ht
  · exact local_twin env (fun s y ha => onPdu_addVar_twin env c ha) (fun s y ha => sync_twin env session ha) ht

theorem getSet_twin (oids : SetOID) (ht : Tracks w₀ F w 0 x) :
    Gives w₀ F (getSet env session oids) (Value.getSet env session oids) w x := by
  unfold getSet Value.getSet
  split
  · exact .throws ht
  · refine local_twin env (fun s y ha => ?_) (fun s y ha => sync_twin env session ha) ht
    exact Run.Twin.each (fun o s y ha => onPdu_addVar_twin env (.addNullVar o) ha) _ s y ha

theorem getNext_twin (ha : Agree w₀ F (w, h) (x, v)) :
    Answers w₀ F (getNext env session) (Value.getNext env session) (w, h) (x, v) := by
  unfold getNext Value.getNext
  refine Run.Twin.this_left (Run.Twin.this_right ?_)
  rcases ha.cases with ⟨hp, hv, -⟩ | ⟨p, d, vs, hp, hd, hvs, hv, -⟩
  · have hnil : v.vars = [] := by rw [hv]; rfl
    refine Run.Twin.left (Run.lift_of (PDU.empty_null hp) h) ?_
    rw [if_pos rfl, if_pos hnil]
    exact .throws ha
  have hr : w.request p = some ⟨p, d.command, d.errstat, d.errindex, vs⟩ :=
    World.request_eq_some.2 ⟨d, vs, hd, hvs, rfl⟩
  have hvars : v.vars = vs := by rw [hv]; rfl
  refine Run.Twin.left (Run.lift_of (PDU.empty_request hp hr) h) ?_
  rw [ha.type, hvars]
  by_cases hne : vs = []
  · rw [if_pos (decide_eq_true hne), if_pos hne]
    exact .throws ha
  rw [if_neg (by simpa using hne), if_neg hne]
  by_cases ht : h.type = kGetNext
  · rw [if_pos ht, if_pos ht]
    exact sync_twin env session ha
  have hvl : d.variableList ≠ none := fun hc => hne ((World.vars_eq_nil_iff hvs).2 hc)
  obtain ⟨w₁, hfree, ht₁⟩ := ha.free
  rw [if_neg ht, if_neg ht]
  refine Run.Twin.left (Run.lift_of (PDU.varlist_ok hp hd hvl) h) ?_
  refine Run.Twin.left (Run.lift_of (chain_ok hvs) h) (Run.Twin.left hfree (Run.Twin.setThis_right ?_))
  exact Run.Twin.lift ((requestOne_twin env session kGetNext (.addNullVar _) ht₁).imp
    (fun _ _ _ _ hq => ⟨hq, rfl, rfl⟩) (fun _ _ hE => Agree.null rfl hE))

/-! ### GETBULK -/

theorem Agree.bulk {p : PduPtr} (ha : Agree w₀ F (w, h) (x, v)) (hp : h.pdu = some p)
    (maxRepetitions nonRepeaters : Int) :
    ∃ w', assign p (fun d => { d with errstat := nonRepeaters, errindex := maxRepetitions }) w = (.ok (), w') ∧
      Agree w₀ F (w', h) (x, v.bulk maxRepetitions nonRepeaters) := by
  rcases ha.cases with ⟨hn, -⟩ | ⟨p', d, vs, hp', hd, hvs, rfl, ht⟩
  · rw [hp] at hn
    cases hn
  · rw [hp, Option.some.injEq] at hp'
    subst hp'
    refine ⟨_, assign_ok hd _, ?_⟩
    exact Agree.of_cell (d := { d with errstat := nonRepeaters, errindex := maxRepetitions }) hp
      (w.pdus.cell_put_self p _ hd) hvs (ht.setPdu (Multiset.mem_singleton_self p) _)

/-- **The PDU `getBulk` sends.** -/
theorem getBulkTarget_twin (ha : Agree w₀ F (w, h) (x, v)) (hne : h.pdu ≠ none) :
    Run.Twin (getBulkTarget env) (Value.getBulkTarget env) (w, h) (x, v)
      (fun p _ s y => Agree w₀ F s y ∧ s.2.pdu = p ∧ p ≠ none) (fun s y => Agree w₀ F s y) := by
  rcases ha.cases with ⟨hp, -⟩ | ⟨p, d, vs, hp, hd, hvs, hv, -⟩
  · exact absurd hp hne
  have hvars : v.vars = vs := by rw [hv]; rfl
  unfold getBulkTarget Value.getBulkTarget
  refine Run.Twin.this_left (Run.Twin.this_right ?_)
  rw [ha.type, hvars]
  by_cases ht : h.type = kGetBulk
  · rw [if_neg (not_not_intro ht), if_pos ht]
    exact .pure ⟨ha, rfl, hne⟩
  rw [if_pos ht, if_neg ht, getBulkRebuild]
  refine Run.Twin.this_left ?_
  by_cases hvl : d.variableList = none
  · rw [if_pos ((World.vars_eq_nil_iff hvs).2 hvl)]
    exact .error (Run.bind_error (Run.lift_of (PDU.varlist_none hp hd hvl) h)) rfl ha
  obtain ⟨w₁, hfree, ht₁⟩ := ha.free
  rw [if_neg (fun hc => hvl ((World.vars_eq_nil_iff hvs).1 hc))]
  refine Run.Twin.left (Run.lift_of (PDU.varlist_ok hp hd hvl) h) ?_
  refine Run.Twin.left (Run.lift_of (chain_ok hvs) h) (Run.Twin.left hfree (Run.Twin.setThis_right ?_))
  refine .bind (Run.Twin.lift ((create_twin env kGetBulk ht₁).imp (fun q u w₂ x₂ hq => ?_)
    (fun _ _ hE => Agree.null rfl hE)))
  refine Run.Twin.setThis_left (Run.Twin.setThis_right ?_)
  have hadds : Appends (Varlist.addNullVarsSet env (Varlist.getOidsSet vs))
      (Value.addNullVars env (Varlist.getOidsSet vs).elems) := Appends.each (fun o => .addVar env (.addNullVar o)) _
  rcases (addVia_twin hadds hq.1).cases with ⟨_, _, s, y, hf, hg, hs, hsame⟩ | ⟨e, s, y, hf, hg, hs, -⟩
  · exact .ok (Run.bind_ok hf) hg ⟨hs, rfl, by rw [hsame]; exact hq.2⟩
  · exact .error (Run.bind_error hf) hg hs

theorem getBulkRequest_twin (ha : Agree w₀ F (w, h) (x, v)) (maxRepetitions nonRepeaters : Int) :
    Run.Twin (getBulkRequest env maxRepetitions nonRepeaters) (Value.getBulkRequest env maxRepetitions nonRepeaters)
      (w, h) (x, v) (fun _ _ => Agree w₀ F) (Agree w₀ F) := by
  unfold getBulkRequest Value.getBulkRequest
  refine Run.Twin.this_left (Run.Twin.this_right ?_)
  by_cases hp : h.pdu = none
  · have hbody : v.body = none := by
      obtain rfl : h.val w = v := ha.val
      rw [PDU.val_null hp]
    rw [if_pos hp, if_pos hbody]
    exact .throws ha
  have hbody : ¬ v.body = none := by
    rcases ha.cases with ⟨hn, -⟩ | ⟨_, _, _, -, -, -, rfl, -⟩
    · exact absurd hn hp
    · simp
  rw [if_neg hp, if_neg hbody]
  refine .bind ((getBulkTarget_twin env ha hp).imp (fun p _ s y hs => ?_) (fun _ _ hE => hE))
  obtain ⟨hs, hsp, hne⟩ := hs
  obtain ⟨q, rfl⟩ := Option.ne_none_iff_exists'.1 hne
  obtain ⟨w₁, hassign, hbulk⟩ := hs.bulk hsp maxRepetitions nonRepeaters
  exact .ok (Run.lift_of hassign s.2) rfl hbulk

theorem getBulk_twin (ha : Agree w₀ F (w, h) (x, v)) (maxRepetitions nonRepeaters : Int) :
    Answers w₀ F (getBulk env session maxRepetitions nonRepeaters)
      (Value.getBulk env session maxRepetitions nonRepeaters) (w, h) (x, v) :=
  .bind ((getBulkRequest_twin env ha maxRepetitions nonRepeaters).imp
    (fun _ _ _ _ hs => sync_twin env session hs) (fun _ _ hE => hE))

theorem getBulkOid_twin (o : OID) (maxRepetitions nonRepeaters : Int) (ht : Tracks w₀ F w 0 x) :
    Gives w₀ F (getBulkOid env session o maxRepetitions nonRepeaters)
      (Value.getBulkOid env session o maxRepetitions nonRepeaters) w x :=
  local_twin env (fun _ _ ha => onPdu_addVar_twin env (.addNullVar o) ha)
    (fun _ _ ha => getBulk_twin env session ha maxRepetitions nonRepeaters) ht

end

/-! ## Variable lists -/

section
variable (env : NetSnmp) {w₀ w : World} {F m : Mem} {x : Net} {h : PDU} {v : Varlist} {vs : List Varbind}

/-- **A variable list and its value.** -/
structure AgreeVars (w₀ : World) (F : Mem) (s : World × Varlist) (y : Net × Value.Vars) : Prop where
  tracks : Tracks w₀ F s.1 s.2.mem y.1
  vars   : s.1.vars s.2.varlist = some y.2

namespace AgreeVars

theorem null (ht : Tracks w₀ F w 0 x) : AgreeVars w₀ F (w, ⟨none⟩) (x, []) := ⟨ht, rfl⟩

theorem lose (ha : AgreeVars w₀ F (w, v) (x, vs)) : Tracks w₀ F w 0 (Value.loseVars x vs) :=
  Tracks.loseVars (by rw [add_zero]; exact ha.tracks) ha.vars

/-- **A list released.** -/
theorem freeList (ha : AgreeVars w₀ F (w, v) (x, vs)) : Tracks w₀ F (w.freeList v.varlist) 0 x :=
  Tracks.freeList (by rw [add_zero]; exact ha.tracks)

theorem free (ha : AgreeVars w₀ F (w, v) (x, vs)) :
    ∃ w', Varlist.free (w, v) = (.ok (), (w', ⟨none⟩)) ∧ Tracks w₀ F w' 0 x :=
  ⟨_, Varlist.free_ok ha.vars, ha.freeList⟩

end AgreeVars

/-- **A list grown.** -/
theorem AgreeVars.grows {w' : World} {v' : Varlist} {added : List Varbind} (ha : AgreeVars w₀ F (w, v) (x, vs))
    (hpdus : w'.pdus = w.pdus) (hg : Grows added w v.varlist w' v'.varlist) :
    AgreeVars w₀ F (w', v') ({ x with calls := w'.calls }, vs ++ added) := by
  refine ⟨ha.tracks.entry rfl ?_ ⟨rfl, rfl⟩ (fun _ hf => by rw [hpdus]; exact hf) (fun _ hf => hg.framed ha.vars hf),
    hg.vars vs ha.vars⟩
  rw [World.out, hg.log]
  exact ha.tracks.out

/-- **A list that goes into a PDU** takes the place of the list the PDU had. -/
theorem setVarlist_books {p : PduPtr} (hp : h.pdu = some p) (ht : Tracks w₀ F w (v.mem + h.mem w) x)
    (hvs : w.vars v.varlist = some vs) :
    ∃ w' b, PDU.setVarlist v.varlist (w, h) = (.ok (), (w', h)) ∧ (h.val w).body = some b ∧
      Agree w₀ F (w', h) (x, { h.val w with body := some { b with vars := vs } }) := by
  rw [add_comm] at ht
  obtain ⟨d, dvs, hd, hdvs⟩ := ht.valid hp
  have hval := PDU.val_of_request hp (World.request_eq_some.2 ⟨d, dvs, hd, hdvs, rfl⟩)
  rw [PDU.mem_of_cell hp hd] at ht
  by_cases hsame : v.varlist = d.variableList
  · -- a list held once cannot be both
    have hnull : d.variableList = none := by
      obtain ⟨lost, -, -, -, hfl⟩ := ht.mem
      cases hl : d.variableList with
      | none => rfl
      | some a =>
        have hheld := hfl.held
        rw [Prod.snd_add, Varlist.mem, hsame, hl, add_assoc, add_assoc] at hheld
        exact absurd (Multiset.mem_add.2 (.inl (Multiset.mem_singleton_self a)))
          (hheld.apart (Multiset.mem_singleton_self a))
    have hset : PDU.setVarlist v.varlist (w, h) = (.ok (), (w, h)) := by
      simp [PDU.setVarlist, Run.bind_apply, hp, deref_ok hd, hsame]
    refine ⟨w, _, hset, by rw [hval], ?_⟩
    rw [hsame, hdvs, Option.some.injEq] at hvs
    rw [hval, ← hvs]
    rw [Varlist.mem, hsame, hnull] at ht
    refine Agree.of_cell hp hd hdvs ?_
    rw [hnull]
    exact ht
  · have hcell : (w.freeList d.variableList).pdus.cell p = some d := by rw [World.pdus_freeList, hd]
    have hset : PDU.setVarlist v.varlist (w, h)
        = (.ok (), ((w.freeList d.variableList).setPdu p { d with variableList := v.varlist }, h)) := by
      simp [PDU.setVarlist, Run.bind_apply, hp, deref_ok hd, hsame, snmpFreeVarbind_ok hdvs, assign_ok hcell]
    have hkept : (w.freeList d.variableList).vars v.varlist = some vs := by
      rw [← hvs]
      cases hv : v.varlist with
      | none => rfl
      | some a =>
        rw [hv] at hsame
        rw [World.vars, World.vars, World.lists_freeList_cell, if_neg (fun hc => hsame hc.symm)]
    refine ⟨_, _, hset, by rw [hval], ?_⟩
    rw [hval]
    refine Agree.of_cell (d := { d with variableList := v.varlist }) hp (Arena.cell_put_self _ p _ hcell) hkept ?_
    rw [Mem.split'] at ht
    have hfreed := ht.freeList
    rw [Varlist.mem, Prod.mk_add_mk, add_zero, zero_add] at hfreed
    exact hfreed.setPdu (Multiset.mem_singleton_self p) _

/-- An add to a variable list. -/
theorem Appends.twin {f : Method Varlist Unit} {g : Value.Method Value.Vars Unit} (hfg : Appends f g)
    (ha : AgreeVars w₀ F (w, v) (x, vs)) :
    Run.Twin f g (w, v) (x, vs) (fun _ _ => AgreeVars w₀ F) (AgreeVars w₀ F) := by
  obtain ⟨res, w', v', added, hf, hg, hpdus, hgrow⟩ := hfg w v vs x ha.vars ha.tracks.calls
  cases res with
  | ok _ => exact .ok hf hg (ha.grows hpdus hgrow)
  | error e => exact .error hf hg (ha.grows hpdus hgrow)

/-! ## Traps -/

/-- A list spent, and nothing in its place. -/
def Spends (w₀ : World) (F : Mem) (s : World × Varlist) (y : Net × Value.Vars) : Prop :=
  Tracks w₀ F s.1 0 y.1 ∧ s.2 = ⟨none⟩ ∧ y.2 = []

theorem sendV2Trap_twin (ha : AgreeVars w₀ F (w, v) (x, vs)) :
    Run.Twin (sendV2Trap env) (Value.sendV2Trap env) (w, v) (x, vs) (fun _ _ => Spends w₀ F) (Spends w₀ F) := by
  have hvs : w.vars v.varlist = some vs := ha.vars
  unfold Value.sendV2Trap
  refine Run.Twin.this_right ?_
  by_cases hnil : vs = []
  · obtain ⟨vl⟩ := v
    obtain rfl : vl = none := (World.vars_eq_nil_iff hvs).1 hnil
    rw [if_pos hnil]
    exact .error (sendV2Trap_null env rfl) rfl ⟨ha.tracks, rfl, hnil⟩
  have hne : v.varlist ≠ none := fun hc => hnil ((World.vars_eq_nil_iff hvs).2 hc)
  rw [if_neg hnil]
  refine Run.Twin.setThis_right ?_
  by_cases hlen : vs.length < 2
  · rw [if_pos hlen]
    exact .error (sendV2Trap_short env hvs hne hlen) rfl ⟨ha.freeList, rfl, rfl⟩
  have hrun := sendV2Trap_sent env hvs (Nat.not_lt.1 hlen)
  have hsent : AgreeVars w₀ F ((w.logs (.trap vs (env.sendTraps w.calls))).tick, v)
      ({ x with calls := x.calls + 1, out := x.out ++ [.trap vs] }, vs) := ⟨(ha.tracks.logs rfl).tick, hvs⟩
  have hemit : Value.emit (.trap vs) x = (.ok (), { x with out := x.out ++ [.trap vs] }) := rfl
  have hask : Value.ask env.sendTraps { x with out := x.out ++ [.trap vs] }
      = (.ok (env.sendTraps w.calls), { x with calls := x.calls + 1, out := x.out ++ [.trap vs] }) := by
    rw [ha.tracks.calls]
    rfl
  rw [if_neg hlen]
  refine Run.Twin.right (Run.lift_of hemit []) (Run.Twin.right (Run.lift_of hask []) ?_)
  by_cases hrc : env.sendTraps w.calls = 0
  · rw [if_pos hrc] at hrun ⊢
    exact .ok hrun rfl ⟨hsent.freeList, rfl, rfl⟩
  · rw [if_neg hrc] at hrun ⊢
    exact .error hrun rfl ⟨hsent.freeList, rfl, rfl⟩

/-- **The list leaves the PDU before the PDU is released.** -/
theorem sendV2TrapPdu_twin {u : Value.Pdu} (ha : Agree w₀ F (w, h) (x, u)) :
    Run.Twin (sendV2TrapPdu env) (Value.sendV2TrapPdu env) (w, h) (x, u) (fun _ _ => Agree w₀ F) (Agree w₀ F) := by
  obtain ⟨w₁, hfree, ht₁⟩ := ha.free
  unfold sendV2TrapPdu Value.sendV2TrapPdu
  refine Run.Twin.this_left (Run.Twin.this_right (Run.Twin.setThis_right ?_))
  rcases ha.cases with ⟨hp, hv, -⟩ | ⟨p, d, vs, hp, hd, hvs, hv, ht⟩
  · have hnil : u.vars = [] := by rw [hv]; rfl
    refine Run.Twin.left (Run.lift_of (PDU.empty_null hp) h) ?_
    rw [if_pos rfl, if_pos hnil]
    exact Run.Twin.left hfree (.throws (Agree.null rfl ht₁))
  have hvars : u.vars = vs := by rw [hv]; rfl
  refine Run.Twin.left (Run.lift_of (PDU.empty_ok hp hd) h) ?_
  rw [hvars]
  by_cases hvl : d.variableList = none
  · rw [if_pos (Option.isNone_iff_eq_none.2 hvl), if_pos ((World.vars_eq_nil_iff hvs).2 hvl)]
    exact Run.Twin.left hfree (.throws (Agree.null rfl ht₁))
  rw [if_neg (fun hc => hvl (Option.isNone_iff_eq_none.1 hc)),
    if_neg (fun hc => hvl ((World.vars_eq_nil_iff hvs).1 hc))]
  simp only [hp]
  -- the PDU without its list, and the list without its PDU
  let gutted := w.setPdu p { d with variableList := none }
  have hcell : gutted.pdus.cell p = some { d with variableList := none } := w.pdus.cell_put_self p _ hd
  have hr : gutted.request p = some ⟨p, d.command, d.errstat, d.errindex, []⟩ :=
    World.request_eq_some.2 ⟨_, [], hcell, rfl, rfl⟩
  have hgutted : Tracks w₀ F gutted ({p}, ofPtr d.variableList) x := ht.setPdu (Multiset.mem_singleton_self p) _
  have hlists : (gutted.freePdu p).lists = w.lists := by
    simp only [World.freePdu, hcell, World.freeList]
    rfl
  have hlist : AgreeVars w₀ F (gutted.freePdu p, ⟨d.variableList⟩) (x, vs) := by
    refine ⟨Tracks.freePdu hcell ?_, by rw [World.vars_congr hlists, hvs]⟩
    rw [← add_zero (({p}, ofPtr d.variableList) : Mem), Mem.split, add_zero] at hgutted
    exact hgutted
  refine Run.Twin.left (Run.lift_of (deref_ok hd) h) (Run.Twin.left (Run.lift_of (assign_ok hd _) h) ?_)
  refine Run.Twin.left (PDU.free_ok hp hr) (.bind (Run.Twin.lift (Run.Twin.on ?_)))
  exact (sendV2Trap_twin env hlist).imp (fun _ _ _ _ hs => Agree.null rfl hs.1) (fun _ _ hs => Agree.null rfl hs.1)

theorem createV2TrapVarlist_twin (o : OID) (uptime : Int64) (ht : Tracks w₀ F w 0 x) :
    Run.Twin (createV2TrapVarlist env o uptime) (Value.createV2TrapVarlist env o uptime) w x
      (fun v vs w' x' => AgreeVars w₀ F (w', v) (x', vs)) (fun w' x' => Tracks w₀ F w' 0 x') := by
  unfold createV2TrapVarlist Value.createV2TrapVarlist
  split
  · exact .throws ht
  obtain ⟨vl₁, w₁, hrun₁, hpdus₁, hcalls₁, hgrow₁⟩ := snmpVarlistAddVariable_step env w.vars_none
    (OID.ofCommon .kSysUpTime) ASN_TIMETICKS (Bytes.ofNat 8 uptime.toUInt64.toNat)
  obtain ⟨vl₂, w₂, hrun₂, hpdus₂, hcalls₂, hgrow₂⟩ := snmpVarlistAddVariable_step env (hgrow₁.vars [] rfl)
    (OID.ofCommon .kTrap) ASN_OBJECT_ID (o.v.flatMap (fun n => Bytes.ofNat 8 n.toNat))
  have hmade : AgreeVars w₀ F (w₂, ⟨vl₂⟩) ({ x with calls := w₂.calls }, _) :=
    (AgreeVars.null ht).grows (hpdus₂.trans hpdus₁) (hgrow₁.trans hgrow₂)
  have hask₁ : Value.ask env.addVariable x = (.ok (env.addVariable w.calls), { x with calls := w₁.calls }) := by
    rw [hcalls₁, ht.calls]
    rfl
  have hask₂ : Value.ask env.addVariable { x with calls := w₁.calls }
      = (.ok (env.addVariable w₁.calls), { x with calls := w₂.calls }) := by
    rw [hcalls₂]
    rfl
  refine Run.Twin.left hrun₁ (Run.Twin.left hrun₂ (Run.Twin.right hask₁ (Run.Twin.right hask₂ (.pure ?_))))
  rw [List.nil_append] at hmade
  exact hmade

theorem sendV2TrapOid_twin (o : OID) (uptime : Int64) (ht : Tracks w₀ F w 0 x) :
    Run.Twin (sendV2TrapOid env o uptime) (Value.sendV2TrapOid env o uptime) w x
      (fun _ _ w' x' => Tracks w₀ F w' 0 x') (fun w' x' => Tracks w₀ F w' 0 x') := by
  refine .bind ((createV2TrapVarlist_twin env o uptime ht).imp (fun v vs w₁ x₁ ha => ?_) (fun _ _ hE => hE))
  exact .bind (Run.Twin.on ((sendV2Trap_twin env ha).imp (fun _ _ _ _ hs => hs.1) (fun _ _ hs => hs.1)))

end
end Snmppp
