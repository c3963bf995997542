import Snmppp.ValueRun
/-!
# ValueLeaks — what a function leaves behind

Only two things are ever left behind inside a call: a request the call built for itself and could not fill, and what a
bulk add began in a PDU without varbinds when a later add of it fails.  For each function, exactly when that happens.
-/
namespace Snmppp

open Arena (ofPtr mem_ofPtr)

def Net.lost (x : Net) : Nat := x.lostPdus + x.lostLists

/-- **More is left behind or nothing**, and nothing exactly when `c`. -/
structure Spares (x x' : Net) (c : Prop) : Prop where
  mono : x.lost ≤ x'.lost
  iff  : x'.lost = x.lost ↔ c

namespace Spares

variable {x x' x'' : Net} {c c' : Prop}

theorem same (h : x'.lost = x.lost) (hc : c) : Spares x x' c := ⟨Nat.le_of_eq h.symm, iff_of_true h hc⟩

theorem more (h : x.lost < x'.lost) (hc : ¬ c) : Spares x x' c :=
  ⟨Nat.le_of_lt h, iff_of_false (Nat.ne_of_gt h) hc⟩

theorem trans (h : Spares x x' c) (h' : Spares x' x'' c') : Spares x x'' (c ∧ c') := by
  refine ⟨Nat.le_trans h.mono h'.mono, ?_⟩
  rw [← h.iff, ← h'.iff]
  have := h.mono
  have := h'.mono
  omega

theorem after (h : x'.lost = x.lost) (h' : Spares x' x'' c) : Spares x x'' c := by
  obtain ⟨hmono, hiff⟩ := h'
  rw [h] at hmono hiff
  exact ⟨hmono, hiff⟩

theorem congr (h : Spares x x' c) (hc : c ↔ c') : Spares x x' c' := ⟨h.mono, h.iff.trans hc⟩

theorem bind_keeps {τ α β : Type} {m : Value.Method τ α} {f : α → Value.Method τ β} {s : Net × τ} {c : Prop}
    (h : Spares s.1 (m s).2.1 c) (hf : ∀ a, (f a).Keeps (fun s => s.1.lost)) : Spares s.1 ((m >>= f) s).2.1 c := by
  rcases hm : m s with ⟨e | a, t⟩ <;> rw [hm] at h
  · rw [Run.bind_error hm]
    exact h
  · rw [Run.bind_ok hm]
    obtain ⟨hmono, hiff⟩ := h
    have hkept : (f a t).2.1.lost = t.1.lost := hf a t
    exact ⟨by rw [hkept]; exact hmono, by rw [hkept]; exact hiff⟩

end Spares

namespace Value

theorem losePdu_spares (x : Net) (v : Pdu) : Spares x (losePdu x v) (v.body = none) := by
  cases hb : v.body with
  | none => exact .same (by rw [losePdu, hb]) rfl
  | some b =>
    refine .more ?_ (by simp)
    simp only [losePdu, hb, Net.lost]
    omega

theorem loseVars_spares (x : Net) (vs : Vars) : Spares x (loseVars x vs) (vs = []) := by
  by_cases h : vs = []
  · exact .same (by rw [loseVars, listCount, if_pos h]; rfl) h
  · refine .more ?_ h
    simp only [loseVars, listCount, if_neg h, Net.lost]
    omega

theorem ticked_lost (x : Net) : (ticked x).lost = x.lost := rfl

variable (env : NetSnmp) (session : SessionHandle)

theorem create_cases (t : EType) (x : Net) :
    (env.pduCreate x.calls = none ∧ ∃ e, create env t x = (.error e, ticked x)) ∨
    (env.pduCreate x.calls ≠ none ∧
      ∃ es ei, create env t x = (.ok ⟨t, some ⟨t, es, ei, []⟩⟩, ticked x)) := by
  have hask : ask env.pduCreate x = (.ok (env.pduCreate x.calls), ticked x) := rfl
  rw [create, Run.bind_ok hask]
  cases hc : env.pduCreate x.calls with
  | none => exact .inl ⟨rfl, _, rfl⟩
  | some fields =>
    obtain ⟨es, ei⟩ := fields
    exact .inr ⟨by simp, es, ei, rfl⟩

theorem addVar_cases (c : AddCall) (x : Net) (vs : Vars) :
    ((c.oid.empty = false ∧ env.addVariable x.calls = true) ∧
      addVar env c (x, vs) = (.ok (), (ticked x, vs ++ [c.varbind env]))) ∨
    (¬ (c.oid.empty = false ∧ env.addVariable x.calls = true) ∧
      ∃ e x', addVar env c (x, vs) = (.error e, (x', vs)) ∧ x'.lost = x.lost) := by
  by_cases ho : c.oid.empty = true
  · exact .inr ⟨by simp [ho], _, x, by rw [addVar, if_pos ho]; rfl, rfl⟩
  have hask : ask env.addVariable x = (.ok (env.addVariable x.calls), ticked x) := rfl
  rw [addVar, if_neg ho, Run.this_bind, Run.lift_bind hask]
  rw [Bool.not_eq_true] at ho
  by_cases ha : env.addVariable x.calls = true
  · rw [if_pos ha]
    exact .inl ⟨⟨ho, ha⟩, rfl⟩
  · rw [if_neg ha]
    exact .inr ⟨fun hc => ha hc.2, _, ticked x, rfl, rfl⟩

/-- A single add begins nothing that it does not finish. -/
theorem onBody_addVar_cases (c : AddCall) (x : Net) {v : Pdu} {b : Content} (hb : v.body = some b) :
    ((c.oid.empty = false ∧ env.addVariable x.calls = true) ∧
      onBody (addVar env c) (x, v)
        = (.ok (), (ticked x, { v with body := some { b with vars := b.vars ++ [c.varbind env] } }))) ∨
    (¬ (c.oid.empty = false ∧ env.addVariable x.calls = true) ∧
      ∃ e x', onBody (addVar env c) (x, v) = (.error e, (x', v)) ∧ x'.lost = x.lost) := by
  rcases addVar_cases env c x b.vars with ⟨hc, hadd⟩ | ⟨hc, e, x', hadd, hlost⟩
  · exact .inl ⟨hc, onBody_ok hb hadd⟩
  · by_cases hnil : b.vars = []
    · refine .inr ⟨hc, e, loseVars x' b.vars, onBody_begun hb hnil hadd, ?_⟩
      rw [← hlost]
      exact (loseVars_spares x' b.vars).iff.2 hnil
    · refine .inr ⟨hc, e, x', ?_, hlost⟩
      rw [onBody_error hb hnil hadd]
      obtain ⟨t, body⟩ := v
      cases hb
      rfl

theorem onBody_addVar_lossless (c : AddCall) : (onBody (addVar env c)).Keeps (fun s => s.1.lost) := fun ⟨x, v⟩ => by
  cases hb : v.body with
  | none => rw [onBody_null hb]
  | some b =>
    rcases onBody_addVar_cases env c x hb with ⟨-, hadd⟩ | ⟨-, e, x', hadd, hlost⟩ <;> rw [hadd]
    · rfl
    · exact hlost

theorem sync_lost (x : Net) (v : Pdu) :
    (sync env session (x, v)).2.1.lost = x.lost ∧ (sync env session (x, v)).2.2.body = none := by
  cases hb : v.body with
  | none =>
    rw [sync_null env session hb]
    exact ⟨rfl, hb⟩
  | some b =>
    by_cases hs : session = none
    · subst hs
      rw [sync_noSession env hb]
      exact ⟨rfl, rfl⟩
    by_cases hgood : ∃ a, (env.synchResponse x.calls).response = some a ∧ a.Good (env.synchResponse x.calls).status
    · obtain ⟨a, hresp, hgood⟩ := hgood
      rw [sync_response env session hs hb hresp hgood]
      exact ⟨rfl, rfl⟩
    · rw [sync_failed env session hs hb (fun a hresp hg => hgood ⟨a, hresp, hg⟩)]
      exact ⟨rfl, rfl⟩

/-- **A request of one's own**: it is left behind when it cannot be filled. -/
theorem local_spares {t : EType} {fill : Method Pdu Unit} {send : Method Pdu Pdu} {c : Prop} (x : Net)
    (hfill : ∀ es ei, (c ∧ ∃ x' v', fill (ticked x, ⟨t, some ⟨t, es, ei, []⟩⟩) = (.ok (), (x', v')) ∧
        x'.lost = x.lost ∧ v'.type = t) ∨
      (¬ c ∧ ∃ e x' v', fill (ticked x, ⟨t, some ⟨t, es, ei, []⟩⟩) = (.error e, (x', v')) ∧
        x.lost ≤ x'.lost ∧ v'.body ≠ none))
    (hsend : ∀ x v, v.type = t → (send (x, v)).2.1.lost = x.lost ∧ (send (x, v)).2.2.body = none) :
    Spares x
      ((do
        let request ← create env t
        let filled ← onPdu request fill
        let response ← onPdu filled.2 send
        pure response.1 : Func Pdu) x).2 (env.pduCreate x.calls = none ∨ c) := by
  rcases create_cases env t x with ⟨hc, e, hcreate⟩ | ⟨hc, es, ei, hcreate⟩
  · rw [Run.bind_error hcreate]
    exact .same rfl (.inl hc)
  rw [Run.bind_ok hcreate]
  rcases hfill es ei with ⟨hcond, x', v', hrun, hlost, htype⟩ | ⟨hcond, e, x', v', hrun, hle, hbody⟩
  · have hon : onPdu ⟨t, some ⟨t, es, ei, []⟩⟩ fill (ticked x) = (.ok ((), v'), x') := by simp only [onPdu, hrun]
    rw [Run.bind_ok hon]
    obtain ⟨hsame, hnull⟩ := hsend x' v' htype
    rcases hs : send (x', v') with ⟨e | r, s⟩ <;> rw [hs] at hsame hnull
    · have hon' : onPdu v' send x' = (.error e, losePdu s.1 s.2) := by simp only [onPdu, hs]
      rw [Run.bind_error hon']
      refine .same ?_ (.inr hcond)
      rw [← hlost, ← hsame]
      exact (losePdu_spares s.1 s.2).iff.2 hnull
    · have hon' : onPdu v' send x' = (.ok (r, s.2), s.1) := by simp only [onPdu, hs]
      rw [Run.bind_ok hon']
      exact .same (hsame.trans hlost) (.inr hcond)
  · have hon : onPdu ⟨t, some ⟨t, es, ei, []⟩⟩ fill (ticked x) = (.error e, losePdu x' v') := by simp only [onPdu, hrun]
    rw [Run.bind_error hon]
    have hlose := losePdu_spares x' v'
    have hmore : x.lost < (losePdu x' v').lost :=
      Nat.lt_of_le_of_lt hle (Nat.lt_of_le_of_ne hlose.mono (fun hc => hbody (hlose.iff.1 hc.symm)))
    exact .more hmore (by simp [hc, hcond])

theorem requestOne_spares (t : EType) (c : AddCall) (x : Net) :
    Spares x (requestOne env session t c x).2
      (c.oid.empty = true ∨ env.pduCreate x.calls = none ∨ env.addVariable (x.calls + 1) = true) := by
  unfold requestOne
  by_cases ho : c.oid.empty = true
  · rw [if_pos ho]
    exact .same rfl (.inl ho)
  rw [if_neg ho]
  refine (local_spares env (c := c.oid.empty = false ∧ env.addVariable (x.calls + 1) = true) x (fun es ei => ?_)
    (fun x v _ => sync_lost env session x v)).congr (by simp [ho])
  rcases onBody_addVar_cases env c (ticked x) (v := ⟨t, some ⟨t, es, ei, []⟩⟩) rfl with
    ⟨hc, hadd⟩ | ⟨hc, e, x', hadd, hlost⟩
  · exact .inl ⟨hc, _, _, hadd, rfl, rfl⟩
  · exact .inr ⟨hc, e, x', _, hadd, Nat.le_of_eq hlost.symm, by simp⟩

theorem each_onBody_cases : ∀ (os : List OID) (x : Net) {v : Pdu} {b : Content}, v.body = some b →
    (AllAdd env x.calls os ∧ ∃ x' v', Run.each (fun o => onBody (addVar env (.addNullVar o))) os (x, v)
        = (.ok (), (x', v')) ∧ x'.lost = x.lost ∧ v'.type = v.type) ∨
    (¬ AllAdd env x.calls os ∧ ∃ e x' v', Run.each (fun o => onBody (addVar env (.addNullVar o))) os (x, v)
        = (.error e, (x', v')) ∧ x.lost ≤ x'.lost ∧ v'.body ≠ none)
  | [], x, v, b, _        => .inl ⟨allAdd_nil env _, x, v, rfl, rfl, rfl⟩
  | o :: os, x, v, b, hb => by
    rw [allAdd_cons]
    rcases onBody_addVar_cases env (.addNullVar o) x hb with ⟨hc, hadd⟩ | ⟨hc, e, x', hadd, hlost⟩
    · rcases each_onBody_cases os (ticked x) (v := { v with body := some _ }) rfl with
        ⟨hall, x', v', hrun, hlost, htype⟩ | ⟨hall, e, x', v', hrun, hlost, hbody⟩
      · exact .inl ⟨⟨hc, hall⟩, x', v', Run.each_cons_ok hadd hrun, hlost, htype⟩
      · exact .inr ⟨fun h => hall h.2, e, x', v', Run.each_cons_ok hadd hrun, hlost, hbody⟩
    · refine .inr ⟨fun h => hc h.1, e, x', v, Run.each_cons_error hadd, Nat.le_of_eq hlost.symm, ?_⟩
      rw [hb]
      simp

theorem getSet_spares (oids : SetOID) (x : Net) :
    Spares x (getSet env session oids x).2
      (oids.elems = [] ∨ env.pduCreate x.calls = none ∨ AllAdd env (x.calls + 1) oids.elems) := by
  unfold getSet
  by_cases hs : oids.elems = []
  · rw [if_pos hs]
    exact .same rfl (.inl hs)
  rw [if_neg hs]
  refine (local_spares env (c := AllAdd env (x.calls + 1) oids.elems) x (fun es ei => ?_)
    (fun x v _ => sync_lost env session x v)).congr (by simp [hs])
  exact each_onBody_cases env oids.elems (ticked x) (v := ⟨kGet, some ⟨kGet, es, ei, []⟩⟩) rfl

/-- What a bulk add begins, read off the code: it is the same on a list of that code. -/
theorem addNullVars_cases (os : List OID) (x : Net) :
    (AllAdd env x.calls os ∧ ∃ x' vs, addNullVars env os (x, []) = (.ok (), (x', vs)) ∧ x'.lost = x.lost) ∨
    (¬ AllAdd env x.calls os ∧ ∃ e x' vs, addNullVars env os (x, []) = (.error e, (x', vs)) ∧ x'.lost = x.lost ∧
      (vs = [] ↔ NoneOrFirst env x.calls os)) := by
  let w : World := { World.start with calls := x.calls }
  obtain ⟨res, w', v', added, hf, hg, -, hgrow⟩ :=
    Appends.each (fun o => .addVar env (.addNullVar o)) os w ⟨none⟩ [] x rfl rfl
  rw [List.nil_append] at hg
  rcases Varlist.each_addNullVar env os w ⟨none⟩ [] rfl with
    ⟨w₁, v₁, hrun, -, -, -, hall⟩ | ⟨e, w₁, v₁, k, hrun, -, hk, hgrow₁, hall, hstop⟩
  · obtain ⟨rfl, -⟩ := Prod.mk.inj (hf.symm.trans hrun)
    exact .inl ⟨hall, _, _, hg, rfl⟩
  · obtain ⟨rfl, hsame⟩ := Prod.mk.inj (hf.symm.trans hrun)
    obtain ⟨rfl, rfl⟩ := Prod.mk.inj hsame
    have hadded : added = (os.take k).map (nullVarbind env) :=
      Option.some.inj ((hgrow.vars [] rfl).symm.trans (hgrow₁.vars [] rfl))
    refine .inr ⟨fun h => hstop (h.take _), _, _, _, hg, rfl, ?_⟩
    rw [hadded]
    exact take_eq_nil_iff hk hall hstop

theorem addVar_lossless (c : AddCall) : (addVar env c).Keeps (fun s => s.1.lost) := fun ⟨x, vs⟩ => by
  rcases addVar_cases env c x vs with ⟨-, hadd⟩ | ⟨-, e, x', hadd, hlost⟩ <;> rw [hadd]
  · rfl
  · exact hlost

/-- **A bulk add to a PDU** leaves what it began behind when the PDU had no varbinds and it is not the first that
fails. -/
theorem onBody_addNullVars_spares (os : List OID) (x : Net) (v : Pdu) :
    Spares x (onBody (addNullVars env os) (x, v)).2.1
      (v.body = none ∨ v.vars ≠ [] ∨ NoneOrFirst env x.calls os) := by
  cases hb : v.body with
  | none =>
    rw [onBody_null hb]
    exact .same rfl (.inl rfl)
  | some b =>
    have hvars : v.vars = b.vars := by rw [Pdu.vars, hb]; rfl
    rw [hvars]
    by_cases hnil : b.vars = []
    · rcases addNullVars_cases env os x with ⟨hall, x', vs, hadd, hlost⟩ | ⟨-, e, x', vs, hadd, hlost, hvs⟩
      · rw [onBody_ok hb (by rw [hnil]; exact hadd)]
        exact .same hlost (.inr (.inr (fun _ => hall)))
      · rw [onBody_begun hb hnil (by rw [hnil]; exact hadd)]
        exact (Spares.after hlost (loseVars_spares x' vs)).congr (by rw [hvs]; simp [hnil])
    · have hlost : (addNullVars env os (x, b.vars)).2.1.lost = x.lost :=
        Run.Keeps.each (fun o => addVar_lossless env (.addNullVar o)) os (x, b.vars)
      rcases hadd : addNullVars env os (x, b.vars) with ⟨e | _, x', vs⟩ <;> rw [hadd] at hlost
      · rw [onBody_error hb hnil hadd]
        exact .same hlost (.inr (.inl hnil))
      · rw [onBody_ok hb hadd]
        exact .same hlost (.inr (.inl hnil))

/-! ## Entry points -/

theorem create_lossless (t : EType) : (create env t).Keeps Net.lost := fun x => by
  rcases create_cases env t x with ⟨-, e, hcreate⟩ | ⟨-, es, ei, hcreate⟩ <;> rw [hcreate] <;> rfl

theorem sync_lossless : (sync env session).Keeps (fun s => s.1.lost) := fun ⟨x, v⟩ => (sync_lost env session x v).1

theorem getNext_spares (x : Net) (v : Pdu) :
    Spares x (getNext env session (x, v)).2.1
      (v.vars = [] ∨ v.type = kGetNext ∨ (OID.ofVarlist (lastVarbind v.vars)).empty = true ∨
        env.pduCreate x.calls = none ∨ env.addVariable (x.calls + 1) = true) := by
  rw [getNext, Run.this_bind]
  by_cases hnil : v.vars = []
  · rw [if_pos hnil]
    exact .same rfl (.inl hnil)
  rw [if_neg hnil]
  by_cases ht : v.type = kGetNext
  · rw [if_pos ht]
    exact .same (sync_lost env session x v).1 (.inr (.inl ht))
  rw [if_neg ht, Run.setThis_bind]
  exact (requestOne_spares env session kGetNext (.addNullVar (OID.ofVarlist (lastVarbind v.vars))) x).congr
    (by simp [hnil, ht, AddCall.oid])

theorem getBulkTarget_spares (x : Net) (v : Pdu) :
    Spares x (getBulkTarget env (x, v)).2.1
      (v.type = kGetBulk ∨ v.vars = [] ∨ env.pduCreate x.calls = none ∨
        NoneOrFirst env (x.calls + 1) (Varlist.getOidsSet v.vars).elems) := by
  rw [getBulkTarget, Run.this_bind]
  by_cases ht : v.type = kGetBulk
  · rw [if_pos ht]
    exact .same rfl (.inl ht)
  rw [if_neg ht]
  by_cases hnil : v.vars = []
  · rw [if_pos hnil]
    exact .same rfl (.inr (.inl hnil))
  rw [if_neg hnil, Run.setThis_bind]
  rcases create_cases env kGetBulk x with ⟨hc, e, hcreate⟩ | ⟨hc, es, ei, hcreate⟩
  · rw [Run.bind_error (Run.lift_of hcreate _)]
    exact .same rfl (.inr (.inr (.inl hc)))
  · rw [Run.lift_bind hcreate, Run.setThis_bind]
    have hadd := onBody_addNullVars_spares env (Varlist.getOidsSet v.vars).elems (ticked x)
      ⟨kGetBulk, some ⟨kGetBulk, es, ei, []⟩⟩
    have hvars : Pdu.vars ⟨kGetBulk, some ⟨kGetBulk, es, ei, []⟩⟩ = [] := rfl
    refine (Spares.after (ticked_lost x) hadd).congr ?_
    simp [ht, hnil, hc, hvars, ticked]

theorem getBulk_spares (maxRepetitions nonRepeaters : Int) (x : Net) (v : Pdu) :
    Spares x (getBulk env session maxRepetitions nonRepeaters (x, v)).2.1
      (v.body = none ∨ v.type = kGetBulk ∨ v.vars = [] ∨ env.pduCreate x.calls = none ∨
        NoneOrFirst env (x.calls + 1) (Varlist.getOidsSet v.vars).elems) := by
  refine Spares.bind_keeps (s := (x, v)) ?_ (fun _ => sync_lossless env session)
  rw [getBulkRequest, Run.this_bind]
  by_cases hb : v.body = none
  · rw [if_pos hb]
    exact .same rfl (.inl hb)
  rw [if_neg hb]
  exact (Spares.bind_keeps (s := (x, v)) (getBulkTarget_spares env x v)
    (fun _ => .bind .this (fun _ => .setThis _))).congr (by simp [hb])

/-- What goes out as a GETBULK of its own is spent. -/
theorem getBulk_spent (maxRepetitions nonRepeaters : Int) (x : Net) {v : Pdu} (ht : v.type = kGetBulk) :
    (getBulk env session maxRepetitions nonRepeaters (x, v)).2.1.lost = x.lost ∧
      (getBulk env session maxRepetitions nonRepeaters (x, v)).2.2.body = none := by
  have htarget : getBulkTarget env (x, v) = (.ok (), (x, v)) := by rw [getBulkTarget, Run.this_bind, if_pos ht]; rfl
  by_cases hb : v.body = none
  · have hreq : getBulkRequest env maxRepetitions nonRepeaters (x, v)
        = (.error (.exn (invalidArgument "Request PDU must not be NULL.")), (x, v)) := by
      rw [getBulkRequest, Run.this_bind, if_pos hb, Run.throws_apply]
    rw [getBulk, Run.bind_error hreq]
    exact ⟨rfl, hb⟩
  · have hreq : getBulkRequest env maxRepetitions nonRepeaters (x, v)
        = (.ok (), (x, v.bulk maxRepetitions nonRepeaters)) := by
      rw [getBulkRequest, Run.this_bind, if_neg hb, Run.bind_ok htarget]
      rfl
    rw [getBulk, Run.bind_ok hreq]
    exact sync_lost env session x _

theorem getBulkOid_spares (o : OID) (maxRepetitions nonRepeaters : Int) (x : Net) :
    Spares x (getBulkOid env session o maxRepetitions nonRepeaters x).2
      (env.pduCreate x.calls = none ∨ (o.empty = false ∧ env.addVariable (x.calls + 1) = true)) := by
  refine local_spares env x (fun es ei => ?_) (fun x v ht => getBulk_spent env session _ _ x ht)
  rcases onBody_addVar_cases env (.addNullVar o) (ticked x) (v := ⟨kGetBulk, some ⟨kGetBulk, es, ei, []⟩⟩) rfl with
    ⟨hc, hadd⟩ | ⟨hc, e, x', hadd, hlost⟩
  · exact .inl ⟨hc, _, _, hadd, rfl, rfl⟩
  · exact .inr ⟨hc, e, x', _, hadd, Nat.le_of_eq hlost.symm, by simp⟩

/-! ## Traps -/

theorem ask_lossless {β : Type} (f : Nat → β) : (ask f).Keeps Net.lost := fun _ => rfl

theorem emit_lossless (o : Outgoing) : (emit o).Keeps Net.lost := fun _ => rfl

theorem sendV2Trap_lossless : (sendV2Trap env).Keeps (fun s => s.1.lost) := by
  refine .bind .this (fun vs => ?_)
  split
  · exact .throws _
  · refine .bind (.setThis _) (fun _ => ?_)
    split
    · exact .throws _
    · refine .bind (.lift (emit_lossless _)) (fun _ => .bind (.lift (ask_lossless _)) (fun rc => ?_))
      split
      · exact .pure _
      · exact .throws _

theorem sendV2TrapPdu_lossless : (sendV2TrapPdu env).Keeps (fun s => s.1.lost) := by
  refine .bind .this (fun v => .bind (.setThis _) (fun _ => ?_))
  split
  · exact .throws _
  · exact .bind (.lift (.on (sendV2Trap_lossless env))) (fun _ => .pure _)

theorem createV2TrapVarlist_lossless (o : OID) (uptime : Int64) :
    (createV2TrapVarlist env o uptime).Keeps Net.lost := by
  unfold createV2TrapVarlist
  split
  · exact .throws _
  · exact .bind (ask_lossless _) (fun _ => .bind (ask_lossless _) (fun _ => .pure _))

theorem sendV2TrapOid_lossless (o : OID) (uptime : Int64) : (sendV2TrapOid env o uptime).Keeps Net.lost :=
  .bind (createV2TrapVarlist_lossless env o uptime) (fun _ => .bind (.on (sendV2Trap_lossless env)) (fun _ => .pure _))

theorem clone_lossless (v : Pdu) : (clone env v).Keeps Net.lost := by
  unfold clone
  split
  · exact .faults
  · refine .bind (ask_lossless _) (fun copied => ?_)
    split
    · exact .pure _
    · exact .pure _

end Value
end Snmppp
