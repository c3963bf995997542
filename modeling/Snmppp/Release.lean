import Snmppp.BulkRun
/-!
# Release — which requests are released, and which are left behind

The entry points that take a request promise to release it however they end.  `sync`, `get` and `set` do; `getNext` and
`getBulk` throw before the release on a PDU without a list, and the request they build in its place is left live when
adding to it throws (`Entry.releases_iff`).  The functions that build a request from OIDs leave it live in the same way
(`Query.leaves_nothing_iff`).
-/
namespace Snmppp

/-- The pointer of a handle is good: its PDU and the list of it are live. -/
def PDU.Valid (w : World) (h : PDU) : Prop := ∀ p, h.pdu = some p → ∃ r, w.request p = some r

/-! ## The requests made -/

/-- **Every request made since `w` has been released exactly once.** -/
def MadeReleased (w w' : World) : Prop := ∀ q ∈ createdIn (w.since w'), w'.pdus.freed q = 1

/-- **What a call leaves that was given no PDU**: it does not fault and touches no PDU there was, and every request it
made is released exactly when `cond`. -/
structure Accounts (cond : Prop) (w : World) (r : Except (Stop Exc) PDU) (w' : World) : Prop where
  noFault : r ≠ .error .fault
  next    : w.pdus.next ≤ w'.pdus.next
  old     : ∀ a, a < w.pdus.next → w'.pdus.cell a = w.pdus.cell a
  made    : MadeReleased w w' ↔ cond

namespace Accounts

variable {cond : Prop} {t : EType} {vs : List Varbind} {w w' w'' : World} {r : Except (Stop Exc) PDU}

theorem of_eq {e : Exc} (hc : cond) (hlog : w'.log = w.log) (hpdus : w'.pdus = w.pdus) :
    Accounts cond w (.error (.exn e)) w' where
  noFault := by simp
  next    := Nat.le_of_eq (by rw [hpdus])
  old     := fun _ _ => by rw [hpdus]
  made    := by
    refine ⟨fun _ => hc, fun _ q hq => ?_⟩
    rw [World.since_of_log_eq hlog] at hq
    cases hq

theorem of_spent (hc : cond) (hr : r ≠ .error .fault) (hb : Built t vs w w') (hs : Spent w.pdus.next w' w'') :
    Accounts cond w r w'' where
  noFault := hr
  next    := Nat.le_trans (by rw [hb.next]; exact Nat.le_succ _) hs.next
  old     := fun a ha => by
    rw [hs.old a (by rw [hb.next]; exact Nat.lt_succ_of_lt ha) (Nat.ne_of_lt ha), hb.old a ha]
  made    := by
    obtain ⟨es, hlog, hes⟩ := hs.log
    obtain ⟨_, _, hq⟩ := hb.request
    obtain ⟨d, _, hd, -, -⟩ := World.request_eq_some.1 hq
    have hsince : w.since w'' = .created w.pdus.next :: es :=
      World.since_eq (by rw [hlog, hb.log, List.append_assoc, List.singleton_append])
    refine ⟨fun _ => hc, fun _ q hq => ?_⟩
    rw [hsince] at hq
    obtain rfl | hq := List.mem_cons.1 (show q ∈ w.pdus.next :: createdIn es from hq)
    · rw [hs.freed hd, w'.pdus.freed_of_cell hd]
    · rw [hes] at hq
      cases hq

theorem of_built (hc : ¬ cond) (hr : r ≠ .error .fault) (hb : Built t vs w w') : Accounts cond w r w' where
  noFault := hr
  next    := by rw [hb.next]; exact Nat.le_succ _
  old     := hb.old
  made    := by
    refine ⟨fun hmade => ?_, fun h => absurd h hc⟩
    have hone := hmade w.pdus.next (by rw [hb.created]; exact List.mem_singleton_self _)
    rw [hb.freed] at hone
    cases hone

theorem of_sync (env : NetSnmp) (session : SessionHandle) {h : PDU} (hc : cond) (hb : Built t vs w w')
    (hp : h.pdu = some w.pdus.next) :
    Accounts cond w (sync env session (w', h)).1 (sync env session (w', h)).2.1 := by
  obtain ⟨_, _, hq⟩ := hb.request
  obtain ⟨res, w'', hsync, hnf, hspent⟩ := sync_spends env session hp hq
  rw [hsync]
  exact of_spent hc hnf hb hspent

end Accounts

/-- **The functions about one OID**: the request is left behind when adding to it fails. -/
theorem requestOne_accounts (env : NetSnmp) (session : SessionHandle) (t : EType) (c : AddCall) (w : World) :
    Accounts (c.oid.empty = true ∨ env.pduCreate w.calls = none ∨ env.addVariable (w.calls + 1) = true) w
      (requestOne env session t c.oid (c.onPdu env) w).1 (requestOne env session t c.oid (c.onPdu env) w).2 := by
  rcases requestOne_cases env session t c w with
    ⟨ho, e, hrun⟩ | ⟨ho, hc, e, hrun⟩ | ⟨ho, hc, ha, e, w', hrun, hbuilt⟩ | ⟨ho, hc, ha, w', hbuilt, -, hrun⟩ <;>
    rw [hrun]
  · exact .of_eq (.inl ho) rfl rfl
  · exact .of_eq (.inr (.inl hc)) rfl rfl
  · refine .of_built ?_ (by simp) hbuilt
    rw [ho, ha]
    simp [hc]
  · exact .of_sync env session (.inr (.inr ha)) hbuilt rfl

/-- **`get( SessionHandle &, const SetOID & )`.** -/
theorem getSet_accounts (env : NetSnmp) (session : SessionHandle) (s : SetOID) (w : World) :
    Accounts (s.elems = [] ∨ env.pduCreate w.calls = none ∨ AllAdd env (w.calls + 1) s.elems) w
      (getSet env session s w).1 (getSet env session s w).2 := by
  by_cases hs : s.elems = []
  · rw [getSet, if_pos hs]
    exact .of_eq (.inl hs) rfl rfl
  by_cases hc : env.pduCreate w.calls = none
  · rw [getSet, if_neg hs, Run.bind_error (PDU.create_none env kGet hc)]
    exact .of_eq (.inr (.inl hc)) rfl rfl
  obtain ⟨w₁, hcreate, hcalls, hbuilt⟩ := Built.create env kGet hc
  obtain ⟨_, _, hr⟩ := hbuilt.request
  rw [getSet, if_neg hs, Run.bind_ok hcreate]
  rcases PDU.each_addNullVar env (h := ⟨kGet, some w.pdus.next⟩) rfl s.elems w₁ _ hr with
    ⟨w₂, hadd, -, hfill, hall⟩ | ⟨e, w₂, xs, hadd, hfill, hall⟩ <;> rw [hcalls] at hall
  · rw [Run.bind_ok (Run.on_ok hadd), Run.on_fst]
    exact .of_sync env session (.inr (.inr hall)) (hbuilt.fill hfill) rfl
  · rw [Run.bind_error (Run.on_error hadd)]
    refine .of_built ?_ (by simp) (hbuilt.fill hfill)
    simp [hs, hc, hall]

/-- **`getBulk( SessionHandle &, const OID &, int, int )`**, which looks at the OID only while adding it. -/
theorem getBulkOid_accounts (env : NetSnmp) (session : SessionHandle) (o : OID) (maxRepetitions nonRepeaters : Int)
    (w : World) :
    Accounts (env.pduCreate w.calls = none ∨ o.empty = false ∧ env.addVariable (w.calls + 1) = true) w
      (getBulkOid env session o maxRepetitions nonRepeaters w).1
      (getBulkOid env session o maxRepetitions nonRepeaters w).2 := by
  by_cases hc : env.pduCreate w.calls = none
  · rw [getBulkOid, Run.bind_error (PDU.create_none env kGetBulk hc)]
    exact .of_eq (.inl hc) rfl rfl
  obtain ⟨w₁, hcreate, hcalls, hbuilt⟩ := Built.create env kGetBulk hc
  obtain ⟨_, _, hr⟩ := hbuilt.request
  rw [getBulkOid, Run.bind_ok hcreate]
  rcases (AddCall.addNullVar o).onPdu_step env (h := ⟨kGetBulk, some w.pdus.next⟩) rfl hr with
    ⟨w₂, hadd, -, hfill, hall⟩ | ⟨e, w₂, hadd, hfill, hall⟩ <;> rw [hcalls] at hall
  · have hadd' : PDU.addNullVar env o (w₁, ⟨kGetBulk, some w.pdus.next⟩) = _ := hadd
    obtain ⟨_, _, hr₂⟩ := (hbuilt.fill hfill).request
    obtain ⟨d, _, hd, -, -⟩ := World.request_eq_some.1 hr₂
    obtain ⟨w₃, hassign, hbuilt₃, -⟩ := (hbuilt.fill hfill).assign nonRepeaters maxRepetitions
    have hrequest : getBulkRequest env maxRepetitions nonRepeaters (w₂, (⟨kGetBulk, some w.pdus.next⟩ : PDU))
        = (.ok (), (w₃, ⟨kGetBulk, some w.pdus.next⟩)) := by
      rw [getBulkRequest_direct env _ _ (h := ⟨kGetBulk, some w.pdus.next⟩) rfl rfl hd]
      rw [assign_ok hd, Prod.mk.injEq] at hassign
      rw [← hassign.2]
      rfl
    rw [Run.bind_ok (Run.on_ok hadd'), Run.on_fst, getBulk, Run.bind_ok hrequest]
    exact .of_sync env session (.inr hall) hbuilt₃ rfl
  · have hadd' : PDU.addNullVar env o (w₁, ⟨kGetBulk, some w.pdus.next⟩) = _ := hadd
    rw [Run.bind_error (Run.on_error hadd')]
    refine .of_built ?_ (by simp) (hbuilt.fill hfill)
    simp only [hc, false_or]
    exact hall

/-! ## No hidden request is left behind -/

inductive Query where
  | get (o : OID)
  | getNext (o : OID)
  | getSet (oids : SetOID)
  | getBulk (o : OID) (maxRepetitions nonRepeaters : Int)
  | setBooleanVar (o : OID) (v : Bool)
  | setIntegerVar (o : OID) (v : Int32)
  | setInteger64Var (o : OID) (v : Int64)
  | setGaugeVar (o : OID) (v : UInt32)
  | setOctetStringVar (o : OID) (v : List UInt8)

namespace Query

def run (env : NetSnmp) (session : SessionHandle) : Query → Snmp PDU
  | get o                 => Snmppp.getOid env session o
  | getNext o             => Snmppp.getNextOid env session o
  | getSet oids           => Snmppp.getSet env session oids
  | getBulk o maxReps non => Snmppp.getBulkOid env session o maxReps non
  | setBooleanVar o v     => Snmppp.setBooleanVar env session o v
  | setIntegerVar o v     => Snmppp.setIntegerVar env session o v
  | setInteger64Var o v   => Snmppp.setInteger64Var env session o v
  | setGaugeVar o v       => Snmppp.setGaugeVar env session o v
  | setOctetStringVar o v => Snmppp.setOctetStringVar env session o v

/-- Nothing is created, or nothing that is added to it fails. -/
def Releases (env : NetSnmp) (w : World) : Query → Prop
  | getSet oids   => oids.elems = [] ∨ env.pduCreate w.calls = none ∨ AllAdd env (w.calls + 1) oids.elems
  | getBulk o _ _ => env.pduCreate w.calls = none ∨ o.empty = false ∧ env.addVariable (w.calls + 1) = true
  | get o | getNext o | setBooleanVar o _ | setIntegerVar o _ | setInteger64Var o _ | setGaugeVar o _
  | setOctetStringVar o _ =>
    o.empty = true ∨ env.pduCreate w.calls = none ∨ env.addVariable (w.calls + 1) = true

theorem run_accounts (env : NetSnmp) (session : SessionHandle) (q : Query) (w : World) :
    Accounts (q.Releases env w) w (q.run env session w).1 (q.run env session w).2 := by
  cases q with
  | get o => exact requestOne_accounts env session kGet (.addNullVar o) w
  | getNext o => exact requestOne_accounts env session kGetNext (.addNullVar o) w
  | getSet oids => exact getSet_accounts env session oids w
  | getBulk o maxReps non => exact getBulkOid_accounts env session o maxReps non w
  | setBooleanVar o v => exact requestOne_accounts env session kSet (.addBooleanVar o v) w
  | setIntegerVar o v => exact requestOne_accounts env session kSet (.addIntegerVar o v) w
  | setInteger64Var o v => exact requestOne_accounts env session kSet (.addInteger64Var o v) w
  | setGaugeVar o v => exact requestOne_accounts env session kSet (.addGaugeVar o v) w
  | setOctetStringVar o v => exact requestOne_accounts env session kSet (.addOctetStringVar o v) w

/-- **A call that builds its request leaves nothing behind exactly when nothing it adds fails**: it has released every
request it made, once, and the PDUs there were before are as they were. -/
theorem leaves_nothing_iff (env : NetSnmp) (session : SessionHandle) (q : Query) (w : World) :
    let r := q.run env session w
    (r.1 ≠ .error .fault ∧ MadeReleased w r.2 ∧ ∀ a, a < w.pdus.next → r.2.pdus.cell a = w.pdus.cell a) ↔
      q.Releases env w := by
  intro r
  have h := q.run_accounts env session w
  exact ⟨fun hall => h.made.1 hall.2.1, fun hc => ⟨h.noFault, h.made.2 hc, h.old⟩⟩

/-- `getBulk` creates its request before it looks at the OID. -/
theorem getBulk_leaves_request :
    let env := NetSnmp.working (fun _ => .timeout)
    let r := (getBulk ⟨[]⟩ 50 0).run env (some 0) World.start
    createdIn (World.start.since r.2) = [0] ∧ r.2.pdus.freed 0 = 0 ∧ ¬ MadeReleased World.start r.2 :=
  ⟨by decide, by decide, fun h => absurd (h 0 (by decide)) (by decide)⟩

end Query

/-! ## The request release contract -/

inductive Entry where
  | sync
  | get
  | set
  | getNext
  | getBulk (maxRepetitions nonRepeaters : Int)

/-- **The release contract** of a call given the handle `h` in `w` that ends with `r` in `w'` and `h'`: it does not
fault, the PDU it was given and every request built in its place have been released exactly once, and the handle holds
nothing live. -/
structure Released (h : PDU) (w : World) (r : Except (Stop Exc) PDU) (w' : World) (h' : PDU) : Prop where
  noFault : r ≠ .error .fault
  given   : ∀ p, h.pdu = some p → w'.pdus.freed p = w.pdus.freed p + 1
  made    : MadeReleased w w'
  handle  : ∀ p, h'.pdu = some p → ¬ w'.pdus.Live p

section
variable {cond : Prop} {w w' : World} {h : PDU} {p : PduPtr} {r : Request} {res : Except (Stop Exc) PDU}

theorem Released.of_null {e : Exc} (hp : h.pdu = none) : Released h w (.error (.exn e)) w h where
  noFault := by simp
  given   := fun p hp' => by rw [hp] at hp'; cases hp'
  made    := fun q hq => by
    rw [World.since_of_log_eq rfl] at hq
    cases hq
  handle  := fun p hp' => by rw [hp] at hp'; cases hp'

theorem Released.not_of_same {e : Exc} (hp : h.pdu = some p) : ¬ Released h w (.error (.exn e)) w h := fun hrel => by
  have hone := hrel.given p hp
  omega

theorem Spent.released (hs : Spent p w w') (hp : h.pdu = some p) (hr : w.request p = some r)
    (hres : res ≠ .error .fault) : Released h w res w' PDU.null where
  noFault := hres
  given   := fun q hq => by
    obtain ⟨d, _, hd, -, -⟩ := World.request_eq_some.1 hr
    rw [hp, Option.some.injEq] at hq
    rw [← hq]
    exact hs.freed hd
  made    := fun q hq => by
    obtain ⟨es, hlog, hes⟩ := hs.log
    rw [World.since_eq hlog, hes] at hq
    cases hq
  handle  := fun q hq => by cases hq

/-- The PDU released first, and then a call that was given none. -/
theorem Accounts.released_iff (ha : Accounts cond (w.freePdu p) res w') (hp : h.pdu = some p)
    (hr : w.request p = some r) : Released h w res w' PDU.null ↔ cond := by
  obtain ⟨d, _, hd, -, -⟩ := World.request_eq_some.1 hr
  have hsince : (w.freePdu p).since w' = w.since w' := by simp only [World.since, World.log_freePdu]
  have hspent : Spent p w (w.freePdu p) := .freePdu w p
  have hlt : p < (w.freePdu p).pdus.next := by
    rw [World.next_freePdu]
    exact w.pdus.lt_next_of_cell hd
  have hmade : MadeReleased w w' ↔ cond := by
    rw [← ha.made, MadeReleased, MadeReleased, hsince]
  refine ⟨fun hrel => hmade.1 hrel.made, fun hc => ⟨ha.noFault, fun q hq => ?_, hmade.2 hc, fun q hq => by cases hq⟩⟩
  rw [hp, Option.some.injEq] at hq
  rw [← hq, w.pdus.freed_of_cell hd]
  exact w'.pdus.freed_eq_one (Nat.lt_of_lt_of_le hlt ha.next) (by rw [ha.old p hlt, hspent.dead])

end

theorem sync_released (env : NetSnmp) (session : SessionHandle) (w : World) (h : PDU) (hv : h.Valid w) :
    Released h w (sync env session (w, h)).1 (sync env session (w, h)).2.1 (sync env session (w, h)).2.2 := by
  cases hp : h.pdu with
  | none =>
    rw [sync_null env hp]
    exact .of_null hp
  | some p =>
    obtain ⟨r, hr⟩ := hv p hp
    obtain ⟨res, w', hrun, hnf, hspent⟩ := sync_spends env session hp hr
    rw [hrun]
    exact hspent.released hp hr hnf

/-- **`getNext`**: a PDU without a list is thrown at and kept, one of another type leaves the rebuilt request behind
when adding to it fails. -/
theorem getNext_released_iff (env : NetSnmp) (session : SessionHandle) {w : World} {h : PDU} {p : PduPtr} {r : Request}
    (hp : h.pdu = some p) (hr : w.request p = some r) :
    Released h w (getNext env session (w, h)).1 (getNext env session (w, h)).2.1 (getNext env session (w, h)).2.2 ↔
      r.vars ≠ [] ∧ (h.type = kGetNext ∨ (OID.ofVarlist (lastVarbind r.vars)).empty = true ∨
        env.pduCreate w.calls = none ∨ env.addVariable (w.calls + 1) = true) := by
  by_cases hne : r.vars = []
  · have he := PDU.empty_request hp hr
    rw [decide_eq_true hne] at he
    rw [getNext_empty env session he]
    exact ⟨fun hrel => absurd hrel (Released.not_of_same hp), fun hc => absurd hne hc.1⟩
  by_cases ht : h.type = kGetNext
  · rw [getNext_same env session hp hr hne ht]
    refine ⟨fun _ => ⟨hne, .inl ht⟩, fun _ => sync_released env session w h (fun q hq => ?_)⟩
    rw [hp, Option.some.injEq] at hq
    exact ⟨r, by rw [← hq, hr]⟩
  · have ha := requestOne_accounts env session kGetNext (.addNullVar (OID.ofVarlist (lastVarbind r.vars))) (w.freePdu p)
    rw [w.calls_freePdu p] at ha
    rw [getNext_last env session hp hr hne ht]
    apply (Accounts.released_iff ha hp hr).trans
    simp only [ne_eq, hne, ht, not_false_eq_true, true_and, false_or]
    rfl

section
variable (env : NetSnmp) (session : SessionHandle) (maxRepetitions nonRepeaters : Int) {w : World} {h : PDU}
  {p : PduPtr} {d : NetsnmpPdu} {vs : List Varbind}

/-- **`getBulk` on a GETBULK** releases it as `sync` does. -/
theorem getBulk_released_direct (hp : h.pdu = some p) (hd : w.pdus.cell p = some d)
    (hvs : w.vars d.variableList = some vs) (ht : h.type = kGetBulk) :
    let s := getBulk env session maxRepetitions nonRepeaters (w, h)
    Released h w s.1 s.2.1 s.2.2 := by
  intro s
  have hbulk : s = sync env session (w.setPdu p (d.bulk maxRepetitions nonRepeaters), h) :=
    Run.bind_ok (getBulkRequest_direct env maxRepetitions nonRepeaters hp ht hd)
  have hr : (w.setPdu p (d.bulk maxRepetitions nonRepeaters)).request p
      = some ⟨p, d.command, nonRepeaters, maxRepetitions, vs⟩ :=
    World.request_eq_some.2 ⟨_, vs, w.pdus.cell_put_self p _ hd, hvs, rfl⟩
  have hrel := sync_released env session (w.setPdu p (d.bulk maxRepetitions nonRepeaters)) h (fun q hq => by
    rw [hp, Option.some.injEq] at hq
    exact ⟨_, by rw [← hq, hr]⟩)
  rw [hbulk]
  exact { hrel with }

/-- **`getBulk` on a PDU of another type** leaves the rebuilt request behind when adding to it fails. -/
theorem getBulk_released_rebuild (hp : h.pdu = some p) (hd : w.pdus.cell p = some d)
    (hvs : w.vars d.variableList = some vs) (ht : h.type ≠ kGetBulk) (hvl : d.variableList ≠ none) :
    let s := getBulk env session maxRepetitions nonRepeaters (w, h)
    Released h w s.1 s.2.1 s.2.2 ↔
      env.pduCreate w.calls = none ∨ AllAdd env (w.calls + 1) (Varlist.getOidsSet vs).elems := by
  intro s
  have hr : w.request p = some ⟨p, d.command, d.errstat, d.errindex, vs⟩ :=
    World.request_eq_some.2 ⟨d, vs, hd, hvs, rfl⟩
  have hnext := w.next_freePdu p
  rcases getBulkRequest_rebuild env maxRepetitions nonRepeaters hp ht hd hvl hvs with
    ⟨hc, e, hrun⟩ | ⟨hc, hnot, e, w', hrun, hbuilt⟩ | ⟨-, hall, w', hrun, hbuilt, -⟩
  · have hbulk : s = (.error (.exn e), ((w.freePdu p).tick, PDU.null)) := Run.bind_error hrun
    rw [hbulk]
    exact Accounts.released_iff (.of_eq (.inl hc) rfl rfl) hp hr
  · have hbulk : s = (.error (.exn e), (w', ⟨kGetBulk, some w.pdus.next⟩)) := Run.bind_error hrun
    rw [hbulk]
    refine ⟨fun hrel => ?_, ?_⟩
    · obtain ⟨_, _, hq⟩ := hbuilt.request
      obtain ⟨_, _, hq, -, -⟩ := World.request_eq_some.1 hq
      rw [hnext] at hq
      exact absurd (w'.pdus.live_of_cell hq) (hrel.handle w.pdus.next rfl)
    · rintro (hc' | hall)
      · exact absurd hc' hc
      · exact absurd hall hnot
  · obtain ⟨_, _, hq⟩ := hbuilt.request
    rw [hnext] at hq
    obtain ⟨res, w'', hsync, hnf, hspent⟩ :=
      sync_spends env session (h := ⟨kGetBulk, some w.pdus.next⟩) rfl hq
    have hbulk : s = (res, (w'', PDU.null)) := (Run.bind_ok hrun).trans hsync
    rw [hbulk]
    rw [← hnext] at hspent
    exact Accounts.released_iff (.of_spent (.inr hall) hnf hbuilt hspent) hp hr

/-- **`getBulk`**: a PDU of another type without a list is thrown at and kept. -/
theorem getBulk_released_iff {r : Request} (hp : h.pdu = some p) (hr : w.request p = some r) :
    let s := getBulk env session maxRepetitions nonRepeaters (w, h)
    Released h w s.1 s.2.1 s.2.2 ↔
      h.type = kGetBulk ∨ r.vars ≠ [] ∧
        (env.pduCreate w.calls = none ∨ AllAdd env (w.calls + 1) (Varlist.getOidsSet r.vars).elems) := by
  intro s
  obtain ⟨d, vs, hd, hvs, rfl⟩ := World.request_eq_some.1 hr
  by_cases ht : h.type = kGetBulk
  · have hrel : Released h w s.1 s.2.1 s.2.2 :=
      getBulk_released_direct env session maxRepetitions nonRepeaters hp hd hvs ht
    exact ⟨fun _ => .inl ht, fun _ => hrel⟩
  by_cases hvl : d.variableList = none
  · have hnil : vs = [] := (World.vars_eq_nil_iff hvs).2 hvl
    have hbulk : s = (.error (.exn _), (w, h)) :=
      Run.bind_error (getBulkRequest_noList env maxRepetitions nonRepeaters hp ht hd hvl)
    rw [hbulk]
    refine ⟨fun hrel => absurd hrel (Released.not_of_same hp), ?_⟩
    rintro (hc | ⟨hc, -⟩)
    · exact absurd hc ht
    · exact absurd hnil hc
  · have hne : vs ≠ [] := fun hc => hvl ((World.vars_eq_nil_iff hvs).1 hc)
    apply (getBulk_released_rebuild env session maxRepetitions nonRepeaters hp hd hvs ht hvl).trans
    simp only [ht, false_or, ne_eq, hne, not_false_eq_true, true_and]

end

namespace Entry

def run (env : NetSnmp) (session : SessionHandle) : Entry → Method PDU PDU
  | sync                => Snmppp.sync env session
  | get                 => Snmppp.get env session
  | set                 => Snmppp.set env session
  | getNext             => Snmppp.getNext env session
  | getBulk maxReps non => Snmppp.getBulk env session maxReps non

/-- The request has a list where its type makes the call read it, and nothing that is added to the request built in its
place fails. -/
def Releases (env : NetSnmp) (w : World) (h : PDU) : Entry → Prop
  | sync | get | set => True
  | getNext          => ∀ r, h.pdu.bind w.request = some r →
    r.vars ≠ [] ∧ (h.type = kGetNext ∨ (OID.ofVarlist (lastVarbind r.vars)).empty = true ∨
      env.pduCreate w.calls = none ∨ env.addVariable (w.calls + 1) = true)
  | getBulk _ _      => ∀ r, h.pdu.bind w.request = some r →
    h.type = kGetBulk ∨ r.vars ≠ [] ∧
      (env.pduCreate w.calls = none ∨ AllAdd env (w.calls + 1) (Varlist.getOidsSet r.vars).elems)

/-- **The request release contract, and when it holds**: always of `sync`, `get` and `set`; of `getNext` and `getBulk`
when the PDU has a list, unless it is sent as it is, and no add on the request built in its place fails. -/
theorem releases_iff (env : NetSnmp) (session : SessionHandle) (e : Entry) (w : World) (h : PDU) (hv : h.Valid w) :
    let s := e.run env session (w, h)
    Released h w s.1 s.2.1 s.2.2 ↔ e.Releases env w h := by
  intro s
  cases hp : h.pdu with
  | none =>
    have hnull : e.Releases env w h := by
      cases e <;> simp [Releases, hp]
    refine ⟨fun _ => hnull, fun _ => ?_⟩
    cases e with
    | sync | get | set => exact sync_released env session w h hv
    | getNext =>
      have hrun : s = _ := getNext_empty env session (PDU.empty_null hp)
      rw [hrun]
      exact .of_null hp
    | getBulk maxReps non =>
      have hrun : s = _ := Run.bind_error (getBulkRequest_null env maxReps non hp)
      rw [hrun]
      exact .of_null hp
  | some p =>
    obtain ⟨r, hr⟩ := hv p hp
    have hreq : ∀ P : Request → Prop, (∀ r', h.pdu.bind w.request = some r' → P r') ↔ P r := fun P => by
      simp [hp, hr]
    cases e with
    | sync | get | set => exact ⟨fun _ => trivial, fun _ => sync_released env session w h hv⟩
    | getNext =>
      rw [Releases, hreq]
      exact getNext_released_iff env session hp hr
    | getBulk maxReps non =>
      rw [Releases, hreq]
      exact getBulk_released_iff env session maxReps non hp hr

theorem releases_witness :
    let env := NetSnmp.working (fun _ => .timeout)
    let w := (World.start.newList [⟨[1, 3], ASN_NULL, []⟩]).2.newPdu ⟨kGet, 0, 0, some 0⟩
    let s := (getNext).run env (some 0) (w, ⟨kGet, some 0⟩)
    Released ⟨kGet, some 0⟩ w s.1 s.2.1 s.2.2 ↔ getNext.Releases env w ⟨kGet, some 0⟩ :=
  releases_iff _ (some 0) getNext _ ⟨kGet, some 0⟩ (fun p hp => by cases hp; exact ⟨_, rfl⟩)

/-- A PDU without a list: `getNext` throws and the request stays live in the caller's handle. -/
theorem getNext_keeps_request :
    let env := NetSnmp.working (fun _ => .timeout)
    let w := World.start.newPdu ⟨kGet, 0, 0, none⟩
    let s := (getNext).run env (some 0) (w, ⟨kGet, some 0⟩)
    s.1 = .error (.exn (invalidArgument "Cannot GETNEXT with an empty PDU.")) ∧ s.2.2 = ⟨kGet, some 0⟩ ∧
      s.2.1.pdus.freed 0 = 0 ∧ s.2.1.pdus.Live 0 ∧ ¬ Released ⟨kGet, some 0⟩ w s.1 s.2.1 s.2.2 :=
  ⟨rfl, rfl, rfl, by decide, fun hrel => absurd (hrel.given 0 rfl) (by decide)⟩

end Entry
end Snmppp
