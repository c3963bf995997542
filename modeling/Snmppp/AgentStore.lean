import Snmppp.AgentBulk
import Snmppp.Handles
import Mathlib.Data.List.Forall2
/-!
# AgentStore — an agent as a store

A client asks with the functions that build their own request, reads the list of the response and frees it; the first
call that throws is its last.  Against an agent that applies what it is told, the calls that returned have read what a
map from OIDs to types and values would have given them (`asks_refine_store`), and what a typed setter wrote is what the
typed lookups read until the OID is written again (`set_get_round_trip`).
-/
namespace Snmppp

def SNMP_NOSUCHINSTANCE : UInt8 := 129

/-- A request that returns was answered, and the PDU returned holds the answer. -/
theorem sync_ok (env : NetSnmp) {session : SessionHandle} {w w' : World} {h h' res : PDU} {p : PduPtr} {r : Request}
    (hp : h.pdu = some p) (hr : w.request p = some r) (hrun : sync env session (w, h) = (.ok res, (w', h'))) :
    ∃ r', w'.log = w.log ++ [.sent r, .received w.pdus.next r'.vars] ∧ res.pdu = some w.pdus.next ∧
      w'.request w.pdus.next = some r' := by
  cases session with
  | none =>
    rw [sync_noSession env hp hr] at hrun
    cases hrun
  | some n =>
    rcases sync_turn env (show (some n : SessionHandle) ≠ none by simp) hp hr with
      ⟨e, w₁, es, hsync, -⟩ | ⟨a, w₁, hsync, -, hlog, hreq, -⟩ <;> rw [hsync] at hrun <;> cases hrun
    exact ⟨_, hlog, rfl, hreq⟩

/-- A request that throws was sent, or nothing was. -/
theorem sync_stopped (env : NetSnmp) {session : SessionHandle} {w w' : World} {h h' : PDU} {p : PduPtr} {r : Request}
    {e : Stop Exc} (hp : h.pdu = some p) (hr : w.request p = some r)
    (hrun : sync env session (w, h) = (.error e, (w', h'))) :
    ∃ es, w'.log = w.log ++ es ∧ (sentIn es = [] ∨ sentIn es = [r]) := by
  cases session with
  | none =>
    rw [sync_noSession env hp hr] at hrun
    cases hrun
    exact ⟨[], by rw [World.log_freePdu, List.append_nil], .inl rfl⟩
  | some n =>
    rcases sync_turn env (show (some n : SessionHandle) ≠ none by simp) hp hr with
      ⟨e, w₁, es, hsync, hlog, hes, -⟩ | ⟨a, w₁, hsync, -⟩ <;> rw [hsync] at hrun <;> cases hrun
    refine ⟨_, hlog, .inr ?_⟩
    rcases hes with rfl | ⟨vs, rfl⟩ <;> rfl

/-! ## The requests -/

namespace Query

/-- The add calls that fill the request. -/
def calls : Query → List AddCall
  | get o | getNext o | getBulk o _ _ => [.addNullVar o]
  | getSet oids                       => oids.elems.map .addNullVar
  | setBooleanVar o v                 => [.addBooleanVar o v]
  | setIntegerVar o v                 => [.addIntegerVar o v]
  | setInteger64Var o v               => [.addInteger64Var o v]
  | setGaugeVar o v                   => [.addGaugeVar o v]
  | setOctetStringVar o v             => [.addOctetStringVar o v]

/-- The two numbers of a GETBULK are in the request. -/
def Numbers : Query → Request → Prop
  | getBulk _ maxRepetitions nonRepeaters, r => r.errstat = nonRepeaters ∧ r.errindex = maxRepetitions
  | _, _                                     => True

variable (env : NetSnmp)

/-- **`r` is the request of `q`.** -/
structure Asks (q : Query) (r : Request) : Prop where
  command : r.command = q.command
  vars    : r.vars = q.calls.map (·.varbind env)
  numbers : q.Numbers r

/-- `m` hands the request of `q` to `sync`, or throws before anything is sent. -/
def Sends (session : SessionHandle) (q : Query) (m : Snmp PDU) (w : World) : Prop :=
  (∃ e w', m w = (.error (.exn e), w') ∧ Silent w w') ∨
  ∃ w₁ r, Silent w w₁ ∧ w₁.request w.pdus.next = some r ∧ q.Asks env r ∧
    m w = ((sync env session (w₁, ⟨q.command, some w.pdus.next⟩)).1,
      (sync env session (w₁, ⟨q.command, some w.pdus.next⟩)).2.1)

variable {env}

/-- The functions that ask about one OID. -/
theorem requestOne_sends (session : SessionHandle) {q : Query} {c : AddCall} (hcalls : q.calls = [c])
    (hnumbers : ∀ r, q.Numbers r) (w : World) :
    q.Sends env session (requestOne env session q.command c.oid (c.onPdu env)) w := by
  rcases requestOne_cases env session q.command c w with
    ⟨-, e, hrun⟩ | ⟨-, -, e, hrun⟩ | ⟨-, -, -, e, w', hrun, hbuilt⟩ | ⟨-, -, -, w₁, hbuilt, -, hrun⟩
  · exact .inl ⟨e, _, hrun, .of_log rfl⟩
  · exact .inl ⟨e, _, hrun, .of_log rfl⟩
  · exact .inl ⟨e, _, hrun, .of_built rfl hbuilt⟩
  · obtain ⟨es, ei, hr⟩ := hbuilt.request
    exact .inr ⟨w₁, _, .of_built rfl hbuilt, hr, ⟨rfl, by rw [hcalls]; rfl, hnumbers _⟩, hrun⟩

theorem getSet_sends (session : SessionHandle) (oids : SetOID) (w : World) :
    (getSet oids).Sends env session (Snmppp.getSet env session oids) w := by
  by_cases hs : oids.elems = []
  · exact .inl ⟨_, _, by rw [Snmppp.getSet, if_pos hs, Run.throws_apply], .of_log rfl⟩
  by_cases hc : env.pduCreate w.calls = none
  · exact .inl ⟨_, w.tick, by rw [Snmppp.getSet, if_neg hs, Run.bind_error (PDU.create_none env kGet hc)], .of_log rfl⟩
  obtain ⟨w₁, hcreate, -, hbuilt⟩ := Built.create env kGet hc
  obtain ⟨_, _, hr⟩ := hbuilt.request
  rcases PDU.each_addNullVar env (h := ⟨kGet, some w.pdus.next⟩) rfl oids.elems w₁ _ hr with
    ⟨w₂, hadd, -, hfill, -⟩ | ⟨e, w₂, xs, hadd, hfill, -⟩
  · obtain ⟨es, ei, hr₂⟩ := (hbuilt.fill hfill).request
    refine .inr ⟨w₂, _, .of_built rfl (hbuilt.fill hfill), hr₂, ⟨rfl, ?_, trivial⟩, ?_⟩
    · rw [calls, List.map_map]
      rfl
    · rw [Snmppp.getSet, if_neg hs, Run.bind_ok hcreate, Run.bind_ok (Run.on_ok hadd), Run.on_fst]
      rfl
  · exact .inl ⟨e, w₂, by rw [Snmppp.getSet, if_neg hs, Run.bind_ok hcreate, Run.bind_error (Run.on_error hadd)],
      .of_built rfl (hbuilt.fill hfill)⟩

theorem getBulkOid_sends (session : SessionHandle) (o : OID) (maxRepetitions nonRepeaters : Int) (w : World) :
    (getBulk o maxRepetitions nonRepeaters).Sends env session
      (getBulkOid env session o maxRepetitions nonRepeaters) w := by
  by_cases hc : env.pduCreate w.calls = none
  · exact .inl ⟨_, w.tick, by rw [getBulkOid, Run.bind_error (PDU.create_none env kGetBulk hc)], .of_log rfl⟩
  obtain ⟨w₁, hcreate, -, hbuilt⟩ := Built.create env kGetBulk hc
  obtain ⟨_, _, hr⟩ := hbuilt.request
  rcases (AddCall.addNullVar o).onPdu_step env (h := ⟨kGetBulk, some w.pdus.next⟩) rfl hr with
    ⟨w₂, hadd, -, hfill, -⟩ | ⟨e, w₂, hadd, hfill, -⟩ <;>
    have hadd' : PDU.addNullVar env o (w₁, ⟨kGetBulk, some w.pdus.next⟩) = _ := hadd
  · obtain ⟨_, _, hr₂⟩ := (hbuilt.fill hfill).request
    obtain ⟨d, _, hd, -, -⟩ := World.request_eq_some.1 hr₂
    obtain ⟨w₃, hassign, hbuilt₃, hr₃⟩ := (hbuilt.fill hfill).assign nonRepeaters maxRepetitions
    have hrequest : getBulkRequest env maxRepetitions nonRepeaters (w₂, (⟨kGetBulk, some w.pdus.next⟩ : PDU))
        = (.ok (), (w₃, ⟨kGetBulk, some w.pdus.next⟩)) := by
      rw [getBulkRequest_direct env _ _ (h := ⟨kGetBulk, some w.pdus.next⟩) rfl rfl hd]
      rw [assign_ok hd, Prod.mk.injEq] at hassign
      rw [← hassign.2]
      rfl
    refine .inr ⟨w₃, _, .of_built rfl hbuilt₃, hr₃, ⟨rfl, rfl, rfl, rfl⟩, ?_⟩
    rw [getBulkOid, Run.bind_ok hcreate, Run.bind_ok (Run.on_ok hadd'), Run.on_fst, Snmppp.getBulk,
      Run.bind_ok hrequest]
    rfl
  · exact .inl ⟨e, w₂, by rw [getBulkOid, Run.bind_ok hcreate, Run.bind_error (Run.on_error hadd')],
      .of_built rfl (hbuilt.fill hfill)⟩

/-- **A query hands its request to `sync`, or throws before.** -/
theorem run_sends (session : SessionHandle) (q : Query) (w : World) : q.Sends env session (q.run env session) w := by
  cases q with
  | get o                     => exact requestOne_sends session (q := .get o) rfl (fun _ => trivial) w
  | getNext o                 => exact requestOne_sends session (q := .getNext o) rfl (fun _ => trivial) w
  | getSet oids               => exact getSet_sends session oids w
  | getBulk o maxReps non     => exact getBulkOid_sends session o maxReps non w
  | setBooleanVar o v         => exact requestOne_sends session (q := .setBooleanVar o v) rfl (fun _ => trivial) w
  | setIntegerVar o v         => exact requestOne_sends session (q := .setIntegerVar o v) rfl (fun _ => trivial) w
  | setInteger64Var o v       => exact requestOne_sends session (q := .setInteger64Var o v) rfl (fun _ => trivial) w
  | setGaugeVar o v           => exact requestOne_sends session (q := .setGaugeVar o v) rfl (fun _ => trivial) w
  | setOctetStringVar o v     => exact requestOne_sends session (q := .setOctetStringVar o v) rfl (fun _ => trivial) w

/-- **A query that returns** has sent its request and holds the response to it. -/
theorem run_ok (session : SessionHandle) (q : Query) {w w' : World} {pdu : PDU}
    (hrun : q.run env session w = (.ok pdu, w')) :
    ∃ es r ptr r', w'.log = w.log ++ es ∧ q.Asks env r ∧ sentIn es = [r] ∧ receivedIn es = [(ptr, r'.vars)] ∧
      pdu.pdu = some ptr ∧ w'.request ptr = some r' := by
  rcases q.run_sends session w with ⟨e, w₁, hthrow, -⟩ | ⟨w₁, r, ⟨es, hlog, hsent, hreceived⟩, hr, hasks, heq⟩
  · rw [hthrow] at hrun
    cases hrun
  · rw [heq, Prod.mk.injEq] at hrun
    have hsync : sync env session (w₁, ⟨q.command, some w.pdus.next⟩)
        = (.ok pdu, (w', (sync env session (w₁, ⟨q.command, some w.pdus.next⟩)).2.2)) :=
      Prod.ext hrun.1 (Prod.ext hrun.2 rfl)
    obtain ⟨r', hlog', hres, hr'⟩ := sync_ok env rfl hr hsync
    refine ⟨es ++ [.sent r, .received w₁.pdus.next r'.vars], r, w₁.pdus.next, r', ?_, hasks, ?_, ?_, hres, hr'⟩
    · rw [hlog', hlog, List.append_assoc]
    · rw [sentIn_append, hsent]
      rfl
    · rw [receivedIn_append, hreceived]
      rfl

/-- Nothing was sent from `w` to `w'`, or the request of `q` and no other. -/
def Tries (env : NetSnmp) (q : Query) (w w' : World) : Prop :=
  ∃ es, w'.log = w.log ++ es ∧ (sentIn es = [] ∨ ∃ r, sentIn es = [r] ∧ q.Asks env r)

/-- **A query that throws** has sent its request, or nothing. -/
theorem run_stopped (session : SessionHandle) (q : Query) {w w' : World} {e : Stop Exc}
    (hrun : q.run env session w = (.error e, w')) : q.Tries env w w' := by
  rcases q.run_sends session w with
    ⟨e, w₁, hthrow, es, hlog, hsent, -⟩ | ⟨w₁, r, ⟨es, hlog, hsent, -⟩, hr, hasks, heq⟩
  · rw [hthrow] at hrun
    cases hrun
    exact ⟨es, hlog, .inl hsent⟩
  · rw [heq, Prod.mk.injEq] at hrun
    have hsync : sync env session (w₁, ⟨q.command, some w.pdus.next⟩)
        = (.error e, (w', (sync env session (w₁, ⟨q.command, some w.pdus.next⟩)).2.2)) :=
      Prod.ext hrun.1 (Prod.ext hrun.2 rfl)
    obtain ⟨es', hlog', hsent'⟩ := sync_stopped env rfl hr hsync
    refine ⟨es ++ es', by rw [hlog', hlog, List.append_assoc], ?_⟩
    rw [sentIn_append, hsent, List.nil_append]
    exact hsent'.imp id (fun hsent' => ⟨r, hsent', hasks⟩)

/-- A query as a client makes it: the list of the response is read, and the PDU is freed. -/
def ask (env : NetSnmp) (session : SessionHandle) (q : Query) : Snmp (List Varbind) := do
  let pdu ← q.run env session
  let vl ← pdu.varlist
  let c ← chain vl.varlist
  let _ ← Run.on pdu PDU.free
  pure c

/-- **What is read is what was received.** -/
theorem ask_ok (session : SessionHandle) (q : Query) {w w' : World} {vs : List Varbind}
    (hrun : q.ask env session w = (.ok vs, w')) :
    ∃ es r ptr, w'.log = w.log ++ es ∧ q.Asks env r ∧ sentIn es = [r] ∧ receivedIn es = [(ptr, vs)] := by
  cases hq : q.run env session w with
  | mk res w₁ =>
    cases res with
    | error e =>
      rw [ask, Run.bind_error hq] at hrun
      cases hrun
    | ok pdu =>
      obtain ⟨es, r, ptr, r', hlog, hasks, hsent, hreceived, hpdu, hr'⟩ := q.run_ok session hq
      obtain ⟨d, vs', hd, hvs', rfl⟩ := World.request_eq_some.1 hr'
      rw [ask, Run.bind_ok hq] at hrun
      by_cases hvl : d.variableList = none
      · rw [Run.bind_error (PDU.varlist_none hpdu hd hvl)] at hrun
        cases hrun
      · rw [Run.bind_ok (PDU.varlist_ok hpdu hd hvl), Run.bind_ok (chain_ok hvs'),
          Run.bind_ok (Run.on_ok (PDU.free_ok hpdu hr')), Run.pure_apply] at hrun
        cases hrun
        exact ⟨es, r, ptr, by rw [World.log_freePdu, hlog], hasks, hsent, hreceived⟩

/-- The same when the client throws, which it also does at a response without varbinds. -/
theorem ask_stopped (session : SessionHandle) (q : Query) {w w' : World} {e : Stop Exc}
    (hrun : q.ask env session w = (.error e, w')) : q.Tries env w w' := by
  rcases hq : q.run env session w with ⟨e' | pdu, w₁⟩
  · rw [ask, Run.bind_error hq] at hrun
    cases hrun
    exact q.run_stopped session hq
  · obtain ⟨es, r, ptr, r', hlog, hasks, hsent, -, hpdu, hr'⟩ := q.run_ok session hq
    obtain ⟨d, vs', hd, hvs', rfl⟩ := World.request_eq_some.1 hr'
    rw [ask, Run.bind_ok hq] at hrun
    by_cases hvl : d.variableList = none
    · rw [Run.bind_error (PDU.varlist_none hpdu hd hvl)] at hrun
      cases hrun
      exact ⟨es, hlog, .inr ⟨r, hsent, hasks⟩⟩
    · rw [Run.bind_ok (PDU.varlist_ok hpdu hd hvl), Run.bind_ok (chain_ok hvs'),
        Run.bind_ok (Run.on_ok (PDU.free_ok hpdu hr')), Run.pure_apply] at hrun
      cases hrun

/-- So many queries, one after the other. -/
def asks (env : NetSnmp) (session : SessionHandle) : List Query → Snmp (List (List Varbind))
  | []      => pure []
  | q :: qs => do
    let vs ← q.ask env session
    let rest ← asks env session qs
    pure (vs :: rest)

end Query

/-! ## The store -/

namespace MibView

/-- What an agent answers to one name of a GET. -/
def read (view : MibView) (o : OID) : Varbind :=
  match view.find o with
  | some x => object (o, x)
  | none   => ⟨o.v, SNMP_NOSUCHINSTANCE, []⟩

def write (view : MibView) (vs : List Varbind) : MibView := vs.foldl (fun v b => v.set ⟨b.name⟩ (b.type, b.val)) view

/-- **The agent applies `r` and answers `vs`**: to a SET with what it has set. -/
def Applies (view : MibView) (r : Request) (vs : List Varbind) : Prop :=
  view.Meets r vs ∧ (r.command = kGet → vs = (oidsOf r.vars).map view.read) ∧ (r.command = kSet → vs = r.vars)

def applied (view : MibView) (r : Request) : MibView := if r.command = kSet then view.write r.vars else view

/-- **The agent obeys**: it applies each request to what the requests before have left. -/
def Obeys : MibView → List (Request × PduPtr × List Varbind) → Prop
  | _, []         => True
  | view, x :: xs => view.Applies x.1 x.2.2 ∧ Obeys (view.applied x.1) xs

theorem Obeys.of_append : ∀ {xs ys : List (Request × PduPtr × List Varbind)} {view : MibView},
    view.Obeys (xs ++ ys) → view.Obeys xs
  | [], _, _, _     => trivial
  | _ :: _, _, _, h => ⟨h.1, Obeys.of_append h.2⟩

instance (view : MibView) (r : Request) (vs : List Varbind) : Decidable (view.Applies r vs) :=
  inferInstanceAs (Decidable (_ ∧ _ ∧ _))

instance decidableObeys : (view : MibView) → (xs : List (Request × PduPtr × List Varbind)) → Decidable (view.Obeys xs)
  | _, []         => .isTrue trivial
  | view, x :: xs => @instDecidableAnd _ _ _ (decidableObeys (view.applied x.1) xs)

theorem find_write_of_ne {o : OID} : ∀ {vs : List Varbind} {view : MibView}, (∀ b ∈ vs, (⟨b.name⟩ : OID) ≠ o) →
    (view.write vs).find o = view.find o
  | [], _, _         => rfl
  | b :: vs, view, h => by
    have hkept := OrdMap.find_set_of_ne view (Ne.symm (h b List.mem_cons_self)) (b.type, b.val)
    exact (find_write_of_ne (fun x hx => h x (List.mem_cons_of_mem _ hx))).trans hkept

variable (view : MibView)

theorem read_of_find {o : OID} {x : UInt8 × List UInt8} (h : view.find o = some x) : view.read o = ⟨o.v, x.1, x.2⟩ := by
  rw [read, h]
  rfl

end MibView

namespace Query

/-- **What a query reads** when the store is `view`; the end of a GETBULK may be missing. -/
def Reads (env : NetSnmp) (view : MibView) : Query → List Varbind → Prop
  | get o, vs                 => vs = [view.read o]
  | getSet oids, vs           => vs = oids.elems.map view.read
  | getNext o, vs             => vs = [view.successor o]
  | getBulk o maxReps non, vs => vs <+: view.answerGetBulk maxReps non [o]
  | q, vs                     => vs = q.calls.map (·.varbind env)

/-- What a query leaves of the store. -/
def writes (env : NetSnmp) (view : MibView) (q : Query) : MibView :=
  if q.command = kSet then view.write (q.calls.map (·.varbind env)) else view

/-- **The queries one after the other on a store**, each with what it reads. -/
def Refines (env : NetSnmp) : MibView → List Query → List (List Varbind) → Prop
  | _, [], results         => results = []
  | _, _ :: _, []          => False
  | view, q :: qs, vs :: results => q.Reads env view vs ∧ Refines env (q.writes env view) qs results

variable {env : NetSnmp} {view : MibView} {q : Query} {r : Request} {vs : List Varbind}

theorem Asks.applied (h : q.Asks env r) : view.applied r = q.writes env view := by
  rw [MibView.applied, writes, h.command, h.vars]

/-- **What an agent answers is what the store reads.** -/
theorem Asks.reads (h : q.Asks env r) (ha : view.Applies r vs) : q.Reads env view vs := by
  obtain ⟨⟨hnext, hbulk⟩, hget, hset⟩ := ha
  have hcmd := h.command
  have hvars := h.vars
  cases q with
  | get o => exact (hget hcmd).trans (by rw [hvars]; rfl)
  | getNext o => exact (hnext hcmd).trans (by rw [hvars]; rfl)
  | getSet oids =>
    have hoids : oidsOf r.vars = oids.elems := by
      rw [hvars, calls, List.map_map]
      exact oidsOf_nullVarbinds env oids.elems
    rw [Reads, hget hcmd, hoids]
  | getBulk o maxReps non =>
    obtain ⟨hstat, hindex⟩ := h.numbers
    have hprefix := hbulk hcmd
    rw [hstat, hindex, hvars] at hprefix
    exact hprefix
  | setBooleanVar o v => exact (hset hcmd).trans hvars
  | setIntegerVar o v => exact (hset hcmd).trans hvars
  | setInteger64Var o v => exact (hset hcmd).trans hvars
  | setGaugeVar o v => exact (hset hcmd).trans hvars
  | setOctetStringVar o v => exact (hset hcmd).trans hvars

/-- **A run against an agent that obeys reads what the store reads**, by induction on the queries. -/
theorem asks_refine (session : SessionHandle) : ∀ {qs : List Query} {w w' : World} {results : List (List Varbind)},
    asks env session qs w = (.ok results, w') →
    ∃ es, w'.log = w.log ++ es ∧ List.Forall₂ (Asks env) qs (sentIn es) ∧ (receivedIn es).length = qs.length ∧
      ∀ {view : MibView}, view.Obeys ((sentIn es).zip (receivedIn es)) → Refines env view qs results
  | [], w, w', results, hrun => by
    cases hrun
    exact ⟨[], (List.append_nil _).symm, List.Forall₂.nil, rfl, fun _ => rfl⟩
  | q :: qs, w, w', results, hrun => by
    rcases hq : q.ask env session w with ⟨e | vs, w₁⟩
    · rw [asks, Run.bind_error hq] at hrun
      cases hrun
    rw [asks, Run.bind_ok hq] at hrun
    rcases hqs : asks env session qs w₁ with ⟨e | rest, w₂⟩
    · rw [Run.bind_error hqs] at hrun
      cases hrun
    rw [Run.bind_ok hqs, Run.pure_apply] at hrun
    cases hrun
    obtain ⟨es, r, ptr, hlog, hasks, hsent, hreceived⟩ := q.ask_ok session hq
    obtain ⟨es', hlog', hall, hlen, hrest⟩ := asks_refine session hqs
    have hsents : sentIn (es ++ es') = r :: sentIn es' := by rw [sentIn_append, hsent]; rfl
    have hreceiveds : receivedIn (es ++ es') = (ptr, vs) :: receivedIn es' := by rw [receivedIn_append, hreceived]; rfl
    refine ⟨es ++ es', by rw [hlog', hlog, List.append_assoc], by rw [hsents]; exact .cons hasks hall,
      by rw [hreceiveds, List.length_cons, hlen, List.length_cons], fun {view} hobeys => ?_⟩
    rw [hsents, hreceiveds] at hobeys
    obtain ⟨happlies, hobeys⟩ := hobeys
    rw [hasks.applied] at hobeys
    exact ⟨hasks.reads happlies, hrest hobeys⟩

/-- **Where a run that throws has stopped**: some queries have returned, and the next one has thrown. -/
theorem asks_stopped (session : SessionHandle) : ∀ {qs : List Query} {w w' : World} {e : Stop Exc},
    asks env session qs w = (.error e, w') → ∃ before q after results w₁, qs = before ++ q :: after ∧
      asks env session before w = (.ok results, w₁) ∧ q.ask env session w₁ = (.error e, w')
  | [], _, _, _, hrun        => by cases hrun
  | q :: qs, w, w', e, hrun => by
    rcases hq : q.ask env session w with ⟨e' | vs, w₁⟩
    · rw [asks, Run.bind_error hq] at hrun
      cases hrun
      exact ⟨[], q, qs, [], w, rfl, rfl, hq⟩
    rw [asks, Run.bind_ok hq] at hrun
    rcases hqs : asks env session qs w₁ with ⟨e' | rest, w₂⟩
    · rw [Run.bind_error hqs] at hrun
      cases hrun
      obtain ⟨before, q', after, results, w₃, rfl, hbefore, hq'⟩ := asks_stopped session hqs
      refine ⟨q :: before, q', after, vs :: results, w₃, rfl, ?_, hq'⟩
      rw [asks, Run.bind_ok hq, Run.bind_ok hbefore]
      rfl
    · rw [Run.bind_ok hqs] at hrun
      cases hrun

/-- The store behind so many queries. -/
def storeAfter (env : NetSnmp) (view : MibView) (qs : List Query) : MibView := qs.foldl (writes env) view

theorem Refines.last : ∀ {qs : List Query} {view : MibView} {q : Query} {results : List (List Varbind)},
    Refines env view (qs ++ [q]) results → ∃ init vs, results = init ++ [vs] ∧ q.Reads env (storeAfter env view qs) vs
  | [], _, _, [], h            => h.elim
  | [], _, _, vs :: results, h => ⟨[], vs, by rw [show results = [] from h.2]; rfl, h.1⟩
  | _ :: _, _, _, [], h        => h.elim
  | _ :: _, _, _, vs :: _, h   => by
    obtain ⟨init, x, rfl, hx⟩ := h.2.last
    exact ⟨vs :: init, x, rfl, hx⟩

/-- `q` writes `o`. -/
def Writes (q : Query) (o : OID) : Prop := q.command = kSet ∧ o ∈ q.calls.map (·.oid)

theorem find_writes_of_not {o : OID} (h : ¬ q.Writes o) : (q.writes env view).find o = view.find o := by
  unfold writes
  split
  · rename_i hset
    refine MibView.find_write_of_ne (fun b hb he => h ⟨hset, ?_⟩)
    obtain ⟨c, hc, rfl⟩ := List.mem_map.1 hb
    exact List.mem_map.2 ⟨c, hc, he⟩
  · rfl

theorem find_storeAfter_of_not {o : OID} : ∀ {qs : List Query} {view : MibView}, (∀ q ∈ qs, ¬ q.Writes o) →
    (storeAfter env view qs).find o = view.find o
  | [], _, _         => rfl
  | q :: qs, view, h => by
    have hkept : (q.writes env view).find o = view.find o := find_writes_of_not (h q List.mem_cons_self)
    exact (find_storeAfter_of_not (fun x hx => h x (List.mem_cons_of_mem _ hx))).trans hkept

end Query

/-- **The client and the agent are a store.**  So many queries that all return have sent one request each, as they say
and in their order; and where one of them throws those before it have, it has sent its own or nothing, and no other is
made.  Against an agent that obeys, those that returned have read what they would have read of a map that holds what was
set, however sets, gets, GETNEXTs and GETBULKs follow each other. -/
theorem asks_refine_store (env : NetSnmp) (session : SessionHandle) (qs : List Query) (w : World) :
    let run := Query.asks env session qs w
    let es := w.since run.2
    (∀ results, run.1 = .ok results → List.Forall₂ (Query.Asks env) qs (sentIn es) ∧
      ∀ view : MibView, view.Obeys ((sentIn es).zip (receivedIn es)) → Query.Refines env view qs results) ∧
    ∀ e, run.1 = .error e → ∃ before q after results w₁, qs = before ++ q :: after ∧
      Query.asks env session before w = (.ok results, w₁) ∧ q.ask env session w₁ = (.error e, run.2) ∧
      (List.Forall₂ (Query.Asks env) before (sentIn es) ∨
        List.Forall₂ (Query.Asks env) (before ++ [q]) (sentIn es)) ∧
      ∀ view : MibView, view.Obeys ((sentIn es).zip (receivedIn es)) → Query.Refines env view before results := by
  intro run es
  constructor
  · intro results hres
    obtain ⟨es', hlog, hall, -, hrefines⟩ := Query.asks_refine session (Prod.ext hres rfl)
    have hes : es = es' := World.since_eq hlog
    rw [hes]
    exact ⟨hall, fun view => hrefines⟩
  · intro e hstop
    obtain ⟨before, q, after, results, w₁, hqs, hbefore, hq⟩ := Query.asks_stopped session (Prod.ext hstop rfl)
    obtain ⟨es₁, hlog₁, hall, hlen, hrefines⟩ := Query.asks_refine session hbefore
    obtain ⟨es₂, hlog₂, htried⟩ := q.ask_stopped session hq
    have hes : es = es₁ ++ es₂ := World.since_eq (by rw [hlog₂, hlog₁, List.append_assoc])
    have hlen' : (sentIn es₁).length = (receivedIn es₁).length := hall.length_eq.symm.trans hlen.symm
    refine ⟨before, q, after, results, w₁, hqs, hbefore, hq, ?_, fun view hobeys => ?_⟩
    · rw [hes, sentIn_append]
      rcases htried with hnone | ⟨r, hone, hasks⟩
      · rw [hnone, List.append_nil]
        exact .inl hall
      · rw [hone]
        exact .inr (List.rel_append hall (.cons hasks .nil))
    · rw [hes, sentIn_append, receivedIn_append, List.zip_append hlen'] at hobeys
      exact hrefines hobeys.of_append

/-- What is set is what a GETNEXT of a name before it reads, and a get. -/
theorem asks_refine_store_set :
    let set : Varbind := ⟨[1, 3], ASN_INTEGER, widenInteger ASN_INTEGER (AddCall.addIntegerVar ⟨[1, 3]⟩ (-7)).value⟩
    let env := NetSnmp.answering [set, set, set]
    let qs : List Query := [.setIntegerVar ⟨[1, 3]⟩ (-7), .getNext ⟨[1]⟩, .get ⟨[1, 3]⟩]
    Query.Refines env OrdMap.empty qs [[set], [set], [set]] := by
  intro set env qs
  obtain ⟨hrefines, -⟩ := asks_refine_store env (some 0) qs World.start
  exact (hrefines [[set], [set], [set]] (by decide +kernel)).2 _ (by decide +kernel)

/-- **What is written is read back.**  Of queries that all return against an agent that obeys, a get of an OID that an
earlier typed setter wrote, with no later write of it, answers every typed lookup as the list the setter's value was
added to does: with that value for the type it was written in, and by throwing for the others. -/
theorem set_get_round_trip (env : NetSnmp)
    (hint : ∀ n : Int32,
      env.copyValue ASN_INTEGER (Bytes.ofNat 4 n.toUInt32.toNat) = Bytes.ofNat 8 n.toInt64.toUInt64.toNat)
    (hoctets : ∀ s, env.copyValue ASN_OCTET_STR s = s) (session : SessionHandle) (before between : List Query)
    (q : Query) (c : AddCall) (hset : q.command = kSet) (hcalls : q.calls = [c])
    (hbetween : ∀ x ∈ between, ¬ x.Writes c.oid) (w : World) (results : List (List Varbind)) (view : MibView)
    (hres : (Query.asks env session (before ++ q :: between ++ [.get c.oid]) w).1 = .ok results)
    (hobeys :
      let es := w.since (Query.asks env session (before ++ q :: between ++ [.get c.oid]) w).2
      view.Obeys ((sentIn es).zip (receivedIn es))) :
    ∃ init vs, results = init ++ [vs] ∧ vs = [c.varbind env] ∧ Varlist.Answers env vs c := by
  obtain ⟨es', hlog, -, -, hrefines⟩ := Query.asks_refine session (Prod.ext hres rfl)
  rw [World.since_eq hlog] at hobeys
  obtain ⟨init, vs, hresults, hvs⟩ := (hrefines hobeys).last
  have hfind : (Query.storeAfter env view (before ++ q :: between)).find c.oid
      = some (c.type, env.copyValue c.type c.value) := by
    rw [Query.storeAfter, List.foldl_append, List.foldl_cons]
    refine (Query.find_storeAfter_of_not hbetween).trans ?_
    rw [Query.writes, if_pos hset, hcalls]
    exact OrdMap.find_set_self _ _ _
  have hread : vs = [c.varbind env] := hvs.trans (congrArg (fun b => [b]) (MibView.read_of_find _ hfind))
  refine ⟨init, vs, hresults, hread, Varlist.answers_of_lookup hint hoctets ?_⟩
  rw [hread]
  exact Varlist.lookup_first_wins [] (c.varbind env) [] (by simp)

theorem set_get_round_trip_integer :
    let o : OID := ⟨[1, 3]⟩
    let c := AddCall.addIntegerVar o (-7)
    let set : Varbind := ⟨[1, 3], ASN_INTEGER, widenInteger ASN_INTEGER c.value⟩
    let env := NetSnmp.answering [set, ⟨[1, 4], ASN_INTEGER, [2]⟩, set]
    ∃ vs, (Query.asks env (some 0) [.setIntegerVar o (-7), .getNext o, .get o] World.start).1
      = .ok [[set], [⟨[1, 4], ASN_INTEGER, [2]⟩], vs] ∧ Varlist.Answers env vs c := by
  intro o c set env
  have hbetween : ∀ x ∈ [Query.getNext o], ¬ x.Writes c.oid := by simp [Query.Writes, Query.command, kSet, kGetNext]
  have hres : (Query.asks env (some 0) [.setIntegerVar o (-7), .getNext o, .get o] World.start).1
      = .ok [[set], [⟨[1, 4], ASN_INTEGER, [2]⟩], [set]] := by decide +kernel
  obtain ⟨init, vs, hresults, hvs, hanswers⟩ := set_get_round_trip env Varlist.widenInteger_int (fun _ => rfl) (some 0)
    [] [.getNext o] (.setIntegerVar o (-7)) c rfl rfl hbetween World.start _
    (OrdMap.empty.set ⟨[1, 4]⟩ (ASN_INTEGER, [2])) hres (by decide +kernel)
  rw [hvs] at hanswers
  exact ⟨_, hres, hanswers⟩

end Snmppp
