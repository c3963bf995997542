import Snmppp.SyncRun
/-!
# Walk — running getNext on its own responses

`pdu = getNext( session, pdu )` in a loop: the first turn sends the caller's GETNEXT, every later one releases the
response it was given and asks for its last OID.  One turn is described by the events it logs and the PDUs it leaves
live (`sync_turn`, `getNext_turn`); a walk from a response is an induction on the number of turns
(`walk_from_response`), and the first turn goes in front of one (`walk_from_request`).
-/
namespace Snmppp

theorem ofVarlist_lastVarbind : ∀ {vs : List Varbind} {b : Varbind}, vs.getLast? = some b →
    OID.ofVarlist (lastVarbind vs) = ⟨b.name⟩
  | [p], b, h => by
    cases h
    rfl
  | _ :: p :: ps, b, h => by
    rw [lastVarbind]
    rw [List.getLast?_cons_cons] at h
    exact ofVarlist_lastVarbind h

/-! ## One turn -/

/-- A turn that releases `p` and leaves the new `q`, once `q` is taken away. -/
theorem live_turn {w w₁ : World} {p q : PduPtr} (hq : w.pdus.next ≤ q)
    (hlive : ∀ b, w₁.pdus.Live b ↔ (w.pdus.Live b ∧ b ≠ p) ∨ b = q) (b : PduPtr) :
    w₁.pdus.Live b ∧ b ≠ q ↔ w.pdus.Live b ∧ b ≠ p := by
  rw [hlive]
  constructor
  · rintro ⟨hb | hb, hne⟩
    · exact hb
    · exact absurd hb hne
  · intro hb
    exact ⟨.inl hb, fun he => w.pdus.not_live_of_le (Nat.le_trans hq (Nat.le_of_eq he.symm)) hb.1⟩

/-- **What sync does with a request**, in events and live PDUs. -/
theorem sync_turn (env : NetSnmp) {session : SessionHandle} (hs : session ≠ none) {w : World} {h : PDU} {p : PduPtr}
    {r : Request} (hp : h.pdu = some p) (hr : w.request p = some r) :
    (∃ e w' es, sync env session (w, h) = (.error (.exn e), (w', PDU.null)) ∧ w'.log = w.log ++ .sent r :: es ∧
      (es = [] ∨ ∃ vs, es = [.received w.pdus.next vs]) ∧ w'.pdus.next = w.pdus.next + es.length ∧
      ∀ a, w'.pdus.Live a ↔ w.pdus.Live a ∧ a ≠ p) ∨
    (∃ a w', sync env session (w, h) = (.ok ⟨a.command, some w.pdus.next⟩, (w', PDU.null)) ∧
      (env.synchResponse w.calls).response = some a ∧
      w'.log = w.log ++ [.sent r, .received w.pdus.next a.vars] ∧
      w'.request w.pdus.next = some ⟨w.pdus.next, a.command, a.errstat, a.errindex, a.vars⟩ ∧
      w'.pdus.next = w.pdus.next + 1 ∧
      ∀ b, w'.pdus.Live b ↔ (w.pdus.Live b ∧ b ≠ p) ∨ b = w.pdus.next) := by
  have hhanded : ∀ b, (w.handed p r).pdus.Live b ↔ w.pdus.Live b ∧ b ≠ p := fun b =>
    World.live_freePdu (w.logs (.sent r)) p b
  have hnext := w.next_handed p r
  have hlog := w.log_handed p r
  cases hresp : (env.synchResponse w.calls).response with
  | none => exact .inl ⟨_, _, [], sync_noResponse env hs hp hr hresp, hlog, .inl rfl, hnext, hhanded⟩
  | some a =>
    let got := (w.handed p r).deliver a
    have hgotNext : got.pdus.next = w.pdus.next + 1 := by
      rw [World.pdus_deliver, Arena.next_alloc, hnext]
    have hgotLog : got.log = w.log ++ [.sent r, .received w.pdus.next a.vars] := by
      rw [World.log_deliver, hlog, hnext, List.append_assoc, List.singleton_append]
    have hgotLive : ∀ b, got.pdus.Live b ↔ (w.pdus.Live b ∧ b ≠ p) ∨ b = w.pdus.next := fun b => by
      rw [World.pdus_deliver, Arena.live_alloc, hhanded, hnext]
    by_cases hgood : a.Good (env.synchResponse w.calls).status
    · refine .inr ⟨a, got, sync_response env hs hp hr hresp hgood, rfl, hgotLog, ?_, hgotNext, hgotLive⟩
      rw [← hnext]
      exact World.request_deliver _ a
    · refine .inl ⟨_, _, _, sync_badResponse env hs hp hr hresp hgood, ?_, .inr ⟨a.vars, rfl⟩, ?_, fun b => ?_⟩
      · rw [World.log_freePdu]
        exact hgotLog
      · rw [World.next_freePdu]
        exact hgotNext
      · exact (World.live_freePdu got.tick w.pdus.next b).trans (live_turn (Nat.le_refl _) hgotLive b)

/-- **Asking for the last OID**: a GETNEXT of one NULL varbind, named as the last of `vs`. -/
def AsksLast (env : NetSnmp) (vs : List Varbind) (r : Request) : Prop :=
  r.command = kGetNext ∧ ∃ b, vs.getLast? = some b ∧ r.vars = [⟨b.name, ASN_NULL, env.copyValue ASN_NULL []⟩]

section
variable (env : NetSnmp) (hadd : ∀ n, env.addVariable n = true) {session : SessionHandle} (hs : session ≠ none)
include hadd hs

/-- **One turn on a response** ends as `sync` does, unless the new request cannot be created. -/
theorem getNext_turn {w : World} {h : PDU} {p : PduPtr} {r : Request} {b : Varbind} (hp : h.pdu = some p)
    (hr : w.request p = some r) (ht : h.type ≠ kGetNext) (hlast : r.vars.getLast? = some b) (hb : b.name ≠ []) :
    (∃ e w' es, getNext env session (w, h) = (.error (.exn e), (w', PDU.null)) ∧ w'.log = w.log ++ es ∧
      (es = [] ∨ ∃ rq es', es = .created w.pdus.next :: .sent rq :: es' ∧ AsksLast env r.vars rq ∧
        rq.ptr = w.pdus.next ∧ (es' = [] ∨ ∃ vs, es' = [.received (w.pdus.next + 1) vs])) ∧
      w.pdus.next + es.length ≤ w'.pdus.next + 1 ∧ w.pdus.next ≤ w'.pdus.next ∧
      ∀ a, w'.pdus.Live a ↔ w.pdus.Live a ∧ a ≠ p) ∨
    (∃ a w' rq n, getNext env session (w, h) = (.ok ⟨a.command, some (w.pdus.next + 1)⟩, (w', PDU.null)) ∧
      (env.synchResponse n).response = some a ∧
      w'.log = w.log ++ [.created w.pdus.next, .sent rq, .received (w.pdus.next + 1) a.vars] ∧
      AsksLast env r.vars rq ∧ rq.ptr = w.pdus.next ∧
      w'.request (w.pdus.next + 1) = some ⟨w.pdus.next + 1, a.command, a.errstat, a.errindex, a.vars⟩ ∧
      w'.pdus.next = w.pdus.next + 2 ∧
      ∀ c, w'.pdus.Live c ↔ (w.pdus.Live c ∧ c ≠ p) ∨ c = w.pdus.next + 1) := by
  have hne : r.vars ≠ [] := fun hc => by
    rw [hc] at hlast
    cases hlast
  have hfreed := w.live_freePdu p
  have hnext := w.next_freePdu p
  have hlog := w.log_freePdu p
  rw [getNext_last env session hp hr hne ht, ofVarlist_lastVarbind hlast]
  rcases requestOne_cases env session kGetNext (.addNullVar ⟨b.name⟩) (w.freePdu p) with
    ⟨ho, -⟩ | ⟨-, -, e, hrun⟩ | ⟨-, -, ha, -⟩ | ⟨-, -, -, w₁, hbuilt, -, hrun⟩
  · exact absurd (List.isEmpty_iff.1 ho) hb
  · have hrun' : getNextOid env session ⟨b.name⟩ (w.freePdu p) = _ := hrun
    rw [hrun']
    exact .inl ⟨e, _, [], rfl, by rw [List.append_nil]; exact hlog, .inl rfl,
      by rw [World.pdus_tick, hnext]; exact Nat.le_succ _, Nat.le_of_eq hnext.symm, hfreed⟩
  · rw [hadd] at ha
    cases ha
  · have hrun' : getNextOid env session ⟨b.name⟩ (w.freePdu p) = _ := hrun
    obtain ⟨es, ei, hq⟩ := hbuilt.request
    have hlog₁ := hbuilt.log
    have hnext₁ := hbuilt.next
    rw [hnext] at hq hlog₁ hnext₁ hrun'
    rw [hlog] at hlog₁
    have hlive : ∀ c, w₁.pdus.Live c ∧ c ≠ w.pdus.next ↔ w.pdus.Live c ∧ c ≠ p :=
      live_turn (Nat.le_refl _) (fun c => by rw [hbuilt.live, hfreed, hnext])
    have hasks : AsksLast env r.vars ⟨w.pdus.next, kGetNext, es, ei, [(AddCall.addNullVar ⟨b.name⟩).varbind env]⟩ :=
      ⟨rfl, b, hlast, rfl⟩
    rw [hrun']
    rcases sync_turn env hs (h := ⟨kGetNext, some w.pdus.next⟩) rfl hq with
      ⟨e, w', es', hsync, hlog', hes', hnext', hlive'⟩ | ⟨a, w', hsync, hresp, hlog', hreq, hnext', hlive'⟩ <;>
      rw [hsync] <;> rw [hlog₁, List.append_assoc, List.singleton_append] at hlog' <;> rw [hnext₁] at hnext'
    · rw [hnext₁] at hes'
      refine .inl ⟨e, w', _, rfl, hlog', .inr ⟨_, es', rfl, hasks, rfl, hes'⟩, ?_, ?_, fun c => ?_⟩
      · rw [hnext', List.length_cons, List.length_cons]
        omega
      · omega
      · rw [hlive', hlive]
    · rw [hnext₁] at hlog' hreq hlive'
      refine .inr ⟨a, w', _, _, ?_, hresp, hlog', hasks, rfl, hreq, hnext', fun c => ?_⟩
      · rw [hnext₁]
      · rw [hlive', hlive]

end

/-! ## The walk -/

/-- `n` turns of `pdu = getNext( session, pdu )`. -/
def walk (env : NetSnmp) (session : SessionHandle) : Nat → Method PDU Unit
  | 0     => pure ()
  | n + 1 => do
    let response ← getNext env session
    Run.setThis response
    walk env session n

/-- **Requests and responses in turn**: the first request is as `ask` says, every later one asks for the last OID of
the response to the one before it, and a request without a response is the last. -/
def Follows (env : NetSnmp) : (Request → Prop) → List Request → List (PduPtr × List Varbind) → Prop
  | _, [], recvs                    => recvs = []
  | ask, r :: rs, []                => ask r ∧ rs = []
  | ask, r :: rs, (_, vs) :: recvs => ask r ∧ Follows env (AsksLast env vs) rs recvs

def Fresh (w w' : World) (ps : List PduPtr) : Prop :=
  ps.Pairwise (· < ·) ∧ ∀ p ∈ ps, w.pdus.next ≤ p ∧ p < w'.pdus.next

theorem Fresh.cons {w w₁ w' : World} {p : PduPtr} {ps : List PduPtr} (hp : w.pdus.next ≤ p) (hp₁ : p < w₁.pdus.next)
    (hle : w₁.pdus.next ≤ w'.pdus.next) (h : Fresh w₁ w' ps) : Fresh w w' (p :: ps) := by
  refine ⟨List.pairwise_cons.2 ⟨fun q hq => Nat.lt_of_lt_of_le hp₁ (h.2 q hq).1, h.1⟩, fun q hq => ?_⟩
  rcases List.mem_cons.1 hq with rfl | hq
  · exact ⟨hp, Nat.lt_of_lt_of_le hp₁ hle⟩
  · exact ⟨Nat.le_trans hp (Nat.le_of_lt (Nat.lt_of_lt_of_le hp₁ (h.2 q hq).1)), (h.2 q hq).2⟩

theorem Fresh.nil (w w' : World) : Fresh w w' [] := ⟨List.Pairwise.nil, fun _ h => by cases h⟩

/-- **The events of a stretch of the walk** from `w` to `w'`: all its requests are made on the way and handed over once,
in turn with the responses. -/
structure Legs (env : NetSnmp) (ask : Request → Prop) (w w' : World) (es : List Event) : Prop where
  log      : w'.log = w.log ++ es
  follows  : Follows env ask (sentIn es) (receivedIn es)
  made     : createdIn es = (sentIn es).map (·.ptr)
  next     : w.pdus.next ≤ w'.pdus.next
  sent     : Fresh w w' ((sentIn es).map (·.ptr))
  received : Fresh w w' ((receivedIn es).map (·.1))
  apart    : ∀ r ∈ sentIn es, ∀ x ∈ receivedIn es, r.ptr ≠ x.1

namespace Legs

variable {env : NetSnmp} {ask : Request → Prop} {w w₁ w' : World} {rq : Request} {vs : List Varbind} {es : List Event}

theorem nil (hlog : w'.log = w.log) (hnext : w.pdus.next ≤ w'.pdus.next) : Legs env ask w w' [] where
  log      := by rw [hlog, List.append_nil]
  follows  := rfl
  made     := rfl
  next     := hnext
  sent     := Fresh.nil w w'
  received := Fresh.nil w w'
  apart    := fun _ h => by cases h

theorem asked (hlog : w'.log = w.log ++ [.created w.pdus.next, .sent rq]) (hask : ask rq) (hptr : rq.ptr = w.pdus.next)
    (hnext : w.pdus.next < w'.pdus.next) : Legs env ask w w' [.created w.pdus.next, .sent rq] where
  log      := hlog
  follows  := ⟨hask, rfl⟩
  made     := by
    show [w.pdus.next] = [rq.ptr]
    rw [hptr]
  next     := Nat.le_of_lt hnext
  sent     := Fresh.cons (Nat.le_of_eq hptr.symm) (Nat.lt_of_le_of_lt (Nat.le_of_eq hptr) hnext) (Nat.le_refl _)
    (Fresh.nil w' w')
  received := Fresh.nil w w'
  apart    := fun _ _ _ h => by cases h

theorem cons (hlog : w₁.log = w.log ++ [.created w.pdus.next, .sent rq, .received (w.pdus.next + 1) vs])
    (hask : ask rq) (hptr : rq.ptr = w.pdus.next) (hnext : w.pdus.next + 2 ≤ w₁.pdus.next)
    (h : Legs env (AsksLast env vs) w₁ w' es) :
    Legs env ask w w' (.created w.pdus.next :: .sent rq :: .received (w.pdus.next + 1) vs :: es) where
  log      := by rw [h.log, hlog, List.append_assoc]; rfl
  follows  := ⟨hask, h.follows⟩
  made     := by
    show w.pdus.next :: createdIn es = rq.ptr :: (sentIn es).map (·.ptr)
    rw [h.made, hptr]
  next     := Nat.le_trans (by omega) h.next
  sent     := Fresh.cons (Nat.le_of_eq hptr.symm) (Nat.lt_of_le_of_lt (Nat.le_of_eq hptr) (by omega)) h.next h.sent
  received := Fresh.cons (Nat.le_succ _) (Nat.lt_of_lt_of_le (Nat.lt_succ_self _) hnext) h.next h.received
  apart    := fun r hr x hx => by
    have hsent : ∀ r ∈ sentIn es, w.pdus.next + 2 ≤ r.ptr := fun r hr =>
      Nat.le_trans hnext (h.sent.2 _ (List.mem_map_of_mem hr)).1
    have hreceived : ∀ x ∈ receivedIn es, w.pdus.next + 2 ≤ x.1 := fun x hx =>
      Nat.le_trans hnext (h.received.2 _ (List.mem_map_of_mem hx)).1
    rcases List.mem_cons.1 (show r ∈ rq :: sentIn es from hr) with rfl | hr <;>
      rcases List.mem_cons.1 (show x ∈ (w.pdus.next + 1, vs) :: receivedIn es from hx) with rfl | hx
    · rw [hptr]
      exact Nat.ne_of_lt (Nat.lt_succ_self _)
    · rw [hptr]
      exact Nat.ne_of_lt (Nat.lt_of_lt_of_le (by omega) (hreceived x hx))
    · exact Nat.ne_of_gt (Nat.lt_of_lt_of_le (Nat.lt_succ_self _) (hsent r hr))
    · exact h.apart r hr x hx

end Legs

/-- **How a walk given `p` in `w` ends**: with the last response in the handle, that and no other PDU of the walk live,
or with an exception, none live and the handle empty. -/
def Ended (w : World) (p : PduPtr) (responses : List (PduPtr × List Varbind)) (res : Except (Stop Exc) Unit)
    (w' : World) (h' : PDU) : Prop :=
  (res = .ok () ∧ ∃ q vs, responses.getLast? = some (q, vs) ∧ h' = ⟨kResponse, some q⟩ ∧
    ∀ a, w'.pdus.Live a ↔ (w.pdus.Live a ∧ a ≠ p) ∨ a = q) ∨
  ∃ e, res = .error (.exn e) ∧ h' = PDU.null ∧ ∀ a, w'.pdus.Live a ↔ w.pdus.Live a ∧ a ≠ p

namespace Ended

variable {w w₁ w' : World} {p q : PduPtr} {responses : List (PduPtr × List Varbind)} {res : Except (Stop Exc) Unit}
  {h' : PDU}

theorem of_turn (hq : w.pdus.next ≤ q) (hlive : ∀ b, w₁.pdus.Live b ↔ (w.pdus.Live b ∧ b ≠ p) ∨ b = q)
    (h : Ended w₁ q responses res w' h') : Ended w p responses res w' h' := by
  have hold := live_turn hq hlive
  rcases h with ⟨hres, a, vs, hlast, hh', hlive'⟩ | ⟨e, hres, hh', hlive'⟩
  · exact .inl ⟨hres, a, vs, hlast, hh', fun b => by rw [hlive', hold]⟩
  · exact .inr ⟨e, hres, hh', fun b => by rw [hlive', hold]⟩

/-- **What was not live at the start has been released**, but for the last response in the handle. -/
theorem freed (h : Ended w p responses res w' h') {b : PduPtr} (hb : b < w'.pdus.next)
    (hdead : w.pdus.next ≤ b ∨ b = p) (hne : ∀ q vs, (q, vs) ∈ responses → h' = ⟨kResponse, some q⟩ → b ≠ q) :
    w'.pdus.freed b = 1 := by
  have hold : ¬ (w.pdus.Live b ∧ b ≠ p) := fun hw => hdead.elim (fun hge => w.pdus.not_live_of_le hge hw.1) hw.2
  apply w'.pdus.freed_of_not_live hb
  intro hlive
  rcases h with ⟨-, q, vs, hlast, hh', hlive'⟩ | ⟨e, -, -, hlive'⟩
  · exact ((hlive' b).1 hlive).elim hold (hne q vs (List.mem_of_getLast? hlast) hh')
  · exact hold ((hlive' b).1 hlive)

end Ended

section
variable (env : NetSnmp) (hadd : ∀ n, env.addVariable n = true)
  (hresp : ∀ n a, (env.synchResponse n).response = some a →
    a.command = kResponse ∧ a.vars ≠ [] ∧ ∀ b ∈ a.vars, b.name ≠ [])
  {session : SessionHandle} (hs : session ≠ none)
include hadd hresp hs

/-- **A walk from a response**, by induction on the number of turns. -/
theorem walk_from_response : ∀ (n : Nat) (w : World) (p : PduPtr) (r : Request), w.request p = some r → r.vars ≠ [] →
    (∀ b ∈ r.vars, b.name ≠ []) →
    ∃ res w' h' es, walk env session n (w, ⟨kResponse, some p⟩) = (res, (w', h')) ∧
      Legs env (AsksLast env r.vars) w w' es ∧
      (res = .ok () → (sentIn es).length = n ∧ (receivedIn es).length = n) ∧
      Ended w p ((p, r.vars) :: receivedIn es) res w' h'
  | 0, w, p, r, hr, _, _ => by
    obtain ⟨d, _, hd, -, -⟩ := World.request_eq_some.1 hr
    refine ⟨.ok (), w, ⟨kResponse, some p⟩, [], rfl, .nil rfl (Nat.le_refl _), fun _ => ⟨rfl, rfl⟩,
      .inl ⟨rfl, p, r.vars, rfl, rfl, fun a => ?_⟩⟩
    by_cases ha : a = p
    · simp [ha, w.pdus.live_of_cell hd]
    · simp [ha]
  | n + 1, w, p, r, hr, hne, hnames => by
    have hlast := List.getLast?_eq_some_getLast hne
    have hb := hnames _ (List.getLast_mem hne)
    have hget : kResponse ≠ kGetNext := by decide
    rcases getNext_turn env hadd hs (h := ⟨kResponse, some p⟩) rfl hr hget hlast hb with
      ⟨e, w', es, hrun, hlog, hes, hlen, hnext, hlive⟩ |
      ⟨a, w₁, rq, k, hrun, hk, hlog, hask, hptr, hreq, hnext, hlive⟩
    · have hlegs : Legs env (AsksLast env r.vars) w w' es := by
        rcases hes with rfl | ⟨rq, es', rfl, hask, hptr, rfl | ⟨vs, rfl⟩⟩
        · exact .nil (hlog.trans (List.append_nil _)) hnext
        · simp only [List.length_cons, List.length_nil] at hlen
          exact .asked hlog hask hptr (by omega)
        · simp only [List.length_cons, List.length_nil] at hlen
          exact .cons hlog hask hptr (by omega) (.nil rfl (Nat.le_refl _))
      exact ⟨.error (.exn e), w', PDU.null, es, Run.bind_error hrun, hlegs, fun h => (by cases h),
        .inr ⟨e, rfl, rfl, hlive⟩⟩
    · obtain ⟨hcmd, hane, hanames⟩ := hresp k a hk
      rw [hcmd] at hrun
      obtain ⟨res, w', h', es, hwalk, hlegs, hlen, hend⟩ :=
        walk_from_response n w₁ (w.pdus.next + 1) _ hreq hane hanames
      refine ⟨res, w', h', _, ?_, hlegs.cons hlog hask hptr (Nat.le_of_eq hnext.symm), fun hres => ?_, ?_⟩
      · rw [walk, Run.bind_ok hrun, Run.setThis_bind, hwalk]
      · exact ⟨congrArg (· + 1) (hlen hres).1, congrArg (· + 1) (hlen hres).2⟩
      · rcases hend.of_turn (Nat.le_succ _) hlive with ⟨hres, q, vs, hq, hh', hlive'⟩ | hthrown
        · exact .inl ⟨hres, q, vs, (List.getLast?_cons_cons ..).trans hq, hh', hlive'⟩
        · exact .inr hthrown

end

/-- **The events of a whole walk** from `w` to `w'` that sent `r₀` first. -/
structure Walked (env : NetSnmp) (r₀ : Request) (w w' : World) (es : List Event) : Prop where
  log       : w'.log = w.log ++ es
  first     : (sentIn es).head? = some r₀
  follows   : Follows env (· = r₀) (sentIn es) (receivedIn es)
  made      : createdIn es = (sentIn es).tail.map (·.ptr)
  sent      : ((sentIn es).map (·.ptr)).Pairwise (· < ·)
  received  : ((receivedIn es).map (·.1)).Pairwise (· < ·)
  requests  : ∀ r ∈ sentIn es, (w.pdus.next ≤ r.ptr ∨ r.ptr = r₀.ptr) ∧ r.ptr < w'.pdus.next
  responses : ∀ x ∈ receivedIn es, w.pdus.next ≤ x.1 ∧ x.1 < w'.pdus.next
  apart     : ∀ r ∈ sentIn es, ∀ x ∈ receivedIn es, r.ptr ≠ x.1

namespace Walked

variable {env : NetSnmp} {r₀ : Request} {w w₁ w' : World} {vs : List Varbind} {es : List Event}

theorem asked (hlog : w'.log = w.log ++ [.sent r₀]) (hlt : r₀.ptr < w'.pdus.next) :
    Walked env r₀ w w' [.sent r₀] where
  log       := hlog
  first     := rfl
  follows   := ⟨rfl, rfl⟩
  made      := rfl
  sent      := List.pairwise_singleton _ _
  received  := List.Pairwise.nil
  requests  := fun r hr => by
    rw [List.mem_singleton.1 (show r ∈ [r₀] from hr)]
    exact ⟨.inr rfl, hlt⟩
  responses := fun _ hx => by cases hx
  apart     := fun _ _ _ hx => by cases hx

theorem of_legs (hlog : w₁.log = w.log ++ [.sent r₀, .received w.pdus.next vs]) (hlt : r₀.ptr < w.pdus.next)
    (hnext : w₁.pdus.next = w.pdus.next + 1) (h : Legs env (AsksLast env vs) w₁ w' es) :
    Walked env r₀ w w' (.sent r₀ :: .received w.pdus.next vs :: es) := by
  have hsent : ∀ r ∈ sentIn es, w.pdus.next < r.ptr ∧ r.ptr < w'.pdus.next := fun r hr => by
    obtain ⟨hge, hlt'⟩ := h.sent.2 _ (List.mem_map_of_mem hr)
    exact ⟨by rw [hnext] at hge; exact hge, hlt'⟩
  have hreceived : ∀ x ∈ receivedIn es, w.pdus.next < x.1 ∧ x.1 < w'.pdus.next := fun x hx => by
    obtain ⟨hge, hlt'⟩ := h.received.2 _ (List.mem_map_of_mem hx)
    exact ⟨by rw [hnext] at hge; exact hge, hlt'⟩
  have hle : w.pdus.next < w'.pdus.next := Nat.lt_of_lt_of_le (by rw [hnext]; exact Nat.lt_succ_self _) h.next
  exact {
    log       := by rw [h.log, hlog, List.append_assoc]; rfl
    first     := rfl
    follows   := ⟨rfl, h.follows⟩
    made      := h.made
    sent      := List.pairwise_cons.2 ⟨fun b hb => by
      obtain ⟨r, hr, rfl⟩ := List.mem_map.1 hb
      exact Nat.lt_trans hlt (hsent r hr).1, h.sent.1⟩
    received  := List.pairwise_cons.2 ⟨fun b hb => by
      obtain ⟨x, hx, rfl⟩ := List.mem_map.1 hb
      exact (hreceived x hx).1, h.received.1⟩
    requests  := fun r hr => by
      rcases List.mem_cons.1 (show r ∈ r₀ :: sentIn es from hr) with rfl | hr
      · exact ⟨.inr rfl, Nat.lt_trans hlt hle⟩
      · exact ⟨.inl (Nat.le_of_lt (hsent r hr).1), (hsent r hr).2⟩
    responses := fun x hx => by
      rcases List.mem_cons.1 (show x ∈ (w.pdus.next, vs) :: receivedIn es from hx) with rfl | hx
      · exact ⟨Nat.le_refl _, hle⟩
      · exact ⟨Nat.le_of_lt (hreceived x hx).1, (hreceived x hx).2⟩
    apart     := fun r hr x hx => by
      rcases List.mem_cons.1 (show r ∈ r₀ :: sentIn es from hr) with rfl | hr <;>
        rcases List.mem_cons.1 (show x ∈ (w.pdus.next, vs) :: receivedIn es from hx) with rfl | hx
      · exact Nat.ne_of_lt hlt
      · exact Nat.ne_of_lt (Nat.lt_trans hlt (hreceived x hx).1)
      · exact Nat.ne_of_gt (hsent r hr).1
      · exact h.apart r hr x hx }

end Walked

/-- **A walk from a GETNEXT**: its first turn sends the PDU as it is, the rest is a walk from the response. -/
theorem walk_from_request (env : NetSnmp) (hadd : ∀ n, env.addVariable n = true)
    (hresp : ∀ n a, (env.synchResponse n).response = some a →
      a.command = kResponse ∧ a.vars ≠ [] ∧ ∀ b ∈ a.vars, b.name ≠ [])
    {session : SessionHandle} (hs : session ≠ none) (n : Nat) {w : World} {p : PduPtr} {r₀ : Request}
    (hr : w.request p = some r₀) (hne : r₀.vars ≠ []) (hptr : r₀.ptr = p) (hlt : p < w.pdus.next) :
    ∃ res w' h' es, walk env session (n + 1) (w, ⟨kGetNext, some p⟩) = (res, (w', h')) ∧ Walked env r₀ w w' es ∧
      (res = .ok () → (sentIn es).length = n + 1 ∧ (receivedIn es).length = n + 1) ∧
      Ended w p (receivedIn es) res w' h' := by
  have hstart := getNext_same env session (h := ⟨kGetNext, some p⟩) rfl hr hne rfl
  rcases sync_turn env hs (h := ⟨kGetNext, some p⟩) rfl hr with
    ⟨e, w', es, hsync, hlog, hes, hnext, hlive⟩ | ⟨a, w₁, hsync, ha, hlog, hreq, hnext, hlive⟩ <;>
    rw [← hstart] at hsync
  · have hwalked : Walked env r₀ w w' (.sent r₀ :: es) := by
      rcases hes with rfl | ⟨vs, rfl⟩
      · exact .asked hlog (by rw [hptr, hnext]; exact hlt)
      · exact .of_legs hlog (by rw [hptr]; exact hlt) hnext (.nil rfl (Nat.le_refl _))
    exact ⟨.error (.exn e), w', PDU.null, _, Run.bind_error hsync, hwalked, fun h => (by cases h),
      .inr ⟨e, rfl, rfl, hlive⟩⟩
  · obtain ⟨hcmd, hane, hanames⟩ := hresp _ a ha
    rw [hcmd] at hsync
    obtain ⟨res, w', h', es, hwalk, hlegs, hlen, hend⟩ :=
      walk_from_response env hadd hresp hs n w₁ w.pdus.next _ hreq hane hanames
    refine ⟨res, w', h', _, ?_, .of_legs hlog (by rw [hptr]; exact hlt) hnext hlegs, fun hres => ?_,
      hend.of_turn (Nat.le_refl _) hlive⟩
    · rw [walk, Run.bind_ok hsync, Run.setThis_bind, hwalk]
    · exact ⟨congrArg (· + 1) (hlen hres).1, congrArg (· + 1) (hlen hres).2⟩

/-- **The GETNEXT walk.**  Of any number of turns from a GETNEXT with a list: the first request is that PDU as it is;
every later one is a PDU of its own that asks for the last OID of the response before; no request is handed over twice,
every request and every response but the last is released exactly once.  A walk that returns has had a response to each
request, holds the last and has no other PDU live; one that throws has none live, and the handle is empty. -/
theorem getNext_walk (env : NetSnmp) (hadd : ∀ n, env.addVariable n = true)
    (hresp : ∀ n a, (env.synchResponse n).response = some a →
      a.command = kResponse ∧ a.vars ≠ [] ∧ ∀ b ∈ a.vars, b.name ≠ [])
    (session : SessionHandle) (hs : session ≠ none) (n : Nat) (w : World) (p : PduPtr) (r₀ : Request)
    (hr : w.request p = some r₀) (hne : r₀.vars ≠ []) :
    let s := walk env session n (w, ⟨kGetNext, some p⟩)
    let es := w.since s.2.1
    let requests := sentIn es
    let responses := receivedIn es
    let after := s.2.1.pdus
    s.1 ≠ .error .fault ∧
      (0 < n → requests.head? = some r₀) ∧ Follows env (· = r₀) requests responses ∧
      createdIn es = requests.tail.map (·.ptr) ∧
      (requests.map (·.ptr)).Pairwise (· < ·) ∧ (responses.map (·.1)).Pairwise (· < ·) ∧
      (∀ r ∈ requests, after.freed r.ptr = 1) ∧
      (s.1 = .ok () → requests.length = n ∧ responses.length = n ∧
        (0 < n → ∃ q vs, responses.getLast? = some (q, vs) ∧ s.2.2 = ⟨kResponse, some q⟩ ∧
          (∀ a, after.Live a ↔ (w.pdus.Live a ∧ a ≠ p) ∨ a = q) ∧ ∀ x ∈ responses, x.1 ≠ q → after.freed x.1 = 1)) ∧
      ∀ e, s.1 = .error e → s.2.2 = PDU.null ∧ (∀ a, after.Live a ↔ w.pdus.Live a ∧ a ≠ p) ∧
        ∀ x ∈ responses, after.freed x.1 = 1 := by
  obtain ⟨d, vs₀, hd, hvs₀, hr₀⟩ := World.request_eq_some.1 hr
  have hptr : r₀.ptr = p := by rw [hr₀]
  have hlt : p < w.pdus.next := w.pdus.lt_next_of_cell hd
  intro s es requests responses after
  cases n with
  | zero =>
    have hes : es = [] := World.since_of_log_eq rfl
    have hpos : ¬ 0 < 0 := Nat.lt_irrefl 0
    simp only [requests, responses, hes]
    refine ⟨by simp [s, walk], fun h => absurd h hpos, rfl, rfl, List.Pairwise.nil, List.Pairwise.nil,
      fun _ h => (by cases h), fun _ => ⟨rfl, rfl, fun h => absurd h hpos⟩, fun e he => ?_⟩
    cases he
  | succ n =>
    obtain ⟨res, w', h', es', hwalk, hwalked, hlen, hend⟩ := walk_from_request env hadd hresp hs n hr hne hptr hlt
    have hrun : s = (res, (w', h')) := hwalk
    have hes : es = es' := World.since_eq (by rw [hrun]; exact hwalked.log)
    have hresponses : ∀ x ∈ receivedIn es', (∀ q, h' = ⟨kResponse, some q⟩ → x.1 ≠ q) → w'.pdus.freed x.1 = 1 :=
      fun x hx hq => hend.freed (hwalked.responses x hx).2 (.inl (hwalked.responses x hx).1) (fun q _ _ hh' => hq q hh')
    simp only [requests, responses, after, hrun, hes]
    refine ⟨?_, fun _ => hwalked.first, hwalked.follows, hwalked.made, hwalked.sent, hwalked.received, fun r hr' => ?_,
      fun hres => ?_, fun e he => ?_⟩
    · rcases hend with ⟨hres, -⟩ | ⟨e, hres, -⟩ <;> rw [hres] <;> simp
    · obtain ⟨hold, hlt'⟩ := hwalked.requests r hr'
      rw [hptr] at hold
      exact hend.freed hlt' hold (fun q vs hq _ => hwalked.apart r hr' (q, vs) hq)
    · refine ⟨(hlen hres).1, (hlen hres).2, fun _ => ?_⟩
      rcases hend with ⟨-, q, vs, hlast, hh', hlive⟩ | ⟨e, hres', -⟩
      · refine ⟨q, vs, hlast, hh', hlive, fun x hx hxq => hresponses x hx (fun q' hq' => ?_)⟩
        rw [hh'] at hq'
        cases hq'
        exact hxq
      · rw [hres'] at hres
        cases hres
    · rcases hend with ⟨hres', -⟩ | ⟨e', -, hh', hlive⟩
      · rw [hres'] at he
        cases he
      · refine ⟨hh', hlive, fun x hx => hresponses x hx (fun q hq => ?_)⟩
        rw [hh'] at hq
        cases hq

theorem getNext_walk_witness :
    let env := NetSnmp.working (fun n => ⟨STAT_SUCCESS, some ⟨kResponse, 0, 0,
      [⟨[1, 3, 5], ASN_NULL, []⟩, ⟨[1, 3, UInt64.ofNat n], ASN_NULL, []⟩]⟩⟩)
    let w := (World.start.newList [⟨[1, 3], ASN_NULL, []⟩]).2.newPdu ⟨kGetNext, 0, 0, some 0⟩
    ∃ s, walk env (some 0) 3 (w, ⟨kGetNext, some 0⟩) = s ∧ s.1 ≠ .error .fault ∧
      createdIn (w.since s.2.1) = (sentIn (w.since s.2.1)).tail.map (·.ptr) := by
  intro env w
  have hresp : ∀ n a, (env.synchResponse n).response = some a →
      a.command = kResponse ∧ a.vars ≠ [] ∧ ∀ b ∈ a.vars, b.name ≠ [] := fun n a h => by
    cases h
    exact ⟨rfl, by simp, by simp⟩
  have hr : w.request 0 = some ⟨0, kGetNext, 0, 0, [⟨[1, 3], ASN_NULL, []⟩]⟩ := rfl
  have hwalk := getNext_walk env (fun _ => rfl) hresp (some 0) (by simp) 3 w 0 _ hr (by simp)
  exact ⟨_, rfl, hwalk.1, hwalk.2.2.2.1⟩

end Snmppp
