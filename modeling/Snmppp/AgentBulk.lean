import Snmppp.Agent
import Snmppp.BulkRun
/-!
# AgentBulk — what getBulk sees of an agent

The OIDs that `getBulk` asks for are the caller's own or, on the rebuild path, what a set makes of them.  Column by
column the response is what walks from these OIDs would list: a non-repeater has one turn of its walk, a repeater as
many as the response has room for (`getBulk_lists`).
-/
namespace Snmppp

namespace MibView

variable (view : MibView) (maxRepetitions nonRepeaters : Int)

/-- How many of `n` OIDs a GETBULK does not repeat. -/
def nonRepeated (nonRepeaters : Int) (n : Nat) : Nat := min nonRepeaters.toNat n

theorem length_answerGetBulk (os : List OID) :
    (view.answerGetBulk maxRepetitions nonRepeaters os).length
      = nonRepeated nonRepeaters os.length
        + maxRepetitions.toNat * (os.length - nonRepeated nonRepeaters os.length) := by
  have hrepeated : os.length - nonRepeaters.toNat = os.length - nonRepeated nonRepeaters os.length := by
    unfold nonRepeated
    omega
  rw [answerGetBulk, List.length_append, length_answerGetNext, List.length_take, length_repetitions, List.length_drop,
    hrepeated]
  rfl

variable {os : List OID} {j : Nat} {o : OID} (ho : os[j]? = some o)
include ho

theorem getElem?_answerGetBulk_of_lt (hj : j < nonRepeated nonRepeaters os.length) :
    (view.answerGetBulk maxRepetitions nonRepeaters os)[j]? = some (view.turn o 0) := by
  have htake : (os.take nonRepeaters.toNat)[j]? = some o := by
    rw [List.getElem?_take_of_lt (Nat.lt_of_lt_of_le hj (Nat.min_le_left _ _)), ho]
  have hlen : j < (view.answerGetNext (os.take nonRepeaters.toNat)).length := by
    rw [length_answerGetNext, List.length_take]
    exact hj
  rw [answerGetBulk, List.getElem?_append_left hlen, getElem?_answerGetNext view htake]

theorem getElem?_answerGetBulk_of_le (hj : nonRepeated nonRepeaters os.length ≤ j) {i : Nat}
    (hi : i < maxRepetitions.toNat) :
    (view.answerGetBulk maxRepetitions nonRepeaters os)[j + i * (os.length - nonRepeated nonRepeaters os.length)]?
      = some (view.turn o i) := by
  have hlt : j < os.length := (List.getElem?_eq_some_iff.1 ho).1
  have hle : nonRepeaters.toNat ≤ j := by
    unfold nonRepeated at hj
    omega
  have hnon : nonRepeated nonRepeaters os.length = nonRepeaters.toNat := by
    unfold nonRepeated
    omega
  have hdrop : (os.drop nonRepeaters.toNat)[j - nonRepeaters.toNat]? = some o := by
    rw [List.getElem?_drop, Nat.add_sub_cancel' hle, ho]
  have hrow := view.getElem?_repetitions hi hdrop
  have hlen : (view.answerGetNext (os.take nonRepeaters.toNat)).length = nonRepeaters.toNat := by
    rw [length_answerGetNext, List.length_take]
    omega
  have hplace : j + i * (os.length - nonRepeaters.toNat)
      = nonRepeaters.toNat + (i * (os.length - nonRepeaters.toNat) + (j - nonRepeaters.toNat)) := by omega
  rw [List.length_drop] at hrow
  rw [hnon, hplace, answerGetBulk, List.getElem?_append_right (by omega), hlen, Nat.add_sub_cancel_left, hrow]

end MibView

/-! ## The run -/

/-- **Nothing is sent or received** from `w` to `w'`. -/
def Silent (w w' : World) : Prop := ∃ es, w'.log = w.log ++ es ∧ sentIn es = [] ∧ receivedIn es = []

theorem Silent.of_log {w w' : World} (h : w'.log = w.log) : Silent w w' := ⟨[], by rw [h, List.append_nil], rfl, rfl⟩

theorem Silent.of_built {w w₁ w' : World} {t : EType} {vs : List Varbind} (hlog : w₁.log = w.log)
    (h : Built t vs w₁ w') : Silent w w' :=
  ⟨[.created w₁.pdus.next], by rw [h.log, hlog], rfl, rfl⟩

theorem Silent.events {w w₁ w' : World} {es : List Event} (h : Silent w w₁) (hlog : w'.log = w₁.log ++ es) :
    sentIn (w.since w') = sentIn es ∧ receivedIn (w.since w') = receivedIn es := by
  obtain ⟨es₁, hlog₁, hsent, hreceived⟩ := h
  rw [World.since_eq (show w'.log = w.log ++ (es₁ ++ es) by rw [hlog, hlog₁, List.append_assoc]), sentIn_append,
    receivedIn_append, hsent, hreceived]
  exact ⟨rfl, rfl⟩

/-- The OIDs `getBulk` asks for, given a PDU that asks for `vs`. -/
def PDU.bulkOids (h : PDU) (vs : List Varbind) : VecOID :=
  if h.type = kGetBulk then oidsOf vs else (Varlist.getOidsSet vs).elems

section
variable (env : NetSnmp) (maxRepetitions nonRepeaters : Int) {w : World} {h : PDU} {p : PduPtr} {r₀ : Request}

theorem oidsOf_nullVarbinds (oids : VecOID) : oidsOf (oids.map (nullVarbind env)) = oids := by
  rw [oidsOf, List.map_map]
  exact List.map_id _

/-- **The request of a GETBULK**, on either path. -/
theorem getBulkRequest_cases (hp : h.pdu = some p) (hr₀ : w.request p = some r₀) (htag : h.type = r₀.command) :
    (∃ e w₁ h₁, getBulkRequest env maxRepetitions nonRepeaters (w, h) = (.error e, (w₁, h₁)) ∧ Silent w w₁) ∨
    (∃ w₁ h₁ q r, getBulkRequest env maxRepetitions nonRepeaters (w, h) = (.ok (), (w₁, h₁)) ∧ Silent w w₁ ∧
      h₁.pdu = some q ∧ w₁.request q = some r ∧ r.command = kGetBulk ∧ r.errstat = nonRepeaters ∧
      r.errindex = maxRepetitions ∧ oidsOf r.vars = h.bulkOids r₀.vars) := by
  obtain ⟨d, vs, hd, hvs, rfl⟩ := World.request_eq_some.1 hr₀
  by_cases ht : h.type = kGetBulk
  · refine .inr ⟨_, _, p, ⟨p, d.command, nonRepeaters, maxRepetitions, vs⟩,
      getBulkRequest_direct env maxRepetitions nonRepeaters hp ht hd, .of_log rfl, hp, ?_, htag.symm.trans ht, rfl, rfl,
      ?_⟩
    · exact World.request_eq_some.2 ⟨_, vs, w.pdus.cell_put_self _ _ hd, hvs, rfl⟩
    · rw [PDU.bulkOids, if_pos ht]
  · by_cases hvl : d.variableList = none
    · exact .inl ⟨_, _, _, getBulkRequest_noList env maxRepetitions nonRepeaters hp ht hd hvl, .of_log rfl⟩
    · have hlog : (w.freePdu p).log = w.log := w.log_freePdu p
      rcases getBulkRequest_rebuild env maxRepetitions nonRepeaters hp ht hd hvl hvs with
        ⟨-, e, hrun⟩ | ⟨-, -, e, w', hrun, hbuilt⟩ | ⟨-, -, w', hrun, hbuilt, hr⟩
      · exact .inl ⟨_, _, _, hrun, .of_log hlog⟩
      · exact .inl ⟨_, _, _, hrun, .of_built hlog hbuilt⟩
      · refine .inr ⟨_, _, _, _, hrun, .of_built hlog hbuilt, rfl, hr, rfl, rfl, rfl, ?_⟩
        rw [PDU.bulkOids, if_neg ht, oidsOf_nullVarbinds]

/-- **What `getBulk` sends and receives**: one request, and at most one response, which it returns or throws away. -/
theorem getBulk_events (session : SessionHandle) (hp : h.pdu = some p) (hr₀ : w.request p = some r₀)
    (htag : h.type = r₀.command) :
    let s := getBulk env session maxRepetitions nonRepeaters (w, h)
    let es := w.since s.2.1
    (receivedIn es = [] ∧ ∀ res, s.1 ≠ .ok res) ∨
    ∃ r q vs, sentIn es = [r] ∧ receivedIn es = [(q, vs)] ∧ r.command = kGetBulk ∧ r.errstat = nonRepeaters ∧
      r.errindex = maxRepetitions ∧ oidsOf r.vars = h.bulkOids r₀.vars ∧
      ∀ res, s.1 = .ok res → res.pdu = some q ∧ (s.2.1.request q).map (·.vars) = some vs := by
  intro s es
  rcases getBulkRequest_cases env maxRepetitions nonRepeaters hp hr₀ htag with
    ⟨e, w₁, h₁, hrun, hsilent⟩ | ⟨w₁, h₁, q, r, hrun, hsilent, hq, hr, hcmd, hstat, hindex, hoids⟩
  · have hs : s = (.error e, (w₁, h₁)) := Run.bind_error hrun
    refine .inl ⟨?_, fun res hres => ?_⟩
    · simp only [es, hs]
      exact (hsilent.events (show w₁.log = w₁.log ++ [] from (List.append_nil _).symm)).2
    · rw [hs] at hres
      cases hres
  · have hs : s = sync env session (w₁, h₁) := Run.bind_ok hrun
    cases session with
    | none =>
      rw [sync_noSession env hq hr] at hs
      refine .inl ⟨?_, fun res hres => ?_⟩
      · simp only [es, hs]
        exact (hsilent.events (show (w₁.freePdu q).log = w₁.log ++ [] by rw [World.log_freePdu, List.append_nil])).2
      · rw [hs] at hres
        cases hres
    | some n =>
      rcases sync_turn env (show (some n : SessionHandle) ≠ none by simp) hq hr with
        ⟨e, w', es', hsync, hlog, hes' | ⟨vs, hes'⟩, -⟩ | ⟨a, w', hsync, -, hlog, hreq, -⟩ <;> rw [hsync] at hs
      · rw [hes'] at hlog
        refine .inl ⟨?_, fun res hres => ?_⟩
        · simp only [es, hs]
          exact (hsilent.events hlog).2
        · rw [hs] at hres
          cases hres
      · rw [hes'] at hlog
        refine .inr ⟨r, w₁.pdus.next, vs, ?_, ?_, hcmd, hstat, hindex, hoids, fun res hres => ?_⟩
        · simp only [es, hs]
          exact (hsilent.events hlog).1
        · simp only [es, hs]
          exact (hsilent.events hlog).2
        · rw [hs] at hres
          cases hres
      · refine .inr ⟨r, w₁.pdus.next, a.vars, ?_, ?_, hcmd, hstat, hindex, hoids, fun res hres => ?_⟩
        · simp only [es, hs]
          exact (hsilent.events hlog).1
        · simp only [es, hs]
          exact (hsilent.events hlog).2
        · rw [hs] at hres ⊢
          cases hres
          exact ⟨rfl, by rw [hreq]; rfl⟩

end

/-- **A GETBULK lists what walks would.**  Against an agent that shows `view`, whichever path `getBulk` takes: of every
OID it asks for, the varbinds at its places in the response are what a walk from that OID would list first, one for an
OID that is not repeated, for the others one each repetition; the response has no other varbinds, and the PDU returned
holds it. -/
theorem getBulk_lists (env : NetSnmp) (session : SessionHandle) (maxRepetitions nonRepeaters : Int) (w : World)
    (h : PDU) (p : PduPtr) (r₀ : Request) (hp : h.pdu = some p) (hr₀ : w.request p = some r₀)
    (htag : h.type = r₀.command) (view : MibView)
    (hserves : view.Serves (w.since (getBulk env session maxRepetitions nonRepeaters (w, h)).2.1)) :
    let s := getBulk env session maxRepetitions nonRepeaters (w, h)
    let os := h.bulkOids r₀.vars
    let once := MibView.nonRepeated nonRepeaters os.length
    (∀ x ∈ receivedIn (w.since s.2.1), x.2.length ≤ once + maxRepetitions.toNat * (os.length - once) ∧
      ∀ j o, os[j]? = some o →
        (j < once → ∀ b, x.2[j]? = some b → view.listing o 1 = [b]) ∧
        (once ≤ j → ∀ i b, i < maxRepetitions.toNat → x.2[j + i * (os.length - once)]? = some b →
          (view.listing o maxRepetitions.toNat)[i]? = some b)) ∧
    ∀ res, s.1 = .ok res → ∃ q vs, receivedIn (w.since s.2.1) = [(q, vs)] ∧ res.pdu = some q ∧
      (s.2.1.request q).map (·.vars) = some vs := by
  intro s os once
  rcases getBulk_events env maxRepetitions nonRepeaters session hp hr₀ htag with
    ⟨hreceived, hno⟩ | ⟨r, q, vs, hsent, hreceived, hcmd, hstat, hindex, hoids, hres⟩
  · refine ⟨fun x hx => ?_, fun res hok => absurd hok (hno res)⟩
    rw [hreceived] at hx
    cases hx
  · refine ⟨fun x hx => ?_, fun res hok => ⟨q, vs, hreceived, hres res hok⟩⟩
    rw [hreceived] at hx
    obtain rfl := List.mem_singleton.1 hx
    have hmeets : view.Meets r vs := hserves (r, (q, vs)) (by rw [hsent, hreceived]; exact List.mem_singleton_self _)
    have hprefix : vs <+: view.answerGetBulk maxRepetitions nonRepeaters os := by
      have h := hmeets.2 hcmd
      rwa [hstat, hindex, hoids] at h
    have hplace : ∀ {x b c}, vs[x]? = some b →
        (view.answerGetBulk maxRepetitions nonRepeaters os)[x]? = some c → b = c := fun hb hc => by
      obtain ⟨hlt, rfl⟩ := List.getElem?_eq_some_iff.1 hb
      rw [List.prefix_iff_getElem?.1 hprefix _ hlt] at hc
      exact Option.some.inj hc
    refine ⟨?_, fun j o ho => ⟨fun hj b hb => ?_, fun hj i b hi hb => ?_⟩⟩
    · rw [← view.length_answerGetBulk]
      exact hprefix.length_le
    · rw [hplace hb (view.getElem?_answerGetBulk_of_lt maxRepetitions nonRepeaters ho hj), ← view.map_turn]
      rfl
    · rw [hplace hb (view.getElem?_answerGetBulk_of_le maxRepetitions nonRepeaters ho hj hi), ← view.map_turn,
        List.getElem?_map, List.getElem?_range hi]
      rfl

theorem getBulk_lists_cut :
    let view : MibView := (OrdMap.empty.set ⟨[1, 3, 2]⟩ (ASN_INTEGER, [7])).set ⟨[1, 3, 1]⟩ (ASN_OCTET_STR, [65])
    let vs : List Varbind := [⟨[1, 3, 1], ASN_OCTET_STR, [65]⟩, ⟨[1, 3, 1], ASN_OCTET_STR, [65]⟩,
      ⟨[1, 3, 2], ASN_INTEGER, [7]⟩, ⟨[1, 3, 2], ASN_INTEGER, [7]⟩]
    let env := NetSnmp.working (fun _ => ⟨STAT_SUCCESS, some ⟨kResponse, 0, 0, vs⟩⟩)
    let w := (World.start.newList [⟨[1, 2], ASN_NULL, []⟩, ⟨[1, 3], ASN_NULL, []⟩, ⟨[1, 3, 1], ASN_NULL, []⟩]).2.newPdu
      ⟨kGetBulk, 0, 0, some 0⟩
    let s := getBulk env (some 0) 20 1 (w, ⟨kGetBulk, some 0⟩)
    ∀ x ∈ receivedIn (w.since s.2.1), ∀ b, x.2[3]? = some b → (view.listing ⟨[1, 3]⟩ 20)[1]? = some b := by
  intro view vs env w s x hx b hb
  have hlists := getBulk_lists env (some 0) 20 1 w ⟨kGetBulk, some 0⟩ 0 ⟨0, kGetBulk, 0, 0, _⟩ rfl rfl rfl view
    (by decide +kernel)
  exact ((hlists.1 x hx).2 1 ⟨[1, 3]⟩ rfl).2 (by decide) 1 b (by decide) hb

end Snmppp
