import Snmppp.BulkRun
import Snmppp.Store
/-!
# BulkOrder — the two paths of getBulk agree on ascending OIDs only

A GETBULK treats the leading `nonRepeaters` OIDs of the request apart, so their order counts.  The direct path sends
the OIDs as the caller has put them; the rebuild path sends them as they come out of a set, in ascending order and
without repetitions.
-/
namespace Snmppp

/-- The request `getBulk` hands to `sync`, if it gets there. -/
def bulkRequest (env : NetSnmp) (maxRepetitions nonRepeaters : Int) (s : World × PDU) : Option Request :=
  match getBulkRequest env maxRepetitions nonRepeaters s with
  | (.ok _, t)    => t.2.pdu.bind t.1.request
  | (.error _, _) => none

/-- A GETBULK the caller builds from OIDs in their order. -/
def buildBulk (env : NetSnmp) (oids : VecOID) : Snmp PDU := do
  let pdu ← PDU.create env kGetBulk
  let filled ← Run.on pdu (Run.each (PDU.addNullVar env) oids)
  pure filled.2

/-- The same sequence of names, and the same two numbers. -/
def Request.SameBulk (r r' : Request) : Prop :=
  r.vars.map (·.name) = r'.vars.map (·.name) ∧ r.errstat = r'.errstat ∧ r.errindex = r'.errindex

instance (r r' : Request) : Decidable (r.SameBulk r') := inferInstanceAs (Decidable (_ ∧ _ ∧ _))

theorem bulkRequest_of_ok {env : NetSnmp} {maxRepetitions nonRepeaters : Int} {s : World × PDU} {w' : World}
    {h' : PDU} {q : PduPtr} {r : Request}
    (hrun : getBulkRequest env maxRepetitions nonRepeaters s = (.ok (), (w', h'))) (hq : h'.pdu = some q)
    (hr : w'.request q = some r) : bulkRequest env maxRepetitions nonRepeaters s = some r := by
  simp only [bulkRequest, hrun, hq, Option.bind_some, hr]

section
variable (env : NetSnmp) (hcreate : ∀ n, env.pduCreate n ≠ none) (hadd : ∀ n, env.addVariable n = true)
include hcreate hadd

theorem bulkRequest_rebuild (maxRepetitions nonRepeaters : Int) {w : World} {h : PDU} {p : PduPtr} {d : NetsnmpPdu}
    {vs : List Varbind} (hp : h.pdu = some p) (ht : h.type ≠ kGetBulk) (hd : w.pdus.cell p = some d)
    (hvs : w.vars d.variableList = some vs) (hne : vs ≠ []) (hnames : ∀ b ∈ vs, b.name ≠ []) :
    bulkRequest env maxRepetitions nonRepeaters (w, h)
      = some ⟨w.pdus.next, kGetBulk, nonRepeaters, maxRepetitions,
          (OrdSet.ofList (oidsOf vs)).elems.map (nullVarbind env)⟩ := by
  have hvl : d.variableList ≠ none := fun hc => hne ((World.vars_eq_nil_iff hvs).2 hc)
  have hall : AllAdd env (w.calls + 1) (Varlist.getOidsSet vs).elems := by
    refine ⟨fun o ho => ?_, fun i _ => hadd _⟩
    rw [getOidsSet_eq, OrdSet.mem_ofList, oidsOf] at ho
    obtain ⟨b, hb, rfl⟩ := List.mem_map.1 ho
    exact List.isEmpty_eq_false_iff.2 (hnames b hb)
  rcases getBulkRequest_rebuild env maxRepetitions nonRepeaters hp ht hd hvl hvs with
    ⟨hc, -⟩ | ⟨-, hnot, -⟩ | ⟨-, -, w', hrun, -, hr⟩
  · exact absurd hc (hcreate _)
  · exact absurd hall hnot
  · rw [bulkRequest_of_ok hrun rfl hr, getOidsSet_eq]

theorem bulkRequest_direct (maxRepetitions nonRepeaters : Int) (w : World) (oids : VecOID)
    (hoids : ∀ o ∈ oids, o.empty = false) :
    ∃ pdu w', buildBulk env oids w = (.ok pdu, w') ∧
      bulkRequest env maxRepetitions nonRepeaters (w', pdu)
        = some ⟨w.pdus.next, kGetBulk, nonRepeaters, maxRepetitions, oids.map (nullVarbind env)⟩ := by
  obtain ⟨w₁, hrun₁, -, hbuilt⟩ := Built.create env kGetBulk (hcreate w.calls)
  obtain ⟨es, ei, hr⟩ := hbuilt.request
  rcases PDU.each_addNullVar env (h := ⟨kGetBulk, some w.pdus.next⟩) rfl oids w₁ _ hr with
    ⟨w₂, hrun₂, -, hfill, -⟩ | ⟨_, _, _, -, -, hnot⟩
  · obtain ⟨es', ei', hr'⟩ := (hbuilt.fill hfill).request
    obtain ⟨d, vs, hd, hvs, hrd⟩ := World.request_eq_some.1 hr'
    simp only [Request.mk.injEq, true_and] at hrd
    obtain ⟨hcmd, -, -, rfl⟩ := hrd
    refine ⟨⟨kGetBulk, some w.pdus.next⟩, w₂, ?_,
      bulkRequest_of_ok (getBulkRequest_direct env _ _ (h := ⟨kGetBulk, some w.pdus.next⟩) rfl rfl hd) rfl
        (World.request_eq_some.2 ⟨_, _, w₂.pdus.cell_put_self _ _ hd, hvs, ?_⟩)⟩
    · rw [buildBulk, Run.bind_ok hrun₁, Run.bind_ok (Run.on_ok hrun₂), Run.pure_apply]
    · rw [hcmd]
      rfl
  · exact absurd ⟨hoids, fun _ _ => hadd _⟩ hnot

/-- **The two paths of `getBulk` agree exactly on strictly ascending OIDs**: the request it hands over for a PDU of
another type is the one it would hand over for a GETBULK the caller built from the same OIDs in the same order. -/
theorem getBulk_paths_agree_iff (maxRepetitions nonRepeaters : Int) (w : World) (h : PDU) (p : PduPtr)
    (d : NetsnmpPdu) (vs : List Varbind) (hp : h.pdu = some p) (ht : h.type ≠ kGetBulk)
    (hd : w.pdus.cell p = some d) (hvs : w.vars d.variableList = some vs) (hne : vs ≠ [])
    (hnames : ∀ b ∈ vs, b.name ≠ []) :
    ∃ r r', bulkRequest env maxRepetitions nonRepeaters (w, h) = some r ∧
      (∃ pdu w', buildBulk env (oidsOf vs) w = (.ok pdu, w') ∧
        bulkRequest env maxRepetitions nonRepeaters (w', pdu) = some r') ∧
      (r.SameBulk r' ↔ (oidsOf vs).Pairwise (· < ·)) := by
  have hoids : ∀ o ∈ oidsOf vs, o.empty = false := fun o ho => by
    obtain ⟨b, hb, rfl⟩ := List.mem_map.1 ho
    exact List.isEmpty_eq_false_iff.2 (hnames b hb)
  refine ⟨_, _, bulkRequest_rebuild env hcreate hadd maxRepetitions nonRepeaters hp ht hd hvs hne hnames,
    bulkRequest_direct env hcreate hadd maxRepetitions nonRepeaters w (oidsOf vs) hoids, ?_⟩
  have hinj : Function.Injective OID.v := fun a b hab => congrArg OID.mk hab
  have hnull : ∀ l : List OID, (l.map (nullVarbind env)).map (·.name) = l.map OID.v := fun l => by
    rw [List.map_map]
    rfl
  rw [← OrdSet.ofList_elems_iff, Request.SameBulk, hnull, hnull]
  exact ⟨fun hsame => List.map_injective_iff.2 hinj hsame.1, fun heq => ⟨by rw [heq], rfl, rfl⟩⟩

end

theorem getBulk_paths_agree_witness :
    let env := NetSnmp.working (fun _ => .timeout)
    let vs : List Varbind := [⟨[1, 3, 1], ASN_NULL, []⟩, ⟨[1, 3, 2], ASN_NULL, []⟩]
    let w := (World.start.newList vs).2.newPdu ⟨kGet, 0, 0, some 0⟩
    ∃ r r', bulkRequest env 10 1 (w, ⟨kGet, some 0⟩) = some r ∧
      (∃ pdu w', buildBulk env (oidsOf vs) w = (.ok pdu, w') ∧ bulkRequest env 10 1 (w', pdu) = some r') ∧
      (r.SameBulk r' ↔ (oidsOf vs).Pairwise (· < ·)) :=
  getBulk_paths_agree_iff _ (by intro _ h; cases h) (fun _ => rfl) 10 1 _ ⟨kGet, some 0⟩ 0 ⟨kGet, 0, 0, some 0⟩ _ rfl
    (by decide) rfl rfl (by simp) (by simp)

/-- The caller's first OID is the non-repeater on one path and the second OID on the other. -/
theorem getBulk_paths_disagree :
    let env := NetSnmp.working (fun _ => .timeout)
    let vs : List Varbind := [⟨[1, 3, 2], ASN_NULL, []⟩, ⟨[1, 3, 1], ASN_NULL, []⟩]
    let w := (World.start.newList vs).2.newPdu ⟨kGet, 0, 0, some 0⟩
    ∃ r r', bulkRequest env 10 1 (w, ⟨kGet, some 0⟩) = some r ∧
      (∃ pdu w', buildBulk env (oidsOf vs) w = (.ok pdu, w') ∧ bulkRequest env 10 1 (w', pdu) = some r') ∧
      r.vars.map (·.name) = [[1, 3, 1], [1, 3, 2]] ∧ r'.vars.map (·.name) = [[1, 3, 2], [1, 3, 1]] ∧
      ¬ r.SameBulk r' :=
  ⟨_, _, rfl, ⟨_, _, rfl, rfl⟩, by decide, by decide, by decide⟩

end Snmppp
