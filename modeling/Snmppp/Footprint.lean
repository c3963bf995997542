import Snmppp.Ledger
import Snmppp.Twin
import Snmppp.Value
import Mathlib.Algebra.Group.Prod
import Mathlib.Algebra.Order.Group.Multiset
/-!
# Footprint — the memory an object holds, and what it says

A handle holds its PDU and the list of it, and says what is there (`PDU.mem`, `PDU.val`).  `Tracks` books a part of the
program: the memory it holds and what it has left behind, next to a frame it does not touch, and the count of calls and
what went out.  Each net-snmp call is one entry.
-/
namespace Snmppp

open Arena (ofPtr Framed HeldBy mem_ofPtr)

/-- PDUs and variable lists by address. -/
abbrev Mem := Multiset PduPtr × Multiset VarPtr

theorem Mem.split (ps : Multiset PduPtr) (ls : Multiset VarPtr) (m : Mem) :
    ((ps, ls) + m : Mem) = (ps, 0) + ((0, ls) + m) :=
  Prod.ext (by simp) (by simp)

theorem Mem.split' (ps : Multiset PduPtr) (ls : Multiset VarPtr) (m : Mem) :
    ((ps, ls) + m : Mem) = (0, ls) + ((ps, 0) + m) :=
  Prod.ext (by simp) (by simp)

def PDU.list (w : World) (h : PDU) : Option VarPtr :=
  h.pdu.bind (fun p => (w.pdus.cell p).bind NetsnmpPdu.variableList)

/-- **What a handle holds.** -/
def PDU.mem (w : World) (h : PDU) : Mem := (ofPtr h.pdu, ofPtr (h.list w))

def Varlist.mem (v : Varlist) : Mem := (0, ofPtr v.varlist)

/-- **What a handle says.** -/
def PDU.val (w : World) (h : PDU) : Value.Pdu := ⟨h.type, h.pdu.bind (fun p => (w.request p).map Request.content)⟩

def Event.out : Event → Option Outgoing
  | .sent r    => some (.request r.content)
  | .trap vs _ => some (.trap vs)
  | _          => none

def World.out (w : World) : List Outgoing := w.log.filterMap Event.out

section
variable {w : World} {h : PDU} {p : PduPtr} {d : NetsnmpPdu} {vs : List Varbind}

theorem PDU.list_of_cell (hp : h.pdu = some p) (hd : w.pdus.cell p = some d) : h.list w = d.variableList := by
  simp [PDU.list, hp, hd]

theorem PDU.mem_of_cell (hp : h.pdu = some p) (hd : w.pdus.cell p = some d) :
    h.mem w = ({p}, ofPtr d.variableList) := by
  rw [PDU.mem, hp, PDU.list_of_cell hp hd]
  rfl

theorem PDU.mem_null (hp : h.pdu = none) : h.mem w = 0 := by
  rw [PDU.mem, PDU.list, hp]
  rfl

theorem PDU.val_of_request {r : Request} (hp : h.pdu = some p) (hr : w.request p = some r) :
    h.val w = ⟨h.type, some r.content⟩ := by
  simp [PDU.val, hp, hr]

theorem PDU.val_null (hp : h.pdu = none) : h.val w = ⟨h.type, none⟩ := by
  simp [PDU.val, hp]

end

/-! ## Booking -/

/-- **What a part of the program holds**: `m` and what it has left behind account for the memory next to the frame `F`,
which is as it was in `w₀`. -/
structure Tracks (w₀ : World) (F : Mem) (w : World) (m : Mem) (x : Net) : Prop where
  calls : w.calls = x.calls
  out   : w.out = x.out
  mem   : ∃ lost : Mem, Multiset.card lost.1 = x.lostPdus ∧ Multiset.card lost.2 = x.lostLists ∧
    Framed w₀.pdus F.1 w.pdus (m.1 + lost.1) ∧ Framed w₀.lists F.2 w.lists (m.2 + lost.2)

namespace Tracks

variable {w₀ w w' : World} {F m m' : Mem} {x x' : Net}

/-- An entry that leaves nothing behind: what it does to the PDUs and to the lists, in any frame. -/
theorem entry (h : Tracks w₀ F w m x) (hcalls : w'.calls = x'.calls) (hout : w'.out = x'.out)
    (hlost : x'.lostPdus = x.lostPdus ∧ x'.lostLists = x.lostLists)
    (hpdus : ∀ lost, Framed w₀.pdus F.1 w.pdus (m.1 + lost) → Framed w₀.pdus F.1 w'.pdus (m'.1 + lost))
    (hlists : ∀ lost, Framed w₀.lists F.2 w.lists (m.2 + lost) → Framed w₀.lists F.2 w'.lists (m'.2 + lost)) :
    Tracks w₀ F w' m' x' := by
  obtain ⟨lost, hp, hl, hfp, hfl⟩ := h.mem
  exact ⟨hcalls, hout, lost, hp.trans hlost.1.symm, hl.trans hlost.2.symm, hpdus _ hfp, hlists _ hfl⟩

theorem cell (h : Tracks w₀ F w m x) {p : PduPtr} (hp : p ∈ m.1) : ∃ d, w.pdus.cell p = some d := by
  obtain ⟨lost, -, -, hfp, -⟩ := h.mem
  exact hfp.cell (Multiset.mem_add.2 (.inl hp))

theorem vars (h : Tracks w₀ F w m x) {vl : Option VarPtr} (hl : ∀ l, vl = some l → l ∈ m.2) :
    ∃ vs, w.vars vl = some vs := by
  obtain ⟨lost, -, -, -, hfl⟩ := h.mem
  cases vl with
  | none => exact ⟨[], rfl⟩
  | some l =>
    obtain ⟨c, hc⟩ := hfl.cell (Multiset.mem_add.2 (.inl (hl l rfl)))
    exact ⟨c.vars, by simp [World.vars, hc]⟩

/-- **The pointer of a handle is good** whose memory is booked. -/
theorem valid {h : PDU} (ht : Tracks w₀ F w (h.mem w + m) x) {p : PduPtr} (hp : h.pdu = some p) :
    ∃ d vs, w.pdus.cell p = some d ∧ w.vars d.variableList = some vs := by
  obtain ⟨d, hd⟩ := ht.cell (p := p) (by
    rw [PDU.mem, hp]
    exact Multiset.mem_add.2 (.inl (Multiset.mem_singleton_self p)))
  have hlist : ∀ l, d.variableList = some l → l ∈ (h.mem w + m).2 := fun l hl => by
    rw [PDU.mem_of_cell hp hd]
    exact Multiset.mem_add.2 (.inl (mem_ofPtr.2 hl))
  obtain ⟨vs, hvs⟩ := ht.vars hlist
  exact ⟨d, vs, hd, hvs⟩

theorem tick (h : Tracks w₀ F w m x) : Tracks w₀ F w.tick m { x with calls := x.calls + 1 } :=
  h.entry (by rw [World.calls_tick, h.calls]) h.out ⟨rfl, rfl⟩ (fun _ hp => hp) (fun _ hl => hl)

theorem logs (h : Tracks w₀ F w m x) {e : Event} {os : List Outgoing} (he : [e].filterMap Event.out = os) :
    Tracks w₀ F (w.logs e) m { x with out := x.out ++ os } :=
  h.entry h.calls (by rw [World.out, World.log_logs, List.filterMap_append, he, ← World.out, h.out]) ⟨rfl, rfl⟩
    (fun _ hp => hp) (fun _ hl => hl)

theorem logs_none (h : Tracks w₀ F w m x) {e : Event} (he : e.out = none) : Tracks w₀ F (w.logs e) m x := by
  have hnone : [e].filterMap Event.out = [] := by simp [he]
  have hlog := h.logs hnone
  rw [List.append_nil] at hlog
  exact hlog

theorem newList (h : Tracks w₀ F w m x) (vs : List Varbind) :
    Tracks w₀ F (w.newList vs).2 ((0, ofPtr (w.newList vs).1) + m) x := by
  cases vs with
  | nil =>
    have hzero : ((0, ofPtr (w.newList []).1) + m : Mem) = m := zero_add m
    rw [hzero]
    exact h
  | cons v vs =>
    refine h.entry h.calls h.out ⟨rfl, rfl⟩ (fun _ hp => ?_) (fun _ hl => ?_)
    · rw [Prod.fst_add, zero_add]
      exact hp
    · rw [Prod.snd_add, add_assoc]
      exact hl.alloc _

theorem newPdu (h : Tracks w₀ F w m x) (d : NetsnmpPdu) : Tracks w₀ F (w.newPdu d) (({w.pdus.next}, 0) + m) x := by
  refine h.entry h.calls h.out ⟨rfl, rfl⟩ (fun _ hp => ?_) (fun _ hl => ?_)
  · rw [Prod.fst_add, add_assoc]
    exact hp.alloc d
  · rw [Prod.snd_add, zero_add]
    exact hl

/-- A new PDU with a list of its own. -/
theorem newPduList (h : Tracks w₀ F w m x) (vs : List Varbind) (cmd es ei : Int) :
    Tracks w₀ F ((w.newList vs).2.newPdu ⟨cmd, es, ei, (w.newList vs).1⟩)
      (({w.pdus.next}, ofPtr (w.newList vs).1) + m) x := by
  have hnew := (h.newList vs).newPdu ⟨cmd, es, ei, (w.newList vs).1⟩
  rw [World.pdus_newList, ← Mem.split] at hnew
  exact hnew

theorem setPdu (h : Tracks w₀ F w m x) {p : PduPtr} (hp : p ∈ m.1) (d : NetsnmpPdu) : Tracks w₀ F (w.setPdu p d) m x :=
  h.entry h.calls h.out ⟨rfl, rfl⟩ (fun _ hf => hf.put (Multiset.mem_add.2 (.inl hp)) d) (fun _ hl => hl)

theorem freeList {vl : Option VarPtr} (h : Tracks w₀ F w ((0, ofPtr vl) + m) x) : Tracks w₀ F (w.freeList vl) m x := by
  cases vl with
  | none =>
    have hzero : ((0, ofPtr none) + m : Mem) = m := zero_add m
    rw [hzero] at h
    exact h
  | some l =>
    refine h.entry h.calls h.out ⟨rfl, rfl⟩ (fun _ hp => ?_) (fun _ hl => ?_)
    · rw [Prod.fst_add, zero_add] at hp
      exact hp
    · rw [Prod.snd_add, add_assoc] at hl
      exact hl.free

theorem freePdu {p : PduPtr} {d : NetsnmpPdu} (hd : w.pdus.cell p = some d)
    (h : Tracks w₀ F w (({p}, ofPtr d.variableList) + m) x) : Tracks w₀ F (w.freePdu p) m x := by
  rw [Mem.split'] at h
  have hfree := h.freeList
  unfold World.freePdu
  rw [hd]
  refine hfree.entry (by rw [← hfree.calls]) (by rw [← hfree.out]; rfl) ⟨rfl, rfl⟩ (fun lost hp => ?_) (fun _ hl => ?_)
  · rw [Prod.fst_add, add_assoc, World.pdus_freeList] at hp
    exact hp.free
  · rw [Prod.snd_add, zero_add] at hl
    exact hl

/-- **A request handed over** is gone, and out. -/
theorem handed {p : PduPtr} {d : NetsnmpPdu} {r : Request} (hd : w.pdus.cell p = some d)
    (h : Tracks w₀ F w (({p}, ofPtr d.variableList) + m) x) :
    Tracks w₀ F (w.handed p r) m (Value.spent x r.content) :=
  (freePdu (w := w.logs (.sent r)) hd (h.logs (e := .sent r) rfl)).tick

/-- **A response delivered** is new. -/
theorem deliver (h : Tracks w₀ F w m x) (a : Response) :
    Tracks w₀ F (w.deliver a) (({w.pdus.next}, ofPtr (w.newList a.vars).1) + m) x :=
  (h.newPduList a.vars a.command a.errstat a.errindex).logs_none rfl

theorem bounced (h : Tracks w₀ F w m x) (a : Response) :
    Tracks w₀ F ((w.deliver a).tick.freePdu w.pdus.next) m (Value.ticked x) := by
  have hcell : (w.deliver a).tick.pdus.cell w.pdus.next
      = some ⟨a.command, a.errstat, a.errindex, (w.newList a.vars).1⟩ := by
    rw [World.pdus_tick, World.pdus_deliver, Arena.cell_alloc_next]
  exact freePdu hcell (h.deliver a).tick

theorem card_ofPtr {vl : Option VarPtr} {vs : List Varbind} (hvs : w.vars vl = some vs) :
    Multiset.card (ofPtr vl) = Value.listCount vs := by
  rw [Value.listCount]
  cases vl with
  | none => rw [if_pos ((World.vars_eq_nil_iff hvs).2 rfl)]; rfl
  | some l => rw [if_neg (fun hc => by cases (World.vars_eq_nil_iff hvs).1 hc)]; rfl

/-- **A list given up** is left behind. -/
theorem loseVars {vl : Option VarPtr} {vs : List Varbind} (h : Tracks w₀ F w ((0, ofPtr vl) + m) x)
    (hvs : w.vars vl = some vs) : Tracks w₀ F w m (Value.loseVars x vs) := by
  obtain ⟨lost, hp, hl, hfp, hfl⟩ := h.mem
  refine ⟨h.calls, h.out, (lost.1, ofPtr vl + lost.2), hp, ?_, ?_, ?_⟩
  · rw [Multiset.card_add, card_ofPtr hvs, hl, add_comm]
    rfl
  · rw [Prod.fst_add, zero_add] at hfp
    exact hfp
  · rw [Prod.snd_add, add_assoc, add_left_comm] at hfl
    exact hfl

/-- **A handle given up**: what it holds is left behind. -/
theorem losePdu {h : PDU} (ht : Tracks w₀ F w (h.mem w + m) x) : Tracks w₀ F w m (Value.losePdu x (h.val w)) := by
  cases hp : h.pdu with
  | none =>
    rw [PDU.mem_null hp, zero_add] at ht
    rw [PDU.val_null hp]
    exact ht
  | some p =>
    obtain ⟨d, vs, hd, hvs⟩ := ht.valid hp
    rw [PDU.mem_of_cell hp hd] at ht
    rw [PDU.val_of_request hp (World.request_eq_some.2 ⟨d, vs, hd, hvs, rfl⟩)]
    obtain ⟨lost, hcp, hcl, hfp, hfl⟩ := ht.mem
    refine ⟨ht.calls, ht.out, ({p} + lost.1, ofPtr d.variableList + lost.2), ?_, ?_, ?_, ?_⟩
    · rw [Multiset.card_add, Multiset.card_singleton, hcp, add_comm]
      rfl
    · rw [Multiset.card_add, card_ofPtr hvs, hcl, add_comm]
      rfl
    · rw [Prod.fst_add, add_assoc, add_left_comm] at hfp
      exact hfp
    · rw [Prod.snd_add, add_assoc, add_left_comm] at hfl
      exact hfl

end Tracks
end Snmppp
