import Snmppp.Cursor
import Snmppp.Subtree
import Snmppp.Walk
/-!
# Agent — what a walk sees of an agent

An agent shows objects in the order of their names.  For each name of a GETNEXT it answers with the first object behind
that name, or with the name itself and `endOfMibView` when there is none; a GETBULK is so many GETNEXTs in one, and may
be cut short.  `getNext` on its own responses moves a cursor through the agent's objects: a walk sees the objects behind
the OID it starts at, in order, none twice and none left out (`getNext_walk_lists`), first those below that OID
(`getNext_walk_subtree`).
-/
namespace Snmppp

def SNMP_ENDOFMIBVIEW : UInt8 := 130

/-- The objects an agent shows, the type and the value of each under its name. -/
abbrev MibView := OrdMap OID (UInt8 × List UInt8)

namespace MibView

def object (e : OID × UInt8 × List UInt8) : Varbind := ⟨e.1.v, e.2.1, e.2.2⟩

def endOfMibView (o : OID) : Varbind := ⟨o.v, SNMP_ENDOFMIBVIEW, []⟩

/-- What an agent answers to one name of a GETNEXT. -/
def successor (view : MibView) (o : OID) : Varbind :=
  match view.next o with
  | some e => object e
  | none   => endOfMibView o

def answerGetNext (view : MibView) (os : List OID) : List Varbind := os.map view.successor

/-- The repetitions of a GETBULK: a GETNEXT of the names of the one before. -/
def repetitions (view : MibView) : Nat → List OID → List Varbind
  | 0, _      => []
  | n + 1, os => view.answerGetNext os ++ repetitions view n (oidsOf (view.answerGetNext os))

def answerGetBulk (view : MibView) (maxRepetitions nonRepeaters : Int) (os : List OID) : List Varbind :=
  view.answerGetNext (os.take nonRepeaters.toNat) ++ view.repetitions maxRepetitions.toNat (os.drop nonRepeaters.toNat)

/-- **`vs` answers `r`**, where `r` asks for a walk: all of a GETNEXT, of a GETBULK what is not cut off. -/
def Meets (view : MibView) (r : Request) (vs : List Varbind) : Prop :=
  (r.command = kGetNext → vs = view.answerGetNext (oidsOf r.vars)) ∧
  (r.command = kGetBulk → vs <+: view.answerGetBulk r.errindex r.errstat (oidsOf r.vars))

/-- Every response answers its request, in events where only the last request may be without one. -/
def Serves (view : MibView) (es : List Event) : Prop := ∀ x ∈ (sentIn es).zip (receivedIn es), view.Meets x.1 x.2.2

instance (view : MibView) (r : Request) (vs : List Varbind) : Decidable (view.Meets r vs) :=
  inferInstanceAs (Decidable (_ ∧ _))

instance (view : MibView) (es : List Event) : Decidable (view.Serves es) :=
  inferInstanceAs (Decidable (∀ x ∈ (sentIn es).zip (receivedIn es), view.Meets x.1 x.2.2))

/-- What turn `i` of a walk from `o` is answered. -/
def turn (view : MibView) (o : OID) (i : Nat) : Varbind := view.successor (view.advance^[i] o)

/-- The name of the last object behind `o`, or `o` when there is none. -/
def last (view : MibView) (o : OID) : OID := ((view.after o).getLast?.map Prod.fst).getD o

/-- **What `k` turns from `o` should list**: the first `k` objects behind `o`, and that there are no more. -/
def listing (view : MibView) (o : OID) (k : Nat) : List Varbind :=
  ((view.after o).take k).map object ++ List.replicate (k - (view.after o).length) (endOfMibView (view.last o))

variable (view : MibView) (o : OID)

theorem name_successor : (view.successor o).name = (view.advance o).v := by
  unfold successor
  cases h : view.next o with
  | none   => rw [OrdMap.advance_of_none h]; rfl
  | some e => rw [OrdMap.advance_of_some h]; rfl

theorem name_turn (i : Nat) : (view.turn o i).name = (view.advance^[i + 1] o).v := by
  rw [turn, name_successor, Function.iterate_succ_apply']

theorem turn_advance (i : Nat) : view.turn (view.advance o) i = view.turn o (i + 1) := by
  rw [turn, turn, Function.iterate_succ_apply]

theorem turn_eq (i : Nat) :
    view.turn o i = ((view.after o)[i]?.map object).getD (endOfMibView (view.advance^[i] o)) := by
  rw [turn, successor, OrdMap.next_advance]
  cases (view.after o)[i]? <;> rfl

/-- **Turn by turn a walk reads the listing.** -/
theorem map_turn (k : Nat) : (List.range k).map (view.turn o) = view.listing o k := by
  apply List.ext_getElem?
  intro i
  by_cases hi : i < k
  · rw [List.getElem?_map, List.getElem?_range hi, Option.map_some, turn_eq, listing]
    by_cases hlen : i < (view.after o).length
    · rw [List.getElem?_append_left (by simp; omega), List.getElem?_map, List.getElem?_take_of_lt hi,
        List.getElem?_eq_getElem hlen]
      rfl
    · have hle : (view.after o).length ≤ i := Nat.le_of_not_lt hlen
      rw [List.getElem?_append_right (by simp; omega), List.getElem?_eq_none hle, OrdMap.advance_of_length_le _ _ hle,
        List.getElem?_replicate_of_lt (by simp; omega)]
      rfl
  · rw [List.getElem?_eq_none (by simp; omega), List.getElem?_eq_none (by simp [listing]; omega)]

@[simp] theorem length_answerGetNext (os : List OID) : (view.answerGetNext os).length = os.length := List.length_map _

@[simp] theorem length_oidsOf (vs : List Varbind) : (oidsOf vs).length = vs.length := List.length_map _

theorem getElem?_answerGetNext {os : List OID} {j : Nat} {o : OID} (ho : os[j]? = some o) :
    (view.answerGetNext os)[j]? = some (view.turn o 0) := by
  rw [answerGetNext, List.getElem?_map, ho]
  rfl

/-- The names that the next repetition asks for. -/
theorem getElem?_oidsOf_answerGetNext {os : List OID} {j : Nat} {o : OID} (ho : os[j]? = some o) :
    (oidsOf (view.answerGetNext os))[j]? = some (view.advance o) := by
  rw [oidsOf, List.getElem?_map, getElem?_answerGetNext view ho, Option.map_some, name_turn]
  rfl

theorem length_repetitions : ∀ (n : Nat) (os : List OID), (view.repetitions n os).length = n * os.length
  | 0, _      => by rw [repetitions, Nat.zero_mul]; rfl
  | n + 1, os => by
    rw [repetitions, List.length_append, length_repetitions n, length_oidsOf, length_answerGetNext, Nat.add_one_mul,
      Nat.add_comm]

/-- **Column by column the repetitions of a GETBULK are walks**: repetition `i` has turn `i` of each. -/
theorem getElem?_repetitions : ∀ {n : Nat} {os : List OID} {i j : Nat} {o : OID}, i < n → os[j]? = some o →
    (view.repetitions n os)[i * os.length + j]? = some (view.turn o i)
  | n + 1, os, 0, j, o, _, ho => by
    have hj : j < (view.answerGetNext os).length := by
      rw [length_answerGetNext]
      exact (List.getElem?_eq_some_iff.1 ho).1
    rw [repetitions, Nat.zero_mul, Nat.zero_add, List.getElem?_append_left hj, getElem?_answerGetNext view ho]
  | n + 1, os, i + 1, j, o, hi, ho => by
    have ih := getElem?_repetitions (n := n) (i := i) (Nat.lt_of_succ_lt_succ hi)
      (getElem?_oidsOf_answerGetNext view ho)
    rw [length_oidsOf, length_answerGetNext, turn_advance] at ih
    have hplace : (i + 1) * os.length + j = os.length + (i * os.length + j) := by
      rw [Nat.add_one_mul]
      omega
    rw [repetitions, hplace, List.getElem?_append_right (by simp), length_answerGetNext, Nat.add_sub_cancel_left, ih]

/-- An object below `o`. -/
def below (o : OID) (b : Varbind) : Bool := decide (b.type ≠ SNMP_ENDOFMIBVIEW) && (⟨b.name⟩ : OID).isChildOf o

/-- **The objects below `o` are what a walk from `o` lists first**, and nothing behind them is. -/
theorem listing_below (hshown : ∀ e ∈ view.entries, e.2.1 ≠ SNMP_ENDOFMIBVIEW) (k : Nat) :
    (view.listing o k).takeWhile (below o) = ((view.entries.filter (·.1.isChildOf o)).take k).map object ∧
      ∀ b ∈ (view.listing o k).dropWhile (below o), below o b = false := by
  have hobject : ∀ e ∈ view.after o, below o (object e) = e.1.isChildOf o := fun e he => by
    rw [below, object, decide_eq_true (hshown e (OrdMap.mem_after.1 he).1), Bool.true_and]
  have hend : ∀ x, below o (endOfMibView x) = false := fun _ => rfl
  -- behind `o` the children of `o` end for good
  have hgood : (view.after o).Pairwise (fun x y => x.1.isChildOf o = false → y.1.isChildOf o = false) := by
    refine (view.ascending_after o).imp_of_mem (fun {x y} hx _ hxy hpx => ?_)
    rw [← Bool.not_eq_true]
    exact fun hpy => lt_asymm hxy (OID.lt_of_not_isChildOf (OrdMap.mem_after.1 hx).2 hpx hpy)
  have hchildren : (view.after o).takeWhile (·.1.isChildOf o) = view.entries.filter (·.1.isChildOf o) := by
    rw [← Span.filter_eq_takeWhile hgood, OrdMap.after, List.filter_filter]
    refine List.filter_congr (fun e _ => ?_)
    cases hchild : e.1.isChildOf o with
    | false => rfl
    | true  => rw [decide_eq_true (OID.lt_of_isChildOf hchild), Bool.and_self]
  have hlisting : (view.listing o k).Pairwise (fun x y => below o x = false → below o y = false) := by
    rw [listing, List.pairwise_append]
    refine ⟨?_, ?_, fun x _ y hy _ => ?_⟩
    · rw [List.pairwise_map]
      refine (hgood.take (i := k)).imp_of_mem (fun {x y} hx hy hxy => ?_)
      rw [hobject x (List.mem_of_mem_take hx), hobject y (List.mem_of_mem_take hy)]
      exact hxy
    · exact List.pairwise_replicate.2 (.inr (fun _ => hend _))
    · rw [List.eq_of_mem_replicate hy]
      exact hend _
  refine ⟨?_, Span.not_of_mem_dropWhile hlisting⟩
  have hnone : (List.replicate (k - (view.after o).length) (endOfMibView (view.last o))).filter (below o) = [] :=
    List.filter_eq_nil_iff.2 (fun b hb => by
      rw [List.eq_of_mem_replicate hb, hend]
      exact Bool.false_ne_true)
  calc (view.listing o k).takeWhile (below o)
      = (((view.after o).take k).map object).filter (below o) := by
        rw [← Span.filter_eq_takeWhile hlisting, listing, List.filter_append, hnone, List.append_nil]
    _ = (((view.after o).take k).filter (·.1.isChildOf o)).map object := by
        rw [List.filter_map]
        exact congrArg _ (List.filter_congr (fun e he => hobject e (List.mem_of_mem_take he)))
    _ = (((view.after o).takeWhile (·.1.isChildOf o)).take k).map object := by
        rw [Span.filter_eq_takeWhile (hgood.take (i := k)), List.take_takeWhile]
    _ = ((view.entries.filter (·.1.isChildOf o)).take k).map object := by rw [hchildren]

end MibView

/-! ## The walk -/

/-- **The responses of a walk against an agent**, by induction on the requests: the last varbind of each is the next
turn of the walk from the OID the first request asks for last. -/
theorem Follows.turns {env : NetSnmp} (view : MibView) : ∀ {rs : List Request} {recvs : List (PduPtr × List Varbind)}
    {ask : Request → Prop} {o : OID}, Follows env ask rs recvs →
    (∀ x ∈ rs.zip recvs, view.Meets x.1 x.2.2) →
    (∀ r, ask r → r.command = kGetNext ∧ ∃ b, r.vars.getLast? = some b ∧ b.name = o.v) →
    recvs.map (·.2.getLast?) = (List.range recvs.length).map (fun i => some (view.turn o i))
  | [], recvs, _, _, hf, _, _ => by
    rw [show recvs = [] from hf]
    rfl
  | _ :: _, [], _, _, _, _, _ => rfl
  | r :: rs, (q, vs) :: recvs, ask, o, ⟨hask, hrest⟩, hserves, hlast => by
    obtain ⟨hcmd, b, hb, hname⟩ := hlast r hask
    have hvs : vs = view.answerGetNext (oidsOf r.vars) := (hserves (r, (q, vs)) List.mem_cons_self).1 hcmd
    have hfirst : vs.getLast? = some (view.turn o 0) := by
      rw [hvs, MibView.answerGetNext, oidsOf, List.getLast?_map, List.getLast?_map, hb]
      simp [hname, MibView.turn]
    have ih := Follows.turns view (o := view.advance o) hrest
      (fun x hx => hserves x (List.mem_cons_of_mem _ hx)) (fun r' hr' => by
        obtain ⟨hcmd', b', hb', hvars⟩ := hr'
        rw [hfirst] at hb'
        cases hb'
        exact ⟨hcmd', ⟨(view.turn o 0).name, ASN_NULL, env.copyValue ASN_NULL []⟩, by rw [hvars]; rfl,
          view.name_turn o 0⟩)
    rw [List.map_cons, ih, List.length_cons, List.range_succ_eq_map, List.map_cons, List.map_map, hfirst]
    simp only [MibView.turn_advance]
    rfl

/-- A response to a request for one OID has one varbind. -/
theorem Follows.single {env : NetSnmp} (view : MibView) : ∀ {rs : List Request} {recvs : List (PduPtr × List Varbind)}
    {ask : Request → Prop}, Follows env ask rs recvs → (∀ x ∈ rs.zip recvs, view.Meets x.1 x.2.2) →
    (∀ r, ask r → r.command = kGetNext ∧ r.vars.length = 1) → ∀ x ∈ recvs, x.2.length = 1
  | [], recvs, _, hf, _, _ => by
    rw [show recvs = [] from hf]
    simp
  | _ :: _, [], _, _, _, _ => by simp
  | r :: rs, (q, vs) :: recvs, ask, ⟨hask, hrest⟩, hserves, hone => by
    obtain ⟨hcmd, hlen⟩ := hone r hask
    have hvs : vs = view.answerGetNext (oidsOf r.vars) := (hserves (r, (q, vs)) List.mem_cons_self).1 hcmd
    have ih := Follows.single view hrest (fun x hx => hserves x (List.mem_cons_of_mem _ hx))
      (fun r' ⟨hcmd', _, _, hvars⟩ => ⟨hcmd', by rw [hvars]; rfl⟩)
    refine List.forall_mem_cons.2 ⟨?_, ih⟩
    show vs.length = 1
    rw [hvs, MibView.answerGetNext, oidsOf, List.length_map, List.length_map, hlen]

theorem Follows.single_tail {env : NetSnmp} (view : MibView) {ask : Request → Prop} : ∀ {rs : List Request}
    {recvs : List (PduPtr × List Varbind)}, Follows env ask rs recvs → (∀ x ∈ rs.zip recvs, view.Meets x.1 x.2.2) →
    ∀ x ∈ recvs.tail, x.2.length = 1
  | [], recvs, hf, _ => by
    rw [show recvs = [] from hf]
    simp
  | _ :: _, [], _, _ => by simp
  | r :: rs, (q, vs) :: recvs, ⟨_, hrest⟩, hserves =>
    hrest.single view (fun x hx => hserves x (List.mem_cons_of_mem _ hx)) (fun r' ⟨hcmd, _, _, hvars⟩ =>
      ⟨hcmd, by rw [hvars]; rfl⟩)

section
variable (env : NetSnmp) (hadd : ∀ n, env.addVariable n = true)
  (hresp : ∀ n a, (env.synchResponse n).response = some a →
    a.command = kResponse ∧ a.vars ≠ [] ∧ ∀ b ∈ a.vars, b.name ≠ [])
  {session : SessionHandle} (hs : session ≠ none)
include hadd hresp hs

/-- What a walk from a GETNEXT logs: its requests and responses in turn. -/
theorem walk_follows (n : Nat) {w : World} {p : PduPtr} {r₀ : Request} (hr : w.request p = some r₀)
    (hne : r₀.vars ≠ []) :
    let s := walk env session n (w, ⟨kGetNext, some p⟩)
    let es := w.since s.2.1
    Follows env (· = r₀) (sentIn es) (receivedIn es) ∧ (s.1 = .ok () → (receivedIn es).length = n) := by
  obtain ⟨d, vs₀, hd, hvs₀, hr₀⟩ := World.request_eq_some.1 hr
  cases n with
  | zero =>
    intro s es
    have hes : es = [] := World.since_of_log_eq rfl
    rw [hes]
    exact ⟨rfl, fun _ => rfl⟩
  | succ n =>
    obtain ⟨res, w', h', es', hwalk, hwalked, hlen, -⟩ :=
      walk_from_request env hadd hresp hs n hr hne (by rw [hr₀]) (w.pdus.lt_next_of_cell hd)
    rw [hwalk]
    intro s es
    have hes : es = es' := World.since_eq hwalked.log
    rw [hes]
    exact ⟨hwalked.follows, fun hres => (hlen hres).2⟩

end

theorem Follows.lists {env : NetSnmp} (view : MibView) {rs : List Request} {recvs : List (PduPtr × List Varbind)}
    {r₀ : Request} {b : Varbind} (hf : Follows env (· = r₀) rs recvs)
    (hserves : ∀ x ∈ rs.zip recvs, view.Meets x.1 x.2.2) (hcmd : r₀.command = kGetNext)
    (hb : r₀.vars.getLast? = some b) : recvs.filterMap (·.2.getLast?) = view.listing ⟨b.name⟩ recvs.length := by
  have hturns := hf.turns view (o := ⟨b.name⟩) hserves (fun r he => by
    rw [he]
    exact ⟨hcmd, b, hb, rfl⟩)
  calc recvs.filterMap (·.2.getLast?)
      = (recvs.map (·.2.getLast?)).filterMap id := by rw [List.filterMap_map]; rfl
    _ = (List.range recvs.length).map (view.turn ⟨b.name⟩) := by
        rw [hturns, List.filterMap_map, ← List.filterMap_eq_map]
        rfl
    _ = view.listing ⟨b.name⟩ recvs.length := view.map_turn _ _

/-- **A walk lists the agent.**  Against an agent that shows `view`, the last varbinds of the responses of a walk from a
GETNEXT are the objects behind the OID it asks for last, in order, none left out and none twice, and from there on that
there are no more; every response but the first has no other varbind.  A walk that returns has made all its turns. -/
theorem getNext_walk_lists (env : NetSnmp) (hadd : ∀ n, env.addVariable n = true)
    (hresp : ∀ n a, (env.synchResponse n).response = some a →
      a.command = kResponse ∧ a.vars ≠ [] ∧ ∀ b ∈ a.vars, b.name ≠ [])
    (session : SessionHandle) (hs : session ≠ none) (n : Nat) (w : World) (p : PduPtr) (r₀ : Request)
    (hr : w.request p = some r₀) (hcmd : r₀.command = kGetNext) (b : Varbind) (hb : r₀.vars.getLast? = some b)
    (view : MibView)
    (hserves : view.Serves (w.since (walk env session n (w, ⟨kGetNext, some p⟩)).2.1)) :
    let s := walk env session n (w, ⟨kGetNext, some p⟩)
    let responses := receivedIn (w.since s.2.1)
    responses.filterMap (·.2.getLast?) = view.listing ⟨b.name⟩ responses.length ∧
      (∀ x ∈ responses.tail, x.2.length = 1) ∧ (s.1 = .ok () → responses.length = n) := by
  intro s responses
  have hne : r₀.vars ≠ [] := fun h => by
    rw [h] at hb
    cases hb
  obtain ⟨hfollows, hlen⟩ := walk_follows env hadd hresp hs n hr hne
  exact ⟨hfollows.lists view hserves hcmd hb, hfollows.single_tail view hserves, hlen⟩

/-- A network that answers the requests of a walk with one varbind each. -/
def NetSnmp.answering (answers : List Varbind) : NetSnmp :=
  NetSnmp.working (fun n => ⟨STAT_SUCCESS, (answers[n / 3]?).map (fun b => ⟨kResponse, 0, 0, [b]⟩)⟩)

theorem NetSnmp.answering_response {answers : List Varbind} (hnames : ∀ b ∈ answers, b.name ≠ []) (n : Nat)
    (a : Response) (h : ((NetSnmp.answering answers).synchResponse n).response = some a) :
    a.command = kResponse ∧ a.vars ≠ [] ∧ ∀ b ∈ a.vars, b.name ≠ [] := by
  obtain ⟨b, hb, rfl⟩ := Option.map_eq_some_iff.1 h
  refine ⟨rfl, by simp, fun c hc => ?_⟩
  rw [List.mem_singleton.1 hc]
  exact hnames b (List.mem_of_getElem? hb)

theorem getNext_walk_lists_three :
    let view : MibView := (OrdMap.empty.set ⟨[1, 3, 2]⟩ (ASN_INTEGER, [7])).set ⟨[1, 3, 1]⟩ (ASN_OCTET_STR, [65])
    let env := NetSnmp.answering [⟨[1, 3, 1], ASN_OCTET_STR, [65]⟩, ⟨[1, 3, 2], ASN_INTEGER, [7]⟩,
      ⟨[1, 3, 2], SNMP_ENDOFMIBVIEW, []⟩]
    let w := (World.start.newList [⟨[1, 3], ASN_NULL, []⟩]).2.newPdu ⟨kGetNext, 0, 0, some 0⟩
    let s := walk env (some 0) 3 (w, ⟨kGetNext, some 0⟩)
    (receivedIn (w.since s.2.1)).filterMap (·.2.getLast?) = view.listing ⟨[1, 3]⟩ 3 := by
  intro view env w s
  have hlists := getNext_walk_lists env (fun _ => rfl) (NetSnmp.answering_response (by decide)) (some 0) (by simp) 3 w 0
    ⟨0, kGetNext, 0, 0, _⟩ rfl rfl ⟨[1, 3], ASN_NULL, []⟩ rfl view (by decide +kernel)
  have hthree : (receivedIn (w.since s.2.1)).length = 3 := hlists.2.2 (by decide +kernel)
  rw [← hthree]
  exact hlists.1

/-- **A walk lists a subtree first.**  Of what such a walk lists, the objects below the OID it starts at come first, all
the agent shows if the walk is long enough; the first varbind that is none of them ends them for good. -/
theorem getNext_walk_subtree (env : NetSnmp) (hadd : ∀ n, env.addVariable n = true)
    (hresp : ∀ n a, (env.synchResponse n).response = some a →
      a.command = kResponse ∧ a.vars ≠ [] ∧ ∀ b ∈ a.vars, b.name ≠ [])
    (session : SessionHandle) (hs : session ≠ none) (n : Nat) (w : World) (p : PduPtr) (r₀ : Request)
    (hr : w.request p = some r₀) (hcmd : r₀.command = kGetNext) (b : Varbind) (hb : r₀.vars.getLast? = some b)
    (view : MibView) (hshown : ∀ e ∈ view.entries, e.2.1 ≠ SNMP_ENDOFMIBVIEW)
    (hserves : view.Serves (w.since (walk env session n (w, ⟨kGetNext, some p⟩)).2.1)) :
    let responses := receivedIn (w.since (walk env session n (w, ⟨kGetNext, some p⟩)).2.1)
    let listed := responses.filterMap (·.2.getLast?)
    let base : OID := ⟨b.name⟩
    listed.takeWhile (MibView.below base)
        = ((view.entries.filter (·.1.isChildOf base)).take responses.length).map MibView.object ∧
      ∀ v ∈ listed.dropWhile (MibView.below base), MibView.below base v = false := by
  intro responses listed base
  have hne : r₀.vars ≠ [] := fun h => by
    rw [h] at hb
    cases hb
  have hlists : listed = _ := (walk_follows env hadd hresp hs n hr hne).1.lists view hserves hcmd hb
  rw [hlists]
  exact view.listing_below base hshown _

theorem getNext_walk_subtree_two :
    let view : MibView := (OrdMap.empty.set ⟨[1, 4]⟩ (ASN_INTEGER, [7])).set ⟨[1, 3, 1]⟩ (ASN_OCTET_STR, [65])
    let env := NetSnmp.answering [⟨[1, 3, 1], ASN_OCTET_STR, [65]⟩, ⟨[1, 4], ASN_INTEGER, [7]⟩]
    let w := (World.start.newList [⟨[1, 3], ASN_NULL, []⟩]).2.newPdu ⟨kGetNext, 0, 0, some 0⟩
    let s := walk env (some 0) 2 (w, ⟨kGetNext, some 0⟩)
    ((receivedIn (w.since s.2.1)).filterMap (·.2.getLast?)).takeWhile (MibView.below ⟨[1, 3]⟩)
      = ((view.entries.filter (·.1.isChildOf ⟨[1, 3]⟩)).take (receivedIn (w.since s.2.1)).length).map
          MibView.object := by
  intro view env w s
  exact (getNext_walk_subtree env (fun _ => rfl) (NetSnmp.answering_response (by decide)) (some 0) (by simp) 2 w 0
    ⟨0, kGetNext, 0, 0, _⟩ rfl rfl ⟨[1, 3], ASN_NULL, []⟩ rfl view (by decide) (by decide +kernel)).1

end Snmppp
