import Snmppp.Store
import Snmppp.OrdMap
/-!
# Views — the ways to read a variable list (Varlist.hpp, Varlist.cpp)

The names, the set of names, the map, the index, the lookups and the accessors without an argument each walk the list
on their own.  They name the same varbinds (`Varlist.views_agree`).  Where a name occurs more than once the map holds
its last varbind and the lookups find its first, so the two read the same one exactly when the name occurs once
(`Varlist.getMap_agrees_iff`).
-/
namespace Snmppp

abbrev MapOidVarList := OrdMap OID (List Varbind)

/-- `sprint_realloc_value`: the text it leaves in the buffer for a value under an OID. -/
abbrev SprintValue := OID → Varbind → List Char

/-- `s.find( t )`. -/
def findText (t : List Char) : List Char → Option Nat
  | []      => if t = [] then some 0 else none
  | c :: cs => if t.isPrefixOf (c :: cs) then some 0 else (findText t cs).map (· + 1)

/-- What `asString` makes of the text `sprint_realloc_value` leaves: the value behind the type, a string without its
quotes. -/
def valueText (buf : List Char) : List Char :=
  match findText ": ".toList buf with
  | none     => buf
  | some pos =>
    let asn := buf.take pos
    let txt := buf.drop (pos + 2)
    let len := txt.length
    let quote := some (Char.ofNat 34)
    if asn = "STRING".toList ∧ len ≥ 2 ∧ txt[0]? = quote ∧ txt[len - 1]? = quote then
      -- the trailing double quote goes first
      (txt.take (len - 1)).drop 1
    else txt

namespace Varlist

/-- The loop of `getMap`; under a name it puts the pointer to the varbind. -/
def mapLoop (m : MapOidVarList) : List Varbind → MapOidVarList
  | []      => m
  | p :: ps => mapLoop (m.set ⟨p.name⟩ (p :: ps)) ps

def getMap (vl : List Varbind) : MapOidVarList := mapLoop OrdMap.empty vl

/-- The bytes of the `netsnmp_vardata`. -/
def valueAt (vl : List Varbind) (o : OID) : Res (List UInt8) := do
  let p ← atOID vl o
  pure p.first.val

def asString (sprint : SprintValue) (vl : List Varbind) (o : OID) : Res (List Char) := do
  let p ← atOID vl o
  pure (valueText (sprint o p.first))

/-! ## The accessors without an argument -/

/-- An accessor without an argument asks the one with an argument about the first OID. -/
def ofFirst {α : Type} (get : List Varbind → OID → Res α) (vl : List Varbind) : Res α := do
  let o ← firstOID vl
  get vl o

def asnTypeVoid : List Varbind → Res UInt8 := ofFirst asnType

def value : List Varbind → Res (List UInt8) := ofFirst valueAt

def getBoolVoid : List Varbind → Res Bool := ofFirst getBool

def getLongVoid : List Varbind → Res Int64 := ofFirst getLong

def getStringVoid : List Varbind → Res (List UInt8) := ofFirst getString

def getOIDVoid : List Varbind → Res OID := ofFirst getOID

def asStringVoid (sprint : SprintValue) : List Varbind → Res (List Char) := ofFirst (asString sprint)

/-! ## Names and positions -/

theorem mem_getOids {vl : List Varbind} {v : VecOID} {o : OID} : o ∈ getOids vl v ↔ ∃ b ∈ vl, b.name = o.v := by
  rw [getOids_eq, List.mem_map]
  exact ⟨fun ⟨b, hb, ho⟩ => ⟨b, hb, congrArg OID.v ho⟩, fun ⟨b, hb, ho⟩ => ⟨b, hb, congrArg OID.mk ho⟩⟩

theorem length_getOids (vl : List Varbind) (v : VecOID) : (getOids vl v).length = size vl := by
  rw [getOids_eq, List.length_map]
  rfl

theorem index_eq : ∀ (vl : List Varbind) (i : Nat), index vl i = vl.drop i
  | [], _          => by rw [index, List.drop_nil]
  | p :: ps, 0     => rfl
  | p :: ps, i + 1 => by rw [index, index_eq ps i, List.drop_succ_cons]

/-- **What `operator[]` leads to**: the varbind and those behind it. -/
theorem index_of_getElem {vl : List Varbind} {i : Nat} {b : Varbind} (h : vl[i]? = some b) :
    index vl i = b :: vl.drop (i + 1) := by
  obtain ⟨hi, rfl⟩ := List.getElem?_eq_some_iff.1 h
  rw [index_eq, List.drop_eq_getElem_cons hi]

theorem contains_iff : ∀ {vl : List Varbind} {o : OID}, contains vl o = true ↔ ∃ b ∈ vl, b.name = o.v
  | [], o      => by simp [contains]
  | p :: ps, o => by
    have hp : o = ⟨p.name⟩ ↔ p.name = o.v := ⟨fun h => by rw [h], fun h => by rw [h]⟩
    rw [contains]
    by_cases ho : o = ⟨p.name⟩
    · rw [if_pos ho]
      exact ⟨fun _ => ⟨p, List.mem_cons_self, hp.1 ho⟩, fun _ => rfl⟩
    · rw [if_neg ho, contains_iff]
      constructor
      · rintro ⟨b, hb, hbo⟩
        exact ⟨b, List.mem_cons_of_mem p hb, hbo⟩
      · rintro ⟨b, hb, hbo⟩
        rcases List.mem_cons.1 hb with rfl | hb
        · exact absurd (hp.2 hbo) ho
        · exact ⟨b, hb, hbo⟩

theorem find_of_forall_ne {vl : List Varbind} {o : OID} (h : ∀ b ∈ vl, b.name ≠ o.v) : find vl o = [] := by
  induction vl with
  | nil => rfl
  | cons p ps ih =>
    have hp : o ≠ ⟨p.name⟩ := fun ho => h p List.mem_cons_self (by rw [ho])
    rw [find, if_neg hp, ih (fun b hb => h b (List.mem_cons_of_mem p hb))]

/-- The first varbind of a name, and none of the name before it. -/
theorem exists_first {vl : List Varbind} {o : OID} (h : ∃ b ∈ vl, b.name = o.v) :
    ∃ pre p post, vl = pre ++ p :: post ∧ p.name = o.v ∧ ∀ b ∈ pre, b.name ≠ o.v := by
  induction vl with
  | nil =>
    obtain ⟨b, hb, -⟩ := h
    cases hb
  | cons x xs ih =>
    by_cases hx : x.name = o.v
    · exact ⟨[], x, xs, rfl, hx, by simp⟩
    · obtain ⟨b, hb, hbo⟩ := h
      rcases List.mem_cons.1 hb with rfl | hb
      · exact absurd hbo hx
      · obtain ⟨pre, p, post, rfl, hp, hpre⟩ := ih ⟨b, hb, hbo⟩
        exact ⟨x :: pre, p, post, rfl, hp, List.forall_mem_cons.2 ⟨hx, hpre⟩⟩

theorem atOID_first {pre : List Varbind} {p : Varbind} {o : OID} (hp : p.name = o.v)
    (hpre : ∀ b ∈ pre, b.name ≠ o.v) (post : List Varbind) :
    atOID (pre ++ p :: post) o = .ok ⟨p :: post, List.cons_ne_nil p post⟩ := by
  have ho : o = ⟨p.name⟩ := congrArg OID.mk hp.symm
  rw [atOID, ho, find_first_wins pre p post (fun b hb => by rw [hp]; exact hpre b hb)]

theorem atOID_none {vl : List Varbind} {o : OID} (h : ¬ ∃ b ∈ vl, b.name = o.v) :
    atOID vl o = .error (.exn ⟨.invalidArgument, "Varlist does not contain OID ".toList ++ o.toStr ++ ".".toList⟩) := by
  rw [atOID, find_of_forall_ne (fun b hb hbo => h ⟨b, hb, hbo⟩)]

/-! ## The map -/

theorem mem_keys_mapLoop {o : OID} : ∀ {vl : List Varbind} {m : MapOidVarList},
    o ∈ (mapLoop m vl).keys ↔ o ∈ m.keys ∨ ∃ b ∈ vl, b.name = o.v
  | [], m      => by simp [mapLoop]
  | p :: ps, m => by
    have hp : o = ⟨p.name⟩ ↔ p.name = o.v := ⟨fun h => by rw [h], fun h => by rw [h]⟩
    rw [mapLoop, mem_keys_mapLoop, OrdMap.mem_keys_set, hp, List.exists_mem_cons_iff]
    tauto

theorem find_mapLoop_of_ne {o : OID} : ∀ {vl : List Varbind} {m : MapOidVarList}, (∀ b ∈ vl, b.name ≠ o.v) →
    (mapLoop m vl).find o = m.find o
  | [], m, _      => rfl
  | p :: ps, m, h => by
    have hp : o ≠ ⟨p.name⟩ := fun ho => h p List.mem_cons_self (by rw [ho])
    rw [mapLoop, find_mapLoop_of_ne (fun b hb => h b (List.mem_cons_of_mem p hb)), OrdMap.find_set_of_ne m hp]

/-- **Last wins**: the map holds the varbind behind which there is none of its name. -/
theorem find_mapLoop_last {o : OID} {p : Varbind} {post : List Varbind} (hp : p.name = o.v)
    (hpost : ∀ b ∈ post, b.name ≠ o.v) : ∀ (pre : List Varbind) (m : MapOidVarList),
    (mapLoop m (pre ++ p :: post)).find o = some (p :: post)
  | [], m       => by
    have ho : o = ⟨p.name⟩ := congrArg OID.mk hp.symm
    rw [List.nil_append, mapLoop, find_mapLoop_of_ne hpost, ho, OrdMap.find_set_self]
  | b :: pre, m => by rw [List.cons_append, mapLoop, find_mapLoop_last hp hpost pre]

/-! ## The accessors read one varbind -/

section
variable {vl : List Varbind} {o : OID} {p : Varbind}

theorem valueAt_of_lookup (h : lookup vl o = .ok p) : valueAt vl o = .ok p.val := by
  obtain ⟨q, hat, rfl⟩ := atOID_of_lookup h
  simp only [valueAt, hat]
  rfl

theorem asString_of_lookup (sprint : SprintValue) (h : lookup vl o = .ok p) :
    asString sprint vl o = .ok (valueText (sprint o p)) := by
  obtain ⟨q, hat, rfl⟩ := atOID_of_lookup h
  simp only [asString, hat]
  rfl

end

/-- **What the accessors without an argument read from `vl`**: the varbind `b`, and of its type. -/
structure ReadsOnly (sprint : SprintValue) (vl : List Varbind) (b : Varbind) : Prop where
  asnType   : asnTypeVoid vl = .ok b.type
  value     : value vl = .ok b.val
  getBool   : getBoolVoid vl = if b.type ≠ ASN_BOOLEAN then .error (notA ⟨b.name⟩ "boolean type")
    else (readLong b.val).map (fun n => n == 1)
  getLong   : getLongVoid vl = if b.type ≠ ASN_INTEGER then .error (notA ⟨b.name⟩ "numeric type")
    else readLong b.val
  getString : getStringVoid vl = if b.type ≠ ASN_OCTET_STR then .error (notA ⟨b.name⟩ "string") else .ok b.val
  getOID    : getOIDVoid vl = if b.type ≠ ASN_OBJECT_ID then .error (notA ⟨b.name⟩ "OID")
    else .ok ⟨(Bytes.words 8 (b.val.length / 8) b.val).map UInt64.ofNat⟩
  asString  : asStringVoid sprint vl = .ok (valueText (sprint ⟨b.name⟩ b))

theorem readsOnly_cons (sprint : SprintValue) (b : Varbind) (rest : List Varbind) :
    ReadsOnly sprint (b :: rest) b := by
  have h : lookup (b :: rest) ⟨b.name⟩ = .ok b := lookup_first_wins [] b rest (by simp)
  exact ⟨asnType_of_lookup h, valueAt_of_lookup h, getBool_of_lookup h, getLong_of_lookup h, getString_of_lookup h,
    getOID_of_lookup h, asString_of_lookup sprint h⟩

/-! ## The views agree -/

/-- **All views of a variable list name the same varbinds**, on every list and whatever the vector held before. -/
theorem views_agree (sprint : SprintValue) (vl : List Varbind) (v : VecOID) :
    let names := getOids vl v
    (∀ v', getOids vl v' = names) ∧ size vl = names.length ∧
    (∀ i, index vl i = [] ↔ size vl ≤ i) ∧ (∀ i, i < size vl → names[i]? = some (OID.ofVarlist (index vl i))) ∧
    (∀ o, o ∈ (getOidsSet vl).elems ↔ o ∈ names) ∧ (∀ o, o ∈ (getMap vl).keys ↔ o ∈ names) ∧
    (∀ o, contains vl o = true ↔ o ∈ names) ∧
    (∀ o, o ∈ names → ∃ p, atOID vl o = .ok p ∧ OID.ofVarlist p.vars = o) ∧
    (∀ o, o ∉ names → ∃ what, atOID vl o = .error (.exn ⟨.invalidArgument, what⟩)) ∧
    (∀ o, names[0]? = some o → firstOID vl = .ok o) ∧
    (names[0]? = none → ∃ what, firstOID vl = .error (.exn ⟨.logicError, what⟩)) ∧
    ∀ i b, vl[i]? = some b →
      (∀ v', getOids (index vl i) v' = names.drop i) ∧ ReadsOnly sprint (index vl i) b := by
  intro names
  have hnames : names = oidsOf vl := getOids_eq vl v
  refine ⟨fun v' => by rw [getOids_eq, hnames]; rfl, (length_getOids vl v).symm, fun i => ?_, fun i hi => ?_,
    fun o => ?_, fun o => ?_, fun o => ?_, fun o ho => ?_, fun o ho => ?_, fun o ho => ?_, fun hnil => ?_,
    fun i b hb => ?_⟩
  · rw [index_eq, List.drop_eq_nil_iff]
    rfl
  · rw [index_of_getElem (List.getElem?_eq_getElem hi), hnames, oidsOf, List.getElem?_map,
      List.getElem?_eq_getElem hi]
    rfl
  · rw [getOidsSet_eq, OrdSet.mem_ofList, hnames]
  · rw [getMap, mem_keys_mapLoop, OrdMap.keys_empty, mem_getOids]
    simp
  · rw [contains_iff, mem_getOids]
  · obtain ⟨pre, p, post, rfl, hp, hpre⟩ := exists_first (mem_getOids.1 ho)
    exact ⟨_, atOID_first hp hpre _, congrArg OID.mk hp⟩
  · exact ⟨_, atOID_none (fun h => ho (mem_getOids.2 h))⟩
  · cases vl with
    | nil => cases ho
    | cons p ps =>
      rw [hnames] at ho
      exact congrArg Except.ok (Option.some.inj ho)
  · cases vl with
    | nil => exact ⟨_, rfl⟩
    | cons p ps =>
      rw [hnames] at hnil
      cases hnil
  · refine ⟨fun v' => ?_, ?_⟩
    · rw [getOids_eq, index_eq, hnames, oidsOf, List.map_drop]
    · rw [index_of_getElem hb]
      exact readsOnly_cons sprint b _

/-! ## Where the map and the lookups part -/

/-- **The map and the lookups agree about `o`**: they lead to the same varbind, and what is read there is what the
accessors give. -/
def MapAgrees (vl : List Varbind) (o : OID) : Prop :=
  ∃ q, (getMap vl).find o = some q.vars ∧ atOID vl o = .ok q ∧ asnTypeVoid q.vars = asnType vl o ∧
    value q.vars = valueAt vl o ∧ getLongVoid q.vars = getLong vl o ∧ getStringVoid q.vars = getString vl o

theorem find_getMap_last {vl : List Varbind} {o : OID} (h : ∃ b ∈ vl, b.name = o.v) :
    ∃ pre p post, vl = pre ++ p :: post ∧ (∀ b ∈ post, b.name ≠ o.v) ∧
      ∀ (front : List Varbind) (m : MapOidVarList), (mapLoop m (front ++ vl)).find o = some (p :: post) := by
  have hrev : ∃ b ∈ vl.reverse, b.name = o.v := by simpa using h
  obtain ⟨post, p, pre, hsplit, hp, hpost⟩ := exists_first hrev
  have hpost : ∀ b ∈ post.reverse, b.name ≠ o.v := fun b hb => hpost b (List.mem_reverse.1 hb)
  have hvl : vl = pre.reverse ++ p :: post.reverse := by
    rw [← List.reverse_reverse vl, hsplit]
    simp
  refine ⟨pre.reverse, p, post.reverse, hvl, hpost, fun front m => ?_⟩
  rw [hvl, ← List.append_assoc, find_mapLoop_last hp hpost]

/-- **The map and the lookups agree about a name exactly when it occurs once**: of more varbinds of one name the map
holds the last and the lookups find the first. -/
theorem getMap_agrees_iff (vl : List Varbind) (o : OID) (ho : o ∈ getOids vl []) :
    MapAgrees vl o ↔ (getOids vl []).count o = 1 := by
  obtain ⟨pre, p, post, rfl, hp, hpre⟩ := exists_first (mem_getOids.1 ho)
  have hname : (⟨p.name⟩ : OID) = o := congrArg OID.mk hp
  have hat := atOID_first hp hpre post
  have hcount : (getOids (pre ++ p :: post) []).count o = 1 ↔ ¬ ∃ b ∈ post, b.name = o.v := by
    have hzero : ∀ l : List Varbind, (oidsOf l).count o = 0 ↔ ¬ ∃ b ∈ l, b.name = o.v := fun l => by
      rw [List.count_eq_zero, ← mem_getOids (v := []), getOids_eq]
      rfl
    have hpre0 := (hzero pre).2 (fun ⟨b, hb, hbo⟩ => hpre b hb hbo)
    rw [getOids_eq, List.map_append, List.count_append, List.map_cons, hname, List.count_cons_self, ← hzero post]
    unfold oidsOf at hpre0 ⊢
    omega
  rw [hcount]
  constructor
  · rintro ⟨q, hfind, hq, -⟩ hpost
    rw [hat] at hq
    cases hq
    obtain ⟨pre', p', post', hsplit, -, hlast⟩ := find_getMap_last hpost
    have hmap := hlast (pre ++ [p]) OrdMap.empty
    rw [List.append_assoc, List.singleton_append] at hmap
    have hlen := congrArg List.length (Option.some.inj (hfind.symm.trans hmap))
    rw [hsplit, List.length_cons, List.length_append, List.length_cons] at hlen
    omega
  · intro hpost
    have hfind := find_mapLoop_last hp (fun b hb hbo => hpost ⟨b, hb, hbo⟩) pre OrdMap.empty
    have hlook : lookup (pre ++ p :: post) o = .ok p := by
      rw [lookup, hat]
      rfl
    have hread := readsOnly_cons (fun _ _ => []) p post
    refine ⟨⟨p :: post, List.cons_ne_nil p post⟩, hfind, hat, hread.asnType.trans (asnType_of_lookup hlook).symm,
      hread.value.trans (valueAt_of_lookup hlook).symm, ?_, ?_⟩
    · rw [hread.getLong, getLong_of_lookup hlook, hname]
    · rw [hread.getString, getString_of_lookup hlook, hname]

theorem getMap_agrees_witness :
    let vl : List Varbind := [⟨[1, 3], ASN_INTEGER, [7, 0, 0, 0, 0, 0, 0, 0]⟩, ⟨[1, 4], ASN_NULL, []⟩]
    MapAgrees vl ⟨[1, 3]⟩ ↔ (getOids vl []).count ⟨[1, 3]⟩ = 1 :=
  getMap_agrees_iff _ ⟨[1, 3]⟩ (by decide)

/-- A name repeated at the end of the view: the lookup has its value and the map the endOfMibView behind it. -/
theorem getMap_disagrees :
    let vl : List Varbind := [⟨[1, 3], ASN_INTEGER, [7, 0, 0, 0, 0, 0, 0, 0]⟩, ⟨[1, 3], 130, []⟩]
    (⟨[1, 3]⟩ : OID) ∈ getOids vl [] ∧ asnType vl ⟨[1, 3]⟩ = .ok ASN_INTEGER ∧
      ((getMap vl).find ⟨[1, 3]⟩).map asnTypeVoid = some (.ok 130) ∧ ¬ MapAgrees vl ⟨[1, 3]⟩ := by
  refine ⟨by decide, rfl, rfl, ?_⟩
  rintro ⟨q, hfind, hat, -⟩
  cases hat
  exact absurd hfind (by decide)

end Varlist
end Snmppp
