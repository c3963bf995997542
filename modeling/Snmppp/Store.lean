import Snmppp.Adding
/-!
# Store — a variable list is an append-only store with first-wins lookups

`at` finds the first varbind of a name and every typed getter reads that one (`Varlist.lookup`), so what stands behind
it in the list does not matter.  With the run lemma of the `add` methods this speaks of whole runs
(`Varlist.adds_first_wins`).
-/
namespace Snmppp

def oidsOf (vs : List Varbind) : VecOID := vs.map (fun p => ⟨p.name⟩)

theorem getOidsSet_eq (vs : List Varbind) : Varlist.getOidsSet vs = OrdSet.ofList (oidsOf vs) := by
  rw [Varlist.getOidsSet, OrdSet.ofList, oidsOf, List.foldl_map]

namespace Varlist

theorem getOids_eq (vl : List Varbind) (v : VecOID) : getOids vl v = vl.map (fun p => ⟨p.name⟩) := by
  have hfold : ∀ (vl : List Varbind) (v : VecOID),
      vl.foldl (fun (v : VecOID) p => v ++ [⟨p.name⟩]) v = v ++ vl.map (fun p => ⟨p.name⟩) := by
    intro vl
    induction vl with
    | nil => simp
    | cons p vl ih => intro v; rw [List.foldl_cons, ih, List.map_cons, List.append_assoc, List.singleton_append]
  rw [getOids, hfold, List.take_zero, List.nil_append]

def lookup (vl : List Varbind) (o : OID) : Res Varbind := (atOID vl o).map Varbinds.first

theorem find_first_wins (pre : List Varbind) (p : Varbind) (post : List Varbind)
    (hpre : ∀ b ∈ pre, b.name ≠ p.name) : find (pre ++ p :: post) ⟨p.name⟩ = p :: post := by
  induction pre with
  | nil => rw [List.nil_append, find, if_pos rfl]
  | cons b pre ih =>
    have hb : p.name ≠ b.name := Ne.symm (hpre b (by simp))
    rw [List.cons_append, find, if_neg (fun h => hb (by simpa using h)), ih (fun x hx => hpre x (by simp [hx]))]

/-- **First wins**: a lookup finds the varbind before which there is none of its name. -/
theorem lookup_first_wins (pre : List Varbind) (p : Varbind) (post : List Varbind)
    (hpre : ∀ b ∈ pre, b.name ≠ p.name) : lookup (pre ++ p :: post) ⟨p.name⟩ = .ok p := by
  unfold lookup atOID
  rw [find_first_wins pre p post hpre]
  rfl

/-! ## The getters read what the lookup finds -/

section
variable {vl : List Varbind} {o : OID} {p : Varbind}

theorem atOID_of_lookup (h : lookup vl o = .ok p) : ∃ q, atOID vl o = .ok q ∧ q.first = p := by
  unfold lookup at h
  cases hat : atOID vl o with
  | error e => rw [hat] at h; cases h
  | ok q =>
    rw [hat] at h
    exact ⟨q, rfl, by simpa [Except.map] using h⟩

theorem asnType_of_lookup (h : lookup vl o = .ok p) : asnType vl o = .ok p.type := by
  obtain ⟨q, hat, rfl⟩ := atOID_of_lookup h
  simp only [asnType, hat]
  rfl

theorem getBool_of_lookup (h : lookup vl o = .ok p) :
    getBool vl o = if p.type ≠ ASN_BOOLEAN then .error (notA o "boolean type")
      else (readLong p.val).map (fun n => n == 1) := by
  obtain ⟨q, hat, rfl⟩ := atOID_of_lookup h
  simp only [getBool, hat]
  rfl

theorem getLong_of_lookup (h : lookup vl o = .ok p) :
    getLong vl o = if p.type ≠ ASN_INTEGER then .error (notA o "numeric type") else readLong p.val := by
  obtain ⟨q, hat, rfl⟩ := atOID_of_lookup h
  simp only [getLong, hat]
  rfl

theorem getString_of_lookup (h : lookup vl o = .ok p) :
    getString vl o = if p.type ≠ ASN_OCTET_STR then .error (notA o "string") else .ok p.val := by
  obtain ⟨q, hat, rfl⟩ := atOID_of_lookup h
  simp only [getString, hat]
  rfl

theorem getOID_of_lookup (h : lookup vl o = .ok p) :
    getOID vl o = if p.type ≠ ASN_OBJECT_ID then .error (notA o "OID")
      else .ok ⟨(Bytes.words 8 (p.val.length / 8) p.val).map UInt64.ofNat⟩ := by
  obtain ⟨q, hat, rfl⟩ := atOID_of_lookup h
  simp only [getOID, hat]
  rfl

end

theorem readLong_ofNat (n : Int64) : readLong (Bytes.ofNat 8 n.toUInt64.toNat) = .ok n := by
  have hlen : (Bytes.ofNat 8 n.toUInt64.toNat).length = 8 := Bytes.length_ofNat _ _
  have hlt : n.toUInt64.toNat < 256 ^ 8 := n.toUInt64.toNat_lt
  rw [readLong, if_neg (by omega), List.take_of_length_le (by omega), Bytes.toNat_ofNat, Nat.mod_eq_of_lt hlt]
  congr
  apply Int64.toBitVec_inj.1
  apply BitVec.eq_of_toNat_eq
  simp

/-! ## Whole runs -/

/-- **What the lookups answer about the OID of `c`** when `c` was its earliest successful add. -/
structure Answers (env : NetSnmp) (vs : List Varbind) (c : AddCall) : Prop where
  found     : ∃ q, atOID vs c.oid = .ok q ∧ q.first = c.varbind env
  type      : asnType vs c.oid = .ok c.type
  long      : ∀ o n, c = .addIntegerVar o n → getLong vs o = .ok n.toInt64
  notLong   : c.type ≠ ASN_INTEGER → ∃ what, getLong vs c.oid = .error (.exn ⟨.invalidArgument, what⟩)
  string    : ∀ o s, c = .addOctetStringVar o s → getString vs o = .ok s
  notString : c.type ≠ ASN_OCTET_STR → ∃ what, getString vs c.oid = .error (.exn ⟨.invalidArgument, what⟩)

section
variable {env : NetSnmp}
  (hint : ∀ n : Int32,
    env.copyValue ASN_INTEGER (Bytes.ofNat 4 n.toUInt32.toNat) = Bytes.ofNat 8 n.toInt64.toUInt64.toNat)
  (hoctets : ∀ s, env.copyValue ASN_OCTET_STR s = s)
include hint hoctets

theorem answers_of_lookup {vs : List Varbind} {c : AddCall} (h : lookup vs c.oid = .ok (c.varbind env)) :
    Answers env vs c where
  found     := atOID_of_lookup h
  type      := asnType_of_lookup h
  long      := fun o n hc => by
    subst hc
    have hval : ((AddCall.addIntegerVar o n).varbind env).val = Bytes.ofNat 8 n.toInt64.toUInt64.toNat := hint n
    calc getLong vs (AddCall.addIntegerVar o n).oid
        = readLong ((AddCall.addIntegerVar o n).varbind env).val :=
          (getLong_of_lookup h).trans (if_neg (not_not_intro rfl))
      _ = .ok n.toInt64 := by rw [hval, readLong_ofNat]
  notLong   := fun ht => ⟨_, (getLong_of_lookup h).trans (if_pos ht)⟩
  string    := fun o s hc => by
    subst hc
    have hval : ((AddCall.addOctetStringVar o s).varbind env).val = s := hoctets s
    calc getString vs (AddCall.addOctetStringVar o s).oid
        = .ok ((AddCall.addOctetStringVar o s).varbind env).val :=
          (getString_of_lookup h).trans (if_neg (not_not_intro rfl))
      _ = .ok s := by rw [hval]
  notString := fun ht => ⟨_, (getString_of_lookup h).trans (if_pos ht)⟩

end

/-- The earliest of the calls that name `o`, as a lookup in their varbinds, with anything behind them, finds it. -/
theorem lookup_varbinds (env : NetSnmp) {calls : List AddCall} {o : OID} (ho : o ∈ calls.map (·.oid)) :
    ∃ pre c post, calls = pre ++ c :: post ∧ c.oid = o ∧ (∀ b ∈ pre, b.oid ≠ o) ∧
      ∀ xs, lookup (calls.map (·.varbind env) ++ xs) o = .ok (c.varbind env) := by
  obtain ⟨names, rest, hsplit, hfirst⟩ := List.eq_append_cons_of_mem ho
  obtain ⟨pre, post', rfl, rfl, hpost'⟩ := List.map_eq_append_iff.1 hsplit
  obtain ⟨c, post, rfl, rfl, -⟩ := List.map_eq_cons_iff.1 hpost'
  have hpre : ∀ b ∈ pre, b.oid ≠ c.oid := fun b hb he => hfirst (List.mem_map.2 ⟨b, hb, he⟩)
  refine ⟨pre, c, post, rfl, rfl, hpre, fun xs => ?_⟩
  rw [List.map_append, List.map_cons, List.append_assoc, List.cons_append]
  apply lookup_first_wins _ (c.varbind env)
  intro p hp
  obtain ⟨b, hb, rfl⟩ := List.mem_map.1 hp
  exact fun he => hpre b hb (congrArg OID.mk he)

/-- **A variable list is an append-only store whose lookups are first-wins**, over whole runs of `add` calls from an
empty list, whichever calls throw: it lists the names of the calls that returned, in order; of every such name the
lookups answer by the earliest of its calls; and no later call changes an answer. -/
theorem adds_first_wins (env : NetSnmp)
    (hint : ∀ n : Int32,
      env.copyValue ASN_INTEGER (Bytes.ofNat 4 n.toUInt32.toNat) = Bytes.ofNat 8 n.toInt64.toUInt64.toNat)
    (hoctets : ∀ s, env.copyValue ASN_OCTET_STR s = s) (w : World) (cs : List AddCall) :
    let run := Run.trace (cs.map (·.onVarlist env)) (w, new)
    let added := Run.returned cs run.1
    (∀ r ∈ run.1, r ≠ .error .fault) ∧
    ∃ vs, run.2.1.vars run.2.2.varlist = some vs ∧
      (∀ v, getOids vs v = added.map (·.oid)) ∧
      (∀ o ∈ added.map (·.oid), ∃ pre c post, added = pre ++ c :: post ∧ c.oid = o ∧ (∀ b ∈ pre, b.oid ≠ o) ∧
        Answers env vs c) ∧
      ∀ cs' : List AddCall,
        let later := Run.trace (cs'.map (·.onVarlist env)) run.2
        ∃ xs, later.2.1.vars later.2.2.varlist = some (vs ++ xs) ∧
          ∀ o ∈ added.map (·.oid), lookup (vs ++ xs) o = lookup vs o ∧ asnType (vs ++ xs) o = asnType vs o ∧
            getBool (vs ++ xs) o = getBool vs o ∧ getLong (vs ++ xs) o = getLong vs o ∧
            getString (vs ++ xs) o = getString vs o ∧ getOID (vs ++ xs) o = getOID vs o := by
  intro run added
  obtain ⟨hgrow, hnf⟩ := AddCall.trace_onVarlist env cs w new [] rfl
  have hvs : run.2.1.vars run.2.2.varlist = some (added.map (·.varbind env)) := by
    rw [hgrow.vars [] rfl, List.nil_append]
  refine ⟨hnf, _, hvs, fun v => ?_, fun o ho => ?_, fun cs' => ?_⟩
  · rw [getOids_eq, List.map_map]
    rfl
  · obtain ⟨pre, c, post, hsplit, rfl, hpre, hfind⟩ := lookup_varbinds env ho
    have hfound := hfind []
    rw [List.append_nil] at hfound
    exact ⟨pre, c, post, hsplit, rfl, hpre, answers_of_lookup hint hoctets hfound⟩
  · obtain ⟨hgrow', -⟩ := AddCall.trace_onVarlist env cs' run.2.1 run.2.2 _ hvs
    refine ⟨_, hgrow'.vars _ hvs, fun o ho => ?_⟩
    obtain ⟨_, c, _, -, -, -, hfind⟩ := lookup_varbinds env ho
    have hfound := hfind []
    rw [List.append_nil] at hfound
    have hlater := hfind ((Run.returned cs' (Run.trace (cs'.map (·.onVarlist env)) run.2).1).map (·.varbind env))
    refine ⟨hlater.trans hfound.symm, ?_, ?_, ?_, ?_, ?_⟩
    · rw [asnType_of_lookup hlater, asnType_of_lookup hfound]
    · rw [getBool_of_lookup hlater, getBool_of_lookup hfound]
    · rw [getLong_of_lookup hlater, getLong_of_lookup hfound]
    · rw [getString_of_lookup hlater, getString_of_lookup hfound]
    · rw [getOID_of_lookup hlater, getOID_of_lookup hfound]

theorem widenInteger_int (n : Int32) :
    widenInteger ASN_INTEGER (Bytes.ofNat 4 n.toUInt32.toNat) = Bytes.ofNat 8 n.toInt64.toUInt64.toNat := by
  have hlt : n.toUInt32.toNat < 256 ^ 4 := n.toUInt32.toNat_lt
  rw [widenInteger, if_pos ⟨rfl, Bytes.length_ofNat _ _⟩, Bytes.toNat_ofNat, Nat.mod_eq_of_lt hlt,
    UInt32.ofNat_toNat, Int32.toInt32_toUInt32]

theorem adds_first_wins_witness :
    let env := { NetSnmp.working (fun _ => .timeout) with addVariable := fun n => n != 1 }
    let cs := [AddCall.addIntegerVar ⟨[1, 3]⟩ (-7), .addNullVar ⟨[1, 3]⟩, .addNullVar ⟨[]⟩, .addNullVar ⟨[1, 3]⟩]
    let run := Run.trace (cs.map (·.onVarlist env)) (World.start, new)
    ∃ vs, run.2.1.vars run.2.2.varlist = some vs ∧
      ∀ v, getOids vs v = (Run.returned cs run.1).map (·.oid) := by
  intro env cs run
  obtain ⟨-, vs, hvs, hoids, -⟩ := adds_first_wins env widenInteger_int (fun _ => rfl) World.start cs
  exact ⟨vs, hvs, hoids⟩

end Varlist
end Snmppp
