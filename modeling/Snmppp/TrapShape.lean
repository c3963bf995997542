import Snmppp.Store
import Snmppp.TrapRelease
/-!
# TrapShape — a trap list keeps its first two varbinds

`createV2TrapVarlist` puts sysUpTime.0 and snmpTrapOID.0 in front; `add` calls only append behind them, so whatever is
added later, under whatever name, they stay first and second, and the value of snmpTrapOID.0 reads back as the OID of
the trap.
-/
namespace Snmppp

theorem words_oid (l : List oid) :
    let bytes := l.flatMap (fun n => Bytes.ofNat 8 n.toNat)
    (Bytes.words 8 (bytes.length / 8) bytes).map UInt64.ofNat = l := by
  intro bytes
  have hlen : bytes.length / 8 = l.length := by
    rw [Bytes.length_flatMap]
    exact Nat.mul_div_cancel _ (by decide)
  rw [hlen, Bytes.words_flatMap 8 UInt64.toNat (fun n => n.toNat_lt), List.map_map]
  calc l.map (UInt64.ofNat ∘ UInt64.toNat) = l.map id := List.map_congr_left (fun n _ => UInt64.ofNat_toNat)
    _ = l := List.map_id l

theorem sysUpTime_v : (OID.ofCommon .kSysUpTime).v = [1, 3, 6, 1, 2, 1, 1, 3, 0] := by decide

theorem trap_v : (OID.ofCommon .kTrap).v = [1, 3, 6, 1, 6, 3, 1, 1, 4, 1, 0] := by decide

/-- **snmpTrapOID.0 of a trap list reads as the OID of the trap**, whatever stands behind the first two varbinds. -/
theorem getOID_trapVarbinds (env : NetSnmp) (hcopy : ∀ s, env.copyValue ASN_OBJECT_ID s = s) (o : OID)
    (uptime : Int64) (rest : List Varbind) :
    Varlist.getOID (trapVarbinds env o uptime ++ rest) (OID.ofCommon .kTrap) = .ok o := by
  obtain ⟨b₁, b₂, hsplit, hname₁, hname₂, htype, hval⟩ : ∃ b₁ b₂, trapVarbinds env o uptime = [b₁, b₂] ∧
      b₁.name = (OID.ofCommon .kSysUpTime).v ∧ b₂.name = (OID.ofCommon .kTrap).v ∧ b₂.type = ASN_OBJECT_ID ∧
      b₂.val = o.v.flatMap (fun n => Bytes.ofNat 8 n.toNat) := ⟨_, _, rfl, rfl, rfl, rfl, hcopy _⟩
  have hne : ∀ b ∈ [b₁], b.name ≠ b₂.name := by
    simp only [List.mem_singleton, forall_eq, hname₁, hname₂, sysUpTime_v, trap_v]
    decide
  have hfound := Varlist.lookup_first_wins [b₁] b₂ rest hne
  rw [hname₂] at hfound
  have hget := Varlist.getOID_of_lookup hfound
  rw [if_neg (not_not_intro htype), hval, words_oid] at hget
  rw [hsplit]
  exact hget

/-- **A trap list keeps its shape under any extension.**  Whatever run of `add` calls the list `createV2TrapVarlist`
returned goes through, its first varbind is sysUpTime.0 as TIMETICKS, its second snmpTrapOID.0 as OBJECT_ID with the
OID of the trap, and `sendV2Trap` sends it in its order. -/
theorem trap_list_keeps_shape (env : NetSnmp) (hcopy : ∀ s, env.copyValue ASN_OBJECT_ID s = s) (w : World) (o : OID)
    (ho : o.empty = false) (uptime : Int64) (hadds : ∀ i, i < 2 → env.addVariable (w.calls + i) = true)
    (cs : List AddCall) :
    ∃ v₀ w₀, createV2TrapVarlist env o uptime w = (.ok v₀, w₀) ∧
      let run := Run.trace (cs.map (·.onVarlist env)) (w₀, v₀)
      ∃ b₁ b₂ rest,
        let vs := b₁ :: b₂ :: rest
        run.2.1.vars run.2.2.varlist = some vs ∧
          b₁.name = [1, 3, 6, 1, 2, 1, 1, 3, 0] ∧ b₁.type = ASN_TIMETICKS ∧
          b₂.name = [1, 3, 6, 1, 6, 3, 1, 1, 4, 1, 0] ∧ b₂.type = ASN_OBJECT_ID ∧
          Varlist.getOID vs (OID.ofCommon .kTrap) = .ok o ∧ 2 ≤ Varlist.size vs ∧
          let sent := sendV2Trap env run.2
          let rc := env.sendTraps run.2.1.calls
          trapsIn (run.2.1.since sent.2.1) = [(vs, rc)] ∧
            sent.1 = (if rc = 0 then .ok () else .error (.exn (trapError rc))) ∧
            sent.1 ≠ .error (.exn (invalidArgument "Variable list is too small to be a valid SNMPv2 trap.")) := by
  obtain ⟨v₀, w₀, xs, hmade, -, hgrow, hboth, -⟩ := createV2TrapVarlist_made env w o uptime ho
  have hxs : xs = trapVarbinds env o uptime := hboth ⟨hadds 0 (by decide), hadds 1 (by decide)⟩
  have hv₀ : w₀.vars v₀.varlist = some (trapVarbinds env o uptime) := by
    rw [← hxs]
    exact hgrow.vars [] rfl
  obtain ⟨hruns, -⟩ := AddCall.trace_onVarlist env cs w₀ v₀ _ hv₀
  refine ⟨v₀, w₀, hmade, _, _, _, hruns.vars _ hv₀, sysUpTime_v, rfl, trap_v, rfl,
    getOID_trapVarbinds env hcopy o uptime _, Nat.le_add_left 2 _, ?_⟩
  rw [sendV2Trap_sent env (hruns.vars _ hv₀) (Nat.le_add_left 2 _)]
  refine ⟨trapsIn_since_trap (World.log_freeList _ _), rfl, ?_⟩
  split
  · simp
  · intro hc
    have hkind := congrArg (fun r => match r with | .error (.exn (e : Exc)) => e.kind | _ => .invalidArgument) hc
    cases hkind

theorem trap_list_keeps_shape_witness :
    let env := NetSnmp.working (fun _ => .timeout)
    ∃ v₀ w₀, createV2TrapVarlist env ⟨[1, 3, 6, 1]⟩ 100 World.start = (.ok v₀, w₀) ∧
      ∃ vs, (Run.trace [AddCall.onVarlist env (.addNullVar ⟨[1, 3, 6, 1, 6, 3, 1, 1, 4, 1, 0]⟩)] (w₀, v₀)).2.1.vars
          (Run.trace [AddCall.onVarlist env (.addNullVar ⟨[1, 3, 6, 1, 6, 3, 1, 1, 4, 1, 0]⟩)] (w₀, v₀)).2.2.varlist
          = some vs ∧
        Varlist.getOID vs (OID.ofCommon .kTrap) = .ok ⟨[1, 3, 6, 1]⟩ := by
  intro env
  obtain ⟨v₀, w₀, hmade, b₁, b₂, rest, hvs, -, -, -, -, hget, -⟩ :=
    trap_list_keeps_shape env (fun _ => rfl) World.start ⟨[1, 3, 6, 1]⟩ rfl 100 (fun _ _ => rfl)
      [.addNullVar ⟨[1, 3, 6, 1, 6, 3, 1, 1, 4, 1, 0]⟩]
  exact ⟨v₀, w₀, hmade, _, hvs, hget⟩

end Snmppp
