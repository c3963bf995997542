import Snmppp.MibExact
/-!
# MibModule — the module of an OID (OID.cpp)

`getModule` looks up the module of the node that `getTree` returns; `mibModuleName` and `mibModuleFile` are two of its
texts.  Asked exactly they know only the OIDs of the MIB.  Asked otherwise they answer for any OID what they answer
exactly for the nearest of its parents that is one (`OID.module_of_nearest`).
-/
namespace Snmppp

/-- The fields of net-snmp's `struct module` that are read here. -/
structure Module where
  name : List Char
  file : List Char
deriving DecidableEq, Repr

/-- A MIB with the `modid` of each node, and `find_module`. -/
structure MibModules extends Mib where
  modid      : TreePtr → Int
  findModule : Int → Option Module

namespace OID

def getModule (mib : MibModules) (exact : Bool) (o : OID) : Res (Option Module) := do
  match ← getTree mib.toMib exact o with
  | none   => pure none
  | some t => pure (mib.findModule (mib.modid t))

/-- A text of the module, empty where there is none. -/
def moduleText (text : Module → List Char) (mib : MibModules) (exact : Bool) (o : OID) : Res (List Char) := do
  match ← getModule mib exact o with
  | none   => pure []
  | some m => pure (text m)

def mibModuleName : MibModules → Bool → OID → Res (List Char) := moduleText Module.name

def mibModuleFile : MibModules → Bool → OID → Res (List Char) := moduleText Module.file

end OID

namespace Mib

/-- The MIB has a node for `o`. -/
def Known (mib : Mib) (o : OID) : Prop := ∃ t, mib.RootPath t o

/-- No two nodes stand at one place. -/
def OnePlace (mib : Mib) : Prop := ∀ t t' o, mib.RootPath t o → mib.RootPath t' o → t = t'

/-- **The nearest OID of the MIB** is `k` levels up from `o`. -/
structure Nearest (mib : Mib) (o : OID) (k : Nat) : Prop where
  known : mib.Known (o.parent k)
  below : ∀ j < k, ¬ mib.Known (o.parent j)

theorem isoOrg_iso : isoOrg.tree.Path (some 0) ([] ++ [⟨some "iso".toList, 1, none⟩]) := .node rfl .top

theorem isoOrg_org : isoOrg.tree.Path (some 1) ([⟨some "iso".toList, 1, none⟩] ++ [⟨some "org".toList, 3, some 0⟩]) :=
  .node rfl isoOrg_iso

/-- Its nodes are those of `.1` and `.1.3`. -/
theorem isoOrg_rootPath {t : TreePtr} {o : OID} (h : isoOrg.RootPath t o) :
    t = 0 ∧ o.v = [1] ∨ t = 1 ∧ o.v = [1, 3] := by
  obtain ⟨c, hpath, hc⟩ := h
  match t, hpath with
  | 0, hpath => exact .inl ⟨rfl, by rw [← hc, hpath.unique isoOrg_iso]; rfl⟩
  | 1, hpath => exact .inr ⟨rfl, by rw [← hc, hpath.unique isoOrg_org]; rfl⟩
  | t + 2, .node hx _ => cases hx

theorem isoOrg_finds_all (o : OID) : ∃ c, isoOrg.Finds o c := by
  obtain ⟨v⟩ := o
  by_cases horg : [1, 3] <+: v
  · obtain ⟨rest, rfl⟩ := horg
    exact ⟨_, ⟨isoOrg_org, ⟨rest, rfl⟩⟩, fun _ _ hpath _ => hpath.length_le.1⟩
  have hnodes : ∀ t c', isoOrg.tree.Path (some t) c' → c'.map TreeNode.subid <+: v → c'.map TreeNode.subid = [1] := by
    intro t c' hpath hspells
    rcases isoOrg_rootPath ⟨c', hpath, rfl⟩ with ⟨-, hc⟩ | ⟨-, hc⟩
    · exact hc
    · exact absurd (hc ▸ hspells) horg
  by_cases hiso : [1] <+: v
  · obtain ⟨rest, rfl⟩ := hiso
    have hget : isoOrg.getTree ⟨[1] ++ rest⟩ = some 0 := by
      cases rest with
      | nil => rfl
      | cons n rest =>
        have hn : n ≠ 3 := fun hn => horg ⟨rest, by rw [hn]; rfl⟩
        simp [isoOrg, hn]
    refine ⟨_, ⟨hget ▸ isoOrg_iso, ⟨rest, rfl⟩⟩, fun t c' hpath hspells => ?_⟩
    have hlen := congrArg List.length (hnodes t c' hpath hspells)
    rw [List.length_map] at hlen
    exact hlen.le
  · have hget : isoOrg.getTree ⟨v⟩ = none := by
      cases v with
      | nil => rfl
      | cons n rest =>
        have hn : n ≠ 1 := fun hn => hiso ⟨rest, by rw [hn]; rfl⟩
        simp [isoOrg, hn]
    exact ⟨[], ⟨hget ▸ .top, List.nil_prefix⟩, fun t c' hpath hspells =>
      absurd (hnodes t c' hpath hspells ▸ hspells) hiso⟩

theorem isoOrg_onePlace : isoOrg.OnePlace := fun t t' o h h' => by
  rcases isoOrg_rootPath h with ⟨rfl, hv⟩ | ⟨rfl, hv⟩ <;> rcases isoOrg_rootPath h' with ⟨rfl, hv'⟩ | ⟨rfl, hv'⟩
  · rfl
  · cases hv.symm.trans hv'
  · cases hv.symm.trans hv'
  · rfl

end Mib

/-- `iso` and `org` are of one module. -/
def MibModules.isoOrg : MibModules where
  toMib      := Mib.isoOrg
  modid _    := 1
  findModule := fun i => if i = 1 then some ⟨"SNMPv2-SMI".toList, "SNMPv2-SMI.txt".toList⟩ else none

namespace Mib

variable {mib : Mib} {o : OID} {c : List TreeNode} {t : TreePtr} {k : Nat}

theorem RootPath.nonempty (h : mib.RootPath t o) : o.empty = false := by
  obtain ⟨c, hpath, hc⟩ := h
  cases hpath with
  | node => exact List.isEmpty_eq_false_iff.2 (fun hv => by simp [hv] at hc)

/-- **No OID between `o` and the node found for it is known.** -/
theorem Finds.above (hc : mib.Finds o c) (h : mib.Known (o.parent k)) : o.size ≤ c.length + k := by
  obtain ⟨t, c', hpath, hspells⟩ := h
  rw [OID.parent_v] at hspells
  have hdeep := hc.deepest t c' hpath (hspells ▸ List.take_prefix _ _)
  have hlen := congrArg List.length hspells
  rw [List.length_map, Stem.length_rdrop] at hlen
  unfold OID.size
  omega

/-- **The node found for `o`** stands as many levels up as it is less deep. -/
theorem Spells.rootPath (hc : mib.Spells o c) (ht : mib.getTree o = some t) :
    mib.RootPath t (o.parent (o.size - c.length)) := by
  obtain ⟨rest, hrest⟩ := hc.spells
  have hlen : c.length + rest.length = o.size := by
    rw [OID.size, ← hrest, List.length_append, List.length_map]
  have hdrop : o.size - c.length = rest.length := by omega
  refine ⟨c, ht ▸ hc.path, ?_⟩
  rw [OID.parent_v, hdrop, ← hrest, Stem.rdrop_append_length]

/-- **The node found for an OID is that of the nearest OID of the MIB.** -/
theorem Nearest.found (h : mib.Nearest o k) (hc : mib.Finds o c) :
    ∃ t, mib.getTree o = some t ∧ mib.RootPath t (o.parent k) := by
  have hdeep := hc.above h.known
  cases ht : mib.getTree o with
  | none =>
    obtain ⟨t, hk⟩ := h.known
    have hpath := hc.path
    rw [ht] at hpath
    cases hpath
    have hpos := OID.size_pos hk.nonempty
    rw [OID.size, OID.parent_v, Stem.length_rdrop] at hpos
    exact absurd hdeep (by unfold OID.size; simp only [List.length_nil]; omega)
  | some t =>
    have hroot := hc.toSpells.rootPath ht
    have hle : k ≤ o.size - c.length := Nat.le_of_not_lt (fun hlt => h.below _ hlt ⟨t, hroot⟩)
    have hk : o.size - c.length = k := by omega
    exact ⟨t, rfl, hk ▸ hroot⟩

end Mib

namespace OID

/-- **An OID is answered for by the nearest OID of the MIB**: the answer is there, without one it is `nothing`, and the
exact answer for an OID that is not of the MIB is `nothing`. -/
structure AnsweredByNearest {α : Type} (mib : Mib) (o : OID) (ask : Bool → OID → Res α) (nothing : α) : Prop where
  returns : ∀ exact, ∃ a, ask exact o = .ok a
  nearest : ∀ k, mib.Nearest o k → ask false o = ask true (o.parent k)
  unknown : (∀ k, ¬ mib.Known (o.parent k)) → ask false o = .ok nothing
  exact   : ¬ mib.Known o → ask true o = .ok nothing

/-- **What is made of an answer** is answered for by the nearest, too. -/
theorem AnsweredByNearest.map {α β : Type} {mib : Mib} {o : OID} {ask : Bool → OID → Res α} {nothing : α}
    (h : AnsweredByNearest mib o ask nothing) {ask' : Bool → OID → Res β} {f : α → β}
    (hask : ∀ exact o, ask' exact o = (ask exact o).map f) : AnsweredByNearest mib o ask' (f nothing) where
  returns := fun exact => by
    obtain ⟨a, ha⟩ := h.returns exact
    exact ⟨f a, by rw [hask, ha]; rfl⟩
  nearest := fun k hk => by rw [hask, hask, h.nearest k hk]
  unknown := fun hno => by rw [hask, h.unknown hno]; rfl
  exact   := fun hno => by rw [hask, h.exact hno]; rfl

theorem getTree_empty {mib : Mib} {o : OID} (ho : o.empty = true) (exact : Bool) : getTree mib exact o = .ok none := by
  rw [getTree, if_pos ho]

/-- **The tree of an OID is that of the nearest OID of the MIB.** -/
theorem getTree_of_nearest {mib : Mib} (hget : ∀ o : OID, o.empty = false → ∃ c, mib.Finds o c) (hone : mib.OnePlace)
    (o : OID) : AnsweredByNearest mib o (getTree mib) none where
  returns := fun exact => by
    by_cases ho : o.empty = true
    · exact ⟨none, getTree_empty ho exact⟩
    · rw [Bool.not_eq_true] at ho
      obtain ⟨c, hc⟩ := hget o ho
      cases exact
      · exact ⟨_, getTree_false ho⟩
      · exact ⟨_, getTree_true ho hc.toSpells⟩
  nearest := fun k hk => by
    obtain ⟨t, ht⟩ := hk.known
    have hparent := ht.nonempty
    have ho : o.empty = false := by
      refine List.isEmpty_eq_false_iff.2 (fun hv => v_ne_nil hparent ?_)
      rw [parent_v, hv, List.rdrop_nil]
    obtain ⟨c, hc⟩ := hget o ho
    obtain ⟨t₀, hfound, hroot⟩ := hk.found hc
    obtain ⟨c', hc'⟩ := hget _ hparent
    obtain ⟨r, hr, hsome, hexact⟩ := getTree_exact hparent hc'
    obtain ⟨t₁, rfl⟩ := Option.ne_none_iff_exists'.1 (hsome.2 hk.known)
    rw [getTree_false ho, hfound, hr, hone t₀ t₁ _ hroot (hexact t₁ rfl).1]
  unknown := fun hno => by
    by_cases ho : o.empty = true
    · exact getTree_empty ho false
    · rw [Bool.not_eq_true] at ho
      obtain ⟨c, hc⟩ := hget o ho
      cases ht : mib.getTree o with
      | none   => rw [getTree_false ho, ht]
      | some t => exact absurd ⟨t, hc.toSpells.rootPath ht⟩ (hno _)
  exact   := fun hno => by
    by_cases ho : o.empty = true
    · exact getTree_empty ho true
    · rw [Bool.not_eq_true] at ho
      obtain ⟨c, hc⟩ := hget o ho
      obtain ⟨r, hr, hsome, -⟩ := getTree_exact ho hc
      rw [hr, not_ne_iff.1 (fun hr => hno (hsome.1 hr))]

/-- **The module of an OID**, its name and its file are those of the nearest OID of the MIB. -/
theorem module_of_nearest (mib : MibModules) (hget : ∀ o : OID, o.empty = false → ∃ c, mib.Finds o c)
    (hone : mib.OnePlace) (o : OID) :
    AnsweredByNearest mib.toMib o (getTree mib.toMib) none ∧ AnsweredByNearest mib.toMib o (getModule mib) none ∧
      AnsweredByNearest mib.toMib o (mibModuleName mib) [] ∧ AnsweredByNearest mib.toMib o (mibModuleFile mib) [] := by
  have htree := getTree_of_nearest hget hone o
  have hmodule : AnsweredByNearest mib.toMib o (getModule mib) none := by
    refine htree.map (f := fun t => t.bind (fun t => mib.findModule (mib.modid t))) (fun exact o => ?_)
    unfold getModule
    rcases getTree mib.toMib exact o with _ | _ | _ <;> rfl
  have htext : ∀ text, AnsweredByNearest mib.toMib o (moduleText text mib) [] := fun text => by
    refine hmodule.map (f := fun m => (m.map text).getD []) (fun exact o => ?_)
    unfold moduleText
    rcases getModule mib exact o with _ | _ | _ <;> rfl
  exact ⟨htree, hmodule, htext _, htext _⟩

/-- `.1.3.6.1` is answered for with the module of `.1.3`, and exactly not at all. -/
theorem module_of_nearest_org :
    let mib := MibModules.isoOrg
    mibModuleName mib false ⟨[1, 3, 6, 1]⟩ = mibModuleName mib true ⟨[1, 3]⟩ ∧
      mibModuleName mib true ⟨[1, 3]⟩ = .ok "SNMPv2-SMI".toList ∧ mibModuleName mib true ⟨[1, 3, 6, 1]⟩ = .ok [] := by
  intro mib
  have hnot : ∀ {o : OID}, 2 < o.size → ¬ Mib.isoOrg.Known o := fun hlt ⟨t, ht⟩ => by
    rcases Mib.isoOrg_rootPath ht with ⟨-, hv⟩ | ⟨-, hv⟩ <;> simp [size, hv] at hlt
  have hnearest : Mib.isoOrg.Nearest ⟨[1, 3, 6, 1]⟩ 2 :=
    ⟨⟨1, _, Mib.isoOrg_org, rfl⟩, fun j hj => hnot (by
      rw [size, parent_v, Stem.length_rdrop, List.length_cons, List.length_cons, List.length_cons,
        List.length_singleton]
      omega)⟩
  have hname := (module_of_nearest mib (fun o _ => Mib.isoOrg_finds_all o) Mib.isoOrg_onePlace ⟨[1, 3, 6, 1]⟩).2.2.1
  exact ⟨hname.nearest 2 hnearest, by decide, hname.exact (hnot (by decide))⟩

end OID
end Snmppp
