import Snmppp.ValueRun
import Mathlib.Algebra.BigOperators.Group.Finset.Basic
import Mathlib.Data.Fintype.Sum
/-!
# Locals — the variables of a program, and what they hold

A program has finitely many `PDU` and `Varlist` variables.  It and its values match when what the variables hold and
what has been left behind is all the memory there is, nothing held twice, and every variable says its value (`Matches`).
An operation on one variable, a function's result and an assignment each keep that, whatever the other variables hold.
-/
namespace Snmppp

open Arena (ofPtr Framed mem_ofPtr)

structure Locals (ι κ : Type) where
  pdu : ι → PDU
  vl  : κ → Varlist

namespace Value

structure Locals (ι κ : Type) where
  pdu : ι → Pdu
  vl  : κ → Vars

end Value

section
variable {ι κ : Type}

namespace Locals

def null : Locals ι κ := ⟨fun _ => PDU.null, fun _ => Varlist.new⟩

/-- What a variable holds. -/
def memAt (w : World) (l : Locals ι κ) : ι ⊕ κ → Mem
  | .inl i => (l.pdu i).mem w
  | .inr k => (l.vl k).mem

/-- A variable says its value. -/
def Says (w : World) (l : Locals ι κ) (u : Value.Locals ι κ) : ι ⊕ κ → Prop
  | .inl i => (l.pdu i).val w = u.pdu i
  | .inr k => w.vars (l.vl k).varlist = some (u.vl k)

/-- The variable `n` of `l` and `l'`, and of their values, is the same. -/
def Same (l l' : Locals ι κ) (u u' : Value.Locals ι κ) : ι ⊕ κ → Prop
  | .inl i => l'.pdu i = l.pdu i ∧ u'.pdu i = u.pdu i
  | .inr k => l'.vl k = l.vl k ∧ u'.vl k = u.vl k

end Locals

def Value.Locals.null : Value.Locals ι κ := ⟨fun _ => Pdu.null, fun _ => []⟩

/-! ## The frame -/

section
variable {w w' : World} {F m : Mem} {x : Net}

theorem PDU.frame {h : PDU} (hp : ∀ p ∈ (h.mem w).1, w'.pdus.cell p = w.pdus.cell p) : h.mem w' = h.mem w := by
  have hlist : h.list w' = h.list w := by
    unfold PDU.list
    cases hq : h.pdu with
    | none => rfl
    | some p =>
      rw [Option.bind_some, Option.bind_some, hp p]
      rw [PDU.mem, hq]
      exact Multiset.mem_singleton_self p
  rw [PDU.mem, PDU.mem, hlist]

theorem World.vars_frame {vl : Option VarPtr} (hl : ∀ a ∈ ofPtr vl, w'.lists.cell a = w.lists.cell a) :
    w'.vars vl = w.vars vl := by
  cases vl with
  | none => rfl
  | some a => rw [World.vars, World.vars, hl a (Multiset.mem_singleton_self a)]

theorem PDU.val_frame {h : PDU} (hp : ∀ p ∈ (h.mem w).1, w'.pdus.cell p = w.pdus.cell p)
    (hl : ∀ a ∈ (h.mem w).2, w'.lists.cell a = w.lists.cell a) : h.val w' = h.val w := by
  unfold PDU.val
  cases hq : h.pdu with
  | none => rfl
  | some p =>
    have hcell : w'.pdus.cell p = w.pdus.cell p := hp p (by rw [PDU.mem, hq]; exact Multiset.mem_singleton_self p)
    rw [Option.bind_some, Option.bind_some, World.request, World.request, hcell]
    cases hd : w.pdus.cell p with
    | none => rfl
    | some d =>
      rw [PDU.mem_of_cell hq hd] at hl
      rw [Option.bind_some, Option.bind_some, World.vars_frame hl]

namespace Tracks

/-- **What the rest of the program holds becomes the frame.** -/
theorem widen {w₀ : World} (h : Tracks w₀ 0 w (m + F) x) : Tracks w F w m x := by
  obtain ⟨lost, hp, hl, hfp, hfl⟩ := h.mem
  rw [Prod.fst_add, add_right_comm] at hfp
  rw [Prod.snd_add, add_right_comm] at hfl
  have hfp := hfp.widen
  have hfl := hfl.widen
  exact ⟨h.calls, h.out, lost, hp, hl, by rwa [Prod.fst_zero, add_zero] at hfp, by rwa [Prod.snd_zero, add_zero] at hfl⟩

/-- **The frame becomes part of what the program holds.** -/
theorem narrow {w₀ : World} (h : Tracks w₀ F w m x) : Tracks w 0 w (m + F) x := by
  obtain ⟨lost, hp, hl, hfp, hfl⟩ := h.mem
  refine ⟨h.calls, h.out, lost, hp, hl, Framed.refl ?_, Framed.refl ?_⟩
  · rw [Prod.fst_add, Prod.fst_zero, add_zero, add_right_comm]
    exact hfp.held
  · rw [Prod.snd_add, Prod.snd_zero, add_zero, add_right_comm]
    exact hfl.held

theorem pdu_same {w₀ : World} (h : Tracks w₀ F w m x) {p : PduPtr} (hp : p ∈ F.1) :
    w.pdus.cell p = w₀.pdus.cell p := by
  obtain ⟨_, -, -, hfp, -⟩ := h.mem
  exact hfp.frame p hp

theorem list_same {w₀ : World} (h : Tracks w₀ F w m x) {a : VarPtr} (ha : a ∈ F.2) :
    w.lists.cell a = w₀.lists.cell a := by
  obtain ⟨_, -, -, -, hfl⟩ := h.mem
  exact hfl.frame a ha

end Tracks

/-- **A variable outside a change** holds what it held, and says what it said. -/
theorem Locals.frame {l l' : Locals ι κ} {u u' : Value.Locals ι κ} {k : ι ⊕ κ} {o : Mem}
    (ho : F = l.memAt w k + o) (ht : Tracks w F w' m x) (hsame : Same l l' u u' k) (hsaid : l.Says w u k) :
    l'.memAt w' k = l.memAt w k ∧ l'.Says w' u' k := by
  have hp : ∀ p ∈ (l.memAt w k).1, w'.pdus.cell p = w.pdus.cell p := fun p hp =>
    ht.pdu_same (by rw [ho]; exact Multiset.mem_add.2 (.inl hp))
  have hl : ∀ a ∈ (l.memAt w k).2, w'.lists.cell a = w.lists.cell a := fun a ha =>
    ht.list_same (by rw [ho]; exact Multiset.mem_add.2 (.inl ha))
  cases k with
  | inl i =>
    obtain ⟨hpdu, hval⟩ := hsame
    simp only [memAt, Says, hpdu, hval] at hp hl hsaid ⊢
    exact ⟨PDU.frame hp, by rw [PDU.val_frame hp hl, hsaid]⟩
  | inr k =>
    obtain ⟨hvl, hval⟩ := hsame
    simp only [memAt, Says, hvl, hval] at hl hsaid ⊢
    exact ⟨trivial, by rw [World.vars_frame hl, hsaid]⟩

end

/-! ## What a program does with its variables -/

section
variable [DecidableEq ι] [DecidableEq κ] {α : Type}

namespace Locals

def onPdu (i : ι) (m : Method PDU α) : Method (Locals ι κ) α := fun s =>
  let r := m (s.1, s.2.pdu i)
  (r.1, (r.2.1, { s.2 with pdu := Function.update s.2.pdu i r.2.2 }))

def onVl (k : κ) (m : Method Varlist α) : Method (Locals ι κ) α := fun s =>
  let r := m (s.1, s.2.vl k)
  (r.1, (r.2.1, { s.2 with vl := Function.update s.2.vl k r.2.2 }))

def setPdu (j : ι) (q : PDU) : Method (Locals ι κ) Unit := fun s =>
  (.ok (), (s.1, { s.2 with pdu := Function.update s.2.pdu j q }))

def setVl (k : κ) (v : Varlist) : Method (Locals ι κ) Unit := fun s =>
  (.ok (), (s.1, { s.2 with vl := Function.update s.2.vl k v }))

end Locals

namespace Value.Locals

def onPdu (i : ι) (m : Method Pdu α) : Method (Locals ι κ) α := fun s =>
  let r := m (s.1, s.2.pdu i)
  (r.1, (r.2.1, { s.2 with pdu := Function.update s.2.pdu i r.2.2 }))

def onVl (k : κ) (m : Method Vars α) : Method (Locals ι κ) α := fun s =>
  let r := m (s.1, s.2.vl k)
  (r.1, (r.2.1, { s.2 with vl := Function.update s.2.vl k r.2.2 }))

/-- What the variable held is left behind. -/
def setPdu (j : ι) (v : Pdu) : Method (Locals ι κ) Unit := fun s =>
  (.ok (), (losePdu s.1 (s.2.pdu j), { s.2 with pdu := Function.update s.2.pdu j v }))

def setVl (k : κ) (vs : Vars) : Method (Locals ι κ) Unit := fun s =>
  (.ok (), (loseVars s.1 (s.2.vl k), { s.2 with vl := Function.update s.2.vl k vs }))

end Value.Locals

section
variable [Fintype ι] [Fintype κ]

namespace Locals

def mem (w : World) (l : Locals ι κ) : Mem := ∑ n, l.memAt w n

/-- What all variables but one hold. -/
def rest (w : World) (l : Locals ι κ) (n : ι ⊕ κ) : Mem := ∑ k ∈ Finset.univ.erase n, l.memAt w k

theorem mem_eq (w : World) (l : Locals ι κ) (n : ι ⊕ κ) : l.mem w = l.memAt w n + l.rest w n :=
  (Finset.add_sum_erase Finset.univ (l.memAt w) (Finset.mem_univ n)).symm

theorem rest_eq (w : World) (l : Locals ι κ) {n m : ι ⊕ κ} (h : m ≠ n) : ∃ o, l.rest w n = l.memAt w m + o :=
  ⟨_, (Finset.add_sum_erase _ (l.memAt w) (Finset.mem_erase.2 ⟨h, Finset.mem_univ m⟩)).symm⟩

theorem rest_congr {w w' : World} {l l' : Locals ι κ} {n : ι ⊕ κ} (h : ∀ m, m ≠ n → l'.memAt w' m = l.memAt w m) :
    l'.rest w' n = l.rest w n :=
  Finset.sum_congr rfl (fun m hm => h m (Finset.ne_of_mem_erase hm))

end Locals

/-! ## A program and its values -/

/-- **The variables and the temporary memory `m` account for everything**, and every variable says its value. -/
structure Matches (m : Mem) (s : World × Locals ι κ) (y : Net × Value.Locals ι κ) : Prop where
  tracks : Tracks s.1 0 s.1 (m + s.2.mem s.1) y.1
  values : ∀ n, s.2.Says s.1 y.2 n

namespace Matches

variable {w w' : World} {l l' : Locals ι κ} {u u' : Value.Locals ι κ} {x x' : Net} {m m' : Mem}

/-- **One variable changes.** -/
theorem update {n : ι ⊕ κ} (h : Matches m (w, l) (x, u)) (hsame : ∀ k, k ≠ n → Locals.Same l l' u u' k)
    (ht : Tracks w (l.rest w n) w' (m' + l'.memAt w' n) x') (hsaid : l'.Says w' u' n) :
    Matches m' (w', l') (x', u') := by
  have hframe : ∀ k, k ≠ n → l'.memAt w' k = l.memAt w k ∧ l'.Says w' u' k := fun k hk => by
    obtain ⟨o, ho⟩ := l.rest_eq w hk
    exact Locals.frame ho ht (hsame k hk) (h.values k)
  refine ⟨?_, fun k => ?_⟩
  · show Tracks w' 0 w' (m' + l'.mem w') x'
    rw [l'.mem_eq w' n, Locals.rest_congr (fun k hk => (hframe k hk).1), ← add_assoc]
    exact ht.narrow
  · by_cases hk : k = n
    · rw [hk]
      exact hsaid
    · exact (hframe k hk).2

theorem updatePdu {i : ι} {h' : PDU} {v' : Value.Pdu} (h : Matches m (w, l) (x, u))
    (ht : Tracks w (l.rest w (.inl i)) w' (m' + h'.mem w') x') (hval : h'.val w' = v') :
    Matches m' (w', { l with pdu := Function.update l.pdu i h' })
      (x', { u with pdu := Function.update u.pdu i v' }) := by
  refine h.update (n := .inl i) (fun k hk => ?_) ?_ ?_
  · cases k with
    | inl j =>
      have hj : j ≠ i := fun hc => hk (by rw [hc])
      exact ⟨Function.update_of_ne hj _ _, Function.update_of_ne hj _ _⟩
    | inr k => exact ⟨rfl, rfl⟩
  · simp only [Locals.memAt, Function.update_self]
    exact ht
  · simp only [Locals.Says, Function.update_self]
    exact hval

theorem updateVl {k : κ} {v' : Varlist} {vs' : List Varbind} (h : Matches m (w, l) (x, u))
    (ht : Tracks w (l.rest w (.inr k)) w' (m' + v'.mem) x') (hvars : w'.vars v'.varlist = some vs') :
    Matches m' (w', { l with vl := Function.update l.vl k v' })
      (x', { u with vl := Function.update u.vl k vs' }) := by
  refine h.update (n := .inr k) (fun n hn => ?_) ?_ ?_
  · cases n with
    | inl i => exact ⟨rfl, rfl⟩
    | inr j =>
      have hj : j ≠ k := fun hc => hn (by rw [hc])
      exact ⟨Function.update_of_ne hj _ _, Function.update_of_ne hj _ _⟩
  · simp only [Locals.memAt, Function.update_self]
    exact ht
  · simp only [Locals.Says, Function.update_self]
    exact hvars

/-- **Nothing of the variables changes.** -/
theorem unchanged (h : Matches m (w, l) (x, u)) (ht : Tracks w (l.mem w) w' m' x') : Matches m' (w', l) (x', u) := by
  have hframe : ∀ k, l.memAt w' k = l.memAt w k ∧ l.Says w' u k := fun k =>
    Locals.frame (l.mem_eq w k) ht (by cases k <;> exact ⟨rfl, rfl⟩) (h.values k)
  have hmem : l.mem w' = l.mem w := Finset.sum_congr rfl (fun k _ => (hframe k).1)
  refine ⟨?_, fun k => (hframe k).2⟩
  show Tracks w' 0 w' (m' + l.mem w') x'
  rw [hmem]
  exact ht.narrow

/-- The memory of one variable, next to everything else. -/
theorem focus (h : Matches m (w, l) (x, u)) (n : ι ⊕ κ) : Tracks w (l.rest w n) w (m + l.memAt w n) x := by
  have ht : Tracks w 0 w (m + l.mem w) x := h.tracks
  rw [l.mem_eq w n, ← add_assoc] at ht
  exact ht.widen

theorem agree (h : Matches 0 (w, l) (x, u)) (i : ι) :
    Agree w (l.rest w (.inl i)) (w, l.pdu i) (x, u.pdu i) := by
  have hf := h.focus (.inl i)
  rw [zero_add] at hf
  exact ⟨hf, h.values (.inl i)⟩

theorem agreeVars (h : Matches 0 (w, l) (x, u)) (k : κ) :
    AgreeVars w (l.rest w (.inr k)) (w, l.vl k) (x, u.vl k) := by
  have hf := h.focus (.inr k)
  rw [zero_add] at hf
  exact ⟨hf, h.values (.inr k)⟩

/-- **A list taken out of its variable.** -/
theorem takeVl (h : Matches 0 (w, l) (x, u)) (k : κ) :
    Matches (l.vl k).mem (w, { l with vl := Function.update l.vl k ⟨none⟩ })
      (x, { u with vl := Function.update u.vl k [] }) := by
  have hf : Tracks w (l.rest w (.inr k)) w (0 + (l.vl k).mem) x := h.focus (.inr k)
  have hnull : (⟨none⟩ : Varlist).mem = 0 := rfl
  refine h.updateVl ?_ rfl
  rw [hnull, add_zero]
  rwa [zero_add] at hf

/-- **A handle returned goes to a variable**, and what the variable held is left behind. -/
theorem setPdu {q : PDU} {v : Value.Pdu} (h : Matches (q.mem w) (w, l) (x, u)) (hq : q.val w = v) (j : ι) :
    Matches 0 (w, { l with pdu := Function.update l.pdu j q })
      (Value.losePdu x (u.pdu j), { u with pdu := Function.update u.pdu j v }) := by
  have hf : Tracks w (l.rest w (.inl j)) w (q.mem w + (l.pdu j).mem w) x := h.focus (.inl j)
  have hval : (l.pdu j).val w = u.pdu j := h.values (.inl j)
  rw [add_comm] at hf
  refine h.updatePdu ?_ hq
  rw [← hval, zero_add]
  exact hf.losePdu

theorem setVl {v : Varlist} {vs : List Varbind} (h : Matches v.mem (w, l) (x, u)) (hvs : w.vars v.varlist = some vs)
    (k : κ) :
    Matches 0 (w, { l with vl := Function.update l.vl k v })
      (Value.loseVars x (u.vl k), { u with vl := Function.update u.vl k vs }) := by
  have hf : Tracks w (l.rest w (.inr k)) w (v.mem + (l.vl k).mem) x := h.focus (.inr k)
  have hvars : w.vars (l.vl k).varlist = some (u.vl k) := h.values (.inr k)
  rw [add_comm] at hf
  refine h.updateVl ?_ hvs
  rw [zero_add]
  exact hf.loseVars hvars

end Matches

/-! ## Operations on one variable, and functions -/

section
variable {β : Type} {w : World} {l : Locals ι κ} {u : Value.Locals ι κ} {x : Net}

theorem Locals.onPdu_twin {f : Method PDU α} {g : Value.Method Value.Pdu β} {R : α → β → World → Prop}
    {e : α → World → Mem} (h : Matches 0 (w, l) (x, u)) (i : ι)
    (hfg : ∀ F, Agree w F (w, l.pdu i) (x, u.pdu i) → Run.Twin f g (w, l.pdu i) (x, u.pdu i)
      (fun a b s y => Tracks w F s.1 (e a s.1 + s.2.mem s.1) y.1 ∧ s.2.val s.1 = y.2 ∧ R a b s.1) (Agree w F)) :
    Run.Twin (Locals.onPdu i f) (Value.Locals.onPdu i g) (w, l) (x, u)
      (fun a b s y => Matches (e a s.1) s y ∧ R a b s.1) (Matches 0) := by
  unfold Run.Twin Locals.onPdu Value.Locals.onPdu
  rcases (hfg _ (h.agree i)).cases with ⟨a, b, s, y, hf, hg, ht, hval, hr⟩ | ⟨err, s, y, hf, hg, ha⟩
  · simp only [hf, hg]
    exact ⟨h.updatePdu ht hval, hr⟩
  · simp only [hf, hg]
    exact ⟨trivial, h.updatePdu (by rw [zero_add]; exact ha.tracks) ha.val⟩

theorem Locals.onVl_twin {f : Method Varlist Unit} {g : Value.Method Value.Vars Unit} (h : Matches 0 (w, l) (x, u))
    (k : κ) (hfg : ∀ F, AgreeVars w F (w, l.vl k) (x, u.vl k) →
      Run.Twin f g (w, l.vl k) (x, u.vl k) (fun _ _ => AgreeVars w F) (AgreeVars w F)) :
    Run.Twin (Locals.onVl k f) (Value.Locals.onVl k g) (w, l) (x, u) (fun _ _ => Matches 0) (Matches 0) := by
  unfold Run.Twin Locals.onVl Value.Locals.onVl
  rcases (hfg _ (h.agreeVars k)).cases with ⟨_, _, s, y, hf, hg, ha⟩ | ⟨err, s, y, hf, hg, ha⟩
  · simp only [hf, hg]
    exact h.updateVl (by rw [zero_add]; exact ha.tracks) ha.vars
  · simp only [hf, hg]
    exact ⟨trivial, h.updateVl (by rw [zero_add]; exact ha.tracks) ha.vars⟩

/-- **A function that is given no variable** leaves them all alone. -/
theorem Locals.lift_twin {f : Snmp α} {g : Value.Func β} {R : α → β → World → Prop} {e : α → World → Mem}
    (h : Matches 0 (w, l) (x, u))
    (hfg : ∀ F, Tracks w F w 0 x → Run.Twin f g w x (fun a b w' x' => Tracks w F w' (e a w') x' ∧ R a b w')
      (fun w' x' => Tracks w F w' 0 x')) :
    Run.Twin (Run.lift f) (Run.lift g) (w, l) (x, u) (fun a b s y => Matches (e a s.1) s y ∧ R a b s.1)
      (Matches 0) := by
  have ht : Tracks w 0 w (0 + l.mem w) x := h.tracks
  rcases (hfg _ ht.widen).cases with ⟨a, b, w', x', hf, hg, ht', hr⟩ | ⟨err, w', x', hf, hg, ht'⟩
  · exact .ok (Run.lift_of hf l) (Run.lift_of hg u) ⟨h.unchanged ht', hr⟩
  · exact .error (Run.lift_of hf l) (Run.lift_of hg u) (h.unchanged ht')

end
end
end
end
end Snmppp
