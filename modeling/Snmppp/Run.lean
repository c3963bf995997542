import Mathlib.Tactic.Common
/-!
# Run — programs that return, throw or fault

A program over a state leaves a state however it ends: it returns a value, an exception leaves it, or it faults
(undefined behaviour, after which nothing is promised).  A method is a program over the caller's state paired with the
object it is called on, so that what it did to the object survives an exception (`Run.lift`, `Run.on`).  The rules of
the second part speak of the states a program leaves, however it ends (`Run.Leaves`); the third runs many
programs in turn, whatever the earlier ones threw (`Run.trace`).
-/

inductive Stop (ε : Type) where
  | exn (e : ε)
  | fault
deriving DecidableEq, Repr

/-- A program over `σ`: from the state it starts in, how it ends and the state it leaves. -/
def Run (σ ε α : Type) : Type := σ → Except (Stop ε) α × σ

namespace Run

variable {σ τ ε α β κ : Type}

instance : Monad (Run σ ε) where
  pure a := fun s => (.ok a, s)
  bind m f := fun s =>
    match m s with
    | (.ok a, t)    => f a t
    | (.error e, t) => (.error e, t)

/-- `throw` of an exception. -/
def throws (e : ε) : Run σ ε α := fun s => (.error (.exn e), s)

/-- Undefined behaviour. -/
def faults : Run σ ε α := fun s => (.error .fault, s)

/-- A result at hand. -/
def result (r : Except (Stop ε) α) : Run σ ε α := fun s => (r, s)

/-- A program of the caller's state, run inside a method. -/
def lift (m : Run σ ε α) : Run (σ × τ) ε α := fun s => ((m s.1).1, ((m s.1).2, s.2))

def this : Run (σ × τ) ε τ := fun s => (.ok s.2, s)

def setThis (x : τ) : Run (σ × τ) ε Unit := fun s => (.ok (), (s.1, x))

/-- **A method called on a local object.**  Its final value comes back with the result; an exception takes the object
with the frame it lives in. -/
def on (x : τ) (m : Run (σ × τ) ε α) : Run σ ε (α × τ) := fun s =>
  match m (s, x) with
  | (.ok a, t)    => (.ok (a, t.2), t.1)
  | (.error e, t) => (.error e, t.1)

/-- A loop that calls `f` on each element in turn; the first exception ends it. -/
def each (f : κ → Run σ ε Unit) : List κ → Run σ ε Unit
  | []      => pure ()
  | x :: xs => do f x; each f xs

/-! ## Running -/

@[simp] theorem pure_apply (a : α) (s : σ) : (pure a : Run σ ε α) s = (.ok a, s) := rfl

@[simp] theorem throws_apply (e : ε) (s : σ) : (throws e : Run σ ε α) s = (.error (.exn e), s) := rfl

@[simp] theorem result_apply (r : Except (Stop ε) α) (s : σ) : (result r : Run σ ε α) s = (r, s) := rfl

@[simp] theorem lift_apply (m : Run σ ε α) (s : σ × τ) :
    (lift m : Run (σ × τ) ε α) s = ((m s.1).1, ((m s.1).2, s.2)) := rfl

@[simp] theorem this_apply (s : σ × τ) : (this : Run (σ × τ) ε τ) s = (.ok s.2, s) := rfl

@[simp] theorem setThis_apply (x : τ) (s : σ × τ) : (setThis x : Run (σ × τ) ε Unit) s = (.ok (), (s.1, x)) := rfl

theorem bind_apply (m : Run σ ε α) (f : α → Run σ ε β) (s : σ) :
    (m >>= f) s = match m s with
      | (.ok a, t)    => f a t
      | (.error e, t) => (.error e, t) := rfl

theorem bind_ok {m : Run σ ε α} {f : α → Run σ ε β} {s t : σ} {a : α} (h : m s = (.ok a, t)) :
    (m >>= f) s = f a t := by
  rw [bind_apply, h]

theorem bind_error {m : Run σ ε α} {f : α → Run σ ε β} {s t : σ} {e : Stop ε} (h : m s = (.error e, t)) :
    (m >>= f) s = (.error e, t) := by
  rw [bind_apply, h]

theorem this_bind (f : τ → Run (σ × τ) ε β) (s : σ) (x : τ) : (this >>= f) (s, x) = f x (s, x) := rfl

theorem setThis_bind (f : Unit → Run (σ × τ) ε β) (s : σ) (x y : τ) : (setThis y >>= f) (s, x) = f () (s, y) := rfl

theorem lift_of {m : Run σ ε α} {s t : σ} {r : Except (Stop ε) α} (h : m s = (r, t)) (x : τ) :
    lift m (s, x) = (r, (t, x)) := by
  rw [lift_apply, h]

theorem lift_bind {m : Run σ ε α} {f : α → Run (σ × τ) ε β} {s t : σ} {a : α} (h : m s = (.ok a, t)) (x : τ) :
    (lift m >>= f) (s, x) = f a (t, x) := bind_ok (lift_of h x)

theorem bind_assoc {γ : Type} (m : Run σ ε α) (f : α → Run σ ε β) (g : β → Run σ ε γ) :
    (m >>= f) >>= g = m >>= fun a => f a >>= g := by
  funext s
  rcases h : m s with ⟨e | a, t⟩
  · rw [bind_error h, bind_error (bind_error h)]
  · rw [bind_ok h, bind_apply, bind_ok h, bind_apply]

theorem lift_seq (m : Run σ ε α) (f : α → Run σ ε β) :
    (lift (m >>= f) : Run (σ × τ) ε β) = lift m >>= fun a => lift (f a) := by
  funext ⟨s, x⟩
  rcases h : m s with ⟨e | a, t⟩
  · rw [bind_error (lift_of h x), lift_of (bind_error h)]
  · rw [lift_bind h, lift_apply, lift_apply, bind_ok h]

theorem on_ok {m : Run (σ × τ) ε α} {s : σ} {x : τ} {a : α} {t : σ × τ} (h : m (s, x) = (.ok a, t)) :
    on x m s = (.ok (a, t.2), t.1) := by
  simp only [on, h]

theorem on_error {m : Run (σ × τ) ε α} {s : σ} {x : τ} {e : Stop ε} {t : σ × τ} (h : m (s, x) = (.error e, t)) :
    on x m s = (.error e, t.1) := by
  simp only [on, h]

theorem on_fst (x : τ) (m : Run (σ × τ) ε α) (s : σ) :
    (do let r ← on x m; pure r.1 : Run σ ε α) s = ((m (s, x)).1, (m (s, x)).2.1) := by
  rcases h : m (s, x) with ⟨e | a, t⟩
  · rw [bind_error (on_error h)]
  · rw [bind_ok (on_ok h), pure_apply]

/-- A method called for what it does alone, inside a function and inside another method. -/
theorem on_discard {m : Run (σ × τ) ε Unit} {s t : σ} {x y : τ} {r : Except (Stop ε) Unit}
    (h : m (s, x) = (r, (t, y))) : (on x m >>= fun _ => (pure () : Run σ ε Unit)) s = (r, t) := by
  cases r with
  | ok _ => rw [bind_ok (on_ok h), pure_apply]
  | error e => rw [bind_error (on_error h)]

theorem lift_on_discard {m : Run (σ × τ) ε Unit} {s t : σ} {x y : τ} {r : Except (Stop ε) Unit}
    (h : m (s, x) = (r, (t, y))) (z : κ) :
    (lift (on x m) >>= fun _ => (pure () : Run (σ × κ) ε Unit)) (s, z) = (r, (t, z)) := by
  cases r with
  | ok _ => rw [lift_bind (on_ok h), pure_apply]
  | error e => rw [bind_error (lift_of (on_error h) z)]

theorem each_cons_ok {f : κ → Run σ ε Unit} {x : κ} {xs : List κ} {s t : σ} {r : Except (Stop ε) Unit × σ}
    (h : f x s = (.ok (), t)) (hr : each f xs t = r) : each f (x :: xs) s = r :=
  (bind_ok h).trans hr

theorem each_cons_error {f : κ → Run σ ε Unit} {x : κ} {xs : List κ} {s t : σ} {e : Stop ε}
    (h : f x s = (.error e, t)) : each f (x :: xs) s = (.error e, t) := bind_error h

/-! ## What a program leaves -/

/-- **What a program leaves**: `Q` of what it returns, or `E` of what it stops with. -/
def Leaves (m : Run σ ε α) (s : σ) (Q : α → σ → Prop) (E : Stop ε → σ → Prop) : Prop :=
  match m s with
  | (.ok a, t)    => Q a t
  | (.error e, t) => E e t

theorem Leaves.pure {a : α} {s : σ} {Q : α → σ → Prop} {E : Stop ε → σ → Prop} (h : Q a s) :
    Leaves (Pure.pure a : Run σ ε α) s Q E := h

theorem Leaves.throws {e : ε} {s : σ} {Q : α → σ → Prop} {E : Stop ε → σ → Prop} (h : E (.exn e) s) :
    Leaves (Run.throws e : Run σ ε α) s Q E := h

theorem Leaves.faults {s : σ} {Q : α → σ → Prop} {E : Stop ε → σ → Prop} (h : E .fault s) :
    Leaves (Run.faults : Run σ ε α) s Q E := h

theorem Leaves.this {s : σ × τ} {Q : τ → σ × τ → Prop} {E : Stop ε → σ × τ → Prop} (h : Q s.2 s) :
    Leaves (Run.this : Run (σ × τ) ε τ) s Q E := h

theorem Leaves.setThis {x : τ} {s : σ × τ} {Q : Unit → σ × τ → Prop} {E : Stop ε → σ × τ → Prop} (h : Q () (s.1, x)) :
    Leaves (Run.setThis x : Run (σ × τ) ε Unit) s Q E := h

/-- **The rule of sequence.** -/
theorem Leaves.bind {m : Run σ ε α} {f : α → Run σ ε β} {s : σ} {Q : β → σ → Prop} {E : Stop ε → σ → Prop}
    (h : m.Leaves s (fun a t => (f a).Leaves t Q E) E) : (m >>= f).Leaves s Q E := by
  unfold Leaves at h ⊢
  rw [bind_apply]
  rcases hm : m s with ⟨e | a, t⟩ <;> rw [hm] at h <;> exact h

theorem Leaves.imp {m : Run σ ε α} {s : σ} {Q Q' : α → σ → Prop} {E E' : Stop ε → σ → Prop} (h : m.Leaves s Q E)
    (hQ : ∀ a t, Q a t → Q' a t) (hE : ∀ e t, E e t → E' e t) : m.Leaves s Q' E' := by
  unfold Leaves at h ⊢
  rcases hm : m s with ⟨e | a, t⟩ <;> rw [hm] at h
  · exact hE e t h
  · exact hQ a t h

theorem Leaves.lift {m : Run σ ε α} {s : σ × τ} {Q : α → σ × τ → Prop} {E : Stop ε → σ × τ → Prop}
    (h : m.Leaves s.1 (fun a t => Q a (t, s.2)) (fun e t => E e (t, s.2))) : (Run.lift m).Leaves s Q E := by
  unfold Leaves at h ⊢
  rw [lift_apply]
  rcases hm : m s.1 with ⟨e | a, t⟩ <;> rw [hm] at h <;> exact h

theorem Leaves.on {x : τ} {m : Run (σ × τ) ε α} {s : σ} {Q : α × τ → σ → Prop} {E : Stop ε → σ → Prop}
    (h : m.Leaves (s, x) (fun a t => Q (a, t.2) t.1) (fun e t => E e t.1)) : (Run.on x m).Leaves s Q E := by
  unfold Leaves at h ⊢
  unfold Run.on
  rcases hm : m (s, x) with ⟨e | a, t⟩ <;> rw [hm] at h <;> exact h

/-- **What a program leaves however it ends.** -/
theorem Leaves.final {m : Run σ ε α} {s : σ} {I : σ → Prop} (h : m.Leaves s (fun _ => I) (fun _ => I)) : I (m s).2 := by
  unfold Leaves at h
  rcases hm : m s with ⟨e | a, t⟩ <;> rw [hm] at h <;> exact h

/-- **The loop rule**: what every turn keeps, however it ends, the loop keeps. -/
theorem Leaves.each {I : σ → Prop} {f : κ → Run σ ε Unit}
    (hf : ∀ x s, I s → (f x).Leaves s (fun _ => I) (fun _ => I)) :
    ∀ (xs : List κ) (s : σ), I s → (Run.each f xs).Leaves s (fun _ => I) (fun _ => I)
  | [], _, hs => hs
  | x :: xs, s, hs => Leaves.bind ((hf x s hs).imp (fun _ t ht => Leaves.each hf xs t ht) (fun _ _ ht => ht))

/-! ## Programs that cannot fault -/

def NeverFaults (m : Run σ ε α) : Prop := ∀ s, (m s).1 ≠ .error .fault

namespace NeverFaults

theorem pure (a : α) : NeverFaults (Pure.pure a : Run σ ε α) := fun _ h => by cases h

theorem throws (e : ε) : NeverFaults (Run.throws e : Run σ ε α) := fun _ h => by cases h

theorem this : NeverFaults (Run.this : Run (σ × τ) ε τ) := fun _ h => by cases h

theorem setThis (x : τ) : NeverFaults (Run.setThis x : Run (σ × τ) ε Unit) := fun _ h => by cases h

theorem bind {m : Run σ ε α} {f : α → Run σ ε β} (hm : m.NeverFaults) (hf : ∀ a, (f a).NeverFaults) :
    (m >>= f).NeverFaults := fun s h => by
  rcases hs : m s with ⟨e | a, t⟩
  · rw [bind_error hs, Except.error.injEq] at h
    exact hm s (by rw [hs, h])
  · rw [bind_ok hs] at h
    exact hf a t h

theorem lift {m : Run σ ε α} (hm : m.NeverFaults) : (Run.lift m : Run (σ × τ) ε α).NeverFaults :=
  fun s h => hm s.1 h

theorem on {x : τ} {m : Run (σ × τ) ε α} (hm : m.NeverFaults) : (Run.on x m).NeverFaults := fun s h => by
  rcases hs : m (s, x) with ⟨e | a, t⟩
  · rw [on_error hs, Except.error.injEq] at h
    exact hm (s, x) (by rw [hs, h])
  · rw [on_ok hs] at h
    cases h

theorem each {f : κ → Run σ ε Unit} (hf : ∀ k, (f k).NeverFaults) : ∀ ks, (Run.each f ks).NeverFaults
  | []      => .pure ()
  | k :: ks => .bind (hf k) (fun _ => each hf ks)

end NeverFaults

/-! ## Many programs in turn -/

/-- The programs `ms` run in turn, each from the state the last one left: how each ended, and the last state. -/
def trace : List (Run σ ε α) → σ → List (Except (Stop ε) α) × σ
  | [], s      => ([], s)
  | m :: ms, s => ((m s).1 :: (trace ms (m s).2).1, (trace ms (m s).2).2)

@[simp] theorem trace_nil (s : σ) : trace ([] : List (Run σ ε α)) s = ([], s) := rfl

@[simp] theorem trace_cons (m : Run σ ε α) (ms : List (Run σ ε α)) (s : σ) :
    trace (m :: ms) s = ((m s).1 :: (trace ms (m s).2).1, (trace ms (m s).2).2) := rfl

/-- **The rule of simulation**: when every step of one program from related states ends as the step of the other and
leaves related states, so do their runs. -/
theorem trace_simulates {R : σ → τ → Prop} {f : κ → Run σ ε α} {g : κ → Run τ ε α}
    (step : ∀ k s t, R s t → (f k s).1 = (g k t).1 ∧ R (f k s).2 (g k t).2) :
    ∀ (ks : List κ) (s : σ) (t : τ), R s t →
      (trace (ks.map f) s).1 = (trace (ks.map g) t).1 ∧ R (trace (ks.map f) s).2 (trace (ks.map g) t).2
  | [], _, _, h => ⟨rfl, h⟩
  | k :: ks, s, t, h => by
    obtain ⟨hend, hR⟩ := step k s t h
    obtain ⟨hrest, hlast⟩ := trace_simulates step ks _ _ hR
    rw [List.map_cons, List.map_cons, trace_cons, trace_cons]
    exact ⟨by rw [hend, hrest], hlast⟩

/-! ## What a program leaves alone -/

/-- **`m` leaves alone what `f` sees**, however it ends. -/
def Keeps {ω : Type} (f : σ → ω) (m : Run σ ε α) : Prop := ∀ s, f (m s).2 = f s

namespace Keeps

variable {ω : Type} {f : σ → ω}

theorem pure (a : α) : Keeps f (Pure.pure a : Run σ ε α) := fun _ => rfl

theorem throws (e : ε) : Keeps f (Run.throws e : Run σ ε α) := fun _ => rfl

theorem faults : Keeps f (Run.faults : Run σ ε α) := fun _ => rfl

theorem this {g : σ × τ → ω} : Keeps g (Run.this : Run (σ × τ) ε τ) := fun _ => rfl

theorem setThis (x : τ) : Keeps (fun s => f s.1) (Run.setThis x : Run (σ × τ) ε Unit) := fun _ => rfl

theorem bind {m : Run σ ε α} {k : α → Run σ ε β} (hm : m.Keeps f) (hk : ∀ a, (k a).Keeps f) : (m >>= k).Keeps f :=
  fun s => by
    rcases hs : m s with ⟨e | a, t⟩
    · rw [bind_error hs, ← hm s, hs]
    · rw [bind_ok hs, hk a t, ← hm s, hs]

theorem lift {m : Run σ ε α} (hm : m.Keeps f) : Keeps (fun s => f s.1) (Run.lift m : Run (σ × τ) ε α) :=
  fun s => hm s.1

theorem lifted {m : Run σ ε α} : Keeps Prod.snd (Run.lift m : Run (σ × τ) ε α) := fun _ => rfl

theorem on {x : τ} {m : Run (σ × τ) ε α} (hm : Keeps (fun s => f s.1) m) : (Run.on x m).Keeps f := fun s => by
  have hkept : f (m (s, x)).2.1 = f s := hm (s, x)
  rcases hs : m (s, x) with ⟨e | a, t⟩ <;> rw [hs] at hkept
  · rw [on_error hs]
    exact hkept
  · rw [on_ok hs]
    exact hkept

theorem each {k : κ → Run σ ε Unit} (hk : ∀ x, (k x).Keeps f) : ∀ xs, (Run.each k xs).Keeps f
  | []      => .pure ()
  | x :: xs => .bind (hk x) (fun _ => each hk xs)

theorem trace {k : κ → Run σ ε α} : ∀ (xs : List κ) (s : σ), (∀ x ∈ xs, (k x).Keeps f) →
    f (Run.trace (xs.map k) s).2 = f s
  | [], _, _      => rfl
  | x :: xs, s, h => by
    rw [List.map_cons, trace_cons]
    rw [List.forall_mem_cons] at h
    exact (trace xs _ h.2).trans (h.1 s)

end Keeps

/-- The calls that returned, given how each ended. -/
def returned : List κ → List (Except (Stop ε) α) → List κ
  | k :: ks, .ok _ :: rs    => k :: returned ks rs
  | _ :: ks, .error _ :: rs => returned ks rs
  | _, _                    => []

@[simp] theorem returned_ok (k : κ) (ks : List κ) (a : α) (rs : List (Except (Stop ε) α)) :
    returned (k :: ks) (.ok a :: rs) = k :: returned ks rs := rfl

@[simp] theorem returned_error (k : κ) (ks : List κ) (e : Stop ε) (rs : List (Except (Stop ε) α)) :
    returned (k :: ks) (.error e :: rs) = returned ks rs := rfl

end Run
