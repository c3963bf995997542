import Snmppp.Run
/-!
# Twin — two programs side by side

One program simulates another from related states when both return and what they return and leave is related, or both
stop with the same exception or fault (`Run.Twin`).  The rules follow the programs: a step they take together
(`Twin.bind`), a step only one of them takes (`Twin.left`, `Twin.right`), a loop over the same list (`Twin.each`).
-/

namespace Run

variable {σ σ' τ τ' ε α α' β β' κ : Type}

/-- **Two programs side by side.**  `Q` relates what they return and leave, `E` what they leave when they stop. -/
def Twin (m : Run σ ε α) (n : Run τ ε β) (s : σ) (t : τ) (Q : α → β → σ → τ → Prop) (E : σ → τ → Prop) : Prop :=
  match m s, n t with
  | (.ok a, s'), (.ok b, t')        => Q a b s' t'
  | (.error e, s'), (.error e', t') => e = e' ∧ E s' t'
  | (.ok _, _), (.error _, _)       => False
  | (.error _, _), (.ok _, _)       => False

namespace Twin

variable {m : Run σ ε α} {n : Run τ ε β} {f : α → Run σ ε α'} {g : β → Run τ ε β'} {s s' : σ} {t t' : τ} {a : α} {b : β}
  {e : Stop ε} {Q : α → β → σ → τ → Prop} {E : σ → τ → Prop}

theorem ok (hm : m s = (.ok a, s')) (hn : n t = (.ok b, t')) (h : Q a b s' t') : Twin m n s t Q E := by
  unfold Twin
  rw [hm, hn]
  exact h

theorem error (hm : m s = (.error e, s')) (hn : n t = (.error e, t')) (h : E s' t') : Twin m n s t Q E := by
  unfold Twin
  rw [hm, hn]
  exact ⟨rfl, h⟩

/-- **What a pair of programs did.** -/
theorem cases (h : Twin m n s t Q E) :
    (∃ a b s' t', m s = (.ok a, s') ∧ n t = (.ok b, t') ∧ Q a b s' t') ∨
    (∃ e s' t', m s = (.error e, s') ∧ n t = (.error e, t') ∧ E s' t') := by
  unfold Twin at h
  rcases hm : m s with ⟨e | a, s'⟩ <;> rcases hn : n t with ⟨e' | b, t'⟩ <;> rw [hm, hn] at h
  · obtain ⟨rfl, hE⟩ := h
    exact .inr ⟨e, s', t', rfl, rfl, hE⟩
  · exact h.elim
  · exact h.elim
  · exact .inl ⟨a, b, s', t', rfl, rfl, h⟩

theorem pure (h : Q a b s t) : Twin (Pure.pure a : Run σ ε α) (Pure.pure b : Run τ ε β) s t Q E := h

theorem throws {x : ε} (h : E s t) : Twin (Run.throws x : Run σ ε α) (Run.throws x : Run τ ε β) s t Q E := ⟨rfl, h⟩

theorem faults (h : E s t) : Twin (Run.faults : Run σ ε α) (Run.faults : Run τ ε β) s t Q E := ⟨rfl, h⟩

theorem imp {Q' : α → β → σ → τ → Prop} {E' : σ → τ → Prop} (h : Twin m n s t Q E)
    (hQ : ∀ a b s' t', Q a b s' t' → Q' a b s' t') (hE : ∀ s' t', E s' t' → E' s' t') : Twin m n s t Q' E' := by
  rcases h.cases with ⟨a, b, s', t', hm, hn, h⟩ | ⟨e, s', t', hm, hn, h⟩
  · exact ok hm hn (hQ a b s' t' h)
  · exact error hm hn (hE s' t' h)

/-- **The rule of sequence.** -/
theorem bind {Q : α' → β' → σ → τ → Prop} (h : Twin m n s t (fun a b s' t' => Twin (f a) (g b) s' t' Q E) E) :
    Twin (m >>= f) (n >>= g) s t Q E := by
  rcases h.cases with ⟨a, b, s', t', hm, hn, h⟩ | ⟨e, s', t', hm, hn, h⟩
  · unfold Twin
    rw [bind_ok hm, bind_ok hn]
    exact h
  · exact error (bind_error hm) (bind_error hn) h

/-- **A step of the first program alone.** -/
theorem left {n : Run τ ε β'} {Q : α' → β' → σ → τ → Prop} (hm : m s = (.ok a, s')) (h : Twin (f a) n s' t Q E) :
    Twin (m >>= f) n s t Q E := by
  unfold Twin at h ⊢
  rw [bind_ok hm]
  exact h

/-- **A step of the second program alone.** -/
theorem right {m : Run σ ε α'} {Q : α' → β' → σ → τ → Prop} (hn : n t = (.ok b, t')) (h : Twin m (g b) s t' Q E) :
    Twin m (n >>= g) s t Q E := by
  unfold Twin at h ⊢
  rw [bind_ok hn]
  exact h

section
variable {x : σ'} {y : τ'} {m : Run (σ × σ') ε α} {n : Run (τ × τ') ε β} {Q : α → β → σ × σ' → τ × τ' → Prop}
  {E : σ × σ' → τ × τ' → Prop}

theorem this_left {f : σ' → Run (σ × σ') ε α} (h : Twin (f x) n (s, x) (t, y) Q E) :
    Twin (Run.this >>= f) n (s, x) (t, y) Q E := h

theorem this_right {g : τ' → Run (τ × τ') ε β} (h : Twin m (g y) (s, x) (t, y) Q E) :
    Twin m (Run.this >>= g) (s, x) (t, y) Q E := h

theorem setThis_left {x' : σ'} {f : Unit → Run (σ × σ') ε α} (h : Twin (f ()) n (s, x') (t, y) Q E) :
    Twin (Run.setThis x' >>= f) n (s, x) (t, y) Q E := h

theorem setThis_right {y' : τ'} {g : Unit → Run (τ × τ') ε β} (h : Twin m (g ()) (s, x) (t, y') Q E) :
    Twin m (Run.setThis y' >>= g) (s, x) (t, y) Q E := h

end

/-- Functions called inside two methods. -/
theorem lift {x : σ'} {y : τ'} {Q : α → β → σ × σ' → τ × τ' → Prop} {E : σ × σ' → τ × τ' → Prop}
    (h : Twin m n s t (fun a b s t => Q a b (s, x) (t, y)) (fun s t => E (s, x) (t, y))) :
    Twin (Run.lift m) (Run.lift n) (s, x) (t, y) Q E := by
  rcases h.cases with ⟨a, b, s', t', hm, hn, h⟩ | ⟨e, s', t', hm, hn, h⟩
  · exact ok (lift_of hm x) (lift_of hn y) h
  · exact error (lift_of hm x) (lift_of hn y) h

/-- Methods called on two local objects. -/
theorem on {x : σ'} {y : τ'} {m : Run (σ × σ') ε α} {n : Run (τ × τ') ε β} {Q : α × σ' → β × τ' → σ → τ → Prop}
    (h : Twin m n (s, x) (t, y) (fun a b s t => Q (a, s.2) (b, t.2) s.1 t.1) (fun s t => E s.1 t.1)) :
    Twin (Run.on x m) (Run.on y n) s t Q E := by
  rcases h.cases with ⟨a, b, s', t', hm, hn, h⟩ | ⟨e, s', t', hm, hn, h⟩
  · exact ok (on_ok hm) (on_ok hn) h
  · exact error (on_error hm) (on_error hn) h

/-- **The loop rule**: what every pair of turns keeps, the loops keep. -/
theorem each {I : σ → τ → Prop} {f : κ → Run σ ε Unit} {g : κ → Run τ ε Unit}
    (hf : ∀ k s t, I s t → Twin (f k) (g k) s t (fun _ _ => I) I) :
    ∀ (ks : List κ) (s : σ) (t : τ), I s t → Twin (Run.each f ks) (Run.each g ks) s t (fun _ _ => I) I
  | [], _, _, h      => h
  | k :: ks, s, t, h => bind ((hf k s t h).imp (fun _ _ s' t' h' => Twin.each hf ks s' t' h') (fun _ _ h' => h'))

/-- **The run rule**: programs that keep `I` however they end, taken one after the other, end alike and keep it. -/
theorem trace {I : σ → τ → Prop} {f : κ → Run σ ε α} {g : κ → Run τ ε α}
    (hf : ∀ k s t, I s t → Twin (f k) (g k) s t (fun a b s' t' => a = b ∧ I s' t') I) (ks : List κ) (s : σ) (t : τ)
    (h : I s t) :
    (Run.trace (ks.map f) s).1 = (Run.trace (ks.map g) t).1 ∧
      I (Run.trace (ks.map f) s).2 (Run.trace (ks.map g) t).2 := by
  refine trace_simulates (fun k s t h => ?_) ks s t h
  rcases (hf k s t h).cases with ⟨a, b, s', t', hm, hn, rfl, h'⟩ | ⟨e, s', t', hm, hn, h'⟩ <;> rw [hm, hn]
  · exact ⟨rfl, h'⟩
  · exact ⟨rfl, h'⟩

end Twin
end Run
