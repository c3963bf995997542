import Snmppp.Loop
/-!
# Forest — nodes that link to their parents

A node is a root or links to a node made before it, so the way up from it ends and is one (`Forest.Path.unique`).  A
climb reads each node of the way in turn, until one has nothing to read: it ends, and what it has read is the path
backwards (`Forest.climb_eq`).
-/

/-- Nodes in the order they were made; `up` is the link to the parent. -/
structure Forest {α : Type} (up : α → Option Nat) where
  nodes : List α
  older : ∀ i x p, nodes[i]? = some x → up x = some p → p < i

namespace Forest

variable {α β : Type} {up : α → Option Nat}

/-- A forest of the nodes of a list whose links can be checked. -/
def ofList (nodes : List α) (h : ∀ i : Fin nodes.length, ∀ p ∈ up nodes[i], p < i) : Forest up where
  nodes := nodes
  older := fun i x p hx hp => by
    obtain ⟨hi, rfl⟩ := List.getElem?_eq_some_iff.1 hx
    exact h ⟨i, hi⟩ p hp

variable (f : Forest up)

/-- **The path of a node**: the nodes from its root down to it; no node has no path. -/
inductive Path : Option Nat → List α → Prop where
  | top : Path none []
  | node {i : Nat} {x : α} {xs : List α} (hx : f.nodes[i]? = some x) (hup : Path (up x) xs) :
      Path (some i) (xs ++ [x])

variable {f}

theorem Path.unique {t : Option Nat} {xs ys : List α} (h : f.Path t xs) (h' : f.Path t ys) : xs = ys := by
  induction h generalizing ys with
  | top =>
    cases h'
    rfl
  | node hx hup ih =>
    cases h' with
    | node hy hup' =>
      obtain rfl := Option.some.inj (hx.symm.trans hy)
      rw [ih hup']

/-- **A path is no longer than the forest**: its nodes grow older towards the root. -/
theorem Path.length_le {t : Option Nat} {xs : List α} (h : f.Path t xs) :
    xs.length ≤ f.nodes.length ∧ ∀ i, t = some i → xs.length ≤ i + 1 := by
  induction h with
  | top => exact ⟨Nat.zero_le _, fun i hi => by cases hi⟩
  | @node i x xs hx hup ih =>
    have hi : i < f.nodes.length := (List.getElem?_eq_some_iff.1 hx).1
    have hlen : xs.length ≤ i := by
      cases hp : up x with
      | none =>
        rw [hp] at hup
        cases hup
        exact Nat.zero_le i
      | some p =>
        have hlt := f.older i x p hx hp
        have := ih.2 p hp
        omega
    rw [List.length_append, List.length_singleton]
    exact ⟨by omega, fun j hj => by cases hj; omega⟩

theorem Path.last {i : Nat} {xs : List α} (h : f.Path (some i) xs) :
    ∃ x, f.nodes[i]? = some x ∧ xs.getLast? = some x := by
  cases h with
  | node hx hup => exact ⟨_, hx, List.getLast?_concat⟩

theorem Path.mem {t : Option Nat} {xs : List α} (h : f.Path t xs) : ∀ x ∈ xs, x ∈ f.nodes := by
  induction h with
  | top => intro x hx; cases hx
  | node hx hup ih =>
    intro y hy
    rcases List.mem_append.1 hy with hy | hy
    · exact ih y hy
    · rw [List.mem_singleton.1 hy]
      exact List.mem_of_getElem? hx

/-! ## Climbing -/

variable (f) (read : α → Option β)

/-- One turn of a climb: it ends at no node, at a node with nothing to read, or, with nothing to show for it, at a link
to no node of the forest. -/
def climbTurn : Option Nat × List β → (Option Nat × List β) ⊕ Option (List β)
  | (none, out)   => .inr (some out)
  | (some i, out) =>
    match f.nodes[i]? with
    | none   => .inr none
    | some x =>
      match read x with
      | none   => .inr (some out)
      | some y => .inl (up x, out ++ [y])

/-- What a climb from `t` reads; `none` for a climb that ends badly or does not end. -/
def climb (t : Option Nat) : Option (List β) := (Loop.run (f.climbTurn read) (f.nodes.length + 1) (t, [])).join

/-- What is read of `xs` in turn, up to the first with nothing to read. -/
def upTo : List α → List β
  | []      => []
  | x :: xs =>
    match read x with
    | none   => []
    | some y => y :: upTo xs

variable {f}

theorem run_climb {t : Option Nat} {xs : List α} (h : f.Path t xs) : ∀ (turns : Nat) (out : List β),
    xs.length < turns →
    Loop.run (f.climbTurn read) turns (t, out) = some (some (out ++ upTo read xs.reverse)) := by
  induction h with
  | top =>
    intro turns out hturns
    cases turns with
    | zero => cases hturns
    | succ turns =>
      have hturn : f.climbTurn read (none, out) = .inr (some out) := rfl
      rw [Loop.run_end hturn, List.reverse_nil, upTo, List.append_nil]
  | @node i x xs hx hup ih =>
    intro turns out hturns
    rw [List.length_append, List.length_singleton] at hturns
    cases turns with
    | zero => cases hturns
    | succ turns =>
      rw [List.reverse_append, List.reverse_singleton, List.singleton_append, upTo]
      cases hr : read x with
      | none =>
        have hturn : f.climbTurn read (some i, out) = .inr (some out) := by
          simp only [climbTurn, hx, hr]
        rw [Loop.run_end hturn, List.append_nil]
      | some y =>
        have hturn : f.climbTurn read (some i, out) = .inl (up x, out ++ [y]) := by
          simp only [climbTurn, hx, hr]
        rw [Loop.run_on hturn, ih turns (out ++ [y]) (by omega), List.append_assoc, List.singleton_append]

/-- **A climb reads the path backwards**, and ends. -/
theorem climb_eq {t : Option Nat} {xs : List α} (h : f.Path t xs) :
    f.climb read t = some (upTo read xs.reverse) := by
  rw [climb, run_climb read h _ _ (Nat.lt_succ_of_le h.length_le.1), List.nil_append]
  rfl

theorem upTo_eq {γ : α → β} : ∀ {xs : List α}, (∀ x ∈ xs, read x = some (γ x)) → upTo read xs = xs.map γ
  | [], _      => rfl
  | x :: xs, h => by
    rw [upTo, h x List.mem_cons_self, upTo_eq (fun y hy => h y (List.mem_cons_of_mem x hy))]
    rfl

theorem length_upTo_le : ∀ (xs : List α), (upTo read xs).length ≤ xs.length
  | []      => Nat.le_refl 0
  | x :: xs => by
    unfold upTo
    split
    · exact Nat.zero_le _
    · exact Nat.succ_le_succ (length_upTo_le xs)

/-- What is read as the `j`-th is read of the `j`-th. -/
theorem getElem_upTo : ∀ {xs : List α} {j : Nat} {y : β}, (upTo read xs)[j]? = some y →
    ∃ x, xs[j]? = some x ∧ read x = some y
  | [], _, _, h     => by cases h
  | x :: xs, j, y, h => by
    unfold upTo at h
    split at h
    · cases h
    · rename_i z hz
      cases j with
      | zero =>
        rw [List.getElem?_cons_zero] at h
        exact ⟨x, rfl, hz.trans h⟩
      | succ j =>
        rw [List.getElem?_cons_succ] at h
        obtain ⟨x', hx', hread⟩ := getElem_upTo h
        exact ⟨x', hx', hread⟩

/-- Everything is read when there is something to read everywhere. -/
theorem length_upTo_eq_iff : ∀ {xs : List α}, (upTo read xs).length = xs.length ↔ ∀ x ∈ xs, read x ≠ none
  | []      => by simp [upTo]
  | x :: xs => by
    unfold upTo
    cases hx : read x with
    | none => exact ⟨fun h => absurd h (Nat.succ_ne_zero _).symm, fun h => absurd hx (h x List.mem_cons_self)⟩
    | some y =>
      rw [List.forall_mem_cons, hx, List.length_cons, List.length_cons, Nat.succ_inj, length_upTo_eq_iff]
      exact ⟨fun h => ⟨Option.some_ne_none y, h⟩, fun h => h.2⟩

theorem upTo_eq_nil_iff {xs : List α} : upTo read xs = [] ↔ ∀ x, xs.head? = some x → read x = none := by
  cases xs with
  | nil => simp [upTo]
  | cons x xs =>
    unfold upTo
    cases hx : read x with
    | none => exact ⟨fun _ y hy => by cases hy; exact hx, fun _ => rfl⟩
    | some y => exact ⟨fun h => absurd h (List.cons_ne_nil _ _), fun h => absurd (h x rfl) (by simp [hx])⟩

/-- **When every node has something to read**, a climb reads the whole path. -/
theorem climb_all {γ : α → β} {t : Option Nat} {xs : List α} (h : f.Path t xs)
    (hread : ∀ x ∈ f.nodes, read x = some (γ x)) : f.climb read t = some (xs.map γ).reverse := by
  rw [climb_eq read h, upTo_eq read (fun x hx => hread x (h.mem x (List.mem_reverse.1 hx))), List.map_reverse]

end Forest
