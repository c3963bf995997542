import Mathlib.Computability.Language
import Mathlib.Data.List.Chain
import Mathlib.Data.List.TakeWhile
import Mathlib.Tactic.Common
/-!
# Dotted — runs of digits with a separator between them

The texts `[sep]? D+ (sep D+)*` over any alphabet, and the scan that passes one separator and one run of digits at a
time until it finds no digit (`Dotted.Reads`).  What a scan passes is the longest prefix of the text in the grammar,
and its runs are the digit runs of that prefix (`Dotted.Reads.longest`).  Scans compose where the texts meet at a
separator (`Dotted.Reads.append`, `Dotted.Reads.sep_cons`), and a text of digits and single separators is read to its
end (`Dotted.Reads.eq_nil_of_plain`).
-/
open scoped Computability

namespace Dotted

variable {α : Type}

def digits (p : α → Bool) : Language α := {ds | ds ≠ [] ∧ ∀ c ∈ ds, p c = true}

/-- `(sep D+)*`. -/
def chain (sep : α) (p : α → Bool) : Language α := (({[sep]} : Language α) * digits p)∗

/-- `[sep]? D+ (sep D+)*`. -/
def grammar (sep : α) (p : α → Bool) : Language α := (1 + ({[sep]} : Language α)) * (digits p * chain sep p)

/-- The runs of digits in a text, in order. -/
def runs (p : α → Bool) (s : List α) : List (List α) := (s.splitOnP (fun c => !p c)).filter (fun ds => !ds.isEmpty)

/-- `pre` is the longest prefix of `s` in `G`, and the empty one when `s` has none. -/
structure Longest (G : Language α) (pre s : List α) : Prop where
  front  : pre <+: s
  mem    : pre = [] ∨ pre ∈ G
  length : ∀ q, q <+: s → q ∈ G → q.length ≤ pre.length

/-- A text without the separator it begins with, if it does. -/
def skip [DecidableEq α] (sep : α) : List α → List α
  | []      => []
  | c :: cs => if c = sep then cs else c :: cs

/-- **A scan**: the runs it passes and the text it leaves. -/
inductive Reads [DecidableEq α] (sep : α) (p : α → Bool) : List α → List (List α) → List α → Prop
  | stop {s : List α} (h : (skip sep s).head?.any p = false) : Reads sep p s [] s
  | turn {s ds rest tail : List α} {rs : List (List α)} (hskip : skip sep s = ds ++ rest) (hds : ds ∈ digits p)
      (hrest : rest.head?.any p = false) (h : Reads sep p rest rs tail) : Reads sep p s (ds :: rs) tail

/-- The text of a chain of runs. -/
def text (sep : α) (rs : List (List α)) : List α := rs.flatMap (fun ds => sep :: ds)

variable {sep : α} {p : α → Bool} {s t ds rest tail : List α} {rs : List (List α)}

theorem head_digits (hds : ds ∈ digits p) (t : List α) : (ds ++ t).head?.any p = true := by
  obtain ⟨hne, hall⟩ := hds
  obtain ⟨c, cs, rfl⟩ := List.exists_cons_of_ne_nil hne
  exact hall c List.mem_cons_self

theorem head_append (hs : s.head?.any p = false) (ht : t.head?.any p = false) : (s ++ t).head?.any p = false := by
  cases s with
  | nil => exact ht
  | cons c cs => exact hs

theorem Longest.unique {G : Language α} {pre pre' : List α} (h : Longest G pre s) (h' : Longest G pre' s) :
    pre = pre' := by
  have hle : ∀ {a b : List α}, Longest G a s → Longest G b s → a.length ≤ b.length := fun ha hb => by
    rcases ha.mem with rfl | hmem
    · exact Nat.zero_le _
    · exact hb.length _ ha.front hmem
  have hlen : pre.length = pre'.length := Nat.le_antisymm (hle h h') (hle h' h)
  rcases List.prefix_or_prefix_of_prefix h.front h'.front with hp | hp
  · exact hp.eq_of_length hlen
  · exact (hp.eq_of_length hlen.symm).symm

theorem mem_chain_iff {q : List α} :
    q ∈ chain sep p ↔ q = [] ∨ ∃ ds q', q = sep :: (ds ++ q') ∧ ds ∈ digits p ∧ q' ∈ chain sep p := by
  unfold chain
  conv => lhs; rw [← Language.one_add_self_mul_kstar_eq_kstar]
  rw [Language.mem_add, Language.mem_one, Language.mem_mul]
  refine or_congr_right ⟨?_, ?_⟩
  · rintro ⟨a, ha, q', hq', rfl⟩
    obtain ⟨b, hb, ds, hds, rfl⟩ := Language.mem_mul.1 ha
    have hb : b = [sep] := hb
    subst hb
    exact ⟨ds, q', by simp, hds, hq'⟩
  · rintro ⟨ds, q', rfl, hds, hq'⟩
    exact ⟨[sep] ++ ds, Language.append_mem_mul rfl hds, q', hq', by simp⟩

theorem mem_grammar_iff {q : List α} :
    q ∈ grammar sep p ↔
      ∃ lead ds q', q = lead ++ (ds ++ q') ∧ (lead = [] ∨ lead = [sep]) ∧ ds ∈ digits p ∧ q' ∈ chain sep p := by
  unfold grammar
  rw [Language.mem_mul]
  constructor
  · rintro ⟨lead, hlead, b, hb, rfl⟩
    obtain ⟨ds, hds, q', hq', rfl⟩ := Language.mem_mul.1 hb
    exact ⟨lead, ds, q', rfl, hlead, hds, hq'⟩
  · rintro ⟨lead, ds, q', rfl, hlead, hds, hq'⟩
    exact ⟨lead, hlead, ds ++ q', Language.append_mem_mul hds hq', rfl⟩

theorem text_mem_chain : ∀ {rs : List (List α)}, (∀ ds ∈ rs, ds ∈ digits p) → text sep rs ∈ chain sep p
  | [], _       => mem_chain_iff.2 (.inl rfl)
  | ds :: rs, h => mem_chain_iff.2 (.inr ⟨ds, text sep rs, rfl, h ds List.mem_cons_self,
      text_mem_chain (fun x hx => h x (List.mem_cons_of_mem _ hx))⟩)

/-! ## The runs of a text -/

theorem runs_cons {c : α} (hc : p c = false) (s : List α) : runs p (c :: s) = runs p s := by
  unfold runs
  rw [List.splitOnP_cons_eq_if_modifyHead, if_pos (by rw [hc]; rfl)]
  rfl

theorem runs_append (hds : ds ∈ digits p) (ht : t.head?.any p = false) : runs p (ds ++ t) = ds :: runs p t := by
  obtain ⟨hne, hall⟩ := hds
  have hno : ∀ c ∈ ds, (!p c) = false := fun c hc => by rw [hall c hc]; rfl
  have hkeep : ∀ l, (ds :: l).filter (fun ds => !ds.isEmpty) = ds :: l.filter (fun ds => !ds.isEmpty) := fun l =>
    List.filter_cons_of_pos (by simpa using hne)
  cases t with
  | nil =>
    rw [List.append_nil, runs, List.splitOnP_eq_singleton hno, hkeep]
    rfl
  | cons c t =>
    have hc : p c = false := ht
    rw [runs_cons hc, runs, List.splitOnP_append_cons_of_forall_mem hno c (by rw [hc]; rfl), hkeep]
    rfl

theorem head_text (hsep : p sep = false) (rs : List (List α)) : (text sep rs).head?.any p = false := by
  cases rs with
  | nil => rfl
  | cons ds rs => exact hsep

theorem runs_text (hsep : p sep = false) : ∀ {rs : List (List α)}, (∀ ds ∈ rs, ds ∈ digits p) →
    runs p (text sep rs) = rs
  | [], _       => rfl
  | ds :: rs, h => by
    have hrs := runs_text hsep (fun x hx => h x (List.mem_cons_of_mem ds hx))
    have htext : text sep (ds :: rs) = sep :: (ds ++ text sep rs) := rfl
    rw [htext, runs_cons hsep, runs_append (h ds List.mem_cons_self) (head_text hsep rs), hrs]

/-! ## What a scan passes -/

section
variable [DecidableEq α]

@[simp] theorem skip_sep (sep : α) (s : List α) : skip sep (sep :: s) = s := if_pos rfl

theorem skip_of_head (hs : s.head? ≠ some sep) : skip sep s = s := by
  cases s with
  | nil => rfl
  | cons c cs => exact if_neg (fun hc => hs (congrArg some hc))

theorem skip_cases (sep : α) (s : List α) : s = sep :: skip sep s ∨ s.head? ≠ some sep ∧ skip sep s = s := by
  by_cases hs : s.head? = some sep
  · obtain ⟨cs, rfl⟩ := List.head?_eq_some_iff.1 hs
    rw [skip_sep]
    exact .inl rfl
  · exact .inr ⟨hs, skip_of_head hs⟩

/-- A digit behind an optional separator is what `skip` leads to. -/
theorem skip_of_front (hsep : p sep = false) {lead b : List α} (hlead : lead = [] ∨ lead = [sep])
    (hb : b.head?.any p = true) (h : lead ++ b <+: s) : s = lead ++ skip sep s ∧ b <+: skip sep s := by
  obtain ⟨u, rfl⟩ := h
  rcases hlead with rfl | rfl
  · cases b with
    | nil => cases hb
    | cons c cs =>
      have hc : c ≠ sep := fun hc => by
        rw [hc] at hb
        exact absurd (hsep.symm.trans hb) Bool.false_ne_true
      have hskip : skip sep (c :: (cs ++ u)) = c :: (cs ++ u) := if_neg hc
      rw [List.nil_append, List.cons_append, hskip]
      exact ⟨rfl, u, rfl⟩
  · rw [List.singleton_append, List.cons_append, skip_sep]
    exact ⟨rfl, List.prefix_append b u⟩

theorem reads_total (sep : α) (p : α → Bool) (s : List α) : ∃ rs tail, Reads sep p s rs tail := by
  induction hn : s.length using Nat.strongRecOn generalizing s with
  | _ n ih =>
    by_cases hstop : (skip sep s).head?.any p = false
    · exact ⟨[], s, .stop hstop⟩
    · have hsplit : skip sep s = (skip sep s).takeWhile p ++ (skip sep s).dropWhile p :=
        List.takeWhile_append_dropWhile.symm
      have hds : (skip sep s).takeWhile p ∈ digits p := by
        refine ⟨fun hnil => hstop ?_, fun c hc => List.mem_takeWhile_imp hc⟩
        cases hs : skip sep s with
        | nil => rfl
        | cons c cs =>
          rw [hs, List.takeWhile_cons] at hnil
          split at hnil
          · cases hnil
          · rename_i hc
            simpa using hc
      have hrest : ((skip sep s).dropWhile p).head?.any p = false := by
        have := List.head?_dropWhile_not p (skip sep s)
        cases hh : ((skip sep s).dropWhile p).head? with
        | none => rfl
        | some c => rw [hh] at this; exact this
      have hlen : (skip sep s).length ≤ s.length := by
        rcases skip_cases sep s with h | ⟨-, h⟩
        · have := congrArg List.length h
          rw [List.length_cons] at this
          omega
        · rw [h]
      have hpos := List.length_pos_iff.2 hds.1
      have hsum := congrArg List.length hsplit
      rw [List.length_append] at hsum
      obtain ⟨rs, tail, hreads⟩ := ih _ (by omega) ((skip sep s).dropWhile p) rfl
      exact ⟨_, tail, .turn hsplit hds hrest hreads⟩

theorem Reads.digits (h : Reads sep p s rs tail) : ∀ ds ∈ rs, ds ∈ digits p := by
  induction h with
  | stop => simp
  | turn _ hds _ _ ih => exact List.forall_mem_cons.2 ⟨hds, ih⟩

/-- A scan that starts at no digit passes a chain. -/
theorem Reads.eq_text (h : Reads sep p s rs tail) (hs : s.head?.any p = false) : s = text sep rs ++ tail := by
  induction h with
  | stop => rfl
  | @turn s ds rest tail rs hskip hds hrest _ ih =>
    have hnot : skip sep s ≠ s := fun heq => by
      have hd := head_digits hds rest
      rw [← hskip, heq, hs] at hd
      cases hd
    have hlead := (skip_cases sep s).resolve_right (fun h => hnot h.2)
    rw [hlead, hskip, ih hrest]
    simp [text]

omit [DecidableEq α] in
/-- Two runs at the same place: the shorter text cannot end inside the longer run and go on. -/
theorem length_le_of_run (hsep : p sep = false) {ds' q : List α} {k : Nat} (hds : ds ∈ digits p)
    (hrest : rest.head?.any p = false) (hds' : ds' ∈ digits p) (hq : q ∈ chain sep p) (h : ds' ++ q <+: ds ++ rest)
    (hk : q <+: rest → q.length ≤ k) : (ds' ++ q).length ≤ ds.length + k := by
  rw [List.length_append]
  rcases List.prefix_or_prefix_of_prefix ((List.prefix_append ds' q).trans h) (List.prefix_append ds rest) with
    hle | hle
  · obtain ⟨e, rfl⟩ := hle
    rw [List.append_assoc, List.prefix_append_right_inj] at h
    cases e with
    | nil =>
      have := hk h
      simpa using this
    | cons c e =>
      rcases mem_chain_iff.1 hq with rfl | ⟨_, _, rfl, -, -⟩
      · simp only [List.length_append, List.length_nil]
        omega
      · have hc : p c = true := hds.2 c (by simp)
        obtain ⟨rfl, -⟩ := List.cons_prefix_cons.1 h
        exact absurd (hsep.symm.trans hc) Bool.false_ne_true
  · obtain ⟨e, rfl⟩ := hle
    rw [List.append_assoc, List.prefix_append_right_inj] at h
    cases e with
    | nil =>
      have := hk h
      simpa using this
    | cons c e =>
      have hc : p c = true := hds'.2 c (by simp)
      obtain ⟨u, rfl⟩ := h
      exact absurd (hrest.symm.trans hc) Bool.false_ne_true

/-- No longer chain begins the text. -/
theorem Reads.chain_le (hsep : p sep = false) (h : Reads sep p s rs tail) : s.head?.any p = false →
    ∀ q ∈ chain sep p, q <+: s → q.length ≤ (text sep rs).length := by
  induction h with
  | @stop s hstop =>
    intro _ q hq hpre
    rcases mem_chain_iff.1 hq with rfl | ⟨ds, q', rfl, hds, -⟩
    · exact Nat.le_refl _
    · obtain ⟨-, u, hu⟩ := skip_of_front hsep (.inr rfl) (head_digits hds q') hpre
      rw [← hu, List.append_assoc, head_digits hds] at hstop
      cases hstop
  | @turn s ds rest tail rs hskip hds hrest _ ih =>
    intro _ q hq hpre
    rcases mem_chain_iff.1 hq with rfl | ⟨ds', q', rfl, hds', hq'⟩
    · exact Nat.zero_le _
    · obtain ⟨-, hbody⟩ := skip_of_front hsep (.inr rfl) (head_digits hds' q') hpre
      rw [hskip] at hbody
      have := length_le_of_run hsep hds hrest hds' hq' hbody (ih hrest q' hq')
      have htext : text sep (ds :: rs) = sep :: (ds ++ text sep rs) := rfl
      simp only [htext, List.length_cons, List.length_append] at this ⊢
      omega

/-- **A scan passes the longest prefix in the grammar**, and its runs are that prefix's. -/
theorem Reads.longest (hsep : p sep = false) (h : Reads sep p s rs tail) :
    ∃ pre, s = pre ++ tail ∧ Longest (grammar sep p) pre s ∧ runs p pre = rs := by
  cases h with
  | stop hstop =>
    refine ⟨[], rfl, ⟨List.nil_prefix, .inl rfl, fun q hpre hq => ?_⟩, rfl⟩
    obtain ⟨lead, ds, q', rfl, hlead, hds, -⟩ := mem_grammar_iff.1 hq
    obtain ⟨-, u, hu⟩ := skip_of_front hsep hlead (head_digits hds q') hpre
    rw [← hu, List.append_assoc, head_digits hds] at hstop
    cases hstop
  | @turn _ ds rest _ rs hskip hds hrest h =>
    have htext := h.eq_text hrest
    obtain ⟨lead, hlead, hs⟩ : ∃ lead, (lead = [] ∨ lead = [sep]) ∧ s = lead ++ (ds ++ rest) := by
      rcases skip_cases sep s with hs | ⟨-, hs⟩
      · exact ⟨[sep], .inr rfl, by rw [← hskip]; exact hs⟩
      · exact ⟨[], .inl rfl, by rw [← hskip, hs]; rfl⟩
    have hmem : lead ++ (ds ++ text sep rs) ∈ grammar sep p :=
      mem_grammar_iff.2 ⟨lead, ds, _, rfl, hlead, hds, text_mem_chain h.digits⟩
    refine ⟨lead ++ (ds ++ text sep rs), ?_, ⟨?_, .inr hmem, fun q hpre hq => ?_⟩, ?_⟩
    · rw [hs, htext, List.append_assoc, List.append_assoc]
    · rw [hs, htext, List.prefix_append_right_inj, List.prefix_append_right_inj]
      exact List.prefix_append _ _
    · obtain ⟨lead', ds', q', rfl, hlead', hds', hq'⟩ := mem_grammar_iff.1 hq
      obtain ⟨hs', hbody⟩ := skip_of_front hsep hlead' (head_digits hds' q') hpre
      have hsame : lead' = lead := by
        rw [hskip] at hs'
        exact List.append_cancel_right (hs'.symm.trans hs)
      rw [hskip] at hbody
      have := length_le_of_run hsep hds hrest hds' hq' hbody (h.chain_le hsep hrest q' hq')
      simp only [hsame, List.length_append] at this ⊢
      omega
    · have hruns : runs p (ds ++ text sep rs) = ds :: rs := by
        rw [runs_append hds (head_text hsep rs), runs_text hsep h.digits]
      rcases hlead with rfl | rfl
      · exact hruns
      · exact (runs_cons hsep _).trans hruns

/-- A chain of runs is read to its end, run by run. -/
theorem reads_text (hsep : p sep = false) : ∀ {rs : List (List α)}, (∀ ds ∈ rs, ds ∈ Dotted.digits p) →
    Reads sep p (text sep rs) rs []
  | [], _       => .stop rfl
  | ds :: rs, h => by
    have hrs := reads_text hsep (fun x hx => h x (List.mem_cons_of_mem ds hx))
    exact .turn (skip_sep sep (ds ++ text sep rs)) (h ds List.mem_cons_self) (head_text hsep rs) hrs

theorem reads_of_mem (hsep : p sep = false) (hs : s ∈ grammar sep p) : ∃ rs, Reads sep p s rs [] := by
  obtain ⟨rs, tail, h⟩ := reads_total sep p s
  obtain ⟨pre, rfl, hlong, -⟩ := h.longest hsep
  have hlen := hlong.length _ (List.prefix_refl _) hs
  rw [List.length_append] at hlen
  have htail : tail = [] := List.length_eq_zero_iff.1 (by omega)
  rw [htail] at h ⊢
  exact ⟨rs, h⟩

/-! ## Scans of texts put together -/

theorem skip_append (hs : skip sep s ≠ []) (t : List α) : skip sep (s ++ t) = skip sep s ++ t := by
  cases s with
  | nil => exact absurd rfl hs
  | cons c cs =>
    by_cases hc : c = sep
    · rw [hc, List.cons_append, skip_sep, skip_sep]
    · rw [skip_of_head (s := c :: cs) (by simpa using hc), List.cons_append,
        skip_of_head (s := c :: (cs ++ t)) (by simpa using hc)]

/-- **A text read to its end goes on with the next one**, which must not begin with a digit. -/
theorem Reads.append (h : Reads sep p s rs []) {rs' : List (List α)} (ht : t.head?.any p = false)
    (h' : Reads sep p t rs' tail) : Reads sep p (s ++ t) (rs ++ rs') tail := by
  generalize hnil : [] = e at h
  induction h with
  | stop =>
    subst hnil
    exact h'
  | @turn s ds rest _ rs hskip hds hrest _ ih =>
    have hne : skip sep s ≠ [] := by
      rw [hskip]
      exact fun hc => hds.1 (List.append_eq_nil_iff.1 hc).1
    have hskip' : skip sep (s ++ t) = ds ++ (rest ++ t) := by rw [skip_append hne, hskip, List.append_assoc]
    exact .turn hskip' hds (head_append hrest ht) (ih hnil)

/-- A separator more at the front changes nothing, unless there is one. -/
theorem Reads.sep_cons (h : Reads sep p t rs tail) (ht : t.head? ≠ some sep) :
    ∃ tail', Reads sep p (sep :: t) rs tail' := by
  have hskip : skip sep (sep :: t) = skip sep t := by rw [skip_sep, skip_of_head ht]
  cases h with
  | stop hstop => exact ⟨_, .stop (by rw [hskip]; exact hstop)⟩
  | turn hs hds hrest h => exact ⟨tail, .turn (hskip.trans hs) hds hrest h⟩

/-- What begins with neither a digit nor a separator adds nothing. -/
theorem Reads.junk (h : Reads sep p s rs tail) (hdigit : t.head?.any p = false) (ht : t.head? ≠ some sep) :
    ∃ tail', Reads sep p (s ++ t) rs tail' := by
  induction h with
  | @stop s hstop =>
    refine ⟨s ++ t, .stop ?_⟩
    by_cases hs : skip sep s = []
    · rcases skip_cases sep s with heq | ⟨-, heq⟩
      · rw [heq, hs, List.singleton_append, skip_sep]
        exact hdigit
      · rw [← heq, hs, List.nil_append, skip_of_head ht]
        exact hdigit
    · rw [skip_append hs]
      exact head_append hstop hdigit
  | @turn s ds rest _ rs hskip hds hrest _ ih =>
    have hne : skip sep s ≠ [] := by
      rw [hskip]
      exact fun hc => hds.1 (List.append_eq_nil_iff.1 hc).1
    obtain ⟨tail', h'⟩ := ih
    exact ⟨tail', .turn (by rw [skip_append hne, hskip, List.append_assoc]) hds (head_append hrest hdigit) h'⟩

end

/-! ## Texts of digits and single separators -/

/-- Only digits and separators, no two separators next to each other. -/
def Plain (sep : α) (p : α → Bool) (s : List α) : Prop :=
  (∀ c ∈ s, p c = true ∨ c = sep) ∧ s.IsChain (fun a b => ¬ (a = sep ∧ b = sep))

theorem Plain.of_append (h : Plain sep p (s ++ t)) : Plain sep p s ∧ Plain sep p t :=
  ⟨⟨fun c hc => h.1 c (List.mem_append_left t hc), h.2.left_of_append⟩,
    ⟨fun c hc => h.1 c (List.mem_append_right s hc), h.2.right_of_append⟩⟩

/-- Behind a separator there is none. -/
theorem Plain.head_of_last (h : Plain sep p (s ++ t)) (hs : s.getLast? = some sep) : t.head? ≠ some sep := fun ht =>
  (List.isChain_append.1 h.2).2.2 sep hs sep ht ⟨rfl, rfl⟩

theorem plain_append (hsep : p sep = false) (hds : ds ∈ digits p) (ht : Plain sep p t) : Plain sep p (ds ++ t) := by
  have hne : ∀ c ∈ ds, c ≠ sep := fun c hc he => by
    have hdigit := hds.2 c hc
    rw [he, hsep] at hdigit
    cases hdigit
  refine ⟨fun c hc => (List.mem_append.1 hc).elim (fun hc => .inl (hds.2 c hc)) (ht.1 c), List.isChain_append.2 ?_⟩
  refine ⟨List.isChain_iff_forall_rel_of_append_cons_cons.2 ?_, ht.2, fun x hx _ _ hc => ?_⟩
  · rintro a b l₁ l₂ rfl ⟨ha, -⟩
    exact hne a (by simp) ha
  · exact hne x (List.mem_of_getLast? hx) hc.1

theorem plain_cons (ht : Plain sep p t) (hhead : t.head? ≠ some sep) :
    Plain sep p (sep :: t) := by
  refine ⟨List.forall_mem_cons.2 ⟨.inr rfl, ht.1⟩, List.isChain_cons.2 ⟨fun y hy hc => hhead ?_, ht.2⟩⟩
  rw [← hc.2]
  exact hy

section
variable [DecidableEq α]

theorem Reads.plain (hsep : p sep = false) (h : Reads sep p s rs tail) (htail : tail = []) :
    Plain sep p (s ++ [sep]) := by
  induction h with
  | stop =>
    subst htail
    exact ⟨by simp, List.isChain_singleton sep⟩
  | @turn s ds rest tail rs hskip hds _ _ ih =>
    have hbody := plain_append hsep hds (ih htail)
    rw [← List.append_assoc, ← hskip] at hbody
    rcases skip_cases sep s with hs | ⟨-, hs⟩
    · rw [hs, List.cons_append]
      apply plain_cons hbody
      intro hc
      have hdigit := head_digits hds (rest ++ [sep])
      rw [← List.append_assoc, ← hskip, hc] at hdigit
      exact absurd (hsep.symm.trans hdigit) Bool.false_ne_true
    · rwa [hs] at hbody

/-- **A plain text that does not end with a separator is read to its end.** -/
theorem Reads.eq_nil_of_plain (h : Reads sep p s rs tail) (hs : Plain sep p s) (hlast : s.getLast? ≠ some sep) :
    tail = [] := by
  induction h with
  | @stop s hstop =>
    have hnodigit : ∀ {c cs}, Plain sep p (c :: cs) → p c = false → c = sep := fun hp hc =>
      (hp.1 _ List.mem_cons_self).resolve_left (by rw [hc]; exact Bool.false_ne_true)
    rcases skip_cases sep s with heq | ⟨hhead, heq⟩
    · rw [heq] at hs hlast
      cases hskip : skip sep s with
      | nil =>
        rw [hskip] at hlast
        exact absurd rfl hlast
      | cons c cs =>
        rw [hskip] at hs hstop
        have hplain : Plain sep p ([sep] ++ c :: cs) := hs
        exact absurd (congrArg some (hnodigit hplain.of_append.2 hstop)) (hplain.head_of_last rfl)
    · cases s with
      | nil => rfl
      | cons c cs =>
        rw [heq] at hstop
        exact absurd (congrArg some (hnodigit hs hstop)) hhead
  | @turn s ds rest tail rs hskip hds _ h ih =>
    have hsplit : ∃ lead, s = lead ++ rest := by
      rcases skip_cases sep s with heq | ⟨-, heq⟩
      · exact ⟨sep :: ds, by rw [heq, hskip]; rfl⟩
      · exact ⟨ds, by rw [← hskip, heq]⟩
    obtain ⟨lead, rfl⟩ := hsplit
    by_cases hnil : rest = []
    · subst hnil
      cases h with
      | stop => rfl
      | turn hskip hds => exact absurd (List.append_eq_nil_iff.1 hskip.symm).1 hds.1
    · refine ih hs.of_append.2 (fun hc => hlast ?_)
      rw [List.getLast?_append, hc]
      rfl

end
end Dotted
