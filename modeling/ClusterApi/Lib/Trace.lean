import Mathlib

/-!
# Labelled runs

A run of a labelled transition relation records the labels of its steps. Invariants over a run
may speak of the state and of the trace so far together. `Pending isA isB` follows a trace and
says whether an `A` label has happened with no `B` label after it. A system that takes an `A`
step only while nothing is pending has a `B` between any two `A`s.
-/

namespace ClusterApi.Lib.Trace

variable {σ ε : Type*}

inductive Run (step : σ → ε → σ → Prop) : σ → List ε → σ → Prop
  | nil (s : σ) : Run step s [] s
  | snoc {s t u : σ} {evs : List ε} {e : ε} : Run step s evs t → step t e u →
      Run step s (evs ++ [e]) u

variable {step : σ → ε → σ → Prop}

/-- The invariant rule: a property of the state and the trace that holds at the start and is
kept by every step holds at the end of every run. -/
theorem Run.invariant (P : σ → List ε → Prop) {s t : σ} {evs : List ε} (h₀ : P s [])
    (hstep : ∀ t u evs e, Run step s evs t → P t evs → step t e u → P u (evs ++ [e]))
    (hrun : Run step s evs t) : P t evs := by
  induction hrun with
  | nil => exact h₀
  | snoc hrun hs ih => exact hstep _ _ _ _ hrun ih hs

theorem Run.cons {s t u : σ} {e : ε} {evs : List ε} (hs : step s e t) (hrun : Run step t evs u) :
    Run step s (e :: evs) u := by
  induction hrun with
  | nil => simpa using Run.snoc (Run.nil s) hs
  | snoc _ ht ih => simpa using Run.snoc ih ht

theorem Run.split {s t : σ} {evs : List ε} (hrun : Run step s evs t) {pre post : List ε} {e : ε}
    (h : evs = pre ++ e :: post) : ∃ u v, Run step s pre u ∧ step u e v ∧ Run step v post t := by
  induction hrun generalizing post with
  | nil => simp at h
  | @snoc t' u' evs' e' hrun hs ih =>
    rcases List.eq_nil_or_concat' post with rfl | ⟨post', x, rfl⟩
    · obtain ⟨rfl, rfl⟩ : evs' = pre ∧ e' = e := by simpa using h
      exact ⟨t', u', hrun, hs, Run.nil u'⟩
    · have h' : evs' ++ [e'] = (pre ++ e :: post') ++ [x] := by simpa using h
      obtain ⟨hevs, hx⟩ := List.append_inj' h' rfl
      obtain rfl : e' = x := by simpa using hx
      obtain ⟨u, v, hpre, huv, hpost⟩ := ih hevs
      exact ⟨u, v, hpre, huv, Run.snoc hpost hs⟩

section Pending

variable (isA isB : ε → Bool)

def pendingAfter (p : Bool) (e : ε) : Bool :=
  if isA e then true else if isB e then false else p

/-- An `A` label has happened and no `B` label since. -/
def Pending (evs : List ε) : Bool :=
  evs.foldl (pendingAfter isA isB) false

@[simp]
theorem Pending_nil : Pending isA isB [] = false := rfl

@[simp]
theorem Pending_append_singleton (evs : List ε) (e : ε) :
    Pending isA isB (evs ++ [e]) = pendingAfter isA isB (Pending isA isB evs) e := by
  simp [Pending]

theorem foldl_pendingAfter_true {mid : List ε} (h : ∀ e ∈ mid, isB e = false) :
    mid.foldl (pendingAfter isA isB) true = true := by
  induction mid with
  | nil => rfl
  | cons e rest ih =>
    have hrest : ∀ e ∈ rest, isB e = false := fun e' he' => h e' (List.mem_cons_of_mem _ he')
    simp only [List.foldl_cons, pendingAfter, h e List.mem_cons_self]
    split <;> exact ih hrest

theorem exists_between {evs : List ε}
    (h : ∀ pre e post, evs = pre ++ e :: post → isA e = true → Pending isA isB pre = false)
    {pre mid post : List ε} {a b : ε} (hevs : evs = pre ++ a :: (mid ++ b :: post))
    (ha : isA a = true) (hb : isA b = true) : ∃ c ∈ mid, isB c = true := by
  by_contra hno
  have hmid : ∀ c ∈ mid, isB c = false := by
    intro c hc
    simpa using fun hc' => hno ⟨c, hc, hc'⟩
  have hfalse := h (pre ++ a :: mid) b post (by simp [hevs]) hb
  have htrue : Pending isA isB (pre ++ a :: mid) = true := by
    rw [Pending, List.foldl_append, List.foldl_cons, pendingAfter, if_pos ha]
    exact foldl_pendingAfter_true isA isB hmid
  rw [htrue] at hfalse
  cases hfalse

end Pending

/-! ### Loops over a list

A loop `for _, x := range l` that threads an accumulator is `l.foldl`; its invariant rule. -/

theorem foldl_invariant {α β : Type*} (P : β → Prop) (f : β → α → β) {l : List α} {b : β}
    (h₀ : P b) (hstep : ∀ acc, ∀ x ∈ l, P acc → P (f acc x)) : P (l.foldl f b) := by
  induction l generalizing b with
  | nil => exact h₀
  | cons x rest ih =>
    exact ih (hstep b x List.mem_cons_self h₀) fun acc y hy =>
      hstep acc y (List.mem_cons_of_mem x hy)

theorem foldl_invariant_floor {α β : Type*} (P : β → Prop) (φ : β → Int) (c : α → Int) (L : Int)
    (f : β → α → β) {l : List α} {b : β} (h₀ : P b) (hφ : L + (l.map c).sum ≤ φ b)
    (hc : ∀ x ∈ l, 0 ≤ c x)
    (hstep : ∀ acc, ∀ x ∈ l, P acc → L ≤ φ acc - c x → P (f acc x) ∧ φ acc - c x ≤ φ (f acc x)) :
    P (l.foldl f b) ∧ L ≤ φ (l.foldl f b) := by
  induction l generalizing b with
  | nil =>
    rw [List.map_nil, List.sum_nil, add_zero] at hφ
    exact ⟨h₀, hφ⟩
  | cons x rest ih =>
    rw [List.map_cons, List.sum_cons] at hφ
    have hrest : 0 ≤ (rest.map c).sum :=
      List.sum_nonneg fun y hy => by
        obtain ⟨z, hz, rfl⟩ := List.mem_map.mp hy
        exact hc z (List.mem_cons_of_mem x hz)
    obtain ⟨hP, hφ'⟩ := hstep b x List.mem_cons_self h₀ (by omega)
    exact ih hP (by omega) (fun y hy => hc y (List.mem_cons_of_mem x hy))
      fun acc y hy => hstep acc y (List.mem_cons_of_mem x hy)

/-- The simulation rule: when each element's step commutes with an abstraction of the
accumulator, the loop does too. -/
theorem foldl_simulate {α β γ : Type*} (abs : β → γ) (f : β → α → β) (g : γ → α → γ)
    {l : List α} {b : β} (hstep : ∀ acc, ∀ x ∈ l, abs (f acc x) = g (abs acc) x) :
    abs (l.foldl f b) = l.foldl g (abs b) := by
  induction l generalizing b with
  | nil => rfl
  | cons x rest ih =>
    rw [List.foldl_cons, List.foldl_cons, ← hstep b x List.mem_cons_self]
    exact ih fun acc y hy => hstep acc y (List.mem_cons_of_mem x hy)

end ClusterApi.Lib.Trace
