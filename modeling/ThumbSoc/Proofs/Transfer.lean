import Mathlib.Tactic.Use
import ThumbSoc.Semantics

/-!
# Reasoning about transfers

A computation over the bus succeeds or fails, and leaves a bus in both cases. A relation
between the bus before and after that is reflexive and transitive carries over from the single
transfers to everything that is built of them. What is seen of a state after a sequence of changes
is what was last put there.
-/

namespace ThumbSoc

variable {ε σ α β : Type}

/-! ### Sequencing -/

theorem bind_eq_ok {x : EStateM ε σ α} {f : α → EStateM ε σ β} {s s' : σ} {b : β} :
  (x >>= f) s = .ok b s' ↔ ∃ a mid, x s = .ok a mid ∧ f a mid = .ok b s'
  := by
  change EStateM.bind x f s = _ ↔ _
  rw [EStateM.bind]
  cases x s with
  | ok a mid =>
    constructor
    · intro h
      use a, mid
    · rintro ⟨_, _, ⟨⟩, h⟩
      apply h
  | error e mid =>
    constructor
    · intro h
      cases h
    · rintro ⟨_, _, h, _⟩
      cases h

theorem bind_eq_error {x : EStateM ε σ α} {f : α → EStateM ε σ β} {s s' : σ} {e : ε} :
  (x >>= f) s = .error e s'
    ↔ x s = .error e s' ∨ ∃ a mid, x s = .ok a mid ∧ f a mid = .error e s'
  := by
  change EStateM.bind x f s = _ ↔ _
  rw [EStateM.bind]
  cases x s with
  | ok a mid =>
    constructor
    · intro h
      right
      use a, mid
    · rintro (h | ⟨_, _, ⟨⟩, h⟩)
      · cases h
      · apply h
  | error e mid =>
    constructor
    · intro h
      left
      cases h
      rfl
    · rintro (h | ⟨_, _, h, _⟩)
      · cases h
        rfl
      · cases h

theorem bind_of_ok {x : EStateM ε σ α} {s mid : σ} {a : α} (f : α → EStateM ε σ β)
    (h : x s = .ok a mid) :
  (x >>= f) s = f a mid
  := by
  change EStateM.bind x f s = _
  simp only [EStateM.bind, h]

theorem bind_of_error {x : EStateM ε σ α} {s mid : σ} {e : ε} (f : α → EStateM ε σ β)
    (h : x s = .error e mid) :
  (x >>= f) s = .error e mid
  := by
  change EStateM.bind x f s = _
  simp only [EStateM.bind, h]

/-! ### What a computation keeps -/

/-- The state that a result carries. -/
def resultState : EStateM.Result ε σ α → σ
  | .ok _ s => s
  | .error _ s => s

/-- The state before a computation is related to the one it leaves, whether it fails or not. -/
def Keeps (R : σ → σ → Prop) (x : EStateM ε σ α) : Prop :=
  ∀ s, R s (resultState (x s))

namespace Keeps

variable {R : σ → σ → Prop}

theorem pure (hrefl : ∀ s, R s s) (a : α) :
  Keeps R (Pure.pure a : EStateM ε σ α)
  := fun s => hrefl s

theorem bind (htrans : ∀ s t u, R s t → R t u → R s u) {x : EStateM ε σ α}
    {f : α → EStateM ε σ β} (hx : Keeps R x) (hf : ∀ a, Keeps R (f a)) :
  Keeps R (x >>= f)
  := by
  intro s
  have h := hx s
  change R s (resultState (EStateM.bind x f s))
  rw [EStateM.bind]
  cases hxs : x s with
  | ok a mid =>
    rw [hxs] at h
    apply htrans _ _ _ h (hf a mid)
  | error e mid =>
    rw [hxs] at h
    apply h

end Keeps

/-! ### What a computation yields -/

/-- Every value that the computation can yield satisfies `P`. -/
def Yields (P : α → Prop) (x : EStateM ε σ α) : Prop :=
  ∀ s a s', x s = .ok a s' → P a

namespace Yields

theorem pure {P : α → Prop} {a : α} (h : P a) :
  Yields P (Pure.pure a : EStateM ε σ α)
  := by
  intro s b s' hpure
  cases hpure
  apply h

theorem bind {P : β → Prop} {x : EStateM ε σ α} {f : α → EStateM ε σ β}
    (hf : ∀ a, Yields P (f a)) :
  Yields P (x >>= f)
  := by
  intro s b s' hbind
  obtain ⟨a, mid, _, hfa⟩ := bind_eq_ok.mp hbind
  apply hf a mid b s' hfa

end Yields

/-! ### Sequences of changes -/

/-- What is seen after a sequence of changes is what the last change has put there that puts
anything there, and the old sight if none does. -/
theorem foldl_last {γ : Type} {step : σ → γ → σ} {f : σ → α} {put? : γ → Option α} {P : σ → Prop}
    {changes : List γ}
    (hstep : ∀ s, P s → ∀ c ∈ changes, P (step s c) ∧ f (step s c) = (put? c).getD (f s)) {s : σ}
    (hs : P s) :
  P (changes.foldl step s)
    ∧ f (changes.foldl step s) = (changes.reverse.findSome? put?).getD (f s)
  := by
  induction changes generalizing s with
  | nil => exact ⟨hs, rfl⟩
  | cons c rest ih =>
    obtain ⟨hnext, hseen⟩ := hstep s hs c List.mem_cons_self
    have hrest := ih (fun s hs c hc => hstep s hs c (List.mem_cons_of_mem _ hc)) hnext
    rw [List.foldl_cons, List.reverse_cons, List.findSome?_append, List.findSome?_singleton,
      Option.getD_or, ← hseen]
    exact hrest

/-! ### Transfers of an instruction -/

namespace Instruction

variable {pc : Word} {bus bus' : Bus}

theorem transferring_ok {α : Type} {transfer : Transfer α} {a : α} :
  transferring pc transfer bus = .ok a bus' ↔ transfer bus = .ok a bus'
  := by
  simp only [transferring]
  cases transfer bus with
  | ok a mid => simp
  | error cause mid => simp

theorem transferring_error {α : Type} {transfer : Transfer α} {fault : CoreFault} :
  transferring pc transfer bus = .error fault bus'
    ↔ ∃ cause, fault = .bus pc cause ∧ transfer bus = .error cause bus'
  := by
  simp only [transferring]
  cases transfer bus with
  | ok a mid =>
    constructor
    · intro h
      cases h
    · rintro ⟨_, _, h⟩
      cases h
  | error cause mid =>
    constructor
    · intro h
      cases h
      use cause
    · rintro ⟨_, rfl, h⟩
      cases h
      rfl

end Instruction

end ThumbSoc
