import ThumbSoc.Proofs.Transfer

/-!
# Computations that agree

The results of two computations agree if both succeed with related values, or both fail with the
same error, and the states that they leave are related. Sequences of computations agree if their
parts do.
-/

namespace ThumbSoc

variable {ε σ α β : Type}

/-- Results of the same kind, with the same error or related values, and with related states. -/
inductive Agree (V : α → α → Prop) (R : σ → σ → Prop) :
    EStateM.Result ε σ α → EStateM.Result ε σ α → Prop where
  | ok {a a' : α} {s s' : σ} (values : V a a') (states : R s s') : Agree V R (.ok a s) (.ok a' s')
  | error (e : ε) {s s' : σ} (states : R s s') : Agree V R (.error e s) (.error e s')

namespace Agree

variable {V V' : α → α → Prop} {W : β → β → Prop} {R R' : σ → σ → Prop} {s s' : σ}

theorem refl (hV : ∀ a, V a a) (hR : ∀ s, R s s) (result : EStateM.Result ε σ α) :
  Agree V R result result
  := by
  cases result with
  | ok a s => exact .ok (hV a) (hR s)
  | error e s => exact .error e (hR s)

theorem mono {result result' : EStateM.Result ε σ α} (h : Agree V R result result')
    (hV : ∀ a a', V a a' → V' a a') :
  Agree V' R result result'
  := by
  cases h with
  | ok values states => exact .ok (hV _ _ values) states
  | error e states => exact .error e states

theorem bind {x x' : EStateM ε σ α} {f f' : α → EStateM ε σ β} (hx : Agree V R (x s) (x' s'))
    (hf : ∀ a a' mid mid', x s = .ok a mid → V a a' → R mid mid' →
      Agree W R (f a mid) (f' a' mid')) :
  Agree W R ((x >>= f) s) ((x' >>= f') s')
  := by
  cases hleft : x s with
  | ok a mid =>
    cases hright : x' s' with
    | ok a' mid' =>
      rw [hleft, hright] at hx
      cases hx with
      | ok values states =>
        rw [bind_of_ok f hleft, bind_of_ok f' hright]
        apply hf a a' mid mid' hleft values states
    | error e' mid' =>
      rw [hleft, hright] at hx
      cases hx
  | error e mid =>
    cases hright : x' s' with
    | ok a' mid' =>
      rw [hleft, hright] at hx
      cases hx
    | error e' mid' =>
      rw [hleft, hright] at hx
      cases hx with
      | error e states =>
        rw [bind_of_error f hleft, bind_of_error f' hright]
        exact .error _ states

/-- Results that agree leave related states. -/
theorem states {result result' : EStateM.Result ε σ α} (h : Agree V R result result') :
  R (resultState result) (resultState result')
  := by
  cases h with
  | ok values states => exact states
  | error e states => exact states

end Agree

end ThumbSoc
