/-
# Runs that fail, and runs that come to the same

Every operation of this library is a step on some state that ends well or fails, and leaves the
state as it is either way.  A longer operation is a chain of such steps.  This module says once how
a chain runs (`bind_of_ok`, `bind_of_error`, `bind_eq_ok`), so that no later proof unfolds the
chaining, and how two chains over *different* states are compared.

The comparison is `Alike`.  Two runs are alike when both end well, with results and states that are
related, or both fail, with failures and states that are related.  It is a relation on the two
results, so it composes along chains with whatever relation holds in between (`Alike.bind`): that is
what a proof about reading from memory and reading from a stream needs, where the relation between
the two sources changes from field to field.

What is said of the state alone, however a run ends, is said by `Along` and `Keeps`, and composes
along chains as well.  So does what a run can see of its state (`Sees`), and what it can fail with
(`Fails`).
-/
import Mathlib

namespace Envelope

variable {ε ε' σ τ α β γ δ : Type}

/-! ## 1. Chains -/

/-- A chain goes on after a step that ends well. -/
theorem bind_of_ok {x : EStateM ε σ α} {f : α → EStateM ε σ β} {s s' : σ} {a : α}
    (h : x s = .ok a s') : (x >>= f) s = f a s' := by
  show EStateM.bind x f s = f a s'
  rw [EStateM.bind, h]

/-- A chain ends with the first step that fails. -/
theorem bind_of_error {x : EStateM ε σ α} {f : α → EStateM ε σ β} {s s' : σ} {e : ε}
    (h : x s = .error e s') : (x >>= f) s = .error e s' := by
  show EStateM.bind x f s = .error e s'
  rw [EStateM.bind, h]

/-- **A chain that ends well did so step by step.** -/
theorem bind_eq_ok {x : EStateM ε σ α} {f : α → EStateM ε σ β} {s t : σ} {b : β} :
    (x >>= f) s = .ok b t ↔ ∃ a r, x s = .ok a r ∧ f a r = .ok b t := by
  constructor
  · intro h
    cases hx : x s with
    | ok a r => exact ⟨a, r, rfl, by rwa [bind_of_ok hx] at h⟩
    | error e r => rw [bind_of_error hx] at h; exact absurd h (by simp)
  · rintro ⟨a, r, hx, hf⟩
    rw [bind_of_ok hx, hf]

@[simp] theorem pure_eq (a : α) (s : σ) : (pure a : EStateM ε σ α) s = .ok a s := rfl

@[simp] theorem throw_eq (e : ε) (s : σ) : (throw e : EStateM ε σ α) s = .error e s := rfl

/-- The state that a run leaves, however it ends. -/
@[simp] def leftBy : EStateM.Result ε σ α → σ
  | .ok _ s => s
  | .error _ s => s

/-! ## 2. Runs side by side -/

/-- **Two runs that come to the same**: both end well and `After` relates what they leave, or both
fail and `Failed` does. -/
def Alike (After : α → β → σ → τ → Prop) (Failed : ε → ε' → σ → τ → Prop) :
    EStateM.Result ε σ α → EStateM.Result ε' τ β → Prop
  | .ok a s, .ok b t => After a b s t
  | .error e s, .error e' t => Failed e e' s t
  | _, _ => False

section

variable {After : α → β → σ → τ → Prop} {Failed : ε → ε' → σ → τ → Prop}

/-- **Two outcomes, not four**: runs that are alike both end well, or both fail. -/
theorem Alike.outcome {x : EStateM.Result ε σ α} {y : EStateM.Result ε' τ β}
    (h : Alike After Failed x y) :
    (∃ a b s t, x = .ok a s ∧ y = .ok b t ∧ After a b s t) ∨
      ∃ e e' s t, x = .error e s ∧ y = .error e' t ∧ Failed e e' s t := by
  cases x with
  | ok a s =>
    cases y with
    | ok b t => exact Or.inl ⟨a, b, s, t, rfl, rfl, h⟩
    | error e t => exact h.elim
  | error e s =>
    cases y with
    | ok b t => exact h.elim
    | error e' t => exact Or.inr ⟨e, e', s, t, rfl, rfl, h⟩

/-- Beside a run that ends well, the other ends well. -/
theorem Alike.of_ok {y : EStateM.Result ε' τ β} {a : α} {s : σ}
    (h : Alike After Failed (.ok a s) y) : ∃ b t, y = .ok b t ∧ After a b s t := by
  rcases h.outcome with ⟨_, b, _, t, hx, hy, hab⟩ | ⟨_, _, _, _, hx, -⟩
  · obtain ⟨rfl, rfl⟩ := EStateM.Result.ok.inj hx
    exact ⟨b, t, hy, hab⟩
  · simp at hx

/-- Beside a run that fails, the other fails. -/
theorem Alike.of_error {y : EStateM.Result ε' τ β} {e : ε} {s : σ}
    (h : Alike After Failed (.error e s) y) : ∃ e' t, y = .error e' t ∧ Failed e e' s t := by
  rcases h.outcome with ⟨_, _, _, _, hx, -⟩ | ⟨_, e', _, t, hx, hy, hee⟩
  · simp at hx
  · obtain ⟨rfl, rfl⟩ := EStateM.Result.error.inj hx
    exact ⟨e', t, hy, hee⟩

/-- **Chains are alike when their steps are.** -/
theorem Alike.bind {Then : γ → δ → σ → τ → Prop} {x : EStateM ε σ α} {y : EStateM ε' τ β}
    {f : α → EStateM ε σ γ} {g : β → EStateM ε' τ δ} {s : σ} {t : τ}
    (h : Alike After Failed (x s) (y t))
    (hf : ∀ a b s t, After a b s t → Alike Then Failed (f a s) (g b t)) :
    Alike Then Failed ((x >>= f) s) ((y >>= g) t) := by
  rcases h.outcome with ⟨a, b, s', t', hx, hy, hab⟩ | ⟨e, e', s', t', hx, hy, hee⟩
  · rw [bind_of_ok hx, bind_of_ok hy]
    exact hf a b s' t' hab
  · rw [bind_of_error hx, bind_of_error hy]
    exact hee

/-- What is related more closely is alike. -/
theorem Alike.mono {After' : α → β → σ → τ → Prop} {x : EStateM.Result ε σ α}
    {y : EStateM.Result ε' τ β} (h : Alike After Failed x y)
    (hw : ∀ a b s t, After a b s t → After' a b s t) : Alike After' Failed x y := by
  rcases h.outcome with ⟨a, b, s, t, rfl, rfl, hab⟩ | ⟨e, e', s, t, rfl, rfl, hee⟩
  · exact hw a b s t hab
  · exact hee

end

/-- A run whose state is a part of a larger one. -/
def within (put : σ → τ) : EStateM.Result ε σ α → EStateM.Result ε τ α
  | .ok a s => .ok a (put s)
  | .error e s => .error e (put s)

theorem leftBy_within (put : σ → τ) (result : EStateM.Result ε σ α) :
    leftBy (within put result) = put (leftBy result) := by
  cases result <;> rfl

/-- A run on a part of a larger state, which is taken out of it and put back. -/
def onPart (get : τ → σ) (put : τ → σ → τ) (x : EStateM ε σ α) : EStateM ε τ α := fun t =>
  within (put t) (x (get t))

/-- **Runs on a part of the state, one after the other, are one run on it.** -/
theorem onPart_bind {get : τ → σ} {put : τ → σ → τ} (hget : ∀ t s, get (put t s) = s)
    (hput : ∀ t s s', put (put t s) s' = put t s') (x : EStateM ε σ α) (f : α → EStateM ε σ β) :
    onPart get put (x >>= f) = onPart get put x >>= fun a => onPart get put (f a) := by
  funext t
  cases hx : x (get t) with
  | ok a s =>
    have hfirst : onPart get put x t = .ok a (put t s) := by rw [onPart, hx]; rfl
    rw [bind_of_ok hfirst, onPart, onPart, bind_of_ok hx, hget]
    cases f a s <;> simp only [within, hput]
  | error e s =>
    have hfirst : onPart get put x t = .error e (put t s) := by rw [onPart, hx]; rfl
    rw [bind_of_error hfirst, onPart, bind_of_error hx]
    rfl

/-! ## 3. What a run does to its state -/

/-- **A run moves its state along a relation**, however it ends. -/
def Along (R : σ → σ → Prop) (x : EStateM ε σ α) : Prop := ∀ s, R s (leftBy (x s))

/-- A chain moves its state along what its steps move it along. -/
theorem Along.bind {R : σ → σ → Prop} {x : EStateM ε σ α} {f : α → EStateM ε σ β}
    (htrans : ∀ {r s t}, R r s → R s t → R r t) (hx : Along R x) (hf : ∀ a, Along R (f a)) :
    Along R (x >>= f) := by
  intro s
  have hfirst := hx s
  cases h : x s with
  | ok a s' =>
    rw [h] at hfirst
    rw [bind_of_ok h]
    exact htrans hfirst (hf a s')
  | error e s' =>
    rw [h] at hfirst
    rw [bind_of_error h]
    exact hfirst

/-- **A run keeps something of its state as it is**, however it ends. -/
def Keeps (view : σ → γ) (x : EStateM ε σ α) : Prop := Along (fun s t => view t = view s) x

section

variable {view : σ → γ}

theorem Keeps.bind {x : EStateM ε σ α} {f : α → EStateM ε σ β} (hx : Keeps view x)
    (hf : ∀ a, Keeps view (f a)) : Keeps view (x >>= f) :=
  Along.bind (fun h₁ h₂ => h₂.trans h₁) hx hf

theorem Keeps.pure (a : α) : Keeps view (pure a : EStateM ε σ α) := fun _ => rfl

theorem Keeps.throw (e : ε) : Keeps view (throw e : EStateM ε σ α) := fun _ => rfl

end

/-! ## 4. What a run sees -/

/-- **A run that sees no more of its state than this**: from states that look alike it comes to the
same result, and to states that look alike. -/
def Sees (view : σ → τ) (x : EStateM ε σ α) : Prop :=
  ∀ s t, view s = view t → within view (x s) = within view (x t)

section

variable {view : σ → τ}

theorem Sees.bind {x : EStateM ε σ α} {f : α → EStateM ε σ β} (hx : Sees view x)
    (hf : ∀ a, Sees view (f a)) : Sees view (x >>= f) := by
  intro s t hst
  have hfirst := hx s t hst
  cases hs : x s with
  | ok a s' =>
    cases ht : x t with
    | ok b t' =>
      rw [hs, ht] at hfirst
      obtain ⟨rfl, hst'⟩ := EStateM.Result.ok.inj hfirst
      rw [bind_of_ok hs, bind_of_ok ht]
      exact hf a s' t' hst'
    | error e t' => simp [hs, ht, within] at hfirst
  | error e s' =>
    cases ht : x t with
    | ok b t' => simp [hs, ht, within] at hfirst
    | error e' t' =>
      rw [hs, ht] at hfirst
      obtain ⟨rfl, hst'⟩ := EStateM.Result.error.inj hfirst
      rw [bind_of_error hs, bind_of_error ht, within, within, hst']

theorem Sees.pure (a : α) : Sees view (pure a : EStateM ε σ α) := fun _ _ hst =>
  congrArg (EStateM.Result.ok a) hst

theorem Sees.throw (e : ε) : Sees view (throw e : EStateM ε σ α) := fun _ _ hst =>
  congrArg (EStateM.Result.error e) hst

end

/-! ## 5. How a run fails -/

/-- **A run fails in these ways only.** -/
def Fails (ways : ε → Prop) (x : EStateM ε σ α) : Prop :=
  ∀ s s' e, x s = .error e s' → ways e

section

variable {ways : ε → Prop}

/-- **A chain fails where one of its steps does.**  A later step only counts with what an earlier
one can come to. -/
theorem Fails.bind_of {x : EStateM ε σ α} {f : α → EStateM ε σ β} (hx : Fails ways x)
    (hf : ∀ s a s', x s = .ok a s' → Fails ways (f a)) : Fails ways (x >>= f) := by
  intro s t e h
  cases hs : x s with
  | ok a s' =>
    rw [bind_of_ok hs] at h
    exact hf s a s' hs s' t e h
  | error e' s' =>
    rw [bind_of_error hs] at h
    obtain ⟨rfl, -⟩ := EStateM.Result.error.inj h
    exact hx s s' e' hs

theorem Fails.bind {x : EStateM ε σ α} {f : α → EStateM ε σ β} (hx : Fails ways x)
    (hf : ∀ a, Fails ways (f a)) : Fails ways (x >>= f) :=
  hx.bind_of fun _ a _ _ => hf a

theorem Fails.pure (a : α) : Fails ways (pure a : EStateM ε σ α) := fun _ _ _ h => by
  simp at h

theorem Fails.throw {e : ε} (he : ways e) : Fails ways (throw e : EStateM ε σ α) :=
  fun _ _ _ h => by
    obtain ⟨rfl, -⟩ := EStateM.Result.error.inj h
    exact he

theorem Fails.mono {ways' : ε → Prop} {x : EStateM ε σ α} (h : Fails ways x)
    (hw : ∀ e, ways e → ways' e) : Fails ways' x :=
  fun s s' e he => hw e (h s s' e he)

end

end Envelope
