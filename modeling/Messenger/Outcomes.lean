import Mathlib.Logic.Relation

/-!
Stateful programs that can throw, as `EStateM`: whether a program returns or throws,
it leaves a state behind. `Moves A m s` says that all m does to s, up to its return
or its throw, is a sequence of atomic actions A. What every action preserves is then
preserved by the program, on both ways out.
-/
namespace Messenger.Outcomes

variable {ε σ α β : Type} {A : σ → σ → Prop}

/-- The state at the end, however the program ended. -/
def final : EStateM.Result ε σ α → σ
  | .ok _ s => s
  | .error _ s => s

@[simp] theorem final_ok (a : α) (s : σ) : final (.ok a s : EStateM.Result ε σ α) = s := rfl

@[simp] theorem final_error (e : ε) (s : σ) :
    final (.error e s : EStateM.Result ε σ α) = s := rfl

@[simp] theorem run_throw_any (e : ε) (s : σ) :
    EStateM.run (throw e : EStateM ε σ α) s = .error e s := rfl

/-- What is seen of an end without the state. -/
def outcome : EStateM.Result ε σ α → Except ε α
  | .ok a _ => .ok a
  | .error e _ => .error e

theorem outcome_eq_ok {r : EStateM.Result ε σ α} {a : α} :
    outcome r = .ok a ↔ ∃ s, r = .ok a s := by
  cases r with
  | ok b s => simp [outcome]
  | error e s => simp [outcome]

theorem ok_bind (a : α) (f : α → Except ε β) : (Except.ok a >>= f) = f a := rfl

def Moves (A : σ → σ → Prop) (m : EStateM ε σ α) (s : σ) : Prop :=
  Relation.ReflTransGen A s (final (m.run s))

theorem moves_pure (a : α) (s : σ) : Moves A (pure a : EStateM ε σ α) s := .refl

theorem moves_throw (e : ε) (s : σ) : Moves A (throw e : EStateM ε σ α) s := .refl

theorem moves_get (s : σ) : Moves A (get : EStateM ε σ σ) s := .refl

theorem moves_modify {f : σ → σ} {s : σ} (h : A s (f s)) :
    Moves A (modify f : EStateM ε σ PUnit) s := .single h

/-- The second program may use what the first is known to have returned. -/
theorem moves_bind {m : EStateM ε σ α} {f : α → EStateM ε σ β} {s : σ} (hm : Moves A m s)
    (hf : ∀ a t, m.run s = .ok a t → Moves A (f a) t) : Moves A (m >>= f) s := by
  unfold Moves at *
  rw [EStateM.run_bind]
  cases h : m.run s with
  | ok a t =>
    rw [h] at hm
    exact hm.trans (hf a t h)
  | error e t =>
    rw [h] at hm
    exact hm

theorem moves_ite {c : Prop} [Decidable c] {m n : EStateM ε σ α} {s : σ}
    (hm : c → Moves A m s) (hn : ¬ c → Moves A n s) : Moves A (if c then m else n) s := by
  by_cases h : c
  · rw [if_pos h]
    exact hm h
  · rw [if_neg h]
    exact hn h

/-- What each action keeps, a sequence of actions keeps. -/
theorem preserved_of_actions {P : σ → Prop} (hA : ∀ s t, A s t → P s → P t) {s t : σ}
    (h : Relation.ReflTransGen A s t) (hs : P s) : P t := by
  induction h with
  | refl => exact hs
  | tail _ hstep ih => exact hA _ _ hstep ih

theorem Moves.preserves {P : σ → Prop} (hA : ∀ s t, A s t → P s → P t) {m : EStateM ε σ α}
    {s : σ} (h : Moves A m s) (hs : P s) : P (final (m.run s)) :=
  preserved_of_actions hA h hs

/-- Actions that compose are one action. -/
theorem Moves.collapse (hrefl : ∀ s, A s s) (htrans : ∀ s t u, A s t → A t u → A s u)
    {m : EStateM ε σ α} {s : σ} (h : Moves A m s) : A s (final (m.run s)) :=
  preserved_of_actions (fun t u htu hst => htrans s t u hst htu) h (hrefl s)

theorem Moves.mono {B : σ → σ → Prop} (hAB : ∀ s t, A s t → B s t) {m : EStateM ε σ α} {s : σ}
    (h : Moves A m s) : Moves B m s :=
  Relation.ReflTransGen.mono hAB _ _ h

/-- Whenever m returns, it returns a value in `Q`. -/
def Returns (Q : α → Prop) (m : EStateM ε σ α) : Prop := ∀ s a t, m.run s = .ok a t → Q a

variable {Q : α → Prop}

theorem returns_pure {a : α} (h : Q a) : Returns Q (pure a : EStateM ε σ α) := by
  intro s b t hrun
  cases hrun
  exact h

theorem returns_bind {m : EStateM ε σ β} {f : β → EStateM ε σ α} (hf : ∀ b, Returns Q (f b)) :
    Returns Q (m >>= f) := by
  intro s a t hrun
  rw [EStateM.run_bind] at hrun
  cases h : m.run s with
  | ok b u =>
    rw [h] at hrun
    exact hf b u a t hrun
  | error e u =>
    rw [h] at hrun
    cases hrun

theorem returns_ite {c : Prop} [Decidable c] {m n : EStateM ε σ α} (hm : Returns Q m)
    (hn : Returns Q n) : Returns Q (if c then m else n) := by
  split
  · exact hm
  · exact hn

/-- Whenever m throws, it throws an exception in `E`. -/
def Throws (E : ε → Prop) (m : EStateM ε σ α) : Prop := ∀ s e t, m.run s = .error e t → E e

variable {E : ε → Prop}

theorem throws_pure (a : α) : Throws E (pure a : EStateM ε σ α) := by
  intro s e t hrun
  cases hrun

theorem throws_get : Throws E (get : EStateM ε σ σ) := by
  intro s e t hrun
  cases hrun

theorem throws_modify (f : σ → σ) : Throws E (modify f : EStateM ε σ PUnit) := by
  intro s e t hrun
  cases hrun

theorem throws_throw {e : ε} (h : E e) : Throws E (throw e : EStateM ε σ α) := by
  intro s e' t hrun
  cases hrun
  exact h

theorem throws_bind {m : EStateM ε σ β} {f : β → EStateM ε σ α} (hm : Throws E m)
    (hf : ∀ b, Throws E (f b)) : Throws E (m >>= f) := by
  intro s e t hrun
  rw [EStateM.run_bind] at hrun
  cases h : m.run s with
  | ok b u =>
    rw [h] at hrun
    exact hf b u e t hrun
  | error e' u =>
    rw [h] at hrun
    cases hrun
    exact hm s e t h

theorem throws_ite {c : Prop} [Decidable c] {m n : EStateM ε σ α} (hm : Throws E m)
    (hn : Throws E n) : Throws E (if c then m else n) := by
  split
  · exact hm
  · exact hn

end Messenger.Outcomes
