import Messenger.LabelledRuns

/-!
Two machines that read events, related state by state. An event of the lower machine is
matched by a list of events of the upper one, which may be empty; the relation then holds
after every run whose events meet the condition under which the steps are matched, and what
is true of every run of the upper machine can be read off below.
-/
namespace Messenger.Simulations

open LabelledRuns

variable {σ ε τ δ : Type*} {step : σ → ε → σ} {step' : τ → δ → τ}

/-- `R` is kept when each event below is matched by the events that `shown` gives above. -/
def Simulates (step : σ → ε → σ) (step' : τ → δ → τ) (shown : σ → ε → List δ)
    (C : σ → ε → Prop) (R : σ → τ → Prop) : Prop :=
  ∀ s e t, R s t → C s e → R (step s e) (run step' t (shown s e))

/-- The events above that match a run below. -/
def shownRun (step : σ → ε → σ) (shown : σ → ε → List δ) : σ → List ε → List δ
  | _, [] => []
  | s, e :: events => shown s e ++ shownRun step shown (step s e) events

variable {shown : σ → ε → List δ} {C : σ → ε → Prop} {R : σ → τ → Prop}

theorem Simulates.run (h : Simulates step step' shown C R) {s : σ} {t : τ} (hR : R s t)
    {events : List ε} (hC : Along step C s events) :
    R (LabelledRuns.run step s events)
      (LabelledRuns.run step' t (shownRun step shown s events)) := by
  induction events generalizing s t with
  | nil => exact hR
  | cons e rest ih =>
    have hfirst := h s e t hR hC.1
    rw [shownRun, run_append]
    exact ih hfirst hC.2

theorem shownRun_append (s : σ) (before after : List ε) :
    shownRun step shown s (before ++ after) =
      shownRun step shown s before ++
        shownRun step shown (LabelledRuns.run step s before) after := by
  induction before generalizing s with
  | nil => rfl
  | cons e rest ih =>
    rw [List.cons_append, shownRun, ih, shownRun, List.append_assoc, run_cons]

/-- What was said is repeated in its order, each entry any number of times. -/
def Echoes (said heard : List δ) : Prop :=
  ∃ counts : List ℕ, counts.length = said.length ∧
    heard = (List.zipWith List.replicate counts said).flatten

theorem echoes_nil : Echoes ([] : List δ) [] := ⟨[], rfl, rfl⟩

theorem echoes_replicate (k : ℕ) (x : δ) : Echoes [x] (List.replicate k x) :=
  ⟨[k], rfl, (List.append_nil _).symm⟩

theorem Echoes.append {said said' heard heard' : List δ} (h : Echoes said heard)
    (h' : Echoes said' heard') : Echoes (said ++ said') (heard ++ heard') := by
  obtain ⟨counts, hlength, rfl⟩ := h
  obtain ⟨counts', hlength', rfl⟩ := h'
  refine ⟨counts ++ counts', by simp [hlength, hlength'], ?_⟩
  rw [List.zipWith_append hlength, List.flatten_append]

/-- What echoes in every step echoes in a run. -/
theorem shownRun_echoes {said heard : σ → ε → List δ} (h : ∀ s e, Echoes (said s e) (heard s e))
    (s : σ) (events : List ε) :
    Echoes (shownRun step said s events) (shownRun step heard s events) := by
  induction events generalizing s with
  | nil => exact echoes_nil
  | cons e rest ih => exact (h s e).append (ih (step s e))

end Messenger.Simulations
