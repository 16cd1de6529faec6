import Mathlib.Data.List.Basic

/-!
Runs of a machine that reads one event after the other. A property that one event
preserves holds after every run; when it is preserved only under a condition on the
state and the event, it holds after every run whose events all meet the condition
where they occur. What has occurred in a run stays so when the run goes on.
-/
namespace Messenger.LabelledRuns

variable {σ ι : Type*} (step : σ → ι → σ)

def run (s : σ) (events : List ι) : σ := events.foldl step s

@[simp] theorem run_nil (s : σ) : run step s [] = s := rfl

@[simp] theorem run_cons (s : σ) (e : ι) (events : List ι) :
    run step s (e :: events) = run step (step s e) events := rfl

theorem run_append (s : σ) (before after : List ι) :
    run step s (before ++ after) = run step (run step s before) after :=
  List.foldl_append

/-- Recording events is a run too. -/
theorem run_snoc (before events : List ι) :
    run (fun recorded e => recorded ++ [e]) before events = before ++ events := by
  induction events generalizing before with
  | nil => exact (List.append_nil _).symm
  | cons e rest ih => rw [run_cons, ih, List.append_assoc, List.singleton_append]

/-- Every event of the run meets `C` in the state in which it occurs. -/
def Along (C : σ → ι → Prop) : σ → List ι → Prop
  | _, [] => True
  | s, e :: events => C s e ∧ Along C (step s e) events

variable {step}

instance decidableAlong {C : σ → ι → Prop} [∀ s e, Decidable (C s e)] :
    ∀ (s : σ) (events : List ι), Decidable (Along step C s events)
  | _, [] => inferInstanceAs (Decidable True)
  | s, e :: events =>
    have : Decidable (Along step C (step s e) events) := decidableAlong (step s e) events
    inferInstanceAs (Decidable (C s e ∧ Along step C (step s e) events))

theorem invariant_along {P : σ → Prop} {C : σ → ι → Prop}
    (hstep : ∀ s e, P s → C s e → P (step s e)) {s : σ} {events : List ι} (hs : P s)
    (hC : Along step C s events) : P (run step s events) := by
  induction events generalizing s with
  | nil => exact hs
  | cons e rest ih => exact ih (hstep s e hs hC.1) hC.2

theorem along_append_iff {C : σ → ι → Prop} {s : σ} {before after : List ι} :
    Along step C s (before ++ after) ↔
      Along step C s before ∧ Along step C (run step s before) after := by
  induction before generalizing s with
  | nil => exact (and_iff_right trivial).symm
  | cons e rest ih => exact (and_congr_right fun _ => ih).trans and_assoc.symm

theorem along_true (s : σ) (events : List ι) : Along step (fun _ _ => True) s events := by
  induction events generalizing s with
  | nil => trivial
  | cons e rest ih => exact ⟨trivial, ih (step s e)⟩

theorem along_of_forall {C : ι → Prop} {events : List ι} (hC : ∀ e ∈ events, C e) (s : σ) :
    Along step (fun _ e => C e) s events := by
  induction events generalizing s with
  | nil => trivial
  | cons e rest ih =>
    exact ⟨hC e List.mem_cons_self, ih (fun e' he' => hC e' (List.mem_cons_of_mem _ he')) _⟩

theorem along_and_of_forall {C : ι → Prop} {D : σ → ι → Prop} {s : σ} {events : List ι}
    (hC : ∀ e ∈ events, C e) (hD : Along step D s events) :
    Along step (fun s e => C e ∧ D s e) s events := by
  induction events generalizing s with
  | nil => trivial
  | cons e rest ih =>
    exact ⟨⟨hC e List.mem_cons_self, hD.1⟩,
      ih (fun e' he' => hC e' (List.mem_cons_of_mem _ he')) hD.2⟩

theorem invariant {P : σ → Prop} (hstep : ∀ s e, P s → P (step s e)) {s : σ} (hs : P s)
    (events : List ι) : P (run step s events) :=
  invariant_along (fun s e h (_ : True) => hstep s e h) hs
    (along_true s events)

/-- A condition on the events alone. -/
theorem invariant_events {P : σ → Prop} {C : ι → Prop}
    (hstep : ∀ s e, P s → C e → P (step s e)) {s : σ} {events : List ι} (hs : P s)
    (hC : ∀ e ∈ events, C e) : P (run step s events) := by
  induction events generalizing s with
  | nil => exact hs
  | cons e rest ih =>
    exact ih (hstep s e hs (hC e List.mem_cons_self))
      (fun e' he' => hC e' (List.mem_cons_of_mem _ he'))

variable {C D : σ → ι → Prop} {s : σ} {events : List ι} {e : ι}

/-- Some event of the run met `C` in the state in which it occurred. -/
def Occurred (step : σ → ι → σ) (C : σ → ι → Prop) (s : σ) (events : List ι) : Prop :=
  ∃ before e after, events = before ++ e :: after ∧ C (run step s before) e

/-- An event met `C`, and a later one met `D`. -/
def OccurredInOrder (step : σ → ι → σ) (C D : σ → ι → Prop) (s : σ) (events : List ι) : Prop :=
  ∃ before e between e' after, events = before ++ e :: (between ++ e' :: after) ∧
    C (run step s before) e ∧ D (run step s (before ++ e :: between)) e'

theorem Occurred.append (h : Occurred step C s events) (later : List ι) :
    Occurred step C s (events ++ later) := by
  obtain ⟨before, e, after, rfl, hC⟩ := h
  exact ⟨before, e, after ++ later, by simp, hC⟩

theorem occurred_last (h : C (run step s events) e) : Occurred step C s (events ++ [e]) :=
  ⟨events, e, [], rfl, h⟩

/-- What has occurred has occurred before the last event or at it. -/
theorem occurred_snoc_iff :
    Occurred step C s (events ++ [e]) ↔ Occurred step C s events ∨ C (run step s events) e := by
  constructor
  · rintro ⟨before, e₀, after, hevents, hC⟩
    rcases List.eq_nil_or_concat after with rfl | ⟨init, last, rfl⟩
    · obtain ⟨rfl, hlast⟩ := List.append_inj' hevents rfl
      obtain rfl := List.singleton_inj.mp hlast
      exact Or.inr hC
    · rw [List.concat_eq_append, ← List.cons_append, ← List.append_assoc] at hevents
      obtain ⟨rfl, -⟩ := List.append_inj' hevents rfl
      exact Or.inl ⟨before, e₀, init, rfl, hC⟩
  · rintro (hearlier | hlast)
    · exact hearlier.append [e]
    · exact occurred_last hlast

theorem OccurredInOrder.append (h : OccurredInOrder step C D s events) (later : List ι) :
    OccurredInOrder step C D s (events ++ later) := by
  obtain ⟨before, e, between, e', after, rfl, hC, hD⟩ := h
  exact ⟨before, e, between, e', after ++ later, by simp, hC, hD⟩

theorem Occurred.then_last (h : Occurred step C s events) (hD : D (run step s events) e) :
    OccurredInOrder step C D s (events ++ [e]) := by
  obtain ⟨before, e₀, after, rfl, hC⟩ := h
  exact ⟨before, e₀, after, e, [], by simp, hC, hD⟩

end Messenger.LabelledRuns
