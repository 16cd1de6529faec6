import Messenger.LabelledRuns
import Mathlib.Order.WellFounded

/-!
Machines that come to rest. Some of the events are steps that the machine takes by itself;
when each of them changes nothing or makes a measure smaller, then from every state there
are only so many that do something, and some of them lead to a state in which none does.
-/
namespace Messenger.SettlingRuns

open LabelledRuns

variable {σ ι μ : Type*} (step : σ → ι → σ) (I : ι → Prop)

/-- `s'` comes after `s` by an event of its own that does something. -/
def Moves (s' s : σ) : Prop := ∃ e, I e ∧ step s e = s' ∧ s' ≠ s

/-- No event of its own does anything. -/
def Resting (s : σ) : Prop := ∀ e, I e → step s e = s

variable {step I}

theorem acc_of_measure [LT μ] [WellFoundedLT μ] {P : σ → Prop} (m : σ → μ)
    (hP : ∀ s e, P s → I e → P (step s e))
    (hm : ∀ s e, P s → I e → step s e = s ∨ m (step s e) < m s) {s : σ} (hs : P s) :
    Acc (Moves step I) s := by
  induction hval : m s using WellFoundedLT.induction generalizing s with
  | _ value ih =>
    refine ⟨s, ?_⟩
    rintro s' ⟨e, he, rfl, hne⟩
    rcases hm s e hs he with hsame | hless
    · exact absurd hsame hne
    · exact ih _ (hval ▸ hless) (hP s e hs he) rfl

/-- Some of its own events lead to rest. -/
theorem exists_resting {s : σ} (h : Acc (Moves step I) s) :
    ∃ events, (∀ e ∈ events, I e) ∧ Resting step I (run step s events) := by
  induction h with
  | intro s _ ih =>
    by_cases hresting : Resting step I s
    · exact ⟨[], fun e he => absurd he List.not_mem_nil, hresting⟩
    · unfold Resting at hresting
      push Not at hresting
      obtain ⟨e, he, hne⟩ := hresting
      obtain ⟨events, hevents, hrest⟩ := ih (step s e) ⟨e, he, rfl, hne⟩
      exact ⟨e :: events, List.forall_mem_cons.mpr ⟨he, hevents⟩, hrest⟩

/-- The state after the first `k` events of an endless schedule. -/
def after (step : σ → ι → σ) (s : σ) (schedule : ℕ → ι) (k : ℕ) : σ :=
  run step s ((List.range k).map schedule)

theorem after_succ (s : σ) (schedule : ℕ → ι) (k : ℕ) :
    after step s schedule (k + 1) = step (after step s schedule k) (schedule k) := by
  unfold after
  rw [List.range_succ, List.map_append, run_append]
  rfl

/-- No endless schedule of its own events does something every time. -/
theorem exists_idle {s : σ} (h : Acc (Moves step I) s) (schedule : ℕ → ι)
    (hI : ∀ k, I (schedule k)) :
    ∃ k, step (after step s schedule k) (schedule k) = after step s schedule k := by
  by_contra hbusy
  push Not at hbusy
  have hmoves : ∀ k, Moves step I (after step s schedule (k + 1)) (after step s schedule k) :=
    fun k => ⟨schedule k, hI k, (after_succ s schedule k).symm, by
      rw [after_succ]
      exact hbusy k⟩
  have hnone : ∀ s', Acc (Moves step I) s' → ∀ k, s' ≠ after step s schedule k := by
    intro s' hs'
    induction hs' with
    | intro s' _ ih =>
      rintro k rfl
      exact ih _ (hmoves k) (k + 1) rfl
  exact hnone s h 0 rfl

end Messenger.SettlingRuns
