import Mathlib.Data.List.Induction

/-!
# Runs, and who wrote last

A run of a state machine is its list of inputs, and the state it leads to is
the fold of the step over that list. A *cell* of the state is a part of it
that a step either overwrites with a value it takes from its input alone or
leaves as it is. After a run such a cell holds what the last writing input
wrote (`run_cell`), whatever else the inputs in between did – which is how a
question about a state turns into one about the history of the inputs.
-/

namespace Run

variable {σ ι ν : Type}

/-- The state a run of inputs leads to. -/
def run (step : σ → ι → σ) (s : σ) (history : List ι) : σ :=
  history.foldl step s

@[simp] theorem run_nil (step : σ → ι → σ) (s : σ) : run step s [] = s := rfl

/-- A run ends with its last step. -/
@[simp] theorem run_concat (step : σ → ι → σ) (s : σ) (h : List ι) (x : ι) :
    run step s (h ++ [x]) = step (run step s h) x :=
  List.foldl_append

/-- **Simulation**: two states that are related, with steps that keep them so
for the inputs of the history, are related after any run. -/
theorem run_simulation {τ : Type} {step : σ → ι → σ} {step' : τ → ι → τ}
    {R : σ → τ → Prop} {history : List ι}
    (hstep : ∀ s t, ∀ x ∈ history, R s t → R (step s x) (step' t x))
    {s : σ} {t : τ} (h : R s t) : R (run step s history) (run step' t history) := by
  induction history generalizing s t with
  | nil => exact h
  | cons x history ih =>
    exact ih (fun s t y hy => hstep s t y (List.mem_cons_of_mem x hy))
      (hstep s t x List.mem_cons_self h)

/-- **Invariance**: what the inputs of the history preserve, a run preserves. -/
theorem run_invariant {step : σ → ι → σ} {P : σ → Prop} {history : List ι}
    (hstep : ∀ s, ∀ x ∈ history, P s → P (step s x)) {s : σ} (h : P s) :
    P (run step s history) := by
  induction history generalizing s with
  | nil => exact h
  | cons x history ih =>
    exact ih (fun s y hy => hstep s y (List.mem_cons_of_mem x hy))
      (hstep s x List.mem_cons_self h)

/-- What the last writing input of a history wrote. -/
def lastWrite (write : ι → Option ν) (history : List ι) : Option ν :=
  (history.filterMap write).getLast?

@[simp] theorem lastWrite_nil (write : ι → Option ν) :
    lastWrite write [] = none := rfl

/-- The latest input decides where it writes. -/
@[simp] theorem lastWrite_concat (write : ι → Option ν) (history : List ι)
    (x : ι) :
    lastWrite write (history ++ [x])
      = (write x).or (lastWrite write history) := by
  unfold lastWrite
  rw [List.filterMap_append]
  cases hx : write x with
  | none => simp [hx]
  | some v => simp [hx]

/-- It is written somewhere, and nothing is after that. -/
theorem lastWrite_eq_some_iff {write : ι → Option ν} {history : List ι} {v : ν} :
    lastWrite write history = some v
      ↔ ∃ before x after, history = before ++ x :: after ∧ write x = some v
        ∧ ∀ y ∈ after, write y = none := by
  induction history using List.reverseRecOn with
  | nil => simp
  | append_singleton history y ih =>
    rw [lastWrite_concat]
    constructor
    · intro h
      obtain hy | ⟨hy, hlast⟩ := Option.or_eq_some_iff.mp h
      · exact ⟨history, y, [], rfl, hy, fun z hz => absurd hz List.not_mem_nil⟩
      · obtain ⟨before, x, after, rfl, hx, hafter⟩ := ih.mp hlast
        refine ⟨before, x, after ++ [y], ?_, hx, fun z hz => ?_⟩
        · rw [List.append_assoc]
          rfl
        · obtain hz | hz := List.mem_append.mp hz
          · exact hafter z hz
          · rwa [List.mem_singleton.mp hz]
    · rintro ⟨before, x, after, hsplit, hx, hafter⟩
      obtain rfl | ⟨after, z, rfl⟩ := after.eq_nil_or_concat
      · obtain ⟨-, heq⟩ := List.append_inj' hsplit rfl
        rw [(List.cons.inj heq).1, hx, Option.some_or]
      · rw [List.concat_eq_append, ← List.cons_append, ← List.append_assoc] at hsplit
        obtain ⟨hhistory, heq⟩ := List.append_inj' hsplit rfl
        rw [List.concat_eq_append] at hafter
        have hy : write y = none := by
          rw [(List.cons.inj heq).1]
          exact hafter z (List.mem_append_right after List.mem_cons_self)
        rw [hy, Option.none_or]
        exact ih.mpr ⟨before, x, after, hhistory, hx,
          fun w hw => hafter w (List.mem_append_left [z] hw)⟩

/-- **A cell holds what was written last**, in the form `f` in which the
state keeps it. -/
theorem run_cell {μ : Type} {step : σ → ι → σ} (get : σ → μ) (f : ν → μ)
    {write : ι → Option ν}
    (hstep : ∀ s x, get (step s x) = ((write x).map f).getD (get s)) (s : σ)
    (history : List ι) :
    get (run step s history)
      = ((lastWrite write history).map f).getD (get s) := by
  induction history using List.reverseRecOn with
  | nil => rfl
  | append_singleton history x ih =>
    rw [run_concat, hstep, ih, lastWrite_concat]
    cases write x with
    | none => rfl
    | some v => rfl

end Run
