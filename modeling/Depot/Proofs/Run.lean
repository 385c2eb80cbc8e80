/-!
# Runs

The states along a run: a list of inputs, taken one after another by a step function. What every
step keeps is kept by the run; `stateAt_induction` is that argument, made once for buckets, stores
and whatever else takes steps.
-/

set_option autoImplicit false
set_option relaxedAutoImplicit false

namespace Depot

variable {σ α : Type}

/-- The state that step `i` of a run finds. Past the end of the run it is the last one. -/
def stateAt (step : σ → α → σ) (s : σ) (run : List α) (i : Nat) : σ := (run.take i).foldl step s

variable (step : σ → α → σ) (s : σ) {run : List α}

@[simp] theorem stateAt_zero : stateAt step s run 0 = s := rfl

@[simp] theorem stateAt_cons_succ (input : α) (i : Nat) :
    stateAt step s (input :: run) (i + 1) = stateAt step (step s input) run i := rfl

theorem stateAt_succ {i : Nat} {input : α} (h : run[i]? = some input) :
    stateAt step s run (i + 1) = step (stateAt step s run i) input := by
  obtain ⟨hi, rfl⟩ := List.getElem?_eq_some_iff.1 h
  unfold stateAt
  rw [List.take_succ_eq_append_getElem hi, List.foldl_append]
  rfl

theorem stateAt_succ_of_none {i : Nat} (h : run[i]? = none) :
    stateAt step s run (i + 1) = stateAt step s run i := by
  have hi : run.length ≤ i := List.getElem?_eq_none_iff.1 h
  unfold stateAt
  rw [List.take_of_length_le hi, List.take_of_length_le (by omega)]

variable {step s}

/-- What holds at step `i` and is kept by every step from there on holds from there on. -/
theorem stateAt_induction {P : Nat → σ → Prop} {i : Nat} (hstart : P i (stateAt step s run i))
    (hstep : ∀ m input, i ≤ m → run[m]? = some input → P m (stateAt step s run m) →
      P (m + 1) (step (stateAt step s run m) input))
    (hend : ∀ m, i ≤ m → run[m]? = none → P m (stateAt step s run m) →
      P (m + 1) (stateAt step s run m))
    {j : Nat} (hij : i ≤ j) : P j (stateAt step s run j) := by
  obtain ⟨n, rfl⟩ := Nat.exists_eq_add_of_le hij
  induction n with
  | zero => exact hstart
  | succ n ih =>
    have hprevious := ih (Nat.le_add_right i n)
    cases hinput : run[i + n]? with
    | some input =>
      rw [← Nat.add_assoc, stateAt_succ step s hinput]
      exact hstep (i + n) input (Nat.le_add_right i n) hinput hprevious
    | none =>
      rw [← Nat.add_assoc, stateAt_succ_of_none step s hinput]
      exact hend (i + n) (Nat.le_add_right i n) hinput hprevious

/-- What holds at some step and did not hold at an earlier one was brought about in between. -/
theorem stateAt_exists_step {Q : σ → Prop} {i j : Nat} (hij : i ≤ j)
    (hbefore : ¬ Q (stateAt step s run i)) (hafter : Q (stateAt step s run j)) :
    ∃ m input, i ≤ m ∧ m < j ∧ run[m]? = some input ∧ ¬ Q (stateAt step s run m) ∧
      Q (stateAt step s run (m + 1)) := by
  induction hij with
  | refl => exact absurd hafter hbefore
  | @step j hij ih =>
    by_cases hlast : Q (stateAt step s run j)
    · obtain ⟨m, input, him, hmj, hm⟩ := ih hlast
      exact ⟨m, input, him, Nat.lt_succ_of_lt hmj, hm⟩
    · cases hinput : run[j]? with
      | some input => exact ⟨j, input, hij, Nat.lt_succ_self j, hinput, hlast, hafter⟩
      | none =>
        rw [stateAt_succ_of_none step s hinput] at hafter
        exact absurd hafter hlast

/-- What some steps bring about, and no step undoes, holds from the first of them on. -/
theorem stateAt_iff_exists {Q : σ → Prop} {R : Nat → α → Prop}
    (hstep : ∀ n input, run[n]? = some input →
      (Q (step (stateAt step s run n) input) ↔ Q (stateAt step s run n) ∨ R n input)) (i : Nat) :
    Q (stateAt step s run i) ↔ Q s ∨ ∃ n input, n < i ∧ run[n]? = some input ∧ R n input := by
  induction i with
  | zero => simp
  | succ i ih =>
    have hlast : (∃ n input, n < i + 1 ∧ run[n]? = some input ∧ R n input) ↔
        (∃ n input, n < i ∧ run[n]? = some input ∧ R n input) ∨
          ∃ input, run[i]? = some input ∧ R i input := by
      constructor
      · rintro ⟨n, input, hn, h⟩
        rcases Nat.lt_succ_iff_lt_or_eq.1 hn with hn | rfl
        · exact Or.inl ⟨n, input, hn, h⟩
        · exact Or.inr ⟨input, h⟩
      · rintro (⟨n, input, hn, h⟩ | ⟨input, h⟩)
        · exact ⟨n, input, Nat.lt_succ_of_lt hn, h⟩
        · exact ⟨i, input, Nat.lt_succ_self i, h⟩
    rw [hlast, ← or_assoc, ← ih]
    cases hinput : run[i]? with
    | some input =>
      rw [stateAt_succ step s hinput, hstep i input hinput]
      simp
    | none => simp [stateAt_succ_of_none step s hinput]

end Depot
