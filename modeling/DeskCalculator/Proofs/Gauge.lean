/-
# A gauge

Some things begin and end inside each other: the evaluations of the nodes of a tree, the nested
parts of an expression.  A gauge counts those that have begun and not ended, and keeps the largest
number that it has counted.  What goes on with a gauge and can fail leaves it in some position also
when it fails.
-/

namespace DeskCalculator

/-- How many things are going on, and the most that there have been. -/
structure Gauge where
  running : Nat
  most : Nat
  running_le : running ≤ most

namespace Gauge

/-- Nothing has begun. -/
def idle : Gauge := ⟨0, 0, Nat.le_refl 0⟩

/-- Something begins. -/
def enter (gauge : Gauge) : Gauge :=
  ⟨gauge.running + 1, max gauge.most (gauge.running + 1), Nat.le_max_right _ _⟩

/-- Something ends. -/
def leave (gauge : Gauge) : Gauge :=
  ⟨gauge.running - 1, gauge.most, Nat.le_trans (Nat.sub_le _ _) gauge.running_le⟩

/-- The gauge after `n` things, one inside the other, that have ended. -/
def raised (gauge : Gauge) (n : Nat) : Gauge :=
  ⟨gauge.running, max gauge.most (gauge.running + n),
    Nat.le_trans gauge.running_le (Nat.le_max_left _ _)⟩

/-- One activation more is running after one has been entered. -/
@[simp] theorem enter_running (gauge : Gauge) : gauge.enter.running = gauge.running + 1 := rfl

/-- Entering an activation raises the mark if there have never been as many. -/
@[simp] theorem enter_most (gauge : Gauge) :
    gauge.enter.most = max gauge.most (gauge.running + 1) := rfl

/-- One activation less is running after one has been left. -/
@[simp] theorem leave_running (gauge : Gauge) : gauge.leave.running = gauge.running - 1 := rfl

/-- Leaving an activation does not lower the mark. -/
@[simp] theorem leave_most (gauge : Gauge) : gauge.leave.most = gauge.most := rfl

/-- Raising the mark by no activations changes nothing. -/
theorem raised_zero (gauge : Gauge) : gauge.raised 0 = gauge := by
  obtain ⟨running, most, running_le⟩ := gauge
  simpa only [raised, Nat.add_zero, mk.injEq, true_and] using Nat.max_eq_left running_le

/-- Of two raises of the mark, the higher one counts. -/
theorem raised_raised (gauge : Gauge) (m n : Nat) :
    (gauge.raised m).raised n = gauge.raised (max m n) := by
  simp only [raised, mk.injEq, true_and]
  omega

/-- What raises the mark inside an activation raises it by one more outside. -/
theorem leave_raised_enter (gauge : Gauge) (n : Nat) :
    (gauge.enter.raised n).leave = gauge.raised (n + 1) := by
  simp only [raised, enter, leave, mk.injEq]
  omega

variable {ε α β : Type} {x : ExceptT ε (StateM Gauge) α} {f : α → ExceptT ε (StateM Gauge) β}
  {gauge gauge' : Gauge}

/-- What succeeds leaves its gauge to what comes after it. -/
theorem bind_of_ok {a : α} (h : x gauge = (.ok a, gauge')) : (x >>= f) gauge = f a gauge' := by
  change ExceptT.bindCont f (x gauge).1 (x gauge).2 = _
  rw [h]
  rfl

/-- What fails leaves its gauge as the last one. -/
theorem bind_of_error {e : ε} (h : x gauge = (.error e, gauge')) :
    (x >>= f) gauge = (.error e, gauge') := by
  change ExceptT.bindCont f (x gauge).1 (x gauge).2 = _
  rw [h]
  rfl

end Gauge
end DeskCalculator
