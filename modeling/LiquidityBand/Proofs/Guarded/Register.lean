import LiquidityBand.Proofs.Register
import Mathlib.Data.Nat.Size

/-!
# Guarded steps

A computation in registers can go wrong at each of its steps: a result leaves its register, a
divisor is zero, a shift takes the whole width, an index is outside of its list. The guarded steps
report each of these as a fault, whether or not the rest of the computation makes it impossible. A
computation of which all steps are guarded says by its result alone that none of them went wrong.

* `store` and `storeSigned` keep an unsigned and a signed result, `shiftUp` and `shiftDown` are
  shifts, of which the first one may lose no bit, and `remainder` is a remainder;
* `entry` and `setEntry` look at and replace an entry of a list, and `spliced` is a list of which
  the entries are replaced one by one;
* `ascending` and `descending` are loops over an index, and `exists_ascending` and
  `exists_descending` say what holds behind a loop of which every step keeps an invariant;
* `IsSafe` relates a guarded computation to the one it guards: they agree, and no guard reports a
  fault. `IsSafe.bind` carries this from the steps to a row of them.
-/

namespace LiquidityBand.Guarded

/-! ### Steps on numbers -/

/-- The number `n` in `w` unsigned bits. -/
def store (w n : Nat) : Except Error Nat := if n < 2 ^ w then .ok n else .error .fault

/-- The number `z` in `w` signed bits. -/
def storeSigned (w : Nat) (z : Int) : Except Error Int :=
  if -2 ^ (w - 1) ≤ z ∧ z < 2 ^ (w - 1) then .ok z else .error .fault

/-- The number `n`, moved up by `k` bits in a register of `w` bits, none of which is lost. -/
def shiftUp (w n k : Nat) : Except Error Nat := do store w (n * 2 ^ (← shiftAmount w k))

/-- The number `n`, moved down by `k` bits in a register of `w` bits. -/
def shiftDown (w n k : Nat) : Except Error Nat := do return n / 2 ^ (← shiftAmount w k)

/-- The remainder of a quotient. -/
def remainder (a b : Nat) : Except Error Nat := if b = 0 then .error .fault else .ok (a % b)

/-- The number of zeros in front of the first set bit of `n` in a register of `w` bits. -/
def leadingZeros (w n : Nat) : Nat := w - n.size

section
variable {w n k : Nat} {z : Int}

theorem store_eq (h : n < 2 ^ w) : store w n = .ok n := if_pos h

theorem storeSigned_eq (h : -2 ^ (w - 1) ≤ z) (h' : z < 2 ^ (w - 1)) :
    storeSigned w z = .ok z := if_pos ⟨h, h'⟩

/-- A number that fits a tick fits 32 signed bits. -/
theorem storeSigned_of_fitInt32 {cause : Error} {x : Int32} (h : fitInt32 cause z = .ok x) :
    storeSigned 32 z = .ok z := by
  rw [fitInt32_eq_ok_iff] at h
  subst h
  exact storeSigned_eq (Int32.le_toInt x) (Int32.toInt_lt x)

theorem shiftUp_eq (hk : k < w) (h : n * 2 ^ k < 2 ^ w) : shiftUp w n k = .ok (n * 2 ^ k) := by
  rw [shiftUp, shiftAmount_eq_ok hk, ok_bind, store_eq h]

theorem shiftDown_eq (hk : k < w) (n : Nat) : shiftDown w n k = .ok (n / 2 ^ k) := by
  rw [shiftDown, shiftAmount_eq_ok hk]
  rfl

theorem remainder_eq {a b : Nat} (h : b ≠ 0) : remainder a b = .ok (a % b) := if_neg h

theorem leadingZeros_le (w n : Nat) : leadingZeros w n ≤ w := Nat.sub_le _ _

/-- What the zeros in front leave are the bits of the number. -/
theorem sub_leadingZeros (h : n < 2 ^ w) : w - leadingZeros w n = n.size :=
  Nat.sub_sub_self (Nat.size_le.mpr h)

end

/-! ### Steps on lists -/

/-- The entry at an index. -/
def entry {α : Type} (xs : List α) (i : Nat) : Except Error α :=
  match xs[i]? with
  | some x => .ok x
  | none => .error .fault

/-- The list with another entry at an index. -/
def setEntry {α : Type} (xs : List α) (i : Nat) (x : α) : Except Error (List α) :=
  if i < xs.length then .ok (xs.set i x) else .error .fault

section
variable {α : Type} {xs : List α} {i : Nat}

theorem entry_eq (h : i < xs.length) : entry xs i = .ok xs[i] := by
  rw [entry, List.getElem?_eq_getElem h]

theorem setEntry_eq (h : i < xs.length) (x : α) : setEntry xs i x = .ok (xs.set i x) := if_pos h

end

/-- The list whose first `i` entries are those of `xs`, and the others those of `ys`. -/
def spliced {α : Type} (xs ys : List α) (i : Nat) : List α := xs.take i ++ ys.drop i

section
variable {α : Type} {xs ys : List α} {i j : Nat} {x : α}

theorem spliced_zero (xs ys : List α) : spliced xs ys 0 = ys := by simp [spliced]

theorem spliced_of_length_le (hx : xs.length ≤ i) (hy : ys.length ≤ i) : spliced xs ys i = xs := by
  simp [spliced, List.take_of_length_le hx, hy]

theorem length_spliced (hlen : xs.length = ys.length) (i : Nat) :
    (spliced xs ys i).length = ys.length := by
  simp only [spliced, List.length_append, List.length_take, List.length_drop]
  omega

theorem entry_spliced_of_lt (hj : j < xs.length) (h : j < i) :
    entry (spliced xs ys i) j = .ok xs[j] := by
  have htake : j < (xs.take i).length := by
    rw [List.length_take]
    omega
  rw [entry, spliced, List.getElem?_append_left htake, List.getElem?_take_of_lt h,
    List.getElem?_eq_getElem hj]

theorem entry_spliced_of_le (hlen : xs.length = ys.length) (hj : j < ys.length) (h : i ≤ j) :
    entry (spliced xs ys i) j = .ok ys[j] := by
  have htake : (xs.take i).length = i := List.length_take_of_le (by omega)
  rw [entry, spliced, List.getElem?_append_right (Nat.le_trans (Nat.le_of_eq htake) h), htake,
    List.getElem?_drop, Nat.add_sub_cancel' h, List.getElem?_eq_getElem hj]

/-- The entries are replaced from the first one on. -/
theorem setEntry_spliced (hlen : xs.length = ys.length) (hx : xs[i]? = some x) :
    setEntry (spliced xs ys i) i x = .ok (spliced xs ys (i + 1)) := by
  obtain ⟨hi, rfl⟩ := List.getElem?_eq_some_iff.mp hx
  have hy : i < ys.length := hlen ▸ hi
  rw [setEntry_eq ((length_spliced hlen i).symm ▸ hy), spliced, spliced,
    List.drop_eq_getElem_cons hy, List.set_append_right _ _ (List.length_take_le i xs),
    List.length_take_of_le (Nat.le_of_lt hi), Nat.sub_self, List.set_cons_zero,
    List.take_succ_eq_append_getElem hi, List.append_assoc, List.singleton_append]

/-- The entries are replaced from the last one on. -/
theorem setEntry_spliced_succ (hlen : xs.length = ys.length) (hy : ys[i]? = some x) :
    setEntry (spliced xs ys (i + 1)) i x = .ok (spliced xs ys i) := by
  obtain ⟨hi, rfl⟩ := List.getElem?_eq_some_iff.mp hy
  have hx : i < xs.length := hlen.symm ▸ hi
  rw [setEntry_eq ((length_spliced hlen (i + 1)).symm ▸ hi), spliced, spliced,
    List.take_succ_eq_append_getElem hx, List.drop_eq_getElem_cons hi, List.append_assoc,
    List.singleton_append, List.set_append_right _ _ (List.length_take_le i xs),
    List.length_take_of_le (Nat.le_of_lt hx), Nat.sub_self, List.set_cons_zero]

end

/-! ### Loops -/

/-- The step at the indices 0 to `n - 1`, in ascending order. -/
def ascending {σ : Type} (step : Nat → σ → Except Error σ) : Nat → σ → Except Error σ
  | 0, s => .ok s
  | n + 1, s => ascending step n s >>= step n

/-- The step at the indices `n - 1` to 0, in descending order. -/
def descending {σ : Type} (step : Nat → σ → Except Error σ) : Nat → σ → Except Error σ
  | 0, s => .ok s
  | n + 1, s => step n s >>= descending step n

section
variable {σ : Type} {step : Nat → σ → Except Error σ} {P : Nat → σ → Prop} {n : Nat} {s : σ}

theorem exists_ascending (h : P 0 s)
    (hstep : ∀ i < n, ∀ t, P i t → ∃ t', step i t = .ok t' ∧ P (i + 1) t') :
    ∃ t, ascending step n s = .ok t ∧ P n t := by
  induction n with
  | zero => exact ⟨s, rfl, h⟩
  | succ n ih =>
    obtain ⟨t, ht, hP⟩ := ih fun i hi => hstep i (Nat.lt_succ_of_lt hi)
    obtain ⟨t', ht', hP'⟩ := hstep n (Nat.lt_succ_self n) t hP
    exact ⟨t', by rw [ascending, ht, ok_bind, ht'], hP'⟩

theorem exists_descending (h : P n s)
    (hstep : ∀ i < n, ∀ t, P (i + 1) t → ∃ t', step i t = .ok t' ∧ P i t') :
    ∃ t, descending step n s = .ok t ∧ P 0 t := by
  induction n generalizing s with
  | zero => exact ⟨s, rfl, h⟩
  | succ n ih =>
    obtain ⟨t, ht, hP⟩ := hstep n (Nat.lt_succ_self n) s h
    obtain ⟨t', ht', hP'⟩ := ih hP fun i hi => hstep i (Nat.lt_succ_of_lt hi)
    exact ⟨t', by rw [descending, ht, ok_bind, ht'], hP'⟩

/-- A loop goes through the states that its steps lead from one to the next. -/
theorem ascending_eq (state : Nat → σ)
    (hstep : ∀ i < n, step i (state i) = .ok (state (i + 1))) :
    ascending step n (state 0) = .ok (state n) := by
  have h : ∃ t, ascending step n (state 0) = .ok t ∧ t = state n :=
    exists_ascending (P := fun i t => t = state i) rfl fun i hi t ht =>
      ⟨state (i + 1), by rw [ht, hstep i hi], rfl⟩
  obtain ⟨t, ht, rfl⟩ := h
  exact ht

theorem descending_eq (state : Nat → σ)
    (hstep : ∀ i < n, step i (state (i + 1)) = .ok (state i)) :
    descending step n (state n) = .ok (state 0) := by
  have h : ∃ t, descending step n (state n) = .ok t ∧ t = state 0 :=
    exists_descending (P := fun i t => t = state i) rfl fun i hi t ht =>
      ⟨state i, by rw [ht, hstep i hi], rfl⟩
  obtain ⟨t, ht, rfl⟩ := h
  exact ht

end

/-! ### Safe computations -/

/-- Failures, with those among them that a guard reports. -/
class Faulty (ε : Type) where
  isFault : ε → Prop

instance : Faulty Error := ⟨(· = .fault)⟩

instance (e : Error) : Decidable (Faulty.isFault e) := inferInstanceAs (Decidable (e = .fault))

/-- The guarded computation agrees with the other one, and no guard reports a fault. -/
structure IsSafe {ε α : Type} [Faulty ε] (guarded result : Except ε α) : Prop where
  eq : guarded = result
  no_fault : ∀ e, result = .error e → ¬Faulty.isFault e

section
variable {ε δ α β : Type} [Faulty ε] [Faulty δ] {x y : Except ε α} {a : α} {e : ε}

theorem isSafe_ok (a : α) : IsSafe (.ok a : Except ε α) (.ok a) := ⟨rfl, nofun⟩

theorem isSafe_of_eq_ok (hx : x = .ok a) (hy : y = .ok a) : IsSafe x y := by
  rw [hx, hy]
  exact isSafe_ok a

theorem isSafe_error (h : ¬Faulty.isFault e) : IsSafe (.error e : Except ε α) (.error e) :=
  ⟨rfl, fun _ he => Except.error.inj he ▸ h⟩

theorem isSafe_refusal {cause : Error} (h : cause ≠ .fault) :
    IsSafe (.error cause : Except Error α) (.error cause) := isSafe_error h

/-- Safe steps in a row are safe. -/
theorem IsSafe.bind {f g : α → Except ε β} (h : IsSafe x y)
    (hstep : ∀ a, y = .ok a → IsSafe (f a) (g a)) : IsSafe (x >>= f) (y >>= g) := by
  obtain ⟨rfl, hfault⟩ := h
  cases x with
  | ok a => exact hstep a rfl
  | error e => exact isSafe_error (hfault e rfl)

theorem IsSafe.mapError {f : ε → δ} (h : IsSafe x y)
    (hf : ∀ e, Faulty.isFault (f e) → Faulty.isFault e) :
    IsSafe (x.mapError f) (y.mapError f) := by
  obtain ⟨rfl, hfault⟩ := h
  cases x with
  | ok a => exact isSafe_ok a
  | error e => exact isSafe_error (mt (hf e) (hfault e rfl))

theorem IsSafe.ite {p : Prop} [Decidable p] {x' y' : Except ε α} (h : p → IsSafe x y)
    (h' : ¬p → IsSafe x' y') : IsSafe (if p then x else x') (if p then y else y') := by
  by_cases hp : p
  · rw [if_pos hp, if_pos hp]
    exact h hp
  · rw [if_neg hp, if_neg hp]
    exact h' hp

theorem isSafe_fit {w n : Nat} (h : ¬Faulty.isFault e) : IsSafe (fit w e n) (fit w e n) :=
  ⟨rfl, fun _ he => (fit_eq_error_iff.mp he).2 ▸ h⟩

theorem isSafe_fitInt32 {z : Int} {cause : Error} (h : cause ≠ .fault) :
    IsSafe (fitInt32 cause z) (fitInt32 cause z) := by
  unfold fitInt32
  exact .ite (fun _ => isSafe_ok _) fun _ => isSafe_error h

end

end LiquidityBand.Guarded
