import Mathlib.Data.Set.Function
import ClusterDeployment.Run

/-!
# Numbered slots and their rotation

A history of bounded length is often kept in numbered slots, of which slot
`0` is the current one: before something new is put there, what is in each of
the slots moves on to the next, up to slot `num`. A slot that is empty leaves
the next one empty – or, at the end of the row, alone.

Rotating is a bijection between the occupied slots, except that the content
of the last one is overwritten where its neighbour has some (`rotate_bijOn`):
that is the sense in which nothing else is lost, and nothing is duplicated.
Filling slot `0` over and over therefore keeps what was put there last, newest
first (`stored_run`).
-/

namespace Slots

open Run

variable {β : Type} {num : ℕ} {s : ℕ → Option β}

/-- Each slot up to the last takes what is in the one before it; the last one
keeps what it has if it gets nothing. -/
def rotate (num : ℕ) (s : ℕ → Option β) : ℕ → Option β
  | 0 => none
  | k + 1 =>
    if k + 1 < num then s k
    else if k + 1 = num then (s k).or (s (k + 1))
    else s (k + 1)

@[simp] theorem rotate_zero (num : ℕ) (s : ℕ → Option β) :
    rotate num s 0 = none := rfl

theorem rotate_succ (num : ℕ) (s : ℕ → Option β) (k : ℕ) :
    rotate num s (k + 1)
      = if k + 1 < num then s k
        else if k + 1 = num then (s k).or (s (k + 1))
        else s (k + 1) := rfl

/-- What is below the last slot moves on. -/
theorem rotate_of_some {k : ℕ} {c : β} (hk : k < num) (h : s k = some c) :
    rotate num s (k + 1) = some c := by
  rw [rotate_succ, h]
  split
  · rfl
  · rw [if_pos (by omega), Option.some_or]

/-- The last slot keeps its content if its neighbour has none. -/
theorem rotate_last {k : ℕ} (h : s k = none) :
    rotate (k + 1) s (k + 1) = s (k + 1) := by
  rw [rotate_succ, if_neg (Nat.lt_irrefl _), if_pos rfl, h, Option.none_or]

/-- What is beyond the last slot stays. -/
theorem rotate_of_gt {k : ℕ} (hk : num < k) : rotate num s k = s k := by
  obtain ⟨j, rfl⟩ : ∃ j, k = j + 1 := ⟨k - 1, by omega⟩
  rw [rotate_succ, if_neg (by omega), if_neg (by omega)]

/-- Moving the content of one slot on to the next, if it has some. -/
def push (i : ℕ) (s : ℕ → Option β) (k : ℕ) : Option β :=
  if k = i then none else if k = i + 1 then (s i).or (s (i + 1)) else s k

/-- A move is about two slots. -/
theorem push_of_ne {i k : ℕ} (hi : k ≠ i) (hi' : k ≠ i + 1) :
    push i s k = s k := by
  unfold push
  rw [if_neg hi, if_neg hi']

/-- With one slot beside the current one there is one move. -/
theorem push_zero (s : ℕ → Option β) : push 0 s = rotate 1 s := by
  funext k
  cases k with
  | zero => rfl
  | succ k =>
    rw [rotate_succ, if_neg (show ¬ k + 1 < 1 by omega)]
    show (if k + 1 = 1 then (s 0).or (s 1) else s (k + 1)) = _
    refine ite_congr rfl (fun hk => ?_) fun _ => rfl
    obtain rfl : k = 0 := by omega
    rfl

/-- **The moves from the last slot down make up the rotation**: once its
neighbour has been vacated, the last slot has no part in the other moves. -/
theorem rotate_push (n : ℕ) (s : ℕ → Option β) :
    rotate (n + 1) (push (n + 1) s) = rotate (n + 2) s := by
  funext k
  cases k with
  | zero => rfl
  | succ k =>
    rw [rotate_succ, rotate_succ]
    unfold push
    -- below the neighbour of the last slot, at it, at the last slot, beyond
    obtain hlt | rfl | rfl | hgt : k < n ∨ k = n ∨ k = n + 1 ∨ n + 1 < k := by omega
    all_goals grind

/-- Where the content of a slot goes. -/
def moved (num k : ℕ) : ℕ := if k < num then k + 1 else k

/-- The slots whose content is kept: the occupied ones, without the last if
its neighbour moves on to it. -/
def kept (num : ℕ) (s : ℕ → Option β) : Set ℕ :=
  {k | s k ≠ none ∧ (k = num → s (num - 1) = none)}

/-- A content that is kept goes where it should. -/
theorem rotate_moved (hnum : 0 < num) {k : ℕ} (hk : k ∈ kept num s) :
    rotate num s (moved num k) = s k := by
  obtain ⟨hsome, hlast⟩ := hk
  unfold moved
  obtain ⟨c, hc⟩ := Option.ne_none_iff_exists'.mp hsome
  by_cases hlt : k < num
  · rw [if_pos hlt, rotate_of_some hlt hc, hc]
  · rw [if_neg hlt]
    by_cases heq : k = num
    · have hneighbour := hlast heq
      obtain ⟨j, rfl⟩ : ∃ j, num = j + 1 := ⟨num - 1, by omega⟩
      rw [heq]
      exact rotate_last hneighbour
    · exact rotate_of_gt (by omega)

/-- **Nothing else is lost, and nothing is duplicated**: rotating is a
bijection from the slots whose content is kept to those that are occupied
afterwards. -/
theorem rotate_bijOn (hnum : 0 < num) (s : ℕ → Option β) :
    Set.BijOn (moved num) (kept num s) {j | rotate num s j ≠ none} := by
  refine ⟨fun k hk => ?_, fun k hk k' hk' heq => ?_, fun j hj => ?_⟩
  · show rotate num s (moved num k) ≠ none
    rw [rotate_moved hnum hk]
    exact hk.1
  · -- only the last slot and its neighbour have a common target
    unfold moved at heq
    have hlast := hk.2
    have hlast' := hk'.2
    by_cases hlt : k < num
    · by_cases hlt' : k' < num
      · rw [if_pos hlt, if_pos hlt'] at heq
        omega
      · rw [if_pos hlt, if_neg hlt'] at heq
        exact absurd (by rw [show k = num - 1 by omega]; exact hlast' (by omega)) hk.1
    · by_cases hlt' : k' < num
      · rw [if_neg hlt, if_pos hlt'] at heq
        exact absurd (by rw [show k' = num - 1 by omega]; exact hlast (by omega)) hk'.1
      · rwa [if_neg hlt, if_neg hlt'] at heq
  · cases j with
    | zero => exact absurd rfl hj
    | succ j =>
      replace hj : rotate num s (j + 1) ≠ none := hj
      rw [rotate_succ] at hj
      by_cases hlt : j + 1 < num
      · rw [if_pos hlt] at hj
        exact ⟨j, ⟨hj, by omega⟩, if_pos (by omega)⟩
      · rw [if_neg hlt] at hj
        by_cases heq : j + 1 = num
        · rw [if_pos heq] at hj
          cases hsj : s j with
          | some c => exact ⟨j, ⟨by rw [hsj]; simp, by omega⟩, if_pos (by omega)⟩
          | none =>
            rw [hsj, Option.none_or] at hj
            refine ⟨j + 1, ⟨hj, fun _ => ?_⟩, if_neg hlt⟩
            rw [← heq, Nat.add_sub_cancel, hsj]
        · rw [if_neg heq] at hj
          exact ⟨j + 1, ⟨hj, fun h => absurd h heq⟩, if_neg hlt⟩

/-- Making room in slot `0` and filling it. -/
def store (num : ℕ) (s : ℕ → Option β) (x : β) : ℕ → Option β :=
  Function.update (if s 0 = none then s else rotate num s) 0 (some x)

/-- **One more**: if the slots hold the latest contents, newest first, then so
they do with the next one stored. -/
theorem store_latest {contents : List β} (x : β)
    (h : ∀ k ≤ num, s k = contents.reverse[k]?) :
    ∀ k ≤ num, store num s x k = (contents ++ [x]).reverse[k]? := by
  intro k hk
  unfold store
  rw [List.reverse_concat]
  cases k with
  | zero => rw [Function.update_self, List.getElem?_cons_zero]
  | succ k =>
    rw [Function.update_of_ne (Nat.succ_ne_zero k), List.getElem?_cons_succ]
    have h₀ := h 0 (Nat.zero_le num)
    split
    · next hempty =>
      -- nothing has been stored yet
      rw [hempty] at h₀
      have hnil : contents.reverse = [] :=
        List.length_eq_zero_iff.mp
          (Nat.le_zero.mp (List.getElem?_eq_none_iff.mp h₀.symm))
      rw [h (k + 1) hk, hnil]
      rfl
    · rw [rotate_succ, h k (by omega), h (k + 1) hk]
      split
      · rfl
      · rw [if_pos (by omega)]
        cases hk' : contents.reverse[k]? with
        | some c => rfl
        | none =>
          rw [Option.none_or]
          rw [List.getElem?_eq_none_iff] at hk' ⊢
          omega

/-- **The slots hold what was stored last**, newest first: all of it, as long
as there are slots for it. -/
theorem stored_run (num : ℕ) (contents : List β) :
    ∀ k ≤ num, run (store num) (fun _ => none) contents k
      = contents.reverse[k]? := by
  induction contents using List.reverseRecOn with
  | nil => exact fun k _ => rfl
  | append_singleton contents x ih =>
    rw [run_concat]
    exact store_latest x ih

end Slots
