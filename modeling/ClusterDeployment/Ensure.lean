import Mathlib.Data.List.Nodup

/-!
# Adding what is not found

A script that may be run again first looks whether what it is about to add is
there, and adds it only if it is not. Nothing ties the look-up to the
addition: a store in which something is *found* need not be one to which it
was *added*. All that is asked of the two here is that what was added is
found, and that what is found stays found.

That is enough for running the script twice to be running it once
(`ensureAll_of_forall_found`) and for nothing to be added twice
(`nodup_added`). For everything to be added it is not: an element is missed
for good if it is found the first time it comes up (`forall_mem_added_iff`).
-/

namespace Ensure

variable {σ ν : Type} (found : σ → ν → Prop) [∀ s, DecidablePred (found s)]
variable (add : σ → ν → σ)

/-- Add what is not found. -/
def ensure (s : σ) (x : ν) : σ := if found s x then s else add s x

/-- One after the other. -/
def ensureAll (s : σ) (xs : List ν) : σ := xs.foldl (ensure found add) s

/-- What is added on the way. -/
def added : σ → List ν → List ν
  | _, [] => []
  | s, x :: xs =>
    if found s x then added s xs else x :: added (add s x) xs

/-- **A look-up and an addition that fit together.** -/
structure Lawful : Prop where
  /-- What was added is found. -/
  found_add : ∀ s x, found (add s x) x
  /-- What is found stays found. -/
  mono : ∀ s x y, found s x → found (add s y) x

variable {found add} {s : σ} {x : ν} {xs ys : List ν}

@[simp] theorem ensureAll_nil : ensureAll found add s [] = s := rfl

theorem ensureAll_cons :
    ensureAll found add s (x :: xs)
      = ensureAll found add (ensure found add s x) xs := rfl

theorem ensureAll_append :
    ensureAll found add s (xs ++ ys)
      = ensureAll found add (ensureAll found add s xs) ys :=
  List.foldl_append

theorem ensure_of_found (h : found s x) : ensure found add s x = s := if_pos h

theorem ensure_of_not_found (h : ¬ found s x) :
    ensure found add s x = add s x := if_neg h

theorem added_cons_of_found (h : found s x) :
    added found add s (x :: xs) = added found add s xs := if_pos h

theorem added_cons_of_not_found (h : ¬ found s x) :
    added found add s (x :: xs) = x :: added found add (add s x) xs := if_neg h

/-- **The store afterwards** is what has been added, one after the other. -/
theorem ensureAll_eq_foldl (s : σ) (xs : List ν) :
    ensureAll found add s xs = (added found add s xs).foldl add s := by
  induction xs generalizing s with
  | nil => rfl
  | cons x xs ih =>
    rw [ensureAll_cons]
    by_cases h : found s x
    · rw [ensure_of_found h, added_cons_of_found h, ih]
    · rw [ensure_of_not_found h, added_cons_of_not_found h, ih]
      rfl

/-- What is added comes from the list, in its order. -/
theorem added_sublist (s : σ) (xs : List ν) :
    (added found add s xs).Sublist xs := by
  induction xs generalizing s with
  | nil => exact List.Sublist.refl []
  | cons x xs ih =>
    by_cases h : found s x
    · rw [added_cons_of_found h]
      exact (ih s).cons x
    · rw [added_cons_of_not_found h]
      exact (ih (add s x)).cons_cons x

/-- The additions to a list in two parts. -/
theorem added_append (s : σ) (xs ys : List ν) :
    added found add s (xs ++ ys)
      = added found add s xs
        ++ added found add (ensureAll found add s xs) ys := by
  induction xs generalizing s with
  | nil => rfl
  | cons x xs ih =>
    rw [List.cons_append, ensureAll_cons]
    by_cases h : found s x
    · rw [added_cons_of_found h, added_cons_of_found h, ensure_of_found h, ih]
    · rw [added_cons_of_not_found h, added_cons_of_not_found h,
        ensure_of_not_found h, ih, List.cons_append]

/-- If everything is found already, nothing changes. -/
theorem ensureAll_of_forall_found (h : ∀ x ∈ xs, found s x) :
    ensureAll found add s xs = s := by
  induction xs with
  | nil => rfl
  | cons x xs ih =>
    rw [ensureAll_cons, ensure_of_found (h x List.mem_cons_self)]
    exact ih fun y hy => h y (List.mem_cons_of_mem x hy)

namespace Lawful

variable (hl : Lawful found add)
include hl

/-- What is found stays found. -/
theorem found_ensureAll (h : found s x) (xs : List ν) :
    found (ensureAll found add s xs) x := by
  induction xs generalizing s with
  | nil => exact h
  | cons y xs ih =>
    rw [ensureAll_cons]
    refine ih ?_
    by_cases hy : found s y
    · rwa [ensure_of_found hy]
    · rw [ensure_of_not_found hy]
      exact hl.mono s x y h

/-- **Everything is found afterwards.** -/
theorem found_of_mem (s : σ) (hx : x ∈ xs) :
    found (ensureAll found add s xs) x := by
  induction xs generalizing s with
  | nil => exact absurd hx List.not_mem_nil
  | cons y xs ih =>
    rw [ensureAll_cons]
    obtain rfl | hx := List.mem_cons.mp hx
    · refine hl.found_ensureAll ?_ xs
      by_cases h : found s x
      · rwa [ensure_of_found h]
      · rw [ensure_of_not_found h]
        exact hl.found_add s x
    · exact ih _ hx

/-- What is found is not added. -/
theorem not_mem_added (h : found s x) (xs : List ν) :
    x ∉ added found add s xs := by
  induction xs generalizing s with
  | nil => exact List.not_mem_nil
  | cons y xs ih =>
    by_cases hy : found s y
    · rw [added_cons_of_found hy]
      exact ih h
    · rw [added_cons_of_not_found hy]
      intro hx
      obtain rfl | hx := List.mem_cons.mp hx
      · exact hy h
      · exact ih (hl.mono s x y h) hx

/-- **Nothing is added twice.** -/
theorem nodup_added (s : σ) (xs : List ν) : (added found add s xs).Nodup := by
  induction xs generalizing s with
  | nil => exact List.nodup_nil
  | cons x xs ih =>
    by_cases h : found s x
    · rw [added_cons_of_found h]
      exact ih s
    · rw [added_cons_of_not_found h]
      exact List.nodup_cons.mpr
        ⟨hl.not_mem_added (hl.found_add s x) xs, ih (add s x)⟩

/-- Whether something is added is decided by the part of the list in which it
comes up first. -/
theorem mem_added_of_append (hx : x ∈ xs)
    (h : x ∈ added found add s (xs ++ ys)) : x ∈ added found add s xs := by
  rw [added_append] at h
  obtain h | h := List.mem_append.mp h
  · exact h
  · exact absurd h (hl.not_mem_added (hl.found_of_mem s hx) ys)

/-- **When everything is added**: if nothing is found the first time it comes
up. -/
theorem forall_mem_added_iff (s : σ) (xs : List ν) :
    (∀ x ∈ xs, x ∈ added found add s xs)
      ↔ ∀ before x after, xs = before ++ x :: after → x ∉ before →
        ¬ found (ensureAll found add s before) x := by
  constructor
  · rintro h before x after rfl hx hfound
    have hmem := h x (List.mem_append_right before List.mem_cons_self)
    rw [added_append] at hmem
    obtain hmem | hmem := List.mem_append.mp hmem
    · exact hx ((added_sublist s before).subset hmem)
    · exact hl.not_mem_added hfound (x :: after) hmem
  · intro h x hx
    obtain ⟨before, after, rfl, hbefore⟩ := List.eq_append_cons_of_mem hx
    rw [added_append,
      added_cons_of_not_found (h before x after rfl hbefore)]
    exact List.mem_append_right _ List.mem_cons_self

end Lawful

end Ensure
