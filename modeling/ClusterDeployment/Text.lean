import Mathlib.Data.List.Infix

/-!
# Texts, lines and separators

A text is a list of characters. A tool that works line by line – or path
component by path component – reads it cut at a separator, and one that
searches it literally reads it uncut. `infix_splitOn_iff` says when that
makes no difference: a word without the separator lies in one piece of the
text exactly where it lies in the text.
-/

variable {α : Type}

/-- A text: what a command prints, what a file holds, a path, a name. -/
abbrev Text := List Char

/-- A word without the separator lies on one side of it. -/
theorem infix_append_cons_iff {w xs ys : List α} {a : α} (ha : a ∉ w) :
    w <:+: xs ++ a :: ys ↔ w <:+: xs ∨ w <:+: ys := by
  constructor
  · rintro ⟨p, q, h⟩
    rw [List.append_assoc] at h
    rcases List.append_eq_append_iff.mp h with ⟨u, rfl, hu⟩ | ⟨u, rfl, hu⟩
    · -- the word begins before the separator, so it ends there too
      rcases List.append_eq_append_iff.mp hu with ⟨v, rfl, -⟩ | ⟨v, rfl, hv⟩
      · exact Or.inl ⟨p, v, List.append_assoc p w v⟩
      · cases v with
        | nil => exact Or.inl ⟨p, [], by rw [List.append_nil, List.append_nil]⟩
        | cons b v =>
          rw [List.cons_append, List.cons.injEq] at hv
          refine absurd ?_ ha
          rw [hv.1]
          exact List.mem_append_right u List.mem_cons_self
    · cases u with
      | nil =>
        cases w with
        | nil => exact Or.inl List.nil_infix
        | cons b w =>
          rw [List.nil_append, List.cons_append, List.cons.injEq] at hu
          exact absurd (hu.1 ▸ List.mem_cons_self) ha
      | cons b u =>
        rw [List.cons_append, List.cons.injEq] at hu
        exact Or.inr ⟨u, q, by rw [hu.2, List.append_assoc]⟩
  · rintro (h | h)
    · exact h.trans (List.prefix_append xs _).isInfix
    · exact (h.trans (List.suffix_cons a ys).isInfix).trans
        (List.suffix_append xs _).isInfix

/-- **A word without the separator lies in a piece of the text exactly where
it lies in the text.** -/
theorem infix_splitOn_iff [DecidableEq α] {w : List α} {a : α} (ha : a ∉ w) :
    ∀ xs : List α, (∃ l ∈ xs.splitOn a, w <:+: l) ↔ w <:+: xs := by
  intro xs
  have key : ∀ ls : List (List α), ls ≠ [] →
      ((∃ l ∈ ls, w <:+: l) ↔ w <:+: [a].intercalate ls) := by
    intro ls
    induction ls with
    | nil => exact fun h => absurd rfl h
    | cons l ls ih =>
      intro _
      cases ls with
      | nil => simp
      | cons m ls =>
        rw [List.intercalate_cons_cons, List.append_assoc,
          List.singleton_append, infix_append_cons_iff ha,
          ← ih (List.cons_ne_nil m ls)]
        simp only [List.mem_cons, exists_eq_or_imp]
  rw [key _ (List.splitOn_ne_nil a xs), List.intercalate_splitOn]
