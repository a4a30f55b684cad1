import Mathlib.Data.List.Infix
import Mathlib.Data.Nat.Notation
import Mathlib.Logic.Function.Basic

/-!
# Backtracking regular expressions

A search by a regular expression with greedy repetitions answers two
questions at once: whether the text matches, and *which* of the possible
matches is reported. The second is what a program reads – the groups it
takes out of a text are those of the leftmost match, and among the matches
that start there, those of the first one the backtracking finds.

`Regex.run` is that search, in continuation style: the continuation says
whether the rest of the pattern matches the rest of the text, and a greedy
repetition offers it the shortest rest first. What is proved about it are
the rules a proof about a concrete pattern needs:

* a literal is read off the front of the text (`run_lit_append`);
* a repetition gives back exactly what its continuation refuses
  (`starRun_of_backtrack`), and all of it is kept when the continuation
  accepts at once (`starRun_of_stop`);
* a pattern that begins with a literal does not match where the literal is
  missing (`run_eq_none_of_leading`), so the leftmost match is found behind
  any text in which the literal does not occur (`search_append_of_leading`);
* a group holds a part of the text that was searched
  (`infix_of_search`).

Apart from how a match is found there is what it is (`Matches`): the search finds
one where there is one (`matches_of_run`, `run_ne_none`), and what it reads out of a
text is what is leftmost in it (`search_map_eq_some_iff`).
-/

variable {α β : Type}

/-- **A regular expression** over the symbols `α`: literal words, greedy
repetitions of one symbol class, sequences, and numbered groups. -/
inductive Regex (α : Type) where
  /-- The word itself. -/
  | lit (w : List α)
  /-- As many symbols of the class as possible, giving back on demand. -/
  | star (p : α → Bool)
  /-- One expression after the other. -/
  | seq (r t : Regex α)
  /-- The text the expression consumes is stored under the number. -/
  | group (n : ℕ) (r : Regex α)

namespace Regex

instance : Append (Regex α) := ⟨Regex.seq⟩

/-- The texts the groups hold so far. -/
abbrev Groups (α : Type) := ℕ → Option (List α)

/-- What of `s` is in front of its end part `s'`. -/
def consumed (s s' : List α) : List α := s.take (s.length - s'.length)

theorem consumed_of_eq {s w s' : List α} (h : s = w ++ s') :
    consumed s s' = w := by
  subst h
  unfold consumed
  rw [List.length_append, Nat.add_sub_cancel, List.take_left]

/-- The greedy repetition of `p` on a text: the continuation is asked for
the longest run of the class first, and for a shorter one whenever it
refuses. -/
def starRun (p : α → Bool) (k : List α → Option β) : List α → Option β
  | [] => k []
  | c :: s => if p c then (starRun p k s).or (k (c :: s)) else k (c :: s)

/-- **Matching at the front of a text**, with the continuation `k` for the
rest of the pattern. -/
def run [DecidableEq α] :
    Regex α → (List α → Groups α → Option β) → List α → Groups α → Option β
  | lit w, k, s, g => if w <+: s then k (s.drop w.length) g else none
  | star p, k, s, g => starRun p (fun s' => k s' g) s
  | seq r t, k, s, g => run r (run t k) s g
  | group n r, k, s, g =>
    run r (fun s' g' => k s' (Function.update g' n (some (consumed s s')))) s g

/-- The groups of the match at the front of the text, if there is one. -/
def matchAt [DecidableEq α] (r : Regex α) (s : List α) : Option (Groups α) :=
  r.run (fun _ g => some g) s (fun _ => none)

/-- **The leftmost match**: the first position at which the expression
matches decides. -/
def search [DecidableEq α] (r : Regex α) : List α → Option (Groups α)
  | [] => r.matchAt []
  | c :: s => (r.matchAt (c :: s)).or (search r s)

/-! ## The greedy repetition -/

/-- Where no symbol of the class follows, the repetition is empty. -/
theorem starRun_of_head {p : α → Bool} {k : List α → Option β} {s : List α}
    (hs : ∀ c ∈ s.head?, p c = false) : starRun p k s = k s := by
  cases s with
  | nil => rfl
  | cons c s =>
    have hc : p c = false := hs c rfl
    simp [starRun, hc]

/-- A repetition whose continuation refuses at every length fails. -/
theorem starRun_eq_none {p : α → Bool} {k : List α → Option β} {s : List α}
    (hs : ∀ c ∈ s.head?, p c = false) :
    ∀ {v : List α}, (∀ c ∈ v, p c = true) →
      (∀ v₁ v₂, v = v₁ ++ v₂ → k (v₂ ++ s) = none) →
      starRun p k (v ++ s) = none
  | [], _, hk => by
    rw [List.nil_append, starRun_of_head hs]
    exact hk [] [] rfl
  | c :: v, hv, hk => by
    have ih : starRun p k (v ++ s) = none :=
      starRun_eq_none hs (fun d hd => hv d (List.mem_cons_of_mem c hd))
        (fun v₁ v₂ h => hk (c :: v₁) v₂ (by rw [h, List.cons_append]))
    have hc : p c = true := hv c List.mem_cons_self
    have hkc : k (c :: v ++ s) = none := hk [] (c :: v) rfl
    rw [List.cons_append] at hkc ⊢
    simp [starRun, hc, ih, hkc]

/-- **A repetition gives back what its continuation refuses, and no more.**
After the run `u ++ v` of the class no symbol of the class follows; the
continuation refuses wherever something of `v` has been taken and accepts
in front of `v`. Then it is asked in front of `v`. -/
theorem starRun_of_backtrack {p : α → Bool} {k : List α → Option β}
    {s : List α} (hs : ∀ c ∈ s.head?, p c = false) {u v : List α}
    (hu : ∀ c ∈ u, p c = true) (hv : ∀ c ∈ v, p c = true)
    (hfail : ∀ v₁ v₂, v = v₁ ++ v₂ → v₁ ≠ [] → k (v₂ ++ s) = none) {b : β}
    (hk : k (v ++ s) = some b) : starRun p k (u ++ (v ++ s)) = some b := by
  induction u with
  | nil =>
    cases v with
    | nil => exact (starRun_of_head hs).trans hk
    | cons c v =>
      have hnone : starRun p k (v ++ s) = none :=
        starRun_eq_none hs (fun d hd => hv d (List.mem_cons_of_mem c hd))
          (fun v₁ v₂ h => hfail (c :: v₁) v₂ (by rw [h, List.cons_append])
            (List.cons_ne_nil c v₁))
      have hc : p c = true := hv c List.mem_cons_self
      rw [List.cons_append] at hk
      rw [List.nil_append, List.cons_append, starRun, if_pos hc, hnone,
        Option.none_or, hk]
  | cons c u ih =>
    have hrec := ih (fun d hd => hu d (List.mem_cons_of_mem c hd))
    have hc : p c = true := hu c List.mem_cons_self
    rw [List.cons_append, starRun, if_pos hc, hrec, Option.some_or]

/-- **A repetition keeps its whole run when the continuation accepts.** -/
theorem starRun_of_stop {p : α → Bool} {k : List α → Option β} {s : List α}
    (hs : ∀ c ∈ s.head?, p c = false) {u : List α}
    (hu : ∀ c ∈ u, p c = true) {b : β} (hk : k s = some b) :
    starRun p k (u ++ s) = some b :=
  starRun_of_backtrack (v := []) hs hu (by simp)
    (fun v₁ v₂ h hne => absurd (List.append_eq_nil_iff.mp h.symm).1 hne) hk

/-- Whatever a repetition answers, its continuation answered on an end part
of the text. -/
theorem exists_of_starRun {p : α → Bool} {k : List α → Option β} {b : β} :
    ∀ {s : List α}, starRun p k s = some b → ∃ s', s' <:+ s ∧ k s' = some b
  | [], h => ⟨[], List.suffix_rfl, h⟩
  | c :: s, h => by
    unfold starRun at h
    split at h
    · rcases Option.or_eq_some_iff.mp h with hr | ⟨_, hc⟩
      · obtain ⟨s', hs', hk⟩ := exists_of_starRun hr
        exact ⟨s', hs'.trans (List.suffix_cons c s), hk⟩
      · exact ⟨c :: s, List.suffix_rfl, hc⟩
    · exact ⟨c :: s, List.suffix_rfl, h⟩

/-! ## Matching -/

section Run

variable [DecidableEq α] {k : List α → Groups α → Option β} {g : Groups α}

@[simp] theorem run_append (r t : Regex α) (s : List α) :
    (r ++ t).run k s g = r.run (t.run k) s g := rfl

@[simp] theorem run_group (n : ℕ) (r : Regex α) (s : List α) :
    (group n r).run k s g
      = r.run (fun s' g' => k s' (Function.update g' n (some (consumed s s'))))
          s g := rfl

@[simp] theorem run_star (p : α → Bool) (s : List α) :
    (star p).run k s g = starRun p (fun s' => k s' g) s := rfl

/-- A literal is read off the front of the text. -/
@[simp] theorem run_lit_append (w s : List α) :
    (lit w).run k (w ++ s) g = k s g := by
  unfold run
  rw [if_pos (List.prefix_append w s), List.drop_left]

/-- A literal that is not in front does not match. -/
theorem run_lit_eq_none {w s : List α} (h : ¬ w <+: s) :
    (lit w).run k s g = none := by
  unfold run
  rw [if_neg h]

/-- **The literal every match begins with**, as far as the expression shows
it. -/
def leading : Regex α → List α
  | lit w => w
  | star _ => []
  | seq (lit w) t => w ++ leading t
  | seq (star _) _ => []
  | seq (seq r t) _ => leading (seq r t)
  | seq (group _ r) _ => leading r
  | group _ r => leading r

omit [DecidableEq α] in
/-- Behind a literal that is in front, a longer word is in front exactly
where its rest is. -/
theorem prefix_drop_iff {w v s : List α} (hw : w <+: s) :
    v <+: s.drop w.length ↔ w ++ v <+: s := by
  obtain ⟨t, rfl⟩ := hw
  rw [List.drop_left, List.prefix_append_right_inj]

/-- **No match where the leading literal is missing.** -/
theorem run_eq_none_of_leading {r : Regex α} {s : List α}
    (h : ¬ r.leading <+: s) : r.run k s g = none := by
  induction r using leading.induct generalizing β s g with
  | case1 w => exact run_lit_eq_none h
  | case2 p => exact absurd List.nil_prefix h
  | case3 w t ih =>
    by_cases hw : w <+: s
    · have ht : ¬ t.leading <+: s.drop w.length :=
        fun hp => h ((prefix_drop_iff hw).mp hp)
      show (if w <+: s then t.run k (s.drop w.length) g else none) = none
      rw [if_pos hw]
      exact ih ht
    · exact run_lit_eq_none hw
  | case4 p t => exact absurd List.nil_prefix h
  | case5 r t u ih => exact ih h
  | case6 n r t ih => exact ih h
  | case7 n r ih => exact ih h

/-- **Whatever a match answers was asked at an end part of the text, with
groups read from the text.** -/
theorem exists_of_run {r : Regex α} {s : List α} {b : β}
    (h : r.run k s g = some b) :
    ∃ s' g', s' <:+ s ∧
      (∀ n w, g' n = some w → g n = some w ∨ w <:+: s) ∧ k s' g' = some b := by
  induction r generalizing β s g with
  | lit w =>
    unfold run at h
    split at h
    · exact ⟨_, g, List.drop_suffix _ _, fun _ _ hg => Or.inl hg, h⟩
    · exact absurd h (by simp)
  | star p =>
    obtain ⟨s', hs', hk⟩ := exists_of_starRun h
    exact ⟨s', g, hs', fun _ _ hg => Or.inl hg, hk⟩
  | seq r t ihr iht =>
    obtain ⟨s₁, g₁, hs₁, hg₁, h₁⟩ := ihr h
    obtain ⟨s₂, g₂, hs₂, hg₂, h₂⟩ := iht h₁
    refine ⟨s₂, g₂, hs₂.trans hs₁, fun n w hw => ?_, h₂⟩
    rcases hg₂ n w hw with hw | hw
    · exact hg₁ n w hw
    · exact Or.inr (hw.trans hs₁.isInfix)
  | group n r ih =>
    obtain ⟨s', g', hs', hg', hk⟩ := ih h
    refine ⟨s', _, hs', fun m w hw => ?_, hk⟩
    by_cases hm : m = n
    · subst hm
      rw [Function.update_self] at hw
      rw [← Option.some.inj hw]
      exact Or.inr (List.take_prefix _ _).isInfix
    · rw [Function.update_of_ne hm] at hw
      exact hg' m w hw

end Run

/-! ## Searching -/

section Search

variable [DecidableEq α]

/-- The search passes over a text at no position of which there is a
match. -/
theorem search_append {r : Regex α} {s : List α} {g : Groups α}
    (hs : r.matchAt s = some g) :
    ∀ {pre : List α},
      (∀ u, u ≠ [] → u <:+ pre → r.matchAt (u ++ s) = none) →
      r.search (pre ++ s) = some g
  | [], _ => by
    cases s with
    | nil => exact hs
    | cons c s => rw [List.nil_append, search, hs, Option.some_or]
  | c :: pre, h => by
    have ih : r.search (pre ++ s) = some g :=
      search_append hs (fun u hne hu => h u hne (hu.trans (List.suffix_cons c pre)))
    have hc : r.matchAt (c :: pre ++ s) = none :=
      h (c :: pre) (List.cons_ne_nil c pre) List.suffix_rfl
    rw [List.cons_append] at hc ⊢
    rw [search, hc, Option.none_or, ih]

omit [DecidableEq α] in
/-- **A word whose first symbol does not come back has no overlapping
occurrences**: where it is in front of `s`, it does not begin before `s`
unless it lies before `s`. -/
theorem not_prefix_append {a : α} {w s u : List α} (ha : a ∉ w)
    (hs : a :: w <+: s) (hne : u ≠ []) (hu : ¬ a :: w <:+: u) :
    ¬ a :: w <+: u ++ s := by
  intro h
  rcases List.prefix_or_prefix_of_prefix h (List.prefix_append u s)
    with hp | ⟨t, ht⟩
  · exact hu hp.isInfix
  · -- the word reaches into `s`, where its own first symbol stands
    have hts : t <+: s := by rwa [← ht, List.prefix_append_right_inj] at h
    cases t with
    | nil =>
      rw [List.append_nil] at ht
      exact hu (ht ▸ List.infix_rfl)
    | cons b t =>
      have hab : a = b := by
        obtain ⟨x, rfl⟩ := hs
        exact (List.cons_prefix_cons.mp hts).1.symm
      cases u with
      | nil => exact hne rfl
      | cons c u =>
        rw [List.cons_append, List.cons.injEq] at ht
        refine ha ?_
        rw [← ht.2, hab]
        exact List.mem_append_right u List.mem_cons_self

/-- **The leftmost match stands behind any text in which the leading literal
does not occur**, for a literal without overlapping occurrences. -/
theorem search_append_of_leading {r : Regex α} {a : α} {w pre s : List α}
    {g : Groups α} (hr : r.leading = a :: w) (ha : a ∉ w)
    (hpre : ¬ a :: w <:+: pre) (hs : r.matchAt s = some g) :
    r.search (pre ++ s) = some g := by
  refine search_append hs (fun u hne hu => run_eq_none_of_leading ?_)
  rw [hr]
  refine not_prefix_append ha ?_ hne (fun hw => hpre (hw.trans hu.isInfix))
  by_contra hn
  have hnone : r.matchAt s = none := run_eq_none_of_leading (by rwa [hr])
  exact absurd (hs.symm.trans hnone) (Option.some_ne_none g)

/-- **A group holds a part of the text that was searched.** -/
theorem infix_of_search {r : Regex α} {g : Groups α} {n : ℕ} {w : List α} :
    ∀ {s : List α}, r.search s = some g → g n = some w → w <:+: s
  | s, h, hw => by
    have key : ∀ {s' : List α}, r.matchAt s' = some g → w <:+: s' := by
      intro s' hm
      obtain ⟨_, g', _, hg', hk⟩ := exists_of_run hm
      rw [Option.some.inj hk] at hg'
      rcases hg' n w hw with hn | hi
      · exact absurd hn (by simp)
      · exact hi
    cases s with
    | nil => exact key h
    | cons c s =>
      rcases Option.or_eq_some_iff.mp h with hm | ⟨_, hm⟩
      · exact key hm
      · exact (infix_of_search hm hw).trans (List.suffix_cons c s).isInfix

end Search

/-! ## What is to be found -/

/-- **A match**, however it is found: an expression can end with this rest of the
text and these groups. -/
inductive Matches : Regex α → List α → Groups α → List α → Groups α → Prop where
  | lit (w s : List α) (g : Groups α) : Matches (lit w) (w ++ s) g s g
  | star {p : α → Bool} {v : List α} (s : List α) (g : Groups α)
      (hv : ∀ c ∈ v, p c = true) : Matches (star p) (v ++ s) g s g
  | seq {r t : Regex α} {s₁ s₂ s₃ : List α} {g₁ g₂ g₃ : Groups α} :
      Matches r s₁ g₁ s₂ g₂ → Matches t s₂ g₂ s₃ g₃ → Matches (seq r t) s₁ g₁ s₃ g₃
  | group (n : ℕ) {r : Regex α} {s s' : List α} {g g' : Groups α} :
      Matches r s g s' g' →
        Matches (group n r) s g s' (Function.update g' n (some (consumed s s')))

section Matches

variable {r t : Regex α} {p : α → Bool} {w s s' : List α} {g g' : Groups α} {n : ℕ}

theorem matches_lit_iff : Matches (lit w) s g s' g' ↔ s = w ++ s' ∧ g' = g := by
  constructor
  · rintro ⟨⟩
    exact ⟨rfl, rfl⟩
  · rintro ⟨rfl, rfl⟩
    exact .lit w s' g'

theorem matches_star_iff :
    Matches (star p) s g s' g'
      ↔ ∃ v, (∀ c ∈ v, p c = true) ∧ s = v ++ s' ∧ g' = g := by
  constructor
  · rintro ⟨⟩
    next v hv => exact ⟨v, hv, rfl, rfl⟩
  · rintro ⟨v, hv, rfl, rfl⟩
    exact .star s' g' hv

theorem matches_append_iff :
    Matches (r ++ t) s g s' g' ↔ ∃ s₁ g₁, Matches r s g s₁ g₁ ∧ Matches t s₁ g₁ s' g' := by
  constructor
  · rintro ⟨⟩
    next s₁ g₁ hr ht => exact ⟨s₁, g₁, hr, ht⟩
  · rintro ⟨s₁, g₁, hr, ht⟩
    exact .seq hr ht

theorem matches_group_iff :
    Matches (group n r) s g s' g'
      ↔ ∃ g₁, Matches r s g s' g₁
        ∧ g' = Function.update g₁ n (some (consumed s s')) := by
  constructor
  · rintro ⟨⟩
    next g₁ hr => exact ⟨g₁, hr, rfl⟩
  · rintro ⟨g₁, hr, rfl⟩
    exact .group n hr

end Matches

/-- What a repetition takes is of its class, -/
theorem exists_append_of_starRun {p : α → Bool} {k : List α → Option β} {b : β}
    {s : List α} (h : starRun p k s = some b) :
    ∃ v s', s = v ++ s' ∧ (∀ c ∈ v, p c = true) ∧ k s' = some b := by
  induction s with
  | nil => exact ⟨[], [], rfl, fun c hc => absurd hc List.not_mem_nil, h⟩
  | cons c s ih =>
    have hstop : k (c :: s) = some b → _ := fun hk =>
      (⟨[], c :: s, rfl, fun d hd => absurd hd List.not_mem_nil, hk⟩ :
        ∃ v s', c :: s = v ++ s' ∧ (∀ c ∈ v, p c = true) ∧ k s' = some b)
    unfold starRun at h
    split at h
    · next hc =>
      obtain hr | ⟨-, hk⟩ := Option.or_eq_some_iff.mp h
      · obtain ⟨v, s', rfl, hv, hk⟩ := ih hr
        refine ⟨c :: v, s', rfl, fun d hd => ?_, hk⟩
        obtain rfl | hd := List.mem_cons.mp hd
        · exact hc
        · exact hv d hd
      · exact hstop hk
    · exact hstop h

/-- and it finds whatever can be taken. -/
theorem starRun_ne_none {p : α → Bool} {k : List α → Option β} {v s' : List α}
    (hv : ∀ c ∈ v, p c = true) (hk : k s' ≠ none) : starRun p k (v ++ s') ≠ none := by
  induction v with
  | nil =>
    cases s' with
    | nil => exact hk
    | cons c s =>
      show (if p c then (starRun p k s).or (k (c :: s)) else k (c :: s)) ≠ none
      split
      · exact fun h => hk (Option.or_eq_none_iff.mp h).2
      · exact hk
  | cons c v ih =>
    have hc : p c = true := hv c List.mem_cons_self
    show (if p c then _ else _) ≠ none
    rw [if_pos hc]
    exact fun h => ih (fun d hd => hv d (List.mem_cons_of_mem c hd))
      (Option.or_eq_none_iff.mp h).1

/-- A repetition with nothing after it takes all of its class. -/
theorem starRun_some (p : α → Bool) (f : List α → β) (s : List α) :
    starRun p (fun s' => some (f s')) s = some (f (s.dropWhile p)) := by
  induction s with
  | nil => rfl
  | cons c s ih =>
    unfold starRun
    rw [List.dropWhile_cons, ih, Option.some_or]
    split <;> rfl

section MatchesRun

variable [DecidableEq α] {k : List α → Groups α → Option β} {g g' : Groups α}

/-- **What is found is a match**, -/
theorem matches_of_run {r : Regex α} {s : List α} {b : β} (h : r.run k s g = some b) :
    ∃ s' g', Matches r s g s' g' ∧ k s' g' = some b := by
  induction r generalizing β s g with
  | lit w =>
    unfold run at h
    split at h
    · next hw =>
      obtain ⟨t, rfl⟩ := hw
      rw [List.drop_left] at h
      exact ⟨t, g, .lit w t g, h⟩
    · exact absurd h.symm (Option.some_ne_none b)
  | star p =>
    obtain ⟨v, s', rfl, hv, hk⟩ := exists_append_of_starRun h
    exact ⟨s', g, .star s' g hv, hk⟩
  | seq r t ihr iht =>
    obtain ⟨s₁, g₁, hr, h₁⟩ := ihr h
    obtain ⟨s₂, g₂, ht, h₂⟩ := iht h₁
    exact ⟨s₂, g₂, .seq hr ht, h₂⟩
  | group n r ih =>
    obtain ⟨s', g', hr, hk⟩ := ih h
    exact ⟨s', _, .group n hr, hk⟩

/-- **and where there is a match, one is found.** -/
theorem run_ne_none {r : Regex α} {s s' : List α} (h : Matches r s g s' g')
    (hk : k s' g' ≠ none) : r.run k s g ≠ none := by
  induction h generalizing β with
  | lit w s g =>
    rw [run_lit_append]
    exact hk
  | star s g hv => exact starRun_ne_none hv hk
  | seq _ _ ihr iht => exact ihr (iht hk)
  | group n _ ih => exact ih hk

/-- Where there is a match at the front of a text. -/
theorem matchAt_ne_none {r : Regex α} {s s' : List α}
    (h : Matches r s (fun _ => none) s' g') : r.matchAt s ≠ none :=
  run_ne_none h (Option.some_ne_none g')

end MatchesRun

/-- **The leftmost place** at which something can be read. -/
def Leftmost {ι : Type} (P : ι → List α → Prop) (x : ι) (s : List α) : Prop :=
  ∃ pre t, s = pre ++ t ∧ P x t ∧ ∀ u, u ≠ [] → u <:+ pre → ∀ y, ¬ P y (u ++ t)

section Leftmost

variable {ι : Type} {P : ι → List α → Prop} {x : ι} {s : List α}

/-- At the front of the text. -/
theorem Leftmost.front (hx : P x s) : Leftmost P x s :=
  ⟨[], s, rfl, hx, fun _ hne hu => absurd (List.suffix_nil.mp hu) hne⟩

/-- Behind a symbol where nothing can be read. -/
theorem Leftmost.cons (h : Leftmost P x s) {c : α} (hc : ∀ y, ¬ P y (c :: s)) :
    Leftmost P x (c :: s) := by
  obtain ⟨pre, t, rfl, hx, hpre⟩ := h
  refine ⟨c :: pre, t, rfl, hx, fun u hne hu y => ?_⟩
  obtain rfl | hu := List.suffix_cons_iff.mp hu
  · exact hc y
  · exact hpre u hne hu y

/-- Where something can be read, there is a leftmost place. -/
theorem exists_leftmost {t : List α} (ht : t <:+ s) (hx : P x t) :
    ∃ y, Leftmost P y s := by
  induction s with
  | nil => exact ⟨x, .front (List.suffix_nil.mp ht ▸ hx)⟩
  | cons c s ih =>
    by_cases hfront : ∃ y, P y (c :: s)
    · obtain ⟨y, hy⟩ := hfront
      exact ⟨y, .front hy⟩
    · obtain rfl | ht := List.suffix_cons_iff.mp ht
      · exact absurd ⟨x, hx⟩ hfront
      · obtain ⟨y, hy⟩ := ih ht
        exact ⟨y, hy.cons fun z hz => hfront ⟨z, hz⟩⟩

/-- **A search reads what is leftmost**, if what is read at the front of a text is
known. -/
theorem search_eq_some_iff [DecidableEq α] {r : Regex α} {f : ι → Groups α}
    (h : ∀ t g, r.matchAt t = some g ↔ ∃ x, P x t ∧ g = f x) (s : List α)
    (g : Groups α) : r.search s = some g ↔ ∃ x, Leftmost P x s ∧ g = f x := by
  have hnone : ∀ t, r.matchAt t = none ↔ ∀ x, ¬ P x t := fun t => by
    rw [Option.eq_none_iff_forall_ne_some]
    exact ⟨fun hne x hx => hne (f x) ((h t (f x)).mpr ⟨x, hx, rfl⟩),
      fun hno g hg => (h t g).mp hg |>.elim fun x hx => hno x hx.1⟩
  constructor
  · intro hs
    induction s with
    | nil =>
      obtain ⟨x, hx, hg⟩ := (h [] g).mp hs
      exact ⟨x, .front hx, hg⟩
    | cons c s ih =>
      obtain hm | ⟨hm, hs⟩ := Option.or_eq_some_iff.mp hs
      · obtain ⟨x, hx, hg⟩ := (h (c :: s) g).mp hm
        exact ⟨x, .front hx, hg⟩
      · obtain ⟨x, hx, hg⟩ := ih hs
        exact ⟨x, hx.cons ((hnone _).mp hm), hg⟩
  · rintro ⟨x, ⟨pre, t, rfl, hx, hpre⟩, rfl⟩
    exact search_append ((h t (f x)).mpr ⟨x, hx, rfl⟩)
      fun u hne hu => (hnone _).mpr (hpre u hne hu)

/-- Where what is found can be read, and no two things can be read in front of the
same text, a search in front of a text finds what can be read. -/
theorem matchAt_eq_some_iff [DecidableEq α] {r : Regex α} {f : ι → Groups α}
    (hread : ∀ t g, r.matchAt t = some g → ∃ x, P x t ∧ g = f x)
    (hunique : ∀ t x x', P x t → P x' t → x = x')
    (hfound : ∀ t x, P x t → r.matchAt t ≠ none) (t : List α) (g : Groups α) :
    r.matchAt t = some g ↔ ∃ x, P x t ∧ g = f x := by
  refine ⟨hread t g, ?_⟩
  rintro ⟨x, hx, rfl⟩
  obtain ⟨g, hg⟩ := Option.ne_none_iff_exists'.mp (hfound t x hx)
  obtain ⟨x', hx', rfl⟩ := hread t g hg
  rw [hg, hunique t x x' hx hx']

/-- **What is taken out of the groups** is what is leftmost. -/
theorem search_map_eq_some_iff [DecidableEq α] {r : Regex α} {f : ι → Groups α}
    (h : ∀ t g, r.matchAt t = some g ↔ ∃ x, P x t ∧ g = f x) {read : Groups α → ι}
    (hread : ∀ x, read (f x) = x) (s : List α) :
    (r.search s).map read = some x ↔ Leftmost P x s := by
  rw [Option.map_eq_some_iff]
  constructor
  · rintro ⟨g, hg, hx⟩
    obtain ⟨y, hy, rfl⟩ := (search_eq_some_iff h s g).mp hg
    rwa [← hx, hread]
  · exact fun hx => ⟨f x, (search_eq_some_iff h s (f x)).mpr ⟨x, hx, rfl⟩, hread x⟩

end Leftmost

/-- Where a run of a class ends is a matter of the text. -/
theorem append_inj_of_class {p : α → Bool} {v v' s s' : List α}
    (hv : ∀ c ∈ v, p c = true) (hv' : ∀ c ∈ v', p c = true)
    (hs : ∀ c ∈ s.head?, p c = false) (hs' : ∀ c ∈ s'.head?, p c = false)
    (h : v ++ s = v' ++ s') : v = v' ∧ s = s' := by
  induction v generalizing v' with
  | nil =>
    cases v' with
    | nil => exact ⟨rfl, h⟩
    | cons c v' =>
      rw [List.nil_append] at h
      subst h
      exact absurd (hv' c List.mem_cons_self) (by rw [hs c rfl]; exact Bool.false_ne_true)
  | cons c v ih =>
    cases v' with
    | nil =>
      rw [List.nil_append] at h
      subst h
      exact absurd (hv c List.mem_cons_self) (by rw [hs' c rfl]; exact Bool.false_ne_true)
    | cons c' v' =>
      obtain ⟨rfl, htail⟩ := List.cons.inj h
      obtain ⟨rfl, rfl⟩ := ih (fun d hd => hv d (List.mem_cons_of_mem c hd))
        (fun d hd => hv' d (List.mem_cons_of_mem c hd)) htail
      exact ⟨rfl, rfl⟩

end Regex
