import Mathlib.Logic.Function.Basic
import Mathlib.Logic.Relation
import ClusterDeployment.Run

/-!
# Resources that require each other

A resource says what is to be in place, how to tell that it is, and which
commands put it there. Resources require each other, and they are enforced in
some order in which each comes after what it requires. A resource that is in
place is left alone; one whose commands fail has failed, with what they have
done by then; and one that requires what has failed is skipped, together with
everything that requires it in turn. Some resources are there for an occasion
only: they are enforced if another one has been changed in the same run.

Of a resource one knows what can be relied on once it has come out well, given
that the same is so of what it requires (`Lawful`). From that follows what
holds of every run, in every order and with every failure: what has come out
well is in place afterwards (`Lawful.apply`), and nothing is ever in place
without the lasting things that it requires (`Lawful.grounded_apply`). A run in
which nothing fails gets everything into place (`Lawful.apply_ok`), and what
waits for a resource that is out of place has its turn (`Lawful.of_notified`). A
run that finds everything in place does nothing (`apply_of_inSync`).
-/

namespace ResourceGraph

open Run

variable {ρ σ : Type}

/-- **A resource**: how to tell that it is in place, and the commands that put
it there. -/
structure Resource (σ : Type) where
  inSync : σ → Bool
  commands : List (σ → Option σ)

/-- A command that works only under some condition. -/
def command (pre : σ → Bool) (f : σ → σ) (s : σ) : Option σ :=
  if pre s then some (f s) else none

/-- A resource with a single command. -/
def Resource.single (inSync pre : σ → Bool) (f : σ → σ) : Resource σ :=
  ⟨inSync, [command pre f]⟩

/-- How a resource has come out of a run. -/
inductive Outcome where
  | unchanged
  | changed
  | failed
  | skipped
  deriving DecidableEq

/-- Whether what requires the resource can go on. -/
def Outcome.ok : Outcome → Bool
  | unchanged => true
  | changed => true
  | failed => false
  | skipped => false

/-- **Resources that require each other.** A resource with a trigger is
enforced only if its trigger has been changed. -/
structure Resources (ρ σ : Type) where
  resource : ρ → Resource σ
  requires : ρ → List ρ
  trigger : ρ → Option ρ

/-- Commands one after the other, of which the environment lets some number
run: whether all of them have, and what they leave. -/
def attempt : List (σ → Option σ) → ℕ → σ → Bool × σ
  | [], _, s => (true, s)
  | _ :: _, 0, s => (false, s)
  | c :: cs, n + 1, s =>
    match c s with
    | some s' => attempt cs n s'
    | none => (false, s)

/-- All commands one after the other. -/
def runAll (cs : List (σ → Option σ)) (s : σ) : Option σ :=
  cs.foldlM (fun s c => c s) s

/-- A resource that is to be in place. -/
def Resource.enforce (r : Resource σ) (n : ℕ) (s : σ) : Outcome × σ :=
  if r.inSync s then (.unchanged, s)
  else
    match attempt r.commands n s with
    | (true, s') => (.changed, s')
    | (false, s') => (.failed, s')

/-- How far a run is. -/
structure Progress (ρ σ : Type) where
  report : ρ → Option Outcome
  state : σ

/-- Whether a resource is known to have come out well. -/
def Progress.Ok (p : Progress ρ σ) (r : ρ) : Prop :=
  ∃ o, p.report r = some o ∧ o.ok = true

section Run

variable [DecidableEq ρ] (g : Resources ρ σ) (env : ρ → ℕ)

/-- What becomes of a resource, as far as the run is. -/
def Resources.outcome (p : Progress ρ σ) (r : ρ) : Outcome × σ :=
  if (g.requires r).any fun d => (p.report d).any fun o => !o.ok then
    (.skipped, p.state)
  else
    match g.trigger r with
    | none => (g.resource r).enforce (env r) p.state
    | some t =>
      if p.report t = some .changed then
        (g.resource r).enforce (env r) p.state
      else (.unchanged, p.state)

/-- The next resource of a run. -/
def Resources.step (p : Progress ρ σ) (r : ρ) : Progress ρ σ :=
  ⟨Function.update p.report r (some (g.outcome env p r).1), (g.outcome env p r).2⟩

/-- **A run** over the resources in some order. -/
def Resources.apply (order : List ρ) (s : σ) : Progress ρ σ :=
  run (g.step env) ⟨fun _ => none, s⟩ order

@[simp] theorem apply_nil (s : σ) : g.apply env [] s = ⟨fun _ => none, s⟩ := rfl

@[simp] theorem apply_concat (order : List ρ) (r : ρ) (s : σ) :
    g.apply env (order ++ [r]) s = g.step env (g.apply env order s) r :=
  run_concat _ _ order r

@[simp] theorem step_state (p : Progress ρ σ) (r : ρ) :
    (g.step env p r).state = (g.outcome env p r).2 := rfl

@[simp] theorem step_report_self (p : Progress ρ σ) (r : ρ) :
    (g.step env p r).report r = some (g.outcome env p r).1 :=
  Function.update_self r _ p.report

theorem step_report_of_ne (p : Progress ρ σ) {r d : ρ} (h : d ≠ r) :
    (g.step env p r).report d = p.report d :=
  Function.update_of_ne h _ p.report

end Run

/-- **An order of application**: each resource comes once, and after what it
requires. -/
def Resources.Ordered (g : Resources ρ σ) (order : List ρ) : Prop :=
  ∀ before r after, order = before ++ r :: after →
    r ∉ before ∧ ∀ d ∈ g.requires r, d ∈ before

variable {g : Resources ρ σ} {env : ρ → ℕ} {order : List ρ} {s : σ} {r d : ρ}

/-- What a resource requires, and what that requires in turn. -/
def Resources.Requires (g : Resources ρ σ) : ρ → ρ → Prop :=
  Relation.TransGen fun r d => d ∈ g.requires r

/-- The first part of an order. -/
theorem Resources.Ordered.of_concat (h : g.Ordered (order ++ [r])) :
    g.Ordered order := by
  intro before r' after hsplit
  refine h before r' (after ++ [r]) ?_
  rw [hsplit, List.append_assoc]
  rfl

/-- Whether each resource comes once, after what it requires. -/
def Resources.check [DecidableEq ρ] (g : Resources ρ σ) (before : List ρ) :
    List ρ → Bool
  | [] => true
  | r :: order =>
    !before.contains r && (g.requires r).all before.contains
      && g.check (before ++ [r]) order

/-- An order can be checked one resource after the other. -/
theorem ordered_append_iff [DecidableEq ρ] {before : List ρ}
    (h : g.Ordered before) :
    g.Ordered (before ++ order) ↔ g.check before order = true := by
  induction order generalizing before with
  | nil => simpa [Resources.check] using h
  | cons r order ih =>
    have hassoc : before ++ r :: order = before ++ [r] ++ order := by simp
    have hnext : (r ∉ before ∧ ∀ d ∈ g.requires r, d ∈ before) →
        g.Ordered (before ++ [r]) := by
      intro hr b r' a hsplit
      obtain rfl | ⟨a', x, rfl⟩ := a.eq_nil_or_concat
      · obtain ⟨rfl, heq⟩ := List.append_inj' hsplit rfl
        rw [← (List.cons.inj heq).1]
        exact hr
      · rw [List.concat_eq_append, ← List.cons_append, ← List.append_assoc] at hsplit
        exact h b r' a' (List.append_inj' hsplit rfl).1
    unfold Resources.check
    simp only [Bool.and_eq_true, Bool.not_eq_true', List.all_eq_true,
      List.contains_iff_mem, ← Bool.not_eq_true]
    constructor
    · intro hall
      have hr := hall before r order rfl
      exact ⟨hr, (ih (hnext hr)).mp (hassoc ▸ hall)⟩
    · rintro ⟨hr, hcheck⟩
      rw [hassoc]
      exact (ih (hnext hr)).mpr hcheck

@[inherit_doc ordered_append_iff]
theorem ordered_iff [DecidableEq ρ] :
    g.Ordered order ↔ g.check [] order = true := by
  have hnil : g.Ordered [] := fun before r after h => by simp at h
  exact ordered_append_iff hnil

instance [DecidableEq ρ] : Decidable (g.Ordered order) :=
  decidable_of_iff _ ordered_iff.symm

/-! ## What one resource does -/

/-- What every command keeps, the commands keep, also if they are cut off. -/
theorem attempt_induction {P : σ → Prop} {cs : List (σ → Option σ)}
    (h : ∀ c ∈ cs, ∀ s s', P s → c s = some s' → P s') (n : ℕ) (hs : P s) :
    P (attempt cs n s).2 := by
  induction cs generalizing n s with
  | nil => exact hs
  | cons c cs ih =>
    cases n with
    | zero => exact hs
    | succ n =>
      unfold attempt
      cases hc : c s with
      | none => exact hs
      | some s' =>
        exact ih (fun c' hc' => h c' (List.mem_cons_of_mem c hc')) n
          (h c List.mem_cons_self s s' hs hc)

/-- What every command keeps, the resource keeps. -/
theorem enforce_induction {P : σ → Prop} {x : Resource σ}
    (h : ∀ c ∈ x.commands, ∀ s s', P s → c s = some s' → P s') (n : ℕ)
    (hs : P s) : P (x.enforce n s).2 := by
  unfold Resource.enforce
  split
  · exact hs
  · have hattempt := attempt_induction h n hs
    split
    · next h' =>
      rw [h'] at hattempt
      exact hattempt
    · next h' =>
      rw [h'] at hattempt
      exact hattempt

/-- A command that has worked has had its effect. -/
theorem of_command {pre : σ → Bool} {f : σ → σ} {s s' : σ}
    (h : command pre f s = some s') : pre s = true ∧ s' = f s := by
  unfold command at h
  split at h
  · next hpre => exact ⟨hpre, (Option.some.inj h).symm⟩
  · exact absurd h.symm (Option.some_ne_none s')

/-- Commands that work are all run, if that many are let run, -/
theorem attempt_of_runAll {cs : List (σ → Option σ)} {s s' : σ}
    (h : runAll cs s = some s') {n : ℕ} (hn : cs.length ≤ n) :
    attempt cs n s = (true, s') := by
  induction cs generalizing n s with
  | nil => exact congrArg (Prod.mk true) (Option.some.inj h)
  | cons c cs ih =>
    obtain ⟨s₁, hc, h⟩ := Option.bind_eq_some_iff.mp h
    change c s = some s₁ at hc
    cases n with
    | zero => exact absurd hn (Nat.not_succ_le_zero _)
    | succ n =>
      unfold attempt
      rw [hc]
      exact ih h (Nat.le_of_succ_le_succ hn)

/-- and what has been run to its end has worked. -/
theorem runAll_of_attempt {cs : List (σ → Option σ)} {n : ℕ} {s s' : σ}
    (h : attempt cs n s = (true, s')) : runAll cs s = some s' := by
  induction cs generalizing n s with
  | nil => exact congrArg some (congrArg Prod.snd h)
  | cons c cs ih =>
    cases n with
    | zero => exact absurd (congrArg Prod.fst h) Bool.false_ne_true
    | succ n =>
      unfold attempt at h
      cases hc : c s with
      | none =>
        rw [hc] at h
        exact absurd (congrArg Prod.fst h) Bool.false_ne_true
      | some s₁ =>
        rw [hc] at h
        show (c s).bind (runAll cs) = some s'
        rw [hc]
        exact ih h

/-- A resource that is in place is left alone. -/
theorem enforce_of_inSync {x : Resource σ} (h : x.inSync s = true) (n : ℕ) :
    x.enforce n s = (.unchanged, s) := if_pos h

/-- Another one is left as its commands leave it. -/
theorem enforce_of_not_inSync {x : Resource σ} (h : x.inSync s = false) (n : ℕ) :
    x.enforce n s = (if (attempt x.commands n s).1 then .changed else .failed,
      (attempt x.commands n s).2) := by
  have hsync : ¬ x.inSync s = true := by simp [h]
  unfold Resource.enforce
  rw [if_neg hsync]
  obtain ⟨_ | _, s'⟩ := attempt x.commands n s
  · rfl
  · rfl

/-- **A resource that has not failed** has been left alone, or all of its commands
have worked. -/
theorem of_enforce {x : Resource σ} {n : ℕ} (h : (x.enforce n s).1 ≠ .failed) :
    x.inSync s = true ∧ (x.enforce n s).2 = s
      ∨ runAll x.commands s = some (x.enforce n s).2 := by
  cases hsync : x.inSync s with
  | true => exact Or.inl ⟨rfl, congrArg Prod.snd (enforce_of_inSync hsync n)⟩
  | false =>
    refine Or.inr ?_
    rw [enforce_of_not_inSync hsync] at h ⊢
    cases hattempt : attempt x.commands n s with
    | mk b s' =>
      rw [hattempt] at h
      cases b with
      | true => exact runAll_of_attempt hattempt
      | false => exact absurd rfl h

/-- A resource whose commands work does not fail, if all of them are let
run. -/
theorem enforce_ne_failed {x : Resource σ} {n : ℕ} (hn : x.commands.length ≤ n)
    (h : x.inSync s = false → runAll x.commands s ≠ none) :
    (x.enforce n s).1 ≠ .failed := by
  cases hsync : x.inSync s with
  | true =>
    rw [enforce_of_inSync hsync]
    exact Outcome.noConfusion
  | false =>
    obtain ⟨s', hs'⟩ := Option.ne_none_iff_exists'.mp (h hsync)
    rw [enforce_of_not_inSync hsync, attempt_of_runAll hs' hn]
    exact Outcome.noConfusion

/-- A single command leaves things as they are or has its effect, and then it
works. -/
theorem enforce_single (inSync pre : σ → Bool) (f : σ → σ) (n : ℕ) (s : σ) :
    (Resource.single inSync pre f).enforce n s
      = if inSync s = true then (.unchanged, s)
        else if n ≠ 0 ∧ pre s = true then (.changed, f s)
        else (.failed, s) := by
  show (if inSync s = true then _ else _) = _
  by_cases hsync : inSync s = true
  · rw [if_pos hsync, if_pos hsync]
  · rw [if_neg hsync, if_neg hsync]
    cases n with
    | zero => rfl
    | succ n =>
      by_cases hpre : pre s = true
      · simp [Resource.single, command, attempt, hpre]
      · simp [Resource.single, command, attempt, hpre]

/-- What a single command changes, it changes where the resource is not in
place and the command works. -/
theorem enforce_single_cases (inSync pre : σ → Bool) (f : σ → σ) (n : ℕ) (s : σ) :
    ((Resource.single inSync pre f).enforce n s).2 = s
      ∨ inSync s ≠ true ∧ pre s = true
        ∧ ((Resource.single inSync pre f).enforce n s).2 = f s := by
  rw [enforce_single]
  split
  · exact Or.inl rfl
  · next hsync =>
    split
    · next hgo => exact Or.inr ⟨hsync, hgo.2, rfl⟩
    · exact Or.inl rfl

/-- A single command that works does not fail. -/
theorem enforce_single_ok {inSync pre : σ → Bool} {f : σ → σ} {n : ℕ} (hn : n ≠ 0)
    (hpre : pre s = true) :
    ((Resource.single inSync pre f).enforce n s).1 ≠ .failed := by
  rw [enforce_single]
  split
  · exact Outcome.noConfusion
  · rw [if_pos ⟨hn, hpre⟩]
    exact Outcome.noConfusion

/-- A single command that has not failed leaves its resource in place, or has
just had its effect. -/
theorem of_enforce_single {inSync pre : σ → Bool} {f : σ → σ} {n : ℕ}
    {P : σ → Prop} (hsync : inSync s = true → P s) (hf : P (f s))
    (h : ((Resource.single inSync pre f).enforce n s).1 ≠ .failed) :
    P ((Resource.single inSync pre f).enforce n s).2 := by
  rw [enforce_single] at h ⊢
  split at h
  · next hs => rw [if_pos hs]; exact hsync hs
  · next hs =>
    split at h
    · next hgo => rw [if_neg hs, if_pos hgo]; exact hf
    · exact absurd rfl h

/-- A resource that is enforced has come out well unless it has failed. -/
theorem ok_of_enforce {x : Resource σ} {n : ℕ}
    (h : (x.enforce n s).1 ≠ .failed) : (x.enforce n s).1.ok = true := by
  unfold Resource.enforce at h ⊢
  by_cases hsync : x.inSync s = true
  · rw [if_pos hsync]
    rfl
  · rw [if_neg hsync] at h ⊢
    cases hattempt : attempt x.commands n s with
    | mk b s' =>
      rw [hattempt] at h
      cases b with
      | true => rfl
      | false => exact absurd rfl h

/-! ## What a run does -/

/-- **What a resource is good for**: `Done r` is what can be relied on once it
has come out well. -/
structure Lawful (g : Resources ρ σ) (Inv : σ → Prop) (Done : ρ → σ → Prop) :
    Prop where
  /-- Nothing is relied on that waits for a trigger. -/
  quiet : ∀ r s, g.trigger r ≠ none → Done r s
  /-- Where everything required is there, enforcing keeps the invariant, -/
  inv : ∀ r n s, Inv s → (∀ d, g.Requires r d → Done d s) →
    Inv ((g.resource r).enforce n s).2
  /-- gets the resource into place unless it fails, -/
  done : ∀ r n s, Inv s → (∀ d, g.Requires r d → Done d s) →
    ((g.resource r).enforce n s).1 ≠ .failed →
    Done r ((g.resource r).enforce n s).2
  /-- and undoes nothing. -/
  keep : ∀ r n s d, Inv s → (∀ d, g.Requires r d → Done d s) → Done d s →
    Done d ((g.resource r).enforce n s).2

variable [DecidableEq ρ] {Inv : σ → Prop} {Done : ρ → σ → Prop}

/-- What is to come is not reported yet. -/
theorem report_of_not_mem (hr : r ∉ order) :
    (g.apply env order s).report r = none := by
  induction order using List.reverseRecOn with
  | nil => rfl
  | append_singleton order r' ih =>
    obtain ⟨hr, hne⟩ := not_or.mp fun h => hr (List.mem_append.mpr h)
    rw [apply_concat, step_report_of_ne _ _ _ fun h => hne (List.mem_singleton.mpr h)]
    exact ih hr

/-- What has come is reported. -/
theorem report_of_mem (hr : r ∈ order) :
    (g.apply env order s).report r ≠ none := by
  induction order using List.reverseRecOn with
  | nil => exact absurd hr List.not_mem_nil
  | append_singleton order r' ih =>
    rw [apply_concat]
    by_cases hne : r = r'
    · rw [hne, step_report_self]
      exact Option.some_ne_none _
    · rw [step_report_of_ne _ _ _ hne]
      exact ih ((List.mem_append.mp hr).resolve_right
        fun h => hne (List.mem_singleton.mp h))

/-- What has been reported is not reported again. -/
theorem report_concat (ho : g.Ordered (order ++ [r])) {o : Outcome}
    (h : (g.apply env order s).report d = some o) :
    (g.apply env (order ++ [r]) s).report d = some o := by
  rw [apply_concat, step_report_of_ne _ _ _ fun hd => ?_]
  · exact h
  · rw [hd, report_of_not_mem (ho order r [] rfl).1] at h
    exact absurd h (by simp)

/-- What has come out well before still has. -/
theorem Progress.Ok.concat (ho : g.Ordered (order ++ [r]))
    (h : (g.apply env order s).Ok d) :
    (g.apply env (order ++ [r]) s).Ok d := by
  obtain ⟨o, hrep, hok⟩ := h
  exact ⟨o, report_concat ho hrep, hok⟩

/-- What comes out well is the last resource, or has come out well before. -/
theorem Progress.Ok.of_concat (h : (g.apply env (order ++ [r]) s).Ok d) :
    d = r ∧ (g.outcome env (g.apply env order s) r).1.ok = true
      ∨ d ≠ r ∧ (g.apply env order s).Ok d := by
  obtain ⟨o, hrep, hok⟩ := h
  rw [apply_concat] at hrep
  by_cases hd : d = r
  · rw [hd, step_report_self] at hrep
    rw [← Option.some.inj hrep] at hok
    exact Or.inl ⟨hd, hok⟩
  · rw [step_report_of_ne _ _ _ hd] at hrep
    exact Or.inr ⟨hd, o, hrep, hok⟩

/-- **The next resource of a run**, in three cases: it is skipped; it waits for
a trigger and is left alone; or it is enforced, and then everything it
requires has come out well. -/
theorem outcome_cases (env : ρ → ℕ) (s : σ) (ho : g.Ordered (order ++ [r])) :
    let p := g.apply env order s
    (g.outcome env p r = (.skipped, p.state)
        ∧ ∃ d ∈ g.requires r, p.report d ≠ none ∧ ¬ p.Ok d)
      ∨ (∀ d ∈ g.requires r, p.Ok d)
        ∧ ((g.outcome env p r = (.unchanged, p.state) ∧ ∃ t,
            g.trigger r = some t ∧ p.report t ≠ some .changed)
          ∨ g.outcome env p r = (g.resource r).enforce (env r) p.state
            ∧ ∀ t, g.trigger r = some t → p.report t = some .changed) := by
  intro p
  unfold Resources.outcome
  split
  · next hskip =>
    obtain ⟨d, hd, hfail⟩ := List.any_eq_true.mp hskip
    refine Or.inl ⟨rfl, d, hd, fun hnone => ?_, ?_⟩
    · rw [hnone] at hfail
      exact absurd hfail (by simp)
    · rintro ⟨o, hrep, hok⟩
      rw [hrep] at hfail
      exact absurd hfail (by simp [hok])
  · next hgo =>
    refine Or.inr ⟨fun d hd => ?_, ?_⟩
    · have hmem := (ho order r [] rfl).2 d hd
      obtain ⟨o, hrep⟩ := Option.ne_none_iff_exists'.mp (report_of_mem hmem)
      refine ⟨o, hrep, ?_⟩
      have hnot := List.any_eq_false.mp (Bool.not_eq_true _ ▸ hgo) d hd
      rw [hrep] at hnot
      simpa using hnot
    · split
      · next hnone =>
        refine Or.inr ⟨rfl, fun t ht => ?_⟩
        rw [hnone] at ht
        exact absurd ht (by simp)
      · next t ht =>
        split
        · next heq =>
          refine Or.inr ⟨rfl, fun t' ht' => ?_⟩
          rwa [Option.some.inj (ht'.symm.trans ht)]
        · next hne => exact Or.inl ⟨rfl, t, ht, hne⟩

/-- What requires something directly comes out well only after it. -/
theorem ok_of_mem (ho : g.Ordered order) (hok : (g.apply env order s).Ok r)
    (hd : d ∈ g.requires r) : (g.apply env order s).Ok d := by
  induction order using List.reverseRecOn with
  | nil =>
    obtain ⟨o, hrep, -⟩ := hok
    exact absurd hrep (by simp)
  | append_singleton order r' ih =>
    obtain ⟨rfl, hout⟩ | ⟨-, hok⟩ := hok.of_concat
    · obtain ⟨hskip, -⟩ | ⟨hreq, -⟩ := outcome_cases env s ho
      · rw [hskip] at hout
        exact absurd hout (by simp [Outcome.ok])
      · exact (hreq d hd).concat ho
    · exact (ih ho.of_concat hok).concat ho

/-- **What has come out well has not been skipped**: where everything a
resource requires directly has come out well, so has everything else it
requires. -/
theorem ok_of_direct (ho : g.Ordered order)
    (hok : ∀ d ∈ g.requires r, (g.apply env order s).Ok d)
    (hreq : g.Requires r d) : (g.apply env order s).Ok d := by
  induction hreq with
  | single hd => exact hok _ hd
  | tail _ hd ih => exact ok_of_mem ho ih hd

namespace Lawful

variable (hl : Lawful g Inv Done)
include hl

/-- **The rule of a run**: what each resource keeps where it is enforced – with
everything it requires in place, and its trigger changed – the run keeps; and
so it does with the invariant and with what has come out well. -/
theorem induction (env : ρ → ℕ) (ho : g.Ordered order) (hs : Inv s)
    {P : σ → Prop} (hP : P s)
    (h : ∀ r ∈ order, ∀ s', Inv s' → (∀ d, g.Requires r d → Done d s') →
      (∀ t, g.trigger r = some t →
        (g.apply env order s).report t = some .changed) →
      P s' → P ((g.resource r).enforce (env r) s').2) :
    Inv (g.apply env order s).state ∧ P (g.apply env order s).state
      ∧ ∀ r, (g.apply env order s).Ok r → Done r (g.apply env order s).state := by
  induction order using List.reverseRecOn with
  | nil =>
    refine ⟨hs, hP, ?_⟩
    rintro r ⟨o, hrep, -⟩
    exact absurd hrep (by simp)
  | append_singleton order r ih =>
    obtain ⟨hinv, hp, hdone⟩ := ih ho.of_concat fun r' hr' s' hs' hreq htrigger =>
      h r' (List.mem_append_left [r] hr') s' hs' hreq
        fun t ht => report_concat ho (htrigger t ht)
    have hr := h r (List.mem_append_right order List.mem_cons_self)
    have hstate : (g.apply env (order ++ [r]) s).state
        = (g.outcome env (g.apply env order s) r).2 := by
      rw [apply_concat, step_state]
    rw [hstate]
    obtain ⟨hout, -⟩ | ⟨hreq, ⟨hout, t, ht, -⟩ | ⟨hout, htrigger⟩⟩ :=
      outcome_cases env s ho
    · rw [hout]
      refine ⟨hinv, hp, fun d hok => ?_⟩
      obtain ⟨-, hbad⟩ | ⟨-, hold⟩ := hok.of_concat
      · rw [hout] at hbad
        exact absurd hbad (by simp [Outcome.ok])
      · exact hdone d hold
    · rw [hout]
      refine ⟨hinv, hp, fun d hok => ?_⟩
      obtain ⟨rfl, -⟩ | ⟨-, hold⟩ := hok.of_concat
      · refine hl.quiet d _ ?_
        rw [ht]
        exact Option.some_ne_none t
      · exact hdone d hold
    · rw [hout]
      have hreq' := fun d hd =>
        hdone d (ok_of_direct ho.of_concat hreq (d := d) hd)
      refine ⟨hl.inv r _ _ hinv hreq', hr _ hinv hreq'
        (fun t ht => report_concat ho (htrigger t ht)) hp, fun d hok => ?_⟩
      obtain ⟨rfl, hgood⟩ | ⟨-, hold⟩ := hok.of_concat
      · refine hl.done d _ _ hinv hreq' fun hfailed => ?_
        rw [hout, hfailed] at hgood
        exact absurd hgood (by simp [Outcome.ok])
      · exact hl.keep r _ _ d hinv hreq' (hdone d hold)

/-- **Every run**: the invariant holds, and what has come out well is in
place. -/
theorem apply (env : ρ → ℕ) (ho : g.Ordered order) (hs : Inv s) :
    Inv (g.apply env order s).state
      ∧ ∀ r, (g.apply env order s).Ok r → Done r (g.apply env order s).state := by
  obtain ⟨hinv, -, hdone⟩ := hl.induction (P := fun _ => True) env ho hs
    trivial fun _ _ _ _ _ _ _ => trivial
  exact ⟨hinv, hdone⟩

/-- What is in place stays there, -/
theorem keep_apply (env : ρ → ℕ) (ho : g.Ordered order) (hs : Inv s)
    (hd : Done d s) : Done d (g.apply env order s).state :=
  (hl.induction env ho hs hd fun r _ s' hs' hreq _ =>
    hl.keep r (env r) s' d hs' hreq).2.1

/-- and is not reported as changed. -/
theorem not_changed_of_done (env : ρ → ℕ) (ho : g.Ordered order) (hs : Inv s)
    (hd : Done d s) (hsync : ∀ s, Done d s → (g.resource d).inSync s = true) :
    (g.apply env order s).report d ≠ some .changed := by
  induction order using List.reverseRecOn with
  | nil => exact fun h => absurd h (by simp)
  | append_singleton order r ih =>
    rw [apply_concat]
    by_cases hdr : d = r
    · subst hdr
      rw [step_report_self]
      obtain ⟨hout, -⟩ | ⟨-, ⟨hout, -⟩ | ⟨hout, -⟩⟩ := outcome_cases env s ho
      · rw [hout]
        exact fun h => absurd h (by simp)
      · rw [hout]
        exact fun h => absurd h (by simp)
      · rw [hout, enforce_of_inSync (hsync _ (hl.keep_apply env ho.of_concat hs hd))]
        exact fun h => absurd h (by simp)
    · rw [step_report_of_ne _ _ _ hdr]
      exact ih ho.of_concat

/-- **A run in which nothing fails** gets everything into place. -/
theorem apply_ok (env : ρ → ℕ) (ho : g.Ordered order) (hs : Inv s)
    {P : σ → Prop} (hP : P s)
    (h : ∀ r ∈ order, ∀ s, Inv s → (∀ d, g.Requires r d → Done d s) → P s →
      ((g.resource r).enforce (env r) s).1 ≠ .failed
        ∧ P ((g.resource r).enforce (env r) s).2) :
    P (g.apply env order s).state ∧ ∀ r ∈ order, (g.apply env order s).Ok r := by
  refine ⟨(hl.induction env ho hs hP fun r hr s hs hreq _ hP =>
    (h r hr s hs hreq hP).2).2.1, ?_⟩
  induction order using List.reverseRecOn with
  | nil => exact fun r hr => absurd hr List.not_mem_nil
  | append_singleton order r ih =>
    have h' := fun r' hr' => h r' (List.mem_append_left [r] hr')
    obtain ⟨hinv, hp, hdone⟩ := hl.induction env ho.of_concat hs hP
      fun r hr s hs hreq _ hP => (h' r hr s hs hreq hP).2
    have hr := h r (List.mem_append_right order List.mem_cons_self)
    intro d hd
    obtain hd | hd := List.mem_append.mp hd
    · exact (ih ho.of_concat h' d hd).concat ho
    · rw [List.mem_singleton.mp hd, apply_concat]
      refine ⟨_, step_report_self _ _ _ _, ?_⟩
      obtain ⟨hout, e, he, -, hnot⟩ | ⟨hreq, ⟨hout, -⟩ | ⟨hout, -⟩⟩ :=
        outcome_cases env s ho
      · exact absurd (ih ho.of_concat h' e ((ho order r [] rfl).2 e he)) hnot
      · rw [hout]
        rfl
      · rw [hout]
        exact ok_of_enforce (hr _ hinv (fun e he =>
          hdone e (ok_of_direct ho.of_concat hreq he)) hp).1

/-- Where nothing fails, everything has come out well, and the next resource waits
for its trigger or is enforced. -/
theorem outcome_of_go (env : ρ → ℕ) (ho : g.Ordered (order ++ [r])) (hs : Inv s)
    (hgo : ∀ x ∈ order ++ [r], ∀ s, Inv s → (∀ d, g.Requires x d → Done d s) →
      ((g.resource x).enforce (env x) s).1 ≠ .failed) :
    let p := g.apply env order s
    Inv p.state ∧ (∀ d, g.Requires r d → Done d p.state)
      ∧ ((g.outcome env p r = (.unchanged, p.state) ∧ ∃ t,
          g.trigger r = some t ∧ p.report t ≠ some .changed)
        ∨ g.outcome env p r = (g.resource r).enforce (env r) p.state
          ∧ ∀ t, g.trigger r = some t → p.report t = some .changed) := by
  intro p
  have hok : ∀ d ∈ order, p.Ok d :=
    (hl.apply_ok (P := fun _ => True) env ho.of_concat hs trivial
      fun x hx s hs hreq _ => ⟨hgo x (List.mem_append_left [r] hx) s hs hreq, trivial⟩).2
  obtain ⟨hinv, hdone⟩ := hl.apply env ho.of_concat hs
  obtain ⟨-, d, hd, -, hnot⟩ | ⟨hreq, hcases⟩ := outcome_cases env s ho
  · exact absurd (hok d ((ho order r [] rfl).2 d hd)) hnot
  · exact ⟨hinv, fun d hd => hdone d (ok_of_direct ho.of_concat hreq hd), hcases⟩

/-- What is out of place, and is left so by everything else, is changed when its
turn comes. -/
theorem changed_of_out (env : ρ → ℕ) (ho : g.Ordered order) (hs : Inv s) {t : ρ}
    (ht : t ∈ order) (hnone : g.trigger t = none)
    (hgo : ∀ x ∈ order, ∀ s, Inv s → (∀ d, g.Requires x d → Done d s) →
      ((g.resource x).enforce (env x) s).1 ≠ .failed)
    {O : σ → Prop} (hout : O s)
    (hsync : ∀ s, O s → (g.resource t).inSync s = false)
    (hkeep : ∀ x n s, x ≠ t → O s → O ((g.resource x).enforce n s).2) :
    (g.apply env order s).report t = some .changed := by
  suffices h : (t ∉ order → O (g.apply env order s).state)
      ∧ (t ∈ order → (g.apply env order s).report t = some .changed) from h.2 ht
  clear ht
  induction order using List.reverseRecOn with
  | nil => exact ⟨fun _ => hout, fun h => absurd h List.not_mem_nil⟩
  | append_singleton order r ih =>
    obtain ⟨hbefore, hafter⟩ := ih ho.of_concat
      fun x hx => hgo x (List.mem_append_left [r] hx)
    obtain ⟨hinv, hreq, hcases⟩ := hl.outcome_of_go env ho hs hgo
    rw [apply_concat, step_state]
    by_cases htr : t = r
    · -- its turn
      subst htr
      have hmem := List.mem_append_right order (List.mem_singleton_self t)
      refine ⟨fun h => absurd hmem h, fun _ => ?_⟩
      rw [step_report_self]
      obtain ⟨-, t', ht', -⟩ | ⟨houtcome, -⟩ := hcases
      · rw [hnone] at ht'
        exact absurd ht'.symm (Option.some_ne_none t')
      · have hfalse := hsync _ (hbefore (ho order t [] rfl).1)
        have hne := hgo t hmem _ hinv hreq
        rw [houtcome]
        rw [enforce_of_not_inSync hfalse] at hne ⊢
        split at hne
        · next hdone => rw [if_pos hdone]
        · exact absurd rfl hne
    · rw [step_report_of_ne _ _ _ htr]
      refine ⟨fun h => ?_, fun h => hafter ((List.mem_append.mp h).resolve_right
        fun hr => htr (List.mem_singleton.mp hr))⟩
      have hout' := hbefore fun hmem => h (List.mem_append_left [r] hmem)
      obtain ⟨houtcome, -⟩ | ⟨houtcome, -⟩ := hcases
      · rw [houtcome]
        exact hout'
      · rw [houtcome]
        exact hkeep r (env r) _ (Ne.symm htr) hout'

/-- **What is notified is enforced**, where nothing fails: a resource whose trigger
is out of place has its effect, which the others leave. -/
theorem of_notified (env : ρ → ℕ) (ho : g.Ordered order) (hs : Inv s) {t : ρ}
    (hr : r ∈ order) (ht : g.trigger r = some t) (htr : t ∈ g.requires r)
    (hnone : g.trigger t = none)
    (hgo : ∀ x ∈ order, ∀ s, Inv s → (∀ d, g.Requires x d → Done d s) →
      ((g.resource x).enforce (env x) s).1 ≠ .failed)
    {O Q : σ → Prop} (hout : O s)
    (hsync : ∀ s, O s → (g.resource t).inSync s = false)
    (hkeep : ∀ x n s, x ≠ t → O s → O ((g.resource x).enforce n s).2)
    (hQ : ∀ s, (∀ d, g.Requires r d → Done d s) →
      Q ((g.resource r).enforce (env r) s).2)
    (hkeepQ : ∀ x n s, x ≠ r → Q s → Q ((g.resource x).enforce n s).2) :
    Q (g.apply env order s).state := by
  induction order using List.reverseRecOn with
  | nil => exact absurd hr List.not_mem_nil
  | append_singleton order x ih =>
    have hgo' := fun y hy => hgo y (List.mem_append_left [x] hy)
    obtain ⟨hinv, hreq, hcases⟩ := hl.outcome_of_go env ho hs hgo
    rw [apply_concat, step_state]
    by_cases hrx : r = x
    · subst hrx
      have hchanged := hl.changed_of_out env ho.of_concat hs
        ((ho order r [] rfl).2 t htr) hnone hgo' hout hsync hkeep
      obtain ⟨-, t', ht', hnot⟩ | ⟨houtcome, -⟩ := hcases
      · rw [ht, Option.some.injEq] at ht'
        exact absurd (ht' ▸ hchanged) hnot
      · rw [houtcome]
        exact hQ _ hreq
    · have hq := ih ho.of_concat ((List.mem_append.mp hr).resolve_right
        fun h => hrx (List.mem_singleton.mp h)) hgo'
      obtain ⟨houtcome, -⟩ | ⟨houtcome, -⟩ := hcases
      · rw [houtcome]
        exact hq
      · rw [houtcome]
        exact hkeepQ x (env x) _ (Ne.symm hrx) hq

end Lawful

/-- **Nothing is there without what it requires**, however far away, as far as
that has to last. -/
def Grounded (g : Resources ρ σ) (There Lasts : ρ → σ → Prop) (s : σ) : Prop :=
  ∀ r, g.trigger r = none → There r s → ∀ d, g.Requires r d → Lasts d s

/-- **Every run leaves things grounded**, where a resource gets nothing but
itself there. -/
theorem Lawful.grounded_apply (hl : Lawful g Inv Done) {There Lasts : ρ → σ → Prop}
    (hdone : ∀ d s, Done d s → Lasts d s)
    (hlasts : ∀ r n s d, Inv s → Lasts d s →
      Lasts d ((g.resource r).enforce n s).2)
    (honly : ∀ r n s d, Inv s → d ≠ r →
      There d ((g.resource r).enforce n s).2 → There d s)
    (env : ρ → ℕ) (ho : g.Ordered order) (hs : Inv s)
    (hg : Grounded g There Lasts s) :
    Grounded g There Lasts (g.apply env order s).state := by
  refine (hl.induction env ho hs hg fun r hr s hs hreq _ hg => ?_).2.1
  intro d hd hthere e he
  refine hlasts r _ s e hs ?_
  by_cases hdr : d = r
  · exact hdone e s (hreq e (hdr ▸ he))
  · exact hg d hd (honly r _ s d hs hdr hthere) e he

/-- **A run that finds everything in place** does nothing. -/
theorem apply_of_inSync (ho : g.Ordered order)
    (h : ∀ r ∈ order, g.trigger r = none → (g.resource r).inSync s = true) :
    (g.apply env order s).state = s
      ∧ ∀ r ∈ order, (g.apply env order s).report r = some .unchanged := by
  induction order using List.reverseRecOn with
  | nil => exact ⟨rfl, fun r hr => absurd hr List.not_mem_nil⟩
  | append_singleton order r ih =>
    obtain ⟨hstate, hreport⟩ := ih ho.of_concat
      fun r' hr' => h r' (List.mem_append_left [r] hr')
    have hr := h r (List.mem_append_right order List.mem_cons_self)
    have hunchanged : g.outcome env (g.apply env order s) r = (.unchanged, s) := by
      obtain ⟨-, d, hd, -, hnot⟩ | ⟨-, ⟨hout, -⟩ | ⟨hout, htrigger⟩⟩ :=
        outcome_cases env s ho
      · have hmem := (ho order r [] rfl).2 d hd
        exact absurd ⟨_, hreport d hmem, rfl⟩ hnot
      · rw [hout, hstate]
      · rw [hout, hstate]
        refine enforce_of_inSync (hr ?_) (env r)
        refine Option.eq_none_iff_forall_ne_some.mpr fun t ht => ?_
        have hchanged := htrigger t ht
        by_cases hmem : t ∈ order
        · rw [hreport t hmem] at hchanged
          exact absurd hchanged (by simp)
        · rw [report_of_not_mem hmem] at hchanged
          exact absurd hchanged (by simp)
    rw [apply_concat, step_state, hunchanged]
    refine ⟨rfl, fun d hd => ?_⟩
    by_cases hdr : d = r
    · rw [hdr, step_report_self, hunchanged]
    · rw [step_report_of_ne _ _ _ hdr]
      exact hreport d ((List.mem_append.mp hd).resolve_right
        fun hmem => hdr (List.mem_singleton.mp hmem))

end ResourceGraph
