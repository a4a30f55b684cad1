import Mathlib.Data.List.Dedup
import Mathlib.Logic.Function.Basic
import ClusterDeployment.Text

/-!
# Tasks of Fabric

A Fabric task is a Python function that issues commands – on the machine the
operator sits at, or over a connection on one remote host – and looks at
nothing but what they print and whether they succeed. `Fab κ δ α` is such a
function over commands `κ` and a world `δ` the commands act on: it runs
against an environment, which answers every command, and leaves a session –
the world, the commands issued and the lines printed, in order – also when it
fails, since nothing of what was done before a failure is undone.

A failing command ends the task, unless it is issued under `warn_only`
(`Fab.command` and `Fab.warnOnly`). Whether it fails is up to the environment
(the connection drops, the program is missing) and to the command's own effect
on the world.

`Fab.Keeps` is the frame rule: a part of the world that no command of a task
touches is the same after the task, whatever the environment answers and
wherever the task fails.

A task with a role runs once per host of the role (`Fab.sequential`), one
after the other and up to the first host on which it fails – or, declared
`@parallel`, on all of them (`Fab.parallel`).
-/

/-- The exceptions of the interpreter that the tasks can run into. -/
inductive PyException where
  /-- An attribute of `None` was asked for. -/
  | attributeError
  /-- A dictionary has no such key. -/
  | keyError (key : Text)
  /-- A text was joined with something else. -/
  | typeError
  /-- A local variable was read before it was assigned. -/
  | unboundLocalError
  /-- A file does not hold what `pickle.dump` wrote. -/
  | unpicklingError
  deriving DecidableEq

/-- The ways a task ends early. -/
inductive Failure where
  /-- A command failed. -/
  | abort
  /-- The task called `sys.exit`. -/
  | exit (code : ℤ)
  /-- An exception nobody catches. -/
  | raised (e : PyException)
  deriving DecidableEq

/-- What the environment answers to a command. -/
structure Reply where
  /-- Whether the command succeeds as far as the environment goes. -/
  ok : Bool
  /-- What it prints. -/
  out : Text

/-- **The trace of a task**: the world as it is now, the commands issued so
far and the lines printed so far. -/
structure Session (κ δ : Type) where
  world : δ
  commands : List κ
  printed : List Text

/-- **A Fabric task** that returns an `α`: given the environment's answers and
a session, how it ends and the session it leaves. -/
def Fab (κ δ α : Type) : Type :=
  (κ → Reply) → Session κ δ → Except Failure α × Session κ δ

variable {κ δ α β ν H : Type}

namespace Fab

instance : Monad (Fab κ δ) where
  pure a := fun _ s => (.ok a, s)
  bind m f := fun env s =>
    match m env s with
    | (.ok a, s') => f a env s'
    | (.error e, s') => (.error e, s')

@[simp] theorem pure_apply (a : α) (env : κ → Reply) (s : Session κ δ) :
    (pure a : Fab κ δ α) env s = (.ok a, s) := rfl

/-- A sequence runs its second part only if the first one ends well. -/
theorem bind_apply (m : Fab κ δ α) (f : α → Fab κ δ β) (env : κ → Reply)
    (s : Session κ δ) :
    (m >>= f) env s
      = match m env s with
        | (.ok a, s') => f a env s'
        | (.error e, s') => (.error e, s') := rfl

/-- A sequence whose first part ends well. -/
theorem bind_of_ok {m : Fab κ δ α} {f : α → Fab κ δ β} {env : κ → Reply}
    {s s' : Session κ δ} {a : α} (h : m env s = (.ok a, s')) :
    (m >>= f) env s = f a env s' := by rw [bind_apply, h]

/-- A sequence whose first part fails. -/
theorem bind_of_error {m : Fab κ δ α} {f : α → Fab κ δ β} {env : κ → Reply}
    {s s' : Session κ δ} {e : Failure} (h : m env s = (.error e, s')) :
    (m >>= f) env s = (.error e, s') := by rw [bind_apply, h]

/-- End the task. -/
def fail (e : Failure) : Fab κ δ α := fun _ s => (.error e, s)

/-- Print a line. -/
def print (t : Text) : Fab κ δ Unit :=
  fun _ s => (.ok (), { s with printed := s.printed ++ [t] })

/-- Look at the world. -/
def getWorld : Fab κ δ δ := fun _ s => (.ok s.world, s)

/-- Change the world without a command: a file the task itself writes. -/
def modifyWorld (f : δ → δ) : Fab κ δ Unit :=
  fun _ s => (.ok (), { s with world := f s.world })

/-- **Issue a command.** Where the environment lets it run and its effect on
the world is possible, the task goes on with what the command printed; else it
aborts. -/
def command (c : κ) (effect : δ → Option δ) : Fab κ δ Text := fun env s =>
  match (env c).ok, effect s.world with
  | true, some w => (.ok (env c).out, ⟨w, s.commands ++ [c], s.printed⟩)
  | _, _ => (.error .abort, { s with commands := s.commands ++ [c] })

/-- Issue a command for its effect. -/
def issue (c : κ) (effect : δ → Option δ) : Fab κ δ Unit := do
  let _ ← command c effect
  pure ()

/-- Issue a command under `warn_only`: a failure is only reported. -/
def warnOnly (c : κ) (effect : δ → Option δ) : Fab κ δ Unit := fun env s =>
  match command c effect env s with
  | (_, s') => (.ok (), s')

theorem warnOnly_apply (c : κ) (effect : δ → Option δ) (env : κ → Reply)
    (s : Session κ δ) :
    warnOnly c effect env s = (.ok (), (command c effect env s).2) := rfl

@[simp] theorem fail_apply (e : Failure) (env : κ → Reply) (s : Session κ δ) :
    (fail e : Fab κ δ α) env s = (.error e, s) := rfl

@[simp] theorem print_apply (t : Text) (env : κ → Reply) (s : Session κ δ) :
    print t env s = (.ok (), { s with printed := s.printed ++ [t] }) := rfl

@[simp] theorem getWorld_bind (f : δ → Fab κ δ β) (env : κ → Reply)
    (s : Session κ δ) : (getWorld >>= f) env s = f s.world env s := rfl

/-- A command that runs. -/
theorem command_of_ok {c : κ} {effect : δ → Option δ} {env : κ → Reply}
    {s : Session κ δ} {w : δ} (hok : (env c).ok = true)
    (hw : effect s.world = some w) :
    command c effect env s
      = (.ok (env c).out, ⟨w, s.commands ++ [c], s.printed⟩) := by
  unfold command
  rw [hok, hw]

/-- A command the environment stops. -/
theorem command_of_not_ok {c : κ} {effect : δ → Option δ} {env : κ → Reply}
    {s : Session κ δ} (hok : (env c).ok = false) :
    command c effect env s
      = (.error .abort, { s with commands := s.commands ++ [c] }) := by
  unfold command
  rw [hok]

/-- A command whose effect is impossible in this world. -/
theorem command_of_none {c : κ} {effect : δ → Option δ} {env : κ → Reply}
    {s : Session κ δ} (hw : effect s.world = none) :
    command c effect env s
      = (.error .abort, { s with commands := s.commands ++ [c] }) := by
  unfold command
  rw [hw]
  cases (env c).ok <;> rfl

/-- A command that runs under `warn_only`. -/
theorem warnOnly_of_ok {c : κ} {effect : δ → Option δ} {env : κ → Reply}
    {s : Session κ δ} {w : δ} (hok : (env c).ok = true)
    (hw : effect s.world = some w) :
    warnOnly c effect env s = (.ok (), ⟨w, s.commands ++ [c], s.printed⟩) := by
  rw [warnOnly_apply, command_of_ok hok hw]

/-- A command issued for its effect, and that runs. -/
theorem issue_of_ok {c : κ} {effect : δ → Option δ} {env : κ → Reply}
    {s : Session κ δ} {w : δ} (hok : (env c).ok = true)
    (hw : effect s.world = some w) :
    issue c effect env s = (.ok (), ⟨w, s.commands ++ [c], s.printed⟩) := by
  unfold issue
  rw [bind_of_ok (command_of_ok hok hw), pure_apply]

/-- A command issued for its effect, and that the environment stops. -/
theorem issue_of_not_ok {c : κ} {effect : δ → Option δ} {env : κ → Reply}
    {s : Session κ δ} (hok : (env c).ok = false) :
    issue c effect env s
      = (.error .abort, { s with commands := s.commands ++ [c] }) := by
  unfold issue
  rw [bind_of_error (command_of_not_ok hok)]

/-- A command issued for an effect that is impossible in this world. -/
theorem issue_of_none {c : κ} {effect : δ → Option δ} {env : κ → Reply}
    {s : Session κ δ} (hw : effect s.world = none) :
    issue c effect env s
      = (.error .abort, { s with commands := s.commands ++ [c] }) := by
  unfold issue
  rw [bind_of_error (command_of_none hw)]

/-- A command issued for an effect that is always possible. -/
theorem issue_apply (c : κ) (f : δ → δ) (env : κ → Reply) (s : Session κ δ) :
    issue c (fun w => some (f w)) env s
      = if (env c).ok then
          (.ok (), ⟨f s.world, s.commands ++ [c], s.printed⟩)
        else (.error .abort, { s with commands := s.commands ++ [c] }) := by
  split
  · next hok => exact issue_of_ok hok rfl
  · next hok => exact issue_of_not_ok (Bool.not_eq_true _ ▸ hok)

/-- A sequence that ends well has gone through both of its parts. -/
theorem exists_of_bind_ok {m : Fab κ δ α} {f : α → Fab κ δ β} {env : κ → Reply}
    {s s' : Session κ δ} {b : β} (h : (m >>= f) env s = (.ok b, s')) :
    ∃ a s₁, m env s = (.ok a, s₁) ∧ f a env s₁ = (.ok b, s') := by
  rw [bind_apply] at h
  split at h
  · next a s₁ hm => exact ⟨a, s₁, hm, h⟩
  · exact absurd (congrArg Prod.fst h) (by simp)

/-- A command that has ended well has had its effect. -/
theorem world_of_issue_ok {c : κ} {effect : δ → Option δ} {env : κ → Reply}
    {s s' : Session κ δ} (h : issue c effect env s = (.ok (), s')) :
    effect s.world = some s'.world := by
  obtain ⟨_, s₁, h, h'⟩ := exists_of_bind_ok h
  rw [← (Prod.mk.inj h').2]
  unfold command at h
  split at h
  · next w _ hw =>
    rw [hw, ← (Prod.mk.inj h).2]
  · exact absurd (congrArg Prod.fst h) (by simp)

/-- A command that has failed has changed nothing. -/
theorem world_of_issue_error {c : κ} {effect : δ → Option δ} {env : κ → Reply}
    {s s' : Session κ δ} {e : Failure}
    (h : issue c effect env s = (.error e, s')) : s'.world = s.world := by
  cases hok : (env c).ok with
  | false =>
    rw [issue_of_not_ok hok] at h
    rw [← (Prod.mk.inj h).2]
  | true =>
    cases hw : effect s.world with
    | none =>
      rw [issue_of_none hw] at h
      rw [← (Prod.mk.inj h).2]
    | some w =>
      rw [issue_of_ok hok hw] at h
      exact absurd (Prod.mk.inj h).1 (by simp)

/-- What a command under `warn_only` leaves. -/
theorem world_of_warnOnly (c : κ) (effect : δ → Option δ) (env : κ → Reply)
    (s : Session κ δ) :
    (warnOnly c effect env s).2.world
      = if (env c).ok then (effect s.world).getD s.world else s.world := by
  rw [warnOnly_apply]
  cases hok : (env c).ok with
  | false =>
    rw [command_of_not_ok hok]
    rfl
  | true =>
    cases hw : effect s.world with
    | none =>
      rw [command_of_none hw]
      rfl
    | some w =>
      rw [command_of_ok hok hw]
      rfl

/-- A task on its own: from a fresh session in the given world. -/
def exec (m : Fab κ δ α) (env : κ → Reply) (d : δ) :
    Except Failure α × Session κ δ := m env ⟨d, [], []⟩

/-! ## What a task does not touch -/

/-- **The task leaves a part of the world as it is**, whatever the
environment answers and however the task ends. -/
def Keeps (get : δ → ν) (m : Fab κ δ α) : Prop :=
  ∀ env s, get (m env s).2.world = get s.world

variable {get : δ → ν}

/-- A sequence keeps what both of its parts keep. -/
theorem keeps_bind {m : Fab κ δ α} {f : α → Fab κ δ β} (hm : Keeps get m)
    (hf : ∀ a, Keeps get (f a)) : Keeps get (m >>= f) := by
  intro env s
  have h := hm env s
  rw [bind_apply]
  rcases hr : m env s with ⟨_ | a, s'⟩
  · rw [hr] at h
    exact h
  · rw [hr] at h
    exact (hf a env s').trans h

/-- A command keeps what its effect keeps. -/
theorem keeps_command {c : κ} {effect : δ → Option δ}
    (h : ∀ w w', effect w = some w' → get w' = get w) :
    Keeps get (command c effect : Fab κ δ Text) := by
  intro env s
  cases hok : (env c).ok with
  | false => rw [command_of_not_ok hok]
  | true =>
    cases hw : effect s.world with
    | none => rw [command_of_none hw]
    | some w =>
      rw [command_of_ok hok hw]
      exact h _ _ hw

theorem keeps_issue {c : κ} {effect : δ → Option δ}
    (h : ∀ w w', effect w = some w' → get w' = get w) :
    Keeps get (issue c effect : Fab κ δ Unit) :=
  keeps_bind (keeps_command h) fun _ _ _ => rfl

/-- Under `warn_only` a command keeps what its effect keeps. -/
theorem keeps_warnOnly {c : κ} {effect : δ → Option δ}
    (h : ∀ w w', effect w = some w' → get w' = get w) :
    Keeps get (warnOnly c effect : Fab κ δ Unit) :=
  fun env s => keeps_command h env s

/-! ## A task on the hosts of a role -/

section Hosts

variable [DecidableEq H]

/-- The world of one host after a task, beside those of the others. -/
def onHost (m : Fab κ δ Unit) (env : H → κ → Reply) (w : H → δ) (h : H) :
    Bool × (H → δ) :=
  match m.exec (env h) (w h) with
  | (.ok _, s) => (true, Function.update w h s.world)
  | (.error _, s) => (false, Function.update w h s.world)

/-- The hosts of a role: a host that is listed again counts once. -/
def roleHosts (hosts : List H) : List H := hosts.reverse.dedup.reverse

@[simp] theorem mem_roleHosts {hosts : List H} {h : H} :
    h ∈ roleHosts hosts ↔ h ∈ hosts := by
  unfold roleHosts
  rw [List.mem_reverse, List.mem_dedup, List.mem_reverse]

theorem nodup_roleHosts (hosts : List H) : (roleHosts hosts).Nodup :=
  List.nodup_reverse.mpr (List.nodup_dedup _)

/-- **The hosts of a role one after the other**: the first host on which the
task fails is the last one it runs on. The flag says whether the task got
through. For a role without hosts nothing is run here, while Fabric runs the task
once without a host and aborts at its first command; no host is changed by
either. -/
def sequential (m : Fab κ δ Unit) (env : H → κ → Reply) :
    List H → (H → δ) → Bool × (H → δ)
  | [], w => (true, w)
  | h :: hosts, w =>
    match onHost m env w h with
    | (true, w') => sequential m env hosts w'
    | (false, w') => (false, w')

/-- **The hosts of a role in processes of their own**, as for a task declared
`@parallel`: it runs on every host, and has got through when it got through
on each. A role without hosts is as above. -/
def parallel (m : Fab κ δ Unit) (env : H → κ → Reply) :
    List H → (H → δ) → Bool × (H → δ)
  | [], w => (true, w)
  | h :: hosts, w =>
    ((onHost m env w h).1 && (parallel m env hosts (onHost m env w h).2).1,
      (parallel m env hosts (onHost m env w h).2).2)

/-- The task changes the world of its own host only. -/
theorem onHost_world (m : Fab κ δ Unit) (env : H → κ → Reply) (w : H → δ)
    (h : H) :
    (onHost m env w h).2
      = Function.update w h (m.exec (env h) (w h)).2.world := by
  unfold onHost
  split
  · next hr => rw [hr]
  · next hr => rw [hr]

/-- What the task keeps true of its host, it keeps true of every host. -/
theorem onHost_induction {m : Fab κ δ Unit} {env : H → κ → Reply}
    {P : H → δ → Prop}
    (hm : ∀ h d, P h d → P h (m.exec (env h) d).2.world) {w : H → δ}
    (hw : ∀ h, P h (w h)) (i h : H) : P h ((onHost m env w i).2 h) := by
  rw [onHost_world]
  by_cases hi : h = i
  · subst hi
    rw [Function.update_self]
    exact hm h _ (hw h)
  · rw [Function.update_of_ne hi]
    exact hw h

/-- **What the task keeps true of every host's world, a role keeps true of
every host's world.** -/
theorem sequential_induction {m : Fab κ δ Unit} {env : H → κ → Reply}
    {P : H → δ → Prop}
    (hm : ∀ h d, P h d → P h (m.exec (env h) d).2.world) (hosts : List H)
    {w : H → δ} (hw : ∀ h, P h (w h)) (h : H) :
    P h ((sequential m env hosts w).2 h) := by
  induction hosts generalizing w with
  | nil => exact hw h
  | cons i hosts ih =>
    have hstep := onHost_induction hm hw i
    unfold sequential
    split
    · next w' hr =>
      rw [hr] at hstep
      exact ih hstep
    · next w' hr =>
      rw [hr] at hstep
      exact hstep h

@[inherit_doc sequential_induction]
theorem parallel_induction {m : Fab κ δ Unit} {env : H → κ → Reply}
    {P : H → δ → Prop}
    (hm : ∀ h d, P h d → P h (m.exec (env h) d).2.world) (hosts : List H)
    {w : H → δ} (hw : ∀ h, P h (w h)) (h : H) :
    P h ((parallel m env hosts w).2 h) := by
  induction hosts generalizing w with
  | nil => exact hw h
  | cons i hosts ih => exact ih (onHost_induction hm hw i)

/-- The parallel run, host by host: each host listed once is left as the task
leaves it alone, and the others as they were. -/
theorem parallel_world (m : Fab κ δ Unit) (env : H → κ → Reply)
    {hosts : List H} (hnd : hosts.Nodup) (w : H → δ) (h : H) :
    (parallel m env hosts w).2 h
      = if h ∈ hosts then (m.exec (env h) (w h)).2.world else w h := by
  induction hosts generalizing w with
  | nil => rfl
  | cons i hosts ih =>
    obtain ⟨hi, hnd⟩ := List.nodup_cons.mp hnd
    show (parallel m env hosts (onHost m env w i).2).2 h = _
    rw [ih hnd, onHost_world]
    by_cases hh : h = i
    · subst hh
      rw [if_neg hi, Function.update_self, if_pos List.mem_cons_self]
    · rw [Function.update_of_ne hh]
      simp [hh]

/-- A task that gets through on every host leaves them the same run in
sequence as in parallel. -/
theorem sequential_eq_parallel {m : Fab κ δ Unit} {env : H → κ → Reply}
    (hm : ∀ h d, ∃ s, m.exec (env h) d = (.ok (), s)) (hosts : List H)
    (w : H → δ) :
    sequential m env hosts w = parallel m env hosts w := by
  induction hosts generalizing w with
  | nil => rfl
  | cons i hosts ih =>
    obtain ⟨s, hs⟩ := hm i (w i)
    have hon : onHost m env w i = (true, Function.update w i s.world) := by
      unfold onHost
      rw [hs]
    unfold sequential parallel
    rw [hon]
    exact (ih _).trans (by simp)

end Hosts

end Fab
