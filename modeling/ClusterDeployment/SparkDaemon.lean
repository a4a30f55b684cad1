import ClusterDeployment.LogRotation

/-!
# Daemons that are started by hand

Besides the jobs of Upstart there is `spark-daemon.sh`, with which a daemon can
be started by hand. It keeps the number of the daemon's process in a file, and
tells from the process of that number whether the daemon runs. Nothing ties the
two together: the file is never removed, the number may have been given to
another process by now, and from looking at the file to writing it the script
has the logs to rotate and the daemon to launch, while another operator may do
the same. It even looks at one file and writes another, if their path is a
relative one, since it goes to another directory in between; and if it cannot
write, nobody is told.

What this takes is a matter of all that happens on the machine. There is at most
one daemon for each file, if one user starts it, and looks for it where it is
written, one start is through before the next one begins, the file can be
written, and it is left alone (`atMostOne_run`). And the script is right about
which process is the daemon, if no number is given out twice (`alive_iff_run`).
-/

namespace Spark

open Run

/-! ## The script -/

/-- Where a path leads from a directory. -/
def pathFrom (dir path : Text) : Text :=
  if "/".toList.isPrefixOf path then path else dir ++ "/".toList ++ path

/-- The file that a text without quotes stands for in a directory, as long as
there are no patterns in it and no links about: none, if it is cut at a
blank. -/
def plainFile (dir t : Text) : Option Text :=
  if t.any Char.isWhitespace then none else some (pathFrom dir t)

/-- A call of `spark-daemon.sh`: who makes it and in which directory, the
variables that it looks at, which are empty where they are not set, and its
arguments. Which file a text without quotes stands for in a directory, if it is
one file, is for the shell and the machine to say while the call goes on. -/
structure DaemonCall where
  user : Text
  cwd : Text
  hostname : Text
  sparkPrefix : Text
  sparkIdentString : Text := []
  sparkLogDir : Text := []
  sparkPidDir : Text := []
  command : Text
  inst : Text
  file : Text → Text → Option Text := plainFile

namespace DaemonCall

variable (c : DaemonCall)

/-- `SPARK_IDENT_STRING` -/
def identString : Text := if c.sparkIdentString = [] then c.user else c.sparkIdentString

/-- `SPARK_LOG_DIR`; `SPARK_HOME` is `SPARK_PREFIX` in this script. -/
def logDir : Text :=
  if c.sparkLogDir = [] then c.sparkPrefix ++ "/logs".toList else c.sparkLogDir

/-- `SPARK_PID_DIR` -/
def pidDir : Text := if c.sparkPidDir = [] then "/tmp".toList else c.sparkPidDir

/-- `$log` -/
def log : Text :=
  c.logDir ++ "/spark-".toList ++ c.identString ++ "-".toList ++ c.command ++ "-".toList
    ++ c.inst ++ "-".toList ++ c.hostname ++ ".out".toList

/-- `$pid` -/
def pid : Text :=
  c.pidDir ++ "/spark-".toList ++ c.identString ++ "-".toList ++ c.command ++ "-".toList
    ++ c.inst ++ ".pid".toList

/-- The file in which the script looks for the number of the process, from the
directory of the caller. -/
def looked : Option Text := c.file c.cwd c.pid

/-- The file into which it writes the number, once it has gone to
`SPARK_PREFIX`. -/
def written : Option Text := c.file c.sparkPrefix c.pid

end DaemonCall

/-- A process: whose it is, the file into which its number is to be written, if
it is a daemon of the script and there is such a file, and whether it has been
told to end. -/
structure Process where
  owner : Text
  pid : Option Text
  told : Bool
  deriving DecidableEq

/-- **A machine**: its processes by their numbers, the files with the numbers,
the logs, and the starts that are under way, with the process that has been
launched already. -/
structure Machine where
  processes : ℕ → Option Process
  pids : Text → Option ℕ
  logs : Files
  starting : ℕ → Option (DaemonCall × Option ℕ)

/-- Whether a user can send signals to a process. -/
def maySignal (user : Text) (p : Process) : Bool :=
  user = "root".toList || p.owner = user

namespace Machine

/-- A machine on which nothing has been started. -/
def fresh (logs : Files) : Machine := ⟨fun _ => none, fun _ => none, logs, fun _ => none⟩

variable (m : Machine)

/-- ``kill -0 `cat $pid` ``: the process that it gets through to. -/
def alive (c : DaemonCall) : Option ℕ :=
  (c.looked.bind m.pids).filter fun k => (m.processes k).any (maySignal c.user)

/-- The beginning of `start`: it goes on if it finds no process. -/
def startLooks (i : ℕ) (c : DaemonCall) : Machine :=
  if (m.alive c).isSome then m
  else { m with starting := Function.update m.starting i (some (c, none)) }

/-- The rotation of the logs, and the launch of the daemon, which creates its
log, in the other directory by then. The number of its process is one that is
free. -/
def startLaunches (i k : ℕ) : Machine :=
  match m.starting i with
  | some (c, none) =>
    if (m.processes k).isSome then m
    else
      { m with
        processes := Function.update m.processes k (some ⟨c.user, c.written, false⟩)
        logs := (sparkRotateLog (pathFrom c.cwd c.log) none m.logs).append
          (pathFrom c.sparkPrefix c.log) []
        starting := Function.update m.starting i (some (c, some k)) }
  | _ => m

/-- `echo $newpid > $pid`, if it is one file and can be written -/
def startWrites (i : ℕ) : Machine :=
  match m.starting i with
  | some (c, some k) =>
    { m with
      pids := c.written.elim m.pids fun f => Function.update m.pids f (some k)
      starting := Function.update m.starting i none }
  | _ => m

/-- The same, if it cannot; the file may have been emptied then. The script goes
on to its end. -/
def startFailsToWrite (i : ℕ) (emptied : Bool) : Machine :=
  match m.starting i with
  | some (c, some _) =>
    { m with
      pids := c.written.elim m.pids fun f =>
        if emptied then Function.update m.pids f none else m.pids
      starting := Function.update m.starting i none }
  | _ => m

/-- `stop` -/
def stop (c : DaemonCall) : Machine :=
  match m.alive c with
  | some k =>
    { m with
      processes := Function.update m.processes k
        ((m.processes k).map fun p => { p with told := true }) }
  | none => m

end Machine

/-- **What happens on a machine.** Processes come and go, the machine is
rebooted, and the directory of the files is cleaned up. -/
inductive MachineEvent where
  | startLooks (i : ℕ) (c : DaemonCall)
  | startLaunches (i k : ℕ)
  | startWrites (i : ℕ)
  | startFailsToWrite (i : ℕ) (emptied : Bool)
  | startInterrupted (i : ℕ)
  | stop (c : DaemonCall)
  | forked (k : ℕ) (owner : Text)
  | ended (k : ℕ)
  | rebooted
  | removed (f : Text)

/-- The machine after that. -/
def Machine.step (m : Machine) : MachineEvent → Machine
  | .startLooks i c => m.startLooks i c
  | .startLaunches i k => m.startLaunches i k
  | .startWrites i => m.startWrites i
  | .startFailsToWrite i emptied => m.startFailsToWrite i emptied
  | .startInterrupted i => { m with starting := Function.update m.starting i none }
  | .stop c => m.stop c
  | .forked k owner =>
    if (m.processes k).isSome then m
    else { m with processes := Function.update m.processes k (some ⟨owner, none, false⟩) }
  | .ended k => { m with processes := Function.update m.processes k none }
  | .rebooted => { m with processes := fun _ => none, starting := fun _ => none }
  | .removed f => { m with pids := Function.update m.pids f none }

namespace Machine

variable {m : Machine} {c : DaemonCall}

/-- What is told to end is still the same process. -/
theorem of_processes_stop {j : ℕ} {p : Process} (h : (m.stop c).processes j = some p) :
    ∃ p', m.processes j = some p' ∧ p'.pid = p.pid ∧ p'.owner = p.owner := by
  unfold stop at h
  split at h
  · next k _ =>
    by_cases hjk : j = k
    · replace h : Function.update m.processes k _ j = some p := h
      rw [hjk, Function.update_self] at h
      obtain ⟨p', hp', rfl⟩ := Option.map_eq_some_iff.mp h
      exact ⟨p', hjk ▸ hp', rfl, rfl⟩
    · exact ⟨p, (Function.update_of_ne hjk _ m.processes).symm.trans h, rfl, rfl⟩
  · exact ⟨p, h, rfl, rfl⟩

@[simp] theorem pids_stop : (m.stop c).pids = m.pids := by
  unfold stop
  split <;> rfl

@[simp] theorem starting_stop : (m.stop c).starting = m.starting := by
  unfold stop
  split <;> rfl

end Machine

/-! ## At most one daemon -/

/-- A process is a daemon for a file. -/
def Machine.IsDaemon (m : Machine) (f : Text) (k : ℕ) : Prop :=
  ∃ p, m.processes k = some p ∧ p.pid = some f

/-- A file has the number of a process, or is going to have it. -/
def Machine.Names (m : Machine) (f : Text) (k : ℕ) : Prop :=
  m.pids f = some k ∨ ∃ i c, m.starting i = some (c, some k) ∧ c.written = some f

/-- A start for a file is under way. -/
def Machine.Starting (m : Machine) (f : Text) : Prop :=
  ∃ i c x, m.starting i = some (c, x) ∧ c.written = some f

/-- **What must not happen** to a file: another user starts the daemon, or the
same who looks for it elsewhere, or while there is another start under way; a
start is interrupted between the launch and the writing of the file, or cannot
write it; the file is removed. And no start is taken for another that is under
way. -/
def Machine.Orderly (m : Machine) (user f : Text) : MachineEvent → Prop
  | .startLooks i c =>
    m.starting i = none
      ∧ (c.written = some f → c.looked = some f ∧ c.user = user ∧ ¬ m.Starting f)
  | .startFailsToWrite i _ =>
    ∀ c k, m.starting i = some (c, some k) → c.written ≠ some f
  | .startInterrupted i =>
    ∀ c k, m.starting i = some (c, some k) → c.written ≠ some f
  | .removed f' => f' ≠ f
  | _ => True

/-- **What holds of a file at all times**: a daemon for it has the number that
is in it, or is going to be, and where a start is under way there is no other
daemon than the one that it has launched. -/
structure Machine.Kept (user f : Text) (m : Machine) : Prop where
  owner : ∀ k p, m.processes k = some p → p.pid = some f → p.owner = user
  number : ∀ k, m.IsDaemon f k → m.Names f k
  starting : ∀ i c x, m.starting i = some (c, x) → c.written = some f →
    c.user = user ∧ ∀ k, m.IsDaemon f k → x = some k
  once : ∀ i c x i' c' x', m.starting i = some (c, x) → c.written = some f →
    m.starting i' = some (c', x') → c'.written = some f → i = i'

/-- An entry of an updated table is the new one, or one of the others. -/
theorem of_update_eq_some {β : Type} {g : ℕ → Option β} {i j : ℕ} {v w : β}
    (h : Function.update g i (some v) j = some w) :
    (j = i ∧ v = w) ∨ (j ≠ i ∧ g j = some w) := by
  by_cases hij : j = i
  · rw [hij, Function.update_self] at h
    exact .inl ⟨hij, Option.some.inj h⟩
  · rw [Function.update_of_ne hij] at h
    exact .inr ⟨hij, h⟩

/-- An entry of a table from which one has been taken is one of the others. -/
theorem of_update_none {β : Type} {g : ℕ → Option β} {i j : ℕ} {w : β}
    (h : Function.update g i none j = some w) : j ≠ i ∧ g j = some w := by
  by_cases hij : j = i
  · rw [hij, Function.update_self] at h
    exact absurd h.symm (Option.some_ne_none w)
  · rw [Function.update_of_ne hij] at h
    exact ⟨hij, h⟩

variable {user f : Text} {m : Machine}

/-- What is done to the file of one call does not concern another file. -/
theorem pids_written_of_ne {c : DaemonCall} (hc : c.written ≠ some f)
    {g : Text → Text → Option ℕ} (hg : ∀ f', f ≠ f' → g f' f = m.pids f) :
    c.written.elim m.pids g f = m.pids f := by
  cases hw : c.written with
  | none => rfl
  | some f' => exact hg f' fun hff => hc (by rw [hw, hff])

theorem Machine.kept_fresh (logs : Files) : (Machine.fresh logs).Kept user f where
  owner _ _ h := absurd h.symm (Option.some_ne_none _)
  number := by
    rintro k ⟨p, hp, -⟩
    exact absurd hp.symm (Option.some_ne_none p)
  starting _ _ _ h := absurd h.symm (Option.some_ne_none _)
  once _ _ _ _ _ _ h := absurd h.symm (Option.some_ne_none _)

namespace Machine.Kept

/-- Where no start is under way, a daemon is found. -/
theorem alive_of_isDaemon (h : m.Kept user f) (hstart : ¬ m.Starting f) {k : ℕ}
    (hk : m.IsDaemon f k) {c : DaemonCall} (hc : c.looked = some f)
    (huser : c.user = user) : m.alive c = some k := by
  obtain hnumber | ⟨i, c', hi, hc'⟩ := h.number k hk
  · obtain ⟨p, hp, hpid⟩ := hk
    have howner : maySignal c.user p = true := by
      unfold maySignal
      rw [h.owner k p hp hpid, huser, decide_eq_true rfl, Bool.or_true]
    unfold Machine.alive
    rw [hc, Option.bind_some, hnumber]
    exact Option.filter_eq_some_iff.mpr ⟨rfl, by rw [hp]; exact howner⟩
  · exact absurd ⟨i, c', _, hi, hc'⟩ hstart

/-- **Two daemons for a file are one.** -/
theorem unique (h : m.Kept user f) {k k' : ℕ} (hk : m.IsDaemon f k)
    (hk' : m.IsDaemon f k') : k = k' := by
  obtain hnumber | ⟨i, c, hi, hc⟩ := h.number k hk
  · obtain hnumber' | ⟨i, c, hi, hc⟩ := h.number k' hk'
    · exact Option.some.inj (hnumber.symm.trans hnumber')
    · exact (Option.some.inj ((h.starting i c _ hi hc).2 k hk)).symm
  · exact Option.some.inj ((h.starting i c _ hi hc).2 k' hk')

/-- Fewer daemons. -/
theorem of_processes (h : m.Kept user f) {m' : Machine} (hpids : m'.pids = m.pids)
    (hstarting : m'.starting = m.starting)
    (hproc : ∀ k p, m'.processes k = some p → p.pid = some f →
      ∃ p', m.processes k = some p' ∧ p'.pid = some f ∧ p'.owner = p.owner) :
    m'.Kept user f := by
  have hdaemon : ∀ k, m'.IsDaemon f k → m.IsDaemon f k := by
    rintro k ⟨p, hp, hpid⟩
    obtain ⟨p', hp', hpid', -⟩ := hproc k p hp hpid
    exact ⟨p', hp', hpid'⟩
  refine ⟨fun k p hp hpid => ?_, fun k hk => ?_, fun i c x hi hc => ?_, ?_⟩
  · obtain ⟨p', hp', hpid', howner⟩ := hproc k p hp hpid
    rw [← howner]
    exact h.owner k p' hp' hpid'
  · unfold Machine.Names
    rw [hpids, hstarting]
    exact h.number k (hdaemon k hk)
  · rw [hstarting] at hi
    obtain ⟨huser, hother⟩ := h.starting i c x hi hc
    exact ⟨huser, fun k hk => hother k (hdaemon k hk)⟩
  · rw [hstarting]
    exact h.once

/-- A start that goes on. -/
theorem startLooks (h : m.Kept user f) {i : ℕ} {c : DaemonCall}
    (ho : m.Orderly user f (.startLooks i c)) : (m.startLooks i c).Kept user f := by
  unfold Machine.startLooks
  split
  · exact h
  · next hfound =>
    obtain ⟨hfree, hcall⟩ := ho
    refine ⟨h.owner, fun k hk => ?_, fun j c' x hj hc' => ?_,
      fun j c' x j' c'' x' hj hc' hj' hc'' => ?_⟩
    · refine (h.number k hk).imp_right fun ⟨j, c', hj, hc'⟩ => ⟨j, c', ?_, hc'⟩
      have hij : j ≠ i := fun hij => by
        rw [hij, hfree] at hj
        exact absurd hj.symm (Option.some_ne_none _)
      exact (Function.update_of_ne hij _ m.starting).trans hj
    · obtain ⟨-, hnew⟩ | ⟨-, hold⟩ := of_update_eq_some hj
      · obtain ⟨rfl, rfl⟩ := Prod.mk.inj hnew
        obtain ⟨hlooked, huser, hnone⟩ := hcall hc'
        refine ⟨huser, fun k hk => ?_⟩
        rw [h.alive_of_isDaemon hnone hk hlooked huser] at hfound
        exact absurd rfl hfound
      · exact h.starting j c' x hold hc'
    · obtain ⟨hji, hnew⟩ | ⟨-, hold⟩ := of_update_eq_some hj
      · obtain ⟨hji', -⟩ | ⟨-, hold'⟩ := of_update_eq_some hj'
        · exact hji.trans hji'.symm
        · obtain ⟨rfl, -⟩ := Prod.mk.inj hnew
          exact absurd ⟨j', c'', x', hold', hc''⟩ (hcall hc').2.2
      · obtain ⟨-, hnew⟩ | ⟨-, hold'⟩ := of_update_eq_some hj'
        · obtain ⟨rfl, -⟩ := Prod.mk.inj hnew
          exact absurd ⟨j, c', x, hold, hc'⟩ (hcall hc'').2.2
        · exact h.once j c' x j' c'' x' hold hc' hold' hc''

/-- A start that launches its daemon. -/
theorem startLaunches (h : m.Kept user f) (i k : ℕ) : (m.startLaunches i k).Kept user f := by
  unfold Machine.startLaunches
  split
  · next c hi =>
    split
    · exact h
    · next hfree =>
      have hnone : m.processes k = none := Option.not_isSome_iff_eq_none.mp hfree
      have hproc : ∀ j p, Function.update m.processes k (some ⟨c.user, c.written, false⟩) j
          = some p → p.pid = some f →
          (j = k ∧ c.written = some f ∧ c.user = p.owner) ∨ m.processes j = some p := by
        intro j p hj hpid
        refine (of_update_eq_some hj).imp (fun ⟨hjk, hnew⟩ => ?_) fun ⟨_, hold⟩ => hold
        rw [← hnew] at hpid ⊢
        exact ⟨hjk, hpid, rfl⟩
      -- a start that is under way has been so before
      have hbefore : ∀ j c' x, Function.update m.starting i (some (c, some k)) j
          = some (c', x) → ∃ x₀, m.starting j = some (c', x₀) := by
        intro j c' x hj
        obtain ⟨rfl, hnew⟩ | ⟨-, hold⟩ := of_update_eq_some hj
        · rw [← (Prod.mk.inj hnew).1]
          exact ⟨none, hi⟩
        · exact ⟨x, hold⟩
      refine ⟨fun j p hj hpid => ?_, fun j hj => ?_, fun j c' x hj hc' => ?_,
        fun j c' x j' c'' x' hj hc' hj' hc'' => ?_⟩
      · obtain ⟨-, hc, howner⟩ | hold := hproc j p hj hpid
        · rw [← howner]
          exact (h.starting i c none hi hc).1
        · exact h.owner j p hold hpid
      · obtain ⟨p, hp, hpid⟩ := hj
        obtain ⟨rfl, hc, -⟩ | hold := hproc j p hp hpid
        · exact .inr ⟨i, c, Function.update_self i _ m.starting, hc⟩
        · refine (h.number j ⟨p, hold, hpid⟩).imp_right fun ⟨i', c', hi', hc'⟩ => ?_
          have hne : i' ≠ i := fun hii => by
            rw [hii, hi] at hi'
            exact absurd (Prod.mk.inj (Option.some.inj hi')).2.symm (Option.some_ne_none j)
          exact ⟨i', c', (Function.update_of_ne hne _ m.starting).trans hi', hc'⟩
      · obtain ⟨rfl, hnew⟩ | ⟨hji, hold⟩ := of_update_eq_some hj
        · obtain ⟨rfl, rfl⟩ := Prod.mk.inj hnew
          obtain ⟨huser, hother⟩ := h.starting j c none hi hc'
          refine ⟨huser, fun k' ⟨p, hp, hpid⟩ => ?_⟩
          obtain ⟨rfl, -⟩ | hp := hproc k' p hp hpid
          · rfl
          · exact absurd (hother k' ⟨p, hp, hpid⟩).symm (Option.some_ne_none k')
        · obtain ⟨huser, hother⟩ := h.starting j c' x hold hc'
          refine ⟨huser, fun k' ⟨p, hp, hpid⟩ => ?_⟩
          obtain ⟨-, hc, -⟩ | hp := hproc k' p hp hpid
          · exact absurd (h.once j c' x i c none hold hc' hi hc) hji
          · exact hother k' ⟨p, hp, hpid⟩
      · obtain ⟨x₀, hx₀⟩ := hbefore j c' x hj
        obtain ⟨x₁, hx₁⟩ := hbefore j' c'' x' hj'
        exact h.once j c' x₀ j' c'' x₁ hx₀ hc' hx₁ hc''
  · exact h

/-- A start that ends, whose daemon, if there is one, has its number in the
file. -/
theorem startEnds (h : m.Kept user f) {i : ℕ} {m' : Machine}
    (hprocesses : m'.processes = m.processes)
    (hstarting : m'.starting = Function.update m.starting i none)
    (hpids : ∀ j, m.IsDaemon f j → m.pids f = some j → m'.pids f = some j)
    (hwritten : ∀ c j, m.starting i = some (c, some j) → c.written = some f →
      m'.pids f = some j) :
    m'.Kept user f := by
  have hdaemon : ∀ j, m'.IsDaemon f j ↔ m.IsDaemon f j := by
    intro j
    unfold Machine.IsDaemon
    rw [hprocesses]
  refine ⟨fun k p hk => h.owner k p (hprocesses ▸ hk), fun j hj => ?_,
    fun j c x hj hc => ?_, fun j c x j' c' x' hj hc hj' hc' => ?_⟩
  · obtain hnumber | ⟨i', c, hi', hc⟩ := h.number j ((hdaemon j).mp hj)
    · exact .inl (hpids j ((hdaemon j).mp hj) hnumber)
    · by_cases hii : i' = i
      · exact .inl (hwritten c j (hii ▸ hi') hc)
      · refine .inr ⟨i', c, ?_, hc⟩
        rw [hstarting]
        exact (Function.update_of_ne hii _ m.starting).trans hi'
  · rw [hstarting] at hj
    obtain ⟨huser, hother⟩ := h.starting j c x (of_update_none hj).2 hc
    exact ⟨huser, fun k hk => hother k ((hdaemon k).mp hk)⟩
  · rw [hstarting] at hj hj'
    exact h.once j c x j' c' x' (of_update_none hj).2 hc (of_update_none hj').2 hc'

/-- A start that writes the file. -/
theorem startWrites (h : m.Kept user f) (i : ℕ) : (m.startWrites i).Kept user f := by
  unfold Machine.startWrites
  split
  · next c k hi =>
    have hfile : c.written = some f →
        (c.written.elim m.pids fun f' => Function.update m.pids f' (some k)) f
          = some k := by
      intro hc
      rw [hc]
      exact Function.update_self f (some k) m.pids
    refine h.startEnds rfl rfl (fun j hj hnumber => ?_) fun c' j hi' hc' => ?_
    · by_cases hc : c.written = some f
      · rw [← (h.starting i c _ hi hc).2 j hj]
        exact hfile hc
      · exact (pids_written_of_ne hc fun f' hf' => Function.update_of_ne hf' _ m.pids).trans
          hnumber
    · rw [hi] at hi'
      obtain ⟨rfl, hk⟩ := Prod.mk.inj (Option.some.inj hi')
      rw [← hk]
      exact hfile hc'
  · exact h

/-- A start that cannot write its file. -/
theorem startFailsToWrite (h : m.Kept user f) {i : ℕ} {emptied : Bool}
    (ho : m.Orderly user f (.startFailsToWrite i emptied)) :
    (m.startFailsToWrite i emptied).Kept user f := by
  unfold Machine.startFailsToWrite
  split
  · next c k hi =>
    refine h.startEnds rfl rfl (fun j _ hnumber => ?_) fun c' j hi' hc' =>
      absurd hc' (ho c' j hi')
    refine (pids_written_of_ne (ho c k hi) fun f' hf' => ?_).trans hnumber
    split
    · exact Function.update_of_ne hf' _ m.pids
    · rfl
  · exact h

/-- **Every step.** -/
theorem step (h : m.Kept user f) {e : MachineEvent} (ho : m.Orderly user f e) :
    (m.step e).Kept user f := by
  cases e with
  | startLooks i c => exact h.startLooks ho
  | startLaunches i k => exact h.startLaunches i k
  | startWrites i => exact h.startWrites i
  | startFailsToWrite i emptied => exact h.startFailsToWrite ho
  | startInterrupted i =>
    exact h.startEnds rfl rfl (fun _ _ hnumber => hnumber)
      fun c j hi hc => absurd hc (ho c j hi)
  | stop c =>
    refine h.of_processes Machine.pids_stop Machine.starting_stop fun j p hj hpid => ?_
    obtain ⟨p', hp', hpid', howner⟩ := Machine.of_processes_stop hj
    exact ⟨p', hp', hpid'.trans hpid, howner⟩
  | forked k owner =>
    show (if _ then m else _ : Machine).Kept user f
    split
    · exact h
    · refine h.of_processes rfl rfl fun j p hj hpid => ?_
      obtain ⟨-, hnew⟩ | ⟨-, hold⟩ := of_update_eq_some hj
      · rw [← hnew] at hpid
        exact absurd hpid.symm (Option.some_ne_none f)
      · exact ⟨p, hold, hpid, rfl⟩
  | ended k =>
    exact h.of_processes rfl rfl fun j p hj hpid => ⟨p, (of_update_none hj).2, hpid, rfl⟩
  | rebooted =>
    exact ⟨fun _ _ hk => absurd hk.symm (Option.some_ne_none _),
      fun _ ⟨p, hp, _⟩ => absurd hp.symm (Option.some_ne_none p),
      fun _ _ _ hi => absurd hi.symm (Option.some_ne_none _),
      fun _ _ _ _ _ _ hi => absurd hi.symm (Option.some_ne_none _)⟩
  | removed f' =>
    refine ⟨h.owner, fun k hk => (h.number k hk).imp_left fun hnumber => ?_,
      h.starting, h.once⟩
    exact (Function.update_of_ne (Ne.symm ho) _ m.pids).trans hnumber

end Machine.Kept

/-- All events of a history are orderly. -/
def Machine.OrderlyRun (user f : Text) : Machine → List MachineEvent → Prop
  | _, [] => True
  | m, e :: events => m.Orderly user f e ∧ (m.step e).OrderlyRun user f events

/-- Every history. -/
theorem Machine.Kept.run (h : m.Kept user f) {events : List MachineEvent}
    (ho : m.OrderlyRun user f events) : (Run.run Machine.step m events).Kept user f := by
  induction events generalizing m with
  | nil => exact h
  | cons e events ih => exact ih (h.step ho.1) ho.2

/-- **At most one daemon runs for a file**: after any history in which one user
starts it, from where the path leads to the same file as from `SPARK_PREFIX`,
one start after the other and without interrupting them between the launch and
the writing of the file, which succeeds, and in which the file is left alone –
whatever other processes do, whichever numbers they have, and however often the
daemon ends or the machine is rebooted. -/
theorem atMostOne_run (logs : Files) {events : List MachineEvent}
    (ho : (Machine.fresh logs).OrderlyRun user f events) {k k' : ℕ}
    (hk : (run Machine.step (Machine.fresh logs) events).IsDaemon f k)
    (hk' : (run Machine.step (Machine.fresh logs) events).IsDaemon f k') : k = k' :=
  ((Machine.kept_fresh logs).run ho).unique hk hk'

/-- A call for the master. -/
def masterCall : DaemonCall where
  user := "root".toList
  cwd := "/root".toList
  hostname := "server0".toList
  sparkPrefix := "/usr/lib/spark/sbin/..".toList
  command := "org.apache.spark.deploy.master.Master".toList
  inst := "1".toList

/-- The file of the master. -/
def masterPid : Text := "/tmp/spark-root-org.apache.spark.deploy.master.Master-1.pid".toList

theorem looked_masterCall : masterCall.looked = some masterPid := by decide +kernel

/-- A start that nothing comes between. -/
def masterStart : List MachineEvent :=
  [.startLooks 0 masterCall, .startLaunches 0 7, .startWrites 0]

theorem orderlyRun_masterStart : (Machine.fresh fun _ => none).OrderlyRun
    "root".toList masterPid masterStart := by
  refine ⟨⟨rfl, fun _ => ⟨looked_masterCall, rfl, ?_⟩⟩, trivial, trivial, trivial⟩
  rintro ⟨i, c, x, hi, -⟩
  exact absurd hi.symm (Option.some_ne_none _)

theorem processes_masterStart :
    (run Machine.step (Machine.fresh fun _ => none) masterStart).processes 7
      = some ⟨"root".toList, some masterPid, false⟩ := by decide +kernel

/-- There is one daemon. -/
theorem atMostOne_run_masterStart : ∃! k,
    (run Machine.step (Machine.fresh fun _ => none) masterStart).IsDaemon
      masterPid k := by
  refine ⟨7, ⟨_, processes_masterStart, rfl⟩, fun k hk => ?_⟩
  exact atMostOne_run _ orderlyRun_masterStart hk ⟨_, processes_masterStart, rfl⟩

-- two starts at a time: both have looked before one of them has written
example :
    let m := run Machine.step (Machine.fresh fun _ => none)
      [.startLooks 0 masterCall, .startLooks 1 masterCall, .startLaunches 0 7,
        .startLaunches 1 8, .startWrites 0, .startWrites 1]
    m.processes 7 = m.processes 8 ∧ m.processes 7 ≠ none := by decide +kernel

-- one after the other, with a relative path: the second one looks elsewhere
example :
    let c := { masterCall with sparkPidDir := "pids".toList }
    let m := run Machine.step (Machine.fresh fun _ => none)
      [.startLooks 0 c, .startLaunches 0 7, .startWrites 0,
        .startLooks 1 c, .startLaunches 1 8, .startWrites 1]
    m.processes 7 = m.processes 8 ∧ m.processes 7 ≠ none := by decide +kernel

/-! ## What the script takes for the daemon -/

/-- The numbers that an event gives out. -/
def MachineEvent.numbers : MachineEvent → List ℕ
  | startLaunches _ k => [k]
  | forked k _ => [k]
  | _ => []

/-- **A number that is named belongs to the daemon**, or to no process any more.
It is among those that have been given out. -/
def Machine.Truthful (given : List ℕ) (m : Machine) : Prop :=
  ∀ f k, m.Names f k → k ∈ given ∧ ∀ p, m.processes k = some p → p.pid = some f

theorem Machine.truthful_fresh (logs : Files) : (Machine.fresh logs).Truthful [] := by
  rintro f k (h | ⟨i, c, h, -⟩)
  · exact absurd h.symm (Option.some_ne_none k)
  · exact absurd h.symm (Option.some_ne_none _)

namespace Machine.Truthful

variable {given : List ℕ}

/-- No new names, and no new processes. -/
theorem of_fewer (h : m.Truthful given) {m' : Machine}
    (hnames : ∀ f k, m'.Names f k → m.Names f k)
    (hproc : ∀ k p, m'.processes k = some p →
      ∃ p', m.processes k = some p' ∧ p'.pid = p.pid) : m'.Truthful given := by
  intro f k hk
  obtain ⟨hgiven, hdaemon⟩ := h f k (hnames f k hk)
  refine ⟨hgiven, fun p hp => ?_⟩
  obtain ⟨p', hp', hpid⟩ := hproc k p hp
  rw [← hpid]
  exact hdaemon p' hp'

theorem append (h : m.Truthful given) (new : List ℕ) : m.Truthful (given ++ new) :=
  fun f k hk => (h f k hk).imp_left (List.mem_append_left new)

/-- A new process, with a number of its own. -/
theorem of_process (h : m.Truthful given) {k : ℕ} (hk : k ∉ given) {x : Process}
    {m' : Machine} (hproc : m'.processes = Function.update m.processes k (some x))
    (hnames : ∀ f j, m'.Names f j → m.Names f j ∨ j = k ∧ x.pid = some f) :
    m'.Truthful (given ++ [k]) := by
  intro f j hj
  rw [hproc]
  obtain hold | ⟨rfl, hx⟩ := hnames f j hj
  · obtain ⟨hgiven, hdaemon⟩ := h f j hold
    have hne : j ≠ k := fun hjk => hk (hjk ▸ hgiven)
    refine ⟨List.mem_append_left _ hgiven, fun p hp => hdaemon p ?_⟩
    rwa [Function.update_of_ne hne] at hp
  · refine ⟨List.mem_append_right _ List.mem_cons_self, fun p hp => ?_⟩
    rw [Function.update_self] at hp
    rw [← Option.some.inj hp]
    exact hx

/-- **Every step** that gives out new numbers only. -/
theorem step (h : m.Truthful given) {e : MachineEvent} (hnew : ∀ k ∈ e.numbers, k ∉ given) :
    (m.step e).Truthful (given ++ e.numbers) := by
  cases e with
  | startLooks i c =>
    refine append ?_ _
    show (m.startLooks i c).Truthful given
    unfold Machine.startLooks
    split
    · exact h
    · refine h.of_fewer (fun f k hk => hk.imp_right fun ⟨j, c', hj, hc'⟩ => ?_)
        fun k p hp => ⟨p, hp, rfl⟩
      obtain ⟨-, heq⟩ | ⟨-, hold⟩ := of_update_eq_some hj
      · exact absurd (Prod.mk.inj heq).2.symm (Option.some_ne_none k)
      · exact ⟨j, c', hold, hc'⟩
  | startLaunches i k =>
    show (m.startLaunches i k).Truthful (given ++ [k])
    unfold Machine.startLaunches
    split
    · next c hi =>
      split
      · exact h.append _
      · refine h.of_process (hnew k List.mem_cons_self) rfl fun f j hj => ?_
        obtain hnumber | ⟨i', c', hi', hc'⟩ := hj
        · exact .inl (.inl hnumber)
        · obtain ⟨-, heq⟩ | ⟨-, hold⟩ := of_update_eq_some hi'
          · obtain ⟨rfl, hk⟩ := Prod.mk.inj heq
            exact .inr ⟨(Option.some.inj hk).symm, hc'⟩
          · exact .inl (.inr ⟨i', c', hold, hc'⟩)
    · exact h.append _
  | startWrites i =>
    refine append ?_ _
    show (m.startWrites i).Truthful given
    unfold Machine.startWrites
    split
    · next c k hi =>
      refine h.of_fewer (fun f j hj => ?_) fun k p hp => ⟨p, hp, rfl⟩
      obtain hnumber | ⟨i', c', hi', hc'⟩ := hj
      · by_cases hf : c.written = some f
        · replace hnumber :
            (c.written.elim m.pids fun f' => Function.update m.pids f' (some k)) f
              = some j := hnumber
          rw [hf, Option.elim_some, Function.update_self] at hnumber
          rw [← Option.some.inj hnumber]
          exact .inr ⟨i, c, hi, hf⟩
        · exact .inl ((pids_written_of_ne hf fun f' hf' =>
            Function.update_of_ne hf' _ m.pids).symm.trans hnumber)
      · exact .inr ⟨i', c', (of_update_none hi').2, hc'⟩
    · exact h
  | startFailsToWrite i emptied =>
    refine append ?_ _
    show (m.startFailsToWrite i emptied).Truthful given
    unfold Machine.startFailsToWrite
    split
    · next c k hi =>
      refine h.of_fewer (fun f j hj => ?_) fun k p hp => ⟨p, hp, rfl⟩
      refine hj.imp (fun hnumber => ?_) fun ⟨i', c', hi', hc'⟩ =>
        ⟨i', c', (of_update_none hi').2, hc'⟩
      by_cases hf : c.written = some f
      · replace hnumber : c.written.elim m.pids (fun f' =>
          if emptied then Function.update m.pids f' none else m.pids) f = some j := hnumber
        rw [hf, Option.elim_some] at hnumber
        cases emptied with
        | false => exact hnumber
        | true =>
          replace hnumber : Function.update m.pids f none f = some j := hnumber
          rw [Function.update_self] at hnumber
          exact absurd hnumber.symm (Option.some_ne_none j)
      · refine (pids_written_of_ne hf fun f' hf' => ?_).symm.trans hnumber
        split
        · exact Function.update_of_ne hf' _ m.pids
        · rfl
    · exact h
  | startInterrupted i =>
    refine append ?_ _
    exact h.of_fewer (fun f k hk => hk.imp_right fun ⟨j, c, hj, hc⟩ =>
      ⟨j, c, (of_update_none hj).2, hc⟩) fun k p hp => ⟨p, hp, rfl⟩
  | stop c =>
    refine append ?_ _
    show (m.stop c).Truthful given
    refine h.of_fewer (fun f k hk => ?_) fun j p hj => ?_
    · unfold Machine.Names at hk
      rwa [Machine.pids_stop, Machine.starting_stop] at hk
    · obtain ⟨p', hp', hpid, -⟩ := Machine.of_processes_stop hj
      exact ⟨p', hp', hpid⟩
  | forked k owner =>
    show (if _ then m else _ : Machine).Truthful (given ++ [k])
    split
    · exact h.append _
    · exact h.of_process (hnew k List.mem_cons_self) rfl fun f j hj => .inl hj
  | ended k =>
    refine append ?_ _
    exact h.of_fewer (fun _ _ hk => hk) fun j p hp => ⟨p, (of_update_none hp).2, rfl⟩
  | rebooted =>
    refine append ?_ _
    refine h.of_fewer (fun f k hk => .inl ?_)
      fun _ p hp => absurd hp.symm (Option.some_ne_none p)
    exact hk.resolve_right fun ⟨_, _, hi, _⟩ => absurd hi.symm (Option.some_ne_none _)
  | removed f' =>
    refine append ?_ _
    refine h.of_fewer (fun f k hk => hk.imp_left fun hnumber => ?_)
      fun k p hp => ⟨p, hp, rfl⟩
    replace hnumber : Function.update m.pids f' none f = some k := hnumber
    by_cases hf : f = f'
    · rw [hf, Function.update_self] at hnumber
      exact absurd hnumber.symm (Option.some_ne_none k)
    · rwa [Function.update_of_ne hf] at hnumber

/-- Every history that gives out no number twice. -/
theorem run (h : m.Truthful given) {events : List MachineEvent}
    (hnd : (given ++ events.flatMap MachineEvent.numbers).Nodup) :
    (Run.run Machine.step m events).Truthful
      (given ++ events.flatMap MachineEvent.numbers) := by
  induction events generalizing m given with
  | nil => exact h.append _
  | cons e events ih =>
    rw [List.flatMap_cons, ← List.append_assoc] at hnd ⊢
    refine ih (h.step fun k hk hgiven => ?_) hnd
    exact (List.nodup_append.mp (List.nodup_append.mp hnd).1).2.2 k hgiven k hk rfl

end Machine.Truthful

/-- **The script is right about the daemon**, after any history in which no
number is given out twice, and which is orderly as above: while no start is under
way, the process that a call for the file finds – which keeps `start` from going on, and which
`stop` tells to end – is the daemon, and if it finds none there is no daemon. -/
theorem alive_iff_run (logs : Files) {events : List MachineEvent}
    (ho : (Machine.fresh logs).OrderlyRun user f events)
    (hnd : (events.flatMap MachineEvent.numbers).Nodup) {c : DaemonCall}
    (hc : c.looked = some f) (huser : c.user = user)
    (hstart : ¬ (run Machine.step (Machine.fresh logs) events).Starting f) (k : ℕ) :
    (run Machine.step (Machine.fresh logs) events).alive c = some k
      ↔ (run Machine.step (Machine.fresh logs) events).IsDaemon f k := by
  have htruthful : (run Machine.step (Machine.fresh logs) events).Truthful
      ([] ++ events.flatMap MachineEvent.numbers) := (Machine.truthful_fresh logs).run hnd
  have hkept : (run Machine.step (Machine.fresh logs) events).Kept user f :=
    (Machine.kept_fresh logs).run ho
  constructor
  · intro halive
    obtain ⟨hnumber, hsignal⟩ := Option.filter_eq_some_iff.mp halive
    obtain ⟨p, hp, -⟩ := (Option.any_eq_true _ _).mp hsignal
    rw [hc, Option.bind_some] at hnumber
    exact ⟨p, hp, (htruthful f k (.inl hnumber)).2 p hp⟩
  · exact fun hk => hkept.alive_of_isDaemon hstart hk hc huser

/-- It is the one that the script finds. -/
theorem alive_iff_run_masterStart :
    (run Machine.step (Machine.fresh fun _ => none) masterStart).alive masterCall
      = some 7 := by
  refine (alive_iff_run _ orderlyRun_masterStart (by decide) looked_masterCall rfl ?_ 7).mpr
    ⟨_, processes_masterStart, rfl⟩
  rintro ⟨i, c, x, hi, -⟩
  replace hi : Function.update (Function.update (Function.update (fun _ => none) 0 _) 0 _)
    0 none i = some (c, x) := hi
  obtain ⟨hne, hi⟩ := of_update_none hi
  obtain ⟨rfl, -⟩ | ⟨-, hi⟩ := of_update_eq_some hi
  · exact absurd rfl hne
  · obtain ⟨rfl, -⟩ | ⟨-, hi⟩ := of_update_eq_some hi
    · exact absurd rfl hne
    · exact absurd hi.symm (Option.some_ne_none _)

-- the number of a daemon that has ended is given to another process
example :
    let m := run Machine.step (Machine.fresh fun _ => none)
      (masterStart ++ [.ended 7, .forked 7 "spark".toList])
    m.alive masterCall = some 7 ∧ (m.processes 7).bind Process.pid = none := by
  decide +kernel

end Spark
