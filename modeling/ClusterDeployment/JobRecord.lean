import ClusterDeployment.ApplicationTasks
import ClusterDeployment.Run

/-!
# The record of the last job

`lastJobStarted.pickle` is a cell of the application directory that only
`start` writes, and only at the exit at which the driver runs and its worker
is known. So whatever tasks have been run, and with whatever output, the file
holds the job of the latest such start, whole (`lastJobStarted_run`): never
half of a job, never the driver of one and the worker of another.

It is not the job *last started*. The master also accepts a job it cannot
place at once – the report then says `SUBMITTED`, and later, of a job that is
done, `FINISHED` – and a start with such a report leaves the record of the
job before it where it is. `actsOnLatest_iff` says exactly when that
matters: `kill` and `getOutput` without arguments act on the latest accepted
driver if and only if that driver is the one recorded last, or nothing has
been recorded and they fail.
-/

namespace Application

open Run

variable (config : Config)

/-- The job a run of a task writes down. -/
def recorded : TaskRun → Option Job
  | (.start, env) => submitted (env config.submit)
  | _ => none

/-- **The driver of an accepted start**: one whose output reports a state of a
driver other than `ERROR`. -/
def accepted : TaskRun → Option Text
  | (.start, env) =>
    match driverRe (env config.submit).out with
    | some (driverId, status) =>
      if status = "ERROR".toList then none else some driverId
    | none => none
  | _ => none

/-- A job that is recorded was reported, as running, with its worker. -/
theorem submitted_eq_some_iff {reply : Reply} {job : Job} :
    submitted reply = some job
      ↔ reply.ok = true
        ∧ driverRe reply.out = some (job.driverId, "RUNNING".toList)
        ∧ driverServerRe reply.out = some job.driverServer := by
  obtain ⟨driverId, driverServer⟩ := job
  unfold submitted
  constructor
  · intro h
    split at h
    · next hok =>
      split at h
      · next id status hre =>
        split at h
        · next hr =>
          obtain ⟨w, hw, hjob⟩ := Option.map_eq_some_iff.mp h
          obtain ⟨rfl, rfl⟩ := Job.mk.inj hjob
          exact ⟨hok, by rw [hre, hr], hw⟩
        · exact absurd h (by simp)
      · exact absurd h (by simp)
    · exact absurd h (by simp)
  · rintro ⟨hok, hre, hs⟩
    rw [if_pos hok, hre]
    dsimp only
    rw [if_pos rfl, hs]
    rfl

/-- A recorded start is accepted. -/
theorem accepted_of_recorded {t : TaskRun} {job : Job}
    (h : recorded config t = some job) :
    accepted config t = some job.driverId := by
  obtain ⟨task, env⟩ := t
  cases task with
  | start =>
    obtain ⟨_, hre, _⟩ := submitted_eq_some_iff.mp h
    simp only [accepted, hre]
    rw [if_neg (by decide)]
  | kill _ => exact absurd h (by simp [recorded])
  | getOutput _ _ => exact absurd h (by simp [recorded])

/-- `getOutput` leaves the record as it is. -/
theorem getOutput_lastJobStarted (driverId driverServer : Option Text)
    (env : Command → Reply) (d : Dir) :
    ((getOutput config driverId driverServer).exec env d).snd.world.lastJobStarted
      = d.lastJobStarted := by
  have h := getOutput_apply config env d driverId driverServer
  split at h
  · next job _ =>
    rw [h, fetch_exec]
    split
    · split <;> rfl
    · rfl
  · obtain ⟨e, printed, he⟩ := h
    rw [he]

/-- `kill` leaves the directory as it is. -/
theorem kill_world (driverId : Option Text) (env : Command → Reply) (d : Dir) :
    ((kill config driverId).exec env d).snd.world = d := by
  cases h : killDriver d.lastJobStarted driverId with
  | some t => rw [kill_exec_of_some config env h]
  | none =>
    obtain ⟨e, printed, he⟩ := kill_exec_of_none config env h
    rw [he]

/-- **One run of a task**: the record is what the run records, or what it
was. -/
theorem step_lastJobStarted (d : Dir) (t : TaskRun) :
    (step config d t).lastJobStarted
      = ((recorded config t).map Job.pickle).getD d.lastJobStarted := by
  obtain ⟨task, env⟩ := t
  cases task with
  | start =>
    show ((start config).exec env d).snd.world.lastJobStarted = _
    rw [start_world]
    cases h : submitted (env config.submit) with
    | none => simp only [recorded, h, Option.map_none, Option.getD_none]
    | some job => simp only [recorded, h, Option.map_some, Option.getD_some]; rfl
  | kill driverId =>
    exact congrArg Dir.lastJobStarted (kill_world config driverId env d)
  | getOutput driverId driverServer =>
    exact getOutput_lastJobStarted config driverId driverServer env d

/-- **Any run of tasks**: the record holds the job recorded last. -/
theorem lastJobStarted_run (history : List TaskRun) :
    (run (step config) Dir.fresh history).lastJobStarted
      = ((lastWrite (recorded config) history).map Job.pickle).getD .absent :=
  run_cell Dir.lastJobStarted Job.pickle (step_lastJobStarted config)
    Dir.fresh history

/-! ## What is read is what was written -/

/-- The driver `kill` acts on when it is called without one. -/
theorem killDriver_run (history : List TaskRun) :
    killDriver (run (step config) Dir.fresh history).lastJobStarted none
      = (lastWrite (recorded config) history).map Job.driverId := by
  rw [lastJobStarted_run]
  cases lastWrite (recorded config) history with
  | none => rfl
  | some job => rfl

/-- The job `getOutput` fetches from when it is called without a driver: a
server that is given alone is not used. -/
theorem getOutputJob_run (driverServer : Option Text) (history : List TaskRun) :
    getOutputJob (run (step config) Dir.fresh history).lastJobStarted none
        driverServer
      = lastWrite (recorded config) history := by
  rw [lastJobStarted_run]
  cases lastWrite (recorded config) history with
  | none => rfl
  | some job => rfl

/-- The copies of `getOutput` in the order they are issued: the second one
only after the first has succeeded. -/
def Config.copies (env : Command → Reply) (job : Job) : List Command :=
  if (env (config.scp job .stdout)).ok then
    [config.scp job .stdout, config.scp job .stderr]
  else [config.scp job .stdout]

/-- The commands of a fetch. -/
theorem fetch_commands (job : Job) (env : Command → Reply) (d : Dir) :
    ((fetch config job).exec env d).snd.commands = config.copies env job := by
  rw [fetch_exec]
  unfold Config.copies
  split
  · split <;> rfl
  · rfl

/-- A report `start` cannot read: no state of a driver, or a running driver
without its worker. -/
def PatternMissing (outStr : Text) : Prop :=
  driverRe outStr = none
    ∨ (∃ driverId, driverRe outStr = some (driverId, "RUNNING".toList))
      ∧ driverServerRe outStr = none

/-- **All or nothing**: `start` writes the pair it has read from its own
output, of a running driver, or leaves the directory as it is – as it does
where it raises because it cannot read the report. -/
def StartsWhole (env : Command → Reply) (d : Dir) : Prop :=
  let outStr := (env config.submit).out
  let after := (start config).exec env d
  (after.snd.world = d
      ∨ ∃ job : Job, driverRe outStr = some (job.driverId, "RUNNING".toList)
        ∧ driverServerRe outStr = some job.driverServer
        ∧ job.driverId <:+: outStr ∧ job.driverServer <:+: outStr
        ∧ after.snd.world = d.recorded job)
    ∧ ((env config.submit).ok = true → PatternMissing outStr →
      after.fst = .error (.raised .attributeError) ∧ after.snd.world = d)

/-- **The readers only read**: whatever they are called with, `kill` and
`getOutput` leave the record as it is. -/
def ReadersKeep (env : Command → Reply) (d : Dir) : Prop :=
  ∀ driverId driverServer,
    ((kill config driverId).exec env d).snd.world.lastJobStarted
        = d.lastJobStarted
      ∧ ((getOutput config driverId driverServer).exec env d).snd.world.lastJobStarted
        = d.lastJobStarted

/-- **The record holds this job, and the readers use it**: the file is
missing exactly if there is no job, and without a driver `kill` issues its
command for the driver of the job and `getOutput` its copies for the whole
pair – or none, if there is no job. -/
def HoldsJob (env : Command → Reply) (d : Dir) (job : Option Job) : Prop :=
  d.lastJobStarted = (job.map Job.pickle).getD .absent
    ∧ ((kill config none).exec env d).snd.commands
      = (job.map fun j => [Command.sparkKill config.remoteSparkDir
          config.sparkMaster j.driverId]).getD []
    ∧ ∀ driverServer,
      ((getOutput config none driverServer).exec env d).snd.commands
        = (job.map (config.copies env)).getD []

/-- A start is all or nothing. -/
theorem startsWhole (env : Command → Reply) (d : Dir) :
    StartsWhole config env d := by
  refine ⟨?_, fun hok hmissing => ?_⟩
  · rw [start_world]
    cases h : submitted (env config.submit) with
    | none => exact Or.inl rfl
    | some job =>
      obtain ⟨_, hre, hs⟩ := submitted_eq_some_iff.mp h
      exact Or.inr ⟨job, hre, hs, driverId_infix hre, driverServer_infix hs, rfl⟩
  · rw [start_exec, if_pos hok]
    obtain hre | ⟨⟨driverId, hre⟩, hs⟩ := hmissing
    · rw [hre]
      exact ⟨rfl, rfl⟩
    · rw [hre, hs]
      exact ⟨rfl, rfl⟩

/-- The readers only read. -/
theorem readersKeep (env : Command → Reply) (d : Dir) :
    ReadersKeep config env d := fun driverId driverServer =>
  ⟨congrArg Dir.lastJobStarted (kill_world config driverId env d),
    getOutput_lastJobStarted config driverId driverServer env d⟩

/-- After any run of tasks the record holds the job recorded last. -/
theorem holdsJob_run (history : List TaskRun) (env : Command → Reply) :
    HoldsJob config env (run (step config) Dir.fresh history)
      (lastWrite (recorded config) history) := by
  have hk := killDriver_run config history
  have hg := fun driverServer => getOutput_apply config env
    (run (step config) Dir.fresh history) none driverServer
  simp only [getOutputJob_run] at hg
  refine ⟨lastJobStarted_run config history, ?_, fun driverServer => ?_⟩
  · cases h : lastWrite (recorded config) history with
    | none =>
      rw [h] at hk
      obtain ⟨e, printed, he⟩ := kill_exec_of_none config env hk
      rw [he]
      rfl
    | some job =>
      rw [h] at hk
      rw [kill_exec_of_some config env hk]
      rfl
  · cases h : lastWrite (recorded config) history with
    | none =>
      rw [h] at hg
      obtain ⟨e, printed, he⟩ := hg driverServer
      rw [he]
      rfl
    | some job =>
      rw [h] at hg
      rw [hg driverServer, fetch_commands]
      rfl

/-- **The record is never half-updated or mixed.** In every directory a start
is all or nothing and the readers only read; so after any run of tasks, with
any output, the record is missing or is the pair of the latest start that
went through the exit of a running driver, and it is what `kill` and
`getOutput` use. -/
theorem jobRecord_consistent (history : List TaskRun) (env : Command → Reply) :
    (∀ d, StartsWhole config env d ∧ ReadersKeep config env d)
      ∧ HoldsJob config env (run (step config) Dir.fresh history)
        (lastWrite (recorded config) history) :=
  ⟨fun d => ⟨startsWhole config env d, readersKeep config env d⟩,
    holdsJob_run config history env⟩

/-! ## The job last started -/

/-- **A run of a task acts on the latest accepted driver**, or fails without
a command. -/
def ActsOnLatest (d : Dir) (latest : Option Text) (t : TaskRun) : Prop :=
  ((t.exec config d).snd.commands = [] ∧ (t.exec config d).fst.isOk = false)
    ∨ ∃ driverId, latest = some driverId
      ∧ (t.exec config d).snd.commands ≠ []
      ∧ ∀ c ∈ (t.exec config d).snd.commands, c.driver = some driverId

/-- **The record is not outdated**: the job recorded last, if there is one, is
the driver accepted last. -/
def UpToDate (history : List TaskRun) : Prop :=
  ∀ job, lastWrite (recorded config) history = some job →
    lastWrite (accepted config) history = some job.driverId

/-- In a run in which every accepted start is recorded the record is never
outdated. -/
theorem upToDate_of_recorded {history : List TaskRun}
    (h : ∀ t ∈ history, accepted config t ≠ none → recorded config t ≠ none) :
    UpToDate config history := by
  unfold UpToDate
  induction history using List.reverseRecOn with
  | nil => exact fun job hjob => absurd hjob (by simp)
  | append_singleton history t ih =>
    intro job hjob
    rw [lastWrite_concat] at hjob ⊢
    cases hr : recorded config t with
    | some job' =>
      rw [hr, Option.some_or] at hjob
      rw [accepted_of_recorded config hr, Option.some_or, Option.some.inj hjob]
    | none =>
      have hacc : accepted config t = none := by
        by_contra hne
        exact h t (List.mem_append_right history List.mem_cons_self) hne hr
      rw [hr, Option.none_or] at hjob
      rw [hacc, Option.none_or]
      exact ih (fun u hu => h u (List.mem_append_left [t] hu)) job hjob

/-- A command of a fetch acts on the driver of its job. -/
theorem driver_of_mem_copies {env : Command → Reply} {job : Job} {c : Command}
    (hc : c ∈ config.copies env job) : c.driver = some job.driverId := by
  unfold Config.copies at hc
  split at hc
  · obtain rfl | hc := List.mem_cons.mp hc
    · rfl
    · rw [List.mem_singleton.mp hc]
      rfl
  · rw [List.mem_singleton.mp hc]
    rfl

/-- A run of a task whose commands all name one driver acts on the latest
accepted one exactly if that is the driver. -/
theorem actsOnLatest_iff_of_driver {d : Dir} {latest : Option Text}
    {t : TaskRun} (driverId : Text) (hne : (t.exec config d).snd.commands ≠ [])
    (h : ∀ c ∈ (t.exec config d).snd.commands, c.driver = some driverId) :
    ActsOnLatest config d latest t ↔ latest = some driverId := by
  constructor
  · rintro (⟨hnil, _⟩ | ⟨id, hlatest, _, hid⟩)
    · exact absurd hnil hne
    · obtain ⟨c, hc⟩ := List.exists_mem_of_ne_nil _ hne
      rw [hlatest, ← hid c hc, h c hc]
  · intro hlatest
    exact Or.inr ⟨driverId, hlatest, hne, h⟩

/-- **The readers act on the latest accepted driver exactly where the record
is not outdated**, after any run of tasks. -/
theorem actsOnLatest_iff (history : List TaskRun) (env : Command → Reply) :
    (ActsOnLatest config (run (step config) Dir.fresh history)
          (lastWrite (accepted config) history) (.kill none, env)
        ∧ ActsOnLatest config (run (step config) Dir.fresh history)
          (lastWrite (accepted config) history) (.getOutput none none, env))
      ↔ UpToDate config history := by
  have hk := killDriver_run config history
  have hg := getOutput_apply config env (run (step config) Dir.fresh history)
    none none
  rw [getOutputJob_run] at hg
  unfold UpToDate
  cases h : lastWrite (recorded config) history with
  | none =>
    -- nothing has been recorded: both readers fail before any command
    rw [h] at hk hg
    obtain ⟨e, printed, he⟩ := kill_exec_of_none config env hk
    obtain ⟨e', printed', he'⟩ := hg
    refine iff_of_true ⟨Or.inl ?_, Or.inl ?_⟩ (fun job hjob => absurd hjob (by simp))
    · show ((kill config none).exec env _).snd.commands = []
        ∧ ((kill config none).exec env _).fst.isOk = false
      rw [he]
      exact ⟨rfl, rfl⟩
    · show ((getOutput config none none).exec env _).snd.commands = []
        ∧ ((getOutput config none none).exec env _).fst.isOk = false
      rw [he']
      exact ⟨rfl, rfl⟩
  | some job =>
    rw [h] at hk hg
    have hkill : (TaskRun.exec config (.kill none, env)
        (run (step config) Dir.fresh history)).snd.commands
          = [.sparkKill config.remoteSparkDir config.sparkMaster job.driverId] :=
      congrArg Session.commands (kill_exec_of_some config env hk)
    have hget : (TaskRun.exec config (.getOutput none none, env)
        (run (step config) Dir.fresh history)).snd.commands
          = config.copies env job :=
      (congrArg (fun r => r.snd.commands) hg).trans
        (fetch_commands config job env _)
    rw [actsOnLatest_iff_of_driver config job.driverId,
      actsOnLatest_iff_of_driver config job.driverId, and_self]
    · exact ⟨fun hl job' hj => by rw [hl, Option.some.inj hj],
        fun hl => hl job rfl⟩
    · rw [hget]
      unfold Config.copies
      split <;> exact List.cons_ne_nil _ _
    · rw [hget]
      exact fun c hc => driver_of_mem_copies config hc
    · rw [hkill]
      exact List.cons_ne_nil _ _
    · rw [hkill]
      exact fun c hc => by rw [List.mem_singleton.mp hc]; rfl

/-- An environment in which every command succeeds and prints the same. -/
def printing (out : String) : Command → Reply := fun _ => ⟨true, out.toList⟩

/-- Two starts: the first driver runs, the second one waits for a worker. -/
def waitingHistory : List TaskRun :=
  [(.start, printing ("State of driver-20140731140016-0000 is RUNNING\n"
      ++ "Driver running on node20:7078 (worker-0)\n")),
    (.start, printing "State of driver-20140731140242-0001 is SUBMITTED\n")]

/-- **The record can be outdated**: after a start that the master has accepted
but not placed, `kill` acts on the driver before it. -/
theorem not_actsOnLatest_waiting :
    ¬ ActsOnLatest sampleConfig
      (run (step sampleConfig) Dir.fresh waitingHistory)
      (lastWrite (accepted sampleConfig) waitingHistory)
      (.kill none, printing "") := by
  have hlatest : lastWrite (accepted sampleConfig) waitingHistory
      = some "driver-20140731140242-0001".toList := by rfl
  have hcommands : (TaskRun.exec sampleConfig (.kill none, printing "")
      (run (step sampleConfig) Dir.fresh waitingHistory)).snd.commands
        = [.sparkKill "/usr/lib/spark".toList "spark://server_hostname:7077".toList
          "driver-20140731140016-0000".toList] := by rfl
  rintro (⟨hnil, _⟩ | ⟨driverId, hid, _, hall⟩)
  · rw [hcommands] at hnil
    exact absurd hnil (List.cons_ne_nil _ _)
  · rw [hcommands] at hall
    have hdriver := hall _ List.mem_cons_self
    rw [← hid, hlatest] at hdriver
    exact absurd hdriver (by decide)

end Application
