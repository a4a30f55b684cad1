import ClusterDeployment.DriverReport
import ClusterDeployment.Fabric

/-!
# The tasks of the application fabfile

The operator works in the directory of an application. `start` submits its
JAR to the cluster and writes down, in `lastJobStarted.pickle`, which driver
the master has created and where it runs; `kill` and `getOutput` read that
record when they are called without a driver. The record is the only thing
that passes from one task to the next: everything else a task knows comes
from its arguments, from `config.yaml` and from what its own commands print.

A task runs once per host of its role, so a run of a task below is its run
on one host. Which replies the commands get – what `spark-submit` prints,
whether a copy succeeds – is the environment's choice in each run.

For each task one theorem lists its exits, with what it has done to the
directory and which commands it has issued at each of them (`start_exec`,
`kill_exec_of_some` and `kill_exec_of_none`, `getOutput_apply` with
`fetch_exec`); nothing else unfolds the tasks.
-/

namespace Application

/-- The entries of `config.yaml` that the tasks read. -/
structure Config where
  all : List Text
  jar : Text
  localJarDir : Text
  remoteJarDir : Text
  mainClass : Text
  remoteSparkDir : Text
  sparkMaster : Text
  sparkWork : Text

/-- The path of the JAR that `start` hands to `spark-submit`. -/
def Config.remoteJar (config : Config) : Text :=
  config.remoteJarDir ++ "/".toList ++ config.jar

/-- A driver and the worker it runs on, as `lastJobStarted.pickle` keeps
them. -/
structure Job where
  driverId : Text
  driverServer : Text
  deriving DecidableEq

/-- The two outputs of a driver. -/
inductive Output where
  | stdout
  | stderr
  deriving DecidableEq

/-- The name of an output in the driver's directory. -/
def Output.name : Output → Text
  | stdout => "stdout".toList
  | stderr => "stderr".toList

/-- The commands of `start`, `kill` and `getOutput`. -/
inductive Command where
  | sparkSubmit (remoteSparkDir mainClass sparkMaster remoteJar : Text)
  | sparkKill (remoteSparkDir sparkMaster driverId : Text)
  | scp (driverServer sparkWork driverId : Text) (output : Output)
  deriving DecidableEq

namespace Command

/-- The command line, as it reaches the shell. -/
def line : Command → Text
  | sparkSubmit remoteSparkDir mainClass sparkMaster remoteJar =>
    List.intercalate " ".toList
      [remoteSparkDir ++ "/bin/spark-submit ".toList,
        "--class".toList, mainClass, "--master".toList, sparkMaster,
        "--deploy-mode".toList, "cluster".toList, remoteJar]
  | sparkKill remoteSparkDir sparkMaster driverId =>
    List.intercalate " ".toList
      [remoteSparkDir ++ "/bin/spark-class ".toList,
        "org.apache.spark.deploy.Client kill".toList, sparkMaster, driverId]
  | scp driverServer sparkWork driverId output =>
    "scp ".toList ++ driverServer ++ ":".toList ++ sparkWork ++ "/".toList
      ++ driverId ++ "/".toList ++ output.name ++ " ".toList ++ output.name
      ++ ".txt".toList

/-- The driver a command acts on. -/
def driver : Command → Option Text
  | sparkSubmit _ _ _ _ => none
  | sparkKill _ _ driverId => some driverId
  | scp _ _ driverId _ => some driverId

end Command

/-- What `lastJobStarted.pickle` can be found to hold. An entry that is
missing from the dictionary is `none`. -/
inductive Pickle where
  | absent
  | unreadable
  | dict (driverId driverServer : Option Text)
  deriving DecidableEq

/-- The file `start` writes for a job. -/
def Job.pickle (job : Job) : Pickle :=
  .dict (some job.driverId) (some job.driverServer)

/-- **The application directory**: the record, and for each fetched output
the job it was copied from, if it has been fetched. -/
structure Dir where
  lastJobStarted : Pickle
  stdoutTxt : Option Job
  stderrTxt : Option Job

/-- A directory in which no task has run. -/
def Dir.fresh : Dir := ⟨.absent, none, none⟩

/-- The directory once the job has been written down. -/
def Dir.recorded (job : Job) (d : Dir) : Dir :=
  { d with lastJobStarted := job.pickle }

/-- The effect of a copy on the directory. -/
def Dir.copied (job : Job) : Output → Dir → Dir
  | .stdout, d => { d with stdoutTxt := some job }
  | .stderr, d => { d with stderrTxt := some job }

open Fab

/-- What `start` prints when the master rejects the job. -/
def errorMsg : Text :=
  ("\nThe error state occurs when the Spark Master rejects the job,\n"
    ++ "which is likely due to a misconfiguration in the Spark context\n"
    ++ "of your application.\n"
    ++ "Once checking your Spark context for accuracy, next ssh into the node\n"
    ++ "that failed and go to Spark work directory, which contains\n"
    ++ "the output for Spark applicaitons and drivers.\n"
    ++ "Check stderr and stdout in the driver and application directories.\n"
    ).toList

/-- The submission, as `start` issues it. -/
def Config.submit (config : Config) : Command :=
  .sparkSubmit config.remoteSparkDir config.mainClass config.sparkMaster
    config.remoteJar

/-- The task `start`. -/
def start (config : Config) : Fab Command Dir Unit := do
  let outStr ← command config.submit some
  match driverRe outStr with
  | none => fail (.raised .attributeError)
  | some (driverId, status) =>
    print ("  DriverID: ".toList ++ driverId)
    print ("  Status: ".toList ++ status)
    if status = "ERROR".toList then
      print errorMsg
    else if status = "RUNNING".toList then
      match driverServerRe outStr with
      | none => fail (.raised .attributeError)
      | some driverServer =>
        print ("  DriverServer: ".toList ++ driverServer)
        modifyWorld (Dir.recorded ⟨driverId, driverServer⟩)
    else
      print status

/-- `not driverId`: the argument was omitted, or is empty. -/
def isFalsy : Option Text → Bool
  | none => true
  | some t => t.isEmpty

/-- Opening and unpickling the record. Where there is no such file the
caller's handler goes on with `none`. -/
def loadLastJob : Fab Command Dir (Option (Option Text × Option Text)) := do
  let d ← getWorld
  match d.lastJobStarted with
  | .absent => pure none
  | .unreadable => fail (.raised .unpicklingError)
  | .dict driverId driverServer => pure (some (driverId, driverServer))

/-- `m[key]`. -/
def item (key : Text) : Option Text → Fab Command Dir Text
  | some v => pure v
  | none => fail (.raised (.keyError key))

/-- The task `kill`. Its handler prints and goes on, so that without a record
`m` is unbound where its driver is read. -/
def kill (config : Config) (driverId : Option Text) :
    Fab Command Dir Unit := do
  let driverId ← (if isFalsy driverId then do
      match ← loadLastJob with
      | none =>
        print "Unable to open lastJobStarted.pickle".toList
        fail (.raised .unboundLocalError)
      | some m => item "driverId".toList m.fst
    else
      pure (driverId.getD []))
  issue (.sparkKill config.remoteSparkDir config.sparkMaster driverId) some

/-- The task `getOutput`. Without a driver both of its arguments come from
the record; with one, a server that was not given cannot be joined to the
command. -/
def getOutput (config : Config) (driverId driverServer : Option Text) :
    Fab Command Dir Unit := do
  let (driverId, driverServer) ← (if isFalsy driverId then do
      match ← loadLastJob with
      | none =>
        print "Unable to open lastJobStarted.pickle".toList
        fail (.exit (-1))
      | some m =>
        let driverId ← item "driverId".toList m.fst
        let driverServer ← item "driverServer".toList m.snd
        pure (driverId, some driverServer)
    else
      pure (driverId.getD [], driverServer))
  match driverServer with
  | none => fail (.raised .typeError)
  | some driverServer =>
    issue (.scp driverServer config.sparkWork driverId .stdout)
      (fun d => some (d.copied ⟨driverId, driverServer⟩ .stdout))
    issue (.scp driverServer config.sparkWork driverId .stderr)
      (fun d => some (d.copied ⟨driverId, driverServer⟩ .stderr))

/-! ## What a run of a task comes to -/

/-- A run of one of the tasks, with its arguments. -/
inductive Task where
  | start
  | kill (driverId : Option Text)
  | getOutput (driverId driverServer : Option Text)

/-- The task itself. -/
def taskOf (config : Config) : Task → Fab Command Dir Unit
  | .start => start config
  | .kill driverId => kill config driverId
  | .getOutput driverId driverServer => getOutput config driverId driverServer

/-- A run of a task on one host: the task, and what its commands get for an
answer. -/
abbrev TaskRun : Type := Task × (Command → Reply)

/-- What a run of a task does: how it ends, and the session it leaves. -/
def TaskRun.exec (config : Config) (t : TaskRun) (d : Dir) :
    Except Failure Unit × Session Command Dir :=
  (taskOf config t.fst).exec t.snd d

/-- The directory after a run of a task. -/
def step (config : Config) (d : Dir) (t : TaskRun) : Dir :=
  (t.exec config d).snd.world

/-- **The job a submission is recorded for**: what its output reports, when
the command succeeds, the status is `RUNNING` and the line with the worker is
there. -/
def submitted (reply : Reply) : Option Job :=
  if reply.ok then
    match driverRe reply.out with
    | some (driverId, status) =>
      if status = "RUNNING".toList then
        (driverServerRe reply.out).map (Job.mk driverId)
      else none
    | none => none
  else none

/-- The two lines `start` prints for every report. -/
def reportLines (driverId status : Text) : List Text :=
  ["  DriverID: ".toList ++ driverId, "  Status: ".toList ++ status]

/-- **The exits of `start`**, with the directory, the commands and the lines
at each of them. -/
theorem start_exec (config : Config) (env : Command → Reply) (d : Dir) :
    (start config).exec env d
      = if (env config.submit).ok then
          match driverRe (env config.submit).out with
          | none => (.error (.raised .attributeError), ⟨d, [config.submit], []⟩)
          | some (driverId, status) =>
            if status = "ERROR".toList then
              (.ok (), ⟨d, [config.submit],
                reportLines driverId status ++ [errorMsg]⟩)
            else if status = "RUNNING".toList then
              match driverServerRe (env config.submit).out with
              | none => (.error (.raised .attributeError),
                  ⟨d, [config.submit], reportLines driverId status⟩)
              | some driverServer =>
                (.ok (), ⟨d.recorded ⟨driverId, driverServer⟩, [config.submit],
                  reportLines driverId status
                    ++ ["  DriverServer: ".toList ++ driverServer]⟩)
            else
              (.ok (), ⟨d, [config.submit],
                reportLines driverId status ++ [status]⟩)
        else (.error .abort, ⟨d, [config.submit], []⟩) := by
  unfold start exec
  cases hok : (env config.submit).ok with
  | false =>
    rw [bind_of_error (command_of_not_ok hok)]
    rfl
  | true =>
    rw [bind_of_ok (command_of_ok hok rfl), if_pos rfl]
    cases driverRe (env config.submit).out with
    | none => simp only [fail_apply, List.nil_append]
    | some m =>
      obtain ⟨driverId, status⟩ := m
      simp only [bind_apply, print_apply, List.nil_append]
      by_cases he : status = "ERROR".toList
      · rw [if_pos he, if_pos he]
        rfl
      · rw [if_neg he, if_neg he]
        by_cases hr : status = "RUNNING".toList
        · rw [if_pos hr, if_pos hr]
          cases driverServerRe (env config.submit).out with
          | none => rfl
          | some driverServer => rfl
        · rw [if_neg hr, if_neg hr]
          rfl

/-- **`start` writes the record for the job of its submission, or not at
all.** -/
theorem start_world (config : Config) (env : Command → Reply) (d : Dir) :
    ((start config).exec env d).snd.world
      = match submitted (env config.submit) with
        | some job => d.recorded job
        | none => d := by
  rw [start_exec]
  unfold submitted
  cases (env config.submit).ok with
  | false => rfl
  | true =>
    rw [if_pos rfl, if_pos rfl]
    cases driverRe (env config.submit).out with
    | none => rfl
    | some m =>
      obtain ⟨driverId, status⟩ := m
      dsimp only
      by_cases he : status = "ERROR".toList
      · subst he
        rfl
      · rw [if_neg he]
        by_cases hr : status = "RUNNING".toList
        · rw [if_pos hr, if_pos hr]
          cases driverServerRe (env config.submit).out with
          | none => rfl
          | some driverServer => rfl
        · rw [if_neg hr, if_neg hr]

/-! ## Reading the report

Wherever in its log the client prints the two lines of the report, and
whatever it prints around them, `start` takes out of the log what the client
put in. -/

/-- What `start` prints begins with the driver and the status it has read. -/
theorem reportLines_prefix_printed (config : Config) {env : Command → Reply}
    (d : Dir) {driverId status : Text} (hok : (env config.submit).ok = true)
    (hre : driverRe (env config.submit).out = some (driverId, status)) :
    reportLines driverId status <+: ((start config).exec env d).snd.printed := by
  rw [start_exec, if_pos hok, hre]
  dsimp only
  split
  · exact List.prefix_append _ _
  · split
    · split
      · exact List.prefix_rfl
      · exact List.prefix_append _ _
    · exact List.prefix_append _ _

/-- **`start` undoes the report of the client.** Behind any text in which no
state of a driver is reported it recovers exactly the driver and the status;
and if the driver runs, behind any text in which no running driver is
reported, exactly the host of the worker, which is then recorded with the
driver. -/
theorem start_recovers_report (config : Config) (env : Command → Reply) (d : Dir)
    (D₁ D₂ status pre post : Text) (hD₁ : ∀ c ∈ D₁, isDigit c = true)
    (hD₂ : ∀ c ∈ D₂, isDigit c = true)
    (hs : ∀ c ∈ status, isSpace c = false) (hpost : EndOfLine post)
    (hpre : ¬ "State of driver-".toList <:+: pre)
    (hout : (env config.submit).out
      = pre ++ (stateLine (driverName D₁ D₂) status ++ post)) :
    driverRe (env config.submit).out = some (driverName D₁ D₂, status)
      ∧ ((env config.submit).ok = true →
        reportLines (driverName D₁ D₂) status
          <+: ((start config).exec env d).snd.printed)
      ∧ ∀ host port worker pre' post' : Text,
        status = "RUNNING".toList → (∀ c ∈ host, isSpace c = false) →
        (∀ c ∈ port, isDigit c = true) →
        ¬ "Driver running on ".toList <:+: pre' →
        (env config.submit).out
          = pre' ++ (runningLine host port worker ++ post') →
        driverServerRe (env config.submit).out = some host
          ∧ ((env config.submit).ok = true →
            ((start config).exec env d).snd.world
              = d.recorded ⟨driverName D₁ D₂, host⟩) := by
  have hre : driverRe (env config.submit).out
      = some (driverName D₁ D₂, status) := by
    rw [hout]
    exact driverRe_report hD₁ hD₂ hs hpost hpre
  refine ⟨hre, fun hok => reportLines_prefix_printed config d hok hre, ?_⟩
  intro host port worker pre' post' hrunning hh hp hpre' hout'
  have hserver : driverServerRe (env config.submit).out = some host := by
    rw [hout']
    exact driverServerRe_report hh hp hpre'
  refine ⟨hserver, fun hok => ?_⟩
  subst hrunning
  rw [start_exec, if_pos hok, hre, hserver]
  rfl

/-- The log of a submission, as it comes over the connection. -/
def sampleLog : Text :=
  "[node20] out: Submitting\r\n[node20] out: ".toList
    ++ (stateLine (driverName "20140731140016".toList "0000".toList)
        "RUNNING".toList
      ++ ("\r\n[node20] out: ".toList
        ++ (runningLine "fe80::20".toList "7078".toList "worker-20".toList
          ++ "\r\n".toList)))

/-- The configuration of the sample application. -/
def sampleConfig : Config where
  all := ["server0".toList]
  jar := "ExampleApp.jar".toList
  localJarDir := "target/scala-2.10/".toList
  remoteJarDir := "/tmp/".toList
  mainClass := "com.adobe.ExampleApp".toList
  remoteSparkDir := "/usr/lib/spark".toList
  sparkMaster := "spark://server_hostname:7077".toList
  sparkWork := "/raid/spark-work".toList

/-- The sample log is read as it was printed. -/
theorem start_recovers_sampleLog :
    driverRe sampleLog
        = some (driverName "20140731140016".toList "0000".toList,
          "RUNNING".toList)
      ∧ driverServerRe sampleLog = some "fe80::20".toList := by
  have hassoc : ∀ t₁ t₂ t₃ t₄ : Text,
      t₁ ++ (t₂ ++ (t₃ ++ t₄)) = t₁ ++ (t₂ ++ t₃) ++ t₄ := by
    intro t₁ t₂ t₃ t₄
    rw [List.append_assoc, List.append_assoc]
  have hspace : ∀ t : Text, t.any isSpace = false →
      ∀ c ∈ t, isSpace c = false := by
    intro t ht c hc
    exact Bool.not_eq_true _ ▸ List.any_eq_false.mp ht c hc
  have h := start_recovers_report sampleConfig (fun _ => ⟨true, sampleLog⟩)
    Dir.fresh "20140731140016".toList "0000".toList "RUNNING".toList
    "[node20] out: Submitting\r\n[node20] out: ".toList
    ("\r\n[node20] out: ".toList
      ++ (runningLine "fe80::20".toList "7078".toList "worker-20".toList
        ++ "\r\n".toList))
    (List.all_eq_true.mp (by decide)) (List.all_eq_true.mp (by decide))
    (hspace _ (by decide)) (fun c hc => Or.inr (Option.some.inj hc).symm)
    (by decide +kernel) rfl
  exact ⟨h.1, (h.2.2 "fe80::20".toList "7078".toList "worker-20".toList
    ("[node20] out: Submitting\r\n[node20] out: ".toList
      ++ (stateLine (driverName "20140731140016".toList "0000".toList)
          "RUNNING".toList
        ++ "\r\n[node20] out: ".toList)) "\r\n".toList
    rfl (hspace _ (by decide)) (List.all_eq_true.mp (by decide))
    (by decide +kernel) (hassoc _ _ _ _)).1⟩

/-! ## The tasks that read the record -/

/-- Opening the record leaves the session as it is. -/
theorem loadLastJob_apply (env : Command → Reply) (s : Session Command Dir) :
    loadLastJob env s
      = match s.world.lastJobStarted with
        | .absent => (.ok none, s)
        | .unreadable => (.error (.raised .unpicklingError), s)
        | .dict driverId driverServer => (.ok (some (driverId, driverServer)), s) := by
  unfold loadLastJob
  rw [getWorld_bind]
  cases s.world.lastJobStarted <;> rfl

/-- Reading an entry leaves the session as it is. -/
theorem item_apply (key : Text) (v : Option Text) (env : Command → Reply)
    (s : Session Command Dir) :
    item key v env s
      = match v with
        | some t => (.ok t, s)
        | none => (.error (.raised (.keyError key)), s) := by
  cases v <;> rfl

/-- The driver a call of `kill` acts on, with this record. -/
def killDriver (m : Pickle) (driverId : Option Text) : Option Text :=
  if isFalsy driverId then
    match m with
    | .dict driverId _ => driverId
    | _ => none
  else driverId

/-- **With a driver `kill` issues one command, for that driver**, and changes
nothing in the directory. -/
theorem kill_exec_of_some (config : Config) (env : Command → Reply) {d : Dir}
    {driverId : Option Text} {t : Text}
    (h : killDriver d.lastJobStarted driverId = some t) :
    ((kill config driverId).exec env d).snd
      = ⟨d, [.sparkKill config.remoteSparkDir config.sparkMaster t], []⟩ := by
  have hissue : ∀ c : Command,
      (issue c some env (⟨d, [], []⟩ : Session Command Dir)).snd
        = ⟨d, [c], []⟩ := by
    intro c
    refine (congrArg Prod.snd (issue_apply c id env ⟨d, [], []⟩)).trans ?_
    split <;> rfl
  unfold killDriver at h
  unfold kill exec
  rw [bind_apply]
  cases hf : isFalsy driverId with
  | false =>
    rw [hf, if_neg Bool.false_ne_true] at h
    subst h
    exact hissue _
  | true =>
    rw [hf, if_pos rfl] at h
    rw [if_pos rfl, bind_apply, loadLastJob_apply]
    cases hm : d.lastJobStarted with
    | absent => rw [hm] at h; exact absurd h (by simp)
    | unreadable => rw [hm] at h; exact absurd h (by simp)
    | dict a b =>
      rw [hm] at h
      dsimp only at h ⊢
      rw [h, item_apply]
      exact hissue _

/-- **Without a driver `kill` fails and issues no command.** -/
theorem kill_exec_of_none (config : Config) (env : Command → Reply) {d : Dir}
    {driverId : Option Text} (h : killDriver d.lastJobStarted driverId = none) :
    ∃ e printed,
      (kill config driverId).exec env d = (.error e, ⟨d, [], printed⟩) := by
  unfold killDriver at h
  unfold kill exec
  rw [bind_apply]
  cases hf : isFalsy driverId with
  | false =>
    rw [hf, if_neg Bool.false_ne_true] at h
    subst h
    exact absurd hf (by simp [isFalsy])
  | true =>
    rw [hf, if_pos rfl] at h
    rw [if_pos rfl, bind_apply, loadLastJob_apply]
    cases hm : d.lastJobStarted with
    | absent => exact ⟨_, _, rfl⟩
    | unreadable => exact ⟨_, _, rfl⟩
    | dict a b =>
      rw [hm] at h
      dsimp only at h ⊢
      rw [h, item_apply]
      exact ⟨_, _, rfl⟩

/-- The job a call of `getOutput` fetches from, with this record. -/
def getOutputJob (m : Pickle) (driverId driverServer : Option Text) :
    Option Job :=
  if isFalsy driverId then
    match m with
    | .dict (some driverId) (some driverServer) => some ⟨driverId, driverServer⟩
    | _ => none
  else driverServer.map (Job.mk (driverId.getD []))

/-- The copy of an output of a job. -/
def Config.scp (config : Config) (job : Job) (output : Output) : Command :=
  .scp job.driverServer config.sparkWork job.driverId output

/-- The two copies, in their order, for the job they are from. -/
def fetch (config : Config) (job : Job) : Fab Command Dir Unit := do
  issue (config.scp job .stdout) (fun d => some (d.copied job .stdout))
  issue (config.scp job .stderr) (fun d => some (d.copied job .stderr))

/-- `getOutput` is the two copies for its job, or fails before them. -/
theorem getOutput_apply (config : Config) (env : Command → Reply) (d : Dir)
    (driverId driverServer : Option Text) :
    match getOutputJob d.lastJobStarted driverId driverServer with
    | some job => (getOutput config driverId driverServer).exec env d
        = (fetch config job).exec env d
    | none => ∃ e printed, (getOutput config driverId driverServer).exec env d
        = (.error e, ⟨d, [], printed⟩) := by
  unfold getOutputJob getOutput exec
  rw [bind_apply]
  cases hf : isFalsy driverId with
  | false =>
    rw [if_neg Bool.false_ne_true, if_neg Bool.false_ne_true]
    cases driverServer with
    | none => exact ⟨_, _, rfl⟩
    | some driverServer => rfl
  | true =>
    rw [if_pos rfl, if_pos rfl, bind_apply, loadLastJob_apply]
    cases hm : d.lastJobStarted with
    | absent => exact ⟨_, _, rfl⟩
    | unreadable => exact ⟨_, _, rfl⟩
    | dict a b =>
      cases a with
      | none => exact ⟨_, _, rfl⟩
      | some a =>
        cases b with
        | none => exact ⟨_, _, rfl⟩
        | some b => rfl

/-- **The copies, up to the first that fails**: the commands that are issued
and what they leave in the directory. -/
theorem fetch_exec (config : Config) (job : Job) (env : Command → Reply)
    (d : Dir) :
    ((fetch config job).exec env d).snd
      = if (env (config.scp job .stdout)).ok then
          if (env (config.scp job .stderr)).ok then
            ⟨(d.copied job .stdout).copied job .stderr,
              [config.scp job .stdout, config.scp job .stderr], []⟩
          else ⟨d.copied job .stdout,
            [config.scp job .stdout, config.scp job .stderr], []⟩
        else ⟨d, [config.scp job .stdout], []⟩ := by
  unfold fetch exec
  rw [bind_apply, issue_apply]
  cases (env (config.scp job .stdout)).ok with
  | false => rfl
  | true =>
    rw [if_pos rfl, if_pos rfl]
    dsimp only
    rw [issue_apply]
    cases (env (config.scp job .stderr)).ok with
    | false => rfl
    | true => rfl

end Application
