import ClusterDeployment.Deployment
import ClusterDeployment.LogRotation
import ClusterDeployment.Puppet

/-!
# Putting a Spark manifest into effect

The manifests `spark-master.pp` and `spark-worker.pp` are rendered into three
files each: an Upstart job, a runner script with the command line of the
daemon, and `spark-env.sh` with its memory, which both roles share. Of these
only the Upstart job notifies the service, and it is the one that no parameter
goes into. A start task therefore rewrites the other two under a running daemon
and leaves the daemon as it is.

Against this stands what an operator expects, and what a daemon has really
been launched with can be told from the operator's side alone: it is the
manifest as it was when the service was last started from rest (`Launches`,
and `refines_run` for every run). A start task puts the manifest into effect
exactly if there was no such launch, or if what has been edited since makes no
difference to what is rendered (`inEffect_iff`).
-/

namespace Spark

open Deployment Fab Puppet Run

/-! ## What the manifests say -/

/-- `$spark::defaults::install_dir` -/
def installDir : Text := "/usr/lib/spark".toList

/-- The parameters of `spark::master`. -/
structure MasterParams where
  workerMem : Text
  masterPort : ℕ := 7077
  webPort : ℕ := 8080

/-- The parameters of `spark::worker`. -/
structure WorkerParams where
  master : Text
  masterPort : ℕ := 7077
  webPort : ℕ := 8080
  cores : Option ℕ := none
  memory : Option Text := none
  scratchDir : Text := installDir ++ "/work".toList

/-- The two manifests, as they are edited. -/
structure Manifests where
  master : MasterParams
  worker : WorkerParams

/-- The decimal of a number. -/
def decimal (n : ℕ) : Text := n.repr.toList

/-- The command line in `spark-master-runner.sh`, on a host with this name. -/
def masterCommand (fqdn : Text) (p : MasterParams) : Text :=
  installDir ++ "/bin/spark-class org.apache.spark.deploy.master.Master --ip ".toList
    ++ fqdn ++ " --webui-port ".toList ++ decimal p.webPort
    ++ " --port ".toList ++ decimal p.masterPort
    ++ " >> /var/log/spark/master.log 2>&1 < /dev/null".toList

/-- The command line in `spark-worker-runner.sh`. The port of the web
interface is not part of it. -/
def workerCommand (p : WorkerParams) : Text :=
  installDir
    ++ "/bin/spark-class org.apache.spark.deploy.worker.Worker spark://".toList
    ++ p.master ++ ":".toList ++ decimal p.masterPort
    ++ " --work-dir ".toList ++ p.scratchDir
    ++ (p.cores.map fun cores => " --cores ".toList ++ decimal cores).getD []
    ++ (p.memory.map fun memory => " --memory ".toList ++ memory).getD []
    ++ " >> /var/log/spark/worker.log 2>&1 < /dev/null".toList

/-- The line of `spark-env.sh` that depends on a parameter; the others are the
same in every rendering. -/
def sparkEnv (workerMem : Option Text) : Text :=
  "export SPARK_MEM=".toList ++ workerMem.getD []

/-- `${install_dir}/conf/spark-env.sh` -/
def envPath : Text := installDir ++ "/conf/spark-env.sh".toList

/-- The name of a daemon's service. -/
def Daemon.service : Daemon → Text
  | master => "spark-master".toList
  | worker => "spark-worker".toList

/-- The path of a daemon's runner script. -/
def Daemon.runnerPath (daemon : Daemon) : Text :=
  installDir ++ "/bin/".toList ++ daemon.service ++ "-runner.sh".toList

/-- The path of a daemon's Upstart job. -/
def Daemon.confPath (daemon : Daemon) : Text :=
  "/etc/init/".toList ++ daemon.service ++ ".conf".toList

/-- The line of the Upstart job that runs the script; no parameter that can be
edited goes into the file. -/
def upstartConf (daemon : Daemon) : Text := "exec ".toList ++ daemon.runnerPath

/-- The paths of a daemon's files are different. -/
theorem nodup_paths (daemon : Daemon) :
    [envPath, daemon.confPath, daemon.runnerPath].Nodup := by
  cases daemon with
  | master => decide
  | worker => decide

/-- The classes `spark::master` and `spark::worker` – with `spark`, which they
declare – are the same but for the names and what is rendered. -/
def sparkDaemon (daemon : Daemon) (commandLine : Text)
    (workerMem : Option Text) : Catalog Text Text Daemon where
  files :=
    [⟨envPath, sparkEnv workerMem, none⟩,
      ⟨daemon.confPath, upstartConf daemon, some daemon⟩,
      ⟨daemon.runnerPath, commandLine, none⟩]
  nodup := nodup_paths daemon
  service := daemon

/-- `spark::master` -/
def sparkMaster (fqdn : Text) (p : MasterParams) : Catalog Text Text Daemon :=
  sparkDaemon .master (masterCommand fqdn p) (some p.workerMem)

/-- `spark::worker` -/
def sparkWorker (p : WorkerParams) : Catalog Text Text Daemon :=
  sparkDaemon .worker (workerCommand p) p.memory

/-- What a manifest is rendered into for its daemon: the command line and
`spark-env.sh`. -/
def rendered (fqdn : Text) (m : Manifests) : Daemon → Text × Text
  | .master => (masterCommand fqdn m.master, sparkEnv (some m.master.workerMem))
  | .worker => (workerCommand m.worker, sparkEnv m.worker.memory)

/-- The catalog of a daemon's manifest. -/
def catalogOf (fqdn : Text) (m : Manifests) : Daemon → Catalog Text Text Daemon
  | .master => sparkMaster fqdn m.master
  | .worker => sparkWorker m.worker

/-! ## The tasks -/

/-- What a daemon reads when it is launched: its runner script and
`spark-env.sh`. -/
def reads (daemon : Daemon) (files : Text → Option Text) :
    Option Text × Option Text :=
  (files daemon.runnerPath, files envPath)

/-- A host: the manifests that have been mirrored to it, its files and its
daemons. -/
structure Server where
  deployed : Option Manifests
  node : Node Text Text Daemon (Option Text × Option Text)

/-- A host with nothing installed. -/
def Server.fresh : Server := ⟨none, ⟨fun _ => none, fun _ => none⟩⟩

/-- The server once Puppet has applied the manifest of a daemon, as it has
been mirrored. -/
def Server.applied (fqdn : Text) (daemon : Daemon) (server : Server) :
    Option Server :=
  server.deployed.map fun m =>
    { server with node := (catalogOf fqdn m daemon).apply reads server.node }

/-- `initctl stop` fails where the daemon does not run. -/
def Server.stopped (daemon : Daemon) (server : Server) : Option Server :=
  if server.node.daemons daemon = none then none
  else some { server with node := server.node.stop daemon }

/-- The manifest of a daemon. -/
def Daemon.manifest : Daemon → Text
  | master => "spark-master.pp".toList
  | worker => "spark-worker.pp".toList

/-- `rsync()`, and `puppetApply` of a daemon's manifest -/
def startWith (fqdn : Text) (m : Manifests) (daemon : Daemon) :
    Fab Command Server Unit := do
  rsync (fun server => some { server with deployed := some m })
  puppetApply daemon.manifest (Server.applied fqdn daemon)

/-- `/sbin/initctl stop X` -/
def stopCommand (daemon : Daemon) : Command :=
  .sudo ("/sbin/initctl stop ".toList ++ daemon.service)

/-- `sudo("/sbin/initctl stop X")`, with a failure only reported -/
def stopWith (daemon : Daemon) : Fab Command Server Unit :=
  warnOnly (stopCommand daemon) (Server.stopped daemon)

/-- The task `startSparkMaster`. -/
def startSparkMaster (fqdn : Text) (m : Manifests) : Fab Command Server Unit :=
  startWith fqdn m .master

/-- The task `startSparkWorkers`. -/
def startSparkWorkers (fqdn : Text) (m : Manifests) : Fab Command Server Unit :=
  startWith fqdn m .worker

/-- The task `stopSparkMaster`. -/
def stopSparkMaster : Fab Command Server Unit := stopWith .master

/-- The task `stopSparkWorkers`. -/
def stopSparkWorkers : Fab Command Server Unit := stopWith .worker

/-- The start task of a daemon. -/
def startSpark (fqdn : Text) (m : Manifests) : Daemon → Fab Command Server Unit
  | .master => startSparkMaster fqdn m
  | .worker => startSparkWorkers fqdn m

/-- The stop task of a daemon. -/
def stopSpark : Daemon → Fab Command Server Unit
  | .master => stopSparkMaster
  | .worker => stopSparkWorkers

/-- What an operator does: edit a manifest, or call a task, whose commands on
the host then get some answers. -/
inductive Step where
  | editMaster (p : MasterParams)
  | editWorker (p : WorkerParams)
  | start (daemon : Daemon) (env : Command → Reply)
  | stop (daemon : Daemon) (env : Command → Reply)

/-- The manifests as they are edited, and one host. -/
structure State where
  manifests : Manifests
  server : Server

/-- The manifests after a step. -/
def Manifests.edit (m : Manifests) : Step → Manifests
  | .editMaster p => { m with master := p }
  | .editWorker p => { m with worker := p }
  | _ => m

/-- **One step**, for a host with these roles: a task is run on it only if it
has the task's role. A run of Puppet is taken as a whole: it renders and starts
everything, no resource being cut off, or the command fails and has changed
nothing. -/
def step (fqdn : Text) (roles : Daemon → Bool) (st : State) : Step → State
  | .editMaster p => { st with manifests := st.manifests.edit (.editMaster p) }
  | .editWorker p => { st with manifests := st.manifests.edit (.editWorker p) }
  | .start daemon env =>
    if roles daemon then
      { st with server :=
          ((startSpark fqdn st.manifests daemon).exec env st.server).snd.world }
    else st
  | .stop daemon env =>
    if roles daemon then
      { st with server := ((stopSpark daemon).exec env st.server).snd.world }
    else st

/-! ## What a task does to its host -/

/-- Whether the environment lets a start task get through. -/
def getsThrough (env : Command → Reply) (daemon : Daemon) : Bool :=
  (env rsyncCommand).ok && (env (puppetCommand daemon.manifest)).ok

/-- **The start task**: it gets through exactly if both of its commands do, and
then the catalog as it is edited has been applied; else the files and the
daemons are as they were. -/
theorem startSpark_exec (fqdn : Text) (m : Manifests) (daemon : Daemon)
    (env : Command → Reply) (server : Server) :
    (((startSpark fqdn m daemon).exec env server).fst = .ok ()
        ↔ getsThrough env daemon = true)
      ∧ ((startSpark fqdn m daemon).exec env server).snd.world.node
        = if getsThrough env daemon then
            (catalogOf fqdn m daemon).apply reads server.node
          else server.node := by
  have hstart : startSpark fqdn m daemon = startWith fqdn m daemon := by
    cases daemon <;> rfl
  rw [hstart]
  unfold startWith rsync puppetApply getsThrough exec
  rw [bind_apply, issue_apply]
  cases hr : (env rsyncCommand).ok with
  | false => exact ⟨by simp, rfl⟩
  | true =>
    rw [if_pos rfl]
    dsimp only
    cases hp : (env (puppetCommand daemon.manifest)).ok with
    | false =>
      rw [issue_of_not_ok hp]
      exact ⟨by simp, rfl⟩
    | true =>
      have hw : Server.applied fqdn daemon { server with deployed := some m }
          = some ⟨some m, (catalogOf fqdn m daemon).apply reads server.node⟩ := rfl
      rw [issue_of_ok hp hw]
      exact ⟨by simp, rfl⟩

/-- **The stop task**: it stops its daemon, if the command runs. -/
theorem stopSpark_exec (daemon : Daemon) (env : Command → Reply)
    (server : Server) :
    ((stopSpark daemon).exec env server).snd.world.node
      = if (env (stopCommand daemon)).ok then server.node.stop daemon
        else server.node := by
  have hstop : stopSpark daemon = stopWith daemon := by
    cases daemon <;> rfl
  rw [hstop]
  unfold stopWith exec
  rw [warnOnly_apply]
  cases hok : (env (stopCommand daemon)).ok with
  | false => rw [command_of_not_ok hok]; rfl
  | true =>
    by_cases hd : server.node.daemons daemon = none
    · -- there is nothing to stop
      have hw : Server.stopped daemon server = none := if_pos hd
      rw [command_of_none hw, if_pos rfl]
      unfold Node.stop
      rw [← hd, Function.update_eq_self]
    · have hw : Server.stopped daemon server
          = some { server with node := server.node.stop daemon } := if_neg hd
      rw [command_of_ok hok hw]
      rfl

/-! ## The operator's side -/

/-- **What the operator knows**: the manifests as they are edited, and for each
daemon that runs on the host the manifests it was launched with. -/
structure Launches where
  manifests : Manifests
  launched : Daemon → Option Manifests

/-- Nothing has been launched. -/
def Launches.fresh (m : Manifests) : Launches := ⟨m, fun _ => none⟩

/-- A start task launches a daemon that does not run, and a stop task ends
it. -/
def Launches.step (roles : Daemon → Bool) (o : Launches) : Step → Launches
  | .start daemon env =>
    if roles daemon && getsThrough env daemon then
      ⟨o.manifests, Function.update o.launched daemon
        (some ((o.launched daemon).getD o.manifests))⟩
    else o
  | .stop daemon env =>
    if roles daemon && (env (stopCommand daemon)).ok then
      ⟨o.manifests, Function.update o.launched daemon none⟩
    else o
  | .editMaster p => { o with manifests := o.manifests.edit (.editMaster p) }
  | .editWorker p => { o with manifests := o.manifests.edit (.editWorker p) }

/-- What a daemon has read that was launched with a manifest. -/
def snapshot (fqdn : Text) (daemon : Daemon) (m : Manifests) :
    Option Text × Option Text :=
  (some (rendered fqdn m daemon).fst, some (rendered fqdn m daemon).snd)

/-- What a daemon has read tells renderings apart. -/
theorem snapshot_eq_iff (fqdn : Text) (daemon : Daemon) (m m' : Manifests) :
    snapshot fqdn daemon m = snapshot fqdn daemon m'
      ↔ rendered fqdn m daemon = rendered fqdn m' daemon := by
  unfold snapshot
  rw [Prod.mk.injEq, Option.some.injEq, Option.some.injEq, ← Prod.ext_iff]

/-- **The host is as the operator knows it**: each daemon has read what its
manifest was rendered into at the launch, and the one file that would notify it
is in place. -/
structure Refines (fqdn : Text) (st : State) (o : Launches) : Prop where
  manifests : st.manifests = o.manifests
  daemons : ∀ daemon, st.server.node.daemons daemon
    = (o.launched daemon).map (snapshot fqdn daemon)
  confs : ∀ daemon, o.launched daemon ≠ none →
    st.server.node.files daemon.confPath = some (upstartConf daemon)

variable {fqdn : Text} {roles : Daemon → Bool} {m : Manifests}

theorem refines_fresh : Refines fqdn ⟨m, Server.fresh⟩ (Launches.fresh m) where
  manifests := rfl
  daemons _ := rfl
  confs _ h := absurd rfl h

/-- The files of a catalog are what its manifest is rendered into. -/
theorem catalogOf_files (fqdn : Text) (m : Manifests) (daemon : Daemon) :
    (catalogOf fqdn m daemon).files
      = [⟨envPath, (rendered fqdn m daemon).snd, none⟩,
        ⟨daemon.confPath, upstartConf daemon, some daemon⟩,
        ⟨daemon.runnerPath, (rendered fqdn m daemon).fst, none⟩] := by
  cases daemon <;> rfl

@[simp] theorem catalogOf_service (fqdn : Text) (m : Manifests)
    (daemon : Daemon) : (catalogOf fqdn m daemon).service = daemon := by
  cases daemon <;> rfl

/-- **After a catalog** its files are what its manifest is rendered into. -/
theorem apply_files (fqdn : Text) (m : Manifests) (daemon : Daemon)
    (node : Node Text Text Daemon (Option Text × Option Text)) :
    reads daemon ((catalogOf fqdn m daemon).apply reads node).files
        = snapshot fqdn daemon m
      ∧ ((catalogOf fqdn m daemon).apply reads node).files daemon.confPath
        = some (upstartConf daemon) := by
  have hmem : ∀ r ∈ (catalogOf fqdn m daemon).files,
      ((catalogOf fqdn m daemon).apply reads node).files r.path
        = some r.content := fun r hr => apply_files_of_mem hr
  rw [catalogOf_files] at hmem
  refine ⟨Prod.ext ?_ ?_, hmem _ (List.mem_cons_of_mem _ List.mem_cons_self)⟩
  · exact hmem _ (List.mem_cons_of_mem _ (List.mem_cons_of_mem _ List.mem_cons_self))
  · exact hmem _ List.mem_cons_self

/-- The Upstart job of the other daemon is not among the files of a
catalog. -/
theorem confPath_not_mem (fqdn : Text) (m : Manifests) {daemon daemon' : Daemon}
    (h : daemon' ≠ daemon) :
    daemon'.confPath
      ∉ (catalogOf fqdn m daemon).files.map FileResource.path := by
  rw [catalogOf_files]
  show daemon'.confPath ∉ [envPath, daemon.confPath, daemon.runnerPath]
  revert h
  cases daemon <;> cases daemon' <;> decide

/-- **A catalog launches its daemon from rest, and leaves it alone if it
runs**: the one file that notifies it does not change. -/
theorem Refines.apply_daemons {st : State} {o : Launches}
    (h : Refines fqdn st o) (m : Manifests) (daemon : Daemon) :
    ((catalogOf fqdn m daemon).apply reads st.server.node).daemons daemon
      = some (snapshot fqdn daemon ((o.launched daemon).getD m)) := by
  have hdaemon := h.daemons daemon
  cases ho : o.launched daemon with
  | none =>
    rw [ho, Option.map_none] at hdaemon
    rw [apply_daemons_of_stopped (catalogOf_service fqdn m daemon) hdaemon,
      (apply_files fqdn m daemon st.server.node).1]
    rfl
  | some m' =>
    rw [ho, Option.map_some] at hdaemon
    have hconf := h.confs daemon (by rw [ho]; exact Option.some_ne_none m')
    refine apply_daemons_of_running (catalogOf_service fqdn m daemon) hdaemon
      fun r hr hn => ?_
    rw [catalogOf_files] at hr
    simp only [List.mem_cons, List.not_mem_nil, or_false] at hr
    obtain rfl | rfl | rfl := hr
    · exact absurd hn.symm (Option.some_ne_none daemon)
    · exact hconf
    · exact absurd hn.symm (Option.some_ne_none daemon)

/-- A step that is a start task. -/
theorem step_start (fqdn : Text) (roles : Daemon → Bool) (st : State)
    (daemon : Daemon) (env : Command → Reply) :
    (step fqdn roles st (.start daemon env)).manifests = st.manifests
      ∧ (step fqdn roles st (.start daemon env)).server.node
        = if roles daemon && getsThrough env daemon then
            (catalogOf fqdn st.manifests daemon).apply reads st.server.node
          else st.server.node := by
  show (if roles daemon then _ else st : State).manifests = _
    ∧ (if roles daemon then _ else st : State).server.node = _
  cases roles daemon with
  | false => exact ⟨rfl, rfl⟩
  | true =>
    refine ⟨rfl, ?_⟩
    exact (startSpark_exec fqdn st.manifests daemon env st.server).2

/-- A step that is a stop task. -/
theorem step_stop (fqdn : Text) (roles : Daemon → Bool) (st : State)
    (daemon : Daemon) (env : Command → Reply) :
    (step fqdn roles st (.stop daemon env)).manifests = st.manifests
      ∧ (step fqdn roles st (.stop daemon env)).server.node
        = if roles daemon && (env (stopCommand daemon)).ok then
            st.server.node.stop daemon
          else st.server.node := by
  show (if roles daemon then _ else st : State).manifests = _
    ∧ (if roles daemon then _ else st : State).server.node = _
  cases roles daemon with
  | false => exact ⟨rfl, rfl⟩
  | true => exact ⟨rfl, stopSpark_exec daemon env st.server⟩

/-- What neither edits a manifest nor gets at the files and the daemons. -/
theorem Refines.of_node {st st' : State} {o : Launches} (h : Refines fqdn st o)
    (hm : st'.manifests = st.manifests)
    (hnode : st'.server.node = st.server.node) : Refines fqdn st' o where
  manifests := hm.trans h.manifests
  daemons := by
    rw [hnode]
    exact h.daemons
  confs := by
    rw [hnode]
    exact h.confs

/-- A start task keeps the host as the operator knows it. -/
theorem Refines.start {st : State} {o : Launches} (h : Refines fqdn st o)
    (daemon : Daemon) (env : Command → Reply) :
    Refines fqdn (step fqdn roles st (.start daemon env))
      (o.step roles (.start daemon env)) := by
  obtain ⟨hm, hnode⟩ := step_start fqdn roles st daemon env
  by_cases hgo : (roles daemon && getsThrough env daemon) = true
  · have ho : o.step roles (.start daemon env)
        = ⟨o.manifests, Function.update o.launched daemon
          (some ((o.launched daemon).getD o.manifests))⟩ := if_pos hgo
    rw [if_pos hgo, h.manifests] at hnode
    rw [ho]
    refine ⟨hm.trans h.manifests, fun d => ?_, fun d hd => ?_⟩
    · rw [hnode]
      show _ = (Function.update o.launched daemon
        (some ((o.launched daemon).getD o.manifests)) d).map _
      by_cases hne : d = daemon
      · subst hne
        rw [h.apply_daemons, Function.update_self, Option.map_some]
      · rw [Function.update_of_ne hne, apply_daemons_of_ne, h.daemons d]
        rwa [catalogOf_service]
    · rw [hnode]
      by_cases hne : d = daemon
      · subst hne
        exact (apply_files fqdn o.manifests d st.server.node).2
      · replace hd : Function.update o.launched daemon _ d ≠ none := hd
        rw [Function.update_of_ne hne] at hd
        rw [apply_files_of_not_mem (confPath_not_mem fqdn o.manifests hne)]
        exact h.confs d hd
  · have ho : o.step roles (.start daemon env) = o := if_neg hgo
    rw [if_neg hgo] at hnode
    rw [ho]
    exact h.of_node hm hnode

/-- A stop task keeps the host as the operator knows it. -/
theorem Refines.stop {st : State} {o : Launches} (h : Refines fqdn st o)
    (daemon : Daemon) (env : Command → Reply) :
    Refines fqdn (step fqdn roles st (.stop daemon env))
      (o.step roles (.stop daemon env)) := by
  obtain ⟨hm, hnode⟩ := step_stop fqdn roles st daemon env
  by_cases hgo : (roles daemon && (env (stopCommand daemon)).ok) = true
  · have ho : o.step roles (.stop daemon env)
        = ⟨o.manifests, Function.update o.launched daemon none⟩ := if_pos hgo
    rw [if_pos hgo] at hnode
    rw [ho]
    refine ⟨hm.trans h.manifests, fun d => ?_, fun d hd => ?_⟩
    · rw [hnode]
      show Function.update st.server.node.daemons daemon none d
        = (Function.update o.launched daemon none d).map _
      by_cases hne : d = daemon
      · subst hne
        rw [Function.update_self, Function.update_self, Option.map_none]
      · rw [Function.update_of_ne hne, Function.update_of_ne hne]
        exact h.daemons d
    · rw [hnode]
      replace hd : Function.update o.launched daemon none d ≠ none := hd
      by_cases hne : d = daemon
      · subst hne
        exact absurd (Function.update_self d none o.launched) hd
      · rw [Function.update_of_ne hne] at hd
        exact h.confs d hd
  · have ho : o.step roles (.stop daemon env) = o := if_neg hgo
    rw [if_neg hgo] at hnode
    rw [ho]
    exact h.of_node hm hnode

/-- **One step** keeps the host as the operator knows it. -/
theorem Refines.step {st : State} {o : Launches} (h : Refines fqdn st o)
    (x : Step) : Refines fqdn (step fqdn roles st x) (o.step roles x) := by
  cases x with
  | editMaster p =>
    exact ⟨congrArg (fun m => m.edit (.editMaster p)) h.manifests, h.daemons,
      h.confs⟩
  | editWorker p =>
    exact ⟨congrArg (fun m => m.edit (.editWorker p)) h.manifests, h.daemons,
      h.confs⟩
  | start daemon env => exact h.start daemon env
  | stop daemon env => exact h.stop daemon env

/-- **Every run** of edits and tasks, from a host with nothing installed. -/
theorem refines_run (fqdn : Text) (roles : Daemon → Bool) (m : Manifests)
    (history : List Step) :
    Refines fqdn (run (step fqdn roles) ⟨m, Server.fresh⟩ history)
      (run (Launches.step roles) (Launches.fresh m) history) := by
  induction history using List.reverseRecOn with
  | nil => exact refines_fresh
  | append_singleton history x ih =>
    rw [run_concat, run_concat]
    exact ih.step x

/-- **A manifest is in effect** for a daemon: it runs, and has been launched
with what the manifest as it is edited is rendered into. -/
def InEffect (fqdn : Text) (st : State) (daemon : Daemon) : Prop :=
  st.server.node.daemons daemon = some (snapshot fqdn daemon st.manifests)

/-- **A start task puts the manifest into effect** – after any run of edits and
tasks, on a host with the role, where the task gets through – exactly if its
daemon did not run before, or had been launched with a manifest that is
rendered into the same. -/
theorem inEffect_iff (fqdn : Text) {roles : Daemon → Bool} (m : Manifests)
    (history : List Step) {daemon : Daemon} {env : Command → Reply}
    (hrole : roles daemon = true)
    (hdone : ((startSpark fqdn
        (run (step fqdn roles) ⟨m, Server.fresh⟩ history).manifests daemon).exec env
        (run (step fqdn roles) ⟨m, Server.fresh⟩ history).server).fst = .ok ()) :
    let o := run (Launches.step roles) (Launches.fresh m) history
    InEffect fqdn (run (step fqdn roles) ⟨m, Server.fresh⟩
        (history ++ [.start daemon env])) daemon
      ↔ ∀ m', o.launched daemon = some m' →
        rendered fqdn m' daemon = rendered fqdn o.manifests daemon := by
  have h := refines_run fqdn roles m history
  have hgo := (startSpark_exec fqdn _ daemon env _).1.mp hdone
  obtain ⟨hm, hnode⟩ := step_start fqdn roles
    (run (step fqdn roles) ⟨m, Server.fresh⟩ history) daemon env
  rw [hrole, hgo, Bool.and_self, if_pos rfl, h.manifests] at hnode
  rw [run_concat]
  unfold InEffect
  rw [hnode, h.apply_daemons, hm, h.manifests, Option.some.injEq, snapshot_eq_iff]
  intro o
  show rendered fqdn ((o.launched daemon).getD o.manifests) daemon
    = rendered fqdn o.manifests daemon ↔ _
  cases o.launched daemon with
  | none => exact iff_of_true rfl fun m' hm' => absurd hm'.symm (Option.some_ne_none m')
  | some m'' =>
    exact ⟨fun heq m' hm' => by rw [← Option.some.inj hm']; exact heq,
      fun hall => hall m'' rfl⟩

/-- A worker with this memory. -/
def sampleManifests (memory : Text) : Manifests where
  master := { workerMem := "22g".toList }
  worker := { master := "namenode_server".toList, memory := some memory }

/-- A host that is a worker. -/
def workerOnly : Daemon → Bool
  | .master => false
  | .worker => true

/-- Starting the workers, with all commands succeeding. -/
def startWorkers : Step := .start .worker succeeding

/-- The first start puts the manifest into effect. -/
theorem inEffect_first :
    InEffect "node20".toList (run (step "node20".toList workerOnly)
      ⟨sampleManifests "22g".toList, Server.fresh⟩ [startWorkers]) .worker := by
  refine (inEffect_iff "node20".toList (sampleManifests "22g".toList) []
    rfl rfl).mpr fun m' hm' => ?_
  exact absurd hm' (by simp [Launches.fresh])

/-- **A start after an edit does not**: the worker runs on with the memory it
was launched with. -/
theorem not_inEffect_edited :
    ¬ InEffect "node20".toList (run (step "node20".toList workerOnly)
      ⟨sampleManifests "22g".toList, Server.fresh⟩
      [startWorkers, .editWorker (sampleManifests "44g".toList).worker,
        startWorkers]) .worker := by
  intro h
  have hrefines := refines_run "node20".toList workerOnly
    (sampleManifests "22g".toList)
    [startWorkers, .editWorker (sampleManifests "44g".toList).worker, startWorkers]
  have hlaunched := hrefines.daemons .worker
  unfold InEffect at h
  rw [h, hrefines.manifests] at hlaunched
  have hrendered := (snapshot_eq_iff _ _ _ _).mp (Option.some.inj hlaunched)
  exact absurd (congrArg Prod.snd hrendered) (by decide)

end Spark
