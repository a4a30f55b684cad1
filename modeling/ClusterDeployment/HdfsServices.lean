import ClusterDeployment.Deployment
import ClusterDeployment.Run

/-!
# Starting and stopping HDFS

The services that a start task brings up are chosen by the Puppet classes:
a wrapper class for each role includes those of its services, and the switch
`use_yarn` chooses between two sets of them. The services that a stop task
stops are written out in the fabfile. The two lists are not the same. The
master's stop task begins with the NameNode and goes on to a service of the
other set, which is not installed, so that it aborts there; the workers' one
does not go on after the DataNode.

The start tasks have a simple account: after any run of them a host runs the
services of the roles it was started in, and has no others (`run_starts`). Of
these a stop task gets at the first one (`stopHdfsMaster_world`,
`stopHdfsWorkers_world`), and so nothing is left running exactly if nothing was
started (`stopped_iff`).
-/

namespace Hdfs

open Deployment Fab Run

/-- The services of HDFS, YARN and MapReduce. -/
inductive Service where
  | namenode
  | resourcemanager
  | historyserver
  | jobtracker
  | datanode
  | nodemanager
  | tasktracker
  deriving DecidableEq

/-- The name of a service. -/
def Service.name : Service → Text
  | namenode => "hadoop-hdfs-namenode".toList
  | resourcemanager => "hadoop-yarn-resourcemanager".toList
  | historyserver => "hadoop-mapreduce-historyserver".toList
  | jobtracker => "hadoop-0.20-mapreduce-jobtracker".toList
  | datanode => "hadoop-hdfs-datanode".toList
  | nodemanager => "hadoop-yarn-nodemanager".toList
  | tasktracker => "hadoop-0.20-mapreduce-tasktracker".toList

/-! ## The classes -/

/-- The services of a class, or the message with which its compilation
fails. -/
abbrev Catalog : Type := Except Text (List Service)

/-- `$::cdh4::hadoop::use_yarn`, by default -/
def useYarn : Bool := true

/-- A class that is for YARN only. -/
def yarnOnly (message : String) (services : List Service) (useYarn : Bool) :
    Catalog :=
  if !useYarn then .error message.toList else .ok services

/-- A class that is for MRv1 only. -/
def mrv1Only (message : String) (services : List Service) (useYarn : Bool) :
    Catalog :=
  if useYarn then .error message.toList else .ok services

/-- `cdh4::hadoop::namenode::primary` -/
def namenodePrimary : Catalog := .ok [.namenode]

/-- `cdh4::hadoop::resourcemanager` -/
def resourcemanager : Bool → Catalog :=
  yarnOnly ("Cannot use Hadoop YARN ResourceManager if "
    ++ "cdh4::hadoop::use_yarn is false.") [.resourcemanager]

/-- `cdh4::hadoop::historyserver`, which has the message of the
NodeManager -/
def historyserver : Bool → Catalog :=
  yarnOnly ("Cannot use Hadoop YARN NodeManager if "
    ++ "cdh4::hadoop::use_yarn is false.") [.historyserver]

/-- `cdh4::hadoop::jobtracker` -/
def jobtracker : Bool → Catalog :=
  mrv1Only ("Cannot use Hadoop MRv1 JobTrackker if "
    ++ "cdh4::hadoop::use_yarn is true.") [.jobtracker]

/-- `cdh4::hadoop::datanode` -/
def datanode : Catalog := .ok [.datanode]

/-- `cdh4::hadoop::nodemanager` -/
def nodemanager : Bool → Catalog :=
  yarnOnly ("Cannot use Hadoop YARN NodeManager if "
    ++ "cdh4::hadoop::use_yarn is false.") [.nodemanager]

/-- `cdh4::hadoop::tasktracker`, which has the message of the JobTracker -/
def tasktracker : Bool → Catalog :=
  mrv1Only ("Cannot use Hadoop MRv1 JobTrackker if "
    ++ "cdh4::hadoop::use_yarn is true.") [.tasktracker]

/-- `cdh4::hadoop::master` -/
def master (useYarn : Bool) : Catalog := do
  let services ← namenodePrimary
  if useYarn then
    let services' ← resourcemanager useYarn
    let services'' ← historyserver useYarn
    pure (services ++ services' ++ services'')
  else
    let services' ← jobtracker useYarn
    pure (services ++ services')

/-- `cdh4::hadoop::worker` -/
def worker (useYarn : Bool) : Catalog := do
  let services ← datanode
  if useYarn then
    let services' ← nodemanager useYarn
    pure (services ++ services')
  else
    let services' ← tasktracker useYarn
    pure (services ++ services')

/-! ## The tasks -/

/-- What a host has of a service: only an installed one can run. -/
inductive Status where
  | absent
  | stopped
  | running
  deriving DecidableEq

/-- The services of a host. -/
abbrev Host : Type := Service → Status

/-- A host with nothing installed. -/
def Host.fresh : Host := fun _ => .absent

/-- Applying a catalog installs and starts its services. -/
def Host.applied (catalog : Catalog) (host : Host) : Option Host :=
  match catalog with
  | .error _ => none
  | .ok services => some fun s => if s ∈ services then .running else host s

/-- `/sbin/service X stop` fails where the service is not installed. -/
def Host.stop (service : Service) (host : Host) : Option Host :=
  if host service = .absent then none
  else some (Function.update host service .stopped)

/-- `rsync()`, and `puppetApply` of a manifest with this catalog -/
def startWith (manifest : Text) (catalog : Catalog) : Fab Command Host Unit := do
  rsync some
  puppetApply manifest (Host.applied catalog)

/-- The task `startHdfsMaster`. -/
def startHdfsMaster : Fab Command Host Unit :=
  startWith "hdfs-master.pp".toList (master useYarn)

/-- The task `startHdfsWorkers`. -/
def startHdfsWorkers : Fab Command Host Unit :=
  startWith "hdfs-worker.pp".toList (worker useYarn)

/-- `sudo("/sbin/service X stop")` -/
def stopService (service : Service) : Fab Command Host Unit :=
  issue (.sudo ("/sbin/service ".toList ++ service.name ++ " stop".toList))
    (Host.stop service)

/-- The task `stopHdfsMaster`. -/
def stopHdfsMaster : Fab Command Host Unit := do
  stopService .namenode
  stopService .jobtracker
  stopService .historyserver
  stopService .nodemanager
  stopService .resourcemanager

/-- The task `stopHdfsWorkers`. -/
def stopHdfsWorkers : Fab Command Host Unit := stopService .datanode

variable {H : Type} [DecidableEq H]

/-- The hosts of `config.yaml`. -/
structure Config (H : Type) where
  master : List H
  workers : List H

/-- The start tasks. -/
inductive StartTask where
  | startHdfsMaster
  | startHdfsWorkers
  deriving DecidableEq

/-- Nothing fails but for what a command finds on its host. -/
def responding : H → Command → Reply := fun _ => succeeding

/-- A start task on the hosts of its role. -/
def startStep (config : Config H) (w : H → Host) : StartTask → H → Host
  | .startHdfsMaster =>
    (sequential startHdfsMaster responding (roleHosts config.master) w).2
  | .startHdfsWorkers =>
    (parallel startHdfsWorkers responding (roleHosts config.workers) w).2

/-- `stopHdfsWorkers` on its hosts. -/
def stopWorkers (config : Config H) (w : H → Host) : Bool × (H → Host) :=
  parallel stopHdfsWorkers responding (roleHosts config.workers) w

/-- `stopHdfsMaster` on its hosts. -/
def stopMaster (config : Config H) (w : H → Host) : Bool × (H → Host) :=
  sequential stopHdfsMaster responding (roleHosts config.master) w

/-- **Stopping HDFS** with one call for both tasks: the second one is run only
if the first one has got through. -/
def stopHdfs (config : Config H) (w : H → Host) : H → Host :=
  match stopWorkers config w with
  | (true, w') => (stopMaster config w').2
  | (false, w') => w'

/-- **Stopping HDFS** with a call for each task. -/
def stopHdfsApart (config : Config H) (w : H → Host) : H → Host :=
  (stopMaster config (stopWorkers config w).2).2

/-! ## What is started -/

/-- The services of the master's hosts. -/
def masterServices : List Service :=
  [.namenode, .resourcemanager, .historyserver]

/-- The services of the workers. -/
def workerServices : List Service := [.datanode, .nodemanager]

/-- Starting gets through and brings up the services of the catalog. -/
theorem startWith_exec (manifest : Text) (services : List Service)
    (host : Host) :
    ∃ s, (startWith manifest (.ok services)).exec succeeding host = (.ok (), s)
      ∧ s.world = fun s => if s ∈ services then .running else host s :=
  ⟨_, rfl, rfl⟩

/-- **Starting the hosts of a role**, one after the other or all at once,
brings up the services on each of them. -/
theorem startWith_hosts (manifest : Text) (services : List Service)
    (hosts : List H) (w : H → Host) :
    sequential (startWith manifest (.ok services)) responding (roleHosts hosts) w
        = parallel (startWith manifest (.ok services)) responding
          (roleHosts hosts) w
      ∧ ∀ h s, (parallel (startWith manifest (.ok services)) responding
          (roleHosts hosts) w).2 h s
        = if h ∈ hosts ∧ s ∈ services then .running else w h s := by
  have hexec := startWith_exec manifest services
  refine ⟨sequential_eq_parallel (fun h d => ?_) _ w, fun h s => ?_⟩
  · obtain ⟨s, hs, _⟩ := hexec d
    exact ⟨s, hs⟩
  · obtain ⟨s', hs', hw⟩ := hexec (w h)
    have hworld : ((startWith manifest (.ok services)).exec (responding h)
        (w h)).2.world = fun s => if s ∈ services then .running else w h s :=
      (congrArg (fun r => r.2.world) hs').trans hw
    rw [parallel_world _ _ (nodup_roleHosts hosts), hworld]
    by_cases hh : h ∈ hosts
    · simp [hh]
    · simp [hh]

/-- **A start task**, host by host. -/
theorem startStep_apply (config : Config H) (w : H → Host) (t : StartTask)
    (h : H) (s : Service) :
    startStep config w t h s
      = match t with
        | .startHdfsMaster =>
          if h ∈ config.master ∧ s ∈ masterServices then .running else w h s
        | .startHdfsWorkers =>
          if h ∈ config.workers ∧ s ∈ workerServices then .running else w h s := by
  cases t with
  | startHdfsMaster =>
    have hhosts := startWith_hosts "hdfs-master.pp".toList masterServices
      config.master w
    exact (congrArg (fun r => r.2 h s) hhosts.1).trans (hhosts.2 h s)
  | startHdfsWorkers =>
    exact (startWith_hosts "hdfs-worker.pp".toList workerServices
      config.workers w).2 h s

/-- **What has been started**: the services of the roles of a host whose start
tasks have been run. -/
def Started (config : Config H) (history : List StartTask) (h : H)
    (s : Service) : Prop :=
  (.startHdfsMaster ∈ history ∧ h ∈ config.master ∧ s ∈ masterServices)
    ∨ (.startHdfsWorkers ∈ history ∧ h ∈ config.workers ∧ s ∈ workerServices)

instance (config : Config H) (history : List StartTask) (h : H) (s : Service) :
    Decidable (Started config history h s) :=
  inferInstanceAs (Decidable (_ ∨ _))

/-- **Any run of start tasks**: a host runs what has been started on it, and
has nothing else. -/
theorem run_starts (config : Config H) (history : List StartTask) (h : H)
    (s : Service) :
    run (startStep config) (fun _ => Host.fresh) history h s
      = if Started config history h s then .running else .absent := by
  induction history using List.reverseRecOn with
  | nil => exact (if_neg (by simp [Started])).symm
  | append_singleton history t ih =>
    rw [run_concat, startStep_apply, ih]
    cases t with
    | startHdfsMaster =>
      unfold Started
      simp only [List.mem_append, List.mem_singleton]
      by_cases hm : h ∈ config.master ∧ s ∈ masterServices
      · simp [hm]
      · grind
    | startHdfsWorkers =>
      unfold Started
      simp only [List.mem_append, List.mem_singleton]
      by_cases hm : h ∈ config.workers ∧ s ∈ workerServices
      · simp [hm]
      · grind

/-! ## What is stopped -/

/-- A service that is not installed ends the task. -/
theorem stopService_of_absent {service : Service} {s : Session Command Host}
    (h : s.world service = .absent) :
    ∃ s', stopService service succeeding s = (.error .abort, s')
      ∧ s'.world = s.world := by
  have hw : Host.stop service s.world = none := if_pos h
  exact ⟨_, issue_of_none hw, rfl⟩

/-- An installed service is stopped. -/
theorem stopService_of_not_absent {service : Service}
    {s : Session Command Host} (h : s.world service ≠ .absent) :
    ∃ s', stopService service succeeding s = (.ok (), s')
      ∧ s'.world = Function.update s.world service .stopped := by
  have hw : Host.stop service s.world
      = some (Function.update s.world service .stopped) := if_neg h
  exact ⟨_, issue_of_ok rfl hw, rfl⟩

/-- What the command for a service leaves, whether it is installed or not. -/
theorem stopService_world (service : Service) (s : Session Command Host) :
    (stopService service succeeding s).2.world
      = if s.world service = .absent then s.world
        else Function.update s.world service .stopped := by
  split
  · next habsent =>
    obtain ⟨s', hs', hw⟩ := stopService_of_absent habsent
    rw [hs', hw]
  · next habsent =>
    obtain ⟨s', hs', hw⟩ := stopService_of_not_absent habsent
    rw [hs', hw]

/-- **`stopHdfsMaster` on a host without the JobTracker** stops at most the
NameNode: it aborts where it comes to the other service. -/
theorem stopHdfsMaster_world {host : Host} (hjob : host .jobtracker = .absent) :
    (stopHdfsMaster.exec succeeding host).2.world
      = if host .namenode = .absent then host
        else Function.update host .namenode .stopped := by
  unfold stopHdfsMaster exec
  by_cases hname : host .namenode = .absent
  · obtain ⟨s', hs', hw⟩ := stopService_of_absent (s := ⟨host, [], []⟩) hname
    rw [bind_of_error hs', if_pos hname]
    exact hw
  · obtain ⟨s', hs', hw⟩ := stopService_of_not_absent (s := ⟨host, [], []⟩) hname
    have hjob' : s'.world .jobtracker = .absent := by
      rw [hw]
      exact hjob
    obtain ⟨s'', hs'', hw'⟩ := stopService_of_absent hjob'
    rw [bind_of_ok hs', bind_of_error hs'', if_neg hname]
    exact hw'.trans hw

/-- `stopHdfsWorkers` stops at most the DataNode. -/
theorem stopHdfsWorkers_world (host : Host) :
    (stopHdfsWorkers.exec succeeding host).2.world
      = if host .datanode = .absent then host
        else Function.update host .datanode .stopped :=
  stopService_world .datanode ⟨host, [], []⟩

/-- **A host after the stop tasks, against the one before**: the NameNode and
the DataNode may have been stopped, and nothing else has changed. -/
def OnlyFirstStopped (before after : Host) : Prop :=
  ∀ s, after s = before s
    ∨ (s = .namenode ∨ s = .datanode) ∧ before s ≠ .absent ∧ after s = .stopped

/-- Stopping one of the two services is within that. -/
theorem OnlyFirstStopped.stop {before after : Host} {s : Service}
    (h : OnlyFirstStopped before after) (hs : s = .namenode ∨ s = .datanode) :
    OnlyFirstStopped before
      (if after s = .absent then after else Function.update after s .stopped) := by
  split
  · exact h
  · next hne =>
    intro s'
    by_cases heq : s' = s
    · subst heq
      rw [Function.update_self]
      refine Or.inr ⟨hs, fun habsent => ?_, rfl⟩
      obtain hsame | ⟨_, hpresent, _⟩ := h s'
      · exact hne (hsame.trans habsent)
      · exact hpresent habsent
    · rw [Function.update_of_ne heq]
      exact h s'

/-- **The stop tasks have no more effect than that** on hosts without the
JobTracker. -/
theorem onlyFirstStopped (config : Config H) {w : H → Host}
    (hjob : ∀ h, w h .jobtracker = .absent) (h : H) :
    OnlyFirstStopped (w h) (stopHdfs config w h)
      ∧ OnlyFirstStopped (w h) (stopHdfsApart config w h) := by
  have hworkers : ∀ h, OnlyFirstStopped (w h) ((stopWorkers config w).2 h) := by
    refine parallel_induction (fun h host hP => ?_) _ fun h s => Or.inl rfl
    show OnlyFirstStopped (w h) (stopHdfsWorkers.exec succeeding host).2.world
    rw [stopHdfsWorkers_world]
    exact hP.stop (Or.inr rfl)
  have hmaster : ∀ w' : H → Host, (∀ h, OnlyFirstStopped (w h) (w' h)) →
      ∀ h, OnlyFirstStopped (w h) ((stopMaster config w').2 h) := by
    intro w' hw'
    refine sequential_induction (fun h host hP => ?_) _ hw'
    have hjob' : host .jobtracker = .absent := by
      obtain heq | ⟨hs, _⟩ := hP .jobtracker
      · rw [heq, hjob]
      · exact absurd hs (by decide)
    show OnlyFirstStopped (w h) (stopHdfsMaster.exec succeeding host).2.world
    rw [stopHdfsMaster_world hjob']
    exact hP.stop (Or.inl rfl)
  refine ⟨?_, hmaster _ hworkers h⟩
  unfold stopHdfs
  rcases hr : stopWorkers config w with ⟨_ | _, w'⟩
  · rw [hr] at hworkers
    exact hworkers h
  · rw [hr] at hworkers
    exact hmaster w' hworkers h

/-- No service runs on any host. -/
def AllStopped (config : Config H) (w : H → Host) : Prop :=
  ∀ h, h ∈ config.master ∨ h ∈ config.workers → ∀ s, w h s ≠ .running

/-- **Nothing was started**: neither task was run, or only for a role without
hosts. -/
def NothingStarted (config : Config H) (history : List StartTask) : Prop :=
  (.startHdfsMaster ∈ history → config.master = [])
    ∧ (.startHdfsWorkers ∈ history → config.workers = [])

/-- What is within the effect of the stop tasks stops everything exactly if
nothing was started. -/
theorem allStopped_iff {config : Config H} {history : List StartTask}
    {w : H → Host}
    (hw : ∀ h, OnlyFirstStopped
      (run (startStep config) (fun _ => Host.fresh) history h) (w h)) :
    AllStopped config w ↔ NothingStarted config history := by
  have hrun := run_starts config history
  -- a service beyond the first one of its role runs where it was started
  have hleft : ∀ h s, s ≠ .namenode → s ≠ .datanode →
      Started config history h s → w h s = .running := by
    intro h s hname hdata hstarted
    obtain heq | ⟨hs, _⟩ := hw h s
    · rw [heq, hrun, if_pos hstarted]
    · exact absurd hs (not_or.mpr ⟨hname, hdata⟩)
  constructor
  · intro hall
    refine ⟨fun hmem => ?_, fun hmem => ?_⟩
    · by_contra hne
      obtain ⟨h, hh⟩ := List.exists_mem_of_ne_nil _ hne
      exact hall h (Or.inl hh) .historyserver (hleft h .historyserver
        (by decide) (by decide) (Or.inl ⟨hmem, hh, by decide⟩))
    · by_contra hne
      obtain ⟨h, hh⟩ := List.exists_mem_of_ne_nil _ hne
      exact hall h (Or.inr hh) .nodemanager (hleft h .nodemanager
        (by decide) (by decide) (Or.inr ⟨hmem, hh, by decide⟩))
  · rintro ⟨hmaster, hworkers⟩ h _ s hrunning
    have hnot : ¬ Started config history h s := by
      rintro (⟨hmem, hh, _⟩ | ⟨hmem, hh, _⟩)
      · exact List.not_mem_nil (hmaster hmem ▸ hh)
      · exact List.not_mem_nil (hworkers hmem ▸ hh)
    obtain heq | ⟨_, _, hstopped⟩ := hw h s
    · rw [heq, hrun, if_neg hnot] at hrunning
      exact absurd hrunning (by decide)
    · rw [hstopped] at hrunning
      exact absurd hrunning (by decide)

/-- **Stopping undoes starting only where nothing was started.** For every
cluster and any run of the start tasks, calling `stopHdfsWorkers` and then
`stopHdfsMaster` – at once or one by one – leaves no service running exactly if
no service was brought up in the first place. -/
theorem stopped_iff (config : Config H) (history : List StartTask) :
    let w := run (startStep config) (fun _ => Host.fresh) history
    (AllStopped config (stopHdfs config w) ↔ NothingStarted config history)
      ∧ (AllStopped config (stopHdfsApart config w)
        ↔ NothingStarted config history) := by
  have hjob : ∀ h, run (startStep config) (fun _ => Host.fresh) history h
      .jobtracker = .absent := by
    intro h
    rw [run_starts, if_neg]
    rintro (⟨_, _, hs⟩ | ⟨_, _, hs⟩)
    · exact absurd hs (by decide)
    · exact absurd hs (by decide)
  exact ⟨allStopped_iff fun h => (onlyFirstStopped config hjob h).1,
    allStopped_iff fun h => (onlyFirstStopped config hjob h).2⟩

/-- A master and a worker on hosts of their own. -/
def sampleCluster : Config Text :=
  ⟨["server0".toList], ["server1".toList]⟩

/-- **After starting and stopping both roles** the master still runs its
ResourceManager and its HistoryServer, and the worker its NodeManager. -/
theorem not_stopped_sampleCluster :
    let w := stopHdfs sampleCluster (run (startStep sampleCluster)
      (fun _ => Host.fresh) [.startHdfsMaster, .startHdfsWorkers])
    w "server0".toList .resourcemanager = .running
      ∧ w "server0".toList .historyserver = .running
      ∧ w "server1".toList .nodemanager = .running := by
  decide

end Hdfs
