import ClusterDeployment.SparkLaunch

/-!
# Crashes and reboots

The services of Spark are Upstart jobs. A daemon that ends by itself is started
again, unless this has happened too often in a short time, and after a reboot
every daemon is started whose job is there, stopped or not. None of this asks
an operator. And each time the daemon is launched with the files as they are
then – which the start tasks have been rewriting under it in the meantime.

What an operator would have to write down to know what runs (`Records`) is
therefore more than the launches: for each daemon the manifest of its last
start task, and for `spark-env.sh`, which the roles share, the last start task
of either. With this the host is known after any run of tasks, crashes and
reboots (`tracks_run`). A start task that has been without effect comes into
effect at the next relaunch (`inEffect_relaunched`). And what `spark-class`
starts below a daemon has the memory of the last start task, of a master or of
a worker, before the daemon was launched (`heap_below`).

A run of Puppet is one step here, in which no resource is cut off, and which
changes nothing if the command fails. What a run leaves behind that is cut off
is looked at resource by resource where the catalogs are.
-/

namespace Spark

open Deployment Fab Puppet Run Shell

/-! ## What happens to a host -/

/-- What happens to a host: a step of the operator, the end of a daemon, which
Upstart starts again unless the limit has been reached, or a reboot. -/
inductive Event where
  | task (x : Step)
  | crash (daemon : Daemon) (respawn : Bool)
  | reboot

/-- The server once a daemon has ended; there is nothing to end if it does not
run. -/
def Server.crashed (daemon : Daemon) (respawn : Bool) (server : Server) : Server :=
  { server with node :=
      ⟨server.node.files, Function.update server.node.daemons daemon
        ((server.node.daemons daemon).bind fun _ =>
          if respawn then some (reads daemon server.node.files) else none)⟩ }

/-- The server after a reboot: what has a job is started. -/
def Server.rebooted (server : Server) : Server :=
  { server with node :=
      ⟨server.node.files, fun daemon => (server.node.files daemon.confPath).map fun _ =>
        reads daemon server.node.files⟩ }

/-- **What an event does.** -/
def occur (fqdn : Text) (roles : Daemon → Bool) (st : State) : Event → State
  | .task x => step fqdn roles st x
  | .crash daemon respawn => { st with server := st.server.crashed daemon respawn }
  | .reboot => { st with server := st.server.rebooted }

/-! ## What an operator would have to write down -/

/-- What a daemon is launched with: the manifests whose start tasks have
rendered its command line and `spark-env.sh`, the latter for one of the
roles. -/
structure Launch where
  command : Option Manifests
  env : Option (Daemon × Manifests)

/-- **The records** of a host. -/
structure Records where
  manifests : Manifests
  command : Daemon → Option Manifests
  env : Option (Daemon × Manifests)
  launched : Daemon → Option Launch

/-- Nothing has been started. -/
def Records.fresh (m : Manifests) : Records := ⟨m, fun _ => none, none, fun _ => none⟩

/-- What a daemon would be launched with. -/
def Records.now (o : Records) (daemon : Daemon) : Launch := ⟨o.command daemon, o.env⟩

/-- The records once a start task has rendered its files. -/
def Records.rendered (o : Records) (daemon : Daemon) : Records :=
  { o with
    command := Function.update o.command daemon (some o.manifests)
    env := some (daemon, o.manifests) }

/-- **Keeping the records.** -/
def Records.step (roles : Daemon → Bool) (o : Records) : Event → Records
  | .task (.start daemon env) =>
    if roles daemon && getsThrough env daemon then
      { o.rendered daemon with
        launched := Function.update o.launched daemon
          (some ((o.launched daemon).getD ((o.rendered daemon).now daemon))) }
    else o
  | .task (.stop daemon env) =>
    if roles daemon && (env (stopCommand daemon)).ok then
      { o with launched := Function.update o.launched daemon none }
    else o
  | .task (.editMaster p) => { o with manifests := o.manifests.edit (.editMaster p) }
  | .task (.editWorker p) => { o with manifests := o.manifests.edit (.editWorker p) }
  | .crash daemon respawn =>
    { o with
      launched := Function.update o.launched daemon
        ((o.launched daemon).bind fun _ => if respawn then some (o.now daemon) else none) }
  | .reboot =>
    { o with launched := fun daemon => (o.command daemon).map fun _ => o.now daemon }

/-- What has been read at a launch. -/
def Launch.snapshot (fqdn : Text) (daemon : Daemon) (l : Launch) :
    Option Text × Option Text :=
  (l.command.map fun m => (Spark.rendered fqdn m daemon).fst,
    l.env.map fun p => (Spark.rendered fqdn p.2 p.1).snd)

/-- **The host is as the records say**, its files and its daemons. -/
structure Tracks (fqdn : Text) (st : State) (o : Records) : Prop where
  manifests : st.manifests = o.manifests
  commands : ∀ daemon, st.server.node.files daemon.runnerPath
    = (o.command daemon).map fun m => (rendered fqdn m daemon).fst
  env : st.server.node.files envPath
    = o.env.map fun p => (rendered fqdn p.2 p.1).snd
  confs : ∀ daemon, st.server.node.files daemon.confPath
    = (o.command daemon).map fun _ => upstartConf daemon
  daemons : ∀ daemon, st.server.node.daemons daemon
    = (o.launched daemon).map (Launch.snapshot fqdn daemon)
  started : ∀ daemon, o.launched daemon ≠ none → o.command daemon ≠ none

variable {fqdn : Text} {roles : Daemon → Bool} {m : Manifests}

theorem tracks_fresh : Tracks fqdn ⟨m, Server.fresh⟩ (Records.fresh m) where
  manifests := rfl
  commands _ := rfl
  env := rfl
  confs _ := rfl
  daemons _ := rfl
  started _ h := absurd rfl h

/-- What a daemon would read. -/
theorem Tracks.reads {st : State} {o : Records} (h : Tracks fqdn st o)
    (daemon : Daemon) :
    reads daemon st.server.node.files = (o.now daemon).snapshot fqdn daemon :=
  Prod.ext (h.commands daemon) h.env

/-- The files of one daemon are not those of the other. -/
theorem paths_not_mem (fqdn : Text) (m : Manifests) {daemon daemon' : Daemon}
    (h : daemon' ≠ daemon) :
    daemon'.confPath ∉ (catalogOf fqdn m daemon).files.map FileResource.path
      ∧ daemon'.runnerPath
        ∉ (catalogOf fqdn m daemon).files.map FileResource.path := by
  rw [catalogOf_files]
  show daemon'.confPath ∉ [envPath, daemon.confPath, daemon.runnerPath]
    ∧ daemon'.runnerPath ∉ [envPath, daemon.confPath, daemon.runnerPath]
  revert h
  cases daemon <;> cases daemon' <;> decide

/-- What leaves the files, the records of the files and the manifests alone. -/
theorem Tracks.of_launched {st st' : State} {o o' : Records} (h : Tracks fqdn st o)
    (hm : st'.manifests = st.manifests) (hm' : o'.manifests = o.manifests)
    (hfiles : st'.server.node.files = st.server.node.files)
    (hcommand : o'.command = o.command) (henv : o'.env = o.env)
    (hdaemons : ∀ daemon, st'.server.node.daemons daemon
      = (o'.launched daemon).map (Launch.snapshot fqdn daemon))
    (hstarted : ∀ daemon, o'.launched daemon ≠ none → o.command daemon ≠ none) :
    Tracks fqdn st' o' where
  manifests := by rw [hm, hm', h.manifests]
  commands := by
    rw [hfiles, hcommand]
    exact h.commands
  env := by
    rw [hfiles, henv]
    exact h.env
  confs := by
    rw [hfiles, hcommand]
    exact h.confs
  daemons := hdaemons
  started := by
    rw [hcommand]
    exact hstarted

/-- What neither edits a manifest nor gets at the files and the daemons. -/
theorem Tracks.of_node {st st' : State} {o : Records} (h : Tracks fqdn st o)
    (hm : st'.manifests = o.manifests)
    (hnode : st'.server.node = st.server.node) : Tracks fqdn st' o :=
  h.of_launched (hm.trans h.manifests.symm) rfl (by rw [hnode]) rfl rfl
    (by rw [hnode]; exact h.daemons) h.started

/-- **A start task renders its files, and launches its daemon from rest.** -/
theorem Tracks.apply {st : State} {o : Records} (h : Tracks fqdn st o)
    (daemon : Daemon) (server : Server)
    (hnode : server.node
      = (catalogOf fqdn o.manifests daemon).apply Spark.reads st.server.node) :
    Tracks fqdn ⟨o.manifests, server⟩
      { o.rendered daemon with
        launched := Function.update o.launched daemon
          (some ((o.launched daemon).getD ((o.rendered daemon).now daemon))) } := by
  obtain ⟨hreads, hconf⟩ := apply_files fqdn o.manifests daemon st.server.node
  have hkeep : ∀ d, d ≠ daemon →
      server.node.files d.confPath = st.server.node.files d.confPath
        ∧ server.node.files d.runnerPath = st.server.node.files d.runnerPath := by
    intro d hne
    rw [hnode]
    obtain ⟨hnconf, hnrunner⟩ := paths_not_mem fqdn o.manifests hne
    exact ⟨apply_files_of_not_mem hnconf, apply_files_of_not_mem hnrunner⟩
  have hself : Function.update o.command daemon (some o.manifests) daemon
      = some o.manifests := Function.update_self _ _ _
  have hother : ∀ d, d ≠ daemon →
      Function.update o.command daemon (some o.manifests) d = o.command d :=
    fun d hne => Function.update_of_ne hne _ _
  refine ⟨rfl, fun d => ?_, ?_, fun d => ?_, fun d => ?_, fun d hd => ?_⟩
  · show server.node.files d.runnerPath
      = (Function.update o.command daemon (some o.manifests) d).map _
    by_cases hne : d = daemon
    · subst hne
      rw [hself, hnode]
      exact congrArg Prod.fst hreads
    · rw [hother d hne, (hkeep d hne).2]
      exact h.commands d
  · show server.node.files envPath = _
    rw [hnode]
    exact congrArg Prod.snd hreads
  · show server.node.files d.confPath
      = (Function.update o.command daemon (some o.manifests) d).map _
    by_cases hne : d = daemon
    · subst hne
      rw [hself, hnode]
      exact hconf
    · rw [hother d hne, (hkeep d hne).1]
      exact h.confs d
  · show server.node.daemons d = (Function.update o.launched daemon _ d).map _
    rw [hnode]
    by_cases hne : d = daemon
    · subst hne
      rw [Function.update_self, Option.map_some]
      have hdaemon := h.daemons d
      cases ho : o.launched d with
      | none =>
        rw [ho, Option.map_none] at hdaemon
        rw [apply_daemons_of_stopped (catalogOf_service fqdn o.manifests d) hdaemon,
          hreads]
        show some (snapshot fqdn d o.manifests)
          = some ((Function.update o.command d (some o.manifests) d).map _, _)
        rw [hself]
        rfl
      | some l =>
        rw [ho, Option.map_some] at hdaemon
        have hcommand := h.started d (by rw [ho]; exact Option.some_ne_none l)
        obtain ⟨m', hm'⟩ := Option.ne_none_iff_exists'.mp hcommand
        refine apply_daemons_of_running (catalogOf_service fqdn o.manifests d) hdaemon
          fun r hr hn => ?_
        rw [catalogOf_files] at hr
        simp only [List.mem_cons, List.not_mem_nil, or_false] at hr
        obtain rfl | rfl | rfl := hr
        · exact absurd hn.symm (Option.some_ne_none d)
        · rw [h.confs d, hm']
          rfl
        · exact absurd hn.symm (Option.some_ne_none d)
    · rw [Function.update_of_ne hne, apply_daemons_of_ne, h.daemons d]
      rwa [catalogOf_service]
  · show Function.update o.command daemon (some o.manifests) d ≠ none
    by_cases hne : d = daemon
    · subst hne
      rw [hself]
      exact Option.some_ne_none _
    · rw [hother d hne]
      replace hd : Function.update o.launched daemon _ d ≠ none := hd
      rw [Function.update_of_ne hne] at hd
      exact h.started d hd

/-- A start task, whether it gets through or not. -/
theorem Tracks.start {st : State} {o : Records} (h : Tracks fqdn st o)
    (daemon : Daemon) (env : Command → Reply) :
    Tracks fqdn (Spark.step fqdn roles st (.start daemon env))
      (o.step roles (.task (.start daemon env))) := by
  obtain ⟨hm, hnode⟩ := step_start fqdn roles st daemon env
  rw [h.manifests] at hm hnode
  by_cases hgo : (roles daemon && getsThrough env daemon) = true
  · have ho : o.step roles (.task (.start daemon env)) = _ := if_pos hgo
    rw [if_pos hgo] at hnode
    rw [ho]
    have happly := h.apply daemon (Spark.step fqdn roles st (.start daemon env)).server hnode
    rwa [← hm] at happly
  · have ho : o.step roles (.task (.start daemon env)) = o := if_neg hgo
    rw [if_neg hgo] at hnode
    rw [ho]
    exact h.of_node hm hnode

/-- What ends a daemon, or launches it with the files as they are. -/
theorem Tracks.update {st st' : State} {o : Records} (h : Tracks fqdn st o)
    (daemon : Daemon) {l : Option Launch} (hl : l = none ∨ o.launched daemon ≠ none)
    (hm : st'.manifests = st.manifests)
    (hfiles : st'.server.node.files = st.server.node.files)
    (hdaemons : st'.server.node.daemons = Function.update st.server.node.daemons daemon
      (l.map (Launch.snapshot fqdn daemon))) :
    Tracks fqdn st' { o with launched := Function.update o.launched daemon l } := by
  refine h.of_launched hm rfl hfiles rfl rfl (fun d => ?_) fun d hd => ?_
  · show st'.server.node.daemons d = (Function.update o.launched daemon l d).map _
    rw [hdaemons]
    by_cases hne : d = daemon
    · subst hne
      rw [Function.update_self, Function.update_self]
    · rw [Function.update_of_ne hne, Function.update_of_ne hne]
      exact h.daemons d
  · replace hd : Function.update o.launched daemon l d ≠ none := hd
    by_cases hne : d = daemon
    · subst hne
      rw [Function.update_self] at hd
      exact h.started d (hl.resolve_left hd)
    · rw [Function.update_of_ne hne] at hd
      exact h.started d hd

/-- A stop task. -/
theorem Tracks.stop {st : State} {o : Records} (h : Tracks fqdn st o)
    (daemon : Daemon) (env : Command → Reply) :
    Tracks fqdn (Spark.step fqdn roles st (.stop daemon env))
      (o.step roles (.task (.stop daemon env))) := by
  obtain ⟨hm, hnode⟩ := step_stop fqdn roles st daemon env
  by_cases hgo : (roles daemon && (env (stopCommand daemon)).ok) = true
  · have ho : o.step roles (.task (.stop daemon env)) = _ := if_pos hgo
    rw [if_pos hgo] at hnode
    rw [ho]
    exact h.update daemon (.inl rfl) hm (by rw [hnode]; rfl) (by rw [hnode]; rfl)
  · have ho : o.step roles (.task (.stop daemon env)) = o := if_neg hgo
    rw [if_neg hgo] at hnode
    rw [ho]
    exact h.of_node (hm.trans h.manifests) hnode

/-- A crash. -/
theorem Tracks.crash {st : State} {o : Records} (h : Tracks fqdn st o)
    (daemon : Daemon) (respawn : Bool) :
    Tracks fqdn (occur fqdn roles st (.crash daemon respawn))
      (o.step roles (.crash daemon respawn)) := by
  refine h.update daemon ?_ rfl rfl ?_
  · cases o.launched daemon with
    | none => exact .inl rfl
    | some l => exact .inr (Option.some_ne_none l)
  · show Function.update st.server.node.daemons daemon
      ((st.server.node.daemons daemon).bind fun _ => _) = _
    rw [h.daemons daemon, h.reads daemon]
    congr 1
    cases o.launched daemon with
    | none => rfl
    | some l => cases respawn <;> rfl

/-- A reboot. -/
theorem Tracks.reboot {st : State} {o : Records} (h : Tracks fqdn st o) :
    Tracks fqdn (occur fqdn roles st .reboot) (o.step roles .reboot) := by
  refine h.of_launched rfl rfl rfl rfl rfl (fun d => ?_) fun d hd hcommand => ?_
  · show (st.server.node.files d.confPath).map (fun _ => _)
      = ((o.command d).map fun _ => o.now d).map _
    rw [h.confs d, h.reads d, Option.map_map, Option.map_map]
    rfl
  · replace hd : (o.command d).map (fun _ => o.now d) ≠ none := hd
    rw [hcommand] at hd
    exact hd rfl

/-- **One event** keeps the host as the records say. -/
theorem Tracks.occur {st : State} {o : Records} (h : Tracks fqdn st o)
    (roles : Daemon → Bool) (x : Event) :
    Tracks fqdn (occur fqdn roles st x) (o.step roles x) := by
  cases x with
  | crash daemon respawn => exact h.crash daemon respawn
  | reboot => exact h.reboot
  | task x =>
    cases x with
    | start daemon env => exact h.start daemon env
    | stop daemon env => exact h.stop daemon env
    | editMaster p =>
      exact ⟨congrArg (fun m => m.edit (.editMaster p)) h.manifests, h.commands, h.env,
        h.confs, h.daemons, h.started⟩
    | editWorker p =>
      exact ⟨congrArg (fun m => m.edit (.editWorker p)) h.manifests, h.commands, h.env,
        h.confs, h.daemons, h.started⟩

/-- **Every run** of tasks, edits, crashes and reboots, from a host with nothing
installed. -/
theorem tracks_run (fqdn : Text) (roles : Daemon → Bool) (m : Manifests)
    (history : List Event) :
    Tracks fqdn (run (Spark.occur fqdn roles) ⟨m, Server.fresh⟩ history)
      (run (Records.step roles) (Records.fresh m) history) :=
  run_simulation (fun _ _ x _ h => h.occur roles x) tracks_fresh

/-! ## What comes into effect, and when -/

/-- Whether an event leaves the files and the manifests alone. -/
def Event.spares : Event → Bool
  | .task (.stop _ _) => true
  | .task _ => false
  | .crash _ _ => true
  | .reboot => true

theorem Records.step_of_spares (roles : Daemon → Bool) (o : Records) {x : Event}
    (hx : x.spares = true) :
    (o.step roles x).manifests = o.manifests ∧ (o.step roles x).command = o.command
      ∧ (o.step roles x).env = o.env := by
  cases x with
  | crash daemon respawn => exact ⟨rfl, rfl, rfl⟩
  | reboot => exact ⟨rfl, rfl, rfl⟩
  | task x =>
    cases x with
    | stop daemon env =>
      unfold Records.step
      dsimp only
      split <;> exact ⟨rfl, rfl, rfl⟩
    | start daemon env => exact absurd hx Bool.false_ne_true
    | editMaster p => exact absurd hx Bool.false_ne_true
    | editWorker p => exact absurd hx Bool.false_ne_true

/-- Any number of such events. -/
theorem Records.run_of_spares (roles : Daemon → Bool) (o : Records)
    {history : List Event} (h : ∀ x ∈ history, x.spares = true) :
    (run (Records.step roles) o history).manifests = o.manifests
      ∧ (run (Records.step roles) o history).command = o.command
      ∧ (run (Records.step roles) o history).env = o.env := by
  refine run_invariant (P := fun o' : Records => o'.manifests = o.manifests
    ∧ o'.command = o.command ∧ o'.env = o.env) (fun o' x hx ho' => ?_) ⟨rfl, rfl, rfl⟩
  obtain ⟨hm, hcommand, henv⟩ := ho'
  obtain ⟨hm', hcommand', henv'⟩ := Records.step_of_spares roles o' (h x hx)
  exact ⟨hm'.trans hm, hcommand'.trans hcommand, henv'.trans henv⟩

/-- Whether an event launches a daemon again, without a task. -/
def Event.relaunches (st : State) (daemon : Daemon) : Event → Prop
  | .task _ => False
  | .crash daemon' respawn =>
    daemon' = daemon ∧ respawn = true ∧ st.server.node.daemons daemon ≠ none
  | .reboot => True

/-- To launch a daemon again is no task. -/
theorem Event.spares_of_relaunches {st : State} {daemon : Daemon} {x : Event}
    (hx : x.relaunches st daemon) : x.spares = true := by
  cases x with
  | task x => exact hx.elim
  | crash daemon' respawn => rfl
  | reboot => rfl

/-- What is launched again has what it would be launched with. -/
theorem Tracks.relaunched {st : State} {o : Records} (h : Tracks fqdn st o)
    (roles : Daemon → Bool) {daemon : Daemon} {x : Event} (hx : x.relaunches st daemon)
    (hcommand : o.command daemon ≠ none) :
    (o.step roles x).launched daemon = some (o.now daemon) := by
  cases x with
  | task x => exact hx.elim
  | crash daemon' respawn =>
    obtain ⟨rfl, rfl, hrun⟩ := hx
    rw [h.daemons daemon'] at hrun
    show Function.update o.launched daemon' _ daemon' = _
    rw [Function.update_self]
    cases ho : o.launched daemon' with
    | none => exact absurd (by rw [ho]; rfl) hrun
    | some l => rfl
  | reboot =>
    obtain ⟨m', hm'⟩ := Option.ne_none_iff_exists'.mp hcommand
    show (o.command daemon).map _ = _
    rw [hm']
    rfl

/-- **What a start task has left without effect comes into effect when the
daemon is launched again**, by a crash or a reboot, if in between there has been
neither another start task nor an edit – and whatever has been before. -/
theorem inEffect_relaunched (fqdn : Text) {roles : Daemon → Bool} (m : Manifests)
    (history : List Event) {daemon : Daemon} {env : Command → Reply}
    (hrole : roles daemon = true)
    (hdone : ((startSpark fqdn
        (run (occur fqdn roles) ⟨m, Server.fresh⟩ history).manifests daemon).exec env
        (run (occur fqdn roles) ⟨m, Server.fresh⟩ history).server).fst = .ok ())
    {rest : List Event} (hrest : ∀ x ∈ rest, x.spares = true) {x : Event}
    (hx : x.relaunches (run (occur fqdn roles) ⟨m, Server.fresh⟩
      (history ++ .task (.start daemon env) :: rest)) daemon) :
    InEffect fqdn (run (occur fqdn roles) ⟨m, Server.fresh⟩
      (history ++ .task (.start daemon env) :: rest ++ [x])) daemon := by
  let o := run (Records.step roles) (Records.fresh m) history
  let o₁ := o.step roles (.task (.start daemon env))
  have hgo : (roles daemon && getsThrough env daemon) = true := by
    rw [hrole, (startSpark_exec fqdn _ daemon env _).1.mp hdone]
    rfl
  have ho₁ : o₁ = { o.rendered daemon with
      launched := Function.update o.launched daemon
        (some ((o.launched daemon).getD ((o.rendered daemon).now daemon))) } := if_pos hgo
  obtain ⟨hm, hcommand, henv⟩ := Records.run_of_spares roles o₁ hrest
  have hrun : run (Records.step roles) (Records.fresh m)
      (history ++ .task (.start daemon env) :: rest)
      = run (Records.step roles) o₁ rest := List.foldl_append
  have h := tracks_run fqdn roles m (history ++ .task (.start daemon env) :: rest)
  rw [hrun] at h
  have hstarted : (run (Records.step roles) o₁ rest).command daemon = some o.manifests := by
    rw [hcommand, ho₁]
    exact Function.update_self _ _ _
  have hlaunched := h.relaunched roles hx (by rw [hstarted]; exact Option.some_ne_none _)
  have hkeep := (Records.step_of_spares roles (run (Records.step roles) o₁ rest)
    (Event.spares_of_relaunches hx)).1
  have hnow : (run (Records.step roles) o₁ rest).now daemon
      = ⟨some o.manifests, some (daemon, o.manifests)⟩ := by
    unfold Records.now
    rw [hstarted, henv, ho₁]
    rfl
  have hmanifests : ((run (Records.step roles) o₁ rest).step roles x).manifests
      = o.manifests := by
    rw [hkeep, hm, ho₁]
    rfl
  have hnext := h.occur roles x
  unfold InEffect
  rw [run_concat, hnext.daemons, hlaunched, hnext.manifests, hnow, hmanifests]
  rfl

/-- The worker that runs on with the memory it was launched with has the other
one after a reboot. -/
theorem inEffect_relaunched_sampleManifests :
    InEffect "node20".toList (run (occur "node20".toList workerOnly)
      ⟨sampleManifests "22g".toList, Server.fresh⟩
      ([.task startWorkers, .task (.editWorker (sampleManifests "44g".toList).worker)]
        ++ .task (.start .worker succeeding) :: [] ++ [.reboot])) .worker :=
  inEffect_relaunched "node20".toList (sampleManifests "22g".toList) _ rfl rfl
    (List.forall_mem_nil _) trivial

/-! ## The memory below a daemon -/

/-- The memory that a manifest gives, for one of its daemons. -/
def memoryOf (daemon : Daemon) (m : Manifests) : Option Text :=
  match daemon with
  | .master => some m.master.workerMem
  | .worker => m.worker.memory

theorem rendered_snd (fqdn : Text) (daemon : Daemon) (m : Manifests) :
    (rendered fqdn m daemon).snd = sparkEnv (memoryOf daemon m) := by
  cases daemon <;> rfl

/-- There is a `spark-env.sh` where something has been started, and what is
launched has read one. -/
structure Records.Complete (o : Records) : Prop where
  command : ∀ daemon, o.command daemon ≠ none → o.env ≠ none
  launched : ∀ daemon l, o.launched daemon = some l → o.env ≠ none ∧ l.env ≠ none

theorem Records.complete_fresh (m : Manifests) : (Records.fresh m).Complete where
  command _ h := absurd rfl h
  launched _ _ h := absurd h.symm (Option.some_ne_none _)

/-- What a daemon would be launched with is no less than what it has been. -/
theorem Records.Complete.update {o : Records} (h : o.Complete) (daemon : Daemon)
    {l : Option Launch} (hl : ∀ l' ∈ l, o.env ≠ none ∧ l'.env ≠ none) :
    Records.Complete { o with launched := Function.update o.launched daemon l } where
  command := h.command
  launched d l' hd := by
    replace hd : Function.update o.launched daemon l d = some l' := hd
    by_cases hne : d = daemon
    · subst hne
      rw [Function.update_self] at hd
      exact hl l' hd
    · rw [Function.update_of_ne hne] at hd
      exact h.launched d l' hd

/-- **One event** keeps the records complete. -/
theorem Records.Complete.step {o : Records} (h : o.Complete) (roles : Daemon → Bool)
    (x : Event) : (o.step roles x).Complete := by
  cases x with
  | crash daemon respawn =>
    refine h.update daemon fun l hl => ?_
    obtain ⟨l', hl', hrespawn⟩ := Option.bind_eq_some_iff.mp hl
    have henv := (h.launched daemon l' hl').1
    cases respawn with
    | true =>
      obtain rfl := Option.some.inj hrespawn
      exact ⟨henv, henv⟩
    | false => exact absurd hrespawn.symm (Option.some_ne_none l)
  | reboot =>
    refine ⟨h.command, fun daemon l hl => ?_⟩
    obtain ⟨m', hm', rfl⟩ := Option.map_eq_some_iff.mp hl
    have henv := h.command daemon (by rw [hm']; exact Option.some_ne_none m')
    exact ⟨henv, henv⟩
  | task x =>
    cases x with
    | stop daemon env =>
      unfold Records.step
      dsimp only
      split
      · exact h.update daemon fun l hl => absurd hl (Option.not_mem_none l)
      · exact h
    | start daemon env =>
      unfold Records.step
      dsimp only
      split
      · have henv : (o.rendered daemon).env ≠ none := Option.some_ne_none _
        have hrendered : (o.rendered daemon).Complete :=
          ⟨fun _ _ => henv, fun d l hl => ⟨henv, (h.launched d l hl).2⟩⟩
        refine hrendered.update daemon fun l hl => ⟨henv, ?_⟩
        obtain rfl := Option.some.inj hl
        cases ho : o.launched daemon with
        | none => exact henv
        | some l' => exact (h.launched daemon l' ho).2
      · exact h
    | editMaster p => exact ⟨h.command, h.launched⟩
    | editWorker p => exact ⟨h.command, h.launched⟩

theorem Records.complete_run (roles : Daemon → Bool) (m : Manifests)
    (history : List Event) :
    (run (Records.step roles) (Records.fresh m) history).Complete :=
  run_invariant (fun _ x _ h => h.step roles x) (Records.complete_fresh m)

/-- The class of a daemon. -/
def Daemon.cls : Daemon → Text
  | master => "org.apache.spark.deploy.master.Master".toList
  | worker => "org.apache.spark.deploy.worker.Worker".toList

/-- **The default memory below a daemon** is that of the last start task on its
host, of a master or of a worker, before the daemon was launched: after any run
of tasks, edits, crashes and reboots, where the daemon runs, and through any
number of programs that are started from it. Only the options of
`conf/java-opts` are behind it. -/
theorem heap_below (fqdn : Text) (roles : Daemon → Bool) (m : Manifests)
    (history : List Event) {daemon : Daemon} {command env : Option Text}
    (hrun : (run (occur fqdn roles) ⟨m, Server.fresh⟩ history).server.node.daemons daemon
      = some (command, env))
    {files : Text → Option Text} (hread : files envPath = env) {e e' : Env}
    (hfirst : e.get sparkEnvLoaded = []) (hconf : e.get "SPARK_CONF_DIR".toList = [])
    (inst : Installation) (ps : List ((Text → Option Text) × Program))
    (h : chain ((sourced files, (Program.sparkClass inst daemon.cls).script)
      :: ps.map fun q => (sourced q.1, q.2.script)) e = some e')
    (inst' : Installation) {cls : Text} (hcls : cls ≠ []) (files' : Text → Option Text) :
    ∃ l role m', (run (Records.step roles) (Records.fresh m) history).launched daemon
        = some l
      ∧ l.env = some (role, m')
      ∧ ∃ e'' opts, (Program.sparkClass inst' cls).script.handsOn (sourced files') e'
          = (if inst'.complete (e'.get "JAVA_HOME".toList) then some e'' else none)
        ∧ e''.get "JAVA_OPTS".toList = opts ++ memoryOptions (heap (ClassKind.of cls)
          (e'.get (memoryOption (ClassKind.of cls))) ((memoryOf role m').getD []))
            ++ inst'.options := by
  have htracks := (tracks_run fqdn roles m history).daemons daemon
  rw [hrun] at htracks
  obtain ⟨l, hl, hsnapshot⟩ := Option.map_eq_some_iff.mp htracks.symm
  have hne := ((Records.complete_run roles m history).launched daemon l hl).2
  obtain ⟨⟨role, m'⟩, henv⟩ := Option.ne_none_iff_exists'.mp hne
  have hfile : files envPath = some (sparkEnv (memoryOf role m')) := by
    have hsnd : l.env.map _ = env := congrArg Prod.snd hsnapshot
    rw [henv] at hsnd
    rw [hread, ← hsnd, ← rendered_snd fqdn]
    rfl
  exact ⟨l, role, m', hl, henv,
    heap_of_chain rfl hfirst hconf hfile ps h inst' hcls files'⟩

/-- Below a worker with this memory. -/
theorem heap_below_sampleManifests :
    ∃ e' l role m', (run (Records.step workerOnly)
        (Records.fresh (sampleManifests "22g".toList)) [.task startWorkers]).launched .worker
        = some l
      ∧ l.env = some (role, m')
      ∧ ∃ e'' opts, (Program.sparkClass sampleInstallation "Main".toList).script.handsOn
          (sourced fun _ => none) e'
          = (if sampleInstallation.complete (e'.get "JAVA_HOME".toList)
            then some e'' else none)
        ∧ e''.get "JAVA_OPTS".toList = opts ++ memoryOptions (heap .other
          (e'.get "SPARK_DRIVER_MEMORY".toList) ((memoryOf role m').getD []))
            ++ sampleInstallation.options := by
  have hsome : (chain [(sourced (filesWith "22g".toList),
      (Program.sparkClass sampleInstallation (Daemon.cls .worker)).script)] (fun _ => none)).isSome = true := by
    decide +kernel
  obtain ⟨e', h⟩ := Option.isSome_iff_exists.mp hsome
  have hcls : "Main".toList ≠ [] := by decide
  exact ⟨e', heap_below "node20".toList workerOnly (sampleManifests "22g".toList)
    [.task startWorkers] rfl (filesWith_envPath _) rfl rfl sampleInstallation [] h
    sampleInstallation hcls _⟩

end Spark
