import ClusterDeployment.ResourceGraph
import ClusterDeployment.SparkServices

/-!
# The Spark catalogs, resource by resource

A start task has been taken so far as one step, which writes the three files of
a daemon and starts or restarts it. What Puppet does is more than that, and in
smaller pieces. It makes a user and his group, copies the distribution, and has
the files and the service among its resources; it takes them in some order that
respects what they require, any of them can fail, and `puppet apply` succeeds
all the same. The restart of a daemon that runs is the one thing that depends on
what has happened to another resource in the same run.

Where no command is cut off this comes to the same, in every order and from
every state (`result_node`), and so every history of edits and tasks leads to
the files and the daemons that the single step leads to (`run_refines`). Where
commands are cut off, the files may be partly those of one manifest and partly
those of another. But no start task launches a daemon with such a mixture: what it has read
is the rendering of one manifest, the one that the task has mirrored to the host
(`launched_whole`). Only Upstart, after a crash or a reboot, takes the files as they
are.
-/

namespace Spark

open Deployment Fab Puppet ResourceGraph Run

/-! ## The resources -/

/-- A file that is rendered from a manifest. -/
inductive SparkFile where
  | sparkEnv
  | upstartConf
  | runner
  deriving DecidableEq

/-- A resource of `spark::user`, `spark` or the class of a daemon. The restart of
the service stands for itself. -/
inductive SparkResource where
  | group
  | user
  | installDir
  | logDir
  | file (f : SparkFile)
  | service
  | restart
  deriving DecidableEq

/-- A host, with what else the classes put on it. -/
structure SparkHost extends Server where
  group : Bool
  user : Bool
  installed : Bool
  logDir : Bool

/-- A host with nothing installed. -/
def SparkHost.fresh : SparkHost := ⟨Server.fresh, false, false, false, false⟩

namespace SparkHost

/-- A file with its content. -/
def put (path content : Text) (h : SparkHost) : SparkHost :=
  { h with node := ⟨Function.update h.node.files path (some content), h.node.daemons⟩ }

/-- A daemon reads its files. -/
def launch (daemon : Daemon) (h : SparkHost) : SparkHost :=
  { h with node := ⟨h.node.files,
      Function.update h.node.daemons daemon (some (reads daemon h.node.files))⟩ }

/-- Upstart can start a job if it has one, and the job has its script. -/
def startable (daemon : Daemon) (h : SparkHost) : Bool :=
  (h.node.files daemon.confPath).isSome && (h.node.files daemon.runnerPath).isSome

end SparkHost

/-- Where a file is. -/
def SparkFile.path (daemon : Daemon) : SparkFile → Text
  | sparkEnv => envPath
  | upstartConf => daemon.confPath
  | runner => daemon.runnerPath

/-- What is in it. -/
def SparkFile.content (fqdn : Text) (m : Manifests) (daemon : Daemon) : SparkFile → Text
  | sparkEnv => (rendered fqdn m daemon).snd
  | upstartConf => Spark.upstartConf daemon
  | runner => (rendered fqdn m daemon).fst

/-- Whether the directory of a file is there. -/
def SparkFile.works (h : SparkHost) : SparkFile → Bool
  | sparkEnv => h.installed
  | upstartConf => true
  | runner => h.installed

namespace SparkResource

/-- What a resource requires. A class comes after the one that it declares or
requires, with all of its resources. -/
def requires : SparkResource → List SparkResource
  | group => []
  | user => [group]
  | installDir => [group, user]
  | logDir => [group, user]
  | file .sparkEnv => [group, user, installDir]
  | file _ => [installDir, logDir, file .sparkEnv]
  | service => [installDir, logDir, file .sparkEnv, file .upstartConf, file .runner]
  | restart => [service, file .upstartConf]

/-- `notify => Service['spark-master']` -/
def trigger : SparkResource → Option SparkResource
  | restart => some (file .upstartConf)
  | _ => none

variable (fqdn : Text) (m : Manifests) (daemon : Daemon)

/-- Whether a resource is in place. A service that does not run is not
restarted. -/
def inSync : SparkResource → SparkHost → Bool
  | group, h => h.group
  | user, h => h.user
  | installDir, h => h.installed
  | logDir, h => h.logDir
  | file f, h => h.node.files (f.path daemon) = some (f.content fqdn m daemon)
  | service, h => (h.node.daemons daemon).isSome
  | restart, h => (h.node.daemons daemon).isNone

/-- Whether its command works. -/
def works : SparkResource → SparkHost → Bool
  | user, h => h.group
  | file f, h => f.works h
  | service, h => h.startable daemon
  | restart, h => h.startable daemon
  | _, _ => true

/-- What the command does. -/
def effect : SparkResource → SparkHost → SparkHost
  | group, h => { h with group := true }
  | user, h => { h with user := true }
  | installDir, h => { h with installed := true }
  | logDir, h => { h with logDir := true }
  | file f, h => h.put (f.path daemon) (f.content fqdn m daemon)
  | service, h => h.launch daemon
  | restart, h => h.launch daemon

end SparkResource

/-- `spark::master` or `spark::worker`, with `spark` and `spark::user` -/
def sparkGraph (fqdn : Text) (m : Manifests) (daemon : Daemon) :
    Resources SparkResource SparkHost where
  resource r := .single (r.inSync fqdn m daemon) (r.works daemon) (r.effect fqdn m daemon)
  requires := SparkResource.requires
  trigger := SparkResource.trigger

/-- A run over the resources, of which the environment lets some be enforced. -/
structure SparkRun where
  order : List SparkResource
  ordered : ∀ fqdn m daemon, (sparkGraph fqdn m daemon).Ordered order
  complete : ∀ r, r ∈ order
  reply : SparkResource → ℕ

/-- The host after a run. -/
def SparkRun.result (r : SparkRun) (fqdn : Text) (m : Manifests) (daemon : Daemon)
    (h : SparkHost) : SparkHost :=
  ((sparkGraph fqdn m daemon).apply r.reply r.order h).state

/-! ## What enforcing a resource does -/

variable {fqdn : Text} {m : Manifests} {daemon : Daemon} {h : SparkHost}

/-- The paths of a daemon's files are different. -/
theorem SparkFile.path_injective (daemon : Daemon) : Function.Injective (path daemon) := by
  intro f f' heq
  have hnd := nodup_paths daemon
  simp only [List.nodup_cons, List.mem_cons, List.not_mem_nil, or_false, not_or] at hnd
  obtain ⟨⟨hconf, hrunner⟩, hother, -⟩ := hnd
  cases f with
  | sparkEnv =>
    cases f' with
    | sparkEnv => rfl
    | upstartConf => exact absurd heq hconf
    | runner => exact absurd heq hrunner
  | upstartConf =>
    cases f' with
    | sparkEnv => exact absurd heq.symm hconf
    | upstartConf => rfl
    | runner => exact absurd heq hother
  | runner =>
    cases f' with
    | sparkEnv => exact absurd heq.symm hrunner
    | upstartConf => exact absurd heq.symm hother
    | runner => rfl

/-- What can be relied on once a resource has come out well. -/
def SparkDone (fqdn : Text) (m : Manifests) (daemon : Daemon) :
    SparkResource → SparkHost → Prop
  | .restart, _ => True
  | r, h => r.inSync fqdn m daemon h = true

namespace SparkDone

/-- A command puts its resource in place, -/
theorem of_effect (r : SparkResource) :
    SparkDone fqdn m daemon r (r.effect fqdn m daemon h) := by
  cases r with
  | file f => exact decide_eq_true (Function.update_self _ _ h.node.files)
  | service =>
    show (Function.update h.node.daemons daemon _ daemon).isSome = true
    rw [Function.update_self]
    rfl
  | restart => trivial
  | _ => rfl

/-- and leaves the others there. -/
theorem effect {d : SparkResource} (r : SparkResource)
    (hd : SparkDone fqdn m daemon d h) :
    SparkDone fqdn m daemon d (r.effect fqdn m daemon h) := by
  by_cases hdr : d = r
  · rw [hdr]
    exact of_effect r
  · cases d with
    | file f =>
      cases r with
      | file f' =>
        have hne : f.path daemon ≠ f'.path daemon := fun heq =>
          hdr (congrArg _ (SparkFile.path_injective daemon heq))
        refine decide_eq_true ?_
        exact (Function.update_of_ne hne _ h.node.files).trans (of_decide_eq_true hd)
      | _ => exact hd
    | service =>
      cases r with
      | restart =>
        show (Function.update h.node.daemons daemon _ daemon).isSome = true
        rw [Function.update_self]
        rfl
      | service => exact absurd rfl hdr
      | _ => exact hd
    | restart => trivial
    | _ =>
      -- what is there already stays
      cases r <;> first | rfl | exact hd

end SparkDone

/-- A resource is left alone, or its command is run. -/
theorem spark_enforce_cases (r : SparkResource) (n : ℕ) :
    (((sparkGraph fqdn m daemon).resource r).enforce n h).2 = h
      ∨ (((sparkGraph fqdn m daemon).resource r).enforce n h).2
        = r.effect fqdn m daemon h :=
  (enforce_single_cases _ _ _ n h).imp_right fun heq => heq.2.2

theorem spark_lawful (fqdn : Text) (m : Manifests) (daemon : Daemon) :
    Lawful (sparkGraph fqdn m daemon) (fun _ => True) (SparkDone fqdn m daemon) where
  quiet r h htrigger := by
    cases r with
    | restart => trivial
    | _ => exact absurd rfl htrigger
  inv _ _ _ _ _ := trivial
  done r n h _ _ hne := by
    refine of_enforce_single (fun hsync => ?_) (SparkDone.of_effect r) hne
    cases r with
    | restart => trivial
    | _ => exact hsync
  keep r n h d _ _ hd := by
    obtain heq | heq := spark_enforce_cases r n
    · rw [heq]
      exact hd
    · rw [heq]
      exact hd.effect r

/-- Upstart can start what has its files. -/
theorem startable_of_done
    (hconf : SparkDone fqdn m daemon (.file .upstartConf) h)
    (hrunner : SparkDone fqdn m daemon (.file .runner) h) :
    h.startable daemon = true := by
  replace hconf : h.node.files daemon.confPath = _ := of_decide_eq_true hconf
  replace hrunner : h.node.files daemon.runnerPath = _ := of_decide_eq_true hrunner
  unfold SparkHost.startable
  rw [hconf, hrunner]
  rfl

/-- Where everything required is in place, a command works. -/
theorem works_of_done {r : SparkResource}
    (hreq : ∀ d, (sparkGraph fqdn m daemon).Requires r d → SparkDone fqdn m daemon d h) :
    r.works daemon h = true := by
  have hdirect : ∀ d ∈ r.requires, SparkDone fqdn m daemon d h :=
    fun d hd => hreq d (.single hd)
  cases r with
  | user => exact hdirect .group List.mem_cons_self
  | file f =>
    cases f with
    | sparkEnv => exact hdirect .installDir (by decide)
    | upstartConf => rfl
    | runner => exact hdirect .installDir (by decide)
  | service =>
    exact startable_of_done (hdirect (.file .upstartConf) (by decide))
      (hdirect (.file .runner) (by decide))
  | restart =>
    have hservice : SparkResource.service ∈ SparkResource.requires .restart := by decide
    have hrunner : SparkResource.file .runner ∈ SparkResource.requires .service := by decide
    exact startable_of_done (hdirect (.file .upstartConf) (by decide))
      (hreq (.file .runner) (.tail (.single hservice) hrunner))
  | _ => rfl

/-- **Where a daemon is launched, its files are those of the manifest.** -/
theorem reads_of_requires {r : SparkResource} (hr : r = .service ∨ r = .restart)
    (hreq : ∀ d, (sparkGraph fqdn m daemon).Requires r d → SparkDone fqdn m daemon d h) :
    reads daemon h.node.files = snapshot fqdn daemon m := by
  have hfile : ∀ f, SparkResource.file f ∈ SparkResource.requires .service →
      h.node.files (f.path daemon) = some (f.content fqdn m daemon) := by
    intro f hf
    refine of_decide_eq_true (hreq (.file f) ?_)
    obtain rfl | rfl := hr
    · exact .single hf
    · have hservice : SparkResource.service ∈ SparkResource.requires .restart := by decide
      exact .tail (.single hservice) hf
  exact Prod.ext (hfile .runner (by decide)) (hfile .sparkEnv (by decide))

/-! ## What a run does -/

variable {r : SparkRun}

/-- **A run leaves a daemon as it is, or launches it with the manifest**,
whatever fails. -/
theorem SparkRun.daemons_result (r : SparkRun) (fqdn : Text) (m : Manifests)
    (daemon : Daemon) (h : SparkHost) :
    (r.result fqdn m daemon h).node.daemons daemon = h.node.daemons daemon
      ∨ (r.result fqdn m daemon h).node.daemons daemon = some (snapshot fqdn daemon m) := by
  refine ((spark_lawful fqdn m daemon).induction r.reply (r.ordered fqdn m daemon) trivial
    (P := fun h' => h'.node.daemons daemon = h.node.daemons daemon
      ∨ h'.node.daemons daemon = some (snapshot fqdn daemon m))
    (.inl rfl) fun x _ h' _ hreq _ hP => ?_).2.1
  obtain heq | heq := spark_enforce_cases x (r.reply x)
  · rw [heq]
    exact hP
  rw [heq]
  by_cases hx : x = .service ∨ x = .restart
  · refine .inr ?_
    have hlaunch : x.effect fqdn m daemon h' = h'.launch daemon := by
      obtain rfl | rfl := hx <;> rfl
    rw [hlaunch, ← reads_of_requires hx hreq]
    exact Function.update_self daemon _ h'.node.daemons
  · cases x with
    | service => exact absurd (.inl rfl) hx
    | restart => exact absurd (.inr rfl) hx
    | _ => exact hP

/-- What no command touches: other daemons, other files, what has been
mirrored. -/
theorem SparkRun.other_result (r : SparkRun) (fqdn : Text) (m : Manifests)
    (daemon : Daemon) (h : SparkHost) :
    (r.result fqdn m daemon h).deployed = h.deployed
      ∧ (∀ d, d ≠ daemon →
        (r.result fqdn m daemon h).node.daemons d = h.node.daemons d)
      ∧ ∀ p, (∀ f, p ≠ SparkFile.path daemon f) →
        (r.result fqdn m daemon h).node.files p = h.node.files p := by
  refine ((spark_lawful fqdn m daemon).induction r.reply (r.ordered fqdn m daemon) trivial
    (P := fun h' => h'.deployed = h.deployed
      ∧ (∀ d, d ≠ daemon → h'.node.daemons d = h.node.daemons d)
      ∧ ∀ p, (∀ f, p ≠ SparkFile.path daemon f) → h'.node.files p = h.node.files p)
    ⟨rfl, fun _ _ => rfl, fun _ _ => rfl⟩ fun x _ h' _ _ _ hP => ?_).2.1
  obtain heq | heq := spark_enforce_cases x (r.reply x)
  · rw [heq]
    exact hP
  rw [heq]
  obtain ⟨hdeployed, hdaemons, hfiles⟩ := hP
  cases x with
  | file f =>
    refine ⟨hdeployed, hdaemons, fun p hp => ?_⟩
    exact (Function.update_of_ne (hp f) _ h'.node.files).trans (hfiles p hp)
  | service =>
    refine ⟨hdeployed, fun d hd => ?_, hfiles⟩
    exact (Function.update_of_ne hd _ h'.node.daemons).trans (hdaemons d hd)
  | restart =>
    refine ⟨hdeployed, fun d hd => ?_, hfiles⟩
    exact (Function.update_of_ne hd _ h'.node.daemons).trans (hdaemons d hd)
  | _ => exact ⟨hdeployed, hdaemons, hfiles⟩

/-- A daemon that runs goes on running as it is, but for the restart. -/
theorem daemons_enforce_of_ne {x : SparkResource} (hx : x ≠ .restart) (n : ℕ)
    {a : Option Text × Option Text} (ha : h.node.daemons daemon = some a) :
    (((sparkGraph fqdn m daemon).resource x).enforce n h).2.node.daemons daemon = some a := by
  by_cases hservice : x = .service
  · have hsync : SparkResource.inSync fqdn m daemon .service h = true := by
      show (h.node.daemons daemon).isSome = true
      rw [ha]
      rfl
    subst hservice
    rw [enforce_of_inSync hsync]
    exact ha
  · obtain heq | heq := spark_enforce_cases x n
    · rw [heq]
      exact ha
    · rw [heq]
      cases x with
      | service => exact absurd rfl hservice
      | restart => exact absurd rfl hx
      | _ => exact ha

/-- A run in which no resource is cut off. -/
def SparkRun.Whole (r : SparkRun) : Prop := ∀ x, r.reply x ≠ 0

namespace SparkRun

/-- No resource fails in it. -/
theorem Whole.enforce_ne_failed (hr : r.Whole) (x : SparkResource)
    (hreq : ∀ d, (sparkGraph fqdn m daemon).Requires x d → SparkDone fqdn m daemon d h) :
    (((sparkGraph fqdn m daemon).resource x).enforce (r.reply x) h).1 ≠ .failed :=
  enforce_single_ok (hr x) (works_of_done hreq)

/-- Everything is in place after it. -/
theorem Whole.done (hr : r.Whole) (x : SparkResource) :
    SparkDone fqdn m daemon x (r.result fqdn m daemon h) := by
  have hl := spark_lawful fqdn m daemon
  have ho := r.ordered fqdn m daemon
  refine (hl.apply r.reply ho trivial).2 x ?_
  refine (hl.apply_ok (P := fun _ => True) r.reply ho trivial trivial
    fun y _ _ _ hreq _ => ⟨hr.enforce_ne_failed y hreq, trivial⟩).2 x (r.complete x)

/-- A daemon that runs is left as it is, if its job is in place. -/
theorem daemons_result_of_running (r : SparkRun) {a : Option Text × Option Text}
    (ha : h.node.daemons daemon = some a)
    (hconf : h.node.files daemon.confPath = some (upstartConf daemon)) :
    (r.result fqdn m daemon h).node.daemons daemon = some a := by
  have hl := spark_lawful fqdn m daemon
  have ho := r.ordered fqdn m daemon
  have hdone : SparkDone fqdn m daemon (.file .upstartConf) h := decide_eq_true hconf
  have hnot := hl.not_changed_of_done r.reply ho trivial hdone fun _ hd => hd
  refine (hl.induction r.reply ho trivial (P := fun h' => h'.node.daemons daemon = some a)
    ha fun x _ h' _ _ htrigger hP => ?_).2.1
  refine daemons_enforce_of_ne (fun hx => ?_) _ hP
  subst hx
  exact hnot (htrigger _ rfl)

/-- If the job is not in place, it is restarted. -/
theorem Whole.daemons_result_of_notified (hr : r.Whole)
    (hconf : h.node.files daemon.confPath ≠ some (upstartConf daemon)) :
    (r.result fqdn m daemon h).node.daemons daemon = some (snapshot fqdn daemon m) := by
  have htrigger : SparkResource.file .upstartConf ∈ SparkResource.requires .restart := by decide
  refine (spark_lawful fqdn m daemon).of_notified r.reply (r.ordered fqdn m daemon) trivial
    (r.complete .restart) rfl htrigger rfl
    (fun x _ _ _ hreq => hr.enforce_ne_failed x hreq)
    (O := fun h' => h'.node.files daemon.confPath ≠ some (upstartConf daemon))
    (Q := fun h' => h'.node.daemons daemon = some (snapshot fqdn daemon m))
    hconf (fun _ hout => decide_eq_false hout) ?_ ?_
    fun x n _ hx hq => daemons_enforce_of_ne hx n hq
  · -- no other resource writes the file
    intro x n h' hx hout
    obtain heq | heq := spark_enforce_cases x n
    · rw [heq]
      exact hout
    · rw [heq]
      cases x with
      | file f =>
        have hne : SparkFile.upstartConf.path daemon ≠ f.path daemon := fun hpath =>
          hx (congrArg _ (SparkFile.path_injective daemon hpath)).symm
        show Function.update h'.node.files _ _ (SparkFile.upstartConf.path daemon) ≠ _
        rw [Function.update_of_ne hne]
        exact hout
      | _ => exact hout
  · -- the daemon runs by then, and reads its files again
    intro h' hreq
    have hservice : SparkResource.service ∈ SparkResource.requires .restart := by decide
    have hrun : (h'.node.daemons daemon).isSome = true := hreq .service (.single hservice)
    have hsync : ¬ SparkResource.inSync fqdn m daemon .restart h' = true := fun hnone =>
      absurd (Option.isNone_iff_eq_none.mp hnone) (Option.isSome_iff_ne_none.mp hrun)
    have hlaunch : (((sparkGraph fqdn m daemon).resource .restart).enforce
        (r.reply .restart) h').2 = h'.launch daemon := by
      show ((Resource.single _ _ _).enforce _ h').2 = _
      rw [enforce_single, if_neg hsync, if_pos ⟨hr .restart, works_of_done hreq⟩]
      rfl
    rw [hlaunch, ← reads_of_requires (.inr rfl) hreq]
    exact Function.update_self daemon _ h'.node.daemons

/-- A file of the catalog. -/
theorem exists_mem_catalogOf (fqdn : Text) (m : Manifests) (daemon : Daemon)
    (f : SparkFile) : ∃ x ∈ (catalogOf fqdn m daemon).files,
      x.path = f.path daemon ∧ x.content = f.content fqdn m daemon := by
  rw [catalogOf_files]
  cases f with
  | sparkEnv => exact ⟨_, List.mem_cons_self, rfl, rfl⟩
  | upstartConf => exact ⟨_, List.mem_cons_of_mem _ List.mem_cons_self, rfl, rfl⟩
  | runner =>
    exact ⟨_, List.mem_cons_of_mem _ (List.mem_cons_of_mem _ List.mem_cons_self), rfl, rfl⟩

/-- The files are those of the catalog, and the others are as they were. -/
theorem Whole.files_result (hr : r.Whole) :
    (r.result fqdn m daemon h).node.files
      = ((catalogOf fqdn m daemon).apply reads h.node).files := by
  funext p
  by_cases hp : ∃ f, p = SparkFile.path daemon f
  · obtain ⟨f, rfl⟩ := hp
    obtain ⟨x, hx, hpath, hcontent⟩ := exists_mem_catalogOf fqdn m daemon f
    have hdone : SparkDone fqdn m daemon (.file f) (r.result fqdn m daemon h) := hr.done _
    rw [← hpath, apply_files_of_mem hx, hcontent, hpath]
    exact of_decide_eq_true hdone
  · rw [(r.other_result fqdn m daemon h).2.2 p fun f hf => hp ⟨f, hf⟩,
      apply_files_of_not_mem]
    rw [catalogOf_files]
    show p ∉ [envPath, daemon.confPath, daemon.runnerPath]
    simp only [List.mem_cons, List.not_mem_nil, or_false, not_or]
    exact ⟨fun heq => hp ⟨.sparkEnv, heq⟩, fun heq => hp ⟨.upstartConf, heq⟩,
      fun heq => hp ⟨.runner, heq⟩⟩

/-- The daemon runs, and has been launched if it did not run or if its job was not
in place. -/
theorem Whole.daemons_result (hr : r.Whole) :
    (r.result fqdn m daemon h).node.daemons daemon
      = ((catalogOf fqdn m daemon).apply reads h.node).daemons daemon := by
  have hservice := catalogOf_service fqdn m daemon
  have hread := (apply_files fqdn m daemon h.node).1
  cases ha : h.node.daemons daemon with
  | none =>
    have hdone : SparkDone fqdn m daemon .service (r.result fqdn m daemon h) := hr.done _
    rw [apply_daemons_of_stopped hservice ha, hread]
    refine (SparkRun.daemons_result r fqdn m daemon h).resolve_left fun hnone => ?_
    exact Option.isSome_iff_ne_none.mp hdone (hnone.trans ha)
  | some a =>
    by_cases hconf : h.node.files daemon.confPath = some (upstartConf daemon)
    · rw [r.daemons_result_of_running ha hconf]
      refine (apply_daemons_of_running hservice ha fun x hx hnotify => ?_).symm
      rw [catalogOf_files] at hx
      simp only [List.mem_cons, List.not_mem_nil, or_false] at hx
      obtain rfl | rfl | rfl := hx
      · exact absurd hnotify.symm (Option.some_ne_none daemon)
      · exact hconf
      · exact absurd hnotify.symm (Option.some_ne_none daemon)
    · have hmem : ⟨daemon.confPath, upstartConf daemon, some daemon⟩
          ∈ (catalogOf fqdn m daemon).files := by
        rw [catalogOf_files]
        exact List.mem_cons_of_mem _ List.mem_cons_self
      rw [hr.daemons_result_of_notified hconf,
        apply_daemons_of_notified hservice ha hmem rfl hconf, hread]

/-- **A run in which nothing is cut off** has the effect of the single step, in
every order and from every state. -/
theorem Whole.node_result (hr : r.Whole) :
    (r.result fqdn m daemon h).node
      = (catalogOf fqdn m daemon).apply reads h.node := by
  have hdaemons : (r.result fqdn m daemon h).node.daemons
      = ((catalogOf fqdn m daemon).apply reads h.node).daemons := by
    funext d
    by_cases hd : d = daemon
    · rw [hd]
      exact hr.daemons_result
    · rw [(r.other_result fqdn m daemon h).2.1 d hd, apply_daemons_of_ne]
      rwa [catalogOf_service]
  exact congrArg₂ Node.mk hr.files_result hdaemons

end SparkRun

/-! ## The tasks -/

/-- The host once Puppet has gone over the resources of a manifest, as it has
been mirrored. -/
def SparkHost.applied (fqdn : Text) (daemon : Daemon) (r : SparkRun) (h : SparkHost) :
    Option SparkHost :=
  h.deployed.map fun m => r.result fqdn m daemon h

/-- `initctl stop` -/
def SparkHost.stopped (daemon : Daemon) (h : SparkHost) : Option SparkHost :=
  (h.toServer.stopped daemon).map fun server => { h with toServer := server }

/-- The start task of a daemon. -/
def startTask (fqdn : Text) (m : Manifests) (daemon : Daemon) (r : SparkRun) :
    Fab Command SparkHost Unit := do
  rsync (fun h => some { h with deployed := some m })
  puppetApply daemon.manifest (SparkHost.applied fqdn daemon r)

/-- The stop task of a daemon. -/
def stopTask (daemon : Daemon) : Fab Command SparkHost Unit :=
  warnOnly (stopCommand daemon) (SparkHost.stopped daemon)

/-- The manifests as they are edited, and one host. -/
structure SparkState where
  manifests : Manifests
  host : SparkHost

/-- **What happens to a host**: what an operator does, with a run of Puppet for a
start task; a daemon that ends, or that Upstart starts again, after a crash or a
reboot; and changes of anything else by others, who leave the daemons alone. -/
inductive HostEvent where
  | task (x : Step) (r : SparkRun)
  | ended (daemon : Daemon)
  | relaunched (daemon : Daemon)
  | changed (h : SparkHost)

/-- The state after that, for a host with these roles. -/
def SparkState.step (fqdn : Text) (roles : Daemon → Bool) (st : SparkState) :
    HostEvent → SparkState
  | .task (.editMaster p) _ =>
    { st with manifests := st.manifests.edit (.editMaster p) }
  | .task (.editWorker p) _ =>
    { st with manifests := st.manifests.edit (.editWorker p) }
  | .task (.start daemon env) r =>
    if roles daemon then
      { st with host := ((startTask fqdn st.manifests daemon r).exec env st.host).snd.world }
    else st
  | .task (.stop daemon env) _ =>
    if roles daemon then
      { st with host := ((stopTask daemon).exec env st.host).snd.world }
    else st
  | .ended daemon => { st with host := { st.host with node := st.host.node.stop daemon } }
  | .relaunched daemon =>
    if st.host.startable daemon then { st with host := st.host.launch daemon }
    else { st with host := { st.host with node := st.host.node.stop daemon } }
  | .changed h =>
    { st with host := { h with node := ⟨h.node.files, st.host.node.daemons⟩ } }

/-- **The start task**, with whatever Puppet does. -/
theorem startTask_exec (fqdn : Text) (m : Manifests) (daemon : Daemon) (r : SparkRun)
    (env : Command → Reply) (h : SparkHost) :
    ∃ deployed, ((startTask fqdn m daemon r).exec env h).snd.world
      = if getsThrough env daemon then
          r.result fqdn m daemon { h with deployed := deployed }
        else { h with deployed := deployed } := by
  unfold startTask rsync puppetApply getsThrough exec
  rw [bind_apply, issue_apply]
  cases hr : (env rsyncCommand).ok with
  | false => exact ⟨h.deployed, rfl⟩
  | true =>
    refine ⟨some m, ?_⟩
    rw [if_pos rfl]
    dsimp only
    cases hp : (env (puppetCommand daemon.manifest)).ok with
    | false =>
      rw [issue_of_not_ok hp]
      rfl
    | true =>
      have hw : SparkHost.applied fqdn daemon r { h with deployed := some m }
          = some (r.result fqdn m daemon { h with deployed := some m }) := rfl
      rw [issue_of_ok hp hw]
      rfl

/-- A daemon that does not run is as good as stopped. -/
theorem node_getD_stopped (daemon : Daemon) (h : SparkHost) :
    ((h.stopped daemon).getD h).node = h.node.stop daemon := by
  unfold SparkHost.stopped Server.stopped
  by_cases hd : h.node.daemons daemon = none
  · rw [if_pos hd]
    unfold Node.stop
    rw [← hd, Function.update_eq_self]
    rfl
  · rw [if_neg hd]
    rfl

/-- **The stop task** stops its daemon, if the command runs. -/
theorem stopTask_exec (daemon : Daemon) (env : Command → Reply) (h : SparkHost) :
    ((stopTask daemon).exec env h).snd.world.node
      = if (env (stopCommand daemon)).ok then h.node.stop daemon else h.node := by
  unfold stopTask exec
  rw [world_of_warnOnly]
  cases (env (stopCommand daemon)).ok with
  | false => rfl
  | true => exact node_getD_stopped daemon h

/-! ## Every history -/

variable {roles : Daemon → Bool} {st : SparkState}

/-- A start task leaves the daemons as they are, or launches its own with the
manifest as it is edited. -/
theorem SparkState.daemons_start (fqdn : Text) (roles : Daemon → Bool) (st : SparkState)
    (daemon : Daemon) (env : Command → Reply) (r : SparkRun) (d : Daemon) :
    (st.step fqdn roles (.task (.start daemon env) r)).host.node.daemons d
        = st.host.node.daemons d
      ∨ d = daemon ∧ roles daemon = true ∧ getsThrough env daemon = true
        ∧ (st.step fqdn roles (.task (.start daemon env) r)).host.node.daemons d
          = some (snapshot fqdn daemon st.manifests) := by
  have hstep : st.step fqdn roles (.task (.start daemon env) r) = if roles daemon then
      { st with host := ((startTask fqdn st.manifests daemon r).exec env st.host).snd.world }
      else st := rfl
  rw [hstep]
  cases hrole : roles daemon with
  | false => exact .inl rfl
  | true =>
    obtain ⟨deployed, hworld⟩ := startTask_exec fqdn st.manifests daemon r env st.host
    rw [if_pos rfl, hworld]
    cases hgo : getsThrough env daemon with
    | false => exact .inl rfl
    | true =>
      rw [if_pos rfl]
      by_cases hd : d = daemon
      · subst hd
        refine (r.daemons_result fqdn st.manifests d _).imp_right fun hlaunched => ?_
        exact ⟨rfl, rfl, rfl, hlaunched⟩
      · exact .inl ((r.other_result fqdn st.manifests daemon _).2.1 d hd)

/-- A stop task ends its daemon, if it gets at it. -/
theorem SparkState.node_stop (fqdn : Text) (roles : Daemon → Bool) (st : SparkState)
    (daemon : Daemon) (env : Command → Reply) (r : SparkRun) :
    (st.step fqdn roles (.task (.stop daemon env) r)).host.node
      = if roles daemon && (env (stopCommand daemon)).ok then st.host.node.stop daemon
        else st.host.node := by
  show (if roles daemon then _ else st : SparkState).host.node = _
  cases roles daemon with
  | false => rfl
  | true => exact stopTask_exec daemon env st.host

/-- What ends the process of a daemon, on a host with these roles. -/
def HostEvent.Ends (roles : Daemon → Bool) (daemon : Daemon) : HostEvent → Prop
  | .task (.stop d env) _ => d = daemon ∧ (roles d && (env (stopCommand d)).ok) = true
  | .ended d => d = daemon
  | .relaunched d => d = daemon
  | _ => False

/-- If the daemon runs after it, Upstart has started it with the files as they
are. -/
theorem HostEvent.Ends.daemons {e : HostEvent} (h : e.Ends roles daemon)
    {fqdn : Text} {st : SparkState} {a : Option Text × Option Text}
    (ha : (st.step fqdn roles e).host.node.daemons daemon = some a) :
    e = .relaunched daemon ∧ a = reads daemon st.host.node.files := by
  have hstop : (st.host.node.stop daemon).daemons daemon = none := by
    unfold Node.stop
    exact Function.update_self daemon none st.host.node.daemons
  cases e with
  | task x r =>
    cases x with
    | stop d env =>
      obtain ⟨rfl, hgo⟩ := h
      rw [st.node_stop, if_pos hgo, hstop] at ha
      exact absurd ha.symm (Option.some_ne_none a)
    | _ => exact h.elim
  | ended d =>
    obtain rfl : d = daemon := h
    exact absurd (hstop.symm.trans ha).symm (Option.some_ne_none a)
  | relaunched d =>
    obtain rfl : d = daemon := h
    replace ha : (if st.host.startable d then _ else _ : SparkState).host.node.daemons d
      = some a := ha
    split at ha
    · replace ha : Function.update st.host.node.daemons d _ d = some a := ha
      rw [Function.update_self] at ha
      exact ⟨rfl, (Option.some.inj ha).symm⟩
    · exact absurd (hstop.symm.trans ha).symm (Option.some_ne_none a)
  | changed h' => exact h.elim

/-- What neither ends a daemon nor is its start task leaves it as it is. -/
theorem SparkState.daemons_step (fqdn : Text) (st : SparkState) {e : HostEvent}
    (h : ¬ e.Ends roles daemon) (hstart : ∀ env r, e ≠ .task (.start daemon env) r) :
    (st.step fqdn roles e).host.node.daemons daemon = st.host.node.daemons daemon := by
  cases e with
  | task x r =>
    cases x with
    | start d env =>
      refine (st.daemons_start fqdn roles d env r daemon).resolve_right fun hlaunched => ?_
      obtain ⟨rfl, -⟩ := hlaunched
      exact hstart env r rfl
    | stop d env =>
      rw [st.node_stop]
      by_cases hgo : (roles d && (env (stopCommand d)).ok) = true
      · have hne : daemon ≠ d := fun heq => h ⟨heq.symm, hgo⟩
        rw [if_pos hgo]
        exact Function.update_of_ne hne _ _
      · rw [if_neg hgo]
    | _ => rfl
  | ended d =>
    have hne : daemon ≠ d := fun heq => h heq.symm
    exact Function.update_of_ne hne _ _
  | relaunched d =>
    have hne : daemon ≠ d := fun heq => h heq.symm
    show (if st.host.startable d then _ else _ : SparkState).host.node.daemons daemon = _
    split
    · exact Function.update_of_ne hne _ _
    · exact Function.update_of_ne hne _ _
  | changed h' => rfl

/-- **What a daemon has been launched with**, and not ended since: by a start task
with the rendering of the manifests as they were edited then, or by Upstart with the
files as they were then. -/
def LaunchedWith (fqdn : Text) (roles : Daemon → Bool) (st : SparkState) (daemon : Daemon)
    (a : Option Text × Option Text) (history : List HostEvent) : Prop :=
  ∃ before e after, history = before ++ e :: after ∧ (∀ x ∈ after, ¬ x.Ends roles daemon)
    ∧ ((∃ env r, e = .task (.start daemon env) r ∧ roles daemon = true
        ∧ getsThrough env daemon = true
        ∧ a = snapshot fqdn daemon (run (SparkState.step fqdn roles) st before).manifests)
      ∨ e = .relaunched daemon
        ∧ a = reads daemon (run (SparkState.step fqdn roles) st before).host.node.files)

theorem LaunchedWith.concat {a : Option Text × Option Text} {history : List HostEvent}
    (h : LaunchedWith fqdn roles st daemon a history) {e : HostEvent}
    (he : ¬ e.Ends roles daemon) :
    LaunchedWith fqdn roles st daemon a (history ++ [e]) := by
  obtain ⟨before, e', after, rfl, hafter, hread⟩ := h
  refine ⟨before, e', after ++ [e], ?_, fun x hx => ?_, hread⟩
  · rw [List.append_assoc]
    rfl
  · obtain hx | hx := List.mem_append.mp hx
    · exact hafter x hx
    · rwa [List.mem_singleton.mp hx]

/-- **A start task launches a daemon with one manifest**, whole: after any history of
edits and tasks, with Puppet taking the resources in any order and any of them
failing, of crashes and reboots, and of changes by others. Only Upstart takes the
files as it finds them. -/
theorem launched_whole (fqdn : Text) (roles : Daemon → Bool) (m : Manifests)
    (history : List HostEvent) {daemon : Daemon} {a : Option Text × Option Text}
    (ha : (run (SparkState.step fqdn roles) ⟨m, SparkHost.fresh⟩
      history).host.node.daemons daemon = some a) :
    LaunchedWith fqdn roles ⟨m, SparkHost.fresh⟩ daemon a history := by
  induction history using List.reverseRecOn with
  | nil => exact absurd ha.symm (Option.some_ne_none a)
  | append_singleton history e ih =>
    rw [run_concat] at ha
    by_cases hends : e.Ends roles daemon
    · refine ⟨history, e, [], rfl, fun x hx => ?_, .inr (hends.daemons ha)⟩
      exact absurd hx List.not_mem_nil
    by_cases hstart : ∃ env r, e = .task (.start daemon env) r
    · obtain ⟨env, r, rfl⟩ := hstart
      obtain hsame | ⟨-, hrole, hgo, hlaunched⟩ :=
        SparkState.daemons_start fqdn roles _ daemon env r daemon
      · exact (ih (hsame.symm.trans ha)).concat hends
      · refine ⟨history, _, [], rfl, fun x hx => ?_, .inl ⟨env, r, rfl, hrole, hgo, ?_⟩⟩
        · exact absurd hx List.not_mem_nil
        · exact Option.some.inj (ha.symm.trans hlaunched)
    · rw [SparkState.daemons_step fqdn _ hends fun env r heq => hstart ⟨env, r, heq⟩] at ha
      exact (ih ha).concat hends

/-- A run in the order in which the resources are written down, of which these are
cut off. -/
def cutOff (rs : List SparkResource) : SparkRun where
  order := [.group, .user, .installDir, .file .sparkEnv, .logDir, .file .upstartConf,
    .file .runner, .service, .restart]
  ordered := fun _ _ _ => ordered_iff.mpr rfl
  complete := fun r => by
    cases r with
    | file f => cases f <;> decide
    | _ => decide
  reply := fun r => if r ∈ rs then 0 else 1

/-- A worker is started, and started again after an edit, by a run that does not get
to its command line. -/
def cutOffRunner : List HostEvent :=
  [.task startWorkers (cutOff []), .task (.editWorker (sampleManifests "44g".toList).worker)
    (cutOff []), .task startWorkers (cutOff [.file .runner])]

/-- The worker runs on with the manifest it was launched with. -/
theorem launched_whole_cutOffRunner :
    LaunchedWith "node20".toList workerOnly ⟨sampleManifests "22g".toList, SparkHost.fresh⟩
      .worker (snapshot "node20".toList .worker (sampleManifests "22g".toList))
      cutOffRunner :=
  launched_whole _ _ _ _ (by decide +kernel)

-- its files are a mixture by then, which it reads when it is started again
example :
    (run (SparkState.step "node20".toList workerOnly)
      ⟨sampleManifests "22g".toList, SparkHost.fresh⟩
      (cutOffRunner ++ [.relaunched .worker])).host.node.daemons .worker
      = some (some (workerCommand (sampleManifests "22g".toList).worker),
        some (sparkEnv (some "44g".toList))) := by decide +kernel

/-! ## The single step -/

/-- The state without what else is on the host. -/
def SparkState.toState (st : SparkState) : State := ⟨st.manifests, st.host.toServer⟩

/-- Two states agree on the manifests, the files and the daemons. -/
structure SparkState.Agrees (st : SparkState) (st' : State) : Prop where
  manifests : st.manifests = st'.manifests
  node : st.host.node = st'.server.node

/-- No task edits the manifests. -/
theorem SparkState.manifests_task (fqdn : Text) (roles : Daemon → Bool) (st : SparkState)
    (daemon : Daemon) (env : Command → Reply) (r : SparkRun) :
    (st.step fqdn roles (.task (.start daemon env) r)).manifests = st.manifests
      ∧ (st.step fqdn roles (.task (.stop daemon env) r)).manifests = st.manifests := by
  show (if roles daemon then _ else st : SparkState).manifests = _
    ∧ (if roles daemon then _ else st : SparkState).manifests = _
  cases roles daemon with
  | false => exact ⟨rfl, rfl⟩
  | true => exact ⟨rfl, rfl⟩

/-- A start task in which nothing is cut off. -/
theorem SparkState.node_start (fqdn : Text) (roles : Daemon → Bool) (st : SparkState)
    (daemon : Daemon) (env : Command → Reply) {r : SparkRun} (hr : r.Whole) :
    (st.step fqdn roles (.task (.start daemon env) r)).host.node
      = if roles daemon && getsThrough env daemon then
          (catalogOf fqdn st.manifests daemon).apply reads st.host.node
        else st.host.node := by
  show (if roles daemon then _ else st : SparkState).host.node = _
  cases roles daemon with
  | false => rfl
  | true =>
    obtain ⟨deployed, hworld⟩ := startTask_exec fqdn st.manifests daemon r env st.host
    rw [if_pos rfl, Bool.true_and]
    dsimp only
    rw [hworld]
    cases getsThrough env daemon with
    | false => rfl
    | true => exact hr.node_result

/-- One step. -/
theorem SparkState.Agrees.step {st' : State} (h : st.Agrees st') (x : Step)
    {r : SparkRun} (hr : r.Whole) :
    (st.step fqdn roles (.task x r)).Agrees (Spark.step fqdn roles st' x) := by
  cases x with
  | editMaster p => exact ⟨congrArg (fun m => m.edit (.editMaster p)) h.manifests, h.node⟩
  | editWorker p => exact ⟨congrArg (fun m => m.edit (.editWorker p)) h.manifests, h.node⟩
  | start daemon env =>
    obtain ⟨hmanifests, hnode⟩ := step_start fqdn roles st' daemon env
    refine ⟨(st.manifests_task fqdn roles daemon env r).1.trans ?_, ?_⟩
    · exact h.manifests.trans hmanifests.symm
    · rw [hnode, st.node_start fqdn roles daemon env hr, h.manifests, h.node]
  | stop daemon env =>
    obtain ⟨hmanifests, hnode⟩ := step_stop fqdn roles st' daemon env
    refine ⟨(st.manifests_task fqdn roles daemon env r).2.trans ?_, ?_⟩
    · exact h.manifests.trans hmanifests.symm
    · rw [hnode, st.node_stop, h.node]

/-- **A run in which nothing is cut off is the single step**: every history of edits
and tasks, with Puppet taking the resources in any order, leads to the files and the
daemons that the steps lead to which take a catalog as a whole. -/
theorem run_refines (fqdn : Text) (roles : Daemon → Bool) (st : SparkState)
    (history : List (Step × SparkRun)) (hwhole : ∀ x ∈ history, x.2.Whole) :
    (run (SparkState.step fqdn roles) st (history.map fun x => .task x.1 x.2)).Agrees
      (run (step fqdn roles) st.toState (history.map Prod.fst)) := by
  unfold run
  rw [List.foldl_map, List.foldl_map]
  exact run_simulation (fun _ _ x hx h => h.step x.1 (hwhole x hx)) ⟨rfl, rfl⟩

/-- The worker is started, and again after an edit. -/
theorem run_refines_edited :
    (run (SparkState.step "node20".toList workerOnly)
        ⟨sampleManifests "22g".toList, SparkHost.fresh⟩
        [.task startWorkers (cutOff []),
          .task (.editWorker (sampleManifests "44g".toList).worker) (cutOff []),
          .task startWorkers (cutOff [])]).Agrees
      (run (step "node20".toList workerOnly) ⟨sampleManifests "22g".toList, Server.fresh⟩
        [startWorkers, .editWorker (sampleManifests "44g".toList).worker, startWorkers]) :=
  run_refines _ _ ⟨_, SparkHost.fresh⟩ [(startWorkers, cutOff []),
    (.editWorker (sampleManifests "44g".toList).worker, cutOff []),
    (startWorkers, cutOff [])] (by
      intro x hx y
      simp only [List.mem_cons, List.not_mem_nil, or_false] at hx
      obtain rfl | rfl | rfl := hx <;> exact Nat.one_ne_zero)

end Spark
