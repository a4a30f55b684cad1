import ClusterDeployment.HdfsMaster

/-!
# The workers of HDFS

A worker keeps its blocks on a number of mounts. The class makes the directories
that this takes, on each of the mounts, and the services require all of them: a
DataNode is not to come up with a disk missing. The mounts themselves are up to
the operator.

A directory is made in its parent, and nothing makes that unless it is declared
as well. This is why the path of the blocks on a mount is assumed to have two
levels: with one more, there is a parent that nobody declares. What it comes to
can be said of all the directories at once. A complete run brings the DataNode
up exactly if each of them is there, or has a parent that is there or is
declared – and else no run does, in any order and as often as it is repeated
(`datanode_up_iff`).
-/

namespace Hdfs

open ResourceGraph Run

/-! ## The resources -/

/-- The packages of a worker. -/
inductive Package where
  | hadoopClient
  | datanode
  | nodemanager
  | mapreduce
  | tasktracker
  deriving DecidableEq

/-- What the classes of a worker declare. -/
inductive WorkerResource where
  | package (p : Package)
  | configFile (f : ConfigFile)
  | folder (p : Place)
  | service (s : Service)
  deriving DecidableEq

/-- A directory on a mount, as it is declared. -/
structure Folder where
  place : Place
  attr : Attr

/-- The packages that a service of a worker requires. -/
def Service.packages : Service → List Package
  | datanode => [.datanode]
  | nodemanager => [.nodemanager, .mapreduce]
  | tasktracker => [.tasktracker]
  | _ => []

/-- **A host of a worker**, with the directories of its disks that have been there
or that Puppet has made. -/
@[ext] structure WorkerNode (γ : Type) where
  config : ConfigFile → Option γ
  installed : Package → Bool
  folders : Place → Option Attr
  running : Service → Bool
  enabled : Service → Bool

variable {γ : Type}

namespace WorkerNode

/-- A host with nothing installed, and these directories. -/
def fresh (folders : Place → Option Attr) : WorkerNode γ where
  config := fun _ => none
  installed := fun _ => false
  folders := folders
  running := fun _ => false
  enabled := fun _ => false

/-- The host with a package. -/
def install (p : Package) (n : WorkerNode γ) : WorkerNode γ :=
  { n with installed := Function.update n.installed p true }

/-- The host with a file of the configuration directory. -/
def configure (f : ConfigFile) (x : Option γ) (n : WorkerNode γ) : WorkerNode γ :=
  { n with config := Function.update n.config f x }

/-- The host with a directory. -/
def put (p : Place) (a : Attr) (n : WorkerNode γ) : WorkerNode γ :=
  { n with folders := Function.update n.folders p (some a) }

/-- The host with a service that runs. Directories that a NodeManager makes when
it starts, if it may, are left aside. -/
def start (s : Service) (n : WorkerNode γ) : WorkerNode γ :=
  { n with running := Function.update n.running s true }

/-- The host with a service that comes up whenever the host does. -/
def enable (s : Service) (n : WorkerNode γ) : WorkerNode γ :=
  { n with enabled := Function.update n.enabled s true }

/-- A directory is made unless it is there, and its parent has to be. -/
def mkdir (p : Place) (mode : Text) (n : WorkerNode γ) : Option (WorkerNode γ) :=
  if n.folders p ≠ none then some n
  else if n.folders p.tail ≠ none then
    some (n.put p ⟨"root".toList, "root".toList, mode⟩)
  else none

/-- A change of the attributes of a directory. The users come with the
package. -/
def change (p : Place) (f : Attr → Attr) : WorkerNode γ → Option (WorkerNode γ) :=
  command (fun n => n.installed .hadoopClient && (n.folders p).isSome)
    fun n => { n with folders := Function.update n.folders p ((n.folders p).map f) }

/-- `ensure => 'running'` -/
def startService (s : Service) (n : WorkerNode γ) : Option (WorkerNode γ) :=
  if n.running s then some n
  else if s.packages.all n.installed then some (n.start s)
  else none

/-- `enable => true` -/
def enableService (s : Service) : WorkerNode γ → Option (WorkerNode γ) :=
  command (fun n => s.packages.all n.installed) (enable s)

end WorkerNode

/-- `ensure => 'directory'`, with its attributes -/
def Folder.commands (d : Folder) : List (WorkerNode γ → Option (WorkerNode γ)) :=
  [WorkerNode.mkdir d.place d.attr.mode,
    WorkerNode.change d.place fun a => { a with owner := d.attr.owner },
    WorkerNode.change d.place fun a => { a with group := d.attr.group },
    WorkerNode.change d.place fun a => { a with mode := d.attr.mode }]

/-! ## The classes -/

/-- **The parameters** of `cdh4::hadoop` for a worker: those that decide about
the configuration, the mounts, and the path of the blocks on each of them. -/
structure WorkerHadoop (γ : Type) extends Hadoop γ where
  mounts : List Place
  dataPath : Place

namespace WorkerHadoop

variable (w : WorkerHadoop γ)

/-- `cdh4::hadoop::worker::paths` -/
def paths (basedir : Place) : List Folder :=
  [⟨basedir, "hdfs".toList, "hdfs".toList, "0755".toList⟩,
    ⟨w.dataPath.tail ++ basedir, "hdfs".toList, "hdfs".toList, "0700".toList⟩,
    ⟨w.dataPath ++ basedir, "hdfs".toList, "hdfs".toList, "0700".toList⟩]
  ++ if w.useYarn then
    [["yarn".toList], ["local".toList, "yarn".toList], ["logs".toList, "yarn".toList]].map
      fun p => ⟨p ++ basedir, "yarn".toList, "yarn".toList, "0755".toList⟩
  else
    [["mapred".toList], ["local".toList, "mapred".toList]].map
      fun p => ⟨p ++ basedir, "mapred".toList, "hadoop".toList, "0755".toList⟩

/-- The directories of all mounts. -/
def folders : List Folder := w.mounts.flatMap w.paths

/-- The directory that is declared for a place; it is the only one for the place
in a catalog that is applied. -/
def folder (p : Place) : Folder :=
  (w.folders.find? fun d => d.place = p).getD
    ⟨p, "root".toList, "root".toList, "0755".toList⟩

/-- `cdh4::hadoop` -/
def hadoopResources : List WorkerResource :=
  .package .hadoopClient :: [ConfigFile.netTopology, .log4j, .coreSite, .hdfsSite,
    .httpfsSite, .hadoopEnv, .mapredSite, .yarnSite, .yarnEnv,
    .hadoopMetrics2].map .configFile

/-- `Cdh4::Hadoop::Worker::Paths[$::cdh4::hadoop::datanode_mounts]` -/
def pathResources : List WorkerResource := w.folders.map fun d => .folder d.place

/-- The services of `cdh4::hadoop::worker`. -/
def services : List Service :=
  if w.useYarn then [.datanode, .nodemanager] else [.datanode, .tasktracker]

/-- `cdh4::hadoop` and `cdh4::hadoop::worker`, with the classes it declares -/
def members : List WorkerResource :=
  hadoopResources ++ w.pathResources
    ++ w.services.flatMap fun s => s.packages.map .package ++ [.service s]

/-- **What each resource requires.** A directory requires every directory above
it that is declared. -/
def requires : WorkerResource → List WorkerResource
  | .package .hadoopClient => []
  | .configFile _ => [.package .hadoopClient]
  | .folder p =>
    hadoopResources ++ (w.folders.filter fun d => d.place ≠ p ∧ d.place <:+ p).map
      fun d => .folder d.place
  | .package _ => hadoopResources ++ w.pathResources
  | .service s => hadoopResources ++ w.pathResources ++ s.packages.map .package

variable [DecidableEq γ]

/-- **How each resource is put in place**, and how it is seen to be. -/
def resource : WorkerResource → ResourceGraph.Resource (WorkerNode γ)
  | .package p =>
    .single (fun n => n.installed p) (fun _ => true) (WorkerNode.install p)
  | .configFile f =>
    .single (fun n => n.config f = w.rendered f) (fun n => n.installed .hadoopClient)
      (WorkerNode.configure f (w.rendered f))
  | .folder p =>
    ⟨fun n => n.folders p = some (w.folder p).attr, (w.folder p).commands⟩
  | .service s =>
    ⟨fun n => n.running s && n.enabled s,
      [WorkerNode.startService s, WorkerNode.enableService s]⟩

/-- **The catalog** of `hdfs-worker.pp`. -/
def graph : Resources WorkerResource (WorkerNode γ) where
  resource := w.resource
  requires := w.requires
  trigger := fun _ => none

end WorkerHadoop

/-! ## What enforcing a resource does -/

namespace WorkerNode

variable {n n' : WorkerNode γ} {p q : Place} {a : Attr}

@[simp] theorem folders_put_self : (n.put p a).folders p = some a :=
  Function.update_self p _ n.folders

theorem folders_put_of_ne (h : q ≠ p) : (n.put p a).folders q = n.folders q :=
  Function.update_of_ne h _ n.folders

@[simp] theorem installed_install_self {x : Package} :
    (n.install x).installed x = true :=
  Function.update_self x _ n.installed

/-- A package that is installed stays so. -/
theorem installed_install {x y : Package} (h : n.installed y = true) :
    (n.install x).installed y = true := by
  by_cases heq : y = x
  · rw [heq]
    exact installed_install_self
  · exact (Function.update_of_ne heq _ n.installed).trans h

/-- A change of the attributes where there is a directory. -/
theorem change_put (f : Attr → Attr) (hclient : n.installed .hadoopClient = true) :
    change p f (n.put p a) = some (n.put p (f a)) := by
  have hpre : ((n.put p a).installed .hadoopClient && ((n.put p a).folders p).isSome)
      = true := by
    rw [folders_put_self]
    exact Bool.and_eq_true_iff.mpr ⟨hclient, rfl⟩
  unfold change command
  rw [if_pos hpre]
  simp [put]

/-- A directory that is there is as good as new. -/
theorem put_eq_self (h : n.folders p = some a) : n.put p a = n := by
  unfold put
  rw [← h, Function.update_eq_self]

end WorkerNode

variable {n n' : WorkerNode γ}

/-- Whether a directory can be had: the package is there with its users, and
the directory is, or its parent. -/
def Folder.CanBe (d : Folder) (n : WorkerNode γ) : Prop :=
  n.installed .hadoopClient = true
    ∧ (n.folders d.place ≠ none ∨ n.folders d.place.tail ≠ none)

/-- **A directory that can be had** is made as it is declared. -/
theorem runAll_folder {d : Folder} (h : d.CanBe n) :
    runAll d.commands n = some (n.put d.place d.attr) := by
  obtain ⟨hclient, hthere⟩ := h
  obtain ⟨a, ha⟩ : ∃ a, WorkerNode.mkdir d.place d.attr.mode n
      = some (n.put d.place a) := by
    unfold WorkerNode.mkdir
    cases hd : n.folders d.place with
    | some a =>
      refine ⟨a, ?_⟩
      rw [if_pos (Option.some_ne_none a), WorkerNode.put_eq_self hd]
    | none =>
      have hparent := hthere.resolve_left (not_not.mpr hd)
      exact ⟨_, (if_neg (not_not.mpr rfl)).trans (if_pos hparent)⟩
  have hchange := fun a f => WorkerNode.change_put (p := d.place) (a := a) f hclient
  show (WorkerNode.mkdir d.place d.attr.mode n).bind _ = _
  rw [ha, Option.bind_some]
  show (WorkerNode.change _ _ _).bind _ = _
  rw [hchange, Option.bind_some]
  show (WorkerNode.change _ _ _).bind _ = _
  rw [hchange, Option.bind_some]
  show (WorkerNode.change _ _ _).bind _ = _
  rw [hchange]
  rfl

/-- What has been run to its end could be had. -/
theorem canBe_of_runAll {d : Folder} (h : runAll d.commands n = some n') :
    d.CanBe n := by
  obtain ⟨m, hmkdir, h⟩ := Option.bind_eq_some_iff.mp h
  obtain ⟨m', hchown, -⟩ := Option.bind_eq_some_iff.mp h
  have hm : m.installed = n.installed
      ∧ (n.folders d.place ≠ none ∨ n.folders d.place.tail ≠ none) := by
    change WorkerNode.mkdir d.place d.attr.mode n = some m at hmkdir
    unfold WorkerNode.mkdir at hmkdir
    split at hmkdir
    · next hthere =>
      obtain rfl := Option.some.inj hmkdir
      exact ⟨rfl, .inl hthere⟩
    · split at hmkdir
      · next hparent =>
        obtain rfl := Option.some.inj hmkdir
        exact ⟨rfl, .inr hparent⟩
      · exact absurd hmkdir.symm (Option.some_ne_none m)
  refine ⟨?_, hm.2⟩
  rw [← hm.1]
  exact (Bool.and_eq_true_iff.mp (of_command hchown).1).1

variable {w : WorkerHadoop γ}

namespace WorkerHadoop

/-- The directory that is declared for a place is there. -/
theorem folder_place (p : Place) : (w.folder p).place = p := by
  unfold folder
  cases h : w.folders.find? fun d => d.place = p with
  | none => rfl
  | some d =>
    have hp := List.find?_some h
    exact of_decide_eq_true hp

/-- A directory is declared once. -/
theorem folder_of_mem (hnd : (w.folders.map Folder.place).Nodup) {d : Folder}
    (hd : d ∈ w.folders) : w.folder d.place = d := by
  unfold folder
  cases h : w.folders.find? fun d' => d'.place = d.place with
  | none => exact absurd (decide_eq_true rfl) (List.find?_eq_none.mp h d hd)
  | some d' =>
    have hp := List.find?_some h
    exact List.inj_on_of_nodup_map hnd (List.mem_of_find?_eq_some h) hd
      (of_decide_eq_true hp)

end WorkerHadoop

/-- What is declared as a directory is one of the directories. -/
theorem WorkerHadoop.exists_of_mem_members {p : Place}
    (h : .folder p ∈ w.members) : ∃ d ∈ w.folders, d.place = p := by
  simp only [members, hadoopResources, pathResources] at h
  simpa using h

/-- What is in place. -/
def WorkerDone (w : WorkerHadoop γ) : WorkerResource → WorkerNode γ → Prop
  | .package p, n => n.installed p = true
  | .configFile f, n => n.config f = w.rendered f
  | .folder p, n => n.folders p = some (w.folder p).attr
  | .service s, n => n.running s = true ∧ n.enabled s = true

/-- **What holds of a worker at all times**: there is a root, and what runs or
comes up is installed. -/
structure WorkerSane (n : WorkerNode γ) : Prop where
  root : n.folders [] ≠ none
  installed : ∀ s, n.running s = true ∨ n.enabled s = true →
    ∀ p ∈ s.packages, n.installed p = true

/-- **What a command can change**, and for which resource. -/
inductive WorkerChange (w : WorkerHadoop γ) :
    WorkerResource → WorkerNode γ → WorkerNode γ → Prop
  | package {n : WorkerNode γ} (p : Package) : WorkerChange w (.package p) n (n.install p)
  | configFile {n : WorkerNode γ} (f : ConfigFile) :
      WorkerChange w (.configFile f) n (n.configure f (w.rendered f))
  | folder {n : WorkerNode γ} (p : Place) (a : Attr)
      (hthere : n.folders p ≠ none ∨ n.folders p.tail ≠ none) :
      WorkerChange w (.folder p) n (n.put p a)
  | start {n : WorkerNode γ} (s : Service)
      (hinst : ∀ p ∈ s.packages, n.installed p = true) :
      WorkerChange w (.service s) n (n.start s)
  | enable {n : WorkerNode γ} (s : Service)
      (hinst : ∀ p ∈ s.packages, n.installed p = true) :
      WorkerChange w (.service s) n (n.enable s)

/-- **No change breaks what holds at all times.** -/
theorem WorkerSane.change {r : WorkerResource} (hs : WorkerSane n)
    (hc : WorkerChange w r n n') : WorkerSane n' := by
  cases hc with
  | package p =>
    exact ⟨hs.root, fun s hrun q hq =>
      WorkerNode.installed_install (hs.installed s hrun q hq)⟩
  | folder p a hthere =>
    refine ⟨?_, hs.installed⟩
    by_cases heq : ([] : Place) = p
    · rw [← heq, WorkerNode.folders_put_self]
      exact Option.some_ne_none a
    · rw [WorkerNode.folders_put_of_ne heq]
      exact hs.root
  | start s hinst =>
    refine ⟨hs.root, fun s' hrun => ?_⟩
    by_cases heq : s' = s
    · rw [heq]
      exact hinst
    · exact hs.installed s'
        (hrun.imp_left (Function.update_of_ne heq _ n.running).symm.trans)
  | enable s hinst =>
    refine ⟨hs.root, fun s' hrun => ?_⟩
    by_cases heq : s' = s
    · rw [heq]
      exact hinst
    · exact hs.installed s'
        (hrun.imp_right (Function.update_of_ne heq _ n.enabled).symm.trans)
  | configFile f => exact ⟨hs.root, hs.installed⟩

/-- **A change undoes nothing else** that is in place. -/
theorem WorkerDone.change {r d : WorkerResource} (hc : WorkerChange w r n n')
    (hne : d ≠ r) (hd : WorkerDone w d n) : WorkerDone w d n' := by
  cases hc with
  | package p =>
    cases d with
    | package q => exact WorkerNode.installed_install hd
    | _ => exact hd
  | configFile f =>
    cases d with
    | configFile f' =>
      have heq : f' ≠ f := fun heq => hne (congrArg _ heq)
      exact (Function.update_of_ne heq _ n.config).trans hd
    | _ => exact hd
  | folder p a =>
    cases d with
    | folder q =>
      have heq : q ≠ p := fun heq => hne (congrArg _ heq)
      exact (WorkerNode.folders_put_of_ne heq).trans hd
    | _ => exact hd
  | start s =>
    cases d with
    | service s' =>
      have heq : s' ≠ s := fun heq => hne (congrArg _ heq)
      exact ⟨(Function.update_of_ne heq _ n.running).trans hd.1, hd.2⟩
    | _ => exact hd
  | enable s =>
    cases d with
    | service s' =>
      have heq : s' ≠ s := fun heq => hne (congrArg _ heq)
      exact ⟨hd.1, (Function.update_of_ne heq _ n.enabled).trans hd.2⟩
    | _ => exact hd

/-- A directory stays. -/
theorem WorkerChange.folders {r : WorkerResource} (hc : WorkerChange w r n n')
    {p : Place} (hp : n.folders p ≠ none) : n'.folders p ≠ none := by
  cases hc with
  | folder q a =>
    by_cases heq : p = q
    · rw [heq, WorkerNode.folders_put_self]
      exact Option.some_ne_none a
    · rwa [WorkerNode.folders_put_of_ne heq]
  | _ => exact hp

variable [DecidableEq γ]

/-- A command makes a change, or none. -/
theorem change_of_command {r : WorkerResource} {c : WorkerNode γ → Option (WorkerNode γ)}
    (hc : c ∈ (w.resource r).commands) (h : c n = some n') :
    n' = n ∨ WorkerChange w r n n' := by
  cases r with
  | package p =>
    obtain rfl := List.mem_singleton.mp hc
    obtain ⟨-, rfl⟩ := of_command h
    exact .inr (.package p)
  | configFile f =>
    obtain rfl := List.mem_singleton.mp hc
    obtain ⟨-, rfl⟩ := of_command h
    exact .inr (.configFile f)
  | folder p =>
    obtain rfl | hc := List.mem_cons.mp hc
    · rw [w.folder_place] at h
      unfold WorkerNode.mkdir at h
      split at h
      · exact .inl (Option.some.inj h).symm
      · split at h
        · next hparent =>
          obtain rfl := Option.some.inj h
          exact .inr (.folder p _ (.inr hparent))
        · exact absurd h.symm (Option.some_ne_none n')
    · obtain ⟨f, rfl⟩ : ∃ f, c = WorkerNode.change p f := by
        simp only [List.mem_cons, List.not_mem_nil, or_false, w.folder_place] at hc
        obtain rfl | rfl | rfl := hc
        · exact ⟨_, rfl⟩
        · exact ⟨_, rfl⟩
        · exact ⟨_, rfl⟩
      obtain ⟨hpre, rfl⟩ := of_command h
      obtain ⟨a, ha⟩ := Option.isSome_iff_exists.mp (Bool.and_eq_true_iff.mp hpre).2
      rw [ha]
      exact .inr (.folder p (f a) (.inl (by rw [ha]; exact Option.some_ne_none a)))
  | service s =>
    obtain rfl | hc := List.mem_cons.mp hc
    · unfold WorkerNode.startService at h
      split at h
      · exact .inl (Option.some.inj h).symm
      · split at h
        · next hinst =>
          obtain rfl := Option.some.inj h
          exact .inr (.start s (List.all_eq_true.mp hinst))
        · exact absurd h.symm (Option.some_ne_none n')
    · obtain rfl := List.mem_singleton.mp hc
      obtain ⟨hinst, rfl⟩ := of_command h
      exact .inr (.enable s (List.all_eq_true.mp hinst))

/-- What every change keeps, enforcing a resource keeps. -/
theorem worker_enforce_induction {P : WorkerNode γ → Prop} {r : WorkerResource}
    (h : ∀ n n', P n → WorkerChange w r n n' → P n') (k : ℕ) (hn : P n) :
    P ((w.graph.resource r).enforce k n).2 := by
  refine enforce_induction (fun c hc m m' hm hcm => ?_) k hn
  obtain rfl | hchange := change_of_command hc hcm
  · exact hm
  · exact h m m' hm hchange

/-- What is in place can be seen to be. -/
theorem inSync_of_workerDone {r : WorkerResource} (h : WorkerDone w r n) :
    (w.resource r).inSync n = true := by
  cases r with
  | package p => exact h
  | configFile f => exact decide_eq_true h
  | folder p => exact decide_eq_true h
  | service s => exact Bool.and_eq_true_iff.mpr h

/-- **A resource that has not failed is in place.** -/
theorem workerDone_enforce (r : WorkerResource) (k : ℕ)
    (hok : ((w.graph.resource r).enforce k n).1 ≠ .failed) :
    WorkerDone w r ((w.graph.resource r).enforce k n).2 := by
  cases r with
  | package p =>
    exact of_enforce_single (P := WorkerDone w (.package p)) id
      WorkerNode.installed_install_self hok
  | configFile f =>
    exact of_enforce_single (P := WorkerDone w (.configFile f)) of_decide_eq_true
      (Function.update_self f _ n.config) hok
  | folder p =>
    obtain ⟨hsync, heq⟩ | hrun := of_enforce hok
    · rw [heq]
      have hthere : n.folders p = some (w.folder p).attr := of_decide_eq_true hsync
      exact hthere
    · have hput := (runAll_folder (canBe_of_runAll hrun)).symm.trans hrun
      rw [← Option.some.inj hput, w.folder_place]
      exact WorkerNode.folders_put_self
  | service s =>
    obtain ⟨hsync, heq⟩ | hrun := of_enforce hok
    · rw [heq]
      exact Bool.and_eq_true_iff.mp hsync
    · obtain ⟨n₁, hstart, hrun⟩ := Option.bind_eq_some_iff.mp hrun
      obtain ⟨n₂, henable, heq⟩ : ∃ n₂, WorkerNode.enableService s n₁ = some n₂
          ∧ some n₂ = some _ := Option.bind_eq_some_iff.mp hrun
      obtain ⟨-, rfl⟩ := of_command henable
      rw [← Option.some.inj heq]
      refine ⟨?_, Function.update_self s _ n₁.enabled⟩
      change WorkerNode.startService s n = some n₁ at hstart
      unfold WorkerNode.startService at hstart
      split at hstart
      · next hrunning =>
        obtain rfl := Option.some.inj hstart
        exact hrunning
      · split at hstart
        · obtain rfl := Option.some.inj hstart
          exact Function.update_self s _ n.running
        · exact absurd hstart.symm (Option.some_ne_none n₁)

/-- **What the resources of a worker are good for.** -/
theorem worker_lawful (w : WorkerHadoop γ) :
    Lawful w.graph WorkerSane (WorkerDone w) where
  quiet r n ht := absurd rfl ht
  inv r k n hs _ := worker_enforce_induction (fun _ _ hs hc => hs.change hc) k hs
  done r k n _ _ hok := workerDone_enforce r k hok
  keep r k n d hs _ hd := by
    by_cases heq : d = r
    · subst heq
      show WorkerDone w d ((w.resource d).enforce k n).2
      rw [enforce_of_inSync (inSync_of_workerDone hd)]
      exact hd
    · exact worker_enforce_induction (fun _ _ hd hc => hd.change hc heq) k hd

/-! ## What runs has its directories -/

/-- A run over the catalog of a worker, of which the environment lets some
commands of each resource run. There is a catalog only if no directory is
declared twice – by mounts that lie in one another, say. -/
structure WorkerRun (w : WorkerHadoop γ) where
  nodup : (w.folders.map Folder.place).Nodup
  order : List WorkerResource
  ordered : w.graph.Ordered order
  mem_iff : ∀ r, r ∈ order ↔ r ∈ w.members
  reply : WorkerResource → ℕ

/-- The host after a run. -/
def WorkerRun.result (r : WorkerRun w) (n : WorkerNode γ) : WorkerNode γ :=
  (w.graph.apply r.reply r.order n).state

/-- What happens to a worker. -/
inductive WorkerEvent (w : WorkerHadoop γ) where
  | startHdfsWorkers (r : WorkerRun w)
  | serviceEnds (s : Service)
  | serviceComesUp (s : Service)

/-- The host after that. A service comes up on its own if it is enabled. -/
def WorkerNode.step (n : WorkerNode γ) : WorkerEvent w → WorkerNode γ
  | .startHdfsWorkers r => r.result n
  | .serviceEnds s => { n with running := Function.update n.running s false }
  | .serviceComesUp s => if n.enabled s then n.start s else n

/-- The directories that a service requires, and that it keeps when it comes
up again. -/
def WorkerThere : WorkerResource → WorkerNode γ → Prop
  | .service s, n => n.running s = true ∨ n.enabled s = true
  | _, _ => False

/-- A directory, of whatever attributes. -/
def WorkerLasts : WorkerResource → WorkerNode γ → Prop
  | .folder p, n => n.folders p ≠ none
  | _, _ => True

/-- **A run leaves things grounded.** -/
theorem WorkerRun.grounded (r : WorkerRun w) (hs : WorkerSane n)
    (hg : Grounded w.graph WorkerThere WorkerLasts n) :
    Grounded w.graph WorkerThere WorkerLasts (r.result n) := by
  refine (worker_lawful w).grounded_apply ?_ ?_ ?_ r.reply r.ordered hs hg
  · intro d n hd
    cases d with
    | folder p =>
      have hthere : n.folders p = some (w.folder p).attr := hd
      show n.folders p ≠ none
      rw [hthere]
      exact Option.some_ne_none _
    | _ => trivial
  · intro r k n d _ hd
    cases d with
    | folder p =>
      exact worker_enforce_induction (P := fun n => n.folders p ≠ none)
        (fun _ _ hp hc => hc.folders hp) k hd
    | _ => trivial
  · intro r k n d _ hne hd
    cases d with
    | service s =>
      -- a service that was down before is down afterwards
      refine by_contra fun hdown => ?_
      have hkeep : ¬ WorkerThere (.service s) ((w.graph.resource r).enforce k n).2 := by
        refine worker_enforce_induction (P := fun n => ¬ WorkerThere (.service s) n)
          (fun m m' hm hc => ?_) k hdown
        cases hc with
        | start s' =>
          have heq : s ≠ s' := fun heq => hne (congrArg _ heq)
          exact fun h => hm (h.imp_left (Function.update_of_ne heq _ m.running).symm.trans)
        | enable s' =>
          have heq : s ≠ s' := fun heq => hne (congrArg _ heq)
          exact fun h => hm (h.imp_right (Function.update_of_ne heq _ m.enabled).symm.trans)
        | _ => exact hm
      exact hkeep hd
    | _ => exact hd

/-- What can come of the directories: a new one is declared, and its parent is
there. -/
def MadeFrom (w : WorkerHadoop γ) (n n' : WorkerNode γ) : Prop :=
  ∀ p, n'.folders p ≠ none → n.folders p ≠ none
    ∨ (∃ d ∈ w.folders, d.place = p) ∧ n'.folders p.tail ≠ none

/-- **A run makes what is declared**, in a parent that is there. -/
theorem WorkerRun.madeFrom (r : WorkerRun w) {n₀ : WorkerNode γ} (hs : WorkerSane n)
    (h : MadeFrom w n₀ n) : MadeFrom w n₀ (r.result n) := by
  refine ((worker_lawful w).induction r.reply r.ordered hs h fun x hx s _ _ _ h => ?_).2.1
  refine worker_enforce_induction (P := MadeFrom w n₀) (fun m m' hm hc p hp => ?_) _ h
  by_cases hold : m.folders p = none
  · -- the change has made it
    cases hc with
    | folder q a hthere =>
      by_cases heq : p = q
      · subst heq
        have hdeclared := WorkerHadoop.exists_of_mem_members ((r.mem_iff _).mp hx)
        have hparent := hthere.resolve_left (not_not.mpr hold)
        exact .inr ⟨hdeclared, (WorkerChange.folder (w := w) p a hthere).folders hparent⟩
      · rw [WorkerNode.folders_put_of_ne heq] at hp
        exact absurd hold hp
    | _ => exact absurd hold hp
  · obtain hfirst | ⟨hdeclared, hparent⟩ := hm p hold
    · exact .inl hfirst
    · exact .inr ⟨hdeclared, hc.folders hparent⟩

/-- What can be said of a worker at any time. -/
structure WorkerFine (w : WorkerHadoop γ) (n₀ n : WorkerNode γ) : Prop where
  sane : WorkerSane n
  grounded : Grounded w.graph WorkerThere WorkerLasts n
  made : MadeFrom w n₀ n

/-- Services may end, and come up if they are enabled. -/
theorem WorkerFine.of_running {n₀ : WorkerNode γ} (h : WorkerFine w n₀ n)
    (hinstalled : n'.installed = n.installed) (hfolders : n'.folders = n.folders)
    (henabled : n'.enabled = n.enabled)
    (hrunning : ∀ s, n'.running s = true → n.running s = true ∨ n.enabled s = true) :
    WorkerFine w n₀ n' := by
  have hup : ∀ s, n'.running s = true ∨ n'.enabled s = true →
      n.running s = true ∨ n.enabled s = true := by
    intro s hs
    rw [henabled] at hs
    exact hs.elim (hrunning s) .inr
  refine ⟨⟨?_, fun s hs => ?_⟩, fun r hr hthere d hd => ?_, fun p hp => ?_⟩
  · rw [hfolders]
    exact h.sane.root
  · rw [hinstalled]
    exact h.sane.installed s (hup s hs)
  · have hlasts : WorkerThere r n → WorkerLasts d n := fun hthere =>
      h.grounded r hr hthere d hd
    cases r with
    | service s =>
      have hd' := hlasts (hup s hthere)
      cases d with
      | folder p =>
        show n'.folders p ≠ none
        rw [hfolders]
        exact hd'
      | _ => trivial
    | _ => exact hthere.elim
  · rw [hfolders] at hp ⊢
    exact h.made p hp

/-- **Every step.** -/
theorem WorkerFine.step {n₀ : WorkerNode γ} (h : WorkerFine w n₀ n)
    (e : WorkerEvent w) : WorkerFine w n₀ (n.step e) := by
  cases e with
  | startHdfsWorkers r =>
    exact ⟨((worker_lawful w).apply r.reply r.ordered h.sane).1,
      r.grounded h.sane h.grounded, r.madeFrom h.sane h.made⟩
  | serviceEnds s =>
    refine h.of_running rfl rfl rfl fun s' hs' => ?_
    replace hs' : Function.update n.running s false s' = true := hs'
    by_cases heq : s' = s
    · rw [heq, Function.update_self] at hs'
      exact absurd hs' Bool.false_ne_true
    · rw [Function.update_of_ne heq] at hs'
      exact .inl hs'
  | serviceComesUp s =>
    show WorkerFine w n₀ (if n.enabled s then n.start s else n)
    split
    · next henabled =>
      refine h.of_running rfl rfl rfl fun s' hs' => ?_
      by_cases heq : s' = s
      · rw [heq]
        exact .inr henabled
      · exact .inl ((Function.update_of_ne heq _ n.running).symm.trans hs')
    · exact h

/-- **Every history**, from a host that nothing has been started on. -/
theorem workerFine_run (history : List (WorkerEvent w)) (hs : WorkerSane n)
    (hdown : ∀ s, n.running s = false ∧ n.enabled s = false) :
    WorkerFine w n (run WorkerNode.step n history) := by
  refine run_invariant (fun _ e _ h => h.step e)
    ⟨hs, fun r _ hthere => ?_, fun p hp => .inl hp⟩
  cases r with
  | service s =>
    obtain ⟨hrunning, henabled⟩ := hdown s
    replace hthere : n.running s = true ∨ n.enabled s = true := hthere
    rw [hrunning, henabled] at hthere
    exact absurd (or_self_iff.mp hthere) Bool.false_ne_true
  | _ => exact hthere.elim

/-- **The condition on the disks**: each directory is there, or it has a parent
that is there or is declared. -/
def DisksReady (w : WorkerHadoop γ) (n : WorkerNode γ) : Prop :=
  ∀ d ∈ w.folders, n.folders d.place ≠ none ∨ n.folders d.place.tail ≠ none
    ∨ ∃ d' ∈ w.folders, d'.place = d.place.tail

/-- What runs has all of its directories. -/
theorem WorkerFine.folders {n₀ : WorkerNode γ} (h : WorkerFine w n₀ n) {s : Service}
    (hrun : n.running s = true) : ∀ d ∈ w.folders, n.folders d.place ≠ none := by
  intro d hd
  have hreq : w.graph.Requires (.service s) (.folder d.place) :=
    .single (List.mem_append_left _ (List.mem_append_right _
      (List.mem_map.mpr ⟨d, hd, rfl⟩)))
  exact h.grounded (.service s) rfl (.inl hrun) _ hreq

/-- What runs has had its disks ready to begin with. -/
theorem WorkerFine.disksReady {n₀ : WorkerNode γ} (h : WorkerFine w n₀ n) {s : Service}
    (hrun : n.running s = true) : DisksReady w n₀ := by
  intro d hd
  obtain hfirst | ⟨-, hparent⟩ := h.made _ (h.folders hrun d hd)
  · exact .inl hfirst
  · obtain hfirst | ⟨hdeclared, -⟩ := h.made _ hparent
    · exact .inr (.inl hfirst)
    · exact .inr (.inr hdeclared)

/-- **Where the disks are ready nothing fails** whose requirements are in
place. -/
theorem worker_enforce_ne_failed {x : WorkerResource} (hx : x ∈ w.members) {k : ℕ}
    (hk : 4 ≤ k) (hready : DisksReady w n) (hs : WorkerSane n')
    (hreq : ∀ d ∈ w.requires x, WorkerDone w d n')
    (hkeep : ∀ p, n.folders p ≠ none → n'.folders p ≠ none) :
    ((w.graph.resource x).enforce k n').1 ≠ .failed := by
  have hk₀ : k ≠ 0 := Nat.ne_of_gt (Nat.lt_of_lt_of_le (by decide) hk)
  cases x with
  | package p => exact enforce_single_ok hk₀ rfl
  | configFile f => exact enforce_single_ok hk₀ (hreq (.package .hadoopClient) List.mem_cons_self)
  | folder p =>
    have hclient : WorkerDone w (.package .hadoopClient) n' :=
      hreq _ (List.mem_append_left _ List.mem_cons_self)
    obtain ⟨d, hd, rfl⟩ := WorkerHadoop.exists_of_mem_members hx
    have hcan : (w.folder d.place).CanBe n' := by
      refine ⟨hclient, ?_⟩
      rw [w.folder_place]
      obtain hthere | hparent | ⟨d', hd', hplace⟩ := hready d hd
      · exact .inl (hkeep _ hthere)
      · exact .inr (hkeep _ hparent)
      · by_cases hroot : d'.place = d.place
        · -- only the root is its own parent
          have hnil : d.place = [] := by
            cases hp : d.place with
            | nil => rfl
            | cons c q =>
              rw [hroot, hp] at hplace
              exact absurd hplace (List.cons_ne_self c q)
          rw [hnil]
          exact .inl hs.root
        · have hmem : .folder d'.place ∈ w.requires (.folder d.place) := by
            refine List.mem_append_right _ (List.mem_map.mpr ⟨d', ?_, rfl⟩)
            refine List.mem_filter.mpr ⟨hd', decide_eq_true ⟨hroot, ?_⟩⟩
            rw [hplace]
            exact List.tail_suffix _
          have hdone : n'.folders d'.place = _ := hreq _ hmem
          rw [hplace] at hdone
          rw [hdone]
          exact .inr (Option.some_ne_none _)
    refine enforce_ne_failed hk fun _ => ?_
    show runAll (w.folder d.place).commands n' ≠ none
    rw [runAll_folder hcan]
    exact Option.some_ne_none _
  | service s =>
    have hpackages : s.packages.all n'.installed = true :=
      List.all_eq_true.mpr fun p hp =>
        hreq (.package p) (List.mem_append_right _ (List.mem_map_of_mem hp))
    obtain ⟨m, hm, hinst⟩ : ∃ m, WorkerNode.startService s n' = some m
        ∧ m.installed = n'.installed := by
      unfold WorkerNode.startService
      rw [if_pos hpackages]
      split
      · exact ⟨n', rfl, rfl⟩
      · exact ⟨n'.start s, rfl, rfl⟩
    have hpre : s.packages.all m.installed = true := by
      rw [hinst]
      exact hpackages
    have henable : WorkerNode.enableService s m = some (m.enable s) := if_pos hpre
    have htwo : 2 ≤ k := Nat.le_trans (by decide) hk
    refine enforce_ne_failed htwo fun _ => ?_
    show (WorkerNode.startService s n').bind _ ≠ none
    rw [hm, Option.bind_some]
    show (WorkerNode.enableService s m).bind _ ≠ none
    rw [henable]
    exact Option.some_ne_none _

/-- **A run in which no command is cut off gets everything into place** where
the disks are ready. -/
theorem WorkerRun.done_of_disksReady (r : WorkerRun w) (hreply : ∀ x, 4 ≤ r.reply x)
    (hs : WorkerSane n) (hready : DisksReady w n) :
    ∀ x ∈ w.members, WorkerDone w x (r.result n) := by
  let Kept : WorkerNode γ → Prop := fun m => ∀ p, n.folders p ≠ none → m.folders p ≠ none
  have hnext : ∀ x ∈ r.order, ∀ m, WorkerSane m →
      (∀ d, w.graph.Requires x d → WorkerDone w d m) → Kept m →
      ((w.graph.resource x).enforce (r.reply x) m).1 ≠ .failed
        ∧ Kept ((w.graph.resource x).enforce (r.reply x) m).2 := by
    intro x hx m hs' hreq hkeep
    refine ⟨worker_enforce_ne_failed ((r.mem_iff x).mp hx) (hreply x) hready hs'
      (fun d hd => hreq d (.single hd)) hkeep, ?_⟩
    exact worker_enforce_induction (P := Kept)
      (fun _ _ hm hc p hp => hc.folders (hm p hp)) _ hkeep
  obtain ⟨-, hok⟩ := (worker_lawful w).apply_ok (P := Kept) r.reply r.ordered hs
    (fun _ hp => hp) hnext
  exact fun x hx => ((worker_lawful w).apply r.reply r.ordered hs).2 x
    (hok x ((r.mem_iff x).mpr hx))

/-- The directories among that. -/
theorem WorkerRun.folders_of_disksReady (r : WorkerRun w) (hreply : ∀ x, 4 ≤ r.reply x)
    (hs : WorkerSane n) (hready : DisksReady w n) {d : Folder} (hd : d ∈ w.folders) :
    (r.result n).folders d.place = some d.attr := by
  have hmember : .folder d.place ∈ w.members :=
    List.mem_append_left _ (List.mem_append_right _ (List.mem_map_of_mem hd))
  have hdone : (r.result n).folders d.place = _ :=
    r.done_of_disksReady hreply hs hready _ hmember
  rw [w.folder_of_mem r.nodup hd] at hdone
  exact hdone

/-- **Whether the DataNode can be brought up** is a matter of the disks, where
there is a catalog: a run in which no command is cut off does it exactly if they are ready, and else it is
never up, after any number of runs, with whatever failures, in whatever
order. -/
theorem datanode_up_iff (hs : WorkerSane n)
    (hdown : ∀ s, n.running s = false ∧ n.enabled s = false) (r : WorkerRun w)
    (hreply : ∀ x, 4 ≤ r.reply x) :
    ((r.result n).running .datanode = true ↔ DisksReady w n)
      ∧ ∀ history : List (WorkerEvent w),
        (run WorkerNode.step n history).running .datanode = true → DisksReady w n := by
  have hall : ∀ history : List (WorkerEvent w),
      (run WorkerNode.step n history).running .datanode = true → DisksReady w n :=
    fun history hrun => (workerFine_run history hs hdown).disksReady hrun
  refine ⟨⟨hall [.startHdfsWorkers r], fun hready => ?_⟩, hall⟩
  have hmem : .service .datanode ∈ w.members := by
    refine List.mem_append_right _ (List.mem_flatMap.mpr ⟨.datanode, ?_, ?_⟩)
    · unfold WorkerHadoop.services
      split <;> exact List.mem_cons_self
    · exact List.mem_append_right _ List.mem_cons_self
  exact (r.done_of_disksReady hreply hs hready _ hmem).1

/-- The worker of the deployment, with the names of the templates for what they
come to. -/
def sampleWorker : WorkerHadoop ConfigFile where
  useYarn := true
  haEnabled := false
  netTopologyScript := false
  gangliaHosts := false
  template := id
  mounts := [["data".toList, "hadoop".toList, "raid".toList]]
  dataPath := ["dn".toList, "hdfs".toList]

/-- A run over its resources as they are written down. -/
def sampleRun : WorkerRun sampleWorker where
  nodup := by decide +kernel
  order := sampleWorker.members
  ordered := ordered_iff.mpr (by decide +kernel)
  mem_iff := fun _ => Iff.rfl
  reply := fun _ => 4

/-- A host with these directories. -/
def withFolders (places : List Place) : WorkerNode ConfigFile :=
  .fresh fun p =>
    if p ∈ places then some ⟨"root".toList, "root".toList, "0755".toList⟩ else none

/-- With the directory that `init` makes for the data the DataNode comes up, and
without it never. -/
theorem datanode_up_iff_sampleWorker :
    (sampleRun.result (withFolders
        [[], ["raid".toList], ["hadoop".toList, "raid".toList]])).running .datanode = true
      ∧ ∀ history : List (WorkerEvent sampleWorker),
        (run WorkerNode.step (withFolders [[], ["raid".toList]]) history).running .datanode
          ≠ true := by
  have hsane : ∀ places, [] ∈ places → WorkerSane (withFolders places) := by
    intro places hmem
    refine ⟨?_, fun s hs => absurd (or_self_iff.mp hs) Bool.false_ne_true⟩
    show (if [] ∈ places then _ else _) ≠ none
    rw [if_pos hmem]
    exact Option.some_ne_none _
  have hdown : ∀ (places : List Place) s, (withFolders places).running s = false
      ∧ (withFolders places).enabled s = false := fun _ _ => ⟨rfl, rfl⟩
  constructor
  · refine (datanode_up_iff (hsane _ (by decide)) (hdown _) sampleRun
      fun _ => Nat.le_refl 4).1.mpr ?_
    unfold DisksReady
    decide +kernel
  · intro history hrun
    have hready := (datanode_up_iff (hsane _ (by decide)) (hdown _) sampleRun
      fun _ => Nat.le_refl 4).2 history hrun
    revert hready
    unfold DisksReady
    decide +kernel

end Hdfs
