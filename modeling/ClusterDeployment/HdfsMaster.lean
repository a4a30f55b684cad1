import ClusterDeployment.FileTree
import ClusterDeployment.HdfsServices
import ClusterDeployment.ResourceGraph

/-!
# The master of HDFS

What `hdfs-master.pp` brings up is more than a list of services. The services
come with packages and files, the NameNode with a directory that is formatted
once, and the services of YARN or of MapReduce with directories inside the file
system that the NameNode serves. The classes say by `require` what comes first,
and leave the order open otherwise.

Here are the classes with all that they require, and the commands that put each
resource in place. What such a command can change is little (`Change`), and it
is done only where the resource is not in place. So no change breaks what holds
of the host at all times (`Sane.change`) or undoes what is in place
(`Has.change`), and with that the resources do what is expected of resources
that require each other (`lawful`). Of Hadoop it is taken that its commands do what is
documented of them, and that its services change the file system only as users
do.
-/

namespace Hdfs

open ResourceGraph Run

/-! ## The resources -/

/-- The files of the configuration directory. -/
inductive ConfigFile where
  | netTopology
  | log4j
  | coreSite
  | hdfsSite
  | httpfsSite
  | hadoopEnv
  | mapredSite
  | yarnSite
  | yarnEnv
  | hadoopMetrics2
  deriving DecidableEq

/-- A directory in HDFS, with the name its resource has. -/
inductive Directory where
  | tmp
  | user
  | userHdfs
  | var
  | varLib
  | varLog
  | hadoopYarn
  | userHistory
  | mapred
  | mapredSystem
  | hadoopHdfs
  | cache
  | cacheMapred
  | cacheMapredMapred
  | staging
  deriving DecidableEq

/-- What the classes of the master declare. -/
inductive MasterResource where
  | clientPackage
  | configFile (f : ConfigFile)
  | package (s : Service)
  | hostsExclude
  | nameDir
  | namenodeFormat
  | transitionToActive
  | service (s : Service)
  | directory (d : Directory)
  deriving DecidableEq

/-- Who may do what with a directory. -/
structure Attr where
  owner : Text
  group : Text
  mode : Text
  deriving DecidableEq

namespace Directory

/-- The path of a directory. -/
def path : Directory → Text
  | tmp => "/tmp".toList
  | user => "/user".toList
  | userHdfs => "/user/hdfs".toList
  | var => "/var".toList
  | varLib => "/var/lib".toList
  | varLog => "/var/log".toList
  | hadoopYarn => "/var/log/hadoop-yarn".toList
  | userHistory => "/user/history".toList
  | mapred => "/tmp/mapred".toList
  | mapredSystem => "/tmp/mapred/system".toList
  | hadoopHdfs => "/var/lib/hadoop-hdfs".toList
  | cache => "/var/lib/hadoop-hdfs/cache".toList
  | cacheMapred => "/var/lib/hadoop-hdfs/cache/mapred".toList
  | cacheMapredMapred => "/var/lib/hadoop-hdfs/cache/mapred/mapred".toList
  | staging => "/var/lib/hadoop-hdfs/cache/mapred/mapred/staging".toList

/-- The place of a directory. -/
def place (d : Directory) : Place := (FileTree.components d.path).reverse

/-- The attributes a directory is declared with. -/
def attr : Directory → Attr
  | tmp => ⟨"hdfs".toList, "hdfs".toList, "1777".toList⟩
  | user => ⟨"hdfs".toList, "hadoop".toList, "0775".toList⟩
  | userHdfs => ⟨"hdfs".toList, "hdfs".toList, "0755".toList⟩
  | var => ⟨"hdfs".toList, "hdfs".toList, "0755".toList⟩
  | varLib => ⟨"hdfs".toList, "hdfs".toList, "0755".toList⟩
  | varLog => ⟨"hdfs".toList, "hdfs".toList, "0755".toList⟩
  | hadoopYarn => ⟨"yarn".toList, "mapred".toList, "0755".toList⟩
  | userHistory => ⟨"yarn".toList, "hdfs".toList, "1777".toList⟩
  | mapred => ⟨"mapred".toList, "hadoop".toList, "1777".toList⟩
  | mapredSystem => ⟨"mapred".toList, "hadoop".toList, "1777".toList⟩
  | hadoopHdfs => ⟨"hdfs".toList, "hdfs".toList, "0755".toList⟩
  | cache => ⟨"hdfs".toList, "hdfs".toList, "0755".toList⟩
  | cacheMapred => ⟨"mapred".toList, "hdfs".toList, "0755".toList⟩
  | cacheMapredMapred => ⟨"mapred".toList, "hdfs".toList, "0755".toList⟩
  | staging => ⟨"mapred".toList, "hdfs".toList, "1777".toList⟩

/-- The directory that is required by a directory below it. -/
def parent : Directory → Option Directory
  | tmp => none
  | user => none
  | userHdfs => some user
  | var => none
  | varLib => some var
  | varLog => some var
  | hadoopYarn => some varLog
  | userHistory => some user
  | mapred => some tmp
  | mapredSystem => some mapred
  | hadoopHdfs => some varLib
  | cache => some hadoopHdfs
  | cacheMapred => some cache
  | cacheMapredMapred => some cacheMapred
  | staging => some cacheMapredMapred

/-- All directories. -/
def all : List Directory :=
  [tmp, user, userHdfs, var, varLib, varLog, hadoopYarn, userHistory, mapred,
    mapredSystem, hadoopHdfs, cache, cacheMapred, cacheMapredMapred, staging]

theorem mem_all (d : Directory) : d ∈ all := by cases d <;> decide

/-- Two directories are never declared for one place. -/
theorem place_injective : Function.Injective place := by
  have hnd : (all.map place).Nodup := by decide +kernel
  exact fun d d' h => List.inj_on_of_nodup_map hnd (mem_all d) (mem_all d') h

/-- **What a directory requires is the directory it lies in**, or it lies
directly under the root. -/
theorem tail_place (d : Directory) :
    d.place.tail = (d.parent.map place).getD [] := by
  have hall : all.all (fun d => d.place.tail = (d.parent.map place).getD []) := by
    decide +kernel
  simpa using List.all_eq_true.mp hall d (mem_all d)

end Directory

/-! ## The host -/

/-- **A host of the master**, and the file system it serves: `formats` counts
how often the NameNode has been formatted, and `active` is about a NameNode
that runs. Of the file system there are the directories below the root. -/
@[ext] structure Node (γ : Type) where
  client : Bool
  config : ConfigFile → Option γ
  installed : Service → Bool
  hostsExclude : Bool
  dataRoot : Bool
  nameDir : Bool
  formats : ℕ
  running : Service → Bool
  enabled : Service → Bool
  active : Bool
  hdfs : Place → Option Attr

variable {γ : Type}

namespace Node

/-- A host that `init` has been run on, or not. -/
def fresh (γ : Type) (dataRoot : Bool) : Node γ where
  client := false
  config := fun _ => none
  installed := fun _ => false
  hostsExclude := false
  dataRoot := dataRoot
  nameDir := false
  formats := 0
  running := fun _ => false
  enabled := fun _ => false
  active := false
  hdfs := fun _ => none

/-- Whether the file system is served. -/
def up (n : Node γ) : Bool := n.running .namenode && n.active

/-- `hadoop fs -test -e` -/
def test (p : Place) (n : Node γ) : Bool := n.up && (n.hdfs p).isSome

/-- The host with a directory in its file system. -/
def put (p : Place) (a : Attr) (n : Node γ) : Node γ :=
  { n with hdfs := Function.update n.hdfs p (some a) }

/-- The host with a file of the configuration directory. -/
def configure (f : ConfigFile) (x : Option γ) (n : Node γ) : Node γ :=
  { n with config := Function.update n.config f x }

/-- The host with the package of a service. -/
def install (s : Service) (n : Node γ) : Node γ :=
  { n with installed := Function.update n.installed s true }

/-- The host with a service that comes up whenever the host does. -/
def enable (s : Service) (n : Node γ) : Node γ :=
  { n with enabled := Function.update n.enabled s true }

/-- The host with a new NameNode, which has an empty file system. -/
def formatted (n : Node γ) : Node γ :=
  { n with formats := n.formats + 1, hdfs := fun _ => none }

/-- The group of a directory, which a new one in it gets as well. The group of
the root is `dfs.permissions.superusergroup`. -/
def group (p : Place) (n : Node γ) : Text :=
  ((n.hdfs p).map Attr.group).getD "hadoop".toList

/-- Whether a directory can be made at a place. -/
def canMkdir (p : Place) (n : Node γ) : Bool :=
  n.up && (n.hdfs p).isNone && (p.tail.isEmpty || (n.hdfs p.tail).isSome)

/-- `hadoop fs -mkdir`, by the user `hdfs` -/
def mkdir (p : Place) : Node γ → Option (Node γ) :=
  command (canMkdir p)
    fun n => n.put p ⟨"hdfs".toList, n.group p.tail, "0755".toList⟩

/-- A change of the attributes of a directory. -/
def change (p : Place) (f : Attr → Attr) : Node γ → Option (Node γ) :=
  command (test p)
    fun n => { n with hdfs := Function.update n.hdfs p ((n.hdfs p).map f) }

/-- `hadoop fs -chmod` -/
def chmod (p : Place) (mode : Text) : Node γ → Option (Node γ) :=
  change p fun a => { a with mode := mode }

/-- `hadoop fs -chown` -/
def chown (p : Place) (owner group : Text) : Node γ → Option (Node γ) :=
  change p fun a => { a with owner := owner, group := group }

end Node

/-- `cdh4::hadoop::directory`: the commands, of which each is run only if the one
before has worked -/
def Directory.commands (d : Directory) : List (Node γ → Option (Node γ)) :=
  [Node.mkdir d.place, Node.chmod d.place d.attr.mode,
    Node.chown d.place d.attr.owner d.attr.group]

/-! ## The classes -/

/-- **The parameters** of `cdh4::hadoop` that decide what is declared, and what
the templates come to. The host is not among the `journalnode_hosts`, on which
the class includes another one. -/
structure Hadoop (γ : Type) where
  useYarn : Bool
  haEnabled : Bool
  netTopologyScript : Bool
  gangliaHosts : Bool
  template : ConfigFile → γ

namespace Hadoop

variable (h : Hadoop γ)

/-- Whether a file of the configuration directory is to be there. -/
def ensure : ConfigFile → Bool
  | .netTopology => h.netTopologyScript
  | .yarnSite => h.useYarn
  | .yarnEnv => h.useYarn
  | .hadoopMetrics2 => h.gangliaHosts
  | _ => true

/-- What a file of the configuration directory is to be. -/
def rendered (f : ConfigFile) : Option γ :=
  if h.ensure f then some (h.template f) else none

/-- `cdh4::hadoop` -/
def hadoopClass : List MasterResource :=
  .clientPackage :: [ConfigFile.netTopology, .log4j, .coreSite, .hdfsSite,
    .httpfsSite, .hadoopEnv, .mapredSite, .yarnSite, .yarnEnv,
    .hadoopMetrics2].map .configFile

/-- `cdh4::hadoop::namenode` -/
def namenodeClass : List MasterResource :=
  [.package .namenode, .hostsExclude, .nameDir, .namenodeFormat,
    .service .namenode]

/-- `cdh4::hadoop::namenode::primary`, without what it inherits -/
def primaryClass : List MasterResource :=
  (if h.haEnabled then [.transitionToActive] else [])
    ++ [Directory.tmp, .user, .userHdfs, .var, .varLib, .varLog].map .directory

/-- `cdh4::hadoop::resourcemanager` -/
def resourcemanagerClass : List MasterResource :=
  [.directory .hadoopYarn, .package .resourcemanager, .service .resourcemanager]

/-- `cdh4::hadoop::historyserver` -/
def historyserverClass : List MasterResource :=
  [.directory .userHistory, .package .historyserver, .service .historyserver]

/-- The directories of `cdh4::hadoop::jobtracker`. -/
def jobtrackerDirectories : List MasterResource :=
  [Directory.mapred, .mapredSystem, .hadoopHdfs, .cache, .cacheMapred,
    .cacheMapredMapred, .staging].map .directory

/-- `cdh4::hadoop::jobtracker` -/
def jobtrackerClass : List MasterResource :=
  jobtrackerDirectories ++ [.package .jobtracker, .service .jobtracker]

/-- `cdh4::hadoop` and `cdh4::hadoop::master`, with the classes it includes -/
def members : List MasterResource :=
  hadoopClass ++ namenodeClass ++ h.primaryClass
    ++ if h.useYarn then resourcemanagerClass ++ historyserverClass
      else jobtrackerClass

/-- What the directories require that are not in another one: that the file
system is served. -/
def served : MasterResource :=
  if h.haEnabled then .transitionToActive else .service .namenode

/-- What a directory requires, on its own or as a part of its class. -/
def requiresDirectory : Directory → List MasterResource
  | .hadoopYarn => namenodeClass ++ [.service .namenode, .directory .varLog]
  | .userHistory => namenodeClass ++ [.service .namenode, .directory .user]
  | .mapred => namenodeClass ++ [.directory .tmp]
  | .mapredSystem => namenodeClass ++ [.directory .mapred]
  | .hadoopHdfs => namenodeClass ++ [.directory .varLib]
  | .cache => namenodeClass ++ [.directory .hadoopHdfs]
  | .cacheMapred => namenodeClass ++ [.directory .cache]
  | .cacheMapredMapred => namenodeClass ++ [.directory .cacheMapred]
  | .staging => namenodeClass ++ [.directory .cacheMapredMapred]
  | .tmp => [h.served]
  | .user => [h.served]
  | .userHdfs => [.directory .user]
  | .var => [h.served]
  | .varLib => [.directory .var]
  | .varLog => [.directory .var]

/-- What each resource requires. -/
def requires : MasterResource → List MasterResource
  | .clientPackage => []
  | .configFile _ => [.clientPackage]
  | .package .namenode => hadoopClass
  | .hostsExclude => hadoopClass ++ [.package .namenode]
  | .nameDir => hadoopClass ++ [.package .namenode]
  | .namenodeFormat => hadoopClass ++ [.nameDir]
  | .service .namenode => hadoopClass ++ [.hostsExclude, .namenodeFormat]
  | .transitionToActive => [.namenodeFormat, .service .namenode]
  | .directory d => hadoopClass ++ h.requiresDirectory d
  | .package .resourcemanager => namenodeClass ++ [.directory .hadoopYarn]
  | .package .historyserver => namenodeClass ++ [.directory .userHistory]
  | .package .jobtracker => namenodeClass ++ jobtrackerDirectories
  | .service .resourcemanager => namenodeClass ++ [.package .resourcemanager]
  | .service .historyserver => namenodeClass ++ [.package .historyserver]
  | .service .jobtracker => namenodeClass ++ [.package .jobtracker]
  | .package _ => []
  | .service _ => []

/-- Whether a service would come up: the NameNode does not without having been
formatted. -/
def startable (s : Service) (n : Node γ) : Bool :=
  n.installed s && (s != .namenode || n.formats != 0)

/-- The host with a service that has come up. A NameNode that is one of two
comes up as the standby one. -/
def started (s : Service) (n : Node γ) : Node γ :=
  { n with
    running := Function.update n.running s true
    active := if s = .namenode then !h.haEnabled else n.active }

/-- `ensure => 'running'` -/
def startService (s : Service) (n : Node γ) : Option (Node γ) :=
  if n.running s then some n
  else if startable s n then some (h.started s n)
  else none

/-- `enable => true` -/
def enableService (s : Service) : Node γ → Option (Node γ) :=
  command (fun _ => true) (Node.enable s)

variable [DecidableEq γ]

/-- **How each resource is put in place**, and how it is seen to be. -/
def resource : MasterResource → ResourceGraph.Resource (Node γ)
  | .clientPackage =>
    .single Node.client (fun _ => true) fun n => { n with client := true }
  | .configFile f =>
    .single (fun n => n.config f = h.rendered f) Node.client
      (Node.configure f (h.rendered f))
  | .package s =>
    .single (fun n => n.installed s) (fun _ => true) (Node.install s)
  | .hostsExclude =>
    .single Node.hostsExclude Node.client fun n => { n with hostsExclude := true }
  | .nameDir =>
    .single Node.nameDir (fun n => n.dataRoot && n.client) fun n =>
      { n with nameDir := true }
  | .namenodeFormat =>
    .single (fun n => n.formats != 0) Node.nameDir Node.formatted
  | .transitionToActive =>
    .single Node.up (fun n => n.running .namenode) fun n => { n with active := true }
  | .service s =>
    ⟨fun n => n.running s && n.enabled s, [h.startService s, enableService s]⟩
  | .directory d => ⟨Node.test d.place, d.commands⟩

/-- **The catalog** of `hdfs-master.pp`. The NameNode is made active if it has
just been formatted. -/
def graph : Resources MasterResource (Node γ) where
  resource := h.resource
  requires := h.requires
  trigger := fun
    | .transitionToActive => some .namenodeFormat
    | _ => none

end Hadoop

/-! ## What one resource can do -/

/-- **What a resource can change**, and when. -/
inductive Change (h : Hadoop γ) : MasterResource → Node γ → Node γ → Prop
  | clientPackage {n : Node γ} : Change h .clientPackage n { n with client := true }
  | configFile {n : Node γ} (f : ConfigFile) : Change h (.configFile f) n
      (n.configure f (h.rendered f))
  | package {n : Node γ} (s : Service) : Change h (.package s) n
      (n.install s)
  | hostsExclude {n : Node γ} : Change h .hostsExclude n { n with hostsExclude := true }
  | nameDir {n : Node γ} (hroot : n.dataRoot = true) :
      Change h .nameDir n { n with nameDir := true }
  | namenodeFormat {n : Node γ} (hfirst : n.formats = 0) :
      Change h .namenodeFormat n n.formatted
  | transitionToActive {n : Node γ} :
      Change h .transitionToActive n { n with active := true }
  | service {n : Node γ} (s : Service) (hdown : n.running s = false)
      (hstart : Hadoop.startable s n = true) :
      Change h (.service s) n (h.started s n)
  | enable {n : Node γ} (s : Service) (hrun : n.running s = true) :
      Change h (.service s) n (n.enable s)
  | directory {n : Node γ} (d : Directory) (a : Attr) (hup : n.up = true)
      (hnew : n.hdfs d.place = none) :
      Change h (.directory d) n (n.put d.place a)

variable {h : Hadoop γ} {n n' : Node γ}

namespace Node

variable {p q : Place} {a : Attr}

@[simp] theorem config_configure_self {f : ConfigFile} {x : Option γ} :
    (n.configure f x).config f = x :=
  Function.update_self f _ n.config

theorem config_configure_of_ne {f f' : ConfigFile} {x : Option γ} (hf : f' ≠ f) :
    (n.configure f x).config f' = n.config f' :=
  Function.update_of_ne hf _ n.config

@[simp] theorem installed_install_self {s : Service} :
    (n.install s).installed s = true :=
  Function.update_self s _ n.installed

theorem installed_install_of_ne {s s' : Service} (hs : s' ≠ s) :
    (n.install s).installed s' = n.installed s' :=
  Function.update_of_ne hs _ n.installed

@[simp] theorem running_started_self {s : Service} :
    (h.started s n).running s = true :=
  Function.update_self s _ n.running

theorem running_started_of_ne {s s' : Service} (hs : s' ≠ s) :
    (h.started s n).running s' = n.running s' :=
  Function.update_of_ne hs _ n.running

@[simp] theorem enabled_enable_self {s : Service} :
    (n.enable s).enabled s = true :=
  Function.update_self s _ n.enabled

theorem enabled_enable_of_ne {s s' : Service} (hs : s' ≠ s) :
    (n.enable s).enabled s' = n.enabled s' :=
  Function.update_of_ne hs _ n.enabled

@[simp] theorem up_put : (n.put p a).up = n.up := rfl

@[simp] theorem hdfs_put_self : (n.put p a).hdfs p = some a :=
  Function.update_self p _ n.hdfs

theorem hdfs_put_of_ne (hq : q ≠ p) : (n.put p a).hdfs q = n.hdfs q :=
  Function.update_of_ne hq _ n.hdfs

/-- A new directory gets its attributes. -/
theorem change_put (f : Attr → Attr) (hup : n.up = true) :
    change p f (n.put p a) = some (n.put p (f a)) := by
  have htest : (n.put p a).test p = true := by simp [test, hup]
  unfold change command
  rw [if_pos htest]
  simp [put]

theorem canMkdir_iff : n.canMkdir p = true
    ↔ n.up = true ∧ n.hdfs p = none ∧ (p.tail = [] ∨ n.hdfs p.tail ≠ none) := by
  simp [canMkdir, Option.isSome_iff_ne_none, and_assoc]

end Node

/-- A directory that can be made is made as it is declared, or the commands
have been cut off. -/
theorem attempt_directory {d : Directory} (hcan : n.canMkdir d.place = true)
    (k : ℕ) :
    (3 ≤ k ∧ attempt d.commands k n = (true, n.put d.place d.attr))
      ∨ k < 3 ∧ ∃ n', attempt d.commands k n = (false, n')
        ∧ (n' = n ∨ ∃ a, n' = n.put d.place a) := by
  have hup : n.up = true := (Node.canMkdir_iff.mp hcan).1
  obtain ⟨a, hmkdir⟩ : ∃ a, Node.mkdir d.place n = some (n.put d.place a) :=
    ⟨_, if_pos hcan⟩
  have hchmod := fun a => Node.change_put (p := d.place) (a := a)
    (fun a => { a with mode := d.attr.mode }) hup
  have hchown := fun a => Node.change_put (p := d.place) (a := a)
    (fun a => { a with owner := d.attr.owner, group := d.attr.group }) hup
  unfold Directory.commands
  match k with
  | 0 => exact Or.inr ⟨by simp, n, rfl, Or.inl rfl⟩
  | 1 =>
    refine Or.inr ⟨by simp, n.put d.place a, ?_, Or.inr ⟨a, rfl⟩⟩
    simp only [attempt, hmkdir]
  | 2 =>
    refine Or.inr ⟨by simp, n.put d.place { a with mode := d.attr.mode }, ?_,
      Or.inr ⟨_, rfl⟩⟩
    simp only [attempt, hmkdir, Node.chmod, hchmod]
  | k + 3 =>
    refine Or.inl ⟨by simp, ?_⟩
    simp only [attempt, hmkdir, Node.chmod, hchmod, Node.chown, hchown]

/-- Starting a service that does not run. -/
theorem startService_eq_some {s : Service} (hs : h.startService s n = some n') :
    n'.running s = true
      ∧ (n' = n ∨ n.running s = false ∧ Hadoop.startable s n = true
        ∧ n' = h.started s n) := by
  unfold Hadoop.startService at hs
  split at hs
  · next hrun =>
    obtain rfl := Option.some.inj hs
    exact ⟨hrun, Or.inl rfl⟩
  · next hdown =>
    split at hs
    · next hstart =>
      obtain rfl := Option.some.inj hs
      exact ⟨Node.running_started_self,
        Or.inr ⟨Bool.not_eq_true _ ▸ hdown, hstart, rfl⟩⟩
    · exact absurd hs (by simp)

/-! ## What a resource is good for -/

/-- **What holds of the host at all times**: the NameNode has been formatted at
most once, before that the file system is empty, and only what is installed –
and formatted – runs. -/
structure Sane (h : Hadoop γ) (n : Node γ) : Prop where
  once : n.formats ≤ 1
  empty : n.formats = 0 → ∀ p, n.hdfs p = none
  formatted : n.running .namenode = true → n.formats ≠ 0
  installed : ∀ s, n.running s = true → n.installed s = true
  active : h.haEnabled = false → n.running .namenode = true → n.active = true

/-- What is in place. -/
def Has (h : Hadoop γ) : MasterResource → Node γ → Prop
  | .clientPackage, n => n.client = true
  | .configFile f, n => n.config f = h.rendered f
  | .package s, n => n.installed s = true
  | .hostsExclude, n => n.hostsExclude = true
  | .nameDir, n => n.nameDir = true
  | .namenodeFormat, n => n.formats ≠ 0
  | .transitionToActive, _ => True
  | .service s, n => n.running s = true ∨ n.enabled s = true
  | .directory d, n => n.hdfs d.place ≠ none

/-- What can be relied on: whatever is in place, that a service runs and is
enabled, and that the file system is served where a directory has been seen in
it. -/
def Done (h : Hadoop γ) (r : MasterResource) (n : Node γ) : Prop :=
  Has h r n ∧ (∀ s, r = .service s → n.running s = true ∧ n.enabled s = true)
    ∧ ∀ d, r = .directory d → n.up = true

/-- Without a second NameNode the file system is served by the one that
runs. -/
theorem Sane.up (hs : Sane h n) (hha : h.haEnabled = false)
    (hrun : n.running .namenode = true) : n.up = true :=
  Bool.and_eq_true_iff.mpr ⟨hrun, hs.active hha hrun⟩

/-- What is served has been formatted. -/
theorem Sane.formats_ne_zero (hs : Sane h n) (hup : n.up = true) :
    n.formats ≠ 0 :=
  hs.formatted (Bool.and_eq_true_iff.mp hup).1

/-- **No change breaks what holds at all times.** -/
theorem Sane.change {r : MasterResource} (hs : Sane h n) (hc : Change h r n n') :
    Sane h n' := by
  cases hc with
  | package s =>
    refine ⟨hs.once, hs.empty, hs.formatted, fun s' hrun => ?_, hs.active⟩
    by_cases heq : s' = s
    · rw [heq]
      exact Node.installed_install_self
    · exact (Node.installed_install_of_ne heq).trans (hs.installed s' hrun)
  | namenodeFormat hfirst =>
    refine ⟨?_, fun _ _ => rfl, fun _ => Nat.succ_ne_zero _, hs.installed, hs.active⟩
    show n.formats + 1 ≤ 1
    rw [hfirst]
  | transitionToActive =>
    exact ⟨hs.once, hs.empty, hs.formatted, hs.installed, fun _ _ => rfl⟩
  | service s hdown hstart =>
    obtain ⟨hinst, hform⟩ := Bool.and_eq_true_iff.mp hstart
    have hrunning : ∀ s', (h.started s n).running s' = true →
        s' = s ∨ n.running s' = true := by
      intro s' hrun
      by_cases heq : s' = s
      · exact Or.inl heq
      · exact Or.inr ((Node.running_started_of_ne heq).symm.trans hrun)
    refine ⟨hs.once, hs.empty, fun hrun => ?_, fun s' hrun => ?_, fun hha hrun => ?_⟩
    · show n.formats ≠ 0
      obtain rfl | hrun := hrunning .namenode hrun
      · simpa using hform
      · exact hs.formatted hrun
    · obtain rfl | hrun := hrunning s' hrun
      · exact hinst
      · exact hs.installed s' hrun
    · show (if s = .namenode then !h.haEnabled else n.active) = true
      split
      · simp [hha]
      · next hne =>
        obtain heq | hrun := hrunning .namenode hrun
        · exact absurd heq.symm hne
        · exact hs.active hha hrun
  | directory d a hup hnew =>
    exact ⟨hs.once, fun h0 => absurd h0 (hs.formats_ne_zero hup), hs.formatted,
      hs.installed, hs.active⟩
  | clientPackage | configFile f | hostsExclude | nameDir hroot | enable s hrun =>
    exact ⟨hs.once, hs.empty, hs.formatted, hs.installed, hs.active⟩

/-- A file system that is served stays so. -/
theorem Change.up {r : MasterResource} (hc : Change h r n n') (hup : n.up = true) :
    n'.up = true := by
  cases hc with
  | transitionToActive => exact Bool.and_eq_true_iff.mpr ⟨(Bool.and_eq_true_iff.mp hup).1, rfl⟩
  | service s hdown hstart =>
    have hrun : n.running .namenode = true := (Bool.and_eq_true_iff.mp hup).1
    have hne : Service.namenode ≠ s := fun heq => by
      rw [← heq, hrun] at hdown
      exact absurd hdown (by simp)
    refine Bool.and_eq_true_iff.mpr
      ⟨(Node.running_started_of_ne hne).trans hrun, ?_⟩
    show (if s = .namenode then !h.haEnabled else n.active) = true
    rw [if_neg hne.symm]
    exact (Bool.and_eq_true_iff.mp hup).2
  | _ => exact hup

/-- **No change undoes what is in place.** -/
theorem Has.change {r d : MasterResource} (hs : Sane h n) (hc : Change h r n n')
    (hd : Has h d n) : Has h d n' := by
  cases hc with
  | clientPackage => cases d <;> first | exact hd | rfl
  | hostsExclude => cases d <;> first | exact hd | rfl
  | nameDir => cases d <;> first | exact hd | rfl
  | transitionToActive => cases d <;> exact hd
  | configFile f =>
    cases d with
    | configFile f' =>
      by_cases heq : f' = f
      · rw [heq]
        exact Node.config_configure_self
      · exact (Node.config_configure_of_ne heq).trans hd
    | _ => exact hd
  | package s =>
    cases d with
    | package s' =>
      by_cases heq : s' = s
      · rw [heq]
        exact Node.installed_install_self
      · exact (Node.installed_install_of_ne heq).trans hd
    | _ => exact hd
  | service s =>
    cases d with
    | service s' =>
      by_cases heq : s' = s
      · rw [heq]
        exact Or.inl Node.running_started_self
      · exact hd.imp_left (Node.running_started_of_ne heq).trans
    | _ => exact hd
  | enable s =>
    cases d with
    | service s' =>
      by_cases heq : s' = s
      · rw [heq]
        exact Or.inr Node.enabled_enable_self
      · exact hd.imp_right (Node.enabled_enable_of_ne heq).trans
    | _ => exact hd
  | namenodeFormat hfirst =>
    cases d with
    | namenodeFormat => exact Nat.succ_ne_zero _
    | directory d => exact absurd (hs.empty hfirst d.place) hd
    | _ => exact hd
  | directory d' a =>
    cases d with
    | directory d =>
      show (n.put d'.place a).hdfs d.place ≠ none
      by_cases heq : d.place = d'.place
      · rw [heq, Node.hdfs_put_self]
        exact Option.some_ne_none a
      · rw [Node.hdfs_put_of_ne heq]
        exact hd
    | _ => exact hd

/-- **A change gets nothing else into place.** -/
theorem Has.of_change {r d : MasterResource} (hc : Change h r n n') (hne : d ≠ r)
    (hd : Has h d n') : Has h d n := by
  cases hc with
  | clientPackage => cases d <;> first | exact hd | exact absurd rfl hne
  | hostsExclude => cases d <;> first | exact hd | exact absurd rfl hne
  | nameDir => cases d <;> first | exact hd | exact absurd rfl hne
  | transitionToActive => cases d <;> exact hd
  | configFile f =>
    cases d with
    | configFile f' =>
      have heq : f' ≠ f := fun heq => hne (congrArg _ heq)
      exact (Node.config_configure_of_ne heq).symm.trans hd
    | _ => exact hd
  | package s =>
    cases d with
    | package s' =>
      have heq : s' ≠ s := fun heq => hne (congrArg _ heq)
      exact (Node.installed_install_of_ne heq).symm.trans hd
    | _ => exact hd
  | service s =>
    cases d with
    | service s' =>
      have heq : s' ≠ s := fun heq => hne (congrArg _ heq)
      exact hd.imp_left (Node.running_started_of_ne heq).symm.trans
    | _ => exact hd
  | enable s =>
    cases d with
    | service s' =>
      have heq : s' ≠ s := fun heq => hne (congrArg _ heq)
      exact hd.imp_right (Node.enabled_enable_of_ne heq).symm.trans
    | _ => exact hd
  | namenodeFormat =>
    cases d with
    | namenodeFormat => exact absurd rfl hne
    | directory d => exact absurd rfl hd
    | _ => exact hd
  | directory d' a =>
    cases d with
    | directory d =>
      have heq : d.place ≠ d'.place :=
        fun heq => hne (congrArg _ (Directory.place_injective heq))
      show n.hdfs d.place ≠ none
      rw [← Node.hdfs_put_of_ne (a := a) heq]
      exact hd
    | _ => exact hd

/-- A service that runs goes on running. -/
theorem Change.running {r : MasterResource} {s : Service} (hc : Change h r n n')
    (hrun : n.running s = true) : n'.running s = true := by
  cases hc with
  | service s' =>
    by_cases heq : s = s'
    · rw [heq]
      exact Node.running_started_self
    · exact (Node.running_started_of_ne heq).trans hrun
  | _ => exact hrun

/-- A change leaves what is in the file system. -/
theorem Change.hdfs {r : MasterResource} (hs : Sane h n) (hc : Change h r n n')
    {p : Place} {a : Attr} (hp : n.hdfs p = some a) : n'.hdfs p = some a := by
  cases hc with
  | namenodeFormat hfirst =>
    rw [hs.empty hfirst p] at hp
    exact absurd hp (by simp)
  | directory d a' hup hnew =>
    refine (Node.hdfs_put_of_ne fun heq => ?_).trans hp
    rw [heq, hnew] at hp
    exact absurd hp (by simp)
  | _ => exact hp

/-- A service that is enabled stays so. -/
theorem Change.enabled {r : MasterResource} {s : Service} (hc : Change h r n n')
    (henabled : n.enabled s = true) : n'.enabled s = true := by
  cases hc with
  | enable s' =>
    by_cases heq : s = s'
    · rw [heq]
      exact Node.enabled_enable_self
    · exact (Node.enabled_enable_of_ne heq).trans henabled
  | _ => exact henabled

/-- What can be relied on can still be relied on after a change. -/
theorem Done.change {r d : MasterResource} (hs : Sane h n) (hc : Change h r n n')
    (hd : Done h d n) : Done h d n' :=
  ⟨hd.1.change hs hc,
    fun s heq => ⟨hc.running (hd.2.1 s heq).1, hc.enabled (hd.2.1 s heq).2⟩,
    fun d' heq => hc.up (hd.2.2 d' heq)⟩

/-! ## What enforcing a resource does -/

variable [DecidableEq γ]

/-- **A directory** is left alone if it is there. Otherwise, where it can be
made, it is made with some attributes – the declared ones unless the commands
are cut off – and where it cannot nothing happens. -/
theorem enforce_directory (h : Hadoop γ) (d : Directory) (k : ℕ) (n : Node γ) :
    let e := (h.resource (.directory d)).enforce k n
    (n.test d.place = true ∧ e = (.unchanged, n))
      ∨ (n.canMkdir d.place = true ∧ 3 ≤ k ∧ e = (.changed, n.put d.place d.attr))
      ∨ (n.canMkdir d.place = true ∧ k < 3 ∧ e.1 = .failed
        ∧ (e.2 = n ∨ ∃ a, e.2 = n.put d.place a))
      ∨ (n.test d.place = false ∧ n.canMkdir d.place = false ∧ e = (.failed, n)) := by
  intro e
  cases htest : n.test d.place with
  | true => exact Or.inl ⟨rfl, enforce_of_inSync htest k⟩
  | false =>
    have he : e = (if (attempt d.commands k n).1 then .changed else .failed,
        (attempt d.commands k n).2) := enforce_of_not_inSync htest k
    refine Or.inr ?_
    cases hcan : n.canMkdir d.place with
    | true =>
      obtain ⟨hk, hattempt⟩ | ⟨hk, n', hattempt, hn'⟩ := attempt_directory hcan k
      · rw [hattempt] at he
        exact Or.inl ⟨rfl, hk, he⟩
      · rw [hattempt] at he
        rw [he]
        exact Or.inr (Or.inl ⟨rfl, hk, rfl, hn'⟩)
    | false =>
      refine Or.inr (Or.inr ⟨rfl, rfl, ?_⟩)
      have hmkdir : Node.mkdir d.place n = none := if_neg (by simp [hcan])
      rw [he]
      unfold Directory.commands
      cases k with
      | zero => rfl
      | succ k =>
        simp only [attempt, hmkdir]
        rfl

/-- **A service** is left alone if it runs and is enabled. Otherwise it is
started and then enabled, or what fails leaves it as it is then. -/
theorem enforce_service (h : Hadoop γ) (s : Service) (k : ℕ) (n : Node γ) :
    let e := (h.resource (.service s)).enforce k n
    (n.running s = true ∧ n.enabled s = true ∧ e = (.unchanged, n))
      ∨ (∃ n', h.startService s n = some n' ∧ 2 ≤ k ∧ e = (.changed, n'.enable s))
      ∨ (e.1 = .failed ∧ (h.startService s n = none ∨ k < 2)
        ∧ (e.2 = n ∨ h.startService s n = some e.2)) := by
  intro e
  cases hsync : (n.running s && n.enabled s) with
  | true =>
    obtain ⟨hrun, henabled⟩ := Bool.and_eq_true_iff.mp hsync
    exact Or.inl ⟨hrun, henabled, enforce_of_inSync hsync k⟩
  | false =>
    have he : e = (if (attempt [h.startService s, Hadoop.enableService s] k n).1
          then .changed else .failed,
        (attempt [h.startService s, Hadoop.enableService s] k n).2) :=
      enforce_of_not_inSync hsync k
    refine Or.inr ?_
    rw [he]
    cases k with
    | zero => exact Or.inr ⟨rfl, Or.inr (by simp), Or.inl rfl⟩
    | succ k =>
      cases hstart : h.startService s n with
      | none =>
        simp only [attempt, hstart]
        exact Or.inr ⟨rfl, Or.inl trivial, Or.inl trivial⟩
      | some n' =>
        simp only [attempt, hstart]
        cases k with
        | zero => exact Or.inr ⟨rfl, Or.inr (by simp), Or.inr rfl⟩
        | succ k => exact Or.inl ⟨n', rfl, by simp, rfl⟩

/-- **Enforcing a resource** makes one change after the other, if any. -/
theorem enforce_changes (h : Hadoop γ) (r : MasterResource) (k : ℕ) (n : Node γ) :
    Relation.ReflTransGen (Change h r) n ((h.graph.resource r).enforce k n).2 := by
  -- a resource with one command makes at most one change
  have hone : ∀ {n' : Node γ}, n' = n ∨ Change h r n n' →
      Relation.ReflTransGen (Change h r) n n' := by
    rintro n' (rfl | hc)
    · exact .refl
    · exact .single hc
  show Relation.ReflTransGen (Change h r) n ((h.resource r).enforce k n).2
  cases r with
  | directory d =>
    obtain ⟨-, heq⟩ | ⟨hcan, -, heq⟩ | ⟨hcan, -, -, heq⟩ | ⟨-, -, heq⟩ :=
      enforce_directory h d k n
    · exact hone (Or.inl (congrArg Prod.snd heq))
    · obtain ⟨hup, hnew, -⟩ := Node.canMkdir_iff.mp hcan
      rw [heq]
      exact .single (.directory d _ hup hnew)
    · obtain ⟨hup, hnew, -⟩ := Node.canMkdir_iff.mp hcan
      obtain heq | ⟨a, heq⟩ := heq
      · exact hone (Or.inl heq)
      · rw [heq]
        exact .single (.directory d a hup hnew)
    · exact hone (Or.inl (congrArg Prod.snd heq))
  | service s =>
    have hstart : ∀ {n'}, h.startService s n = some n' →
        Relation.ReflTransGen (Change h (.service s)) n n' := by
      intro n' hs
      obtain ⟨-, rfl | ⟨hdown, hstart, rfl⟩⟩ := startService_eq_some hs
      · exact .refl
      · exact .single (.service s hdown hstart)
    obtain ⟨-, -, heq⟩ | ⟨n', hs, -, heq⟩ | ⟨-, -, heq | hs⟩ := enforce_service h s k n
    · exact hone (Or.inl (congrArg Prod.snd heq))
    · rw [heq]
      exact (hstart hs).tail (.enable s (startService_eq_some hs).1)
    · exact hone (Or.inl heq)
    · exact hstart hs
  | clientPackage =>
    obtain heq | ⟨-, -, heq⟩ := enforce_single_cases _ _ _ k n
    · exact hone (Or.inl heq)
    · exact hone (Or.inr (heq ▸ .clientPackage))
  | configFile f =>
    obtain heq | ⟨-, -, heq⟩ := enforce_single_cases _ _ _ k n
    · exact hone (Or.inl heq)
    · exact hone (Or.inr (heq ▸ .configFile f))
  | package s =>
    obtain heq | ⟨-, -, heq⟩ := enforce_single_cases _ _ _ k n
    · exact hone (Or.inl heq)
    · exact hone (Or.inr (heq ▸ .package s))
  | hostsExclude =>
    obtain heq | ⟨-, -, heq⟩ := enforce_single_cases _ _ _ k n
    · exact hone (Or.inl heq)
    · exact hone (Or.inr (heq ▸ .hostsExclude))
  | nameDir =>
    obtain heq | ⟨-, hpre, heq⟩ := enforce_single_cases _ _ _ k n
    · exact hone (Or.inl heq)
    · exact hone (Or.inr (heq ▸ .nameDir (Bool.and_eq_true_iff.mp hpre).1))
  | namenodeFormat =>
    obtain heq | ⟨hsync, -, heq⟩ := enforce_single_cases _ _ _ k n
    · exact hone (Or.inl heq)
    · exact hone (Or.inr (heq ▸ .namenodeFormat (by simpa using hsync)))
  | transitionToActive =>
    obtain heq | ⟨-, -, heq⟩ := enforce_single_cases _ _ _ k n
    · exact hone (Or.inl heq)
    · exact hone (Or.inr (heq ▸ .transitionToActive))

/-- What enforcing keeps, it keeps because a change does. -/
theorem enforce_of_change (r : MasterResource) (k : ℕ) {P : Node γ → Prop}
    (hs : Sane h n) (hP : P n)
    (hchange : ∀ m m', Sane h m → P m → Change h r m m' → P m') :
    Sane h ((h.graph.resource r).enforce k n).2
      ∧ P ((h.graph.resource r).enforce k n).2 := by
  have hc := enforce_changes h r k n
  generalize ((h.graph.resource r).enforce k n).2 = n' at hc ⊢
  induction hc with
  | refl => exact ⟨hs, hP⟩
  | tail _ hc ih => exact ⟨ih.1.change hc, hchange _ _ ih.1 ih.2 hc⟩

/-- **A resource that has not failed is in place**, and can be seen to be. -/
theorem done_enforce (r : MasterResource) (k : ℕ)
    (hok : ((h.graph.resource r).enforce k n).1 ≠ .failed) :
    Done h r ((h.graph.resource r).enforce k n).2 := by
  -- nothing beyond being in place is asked of most resources
  have hother : ∀ {r : MasterResource} {n : Node γ}, (∀ s, r ≠ .service s) →
      (∀ d, r ≠ .directory d) → Has h r n → Done h r n :=
    fun hs hd hhas => ⟨hhas, fun s heq => absurd heq (hs s),
      fun d heq => absurd heq (hd d)⟩
  cases r with
  | directory d =>
    have hdone : ∀ n', n'.test d.place = true → Done h (.directory d) n' :=
      fun n' htest => ⟨Option.isSome_iff_ne_none.mp (Bool.and_eq_true_iff.mp htest).2,
        fun _ => MasterResource.noConfusion,
        fun _ _ => (Bool.and_eq_true_iff.mp htest).1⟩
    obtain ⟨htest, heq⟩ | ⟨hcan, -, heq⟩ | ⟨-, -, hfail, -⟩ | ⟨-, -, heq⟩ :=
      enforce_directory h d k n
    · exact (congrArg Prod.snd heq).symm ▸ hdone n htest
    · refine (congrArg Prod.snd heq).symm ▸ hdone _ ?_
      simp [Node.test, (Node.canMkdir_iff.mp hcan).1]
    · exact absurd hfail hok
    · exact absurd (congrArg Prod.fst heq) hok
  | service s =>
    have hdone : ∀ n', n'.running s = true → n'.enabled s = true →
        Done h (.service s) n' := fun n' hrun henabled => ⟨Or.inl hrun,
      fun s' heq => (MasterResource.service.inj heq) ▸ ⟨hrun, henabled⟩,
      fun _ => MasterResource.noConfusion⟩
    obtain ⟨hrun, henabled, heq⟩ | ⟨n', hs, -, heq⟩ | ⟨hfail, -, -⟩ :=
      enforce_service h s k n
    · exact (congrArg Prod.snd heq).symm ▸ hdone n hrun henabled
    · exact (congrArg Prod.snd heq).symm ▸ hdone _ (startService_eq_some hs).1
        Node.enabled_enable_self
    · exact absurd hfail hok
  | clientPackage =>
    exact hother nofun nofun (of_enforce_single (P := Has h .clientPackage) id rfl hok)
  | configFile f =>
    exact hother nofun nofun (of_enforce_single (P := Has h (.configFile f))
      of_decide_eq_true Node.config_configure_self hok)
  | package s =>
    exact hother nofun nofun (of_enforce_single (P := Has h (.package s)) id
      Node.installed_install_self hok)
  | hostsExclude =>
    exact hother nofun nofun (of_enforce_single (P := Has h .hostsExclude) id rfl hok)
  | nameDir =>
    exact hother nofun nofun (of_enforce_single (P := Has h .nameDir) id rfl hok)
  | namenodeFormat =>
    exact hother nofun nofun (of_enforce_single (P := Has h .namenodeFormat)
      bne_iff_ne.mp (Nat.succ_ne_zero _) hok)
  | transitionToActive => exact hother nofun nofun trivial

/-- **What the resources of the master are good for.** -/
theorem lawful (h : Hadoop γ) : Lawful h.graph (Sane h) (Done h) where
  quiet r n ht := by
    cases r with
    | transitionToActive => exact ⟨trivial, nofun, nofun⟩
    | _ => exact absurd rfl ht
  inv r k n hs _ :=
    (enforce_of_change (P := fun _ => True) r k hs trivial
      fun _ _ _ _ _ => trivial).1
  done r k n _ _ hok := done_enforce r k hok
  keep r k n d hs _ hd :=
    (enforce_of_change r k hs hd fun _ _ hs hd hc => hd.change hs hc).2

end Hdfs
