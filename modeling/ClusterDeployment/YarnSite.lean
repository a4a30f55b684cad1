import ClusterDeployment.HdfsSite

/-!
# The directories of a NodeManager

On each mount `yarn-site.xml` names a directory for the files of containers and
one for their logs. Where these are on a mount is a parameter of the class, like
the path of the blocks. The directories themselves are made by another class,
and of the parameters this one asks only for the path of the blocks: those of a
NodeManager it makes at the paths that are the defaults.

So a different path is in the file and nowhere else. Nothing fails: the run gets
everything into place, and the NodeManager is started. But its directories have
been made for it exactly if the path is one of those that the class has in mind
(`nodeDirs_there_iff`), and at another one they are never made, in any run – it
has to make them itself, where it may.
-/

namespace Hdfs

open ResourceGraph Run

/-! ## The template -/

/-- **The parameters** of the template, besides those of `hdfs-site.xml`. -/
structure YarnSite extends Site where
  localPath : Text := "yarn/local".toList
  logsPath : Text := "yarn/logs".toList
  resourceMemoryMb : Option ℕ := none
  schedulerClass : Option Text := none

/-- The directories of a NodeManager: those for files, and those for logs. -/
inductive NodeDirs where
  | localDirs
  | logDirs

/-- The property that names them. -/
def NodeDirs.property : NodeDirs → Text
  | localDirs => "yarn.nodemanager.local-dirs".toList
  | logDirs => "yarn.nodemanager.log-dirs".toList

namespace YarnSite

variable (s : YarnSite)

/-- The path on each of the mounts. -/
def path : NodeDirs → Text
  | .localDirs => s.localPath
  | .logDirs => s.logsPath

/-- The property with the directories, if there are mounts. -/
def dirProperty (k : NodeDirs) (mounts : List Text) : Property :=
  (k.property, join ",".toList (mounts.map fun mount => mount ++ "/".toList ++ s.path k))

/-- The properties with the addresses of the ResourceManager. -/
def resourceManager : List Property :=
  [("yarn.resourcemanager.scheduler.address".toList, s.primaryNamenodeHost ++ ":8030".toList),
    ("yarn.resourcemanager.resource-tracker.address".toList,
      s.primaryNamenodeHost ++ ":8031".toList),
    ("yarn.resourcemanager.address".toList, s.primaryNamenodeHost ++ ":8032".toList),
    ("yarn.resourcemanager.admin.address".toList, s.primaryNamenodeHost ++ ":8033".toList),
    ("yarn.resourcemanager.webapp.address".toList, "0.0.0.0:8088".toList)]
  ++ (s.schedulerClass.map fun c =>
    [("yarn.resourcemanager.scheduler.class".toList, c)]).getD []

/-- The properties of a NodeManager that are the same everywhere. -/
def nodeManager : List Property :=
  [("yarn.nodemanager.localizer.address".toList, "0.0.0.0:8040".toList),
    ("yarn.nodemanager.address".toList, "0.0.0.0:8041".toList),
    ("yarn.nodemanager.webapp.address".toList, "0.0.0.0:8042".toList),
    ("yarn.nodemanager.aux-services".toList, "mapreduce.shuffle".toList),
    ("yarn.nodemanager.aux-services.mapreduce.shuffle.class".toList,
      "org.apache.hadoop.mapred.ShuffleHandler".toList)]

/-- The properties after the directories. -/
def rest : List Property :=
  (s.resourceMemoryMb.map fun mb =>
    [("yarn.nodemanager.resource.memory-mb".toList, mb.repr.toList)]).getD []
  ++ [("yarn.log-aggregation-enable".toList, "true".toList),
    ("yarn.nodemanager.remote-app-log-dir".toList, "/var/log/hadoop-yarn/apps".toList),
    ("yarn.app.mapreduce.am.staging-dir".toList, "/user".toList),
    ("yarn.resourcemanager.nodes.exclude-path".toList,
      s.configDirectory ++ "/hosts.exclude".toList),
    ("yarn.application.classpath".toList,
      ("$HADOOP_CONF_DIR,$HADOOP_COMMON_HOME/*,$HADOOP_COMMON_HOME/lib/*,"
        ++ "$HADOOP_HDFS_HOME/*,$HADOOP_HDFS_HOME/lib/*,"
        ++ "$HADOOP_MAPRED_HOME/*,$HADOOP_MAPRED_HOME/lib/*,"
        ++ "$YARN_HOME/*,$YARN_HOME/lib/*").toList)]

/-- `yarn-site.xml` -/
def yarnSite : List Property :=
  s.resourceManager ++ nodeManager
  ++ (s.mounts.map fun mounts =>
    [s.dirProperty .localDirs mounts, s.dirProperty .logDirs mounts]).getD []
  ++ s.rest

end YarnSite

/-- **What a NodeManager makes of it**: its directories. -/
def nodeDirs (k : NodeDirs) (ps : List Property) : List Text :=
  ((lookup k.property ps).map items).getD []

/-! ## Reading it -/

/-- Properties of other names do not count. -/
theorem lookup_append_of_ne {name : Text} {ps qs : List Property}
    (h : ∀ q ∈ qs, q.1 ≠ name) : lookup name (ps ++ qs) = lookup name ps := by
  have hnil : qs.filterMap (fun p => if p.1 = name then some p.2 else none) = [] :=
    List.filterMap_eq_nil_iff.mpr fun q hq => if_neg (h q hq)
  unfold lookup lastWrite
  rw [List.filterMap_append, hnil, List.append_nil]

/-- The last property of all. -/
theorem lookup_concat (name value : Text) (ps : List Property) :
    lookup name (ps ++ [(name, value)]) = some value := by
  unfold lookup
  rw [lastWrite_concat, if_pos rfl, Option.some_or]

variable {s : YarnSite}

/-- None of the properties after the directories names them. -/
theorem ne_of_mem_rest (k : NodeDirs) : ∀ q ∈ s.rest, q.1 ≠ k.property := by
  refine List.forall_mem_append.mpr ⟨?_, ?_⟩
  · cases s.resourceMemoryMb with
    | none => exact fun _ hq => absurd hq List.not_mem_nil
    | some mb =>
      refine List.forall_mem_singleton.mpr ?_
      show "yarn.nodemanager.resource.memory-mb".toList ≠ k.property
      cases k <;> decide
  · simp only [List.forall_mem_cons, List.not_mem_nil, false_imp_iff, implies_true, and_true]
    cases k <;> decide

/-- The property with the directories is found. -/
theorem lookup_nodeDirs (k : NodeDirs) {mounts : List Text}
    (hm : s.mounts = some mounts) :
    lookup k.property s.yarnSite = some (join ",".toList
      (mounts.map fun mount => mount ++ "/".toList ++ s.path k)) := by
  unfold YarnSite.yarnSite
  rw [lookup_append_of_ne (ne_of_mem_rest k), hm, Option.map_some, Option.getD_some,
    List.append_cons]
  cases k with
  | logDirs => exact lookup_concat _ _ _
  | localDirs =>
    rw [lookup_append_of_ne (List.forall_mem_singleton.mpr
      (show "yarn.nodemanager.log-dirs".toList ≠ _ by decide))]
    exact lookup_concat _ _ _

section

variable {mounts : List Place} {p : Place}

/-- **The directories in the file** are at the path, on each of the mounts. -/
theorem nodeDirs_eq {k : NodeDirs} (hm : s.mounts = some (mounts.map pathOf))
    (hpath : "/".toList ++ s.path k = pathOf p) (hne : mounts ≠ [])
    (hnames : ∀ q ∈ p :: mounts, ∀ c ∈ q, IsName c) :
    nodeDirs k s.yarnSite = mounts.map fun m => pathOf (p ++ m) := by
  have hdirs : (mounts.map pathOf).map (fun mount => mount ++ "/".toList ++ s.path k)
      = mounts.map fun m => pathOf (p ++ m) := by
    rw [List.map_map]
    exact List.map_congr_left fun m _ => pathOf_join hpath m
  unfold nodeDirs
  rw [lookup_nodeDirs k hm, hdirs, Option.map_some, Option.getD_some]
  refine items_join (by simpa using hne) fun dir hdir => ?_
  obtain ⟨m, hmem, rfl⟩ := List.mem_map.mp hdir
  exact comma_not_mem_pathOf (List.forall_mem_append.mpr
    ⟨hnames p List.mem_cons_self, hnames m (List.mem_cons_of_mem p hmem)⟩)

end

/-! ## Whether they are there -/

variable {γ : Type} {w : WorkerHadoop γ} {n : WorkerNode γ} {p : Place}

/-- The paths that the class has in mind. -/
def yarnPaths : List Place :=
  [["yarn".toList], ["local".toList, "yarn".toList], ["logs".toList, "yarn".toList]]

/-- A directory of the user `yarn`. -/
def yarnAttr : Attr := ⟨"yarn".toList, "yarn".toList, "0755".toList⟩

/-- What is declared on a mount is declared on each of them at the same path. -/
theorem mem_folders_iff {d : Folder} :
    d ∈ w.folders ↔ ∃ m ∈ w.mounts, ∃ d₀ ∈ w.paths [], ⟨d₀.place ++ m, d₀.attr⟩ = d := by
  have hpaths : ∀ m, w.paths m
      = (w.paths []).map fun d₀ => ⟨d₀.place ++ m, d₀.attr⟩ := by
    intro m
    unfold WorkerHadoop.paths
    cases w.useYarn <;> simp
  refine List.mem_flatMap.trans (exists_congr fun m => and_congr_right fun _ => ?_)
  rw [hpaths m, List.mem_map]

/-- With mounts of which none lies in another, what is declared at a path is
declared there because of the path. -/
theorem declared_iff (hmounts : ∀ m ∈ w.mounts, ∀ m' ∈ w.mounts, m <:+ m' → m = m')
    {m : Place} (hm : m ∈ w.mounts) {a : Attr} :
    ⟨p ++ m, a⟩ ∈ w.folders ↔ ⟨p, a⟩ ∈ w.paths [] := by
  rw [mem_folders_iff]
  constructor
  · rintro ⟨m', hm', d₀, hd₀, heq⟩
    obtain ⟨hplace, rfl⟩ := Folder.mk.inj heq
    have hsame : m = m' := by
      obtain h | h := List.suffix_or_suffix_of_suffix (List.suffix_append p m)
        (hplace ▸ List.suffix_append d₀.place m')
      · exact hmounts m hm m' hm' h
      · exact (hmounts m' hm' m hm h).symm
    rw [hsame] at hplace
    obtain rfl := List.append_cancel_right hplace
    exact hd₀
  · intro h
    exact ⟨m, hm, _, h, rfl⟩

/-- The directories of the user `yarn` are those at the paths that the class has
in mind. -/
theorem mem_yarnPaths_iff (hyarn : w.useYarn = true) :
    ⟨p, yarnAttr⟩ ∈ w.paths [] ↔ p ∈ yarnPaths := by
  simp [WorkerHadoop.paths, hyarn, yarnPaths, yarnAttr]

variable [DecidableEq γ]

/-- **The directories of a NodeManager have been made** exactly if they are where
the class has them in mind: on mounts that are bare, none of which lies in
another, by a run in which no command is cut off. At a path where the class makes
nothing they are not there after any number of runs, with whatever failures, in
whatever order – unless the NodeManager makes them itself. -/
theorem nodeDirs_there_iff {k : NodeDirs} (hyarn : w.useYarn = true)
    (hm : s.mounts = some (w.mounts.map pathOf))
    (hpath : "/".toList ++ s.path k = pathOf p) (hne : w.mounts ≠ [])
    (hnames : ∀ q ∈ p :: w.mounts, ∀ c ∈ q, IsName c)
    (hmounts : ∀ m ∈ w.mounts, ∀ m' ∈ w.mounts, m <:+ m' → m = m') (hs : WorkerSane n)
    (hdown : ∀ s, n.running s = false ∧ n.enabled s = false)
    (hready : DisksReady w n) (hbare : ∀ m ∈ w.mounts, n.folders (p ++ m) = none)
    (r : WorkerRun w) (hreply : ∀ x, 4 ≤ r.reply x) :
    ((∀ dir ∈ nodeDirs k s.yarnSite,
        (r.result n).folders (FileTree.components dir).reverse = some yarnAttr)
      ↔ p ∈ yarnPaths)
      ∧ ((∀ a, ⟨p, a⟩ ∉ w.paths []) → ∀ history : List (WorkerEvent w),
        ∀ dir ∈ nodeDirs k s.yarnSite,
          (run WorkerNode.step n history).folders (FileTree.components dir).reverse
            = none) := by
  have hplaces : ∀ Q : Place → Prop,
      (∀ dir ∈ nodeDirs k s.yarnSite, Q (FileTree.components dir).reverse)
        ↔ ∀ m ∈ w.mounts, Q (p ++ m) := by
    intro Q
    rw [nodeDirs_eq hm hpath hne hnames, List.forall_mem_map]
    refine forall₂_congr fun m hmem => ?_
    rw [components_pathOf (List.forall_mem_append.mpr ⟨hnames p List.mem_cons_self,
      hnames m (List.mem_cons_of_mem p hmem)⟩), List.reverse_reverse]
  constructor
  · rw [hplaces fun q => (r.result n).folders q = some yarnAttr,
      ← mem_yarnPaths_iff hyarn]
    constructor
    · intro hall
      obtain ⟨m, hmem⟩ := List.exists_mem_of_ne_nil _ hne
      have hthere := hall m hmem
      obtain hfirst | ⟨⟨d, hd, hplace⟩, -⟩ :=
        r.madeFrom hs (fun _ hp => .inl hp) (p ++ m)
          (by rw [hthere]; exact Option.some_ne_none _)
      · exact absurd (hbare m hmem) hfirst
      · have hattr := r.folders_of_disksReady hreply hs hready hd
        rw [hplace, hthere] at hattr
        rw [← declared_iff hmounts hmem, Option.some.inj hattr, ← hplace]
        exact hd
    · intro hp m hmem
      exact r.folders_of_disksReady hreply hs hready
        ((declared_iff hmounts hmem).mpr hp)
  · intro hnot history
    rw [hplaces fun q => (run WorkerNode.step n history).folders q = none]
    intro m hmem
    refine not_not.mp fun hthere => ?_
    obtain hfirst | ⟨⟨d, hd, hplace⟩, -⟩ :=
      (workerFine_run history hs hdown).made (p ++ m) hthere
    · exact hfirst (hbare m hmem)
    · refine hnot d.attr ((declared_iff hmounts hmem).mp ?_)
      rw [← hplace]
      exact hd

/-- The file of the deployment, with another path for the files of
containers. -/
def sampleYarnSite (localPath : Text) : YarnSite where
  toSite := sampleSite
  localPath := localPath

/-- On the mount of the deployment the default path is found, and no other. -/
theorem nodeDirs_there_iff_sampleYarnSite :
    (∀ dir ∈ nodeDirs .localDirs (sampleYarnSite "yarn/local".toList).yarnSite,
      (sampleRun.result (withFolders
        [[], ["raid".toList], ["hadoop".toList, "raid".toList]])).folders
          (FileTree.components dir).reverse = some yarnAttr)
      ∧ ∀ history : List (WorkerEvent sampleWorker),
        ∀ dir ∈ nodeDirs .localDirs (sampleYarnSite "containers".toList).yarnSite,
          (run WorkerNode.step (withFolders
            [[], ["raid".toList], ["hadoop".toList, "raid".toList]]) history).folders
              (FileTree.components dir).reverse = none := by
  have hsane : WorkerSane
      (withFolders [[], ["raid".toList], ["hadoop".toList, "raid".toList]]) :=
    ⟨by decide, fun s hs => absurd (or_self_iff.mp hs) Bool.false_ne_true⟩
  have hready : DisksReady sampleWorker
      (withFolders [[], ["raid".toList], ["hadoop".toList, "raid".toList]]) := by
    unfold DisksReady
    decide +kernel
  have hmounts : ∀ m ∈ sampleWorker.mounts, ∀ m' ∈ sampleWorker.mounts,
      m <:+ m' → m = m' := by decide
  have hnames : ∀ p ∈ yarnPaths ++ [["containers".toList]],
      ∀ q ∈ p :: sampleWorker.mounts, ∀ c ∈ q, IsName c := by
    unfold IsName
    decide
  constructor
  · exact (nodeDirs_there_iff (s := sampleYarnSite "yarn/local".toList) (k := .localDirs)
      (p := ["local".toList, "yarn".toList]) rfl rfl rfl (List.cons_ne_nil _ _)
      (hnames _ (by decide)) hmounts hsane (fun _ => ⟨rfl, rfl⟩)
      hready (by decide +kernel) sampleRun fun _ => Nat.le_refl 4).1.mpr (by decide)
  · refine (nodeDirs_there_iff (s := sampleYarnSite "containers".toList) (k := .localDirs)
      (p := ["containers".toList]) rfl rfl rfl (List.cons_ne_nil _ _)
      (hnames _ (by decide)) hmounts hsane (fun _ => ⟨rfl, rfl⟩)
      hready (by decide +kernel) sampleRun fun _ => Nat.le_refl 4).2 fun a ha => ?_
    have hmem := List.mem_map_of_mem (f := Folder.place) ha
    revert hmem
    show ["containers".toList] ∉ (sampleWorker.paths []).map Folder.place
    decide +kernel

end Hdfs
