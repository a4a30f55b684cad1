import ClusterDeployment.Shell
import ClusterDeployment.SparkServices

/-!
# Launching Spark from its scripts

The runner scripts, the client that submits an application and the shells all
end up in `spark-class`, which chooses the memory of the virtual machine. On the
way `spark-env.sh` is sourced, again and again: `spark-class` does it, and the
scripts before it, and `compute-classpath.sh` after it. The file puts its
entries before what is there already, so that to source it twice would be seen.
It is sourced once, because the first script to do it exports a marker
(`chain_loaded`).

So the first process of a chain decides, with the file as it finds it, and what
is rendered later does not concern the others. The memory of a daemon is the one
that the file fixes, whatever the manifests say, while the memory that they give
for a worker is the default for everything else (`heap_of_chain`). That
`spark-submit` was given another one, it finds out by looking for an option
among all of its arguments, those for the application included
(`submitted_memory`).

The memory that a manifest gives stands in `spark-env.sh` without quotes; here
it is a word that the shell takes as it is. And there is no other directory for
the configuration: where `SPARK_CONF_DIR` is set, another file is sourced.
-/

namespace Spark

open Run Shell

/-! ## The scripts -/

/-- The marker that `spark-env.sh` has been loaded. -/
def sparkEnvLoaded : Text := "SPARK_ENV_LOADED".toList

/-- What is before the value in the line of `spark-env.sh` that depends on a
parameter. -/
def exportMem : Text := "export SPARK_MEM=".toList

/-- `spark-env.sh`, with its line for the memory, in which the memory is a word
that stands for itself. -/
def sparkEnvCommands (line : Text) : List Assign :=
  [.append "SPARK_JAVA_OPTS".toList (.lit " -Dspark.local.dir=/raid/spark-local".toList),
    .setExport "SPARK_MEM".toList (.lit (line.drop exportMem.length)),
    .setExport "SPARK_DAEMON_MEMORY".toList (.lit "1g".toList),
    .setExport "SPARK_LIBRARY_PATH".toList
      (.cat (.lit "/usr/lib/hadoop/lib/native:".toList) (.var "SPARK_LIBRARY_PATH".toList)),
    .setExport "SPARK_CLASSPATH".toList
      (.cat (.lit ("/usr/lib/tachyon/target/".toList
          ++ "tachyon-0.4.1-jar-with-dependencies.jar:".toList))
        (.var "SPARK_CLASSPATH".toList))]

/-- The files of a host, for a shell. -/
def sourced (files : Text → Option Text) : Shell.Files := fun path =>
  if path = envPath then (files path).map sparkEnvCommands else none

/-- `load-spark-env.sh`, sourced by a script in the same directory -/
def loadSparkEnv : Script :=
  .ifEmpty (.var sparkEnvLoaded)
    (.all
      [.simple (.setExport sparkEnvLoaded (.lit "1".toList)),
        .simple (.set "parent_dir".toList (.lit installDir)),
        .simple (.set "use_conf_dir".toList
          (.orElse "SPARK_CONF_DIR".toList
            (.cat (.var "parent_dir".toList) (.lit "/conf".toList)))),
        .allexport true,
        .source (.cat (.var "use_conf_dir".toList) (.lit "/spark-env.sh".toList)),
        .allexport false])
    .skip

/-- What `spark-class` tells classes apart by. -/
inductive ClassKind where
  | master
  | worker
  | historyServer
  | executor
  | sparkSubmit
  | other
  deriving DecidableEq

/-- The `case "$1"` of `spark-class`. -/
def ClassKind.of (cls : Text) : ClassKind :=
  if cls = "org.apache.spark.deploy.master.Master".toList then master
  else if cls = "org.apache.spark.deploy.worker.Worker".toList then worker
  else if cls = "org.apache.spark.deploy.history.HistoryServer".toList then
    historyServer
  else if cls = "org.apache.spark.executor.CoarseGrainedExecutorBackend".toList
      ∨ cls = "org.apache.spark.executor.MesosExecutorBackend".toList then executor
  else if cls = "org.apache.spark.deploy.SparkSubmit".toList then sparkSubmit
  else other

/-- Two words with a blank between them. -/
def spaced (w w' : Word) : Word := .cat w (.cat (.lit " ".toList) w')

/-- `OUR_JAVA_OPTS` -/
def ourJavaOpts : ClassKind → Word
  | .master => spaced (.var "SPARK_DAEMON_JAVA_OPTS".toList) (.var "SPARK_MASTER_OPTS".toList)
  | .worker => spaced (.var "SPARK_DAEMON_JAVA_OPTS".toList) (.var "SPARK_WORKER_OPTS".toList)
  | .historyServer =>
    spaced (.var "SPARK_DAEMON_JAVA_OPTS".toList) (.var "SPARK_HISTORY_OPTS".toList)
  | .executor => spaced (.var "SPARK_JAVA_OPTS".toList) (.var "SPARK_EXECUTOR_OPTS".toList)
  | .sparkSubmit =>
    spaced (.var "SPARK_JAVA_OPTS".toList)
      (spaced (.var "SPARK_SUBMIT_OPTS".toList)
        (.cat (.lit "      -Djava.library.path=".toList)
          (.var "SPARK_SUBMIT_LIBRARY_PATH".toList)))
  | .other => .var "SPARK_JAVA_OPTS".toList

/-- The option for the memory of a kind of class. -/
def memoryOption : ClassKind → Text
  | .master => "SPARK_DAEMON_MEMORY".toList
  | .worker => "SPARK_DAEMON_MEMORY".toList
  | .historyServer => "SPARK_DAEMON_MEMORY".toList
  | .executor => "SPARK_EXECUTOR_MEMORY".toList
  | .sparkSubmit => "SPARK_DRIVER_MEMORY".toList
  | .other => "SPARK_DRIVER_MEMORY".toList

/-- Where `spark-class` is. -/
def sparkClassHome : List Assign :=
  [.set "cygwin".toList (.lit "false".toList),
    .set "SCALA_VERSION".toList (.lit "2.10".toList),
    .set "FWDIR".toList (.lit installDir),
    .setExport "SPARK_HOME".toList (.var "FWDIR".toList)]

/-- The options and the memory of a kind of class. -/
def chooseMemory (kind : ClassKind) : List Assign :=
  [.set "DEFAULT_MEM".toList (.orElse "SPARK_MEM".toList (.lit "512m".toList)),
    .set "SPARK_DAEMON_JAVA_OPTS".toList
      (spaced (.var "SPARK_DAEMON_JAVA_OPTS".toList)
        (.lit "-Dspark.akka.logLifecycleEvents=true".toList)),
    .set "OUR_JAVA_OPTS".toList (ourJavaOpts kind),
    .set "OUR_JAVA_MEM".toList
      (.orElse (memoryOption kind) (.var "DEFAULT_MEM".toList))]

/-- **What `spark-class` finds** besides its variables and `spark-env.sh`:
whether `command -v java` finds anything, what is in `conf/java-opts`, whether
there is a release or just one assembly, and whether `compute-classpath.sh`
succeeds. -/
structure Installation where
  java : Bool
  javaOpts : Option Text
  assembly : Bool
  classpath : Bool

/-- The Java to run. -/
def findJava (inst : Installation) : Script :=
  .ifEmpty (.var "JAVA_HOME".toList)
    (.ifTrue inst.java (.simple (.set "RUNNER".toList (.lit "java".toList))) .exit)
    (.simple (.set "RUNNER".toList
      (.cat (.var "JAVA_HOME".toList) (.lit "/bin/java".toList))))

/-- `JAVA_OPTS` -/
def javaOptions : List Assign :=
  [.set "JAVA_OPTS".toList
      (spaced (.lit "-XX:MaxPermSize=128m".toList) (.var "OUR_JAVA_OPTS".toList)),
    .set "JAVA_OPTS".toList
      (spaced (.var "JAVA_OPTS".toList)
        (spaced (.cat (.lit "-Xms".toList) (.var "OUR_JAVA_MEM".toList))
          (.cat (.lit "-Xmx".toList) (.var "OUR_JAVA_MEM".toList))))]

/-- The options of `conf/java-opts`, if it is there, behind the others. -/
def extraOptions (inst : Installation) : Script :=
  .ifTrue inst.javaOpts.isSome
    (.simple (.set "JAVA_OPTS".toList
      (spaced (.var "JAVA_OPTS".toList) (.lit (inst.javaOpts.getD [])))))
    .skip

/-- `spark-class`, up to the `exec` of the virtual machine, which gets
`JAVA_OPTS` and its environment -/
def sparkClass (inst : Installation) (cls : Text) : Script :=
  .all (sparkClassHome.map .simple
    ++ loadSparkEnv :: .ifEmpty (.lit cls) .exit .skip
      :: ((chooseMemory (ClassKind.of cls)).map .simple
        ++ findJava inst :: (javaOptions.map .simple
          ++ [extraOptions inst, .simple (.exportOnly "JAVA_OPTS".toList),
            .ifTrue inst.assembly .skip .exit, .ifTrue inst.classpath .skip .exit])))

/-- `compute-classpath.sh`, up to the entries that depend on the installation -/
def computeClasspath : Script :=
  .all
    [.simple (.set "SCALA_VERSION".toList (.lit "2.10".toList)),
      .simple (.set "FWDIR".toList (.lit installDir)),
      loadSparkEnv,
      .simple (.set "CLASSPATH".toList
        (.cat (.var "SPARK_CLASSPATH".toList)
          (.cat (.lit ":".toList)
            (.cat (.var "SPARK_SUBMIT_CLASSPATH".toList)
              (.cat (.lit ":".toList)
                (.cat (.var "FWDIR".toList) (.lit "/conf".toList)))))))]

/-- What the loop of `spark-submit` does with an argument and the one after
it. -/
def submitOption (arg next : Text) : Option Assign :=
  if arg = "--deploy-mode".toList then some (.set "DEPLOY_MODE".toList (.lit next))
  else if arg = "--driver-memory".toList then
    some (.set "DRIVER_MEMORY".toList (.lit next))
  else if arg = "--driver-library-path".toList then
    some (.setExport "SPARK_SUBMIT_LIBRARY_PATH".toList (.lit next))
  else if arg = "--driver-class-path".toList then
    some (.setExport "SPARK_SUBMIT_CLASSPATH".toList (.lit next))
  else if arg = "--driver-java-options".toList then
    some (.setExport "SPARK_SUBMIT_OPTS".toList (.lit next))
  else none

/-- The loop over the arguments, one at a time. -/
def submitLoop : List Text → Script
  | [] => .skip
  | arg :: args =>
    .seq ((submitOption arg (args.headD [])).elim .skip .simple) (submitLoop args)

/-- The memory is for the driver of a client. The mode is not quoted where it is
looked at. -/
def submitExport (several : Text → Bool) : Script :=
  .ifEmpty (.var "DRIVER_MEMORY".toList) .skip
    (.ifEq (.var "DEPLOY_MODE".toList) "client".toList several
      (.simple (.setExport "SPARK_DRIVER_MEMORY".toList (.var "DRIVER_MEMORY".toList)))
      .skip)

/-- `spark-submit`, up to the `exec` of `spark-class` -/
def sparkSubmit (several : Text → Bool) (args : List Text) : Script :=
  .all
    [.simple (.setExport "SPARK_HOME".toList (.lit installDir)),
      submitLoop args,
      .simple (.set "DEPLOY_MODE".toList
        (.orElse "DEPLOY_MODE".toList (.lit "client".toList))),
      submitExport several]

/-- `spark-executor`, up to the `exec` of `spark-class` -/
def sparkExecutor : Script :=
  .all
    [.simple (.set "FWDIR".toList (.lit installDir)),
      .simple (.setExport "PYTHONPATH".toList
        (.cat (.var "FWDIR".toList) (.cat (.lit "/python:".toList) (.var "PYTHONPATH".toList)))),
      .simple (.setExport "PYTHONPATH".toList
        (.cat (.var "FWDIR".toList)
          (.cat (.lit "/python/lib/py4j-0.8.1-src.zip:".toList) (.var "PYTHONPATH".toList))))]

/-- `pyspark`, up to the `exec` of `spark-submit` or Python, with the arguments
that it hands on; it stops if it is asked for help or finds no assembly -/
def pyspark (help assembly : Bool) (submitArgs : Text) : Script :=
  .all
    [.simple (.set "FWDIR".toList (.lit installDir)),
      .simple (.setExport "SPARK_HOME".toList (.var "FWDIR".toList)),
      .simple (.set "SCALA_VERSION".toList (.lit "2.10".toList)),
      .ifTrue help .exit .skip,
      .ifTrue assembly .skip .exit,
      loadSparkEnv,
      .ifEmpty (.var "PYSPARK_PYTHON".toList)
        (.simple (.set "PYSPARK_PYTHON".toList (.lit "python".toList))) .skip,
      .simple (.exportOnly "PYSPARK_PYTHON".toList),
      .simple (.setExport "PYTHONPATH".toList
        (.cat (.var "SPARK_HOME".toList)
          (.cat (.lit "/python/:".toList) (.var "PYTHONPATH".toList)))),
      .simple (.setExport "PYTHONPATH".toList
        (.cat (.var "SPARK_HOME".toList)
          (.cat (.lit "/python/lib/py4j-0.8.1-src.zip:".toList) (.var "PYTHONPATH".toList)))),
      .simple (.setExport "OLD_PYTHONSTARTUP".toList (.var "PYTHONSTARTUP".toList)),
      .simple (.setExport "PYTHONSTARTUP".toList
        (.cat (.var "FWDIR".toList) (.lit "/python/pyspark/shell.py".toList))),
      .ifEmpty (.var "IPYTHON_OPTS".toList) .skip
        (.simple (.set "IPYTHON".toList (.lit "1".toList))),
      .simple (.setExport "PYSPARK_SUBMIT_ARGS".toList (.lit submitArgs))]

/-- The programs that start one another. -/
inductive Program where
  | sparkClass (inst : Installation) (cls : Text)
  | computeClasspath
  | sparkSubmit (several : Text → Bool) (args : List Text)
  | sparkExecutor
  | pyspark (help assembly : Bool) (submitArgs : Text)

/-- The script of a program. -/
def Program.script : Program → Script
  | sparkClass inst cls => Spark.sparkClass inst cls
  | computeClasspath => Spark.computeClasspath
  | sparkSubmit several args => Spark.sparkSubmit several args
  | sparkExecutor => Spark.sparkExecutor
  | pyspark help assembly submitArgs => Spark.pyspark help assembly submitArgs

/-! ## The file is loaded once -/

/-- The variables of `spark-env.sh`, with the marker. -/
def loadedVars : List Text :=
  [sparkEnvLoaded, "SPARK_JAVA_OPTS".toList, "SPARK_MEM".toList,
    "SPARK_DAEMON_MEMORY".toList, "SPARK_LIBRARY_PATH".toList,
    "SPARK_CLASSPATH".toList]

/-- What `spark-class` looks at and `spark-env.sh` does not set. -/
def classVars : List Text :=
  ["SPARK_EXECUTOR_MEMORY".toList, "SPARK_DRIVER_MEMORY".toList, "JAVA_HOME".toList]

/-- **What has been loaded**, over an environment and with a memory: each
variable is exported, and each entry is before what has been there. -/
structure Loaded (mem : Text) (e e' : Env) : Prop where
  marker : e' sparkEnvLoaded = some ⟨"1".toList, true⟩
  javaOpts : e' "SPARK_JAVA_OPTS".toList = some
    ⟨e.get "SPARK_JAVA_OPTS".toList ++ " -Dspark.local.dir=/raid/spark-local".toList, true⟩
  mem : e' "SPARK_MEM".toList = some ⟨mem, true⟩
  daemonMemory : e' "SPARK_DAEMON_MEMORY".toList = some ⟨"1g".toList, true⟩
  libraryPath : e' "SPARK_LIBRARY_PATH".toList = some
    ⟨"/usr/lib/hadoop/lib/native:".toList ++ e.get "SPARK_LIBRARY_PATH".toList, true⟩
  classpath : e' "SPARK_CLASSPATH".toList = some
    ⟨"/usr/lib/tachyon/target/".toList ++ "tachyon-0.4.1-jar-with-dependencies.jar:".toList
      ++ e.get "SPARK_CLASSPATH".toList, true⟩

variable {files : Text → Option Text} {s : Shell.State} {e e' : Env} {mem : Text}

/-- The line for the memory has the memory behind its beginning. -/
theorem drop_sparkEnv (mem : Option Text) :
    (sparkEnv mem).drop exportMem.length = mem.getD [] :=
  List.drop_left

/-- **Loading `spark-env.sh`** where it has not been done. -/
theorem loadSparkEnv_exec {mem : Option Text}
    (hfirst : s.env.get sparkEnvLoaded = [])
    (hconf : s.env.get "SPARK_CONF_DIR".toList = [])
    (hfile : files envPath = some (sparkEnv mem)) :
    ∃ s', loadSparkEnv.exec (sourced files) s = some s'
      ∧ Loaded (mem.getD []) s.env s'.env
      ∧ ∀ x ∈ classVars, s'.env x = s.env x := by
  -- the shell when the file is sourced
  let s₁ := s.put sparkEnvLoaded "1".toList true
  let s₂ := s₁.put "parent_dir".toList installDir false
  let s₃ := s₂.put "use_conf_dir".toList
    ((Word.orElse "SPARK_CONF_DIR".toList
      (.cat (.var "parent_dir".toList) (.lit "/conf".toList))).expand s₂.env) false
  let s₄ : Shell.State := { s₃ with allexport := true }
  let path := Word.cat (.var "use_conf_dir".toList) (.lit "/spark-env.sh".toList)
  have hpath : path.expand s₄.env = envPath := by
    show (if s.env.get "SPARK_CONF_DIR".toList = [] then _ else _) ++ _ = envPath
    rw [if_pos hconf]
    rfl
  have hsource : sourced files envPath = some (sparkEnvCommands (sparkEnv mem)) := by
    unfold sourced
    rw [if_pos rfl, hfile]
    rfl
  let s₅ := (sparkEnvCommands (sparkEnv mem)).foldl Assign.exec s₄
  refine ⟨{ s₅ with allexport := false }, ?_, ?_, ?_⟩
  · show (if s.env.get sparkEnvLoaded = [] then _ else _) = _
    rw [if_pos hfirst]
    show some (Shell.State.mk (((sourced files (path.expand s₄.env)).getD []).foldl
      Assign.exec s₄).env false) = _
    rw [hpath, hsource]
    rfl
  · exact ⟨rfl, rfl, congrArg (fun t => some (Var.mk t true)) (drop_sparkEnv mem), rfl,
      rfl, rfl⟩
  · exact List.forall_mem_cons.mpr ⟨rfl, List.forall_mem_cons.mpr
      ⟨rfl, List.forall_mem_singleton.mpr rfl⟩⟩

/-- The variables that the loop of `spark-submit` sets. -/
def submitVars : List Text :=
  ["DEPLOY_MODE".toList, "DRIVER_MEMORY".toList, "SPARK_SUBMIT_LIBRARY_PATH".toList,
    "SPARK_SUBMIT_CLASSPATH".toList, "SPARK_SUBMIT_OPTS".toList]

theorem submitOption_target {arg next : Text} {a : Assign}
    (h : submitOption arg next = some a) : a.target ∈ submitVars := by
  unfold submitOption at h
  repeat' split at h
  all_goals cases h
  all_goals simp [Assign.target, submitVars]

/-- The loop leaves all other variables alone. -/
theorem submitLoop_spares {marker : Option Text} {xs : List Text}
    (hxs : ∀ x ∈ submitVars, x ∉ xs) (args : List Text) :
    (submitLoop args).spares marker xs = true := by
  induction args with
  | nil => rfl
  | cons arg args ih =>
    show (((submitOption arg (args.headD [])).elim .skip .simple : Script).spares marker xs
      && (submitLoop args).spares marker xs) = true
    rw [ih, Bool.and_true]
    cases ha : submitOption arg (args.headD []) with
    | none => rfl
    | some a =>
      show (!xs.contains a.target) = true
      simpa using hxs _ (submitOption_target ha)

/-- **No program writes the variables** of `spark-env.sh` once it is loaded. -/
theorem spares_loadedVars (p : Program) :
    p.script.spares (some sparkEnvLoaded) loadedVars = true := by
  cases p with
  | sparkClass inst cls => rfl
  | computeClasspath => rfl
  | sparkExecutor => rfl
  | pyspark help assembly submitArgs => rfl
  | sparkSubmit several args =>
    show (_ && ((submitLoop args).spares _ _ && _)) = true
    rw [submitLoop_spares (by decide) args]
    rfl

/-- What agrees on the variables is loaded as well. -/
theorem Loaded.of_eq {a a' b b' : Env} (h : Loaded mem a b)
    (ha : ∀ x ∈ loadedVars, a x = a' x) (hb : ∀ x ∈ loadedVars, b' x = b x) :
    Loaded mem a' b' := by
  have hget : ∀ x ∈ loadedVars, a.get x = a'.get x :=
    fun x hx => Env.get_congr (ha x hx)
  refine ⟨(hb _ (by decide)).trans h.marker, ?_, (hb _ (by decide)).trans h.mem,
    (hb _ (by decide)).trans h.daemonMemory, ?_, ?_⟩
  · rw [← hget _ (by decide), hb _ (by decide)]
    exact h.javaOpts
  · rw [← hget _ (by decide), hb _ (by decide)]
    exact h.libraryPath
  · rw [← hget _ (by decide), hb _ (by decide)]
    exact h.classpath

/-- Everything that is loaded is exported. -/
theorem Loaded.child {a b : Env} (h : Loaded mem a b) : Loaded mem a b.child :=
  ⟨Env.child_of_exported h.marker rfl, Env.child_of_exported h.javaOpts rfl,
    Env.child_of_exported h.mem rfl, Env.child_of_exported h.daemonMemory rfl,
    Env.child_of_exported h.libraryPath rfl, Env.child_of_exported h.classpath rfl⟩

/-- The marker is set. -/
theorem Loaded.marked {a b : Env} (h : Loaded mem a b) :
    Marked (some sparkEnvLoaded) loadedVars b := by
  rintro m hm
  obtain rfl := Option.some.inj hm
  refine ⟨List.mem_cons_self, ?_⟩
  unfold Env.get
  rw [h.marker]
  exact List.cons_ne_nil _ _

/-- Whether a program loads `spark-env.sh` itself. -/
def Program.loads : Program → Bool
  | sparkClass _ _ => true
  | computeClasspath => true
  | sparkSubmit _ _ => false
  | sparkExecutor => false
  | pyspark _ _ _ => true

/-- Before it does, a program leaves the variables alone. -/
theorem exists_of_loads {p : Program} (hp : p.loads = true) :
    ∃ before after, p.script = .all (before ++ loadSparkEnv :: after)
      ∧ (Script.all before).spares none ("SPARK_CONF_DIR".toList :: loadedVars) = true
      ∧ (Script.all after).spares (some sparkEnvLoaded) loadedVars = true := by
  cases p with
  | sparkClass inst cls => exact ⟨[_, _, _, _], _, rfl, rfl, rfl⟩
  | computeClasspath => exact ⟨[_, _], _, rfl, rfl, rfl⟩
  | pyspark help assembly submitArgs => exact ⟨[_, _, _, _, _], _, rfl, rfl, rfl⟩
  | sparkSubmit several args => exact absurd hp (by simp [Program.loads])
  | sparkExecutor => exact absurd hp (by simp [Program.loads])

/-- **The first process that loads the file** hands on what it has loaded. -/
theorem handsOn_loaded {p : Program} {mem : Option Text} (hp : p.loads = true)
    (hfirst : e.get sparkEnvLoaded = []) (hconf : e.get "SPARK_CONF_DIR".toList = [])
    (hfile : files envPath = some (sparkEnv mem))
    (h : p.script.handsOn (sourced files) e = some e') :
    e'.child = e' ∧ Loaded (mem.getD []) e e' := by
  obtain ⟨s, hs, rfl⟩ := Option.map_eq_some_iff.mp h
  obtain ⟨before, after, hscript, hbefore, hafter⟩ := exists_of_loads hp
  rw [hscript, exec_all_append] at hs
  obtain ⟨s₁, h₁, hs⟩ := Option.bind_eq_some_iff.mp hs
  have hkeep := keeps_of_spares (s := .initial e) hbefore marked_none h₁
  have hget : ∀ x ∈ "SPARK_CONF_DIR".toList :: loadedVars, s₁.env.get x = e.get x :=
    fun x hx => Env.get_congr (hkeep x hx)
  obtain ⟨s₂, h₂, hloaded, -⟩ := loadSparkEnv_exec
    ((hget _ (by decide)).trans hfirst) ((hget _ (by decide)).trans hconf) hfile
  change (loadSparkEnv.exec (sourced files) s₁).bind _ = some s at hs
  rw [h₂, Option.bind_some] at hs
  have hkeep' := keeps_of_spares hafter hloaded.marked hs
  exact ⟨Env.child_child s.env, (hloaded.of_eq
    (fun x hx => hkeep x (List.mem_cons_of_mem _ hx)) hkeep').child⟩

/-- **`spark-env.sh` is loaded once.** Where it has not been loaded, the first
program that does it decides: any number of programs that are started from it,
one from the other, see the values of that time – whatever has been rendered
since, each entry once, and before what was there to begin with. -/
theorem chain_loaded {p : Program} {mem : Option Text} (hp : p.loads = true)
    (hfirst : e.get sparkEnvLoaded = []) (hconf : e.get "SPARK_CONF_DIR".toList = [])
    (hfile : files envPath = some (sparkEnv mem))
    (ps : List ((Text → Option Text) × Program))
    (h : chain ((sourced files, p.script)
      :: ps.map fun q => (sourced q.1, q.2.script)) e = some e') :
    Loaded (mem.getD []) e e' := by
  obtain ⟨e₁, h₁, h⟩ := Option.bind_eq_some_iff.mp h
  obtain ⟨hexported, hloaded⟩ := handsOn_loaded hp hfirst hconf hfile h₁
  refine hloaded.of_eq (fun _ _ => rfl) (chain_of_spares (fun q hq => ?_)
    hloaded.marked hexported h).2
  obtain ⟨q, -, rfl⟩ := List.mem_map.mp hq
  exact spares_loadedVars q.2

/-- The files of a host that has been given a memory. -/
def filesWith (mem : Text) : Text → Option Text := fun path =>
  if path = envPath then some (sparkEnv (some mem)) else none

/-- What a worker starts after its host has been given another memory. -/
def samplePrograms : List ((Text → Option Text) × Program) :=
  [(filesWith "2g".toList, .computeClasspath), (filesWith "2g".toList, .sparkExecutor)]

/-- What there is after a build. -/
def sampleInstallation : Installation := ⟨true, none, true, true⟩

/-- A worker that is started before. -/
def sampleChain : List (Shell.Files × Script) :=
  (sourced (filesWith "8g".toList),
    (Program.sparkClass sampleInstallation "org.apache.spark.deploy.worker.Worker".toList).script)
    :: samplePrograms.map fun q => (sourced q.1, q.2.script)

theorem filesWith_envPath (mem : Text) :
    filesWith mem envPath = some (sparkEnv (some mem)) := if_pos rfl

theorem chain_loaded_sampleChain :
    ∃ e', chain sampleChain (fun _ => none) = some e'
      ∧ Loaded "8g".toList (fun _ => none) e' := by
  have hsome : (chain sampleChain (fun _ => none)).isSome = true := by decide +kernel
  obtain ⟨e', h⟩ := Option.isSome_iff_exists.mp hsome
  exact ⟨e', h, chain_loaded rfl rfl rfl (filesWith_envPath _) samplePrograms h⟩

/-! ## The memory of the virtual machine -/

/-- The memory that `spark-class` chooses: that of its option, or else the
default. -/
def heap (kind : ClassKind) (option mem : Text) : Text :=
  match kind with
  | .master => "1g".toList
  | .worker => "1g".toList
  | .historyServer => "1g".toList
  | _ => if option = [] then if mem = [] then "512m".toList else mem else option

/-- The options of the virtual machine for its memory. -/
def memoryOptions (memory : Text) : Text :=
  " -Xms".toList ++ memory ++ " -Xmx".toList ++ memory

/-- The options behind these, which may be about the memory, too. -/
def Installation.options (inst : Installation) : Text :=
  inst.javaOpts.elim [] (" ".toList ++ ·)

/-- There is a Java to run. -/
def Installation.findsJava (inst : Installation) (javaHome : Text) : Bool :=
  javaHome ≠ [] || inst.java

/-- The virtual machine is reached. -/
def Installation.complete (inst : Installation) (javaHome : Text) : Bool :=
  inst.findsJava javaHome && (inst.assembly && inst.classpath)

/-- What has been loaded is not loaded again. -/
theorem loadSparkEnv_of_loaded (h : s.env.get sparkEnvLoaded ≠ [])
    (files : Shell.Files) : loadSparkEnv.exec files s = some s :=
  if_neg h

/-- The Java to run is all that `findJava` sets. -/
theorem findJava_exec (inst : Installation) (files : Shell.Files) (s : Shell.State) :
    ∃ t, (findJava inst).exec files s
      = if inst.findsJava (s.env.get "JAVA_HOME".toList)
        then some (s.put "RUNNER".toList t false) else none := by
  show ∃ t, (if s.env.get "JAVA_HOME".toList = [] then _ else _) = _
  unfold Installation.findsJava
  split
  · next hempty =>
    rw [hempty]
    exact ⟨"java".toList, rfl⟩
  · next hne =>
    rw [decide_eq_true hne]
    exact ⟨s.env.get "JAVA_HOME".toList ++ "/bin/java".toList, rfl⟩

/-- The memory is chosen among what has been loaded. -/
theorem chooseMemory_get (hl : Loaded mem e s.env) (kind : ClassKind) :
    ((chooseMemory kind).foldl Assign.exec s).env.get "OUR_JAVA_MEM".toList
      = heap kind (s.env.get (memoryOption kind)) mem := by
  have hmem : s.env.get "SPARK_MEM".toList = mem := by
    unfold Env.get
    rw [hl.mem]
    rfl
  have hdaemon : s.env.get "SPARK_DAEMON_MEMORY".toList = "1g".toList := by
    unfold Env.get
    rw [hl.daemonMemory]
    rfl
  -- the daemons have their memory from the file
  have hdaemons : (if s.env.get "SPARK_DAEMON_MEMORY".toList = []
      then if s.env.get "SPARK_MEM".toList = [] then "512m".toList
        else s.env.get "SPARK_MEM".toList
      else s.env.get "SPARK_DAEMON_MEMORY".toList) = "1g".toList := by
    rw [hdaemon]
    rfl
  rw [← hmem]
  cases kind with
  | master => exact hdaemons
  | worker => exact hdaemons
  | historyServer => exact hdaemons
  | executor => rfl
  | sparkSubmit => rfl
  | other => rfl

/-- What the virtual machine gets. -/
theorem javaOptions_get (inst : Installation) (files : Shell.Files) (s : Shell.State) :
    ∃ s', (extraOptions inst).exec files (javaOptions.foldl Assign.exec s) = some s'
      ∧ ((Assign.exportOnly "JAVA_OPTS".toList).exec s').env.child.get "JAVA_OPTS".toList
        = "-XX:MaxPermSize=128m ".toList ++ s.env.get "OUR_JAVA_OPTS".toList
          ++ memoryOptions (s.env.get "OUR_JAVA_MEM".toList) ++ inst.options := by
  let s₁ := javaOptions.foldl Assign.exec s
  have hjava : s₁.env.get "JAVA_OPTS".toList
      = "-XX:MaxPermSize=128m ".toList ++ s.env.get "OUR_JAVA_OPTS".toList
        ++ memoryOptions (s.env.get "OUR_JAVA_MEM".toList) := by
    unfold memoryOptions
    show ("-XX:MaxPermSize=128m".toList
        ++ (" ".toList ++ s.env.get "OUR_JAVA_OPTS".toList))
      ++ (" ".toList ++ (("-Xms".toList ++ s.env.get "OUR_JAVA_MEM".toList)
        ++ (" ".toList ++ ("-Xmx".toList ++ s.env.get "OUR_JAVA_MEM".toList)))) = _
    simp
  rw [← hjava]
  unfold extraOptions Installation.options
  cases inst.javaOpts with
  | none =>
    refine ⟨s₁, rfl, ?_⟩
    rw [exportOnly_get, Option.elim_none, List.append_nil]
  | some t =>
    let extra := s₁.env.get "JAVA_OPTS".toList ++ (" ".toList ++ t)
    refine ⟨s₁.put "JAVA_OPTS".toList extra false, rfl, ?_⟩
    rw [exportOnly_get]
    exact Env.get_set_self

/-- **`spark-class` once `spark-env.sh` is loaded**: it ends with the options in
`JAVA_OPTS`, unless something is missing that it needs. -/
theorem sparkClass_exec (inst : Installation) {cls : Text} (hcls : cls ≠ [])
    {files : Shell.Files} {s₀ : Shell.State}
    (hload : loadSparkEnv.exec files (sparkClassHome.foldl Assign.exec s₀) = some s) :
    let s' := (chooseMemory (ClassKind.of cls)).foldl Assign.exec s
    ∃ t s'', (extraOptions inst).exec files
          (javaOptions.foldl Assign.exec (s'.put "RUNNER".toList t false)) = some s''
      ∧ (sparkClass inst cls).exec files s₀
        = if inst.complete (s'.env.get "JAVA_HOME".toList)
          then some ((Assign.exportOnly "JAVA_OPTS".toList).exec s'') else none := by
  intro s'
  obtain ⟨t, hjava⟩ := findJava_exec inst files s'
  obtain ⟨s'', hextra, -⟩ := javaOptions_get inst files (s'.put "RUNNER".toList t false)
  refine ⟨t, s'', hextra, ?_⟩
  have hname : (Script.ifEmpty (.lit cls) .exit .skip).exec files s = some s :=
    if_neg hcls
  -- what is done once the Java to run has been found
  have hrest : (Script.all (javaOptions.map .simple
      ++ [extraOptions inst, .simple (.exportOnly "JAVA_OPTS".toList),
        .ifTrue inst.assembly .skip .exit, .ifTrue inst.classpath .skip .exit])).exec
        files (s'.put "RUNNER".toList t false)
      = if inst.assembly && inst.classpath
        then some ((Assign.exportOnly "JAVA_OPTS".toList).exec s'') else none := by
    rw [exec_all_append, exec_simples, Option.bind_some]
    show ((extraOptions inst).exec files _).bind _ = _
    rw [hextra, Option.bind_some]
    show (if inst.assembly = true then some _ else none).bind _ = _
    cases inst.assembly with
    | false => rfl
    | true =>
      show (if inst.classpath = true then some _ else none).bind _ = _
      cases inst.classpath <;> rfl
  unfold sparkClass
  rw [exec_all_append, exec_simples, Option.bind_some]
  show (loadSparkEnv.exec files _).bind _ = _
  rw [hload, Option.bind_some]
  show ((Script.ifEmpty (.lit cls) .exit .skip).exec files s).bind _ = _
  rw [hname, Option.bind_some, exec_all_append, exec_simples, Option.bind_some]
  show ((findJava inst).exec files s').bind _ = _
  rw [hjava]
  unfold Installation.complete
  cases inst.findsJava (s'.env.get "JAVA_HOME".toList) with
  | false => rfl
  | true =>
    rw [if_pos rfl, Option.bind_some, Bool.true_and]
    exact hrest

/-- **The virtual machine** of `spark-class`, whether it loads `spark-env.sh` or
finds it loaded. -/
theorem sparkClass_handsOn (inst : Installation) {cls : Text} (hcls : cls ≠ [])
    {files : Shell.Files}
    (hload : loadSparkEnv.exec files (sparkClassHome.foldl Assign.exec (.initial e))
      = some s)
    {e₀ : Env} (hl : Loaded mem e₀ s.env) (hkeep : ∀ x ∈ classVars, s.env x = e x) :
    ∃ e' opts, (sparkClass inst cls).handsOn files e
        = (if inst.complete (e.get "JAVA_HOME".toList) then some e' else none)
      ∧ e'.get "JAVA_OPTS".toList
        = opts ++ memoryOptions
          (heap (ClassKind.of cls) (e.get (memoryOption (ClassKind.of cls))) mem)
          ++ inst.options := by
  have hget : ∀ x ∈ classVars, s.env.get x = e.get x :=
    fun x hx => Env.get_congr (hkeep x hx)
  let s₂ := (chooseMemory (ClassKind.of cls)).foldl Assign.exec s
  obtain ⟨t, s₄, hextra, hexec⟩ := sparkClass_exec inst hcls hload
  let s₃ := s₂.put "RUNNER".toList t false
  obtain ⟨s₄', hextra', hopts⟩ := javaOptions_get inst files s₃
  obtain rfl : s₄ = s₄' := Option.some.inj (hextra.symm.trans hextra')
  have hhome : s₂.env.get "JAVA_HOME".toList = e.get "JAVA_HOME".toList :=
    hget _ (by decide)
  have hmem : s₃.env.get "OUR_JAVA_MEM".toList
      = heap (ClassKind.of cls) (e.get (memoryOption (ClassKind.of cls))) mem := by
    have hput : s₃.env.get "OUR_JAVA_MEM".toList = s₂.env.get "OUR_JAVA_MEM".toList :=
      Env.get_set_of_ne (by decide)
    rw [hput, chooseMemory_get hl]
    -- only the other classes look at an option that is not in the file
    cases ClassKind.of cls with
    | master => rfl
    | worker => rfl
    | historyServer => rfl
    | executor => exact congrArg (heap .executor · mem) (hget _ (by decide))
    | sparkSubmit => exact congrArg (heap .sparkSubmit · mem) (hget _ (by decide))
    | other => exact congrArg (heap .other · mem) (hget _ (by decide))
  refine ⟨((Assign.exportOnly "JAVA_OPTS".toList).exec s₄).env.child,
    "-XX:MaxPermSize=128m ".toList ++ s₃.env.get "OUR_JAVA_OPTS".toList, ?_, ?_⟩
  · unfold Script.handsOn
    rw [hexec, ← hhome]
    split <;> rfl
  · rw [← hmem]
    exact hopts

/-- Before it loads `spark-env.sh`, `spark-class` leaves the variables alone. -/
theorem sparkClassHome_keeps (e : Env) :
    ∀ x ∈ "SPARK_CONF_DIR".toList :: (classVars ++ loadedVars),
      (sparkClassHome.foldl Assign.exec (.initial e)).env x = e x := by
  have hexec : (Script.all (sparkClassHome.map .simple)).exec (fun _ => none) (.initial e)
      = some (sparkClassHome.foldl Assign.exec (.initial e)) := exec_simples _ _
  exact keeps_of_spares rfl marked_none hexec

/-- **What runs late in a chain has the memory of its beginning.** After any
number of programs, the first of which has loaded `spark-env.sh`, `spark-class`
– where it finds what it needs to reach the virtual machine – gives a daemon the
memory of the file, and any other class that of its option or else the one that
the manifest gave when the file was loaded. Only the options of
`conf/java-opts` are behind those for the memory. -/
theorem heap_of_chain {p : Program} {mem : Option Text} (hp : p.loads = true)
    (hfirst : e.get sparkEnvLoaded = []) (hconf : e.get "SPARK_CONF_DIR".toList = [])
    (hfile : files envPath = some (sparkEnv mem))
    (ps : List ((Text → Option Text) × Program))
    (h : chain ((sourced files, p.script)
      :: ps.map fun q => (sourced q.1, q.2.script)) e = some e')
    (inst : Installation) {cls : Text} (hcls : cls ≠ []) (files' : Text → Option Text) :
    ∃ e'' opts, (Program.sparkClass inst cls).script.handsOn (sourced files') e'
        = (if inst.complete (e'.get "JAVA_HOME".toList) then some e'' else none)
      ∧ e''.get "JAVA_OPTS".toList = opts ++ memoryOptions (heap (ClassKind.of cls)
        (e'.get (memoryOption (ClassKind.of cls))) (mem.getD [])) ++ inst.options := by
  have hl := chain_loaded hp hfirst hconf hfile ps h
  have hkeep := sparkClassHome_keeps e'
  have hloaded : Loaded (mem.getD []) e (sparkClassHome.foldl Assign.exec
      (.initial e')).env :=
    hl.of_eq (fun _ _ => rfl) fun x hx =>
      hkeep x (List.mem_cons_of_mem _ (List.mem_append_right _ hx))
  have hload := loadSparkEnv_of_loaded (hloaded.marked _ rfl).2 (sourced files')
  exact sparkClass_handsOn inst hcls hload hloaded fun x hx =>
    hkeep x (List.mem_cons_of_mem _ (List.mem_append_left _ hx))

/-- An executor on a host that has been given another memory since its worker
was started. -/
theorem heap_of_chain_sampleChain :
    ∃ e' e'' opts, chain sampleChain (fun _ => none) = some e'
      ∧ (Program.sparkClass ⟨true, some "-Xmx4g".toList, true, true⟩
          "org.apache.spark.executor.CoarseGrainedExecutorBackend".toList).script.handsOn
        (sourced (filesWith "2g".toList)) e'
          = (if Installation.complete ⟨true, some "-Xmx4g".toList, true, true⟩
              (e'.get "JAVA_HOME".toList) then some e'' else none)
      ∧ e''.get "JAVA_OPTS".toList
        = opts ++ memoryOptions (heap .executor
          (e'.get "SPARK_EXECUTOR_MEMORY".toList) "8g".toList) ++ " -Xmx4g".toList := by
  have hsome : (chain sampleChain (fun _ => none)).isSome = true := by decide +kernel
  obtain ⟨e', h⟩ := Option.isSome_iff_exists.mp hsome
  have hcls : "org.apache.spark.executor.CoarseGrainedExecutorBackend".toList ≠ [] := by
    decide
  obtain ⟨e'', opts, hrun, hopts⟩ := heap_of_chain rfl rfl rfl (filesWith_envPath _)
    samplePrograms h ⟨true, some "-Xmx4g".toList, true, true⟩ hcls (filesWith "2g".toList)
  exact ⟨e', e'', opts, h, hrun, hopts⟩

/-! ## The memory that `spark-submit` was given -/

/-- The arguments, each with the one after it. -/
def followed : List Text → List (Text × Text)
  | [] => []
  | arg :: args => (arg, args.headD []) :: followed args

/-- What is after the last occurrence of an option, wherever it is. -/
def lastOption (name : Text) (args : List Text) : Option Text :=
  lastWrite (fun p : Text × Text => if p.1 = name then some p.2 else none) (followed args)

/-- The loop on one argument. -/
def submitStep (s : Shell.State) (p : Text × Text) : Shell.State :=
  (submitOption p.1 p.2).elim s (Assign.exec s)

theorem submitLoop_exec (files : Shell.Files) (args : List Text) (s : Shell.State) :
    (submitLoop args).exec files s = some (run submitStep s (followed args)) := by
  induction args generalizing s with
  | nil => rfl
  | cons arg args ih =>
    show ((Option.elim _ _ _ : Script).exec files s).bind _ = _
    have hstep : ((submitOption arg (args.headD [])).elim .skip .simple : Script).exec
        files s = some (submitStep s (arg, args.headD [])) := by
      unfold submitStep
      cases submitOption arg (args.headD []) with
      | none => rfl
      | some a => rfl
    rw [hstep, Option.bind_some, ih]
    rfl

/-- The memory for the driver after a step of the loop. -/
theorem submitStep_driverMemory (s : Shell.State) (p : Text × Text) :
    (submitStep s p).env.get "DRIVER_MEMORY".toList
      = ((if p.1 = "--driver-memory".toList then some p.2 else none).map id).getD
        (s.env.get "DRIVER_MEMORY".toList) := by
  unfold submitStep submitOption
  split
  · next h => rw [h]; rfl
  split
  · rfl
  repeat' split
  all_goals rfl

/-- The mode after a step of the loop. -/
theorem submitStep_deployMode (s : Shell.State) (p : Text × Text) :
    (submitStep s p).env.get "DEPLOY_MODE".toList
      = ((if p.1 = "--deploy-mode".toList then some p.2 else none).map id).getD
        (s.env.get "DEPLOY_MODE".toList) := by
  unfold submitStep submitOption
  repeat' split
  all_goals rfl

/-- The mode after the last `--deploy-mode`, or else the one that is set
already. -/
def deployMode (e : Env) (args : List Text) : Text :=
  (lastOption "--deploy-mode".toList args).getD (e.get "DEPLOY_MODE".toList)

/-- The memory that `spark-submit` hands on for the driver: what is after the
last `--driver-memory`, or else set in `DRIVER_MEMORY` already, if the mode is
that of a client. -/
def driverMemory (e : Env) (args : List Text) : Text :=
  let memory := (lastOption "--driver-memory".toList args).getD
    (e.get "DRIVER_MEMORY".toList)
  let mode := deployMode e args
  if memory ≠ [] ∧ (mode = [] ∨ mode = "client".toList) then memory
  else e.child.get "SPARK_DRIVER_MEMORY".toList

theorem submitExport_exec {several : Text → Bool} (files : Shell.Files) {s : Shell.State}
    (hmode : plain (s.env.get "DEPLOY_MODE".toList) = true) :
    (submitExport several).exec files s = some
      (if s.env.get "DRIVER_MEMORY".toList ≠ []
          ∧ s.env.get "DEPLOY_MODE".toList = "client".toList
        then s.put "SPARK_DRIVER_MEMORY".toList (s.env.get "DRIVER_MEMORY".toList) true
        else s) := by
  have htest : sameWord several (s.env.get "DEPLOY_MODE".toList) "client".toList = true
      ↔ s.env.get "DEPLOY_MODE".toList = "client".toList := by
    unfold sameWord
    rw [if_pos hmode, decide_eq_true_iff]
  show (if s.env.get "DRIVER_MEMORY".toList = [] then some s
    else if sameWord several (s.env.get "DEPLOY_MODE".toList) "client".toList
      then some (s.put "SPARK_DRIVER_MEMORY".toList
        (s.env.get "DRIVER_MEMORY".toList) true)
      else some s) = _
  split
  · next hmemory => rw [if_neg (fun h => h.1 hmemory)]
  · next hmemory =>
    split
    · next hclient => rw [if_pos ⟨hmemory, htest.mp hclient⟩]
    · next hclient => rw [if_neg (fun h => hclient (htest.mpr h.2))]

/-- **What `spark-submit` hands on**, for a mode that is one word: the memory for
the driver, and nothing about `spark-env.sh` or Java. -/
theorem sparkSubmit_handsOn (files : Shell.Files) (several : Text → Bool) {e : Env}
    {args : List Text} (hplain : plain (deployMode e args) = true) :
    ∃ e', (sparkSubmit several args).handsOn files e = some e'
      ∧ e'.get "SPARK_DRIVER_MEMORY".toList = driverMemory e args
      ∧ ∀ x ∈ "JAVA_HOME".toList :: "SPARK_CONF_DIR".toList :: loadedVars,
        e' x = e.child x := by
  let mode := deployMode e args
  let memory := (lastOption "--driver-memory".toList args).getD
    (e.get "DRIVER_MEMORY".toList)
  -- the shell after the loop, with its default, and at the end
  let s₁ := (State.initial e).put "SPARK_HOME".toList installDir true
  let s₂ := run submitStep s₁ (followed args)
  let s₃ := s₂.put "DEPLOY_MODE".toList
    ((Word.orElse "DEPLOY_MODE".toList (.lit "client".toList)).expand s₂.env) false
  have hmode : s₂.env.get "DEPLOY_MODE".toList = mode := by
    refine (run_cell (fun s : Shell.State => s.env.get "DEPLOY_MODE".toList) id
      submitStep_deployMode s₁ (followed args)).trans ?_
    rw [Option.map_id]
    rfl
  have hdefault : s₃.env.get "DEPLOY_MODE".toList
      = if mode = [] then "client".toList else mode := by
    rw [← hmode]
    exact Env.get_set_self
  have hplain₃ : plain (s₃.env.get "DEPLOY_MODE".toList) = true := by
    rw [hdefault]
    split
    · rfl
    · exact hplain
  have hmode₃ : s₃.env.get "DEPLOY_MODE".toList = "client".toList
      ↔ mode = [] ∨ mode = "client".toList := by
    rw [hdefault]
    split
    · next hempty => exact iff_of_true rfl (.inl hempty)
    · next hne => exact (or_iff_right hne).symm
  have hmemory : s₃.env.get "DRIVER_MEMORY".toList = memory := by
    refine (Env.get_set_of_ne (by decide)).trans
      ((run_cell (fun s : Shell.State => s.env.get "DRIVER_MEMORY".toList) id
        submitStep_driverMemory s₁ (followed args)).trans ?_)
    rw [Option.map_id]
    rfl
  have hkeep : ∀ x ∈ "SPARK_DRIVER_MEMORY".toList :: "JAVA_HOME".toList
      :: "SPARK_CONF_DIR".toList :: loadedVars, s₃.env x = e x := by
    intro x hx
    have hne : x ≠ "DEPLOY_MODE".toList ∧ x ≠ "SPARK_HOME".toList := by
      revert x
      decide
    have hloop : s₂.env x = s₁.env x :=
      keeps_of_spares (submitLoop_spares (by decide) args) marked_none
        (submitLoop_exec files args s₁) x hx
    rw [State.put_of_ne hne.1, hloop]
    exact State.put_of_ne hne.2 _ _
  have hexec : (sparkSubmit several args).exec files (.initial e) = some
      (if memory ≠ [] ∧ (mode = [] ∨ mode = "client".toList)
        then s₃.put "SPARK_DRIVER_MEMORY".toList memory true else s₃) := by
    show ((submitLoop args).exec files s₁).bind _ = _
    rw [submitLoop_exec, Option.bind_some]
    show ((submitExport several).exec files s₃).bind _ = _
    rw [submitExport_exec files hplain₃, hmemory]
    simp only [hmode₃]
    rfl
  refine ⟨_, congrArg (Option.map _) hexec, ?_, ?_⟩
  · show _ = if _ then _ else _
    split
    · rfl
    · exact Env.get_congr (Env.child_congr (hkeep _ List.mem_cons_self))
  · intro x hx
    refine Env.child_congr (Eq.trans ?_ (hkeep x (List.mem_cons_of_mem _ hx)))
    split
    · refine State.put_of_ne ?_ _ _
      revert x
      decide
    · rfl

/-- **The memory of a client that submits an application**, whose mode is one
word: the memory after `--driver-memory`, wherever it is among the arguments, or
else that of `DRIVER_MEMORY`, if it is for a client, or else the one that is set
for a driver already, or else the one that the manifest gives. -/
theorem submitted_memory {mem : Option Text} (hfirst : e.get sparkEnvLoaded = [])
    (hconf : e.get "SPARK_CONF_DIR".toList = [])
    (hfile : files envPath = some (sparkEnv mem)) (several : Text → Bool)
    {args : List Text} (hplain : plain (deployMode e args) = true) (inst : Installation) :
    ∃ e' opts, chain
        [(sourced files, (Program.sparkSubmit several args).script),
          (sourced files,
            (Program.sparkClass inst "org.apache.spark.deploy.SparkSubmit".toList).script)] e
        = (if inst.complete (e.child.get "JAVA_HOME".toList) then some e' else none)
      ∧ e'.get "JAVA_OPTS".toList = opts ++ memoryOptions
        (heap .sparkSubmit (driverMemory e args) (mem.getD [])) ++ inst.options := by
  obtain ⟨e₁, hsubmit, hmemory, hkeep⟩ :=
    sparkSubmit_handsOn (sourced files) several hplain
  -- nothing has been loaded before `spark-class`
  let s := sparkClassHome.foldl Assign.exec (.initial e₁)
  have hkeep' := sparkClassHome_keeps e₁
  have hempty : ∀ x ∈ "SPARK_CONF_DIR".toList :: loadedVars, e.get x = [] →
      s.env.get x = [] := by
    intro x hx h
    have hmem : ∀ x ∈ "SPARK_CONF_DIR".toList :: loadedVars,
        x ∈ "SPARK_CONF_DIR".toList :: (classVars ++ loadedVars) := by decide
    rw [Env.get_congr ((hkeep' x (hmem x hx)).trans (hkeep x (List.mem_cons_of_mem _ hx)))]
    exact Env.child_get_of_empty h
  obtain ⟨s', hload, hloaded, hclassVars⟩ :=
    loadSparkEnv_exec (hempty _ (by decide) hfirst) (hempty _ (by decide) hconf) hfile
  have hcls : "org.apache.spark.deploy.SparkSubmit".toList ≠ [] := by decide
  obtain ⟨e', opts, hclass, hopts⟩ := sparkClass_handsOn inst hcls hload hloaded
    fun x hx => (hclassVars x hx).trans
      (hkeep' x (List.mem_cons_of_mem _ (List.mem_append_left _ hx)))
  refine ⟨e', opts, ?_, ?_⟩
  · show ((sparkSubmit several args).handsOn _ e).bind _ = _
    rw [hsubmit, Option.bind_some]
    show ((sparkClass inst _).handsOn _ e₁).bind _ = _
    rw [hclass, Env.get_congr (hkeep _ List.mem_cons_self)]
    split <;> rfl
  · rw [hopts, ← hmemory]
    rfl

/-- The arguments of an application that has an argument of that name itself. -/
def sampleArgs : List Text :=
  ["--class".toList, "Main".toList, "app.jar".toList, "--driver-memory".toList,
    "64m".toList]

theorem submitted_memory_sampleArgs :
    ∃ e' opts, chain
        [(sourced (filesWith "2g".toList),
            (Program.sparkSubmit (fun _ => false) sampleArgs).script),
          (sourced (filesWith "2g".toList),
            (Program.sparkClass sampleInstallation
              "org.apache.spark.deploy.SparkSubmit".toList).script)]
        (fun _ => none) = some e'
      ∧ e'.get "JAVA_OPTS".toList = opts ++ " -Xms64m -Xmx64m".toList := by
  have hplain : plain (deployMode (fun _ => none) sampleArgs) = true := rfl
  obtain ⟨e', opts, hchain, hopts⟩ := submitted_memory rfl rfl
    (filesWith_envPath "2g".toList) (fun _ => false) hplain sampleInstallation
  exact ⟨e', opts, hchain, hopts.trans (List.append_nil _)⟩

end Spark
