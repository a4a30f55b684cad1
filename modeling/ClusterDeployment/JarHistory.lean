import ClusterDeployment.JarSync
import ClusterDeployment.Run

/-!
# Which JAR the servers have

A driver runs on a server that the master picks, with the JAR that is found
there. `sync` is what brings it, and it may end at any server: those after it
in `config.yaml` keep what they have. The operator, meanwhile, builds the
application again, adds servers to the list, calls `sync` from elsewhere.

So at any time the servers can have different JARs, and what each of them has
is a matter of the whole history. It is the one that was on the operator's
machine at the last `sync` that reached the server (`jarOn_run`): an operator
would have to keep no more than that (`Copies`). It takes, once and at the
beginning, that the JAR is in place on the servers (`InPlace`), which every
copy preserves (`inPlace_of_copyFile`). A `sync` that gets through brings its
servers together again, whatever there has been before (`jarOn_synced`). Of
`rsync` all of this takes that it sees by size and time that the JAR has changed,
and of the JAR that it is a file and not a link.
-/

namespace Application

open Fab FileTree Run

/-- The JAR that `start` leads to on a server. -/
def jarOn (config : Config) (r : Remote) : Option Text :=
  (r.files.resolve [] config.remoteJar).bind fun p =>
    match r.files.node p with
    | some (.file content) => some content
    | _ => none

/-- What the operator does: change files, `sbt assembly` among it, and call
`sync` from a directory, with the servers that are listed then. -/
inductive SyncEvent where
  | edit (own : FileTree)
  | sync (cwd : Place) (all : List Text) (env : Rsync → Reply)

/-- The servers of an event. -/
def SyncEvent.all : SyncEvent → List Text
  | edit _ => []
  | sync _ all _ => all

/-- The operator's files and the servers. -/
structure Fleet where
  own : FileTree
  servers : Text → Remote

/-- What an event does. -/
def Fleet.step (config : Config) (fleet : Fleet) : SyncEvent → Fleet
  | .edit own => { fleet with own := own }
  | .sync cwd all env =>
    { fleet with servers :=
        ((Application.sync { config with all := all } fleet.own cwd).exec env
          fleet.servers).2.world }

/-! ## What an operator would have to write down -/

/-- The servers that `sync` reaches: it ends at the first command that
fails. -/
def reached (config : Config) (env : Rsync → Reply) (all : List Text) : List Text :=
  all.takeWhile fun server => (env (config.rsync server)).ok

theorem reached_cons (config : Config) (env : Rsync → Reply) (server : Text)
    (servers : List Text) :
    reached config env (server :: servers)
      = if (env (config.rsync server)).ok then server :: reached config env servers
        else [] := by
  unfold reached
  rw [List.takeWhile_cons]

/-- The operator's files, and for each server the JAR of the last `sync` that
reached it. -/
structure Copies where
  own : FileTree
  on : Text → Option Text

/-- The copies after an event. -/
def Copies.step (config : Config) (o : Copies) : SyncEvent → Copies
  | .edit own => { o with own := own }
  | .sync cwd all env =>
    (o.own.read cwd config.localJar).elim o fun content =>
      { o with on := fun server =>
          if (reached config env all).contains server then some content
          else o.on server }

section

variable {config : Config} {o : Copies} {cwd : Place} {all : List Text}
  {env : Rsync → Reply} {content : Text}

theorem Copies.step_of_none (h : o.own.read cwd config.localJar = none) :
    o.step config (.sync cwd all env) = o := by
  show (o.own.read cwd config.localJar).elim o _ = o
  rw [h, Option.elim_none]

theorem Copies.step_of_some (h : o.own.read cwd config.localJar = some content) :
    o.step config (.sync cwd all env)
      = { o with on := fun server =>
          if (reached config env all).contains server then some content
          else o.on server } := by
  show (o.own.read cwd config.localJar).elim o _ = _
  rw [h, Option.elim_some]

end

/-! ## One copy to a server -/

variable {config : Config} {content : Text} {t : FileTree} {r : Remote}

/-- **A copy leaves the JAR in place** for the next one. -/
theorem inPlace_of_copyFile (hplace : InPlace config t)
    (h : copyFile (baseName config.jar) content config.dest t = some r) :
    InPlace config r.files := by
  obtain ⟨d, t₁, hdest, hdir, e, he, hlink⟩ := hplace
  unfold copyFile at h
  rw [hdest] at h
  rw [← Option.some.inj h]
  show InPlace config (t₁.set d (baseName config.jar) (some (.file content)))
  have henter := enter_set_file t₁ d (baseName config.jar) content
  have hdir' : (t₁.set d (baseName config.jar) (some (.file content))).dirAt []
      config.dest = some d := by
    unfold dirAt at hdir ⊢
    rw [walk_congr henter]
    exact hdir
  refine ⟨d, _, destDir_of_dirAt hdir', ?_⟩
  dsimp only
  rw [set_set]
  refine ⟨hdir, e, he, ?_⟩
  by_cases hed : e = d
  · exact Or.inl hed
  · refine Or.inr ?_
    rw [set_node_of_ne fun heq => hed (List.cons.inj heq).2]
    exact hlink.resolve_left hed

/-- Where the JAR is in place it can be copied. -/
theorem exists_copyFile (hplace : InPlace config t) (content : Text) :
    ∃ r, copyFile (baseName config.jar) content config.dest t = some r := by
  obtain ⟨d, t₁, hdest, -⟩ := hplace
  unfold copyFile
  rw [hdest]
  exact ⟨_, rfl⟩

/-- **The copy is what `start` leads to.** -/
theorem jarOn_copyFile (habs : config.remoteJarDir.head? = some '/')
    (hjar : FilePath config.jar) (hplace : InPlace config t)
    (h : copyFile (baseName config.jar) content config.dest t = some r) :
    jarOn config r = some content := by
  obtain ⟨p, hp, hresolve⟩ := (copyFile_leads_iff habs hjar h).mpr hplace
  obtain ⟨q, hq, hnode⟩ := node_copied h
  obtain rfl : p = q := Option.some.inj (hp.symm.trans hq)
  unfold jarOn
  rw [hresolve [], Option.bind_some, hnode]

/-! ## One run of `sync` -/

variable {own : FileTree} {cwd : Place} {env : Rsync → Reply}
  {s : Session Rsync (Text → Remote)} {servers : List Text}

/-- Without a JAR on the operator's machine nothing is copied. -/
theorem syncLoop_of_read_none (hread : own.read cwd config.localJar = none) :
    (syncLoop config own cwd servers env s).2.world = s.world := by
  have heffect : ∀ server w, (config.rsync server).effect own cwd w = none := by
    intro server w
    unfold Rsync.effect
    rw [show own.read cwd (config.rsync server).source = none from hread]
  cases servers with
  | nil => rfl
  | cons server servers =>
    unfold syncLoop
    cases hok : (env (config.rsync server)).ok with
    | false => rw [bind_of_error (issue_of_not_ok hok)]
    | true => rw [bind_of_error (issue_of_none (heffect server s.world))]

/-- **The loop**, whether it gets through or not: the servers it reaches have
the JAR, and the others are as they were. -/
theorem syncLoop_jarOn (habs : config.remoteJarDir.head? = some '/')
    (hread : own.read cwd config.localJar = some content)
    (hplace : ∀ server ∈ servers, InPlace config (s.world server).files)
    (server : Text) :
    let w := (syncLoop config own cwd servers env s).2.world
    (server ∈ reached config env servers →
        InPlace config (w server).files ∧ jarOn config (w server) = some content)
      ∧ (server ∉ reached config env servers → w server = s.world server) := by
  have hjar := filePath_jar hread
  induction servers generalizing s with
  | nil => exact ⟨fun hs => absurd hs List.not_mem_nil, fun _ => rfl⟩
  | cons first servers ih =>
    obtain ⟨r, hr⟩ := exists_copyFile (hplace first List.mem_cons_self) content
    have heffect : (config.rsync first).effect own cwd s.world
        = some (Function.update s.world first r) := by
      unfold Rsync.effect
      rw [show own.read cwd (config.rsync first).source = some content from hread]
      show (copyFile (baseName config.localJar) content config.dest
        (s.world first).files).map _ = _
      rw [baseName_localJar hjar, hr]
      rfl
    have hplace₁ : ∀ server, InPlace config (s.world server).files →
        InPlace config (Function.update s.world first r server).files := by
      intro server hs
      by_cases hfirst : server = first
      · rw [hfirst, Function.update_self]
        exact inPlace_of_copyFile (hplace first List.mem_cons_self) hr
      · rwa [Function.update_of_ne hfirst]
    rw [reached_cons]
    unfold syncLoop
    cases hok : (env (config.rsync first)).ok with
    | false =>
      rw [bind_of_error (issue_of_not_ok hok), if_neg Bool.false_ne_true]
      exact ⟨fun hs => absurd hs List.not_mem_nil, fun _ => rfl⟩
    | true =>
      rw [bind_of_ok (issue_of_ok hok heffect), if_pos rfl]
      obtain ⟨hin, hout⟩ := ih (s := ⟨Function.update s.world first r, _, _⟩)
        fun server hs => hplace₁ server (hplace server (List.mem_cons_of_mem first hs))
      refine ⟨fun hs => ?_, fun hs => ?_⟩
      · by_cases hlater : server ∈ reached config env servers
        · exact hin hlater
        · -- reached once, here
          obtain rfl := (List.mem_cons.mp hs).resolve_right hlater
          rw [hout hlater]
          show InPlace config (Function.update s.world server r server).files
            ∧ jarOn config (Function.update s.world server r server) = some content
          rw [Function.update_self]
          exact ⟨inPlace_of_copyFile (hplace server List.mem_cons_self) hr,
            jarOn_copyFile habs hjar (hplace server List.mem_cons_self) hr⟩
      · obtain ⟨hfirst, hlater⟩ := not_or.mp fun h => hs (List.mem_cons.mpr h)
        rw [hout hlater]
        exact Function.update_of_ne hfirst _ _

/-! ## All of the history -/

/-- **The servers are as the copies say**, those on which the JAR is in
place. -/
structure Kept (config : Config) (listed : Text → Prop) (fleet : Fleet) (o : Copies) :
    Prop where
  own : fleet.own = o.own
  inPlace : ∀ server, listed server → InPlace config (fleet.servers server).files
  jarOn : ∀ server, Application.jarOn config (fleet.servers server) = o.on server

variable {listed : Text → Prop} {fleet : Fleet} {o : Copies}

/-- One event. -/
theorem Kept.step (habs : config.remoteJarDir.head? = some '/')
    (h : Kept config listed fleet o) {x : SyncEvent}
    (hall : ∀ server ∈ x.all, listed server) :
    Kept config listed (fleet.step config x) (o.step config x) := by
  cases x with
  | edit own => exact ⟨rfl, h.inPlace, h.jarOn⟩
  | sync cwd all env =>
    cases hread : fleet.own.read cwd config.localJar with
    | none =>
      have hworld : (fleet.step config (.sync cwd all env)).servers = fleet.servers :=
        syncLoop_of_read_none (s := ⟨fleet.servers, [], []⟩) hread
      rw [Copies.step_of_none (h.own ▸ hread)]
      refine ⟨h.own, ?_, ?_⟩
      · rw [hworld]
        exact h.inPlace
      · rw [hworld]
        exact h.jarOn
    | some content =>
      have hloop : ∀ server,
          (server ∈ reached config env all →
            InPlace config ((fleet.step config (.sync cwd all env)).servers server).files
              ∧ Application.jarOn config
                ((fleet.step config (.sync cwd all env)).servers server) = some content)
            ∧ (server ∉ reached config env all →
              (fleet.step config (.sync cwd all env)).servers server
                = fleet.servers server) :=
        syncLoop_jarOn (s := ⟨fleet.servers, [], []⟩)
          (show ({ config with all := all } : Config).remoteJarDir.head? = some '/'
            from habs) hread fun server hs => h.inPlace server (hall server hs)
      rw [Copies.step_of_some (h.own ▸ hread)]
      refine ⟨h.own, fun server hs => ?_, fun server => ?_⟩
      · by_cases hreached : server ∈ reached config env all
        · exact ((hloop server).1 hreached).1
        · rw [(hloop server).2 hreached]
          exact h.inPlace server hs
      · by_cases hreached : server ∈ reached config env all
        · rw [((hloop server).1 hreached).2]
          exact (if_pos (List.contains_iff_mem.mpr hreached)).symm
        · rw [(hloop server).2 hreached, h.jarOn server]
          exact (if_neg fun hc => hreached (List.contains_iff_mem.mp hc)).symm

/-- What the operator begins with: what is found on the servers. -/
def Copies.initial (config : Config) (fleet : Fleet) : Copies :=
  ⟨fleet.own, fun server => jarOn config (fleet.servers server)⟩

/-- All events. -/
theorem kept_run (habs : config.remoteJarDir.head? = some '/') (fleet : Fleet)
    {events : List SyncEvent}
    (hplace : ∀ server ∈ events.flatMap SyncEvent.all,
      InPlace config (fleet.servers server).files) :
    Kept config (· ∈ events.flatMap SyncEvent.all)
      (run (Fleet.step config) fleet events)
      (run (Copies.step config) (.initial config fleet) events) := by
  refine run_simulation (fun fleet o x hx h => ?_) ⟨rfl, hplace, fun _ => rfl⟩
  exact h.step habs fun server hs => List.mem_flatMap.mpr ⟨x, hx, hs⟩

/-- **Every server has the JAR of the last `sync` that reached it**, or else
what it had, after any history of builds and of runs of `sync` that end
wherever they do. -/
theorem jarOn_run (config : Config) (habs : config.remoteJarDir.head? = some '/')
    (fleet : Fleet) (events : List SyncEvent)
    (hplace : ∀ server ∈ events.flatMap SyncEvent.all,
      InPlace config (fleet.servers server).files) (server : Text) :
    jarOn config ((run (Fleet.step config) fleet events).servers server)
      = (run (Copies.step config) (.initial config fleet) events).on server :=
  (kept_run habs fleet hplace).jarOn server

/-- The sample configuration with two servers. -/
def twoServers : Config :=
  { sampleConfig with all := ["server0".toList, "server1".toList] }

/-- Servers to which nothing has been copied. -/
def sampleFleet : Fleet := ⟨sampleOwn, fun _ => sampleRemote⟩

theorem inPlace_sampleRemote : InPlace twoServers sampleRemote.files :=
  ⟨["tmp".toList], sampleRemote.files, destDir_of_dirAt (by decide +kernel),
    by decide +kernel, ["tmp".toList], rfl, Or.inl rfl⟩

/-- A `sync` that ends at the second of the servers. -/
def interruptedSync : SyncEvent :=
  .sync ["app".toList] twoServers.all fun c => ⟨c.server ≠ "server1".toList, []⟩

/-- **The two servers have different JARs then**: one of them has none. -/
theorem jarOn_run_interruptedSync :
    jarOn twoServers ((run (Fleet.step twoServers) sampleFleet
        [interruptedSync]).servers "server0".toList) = some "PK".toList
      ∧ jarOn twoServers ((run (Fleet.step twoServers) sampleFleet
        [interruptedSync]).servers "server1".toList) = none := by
  have hrun := jarOn_run twoServers rfl sampleFleet [interruptedSync]
    fun _ _ => inPlace_sampleRemote
  rw [hrun, hrun]
  exact ⟨by decide +kernel, by decide +kernel⟩

/-! ## After a run that gets through -/

/-- A loop that gets through has reached every server. -/
theorem reached_of_ok {s' : Session Rsync (Text → Remote)}
    (h : syncLoop config own cwd servers env s = (.ok (), s')) :
    reached config env servers = servers := by
  induction servers generalizing s with
  | nil => rfl
  | cons server servers ih =>
    obtain ⟨_, s₁, h₁, hrest⟩ := exists_of_bind_ok h
    rw [reached_cons]
    cases hok : (env (config.rsync server)).ok with
    | false =>
      rw [issue_of_not_ok hok] at h₁
      exact absurd (congrArg Prod.fst h₁) (by simp)
    | true => rw [if_pos rfl, ih hrest]

/-- A loop over some servers that gets through has found the JAR. -/
theorem read_of_ok {s' : Session Rsync (Text → Remote)} (hne : servers ≠ [])
    (h : syncLoop config own cwd servers env s = (.ok (), s')) :
    ∃ content, own.read cwd config.localJar = some content := by
  cases servers with
  | nil => exact absurd rfl hne
  | cons server servers =>
    obtain ⟨_, s₁, h₁, -⟩ := exists_of_bind_ok h
    obtain ⟨content, -, hread, -⟩ := exists_of_effect (world_of_issue_ok h₁)
    exact ⟨content, hread⟩

/-- **A `sync` that gets through brings its servers together**: whatever those
before it have left undone, all of them have the JAR that is on the operator's
machine. -/
theorem jarOn_synced (config : Config) (habs : config.remoteJarDir.head? = some '/')
    (fleet : Fleet) (events : List SyncEvent) (cwd : Place) (env : Rsync → Reply)
    (hplace : ∀ server ∈ (events ++ [SyncEvent.sync cwd config.all env]).flatMap
      SyncEvent.all, InPlace config (fleet.servers server).files)
    (hok : ((sync config (run (Fleet.step config) fleet events).own cwd).exec env
      (run (Fleet.step config) fleet events).servers).1 = .ok ()) :
    ∀ server ∈ config.all,
      jarOn config ((run (Fleet.step config) fleet
          (events ++ [SyncEvent.sync cwd config.all env])).servers server)
        = (run (Fleet.step config) fleet events).own.read cwd config.localJar := by
  intro server hs
  have hrun : syncLoop config (run (Fleet.step config) fleet events).own cwd config.all
      env ⟨(run (Fleet.step config) fleet events).servers, [], []⟩ = (.ok (), _) :=
    Prod.ext hok rfl
  obtain ⟨content, hread⟩ := read_of_ok (List.ne_nil_of_mem hs) hrun
  have hown : (run (Fleet.step config) fleet events).own
      = (run (Copies.step config) (.initial config fleet) events).own := by
    refine (kept_run habs fleet fun server hs => hplace server ?_).own
    rw [List.flatMap_append]
    exact List.mem_append_left _ hs
  rw [jarOn_run config habs fleet _ hplace server, run_concat,
    Copies.step_of_some (hown ▸ hread), hread]
  refine if_pos (List.contains_iff_mem.mpr ?_)
  rw [reached_of_ok hrun]
  exact hs

/-- The `sync` after it reaches both. -/
theorem jarOn_synced_twoServers :
    jarOn twoServers ((run (Fleet.step twoServers) sampleFleet
        ([interruptedSync] ++ [SyncEvent.sync ["app".toList] twoServers.all
          connected])).servers "server1".toList)
      = sampleOwn.read ["app".toList] twoServers.localJar :=
  jarOn_synced twoServers rfl sampleFleet [interruptedSync] ["app".toList] connected
    (fun _ _ => inPlace_sampleRemote) (by decide +kernel) _
    (List.mem_cons_of_mem _ List.mem_cons_self)

end Application
