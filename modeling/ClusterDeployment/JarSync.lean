import ClusterDeployment.ApplicationTasks
import ClusterDeployment.FileTree

/-!
# Where the JAR goes, and where it is looked for

`sync` copies the JAR to every server with `rsync`, and `start` hands
`spark-submit` a path on the servers. Both are made of the same entries of the
configuration, but not in the same way. For `start`, `remote_jar_dir` is a
directory and the JAR is below it. For `rsync` it is a destination: a
directory only if there is one, or if it ends in a slash, and else the name of
the copy itself – of which no path can go on to anything. And whatever the
directory, the copy has only the last name of `jar`.

So the two agree on a server exactly if `remote_jar_dir` is a directory to
`rsync` there and the directory part of `jar` leads from it back to it
(`copyFile_leads_iff`). That is a condition on the files of the server before
the task, and `sync_agrees_iff` says that nothing else is needed – however
often the server is listed – or enough.
-/

namespace Application

open Fab FileTree

/-! ## A file, copied by `rsync` -/

/-- A server: its files, and the place of the last copy. -/
structure Remote where
  files : FileTree
  copied : Option Place

/-- **The directory a destination is to `rsync`**, with the files once it is
there: one that exists or, behind a slash, one that it creates in its parent
directory. -/
def destDir (t : FileTree) (dest : Text) : Option (Place × FileTree) :=
  match t.dirAt [] dest with
  | some d => some (d, t)
  | none =>
    if dest.getLast? = some '/' then
      (t.entry [] dest).bind fun e =>
        if t.node (e.2 :: e.1) = none then
          some (e.2 :: e.1, t.set e.1 e.2 (some .dir))
        else none
    else none

/-- **The copy of a file to a destination**: into the directory that it is,
under the name the file has, and otherwise to exactly the destination. It takes
the place of what is there; if that is a directory with something in it, the
command fails, which is up to the environment. -/
def copyFile (base content dest : Text) (t : FileTree) : Option Remote :=
  match destDir t dest with
  | some (d, t) => some ⟨t.set d base (some (.file content)), some (base :: d)⟩
  | none =>
    if dest.getLast? = some '/' then none
    else (t.entry [] dest).map fun e =>
      ⟨t.set e.1 e.2 (some (.file content)), some (e.2 :: e.1)⟩

/-- The command of `sync` for one server. -/
structure Rsync where
  source : Text
  server : Text
  dest : Text

/-- The command line, as it reaches the shell. -/
def Rsync.line (c : Rsync) : Text :=
  "rsync -azrv --progress ".toList ++ c.source ++ " ".toList ++ c.server
    ++ ":".toList ++ c.dest

/-- What the command does to the servers, with the operator's own files and
current directory. What has the size and the time of the JAR already is taken to
be the same file, so that nothing is lost by not sending it again. The JAR is a
file: a link in its place, which would be copied as a link, counts as a
failure. -/
def Rsync.effect (own : FileTree) (cwd : Place) (c : Rsync)
    (w : Text → Remote) : Option (Text → Remote) :=
  match own.read cwd c.source with
  | none => none
  | some content =>
    (copyFile (baseName c.source) content c.dest (w c.server).files).map
      (Function.update w c.server)

/-! ## The task -/

/-- The JAR on the operator's machine. -/
def Config.localJar (config : Config) : Text :=
  config.localJarDir ++ "/".toList ++ config.jar

/-- Where `sync` sends it. -/
def Config.dest (config : Config) : Text := "/".toList ++ config.remoteJarDir

/-- The command for a server. -/
def Config.rsync (config : Config) (server : Text) : Rsync :=
  ⟨config.localJar, server, config.dest⟩

/-- The loop of `sync`. -/
def syncLoop (config : Config) (own : FileTree) (cwd : Place) :
    List Text → Fab Rsync (Text → Remote) Unit
  | [] => pure ()
  | server :: servers => do
    issue (config.rsync server) ((config.rsync server).effect own cwd)
    syncLoop config own cwd servers

/-- The task `sync`. -/
def sync (config : Config) (own : FileTree) (cwd : Place) :
    Fab Rsync (Text → Remote) Unit := syncLoop config own cwd config.all

/-- The path that `start` hands to `spark-submit` leads to the last copy. -/
def LeadsToCopy (config : Config) (r : Remote) : Prop :=
  ∃ p, r.copied = some p
    ∧ ∀ cwd, r.files.resolve cwd config.remoteJar = some p

/-- The last copy is the JAR of the operator. -/
def HasCopy (config : Config) (own : FileTree) (cwd : Place) (r : Remote) : Prop :=
  ∃ p content, r.copied = some p ∧ r.files.node p = some (.file content)
    ∧ own.read cwd config.localJar = some content

/-- **`sync` and `start` agree on a server**: the path that `start` hands to
`spark-submit` leads to the last copy, which is the JAR of the operator. -/
def Agrees (config : Config) (own : FileTree) (cwd : Place) (r : Remote) : Prop :=
  LeadsToCopy config r ∧ HasCopy config own cwd r

/-- **The JAR is in place with its last name**: its destination is a
directory, and the directory part of `jar` leads from there back to it – or
to another one, where the same name is a link to the copy. Neither way goes
through what the copy replaces. -/
def InPlace (config : Config) (t : FileTree) : Prop :=
  ∃ d t₁, destDir t config.dest = some (d, t₁) ∧
    let base := baseName config.jar
    let t₂ := t₁.set d base none
    t₂.dirAt [] config.dest = some d ∧
      ∃ e, t₂.walk d (components config.jar).dropLast = some e
        ∧ (e = d ∨ t₁.node (base :: e) = some (.link (base :: d)))

/-! ## One copy -/

variable {config : Config} {base content dest : Text} {t t₁ : FileTree}
  {d p : Place} {c : Text} {r r' : Remote}

/-- The place of the copy holds what was copied. -/
theorem node_copied (h : copyFile base content dest t = some r) :
    ∃ p, r.copied = some p ∧ r.files.node p = some (.file content) := by
  unfold copyFile at h
  split at h
  · next d t₁ _ =>
    rw [← Option.some.inj h]
    exact ⟨base :: d, rfl, set_node_self t₁ d base _⟩
  · split at h
    · exact absurd h (by simp)
    · obtain ⟨⟨d, c⟩, -, hr⟩ := Option.map_eq_some_iff.mp h
      rw [← hr]
      exact ⟨c :: d, rfl, set_node_self t d c _⟩

/-- A directory that is there. -/
theorem destDir_of_dirAt (h : t.dirAt [] dest = some d) :
    destDir t dest = some (d, t) := by
  unfold destDir
  rw [h]

/-- A destination that is a directory is one. -/
theorem dirAt_of_destDir (h : destDir t dest = some (d, t₁)) :
    t₁.dirAt [] dest = some d := by
  unfold destDir at h
  split at h
  · next d' hd =>
    obtain ⟨rfl, rfl⟩ := Prod.mk.inj (Option.some.inj h)
    exact hd
  · split at h
    · obtain ⟨⟨d', c⟩, he, h⟩ := Option.bind_eq_some_iff.mp h
      dsimp only at h
      split at h
      · next hnone =>
        obtain ⟨rfl, rfl⟩ := Prod.mk.inj (Option.some.inj h)
        rw [dirAt_of_entry he fun p q => enter_set_dir hnone]
        exact enter_eq_some_iff.mpr ⟨set_node_self t d' c _, Or.inl rfl⟩
      · exact absurd h (by simp)
    · exact absurd h (by simp)

/-- The destination of the copy, seen from anywhere. -/
theorem dirAt_dest (habs : config.remoteJarDir.head? = some '/')
    (t : FileTree) (cwd : Place) :
    t.dirAt cwd config.remoteJarDir = t.dirAt [] config.dest := by
  have hdest : components config.dest = components config.remoteJarDir :=
    components_slash config.remoteJarDir
  unfold dirAt origin
  rw [if_pos habs, ite_self, hdest]

/-- **What it takes to be led there**: the path of `start` is walked through the
destination. -/
theorem leads_iff (habs : config.remoteJarDir.head? = some '/')
    (hjar : FilePath config.jar) :
    LeadsToCopy config r ↔ ∃ d e p, r.copied = some p
      ∧ r.files.dirAt [] config.dest = some d
      ∧ r.files.walk d (components config.jar).dropLast = some e
      ∧ r.files.fileAt (baseName config.jar :: e) = some p := by
  have hne : config.remoteJarDir ≠ [] := by
    rintro hnil
    rw [hnil] at habs
    exact absurd habs (by simp)
  have hpath : config.remoteJar = config.remoteJarDir ++ '/' :: config.jar :=
    List.append_assoc config.remoteJarDir ['/'] config.jar
  unfold LeadsToCopy
  simp only [hpath, resolve_join _ _ hne hjar, dirAt_dest habs,
    Option.bind_eq_some_iff, forall_const]
  constructor
  · rintro ⟨p, hp, e, ⟨d, hd, he⟩, hfile⟩
    exact ⟨d, e, p, hp, hd, he, hfile⟩
  · rintro ⟨d, e, p, hp, hd, he, hfile⟩
    exact ⟨p, hp, e, ⟨d, hd, he⟩, hfile⟩

/-- Making a directory makes no links. -/
theorem noLinks_of_destDir (ht : t.NoLinks)
    (h : destDir t dest = some (d, t₁)) : t₁.NoLinks := by
  unfold destDir at h
  split at h
  · rwa [← (Prod.mk.inj (Option.some.inj h)).2]
  · split at h
    · obtain ⟨e, -, h⟩ := Option.bind_eq_some_iff.mp h
      split at h
      · rw [← (Prod.mk.inj (Option.some.inj h)).2]
        exact ht.set fun q => by simp
      · exact absurd h (by simp)
    · exact absurd h (by simp)

/-- **When the JAR is in place**, for a `jar` of plain names on a server
without links: when it has no directory part and its destination is a
directory. -/
theorem inPlace_iff (ht : t.NoLinks)
    (hnames : ∀ c ∈ (components config.jar).dropLast, IsName c)
    (hfree : ∀ d t₁, destDir t config.dest = some (d, t₁) →
      t₁.node (baseName config.jar :: d) ≠ some .dir) :
    InPlace config t ↔ (components config.jar).dropLast = []
      ∧ destDir t config.dest ≠ none := by
  constructor
  · rintro ⟨d, t₁, hdest, -, e, he, hlink⟩
    have ht₁ := noLinks_of_destDir ht hdest
    refine ⟨?_, by rw [hdest]; exact Option.some_ne_none _⟩
    obtain rfl := hlink.resolve_right (ht₁ _ _)
    have heq := (ht₁.set (fun q => by simp)).walk_eq hnames he
    exact List.reverse_eq_nil_iff.mp (List.append_left_eq_self.mp heq.symm)
  · rintro ⟨hbare, hne⟩
    obtain ⟨⟨d, t₁⟩, hdest⟩ := Option.ne_none_iff_exists'.mp hne
    have henter : t₁.enter (baseName config.jar :: d) = none := by
      refine Option.eq_none_iff_forall_ne_some.mpr fun q hq => ?_
      obtain ⟨hdir, heq⟩ := enter_eq_some_iff.mp hq
      obtain rfl := heq.resolve_right (noLinks_of_destDir ht hdest _ _)
      exact hfree d t₁ hdest hdir
    refine ⟨d, t₁, hdest, ?_, d, ?_, Or.inl rfl⟩
    · unfold dirAt
      rw [walk_congr (enter_set_none henter)]
      exact dirAt_of_destDir hdest
    · rw [hbare]
      rfl

/-- `start` looks for nothing where there is no directory. -/
theorem not_leads_of_dirAt_none (habs : config.remoteJarDir.head? = some '/')
    (hjar : FilePath config.jar) (h : r.files.dirAt [] config.dest = none) :
    ¬ LeadsToCopy config r := by
  rw [leads_iff habs hjar]
  rintro ⟨d, e, p, -, hd, -⟩
  rw [h] at hd
  exact absurd hd (by simp)

/-- Nothing is below a copy that is the destination itself. -/
theorem not_leads_of_entry (habs : config.remoteJarDir.head? = some '/')
    (hjar : FilePath config.jar) (he : t.entry [] config.dest = some (d, c)) :
    ¬ LeadsToCopy config ⟨t.set d c (some (.file content)), some p⟩ :=
  not_leads_of_dirAt_none habs hjar (dirAt_set_file he)

/-- **The copy into a directory** is found where the directory part of `jar`
leads back to it. -/
theorem leads_iff_of_dirAt (habs : config.remoteJarDir.head? = some '/')
    (hjar : FilePath config.jar) (hd : t.dirAt [] config.dest = some d) :
    let base := baseName config.jar
    LeadsToCopy config ⟨t.set d base (some (.file content)), some (base :: d)⟩
      ↔ (t.set d base none).dirAt [] config.dest = some d ∧
        ∃ e, (t.set d base none).walk d (components config.jar).dropLast = some e
          ∧ (e = d ∨ t.node (base :: e) = some (.link (base :: d))) := by
  intro base
  have hwalk := walk_congr (enter_set_file t d base content)
  have hdir : (t.set d base (some (.file content))).dirAt [] config.dest
      = (t.set d base none).dirAt [] config.dest := by
    unfold dirAt
    rw [hwalk]
  rw [leads_iff habs hjar]
  constructor
  · rintro ⟨d', e, p, hp, hd', he, hfile⟩
    obtain rfl : d' = d := Option.some.inj
      ((walk_mono (fun _ _ => enter_of_enter_set_file) hd').symm.trans hd)
    rw [← Option.some.inj hp, fileAt_set_file] at hfile
    rw [hdir] at hd'
    rw [hwalk] at he
    exact ⟨hd', e, he, hfile.imp_left fun h => (List.cons.inj h).2⟩
  · rintro ⟨hd', e, he, hlink⟩
    refine ⟨d, e, base :: d, rfl, hdir.trans hd', ?_, ?_⟩
    · rw [hwalk]
      exact he
    · exact fileAt_set_file.mpr (hlink.imp_left fun h => by rw [h])

/-- **One copy**: the path of `start` leads to it exactly if it is in place. -/
theorem copyFile_leads_iff (habs : config.remoteJarDir.head? = some '/')
    (hjar : FilePath config.jar)
    (h : copyFile (baseName config.jar) content config.dest t = some r) :
    LeadsToCopy config r ↔ InPlace config t := by
  unfold copyFile at h
  split at h
  · next d t₁ hdest =>
    rw [← Option.some.inj h]
    refine (leads_iff_of_dirAt habs hjar (dirAt_of_destDir hdest)).trans ?_
    constructor
    · intro hin
      exact ⟨d, t₁, hdest, hin⟩
    · rintro ⟨d', t₁', hdest', hin⟩
      obtain ⟨rfl, rfl⟩ :=
        Prod.mk.inj (Option.some.inj (hdest.symm.trans hdest'))
      exact hin
  · next hdest =>
    split at h
    · exact absurd h (by simp)
    · obtain ⟨⟨d, c⟩, he, hr⟩ := Option.map_eq_some_iff.mp h
      rw [← hr]
      refine iff_of_false (not_leads_of_entry habs hjar he) ?_
      rintro ⟨d', t₁, hdest', -⟩
      rw [hdest] at hdest'
      exact absurd hdest' (by simp)

/-- Where the destination of a copy is no directory any more, it is not found,
and another copy does not help. -/
theorem not_leads_of_copyFile (habs : config.remoteJarDir.head? = some '/')
    (hjar : FilePath config.jar) (hdir : t.dirAt [] config.dest = none)
    (hkeep : config.dest.getLast? = some '/' → ∀ d c,
      t.entry [] config.dest = some (d, c) → t.node (c :: d) ≠ none)
    (h : copyFile base content config.dest t = some r) : ¬ LeadsToCopy config r := by
  have hnone : destDir t config.dest = none := by
    unfold destDir
    rw [hdir]
    dsimp only
    split
    · next hslash =>
      refine Option.bind_eq_none_iff.mpr fun e he => ?_
      exact if_neg (hkeep hslash e.1 e.2 he)
    · rfl
  unfold copyFile at h
  rw [hnone] at h
  dsimp only at h
  split at h
  · exact absurd h (by simp)
  · obtain ⟨⟨d, c⟩, he, hr⟩ := Option.map_eq_some_iff.mp h
    rw [← hr]
    exact not_leads_of_entry habs hjar he

/-- **A second copy** to the same server changes nothing in that, if it
succeeds. -/
theorem copyFile_again (habs : config.remoteJarDir.head? = some '/')
    (hjar : FilePath config.jar)
    (h : copyFile base content config.dest t = some r)
    (h' : copyFile base content config.dest r.files = some r') :
    LeadsToCopy config r' ↔ LeadsToCopy config r := by
  unfold copyFile at h
  split at h
  · next d t₁ hdest =>
    have hd := dirAt_of_destDir hdest
    obtain rfl := Option.some.inj h
    cases hd' : (t₁.set d base (some (.file content))).dirAt [] config.dest with
    | some d' =>
      -- the destination is still the same directory
      obtain rfl : d' = d := Option.some.inj
        ((walk_mono (fun _ _ => enter_of_enter_set_file) hd').symm.trans hd)
      unfold copyFile at h'
      rw [destDir_of_dirAt hd'] at h'
      rw [← Option.some.inj h', set_set]
    | none =>
      -- the copy has replaced a part of the way to its own directory
      refine iff_of_false
        (not_leads_of_copyFile habs hjar hd' (fun _ d' c he hnone => ?_) h')
        (not_leads_of_dirAt_none habs hjar hd')
      · have henter := dirAt_of_entry he fun _ _ => enter_of_enter_set_file
        rw [hd] at henter
        have hne : t₁.node (c :: d') ≠ none := by
          intro h₁
          unfold enter at henter
          rw [h₁] at henter
          exact absurd henter (by simp)
        by_cases hp : c :: d' = base :: d
        · rw [hp, set_node_self] at hnone
          exact absurd hnone (by simp)
        · exact hne (set_node_of_ne hp ▸ hnone)
  · split at h
    · exact absurd h (by simp)
    · next hslash =>
      obtain ⟨⟨d, c⟩, he, hr⟩ := Option.map_eq_some_iff.mp h
      subst hr
      exact iff_of_false
        (not_leads_of_copyFile habs hjar (dirAt_set_file he)
          (fun hslash' => absurd hslash' hslash) h')
        (not_leads_of_entry habs hjar he)

/-! ## All servers -/

variable {own : FileTree} {cwd : Place} {env : Rsync → Reply}
  {s s' : Session Rsync (Text → Remote)} {servers : List Text} {server : Text}

/-- The name of a JAR that is a file on the operator's machine. -/
theorem filePath_jar (h : own.read cwd config.localJar = some content) :
    FilePath config.jar := by
  have hpath : config.localJar = config.localJarDir ++ '/' :: config.jar :=
    List.append_assoc config.localJarDir ['/'] config.jar
  rw [hpath] at h
  exact filePath_of_read h

/-- `rsync` and `start` take the same name for it. -/
theorem baseName_localJar (h : FilePath config.jar) :
    baseName config.localJar = baseName config.jar := by
  have hpath : config.localJar = config.localJarDir ++ '/' :: config.jar :=
    List.append_assoc config.localJarDir ['/'] config.jar
  rw [hpath, h.baseName_append]

/-- **What a command that gets through has done**: the JAR is a file, and the
server has a copy of it. -/
theorem exists_of_effect {w w' : Text → Remote}
    (h : (config.rsync server).effect own cwd w = some w') :
    ∃ content r, own.read cwd config.localJar = some content
      ∧ copyFile (baseName config.jar) content config.dest (w server).files
        = some r
      ∧ w' = Function.update w server r := by
  unfold Rsync.effect at h
  split at h
  · exact absurd h (by simp)
  · next content hread =>
    obtain ⟨r, hr, hw⟩ := Option.map_eq_some_iff.mp h
    refine ⟨content, r, hread, ?_, hw.symm⟩
    rw [← baseName_localJar (filePath_jar hread)]
    exact hr

/-- The loop is about the servers of the list. -/
theorem syncLoop_other (hs : server ∉ servers)
    (h : syncLoop config own cwd servers env s = (.ok (), s')) :
    s'.world server = s.world server := by
  induction servers generalizing s with
  | nil => rw [← (Prod.mk.inj h).2]
  | cons first servers ih =>
    obtain ⟨hfirst, hs⟩ := not_or.mp fun h => hs (List.mem_cons.mpr h)
    obtain ⟨_, s₁, h₁, h⟩ := exists_of_bind_ok h
    obtain ⟨_, r, _, _, hw⟩ := exists_of_effect (world_of_issue_ok h₁)
    rw [ih hs h, hw, Function.update_of_ne hfirst]

/-- **The whole loop**, if it gets through: a server of the list has had its
first copy, in the end the path leads to the copy if it has done so then, and
the copy is the JAR. -/
theorem syncLoop_copied (habs : config.remoteJarDir.head? = some '/')
    (hs : server ∈ servers)
    (h : syncLoop config own cwd servers env s = (.ok (), s')) :
    ∃ content r, own.read cwd config.localJar = some content
      ∧ copyFile (baseName config.jar) content config.dest
          (s.world server).files = some r
      ∧ (LeadsToCopy config (s'.world server) ↔ LeadsToCopy config r)
      ∧ HasCopy config own cwd (s'.world server) := by
  induction servers generalizing s with
  | nil => exact absurd hs List.not_mem_nil
  | cons first servers ih =>
    obtain ⟨_, s₁, h₁, hrest⟩ := exists_of_bind_ok h
    obtain ⟨content, r, hread, hr, hw⟩ := exists_of_effect (world_of_issue_ok h₁)
    by_cases hlater : server ∈ servers
    · obtain ⟨content', r', hread', hr', hiff, hcopy⟩ := ih hlater hrest
      by_cases hfirst : server = first
      · obtain rfl : content = content' :=
          Option.some.inj (hread.symm.trans hread')
        rw [hw, hfirst, Function.update_self] at hr'
        rw [hfirst] at hiff hcopy ⊢
        exact ⟨content, r, hread, hr,
          hiff.trans (copyFile_again habs (filePath_jar hread) hr hr'), hcopy⟩
      · rw [hw, Function.update_of_ne hfirst] at hr'
        exact ⟨content', r', hread', hr', hiff, hcopy⟩
    · obtain rfl : server = first := (List.mem_cons.mp hs).resolve_right hlater
      obtain ⟨p, hp, hnode⟩ := node_copied hr
      refine ⟨content, r, hread, hr, ?_⟩
      rw [syncLoop_other hlater hrest, hw, Function.update_self]
      exact ⟨Iff.rfl, p, content, hp, hnode, hread⟩

/-- **`sync` and `start` agree where the JAR is in place**, and nowhere else:
after a `sync` that gets through, on every server of the list exactly if the
JAR was in place with its last name on every one before. -/
theorem sync_agrees_iff (config : Config) (own : FileTree) (cwd : Place)
    (env : Rsync → Reply) (w : Text → Remote)
    (habs : config.remoteJarDir.head? = some '/')
    (hok : ((sync config own cwd).exec env w).1 = .ok ()) :
    (∀ server ∈ config.all,
        Agrees config own cwd (((sync config own cwd).exec env w).2.world server))
      ↔ ∀ server ∈ config.all, InPlace config (w server).files := by
  refine forall₂_congr fun server hs => ?_
  obtain ⟨content, r, hread, hr, hiff, hcopy⟩ :=
    syncLoop_copied habs hs
      (show (sync config own cwd).exec env w = (.ok (), _) from Prod.ext hok rfl)
  exact (and_iff_left hcopy).trans
    (hiff.trans (copyFile_leads_iff habs (filePath_jar hread) hr))

/-- The files of the operator, who has built the application in `/app`. -/
def sampleOwn : FileTree where
  node := fun p =>
    [([], .dir), (["app".toList], .dir), (["target".toList, "app".toList], .dir),
      (["scala-2.10".toList, "target".toList, "app".toList], .dir),
      (["ExampleApp.jar".toList, "scala-2.10".toList, "target".toList,
        "app".toList], .file "PK".toList)].lookup p
  root := rfl

/-- A server with two directories, to which nothing has been copied. -/
def sampleRemote : Remote where
  files :=
    { node := fun p =>
        [([], .dir), (["tmp".toList], .dir), (["opt".toList], .dir)].lookup p
      root := rfl }
  copied := none

/-- An environment in which every copy gets through. -/
def connected : Rsync → Reply := fun _ => ⟨true, []⟩

/-- With the sample configuration the two agree. -/
theorem sync_agrees_sampleConfig :
    Agrees sampleConfig sampleOwn ["app".toList]
      (((sync sampleConfig sampleOwn ["app".toList]).exec connected
        fun _ => sampleRemote).2.world "server0".toList) := by
  refine (sync_agrees_iff sampleConfig sampleOwn ["app".toList] connected
    (fun _ => sampleRemote) rfl (by decide +kernel)).mpr ?_ _ List.mem_cons_self
  intro server _
  refine ⟨["tmp".toList], sampleRemote.files,
    destDir_of_dirAt (by decide +kernel), by decide +kernel, ["tmp".toList], ?_, ?_⟩
  · show FileTree.walk _ _ [] = _
    rfl
  · exact Or.inl rfl

/-- The sample configuration, with a directory that is missing on the server
and has no slash behind it. -/
def noSlashConfig : Config :=
  { sampleConfig with remoteJarDir := "/opt/jars".toList }

/-- **`sync` can get through and leave the JAR where `start` does not look**:
the copy is the file `/opt/jars` then. -/
theorem not_agrees_noSlash :
    noSlashConfig.remoteJarDir.head? = some '/'
      ∧ ((sync noSlashConfig sampleOwn ["app".toList]).exec connected
          fun _ => sampleRemote).1 = .ok ()
      ∧ "server0".toList ∈ noSlashConfig.all
      ∧ ¬ Agrees noSlashConfig sampleOwn ["app".toList]
          (((sync noSlashConfig sampleOwn ["app".toList]).exec connected
            fun _ => sampleRemote).2.world "server0".toList) := by
  refine ⟨rfl, by decide +kernel, List.mem_cons_self, fun ⟨⟨p, _, hp⟩, _⟩ => ?_⟩
  have hnone : (((sync noSlashConfig sampleOwn ["app".toList]).exec connected
      fun _ => sampleRemote).2.world "server0".toList).files.resolve []
        noSlashConfig.remoteJar = none := by decide +kernel
  exact absurd (hnone.symm.trans (hp [])) (by simp)

end Application
