import ClusterDeployment.HdfsMaster

/-!
# What happens to the master of HDFS

A run of the start task can break off anywhere, and the next one goes on with
what it finds. Between two runs services end and come up, and users change the
file system. Whatever happens, the NameNode is formatted at most once, and no
run changes anything that is in the file system (`keeps_hdfs`) – so a directory
that was left half made keeps the owner that it got. What is there has what it
requires, as far as that has to last (`grounded_after`). A run in which nothing
fails has one result only, whatever its order and whatever came before
(`result_eq_completed`), and it is what the coarser view of the services says
(`result_host`).

With a second NameNode the account is different. The primary one is made active
by the run that formats it, and by no other: once it has been restarted it
serves nothing, and no run gets further than its start
(`standby_of_restarted`).
-/

namespace Hdfs

open ResourceGraph Run

variable {γ : Type} {h : Hadoop γ} {n n' : Node γ}

/-! ## What is there, and what has to last -/

/-- Whether something of a resource is there. A file that is not to be there
always is as it should be. -/
def There (h : Hadoop γ) (r : MasterResource) (n : Node γ) : Prop :=
  Has h r n ∧ ∀ f, r = .configFile f → h.rendered f ≠ none

/-- What has to last is in place: packages, files, the directory of the NameNode
and its format. Nothing is asked of services, which end, of the transition to
active, which goes with them, and of directories in HDFS, which users remove. -/
def Lasts (h : Hadoop γ) (r : MasterResource) (n : Node γ) : Prop :=
  (∀ s, r ≠ .service s) → (∀ d, r ≠ .directory d) → Has h r n

/-- A change gets nothing else there. -/
theorem There.of_change {r d : MasterResource} (hc : Change h r n n')
    (hne : d ≠ r) (hd : There h d n') : There h d n :=
  ⟨hd.1.of_change hc hne, hd.2⟩

/-- What has to last, lasts. -/
theorem Lasts.change {r d : MasterResource} (hs : Sane h n) (hc : Change h r n n')
    (hd : Lasts h d n) : Lasts h d n' :=
  fun hservice hdir => (hd hservice hdir).change hs hc

/-- What the directories are made on: everything up to the NameNode. -/
def Foundation : MasterResource → Prop
  | .package s => s = .namenode
  | .service s => s = .namenode
  | _ => True

theorem foundation_of_hadoopClass {r : MasterResource}
    (hr : r ∈ Hadoop.hadoopClass) : Foundation r := by
  simp only [Hadoop.hadoopClass, List.mem_cons, List.mem_map] at hr
  obtain rfl | ⟨f, -, rfl⟩ := hr
  · trivial
  · trivial

theorem foundation_of_namenodeClass {r : MasterResource}
    (hr : r ∈ Hadoop.namenodeClass) : Foundation r := by
  simp only [Hadoop.namenodeClass, List.mem_cons, List.not_mem_nil, or_false] at hr
  obtain rfl | rfl | rfl | rfl | rfl := hr <;> first | rfl | trivial

/-- The foundation stands on its own. -/
theorem Foundation.requires {r d : MasterResource} (hr : Foundation r)
    (hd : d ∈ h.requires r) : Foundation d := by
  have hserved : Foundation h.served := by
    unfold Hadoop.served
    split
    · trivial
    · rfl
  cases r with
  | clientPackage => exact absurd hd List.not_mem_nil
  | configFile f => exact List.mem_singleton.mp hd ▸ trivial
  | package s =>
    obtain rfl : s = .namenode := hr
    exact foundation_of_hadoopClass hd
  | hostsExclude | nameDir | namenodeFormat =>
    obtain hd | hd := List.mem_append.mp hd
    · exact foundation_of_hadoopClass hd
    · exact List.mem_singleton.mp hd ▸ (by first | rfl | trivial)
  | service s =>
    obtain rfl : s = .namenode := hr
    obtain hd | hd := List.mem_append.mp hd
    · exact foundation_of_hadoopClass hd
    · simp only [List.mem_cons, List.not_mem_nil, or_false] at hd
      obtain rfl | rfl := hd <;> trivial
  | transitionToActive =>
    simp only [Hadoop.requires, List.mem_cons, List.not_mem_nil, or_false] at hd
    obtain rfl | rfl := hd <;> first | rfl | trivial
  | directory d' =>
    obtain hd | hd := List.mem_append.mp hd
    · exact foundation_of_hadoopClass hd
    · cases d' with
      | tmp | user | var => exact List.mem_singleton.mp hd ▸ hserved
      | userHdfs | varLib | varLog => exact List.mem_singleton.mp hd ▸ trivial
      | hadoopYarn | userHistory =>
        obtain hd | hd := List.mem_append.mp hd
        · exact foundation_of_namenodeClass hd
        · simp only [List.mem_cons, List.not_mem_nil, or_false] at hd
          obtain rfl | rfl := hd <;> first | rfl | trivial
      | _ =>
        obtain hd | hd := List.mem_append.mp hd
        · exact foundation_of_namenodeClass hd
        · exact List.mem_singleton.mp hd ▸ trivial

/-! ## What a catalog comes to -/

namespace Hadoop

/-- The services of the catalog. -/
def services (h : Hadoop γ) : List Service :=
  .namenode :: if h.useYarn then [.resourcemanager, .historyserver] else [.jobtracker]

/-- The directories of the catalog. -/
def directories (h : Hadoop γ) : List Directory :=
  [.tmp, .user, .userHdfs, .var, .varLib, .varLog]
    ++ if h.useYarn then [.hadoopYarn, .userHistory]
      else [.mapred, .mapredSystem, .hadoopHdfs, .cache, .cacheMapred,
        .cacheMapredMapred, .staging]

/-- What the catalog declares for a place. -/
def declared (h : Hadoop γ) (p : Place) : Option Attr :=
  (h.directories.find? fun d => d.place = p).map Directory.attr

/-- **The host with everything in place**: what was there before stays. -/
def completed (h : Hadoop γ) (n : Node γ) : Node γ where
  client := true
  config := h.rendered
  installed := fun s => n.installed s || decide (s ∈ h.services)
  hostsExclude := true
  dataRoot := n.dataRoot
  nameDir := true
  formats := 1
  running := fun s => n.running s || decide (s ∈ h.services)
  enabled := fun s => n.enabled s || decide (s ∈ h.services)
  active := true
  hdfs := fun p => (n.hdfs p).or (h.declared p)

variable {s : Service} {d e : Directory}

theorem service_mem_members : .service s ∈ h.members ↔ s ∈ h.services := by
  unfold members services primaryClass
  cases h.useYarn <;> cases h.haEnabled <;>
    simp [hadoopClass, namenodeClass, resourcemanagerClass, historyserverClass,
      jobtrackerClass, jobtrackerDirectories]

theorem package_mem_members : .package s ∈ h.members ↔ s ∈ h.services := by
  unfold members services primaryClass
  cases h.useYarn <;> cases h.haEnabled <;>
    simp [hadoopClass, namenodeClass, resourcemanagerClass, historyserverClass,
      jobtrackerClass, jobtrackerDirectories]

theorem directory_mem_members : .directory d ∈ h.members ↔ d ∈ h.directories := by
  unfold members directories primaryClass
  cases h.useYarn <;> cases h.haEnabled <;>
    simp [hadoopClass, namenodeClass, resourcemanagerClass, historyserverClass,
      jobtrackerClass, jobtrackerDirectories]

/-- The files and the NameNode are in every catalog. -/
theorem mem_members {r : MasterResource} (hr : r ∈ hadoopClass ∨ r ∈ namenodeClass) :
    r ∈ h.members := by
  unfold members
  obtain hr | hr := hr
  · exact List.mem_append_left _ (List.mem_append_left _ (List.mem_append_left _ hr))
  · exact List.mem_append_left _ (List.mem_append_left _ (List.mem_append_right _ hr))

theorem configFile_mem_hadoopClass (f : ConfigFile) :
    .configFile f ∈ hadoopClass :=
  List.mem_cons_of_mem _ (List.mem_map_of_mem (by cases f <;> simp))

/-- What is declared for a place is declared by its directory. -/
theorem declared_place (hd : d ∈ h.directories) : h.declared d.place = some d.attr := by
  unfold declared
  cases hfind : h.directories.find? fun d' => d'.place = d.place with
  | none => exact absurd (List.find?_eq_none.mp hfind d hd) (by simp)
  | some d' =>
    have heq : d'.place = d.place := by simpa using List.find?_some hfind
    rw [Directory.place_injective heq]
    rfl

/-- Nothing else is declared. -/
theorem exists_of_declared {p : Place} {a : Attr} (hp : h.declared p = some a) :
    ∃ d ∈ h.directories, d.place = p := by
  obtain ⟨d, hd, -⟩ := Option.map_eq_some_iff.mp hp
  exact ⟨d, List.mem_of_find?_eq_some hd, by simpa using List.find?_some hd⟩

/-- A directory in another one requires it, -/
theorem parent_mem_requires (hd : d.parent = some e) :
    .directory e ∈ h.requires (.directory d) := by
  refine List.mem_append_right hadoopClass ?_
  cases d <;> cases hd <;> simp [requiresDirectory]

/-- and one below the root requires what serves the file system. -/
theorem served_mem_requires (hd : d.parent = none) :
    h.served ∈ h.requires (.directory d) := by
  refine List.mem_append_right hadoopClass ?_
  cases d <;> cases hd <;> exact List.mem_singleton.mpr rfl

end Hadoop

variable [DecidableEq γ]

/-! ## Runs -/

/-- **A run of `startHdfsMaster`**: Puppet goes over the catalog in some order
that its requirements allow, and of the commands for each resource some number
gets through. -/
structure StartRun (h : Hadoop γ) where
  order : List MasterResource
  ordered : h.graph.Ordered order
  mem_iff : ∀ r, r ∈ order ↔ r ∈ h.members
  reply : MasterResource → ℕ

/-- The classes can be applied in the order in which they are written down. -/
theorem ordered_members (h : Hadoop γ) : h.graph.Ordered h.members := by
  obtain ⟨useYarn, haEnabled, netTopologyScript, gangliaHosts, template⟩ := h
  refine ordered_iff.mpr ?_
  cases useYarn <;> cases haEnabled <;> rfl

/-- A run in that order. -/
def StartRun.written (h : Hadoop γ) (reply : MasterResource → ℕ) : StartRun h where
  order := h.members
  ordered := ordered_members h
  mem_iff := fun _ => Iff.rfl
  reply := reply

/-- The catalog of the deployment, with the names of the templates for what
they come to. -/
def sampleHadoop : Hadoop ConfigFile := ⟨true, false, false, false, id⟩

/-- The host after a run. -/
def StartRun.result (r : StartRun h) (n : Node γ) : Node γ :=
  (h.graph.apply r.reply r.order n).state

/-- What happens to a host. -/
inductive Event (h : Hadoop γ) where
  | startHdfsMaster (r : StartRun h)
  | serviceEnds (s : Service)
  | serviceComesUp (s : Service)
  | userMkdir (p : Place) (a : Attr)
  | userRm (p : Place)

/-- The host after that. A service comes up on its own if it is enabled; users
make directories, and remove them with all that is in them. -/
def Node.step (n : Node γ) : Event h → Node γ
  | .startHdfsMaster r => r.result n
  | .serviceEnds s => { n with running := Function.update n.running s false }
  | .serviceComesUp s =>
    if n.enabled s && !n.running s && Hadoop.startable s n then h.started s n else n
  | .userMkdir p a => if n.canMkdir p then n.put p a else n
  | .userRm p =>
    if n.up && p != [] then
      { n with hdfs := fun q => if p <:+ q then none else n.hdfs q }
    else n

/-- What still runs is another service. -/
theorem Node.running_serviceEnds {s s' : Service}
    (hrun : (n.step (h := h) (.serviceEnds s)).running s' = true) :
    s' ≠ s ∧ n.running s' = true := by
  change Function.update n.running s false s' = true at hrun
  have hne : s' ≠ s := by
    rintro rfl
    rw [Function.update_self] at hrun
    exact absurd hrun (by simp)
  rw [Function.update_of_ne hne] at hrun
  exact ⟨hne, hrun⟩

/-- A host after a history of what has happened to it. -/
def after (dataRoot : Bool) (history : List (Event h)) : Node γ :=
  run Node.step (Node.fresh γ dataRoot) history

@[simp] theorem after_concat (dataRoot : Bool) (history : List (Event h))
    (e : Event h) : after dataRoot (history ++ [e]) = (after dataRoot history).step e :=
  run_concat _ _ history e

/-- What a run keeps, it keeps because a change does. -/
theorem StartRun.result_of_change (r : StartRun h) {P : Node γ → Prop}
    (hs : Sane h n) (hP : P n)
    (hchange : ∀ x m m', Sane h m → P m → Change h x m m' → P m') :
    Sane h (r.result n) ∧ P (r.result n) := by
  obtain ⟨hs', hP', -⟩ := (lawful h).induction r.reply r.ordered hs hP
    fun x _ s hs _ _ hP => (enforce_of_change x _ hs hP (hchange x)).2
  exact ⟨hs', hP'⟩

/-- **What holds at all times holds after every step.** -/
theorem Sane.step (hs : Sane h n) (e : Event h) : Sane h (n.step e) := by
  cases e with
  | startHdfsMaster r =>
    exact (r.result_of_change (P := fun _ => True) hs trivial
      fun _ _ _ _ _ _ => trivial).1
  | serviceEnds s =>
    have hold : ∀ {s'}, (n.step (h := h) (.serviceEnds s)).running s' = true →
        s' ≠ s ∧ n.running s' = true := fun hrun => Node.running_serviceEnds hrun
    exact ⟨hs.once, hs.empty, fun hrun => hs.formatted (hold hrun).2,
      fun s' hrun => hs.installed s' (hold hrun).2,
      fun hha hrun => hs.active hha (hold hrun).2⟩
  | serviceComesUp s =>
    show Sane h (if _ then _ else _)
    split
    · next hup =>
      simp only [Bool.and_eq_true, Bool.not_eq_true'] at hup
      exact hs.change (.service s hup.1.2 hup.2)
    · exact hs
  | userMkdir p a =>
    show Sane h (if _ then _ else _)
    split
    · next hcan =>
      have hup := (Node.canMkdir_iff.mp hcan).1
      exact ⟨hs.once, fun h0 => absurd h0 (hs.formats_ne_zero hup), hs.formatted,
        hs.installed, hs.active⟩
    · exact hs
  | userRm p =>
    show Sane h (if _ then _ else _)
    split
    · next hrm =>
      have hup := (Bool.and_eq_true_iff.mp hrm).1
      exact ⟨hs.once, fun h0 => absurd h0 (hs.formats_ne_zero hup), hs.formatted,
        hs.installed, hs.active⟩
    · exact hs

/-- **Every host is sane.** -/
theorem sane_after (dataRoot : Bool) (history : List (Event h)) :
    Sane h (after dataRoot history) :=
  run_invariant (fun _ e _ hs => hs.step e)
    ⟨Nat.zero_le _, fun _ _ => rfl, nofun, nofun, nofun⟩

/-- **No run destroys anything.** Over whatever has happened to a host, and
whatever happens from then on – runs in any order, of which any command may
fail, services that end and come up – the NameNode is formatted at most once,
and what is in the file system stays as it is, unless users remove it or what
it lies in. -/
theorem keeps_hdfs (dataRoot : Bool) (history history' : List (Event h))
    {p : Place} {a : Attr} (hp : (after dataRoot history).hdfs p = some a)
    (hrm : ∀ q, .userRm q ∈ history' → ¬ q <:+ p) :
    (after dataRoot (history ++ history')).formats ≤ 1
      ∧ (after dataRoot (history ++ history')).hdfs p = some a := by
  refine ⟨(sane_after dataRoot _).once, ?_⟩
  induction history' using List.reverseRecOn with
  | nil => rwa [List.append_nil]
  | append_singleton history' e ih =>
    have hkept := ih fun q hq => hrm q (List.mem_append_left [e] hq)
    have hs := sane_after dataRoot (history ++ history')
    rw [← List.append_assoc, after_concat]
    cases e with
    | startHdfsMaster r =>
      exact (r.result_of_change (P := fun n => n.hdfs p = some a) hs hkept
        fun _ _ _ hs hp hc => hc.hdfs hs hp).2
    | serviceEnds s => exact hkept
    | serviceComesUp s =>
      show (if _ then _ else _ : Node γ).hdfs p = some a
      split
      · exact hkept
      · exact hkept
    | userMkdir q a' =>
      show (if _ then _ else _ : Node γ).hdfs p = some a
      split
      · next hcan =>
        refine (Node.hdfs_put_of_ne fun heq => ?_).trans hkept
        rw [heq, (Node.canMkdir_iff.mp hcan).2.1] at hkept
        exact absurd hkept (by simp)
      · exact hkept
    | userRm q =>
      have hq := hrm q (List.mem_append_right history' List.mem_cons_self)
      show (if _ then _ else _ : Node γ).hdfs p = some a
      split
      · exact (if_neg hq).trans hkept
      · exact hkept

/-- `/user/history` of a run that is cut off after `chmod`. -/
def cutOff : StartRun sampleHadoop :=
  .written sampleHadoop fun x => if x = .directory .userHistory then 2 else 3

/-- It is not given to `yarn` any more, although the next run gets through. -/
theorem keeps_hdfs_cutOff :
    (after true ([.startHdfsMaster cutOff]
        ++ [.startHdfsMaster (.written sampleHadoop fun _ => 3)])).hdfs
      Directory.userHistory.place
    = some ⟨"hdfs".toList, "hadoop".toList, "1777".toList⟩ :=
  (keeps_hdfs true [.startHdfsMaster cutOff] _ (by decide +kernel)
    fun q hq => absurd hq (by simp)).2

/-! ## What is there has what it requires -/

/-- Whatever a directory requires is a part of the foundation. -/
theorem foundation_of_requires {d : Directory} {e : MasterResource}
    (he : h.graph.Requires (.directory d) e) : Foundation e := by
  have hstart : Foundation (.directory d) := trivial
  induction he with
  | single he => exact hstart.requires he
  | tail _ he ih => exact ih.requires he

/-- **The foundation is what the NameNode requires**, as far as it has to
last. -/
theorem Foundation.requires_namenode {e : MasterResource} (he : Foundation e)
    (hservice : ∀ s, e ≠ .service s) (hdir : ∀ d, e ≠ .directory d) :
    e = .transitionToActive ∨ h.graph.Requires (.service .namenode) e := by
  have hmem : ∀ {r d}, d ∈ h.requires r → h.graph.Requires r d :=
    fun hd => .single hd
  have hclass : ∀ {x}, x ∈ Hadoop.hadoopClass →
      h.graph.Requires (.service .namenode) x :=
    fun hx => hmem (List.mem_append_left _ hx)
  have hexclude : h.graph.Requires (.service .namenode) .hostsExclude :=
    hmem (List.mem_append_right _ (by simp))
  have hformat : h.graph.Requires (.service .namenode) .namenodeFormat :=
    hmem (List.mem_append_right _ (by simp))
  cases e with
  | transitionToActive => exact Or.inl rfl
  | service s => exact absurd rfl (hservice s)
  | directory d => exact absurd rfl (hdir d)
  | clientPackage => exact Or.inr (hclass List.mem_cons_self)
  | configFile f =>
    refine Or.inr (hclass (List.mem_cons_of_mem _ (List.mem_map_of_mem ?_)))
    cases f <;> simp
  | package s =>
    obtain rfl : s = .namenode := he
    exact Or.inr (hexclude.trans (hmem (List.mem_append_right _ (by simp))))
  | hostsExclude => exact Or.inr hexclude
  | namenodeFormat => exact Or.inr hformat
  | nameDir => exact Or.inr (hformat.trans (hmem (List.mem_append_right _ (by simp))))

/-- **Runs leave things grounded.** -/
theorem StartRun.grounded (r : StartRun h) (hs : Sane h n)
    (hg : Grounded h.graph (There h) (Lasts h) n) :
    Grounded h.graph (There h) (Lasts h) (r.result n) := by
  refine (lawful h).grounded_apply (fun d n hd _ _ => hd.1)
    (fun x k n d hs hd => (enforce_of_change x k hs hd
      fun _ _ hs hd hc => hd.change hs hc).2)
    (fun x k n d hs hne hd => ?_) r.reply r.ordered hs hg
  have hc := enforce_changes h x k n
  generalize ((h.graph.resource x).enforce k n).2 = n' at hc hd
  induction hc with
  | refl => exact hd
  | tail _ hc ih => exact ih (hd.of_change hc hne)

/-- **Whatever happens leaves things grounded.** -/
theorem grounded_step (hs : Sane h n)
    (hg : Grounded h.graph (There h) (Lasts h) n) (e : Event h) :
    Grounded h.graph (There h) (Lasts h) (n.step e) := by
  -- it is enough that an event takes away nothing that has to last, and puts
  -- nothing there but directories where the NameNode runs
  have hrule : ∀ n' : Node γ, (∀ d, Lasts h d n → Lasts h d n') →
      (∀ r, There h r n' → There h r n
        ∨ (∃ d, r = .directory d) ∧ n.running .namenode = true) →
      Grounded h.graph (There h) (Lasts h) n' := by
    intro n' hlasts hthere r hr hr' d hd
    refine hlasts d ?_
    obtain hr' | ⟨⟨d', rfl⟩, hrun⟩ := hthere r hr'
    · exact hg r hr hr' d hd
    · intro hservice hdir
      obtain rfl | hreq :=
        (foundation_of_requires hd).requires_namenode (h := h) hservice hdir
      · trivial
      · exact hg (.service .namenode) rfl ⟨Or.inl hrun, nofun⟩ d hreq hservice hdir
  cases e with
  | startHdfsMaster r => exact r.grounded hs hg
  | serviceEnds s =>
    refine hrule _ (fun d hd hservice hdir => ?_) fun r hr => Or.inl ?_
    · have hhas := hd hservice hdir
      cases d with
      | service s' => exact absurd rfl (hservice s')
      | _ => exact hhas
    · obtain ⟨hhas, hfile⟩ := hr
      refine ⟨?_, hfile⟩
      cases r with
      | service s' =>
        exact hhas.imp_left fun hrun => (Node.running_serviceEnds hrun).2
      | _ => exact hhas
  | serviceComesUp s =>
    show Grounded _ _ _ (if _ then _ else _)
    split
    · next hup =>
      simp only [Bool.and_eq_true, Bool.not_eq_true'] at hup
      have hc : Change h (.service s) n (h.started s n) := .service s hup.1.2 hup.2
      refine hrule _ (fun d hd => hd.change hs hc) fun r hr => Or.inl ?_
      by_cases heq : r = .service s
      · rw [heq]
        exact ⟨Or.inr hup.1.1, nofun⟩
      · exact hr.of_change hc heq
    · exact hg
  | userMkdir p a =>
    show Grounded _ _ _ (if _ then _ else _)
    split
    · next hcan =>
      have hup := (Node.canMkdir_iff.mp hcan).1
      refine hrule _ (fun d hd hservice hdir => ?_) fun r hr => ?_
      · have hhas := hd hservice hdir
        cases d with
        | directory d => exact absurd rfl (hdir d)
        | _ => exact hhas
      · cases r with
        | directory d => exact Or.inr ⟨⟨d, rfl⟩, (Bool.and_eq_true_iff.mp hup).1⟩
        | _ => exact Or.inl hr
    · exact hg
  | userRm p =>
    show Grounded _ _ _ (if _ then _ else _)
    split
    · refine hrule _ (fun d hd hservice hdir => ?_) fun r hr => Or.inl ?_
      · have hhas := hd hservice hdir
        cases d with
        | directory d => exact absurd rfl (hdir d)
        | _ => exact hhas
      · obtain ⟨hhas, hfile⟩ := hr
        refine ⟨?_, hfile⟩
        cases r with
        | directory d =>
          intro hnone
          refine hhas ?_
          show (if p <:+ d.place then none else n.hdfs d.place) = none
          rw [hnone, ite_self]
        | _ => exact hhas
    · exact hg

/-- **Nothing is there without what it requires.** Whatever has happened to a
host – runs that broke off anywhere, services that ended and came up, changes
of the file system – a package, a file, a service or a directory is there only
if everything that it requires is in place, directly or through others. Of the
services and the directories of HDFS among that nothing remains to be said: a
service may have ended, whatever it has been there for, and a user may have
removed a directory. -/
theorem grounded_after (dataRoot : Bool) (history : List (Event h)) :
    Grounded h.graph (There h) (Lasts h) (after dataRoot history) := by
  induction history using List.reverseRecOn with
  | nil =>
    rintro r hr ⟨hhas, hfile⟩
    cases r with
    | transitionToActive => exact absurd hr (by simp [Hadoop.graph])
    | configFile f => exact absurd hhas.symm (hfile f rfl)
    | service s => exact absurd hhas (by simp [Has, after, Node.fresh])
    | _ => exact absurd hhas (by simp [Has, after, Node.fresh])
  | append_singleton history e ih =>
    rw [after_concat]
    exact grounded_step (sane_after dataRoot history) ih e

/-! ## A run in which nothing fails -/

/-- No command fails. -/
def StartRun.Clean (r : StartRun h) : Prop := ∀ x, 3 ≤ r.reply x

/-- **How far a run can be**: each thing is as it was, or as it is to be. -/
structure OnTheWay (h : Hadoop γ) (n m : Node γ) : Prop where
  dataRoot : m.dataRoot = n.dataRoot
  installed : ∀ s ∉ h.services, m.installed s = n.installed s
  running : ∀ s ∉ h.services, m.running s = n.running s
  enabled : ∀ s ∉ h.services, m.enabled s = n.enabled s
  hdfs : ∀ p, m.hdfs p = n.hdfs p ∨ n.hdfs p = none ∧ m.hdfs p = h.declared p

omit [DecidableEq γ] in
theorem OnTheWay.refl (h : Hadoop γ) (n : Node γ) : OnTheWay h n n :=
  ⟨rfl, fun _ _ => rfl, fun _ _ => rfl, fun _ _ => rfl, fun _ => Or.inl rfl⟩

omit [DecidableEq γ] in
/-- A declared directory is on the way. -/
theorem OnTheWay.put {m : Node γ} (hw : OnTheWay h n m) {d : Directory}
    (hd : d ∈ h.directories) (hnew : m.hdfs d.place = none) :
    OnTheWay h n (m.put d.place d.attr) := by
  refine ⟨hw.dataRoot, hw.installed, hw.running, hw.enabled, fun p => ?_⟩
  by_cases hp : p = d.place
  · rw [hp, Node.hdfs_put_self, Hadoop.declared_place hd]
    obtain heq | ⟨hnone, -⟩ := hw.hdfs d.place
    · exact Or.inr ⟨heq.symm.trans hnew, rfl⟩
    · exact Or.inr ⟨hnone, rfl⟩
  · rw [Node.hdfs_put_of_ne hp]
    exact hw.hdfs p

omit [DecidableEq γ] in
/-- So is every other change of a member. -/
theorem OnTheWay.change {r : MasterResource} {m m' : Node γ} (hw : OnTheWay h n m)
    (hs : Sane h m) (hr : r ∈ h.members) (hdir : ∀ d, r ≠ .directory d)
    (hc : Change h r m m') : OnTheWay h n m' := by
  cases hc with
  | clientPackage | configFile | hostsExclude | nameDir | transitionToActive =>
    exact ⟨hw.dataRoot, hw.installed, hw.running, hw.enabled, hw.hdfs⟩
  | package s =>
    have hmem := Hadoop.package_mem_members.mp hr
    refine ⟨hw.dataRoot, fun s' hs' => ?_, hw.running, hw.enabled, hw.hdfs⟩
    have hne : s' ≠ s := fun heq => hs' (heq.symm ▸ hmem)
    exact (Node.installed_install_of_ne hne).trans (hw.installed s' hs')
  | namenodeFormat hfirst =>
    refine ⟨hw.dataRoot, hw.installed, hw.running, hw.enabled, fun p => Or.inl ?_⟩
    -- what has been empty so far has been so from the beginning
    obtain heq | ⟨hnone, -⟩ := hw.hdfs p
    · exact (hs.empty hfirst p).symm.trans heq
    · exact hnone.symm
  | service s hdown hstart =>
    have hmem := Hadoop.service_mem_members.mp hr
    refine ⟨hw.dataRoot, hw.installed, fun s' hs' => ?_, hw.enabled, hw.hdfs⟩
    have hne : s' ≠ s := fun heq => hs' (heq.symm ▸ hmem)
    exact (Node.running_started_of_ne hne).trans (hw.running s' hs')
  | enable s hrun =>
    have hmem := Hadoop.service_mem_members.mp hr
    refine ⟨hw.dataRoot, hw.installed, hw.running, fun s' hs' => ?_, hw.hdfs⟩
    have hne : s' ≠ s := fun heq => hs' (heq.symm ▸ hmem)
    exact (Node.enabled_enable_of_ne hne).trans (hw.enabled s' hs')
  | directory d => exact absurd rfl (hdir d)

/-- A service requires its package. -/
theorem requires_package {s : Service} (hs : s ∈ h.services) :
    h.graph.Requires (.service s) (.package s) := by
  have hmem : ∀ {r d}, d ∈ h.requires r → h.graph.Requires r d :=
    fun hd => .single hd
  cases s with
  | namenode =>
    have hexclude : h.graph.Requires (.service .namenode) .hostsExclude :=
      hmem (List.mem_append_right _ (by simp))
    exact hexclude.trans (hmem (List.mem_append_right _ (by simp)))
  | resourcemanager | historyserver | jobtracker =>
    exact hmem (List.mem_append_right _ (by simp))
  | datanode | nodemanager | tasktracker =>
    unfold Hadoop.services at hs
    split at hs <;> simp at hs

/-- **Where everything required is in place, nothing fails** on its own. -/
theorem enforce_ok {r : MasterResource} {k : ℕ} (hha : h.haEnabled = false)
    (hs : Sane h n) (hr : r ∈ h.members) (hk : 3 ≤ k)
    (hreq : ∀ d, h.graph.Requires r d → Done h d n) (hroot : n.dataRoot = true) :
    ((h.graph.resource r).enforce k n).1 ≠ .failed := by
  have hdirect : ∀ {d}, d ∈ h.requires r → Done h d n := fun hd => hreq _ (.single hd)
  have hk' : k ≠ 0 := by omega
  cases r with
  | clientPackage => exact enforce_single_ok hk' rfl
  | configFile f => exact enforce_single_ok hk' (hdirect List.mem_cons_self).1
  | package s => exact enforce_single_ok hk' rfl
  | hostsExclude =>
    exact enforce_single_ok hk' (hdirect (List.mem_append_left _ List.mem_cons_self)).1
  | nameDir =>
    exact enforce_single_ok hk' (Bool.and_eq_true_iff.mpr
      ⟨hroot, (hdirect (List.mem_append_left _ List.mem_cons_self)).1⟩)
  | namenodeFormat =>
    exact enforce_single_ok hk'
      (hdirect (List.mem_append_right _ List.mem_cons_self)).1
  | transitionToActive =>
    exact enforce_single_ok hk' ((hdirect (List.mem_cons_of_mem _
      List.mem_cons_self)).2.1 .namenode rfl).1
  | service s =>
    have hstart : h.startService s n ≠ none := by
      have hinst : n.installed s = true :=
        (hreq _ (requires_package (Hadoop.service_mem_members.mp hr))).1
      unfold Hadoop.startService
      split
      · exact Option.some_ne_none _
      · rw [if_pos]
        · exact Option.some_ne_none _
        · refine Bool.and_eq_true_iff.mpr ⟨hinst, ?_⟩
          by_cases hname : s = .namenode
          · subst hname
            have hformat : n.formats ≠ 0 :=
              (hdirect (d := .namenodeFormat) (List.mem_append_right _ (by simp))).1
            simpa using hformat
          · simp [hname]
    obtain ⟨-, -, heq⟩ | ⟨n', -, -, heq⟩ | ⟨-, hnone | hlt, -⟩ := enforce_service h s k n
    · exact fun hfail => Outcome.noConfusion ((congrArg Prod.fst heq).symm.trans hfail)
    · exact fun hfail => Outcome.noConfusion ((congrArg Prod.fst heq).symm.trans hfail)
    · exact absurd hnone hstart
    · omega
  | directory d =>
    -- the file system is served, and what the directory lies in is there
    obtain ⟨hup, hparent⟩ : n.up = true
        ∧ (d.place.tail = [] ∨ n.hdfs d.place.tail ≠ none) := by
      rw [Directory.tail_place]
      cases hd : d.parent with
      | none =>
        have hserved := hdirect (Hadoop.served_mem_requires hd)
        rw [Hadoop.served, if_neg (by simp [hha])] at hserved
        exact ⟨hs.up hha (hserved.2.1 .namenode rfl).1, Or.inl rfl⟩
      | some e =>
        have hdone := hdirect (Hadoop.parent_mem_requires hd)
        exact ⟨hdone.2.2 e rfl, Or.inr hdone.1⟩
    obtain ⟨-, heq⟩ | ⟨-, -, heq⟩ | ⟨-, hlt, -⟩ | ⟨htest, hcan, -⟩ :=
      enforce_directory h d k n
    · exact fun hfail => Outcome.noConfusion ((congrArg Prod.fst heq).symm.trans hfail)
    · exact fun hfail => Outcome.noConfusion ((congrArg Prod.fst heq).symm.trans hfail)
    · omega
    · refine absurd (Node.canMkdir_iff.mpr ⟨hup, ?_, hparent⟩) (by simp [hcan])
      simpa [Node.test, hup] using htest

/-- A directory stays on the way if no command fails. -/
theorem OnTheWay.enforce_directory {m : Node γ} {d : Directory} {k : ℕ}
    (hw : OnTheWay h n m) (hd : d ∈ h.directories) (hk : 3 ≤ k) :
    OnTheWay h n ((h.graph.resource (.directory d)).enforce k m).2 := by
  obtain ⟨-, heq⟩ | ⟨hcan, -, heq⟩ | ⟨-, hlt, -⟩ | ⟨-, -, heq⟩ :=
    Hdfs.enforce_directory h d k m
  · exact (congrArg Prod.snd heq).symm ▸ hw
  · exact (congrArg Prod.snd heq).symm ▸ hw.put hd (Node.canMkdir_iff.mp hcan).2.1
  · omega
  · exact (congrArg Prod.snd heq).symm ▸ hw

/-- **A clean run gets everything into place**, and everything else is left as
it was. -/
theorem StartRun.clean_apply (r : StartRun h) (hclean : r.Clean)
    (hha : h.haEnabled = false) (hs : Sane h n) (hroot : n.dataRoot = true) :
    Sane h (r.result n) ∧ OnTheWay h n (r.result n)
      ∧ ∀ x ∈ h.members, Done h x (r.result n) := by
  obtain ⟨hway, hok⟩ := (lawful h).apply_ok r.reply r.ordered hs
    (OnTheWay.refl h n) fun x hx m hm hreq hw => by
      have hmem := (r.mem_iff x).mp hx
      refine ⟨enforce_ok hha hm hmem (hclean x) hreq (hw.dataRoot.trans hroot), ?_⟩
      by_cases hdir : ∃ d, x = .directory d
      · obtain ⟨d, rfl⟩ := hdir
        exact hw.enforce_directory (Hadoop.directory_mem_members.mp hmem) (hclean _)
      · exact (enforce_of_change x _ hm hw fun _ _ hs hw hc =>
          hw.change hs hmem (fun d hd => hdir ⟨d, hd⟩) hc).2
  obtain ⟨hsane, hdone⟩ := (lawful h).apply r.reply r.ordered hs
  exact ⟨hsane, hway, fun x hx => hdone x (hok x ((r.mem_iff x).mpr hx))⟩

omit [DecidableEq γ] in
/-- What everything in place comes to. -/
theorem eq_completed {m : Node γ} (hm : Sane h m) (hw : OnTheWay h n m)
    (hdone : ∀ x ∈ h.members, Done h x m) : m = h.completed n := by
  have hbase : ∀ {x}, x ∈ Hadoop.hadoopClass ∨ x ∈ Hadoop.namenodeClass → Done h x m :=
    fun hx => hdone _ (Hadoop.mem_members hx)
  have hservice : ∀ s ∈ h.services, m.running s = true ∧ m.enabled s = true :=
    fun s hs => (hdone _ (Hadoop.service_mem_members.mpr hs)).2.1 s rfl
  have hup : m.up = true :=
    (hdone _ (Hadoop.directory_mem_members.mpr
      (List.mem_append_left _ List.mem_cons_self))).2.2 .tmp rfl
  -- what is a service of the catalog is there by now, and nothing else has changed
  have hflag : ∀ f g : Service → Bool, (∀ s ∈ h.services, f s = true) →
      (∀ s ∉ h.services, f s = g s) → f = fun s => g s || decide (s ∈ h.services) := by
    intro f g hin hout
    funext s
    by_cases hs : s ∈ h.services
    · simp [hin s hs, hs]
    · simp [hout s hs, hs]
  have hformats : m.formats = 1 := by
    have hne : m.formats ≠ 0 := (hbase (x := .namenodeFormat) (Or.inr (by
      simp [Hadoop.namenodeClass]))).1
    have hle := hm.once
    omega
  refine Node.ext ?_ ?_ ?_ ?_ hw.dataRoot ?_ hformats ?_ ?_ ?_ ?_
  · exact (hbase (x := .clientPackage) (Or.inl List.mem_cons_self)).1
  · funext f
    exact (hbase (Or.inl (Hadoop.configFile_mem_hadoopClass f))).1
  · exact hflag m.installed n.installed
      (fun s hs => (hdone _ (Hadoop.package_mem_members.mpr hs)).1) hw.installed
  · exact (hbase (x := .hostsExclude) (Or.inr (by simp [Hadoop.namenodeClass]))).1
  · exact (hbase (x := .nameDir) (Or.inr (by simp [Hadoop.namenodeClass]))).1
  · exact hflag m.running n.running (fun s hs => (hservice s hs).1) hw.running
  · exact hflag m.enabled n.enabled (fun s hs => (hservice s hs).2) hw.enabled
  · exact (Bool.and_eq_true_iff.mp hup).2
  · funext p
    show m.hdfs p = (n.hdfs p).or (h.declared p)
    obtain heq | ⟨hnone, heq⟩ := hw.hdfs p
    · rw [heq]
      cases hp : n.hdfs p with
      | some a => rfl
      | none =>
        cases hdecl : h.declared p with
        | none => rfl
        | some a =>
          obtain ⟨d, hd, rfl⟩ := Hadoop.exists_of_declared hdecl
          exact absurd (heq.trans hp)
            (hdone _ (Hadoop.directory_mem_members.mpr hd)).1
    · rw [heq, hnone]
      rfl

/-- Whether `init` has been run is not touched. -/
theorem dataRoot_after (dataRoot : Bool) (history : List (Event h)) :
    (after dataRoot history).dataRoot = dataRoot := by
  induction history using List.reverseRecOn with
  | nil => rfl
  | append_singleton history e ih =>
    rw [after_concat]
    cases e with
    | startHdfsMaster r =>
      refine (r.result_of_change (P := fun n => n.dataRoot = dataRoot)
        (sane_after dataRoot history) ih fun x m m' hs hm hc => ?_).2
      cases hc <;> exact hm
    | serviceEnds s => exact ih
    | serviceComesUp s | userMkdir p a | userRm p =>
      show (if _ then _ else _ : Node γ).dataRoot = dataRoot
      split <;> exact ih

/-- **A run in which nothing fails has one result.** Without a second NameNode,
over whatever has happened to a host that `init` has been run on, and in
whatever order, it leads to the host with everything in place and all else as
it was. Any further run, in any order and with any failures, changes nothing. -/
theorem result_eq_completed (hha : h.haEnabled = false) (history : List (Event h))
    (r r' : StartRun h) (hclean : r.Clean) :
    r.result (after true history) = h.completed (after true history)
      ∧ r'.result (h.completed (after true history))
        = h.completed (after true history) := by
  obtain ⟨hs, hw, hdone⟩ := r.clean_apply hclean hha (sane_after true history)
    (dataRoot_after true history)
  have heq := eq_completed hs hw hdone
  refine ⟨heq, ?_⟩
  rw [← heq]
  refine (apply_of_inSync r'.ordered fun x hx htrigger => ?_).1
  have hx := hdone x ((r'.mem_iff x).mp hx)
  cases x with
  | configFile f => exact decide_eq_true hx.1
  | namenodeFormat => exact bne_iff_ne.mpr hx.1
  | transitionToActive => exact absurd htrigger (by simp [Hadoop.graph])
  | service s => exact Bool.and_eq_true_iff.mpr (hx.2.1 s rfl)
  | directory d =>
    exact Bool.and_eq_true_iff.mpr ⟨hx.2.2 d rfl, Option.isSome_iff_ne_none.mpr hx.1⟩
  | _ => exact hx.1

/-- A first run that ends at the ResourceManager, and a second one. -/
theorem result_eq_completed_sampleHadoop :
    let broken := StartRun.written sampleHadoop
      fun x => if x = .package .resourcemanager then 0 else 3
    let n := after true [.startHdfsMaster broken, .serviceEnds .namenode]
    (StartRun.written sampleHadoop fun _ => 3).result n = sampleHadoop.completed n
      ∧ broken.result (sampleHadoop.completed n) = sampleHadoop.completed n :=
  result_eq_completed rfl _ _ _ fun _ => Nat.le_refl 3

/-! ## The services -/

/-- **The services of a host**, as the tasks see them. -/
def Node.host (n : Node γ) : Host := fun s =>
  if n.running s then .running else if n.installed s then .stopped else .absent

/-- **Stuck**: the file system has been formatted and is not served. -/
structure Stuck (n m : Node γ) : Prop where
  formatted : m.formats ≠ 0
  down : m.up = false
  hdfs : m.hdfs = n.hdfs
  installed : ∀ s, s ≠ .namenode → m.installed s = n.installed s
  enabled : ∀ s, s ≠ .namenode → m.enabled s = n.enabled s

omit [DecidableEq γ] in
/-- A NameNode that is one of two comes up without serving anything. -/
theorem Stuck.started {m : Node γ} (hstuck : Stuck n m) (hha : h.haEnabled = true)
    {s : Service} : Stuck n (h.started s m) := by
  refine ⟨hstuck.formatted, ?_, hstuck.hdfs, hstuck.installed, hstuck.enabled⟩
  by_cases hs : s = .namenode
  · refine Bool.and_eq_false_imp.mpr fun _ => ?_
    show (if s = .namenode then !h.haEnabled else m.active) = false
    rw [if_pos hs, hha]
    rfl
  · have hdown := Bool.and_eq_false_imp.mp hstuck.down
    refine Bool.and_eq_false_imp.mpr fun hrun => ?_
    show (if s = .namenode then !h.haEnabled else m.active) = false
    rw [if_neg hs]
    exact hdown ((Node.running_started_of_ne fun heq => hs heq.symm).symm.trans hrun)

/-- The packages and services of the jobs require a directory. -/
theorem exists_requires_directory {r : MasterResource} (hr : r ∈ h.members)
    (hbase : ¬ Foundation r) : ∃ d, h.graph.Requires r (.directory d) := by
  have hmem : ∀ {r d}, d ∈ h.requires r → h.graph.Requires r d :=
    fun hd => .single hd
  have hpackage : ∀ s ∈ h.services, s ≠ .namenode →
      ∃ d, h.graph.Requires (.package s) (.directory d) := by
    intro s hs hne
    cases s with
    | namenode => exact absurd rfl hne
    | resourcemanager | historyserver =>
      exact ⟨_, hmem (List.mem_append_right _ List.mem_cons_self)⟩
    | jobtracker =>
      exact ⟨.mapred, hmem (List.mem_append_right _ List.mem_cons_self)⟩
    | datanode | nodemanager | tasktracker =>
      unfold Hadoop.services at hs
      split at hs <;> simp at hs
  cases r with
  | package s => exact hpackage s (Hadoop.package_mem_members.mp hr) hbase
  | service s =>
    have hs := Hadoop.service_mem_members.mp hr
    obtain ⟨d, hd⟩ := hpackage s hs hbase
    exact ⟨d, (requires_package hs).trans hd⟩
  | _ => exact absurd trivial hbase

/-- **A run gets no further than the start of the NameNode.** -/
theorem Stuck.result {m : Node γ} (hstuck : Stuck n m) (hha : h.haEnabled = true)
    (hs : Sane h m) (r : StartRun h) : Stuck n (r.result m) := by
  have hformat : Done h .namenodeFormat m := ⟨hstuck.formatted, nofun, nofun⟩
  refine ((lawful h).induction r.reply r.ordered hs hstuck
    fun x hx m' hm' hreq htrigger hstuck' => ?_).2.1
  by_cases hbase : Foundation x
  · by_cases hdir : ∃ d, x = .directory d
    · obtain ⟨d, rfl⟩ := hdir
      obtain ⟨htest, -⟩ | ⟨hcan, -⟩ | ⟨hcan, -⟩ | ⟨-, -, heq⟩ :=
        enforce_directory h d (r.reply (.directory d)) m'
      · exact absurd (Bool.and_eq_true_iff.mp htest).1 (by simp [hstuck'.down])
      · exact absurd (Node.canMkdir_iff.mp hcan).1 (by simp [hstuck'.down])
      · exact absurd (Node.canMkdir_iff.mp hcan).1 (by simp [hstuck'.down])
      · exact (congrArg Prod.snd heq).symm ▸ hstuck'
    · refine (enforce_of_change x _ hm' hstuck' fun a b _ hab hc => ?_).2
      cases hc with
      | clientPackage | configFile | hostsExclude | nameDir =>
        exact ⟨hab.formatted, hab.down, hab.hdfs, hab.installed, hab.enabled⟩
      | package s =>
        obtain rfl : s = .namenode := hbase
        exact ⟨hab.formatted, hab.down, hab.hdfs,
          fun s hne => (Node.installed_install_of_ne hne).trans (hab.installed s hne),
          hab.enabled⟩
      | namenodeFormat hfirst => exact absurd hfirst hab.formatted
      | transitionToActive =>
        -- only a run that formats the NameNode makes it active
        exact absurd (htrigger .namenodeFormat rfl)
          ((lawful h).not_changed_of_done r.reply r.ordered hs hformat
            fun m hm => bne_iff_ne.mpr hm.1)
      | service s => exact hab.started hha
      | enable s =>
        obtain rfl : s = .namenode := hbase
        exact ⟨hab.formatted, hab.down, hab.hdfs, hab.installed,
          fun s hne => (Node.enabled_enable_of_ne hne).trans (hab.enabled s hne)⟩
      | directory d => exact absurd ⟨d, rfl⟩ hdir
  · -- the others are skipped, for want of a directory
    obtain ⟨d, hd⟩ := exists_requires_directory ((r.mem_iff x).mp hx) hbase
    exact absurd ((hreq _ hd).2.2 d rfl) (by simp [hstuck'.down])

/-- Nor does anything else that happens. -/
theorem Stuck.step {m : Node γ} (hstuck : Stuck n m) (hha : h.haEnabled = true)
    (hs : Sane h m) (e : Event h) : Stuck n (m.step e) := by
  cases e with
  | startHdfsMaster r => exact hstuck.result hha hs r
  | serviceEnds s =>
    refine ⟨hstuck.formatted, ?_, hstuck.hdfs, hstuck.installed, hstuck.enabled⟩
    exact Bool.and_eq_false_imp.mpr fun hrun =>
      Bool.and_eq_false_imp.mp hstuck.down (Node.running_serviceEnds hrun).2
  | serviceComesUp s =>
    show Stuck n (if _ then _ else _)
    split
    · exact hstuck.started hha
    · exact hstuck
  | userMkdir p a =>
    show Stuck n (if _ then _ else _)
    rw [if_neg (by simp [Node.canMkdir, hstuck.down])]
    exact hstuck
  | userRm p =>
    show Stuck n (if _ then _ else _)
    rw [if_neg (by simp [hstuck.down])]
    exact hstuck

/-- **Once it has been restarted, one of two NameNodes serves nothing.** It is
made active by the run that has formatted it, and by no other: whatever happens
after it has ended once – any number of runs, in any order and with any
failures, also if it comes up on its own – the file system is not served and
stays as it is, and no package is installed for the jobs, and none of their
services enabled. The second NameNode is not active either: the catalog makes
none, and nobody has made it active by hand. -/
theorem standby_of_restarted (hha : h.haEnabled = true) (dataRoot : Bool)
    (history history' : List (Event h))
    (hformat : (after dataRoot history).formats ≠ 0) :
    let n := after dataRoot history
    let m := after dataRoot (history ++ .serviceEnds .namenode :: history')
    m.up = false ∧ m.hdfs = n.hdfs
      ∧ ∀ s, s ≠ .namenode →
        m.installed s = n.installed s ∧ m.enabled s = n.enabled s := by
  intro n m
  have hstuck : Stuck n m := by
    unfold m
    induction history' using List.reverseRecOn with
    | nil =>
      rw [after_concat]
      refine ⟨hformat, Bool.and_eq_false_imp.mpr fun hrun => ?_, rfl,
        fun _ _ => rfl, fun _ _ => rfl⟩
      exact absurd rfl (Node.running_serviceEnds hrun).1
    | append_singleton history' e ih =>
      rw [← List.cons_append, ← List.append_assoc, after_concat]
      exact ih.step hha (sane_after dataRoot _) e
  exact ⟨hstuck.down, hstuck.hdfs,
    fun s hs => ⟨hstuck.installed s hs, hstuck.enabled s hs⟩⟩

/-- The catalog with two NameNodes. -/
def sampleHa : Hadoop ConfigFile := ⟨true, true, false, false, id⟩

/-- A NameNode that has been restarted, and another run. -/
theorem standby_of_restarted_sampleHa :
    let first := .startHdfsMaster (.written sampleHa fun _ => 3)
    (after true [first]).up = true
      ∧ (after true ([first] ++ [.serviceEnds .namenode, first])).up = false := by
  have hformat : (after true [.startHdfsMaster (.written sampleHa fun _ => 3)]).formats
      ≠ 0 := by decide +kernel
  exact ⟨by decide +kernel, (standby_of_restarted rfl true _ [_] hformat).1⟩

end Hdfs
