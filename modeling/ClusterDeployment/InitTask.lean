import ClusterDeployment.Deployment
import ClusterDeployment.Run
import ClusterDeployment.SshConfig

/-!
# The task `init`

`init` bootstraps a host: it installs packages, fetches a repository of
dotfiles and then goes over the servers of `config.yaml`, appending to
`.ssh/config` a stanza for each that it does not find there. Only the loop
touches the file (`init_content`), so after any number of runs, with any lists
of servers, the file is what `Ensure` makes of all their servers in order.

The loop is append-only and can be run again (`sshConfigLoop_idempotent`).
It does not do what it is for: what is found is not what is resolved, and so
every server is resolved after every run exactly for the lists in which no
name comes up inside what was written before it (`resolved_iff`).
-/

namespace Bootstrap

open Deployment Ensure Fab Run SshConfig

/-- What the task finds and changes on a host. -/
structure Host where
  dotfiles : Bool
  sshConfig : Option Text
  deriving DecidableEq

/-- What is in `.ssh/config`. -/
def Host.content (host : Host) : Text := host.sshConfig.getD []

/-- The host once the file is there. -/
def Host.touched (host : Host) : Host :=
  { host with sshConfig := some host.content }

/-- The host with a text and a line end at the end of the file. -/
def Host.appended (t : Text) (host : Host) : Host :=
  { host with sshConfig := some (host.content ++ t ++ "\n".toList) }

@[simp] theorem Host.content_touched (host : Host) :
    host.touched.content = host.content := rfl

@[simp] theorem Host.content_appended (t : Text) (host : Host) :
    (host.appended t).content = host.content ++ t ++ "\n".toList := rfl

/-- `append('.ssh/config', t)` -/
def appendSshConfig (t : Text) : Fab Command Host Unit := do
  let host ← getWorld
  if t <:+: host.content then
    pure ()
  else
    issue (.run ("echo '".toList ++ t ++ "' >> .ssh/config".toList))
      (fun host => some (host.appended t))

/-- The body of the loop. The two questions are commands as well, but are taken
to be answered; and a command that fails has added nothing to the file. -/
def addServer (server : HostName) : Fab Command Host Unit := do
  let host ← getWorld
  (if host.sshConfig.isNone then
      issue (.run "touch .ssh/config; chmod 600 .ssh/config".toList)
        (fun host => some host.touched)
    else pure ())
  let host ← getWorld
  (if !contains host.content server.name then
      appendSshConfig server.stanza
    else pure ())

/-- The loop over `env.roledefs['all']`. -/
def sshConfigLoop : List HostName → Fab Command Host Unit
  | [] => pure ()
  | server :: servers => do
    addServer server
    sshConfigLoop servers

/-- Fetching the repository of dotfiles, which has no part in `.ssh/config`, nor
has its script. -/
def cloneDotfiles : Fab Command Host Unit := do
  warnOnly (.run
    "git clone --recursive http://github.com/bamos/dotfiles.git .dotfiles".toList)
    (fun host => some { host with dotfiles := true })
  warnOnly (.run "./.dotfiles/bootstrap.sh -n".toList)
    (fun host => if host.dotfiles then some host else none)

/-- The task `init`. -/
def init (all : List HostName) : Fab Command Host Unit := do
  issue (.sudo
    "yum install java-1.7.0-openjdk-devel make puppet zsh -y".toList) some
  issue (.sudo "chsh -s /bin/zsh amos".toList) some
  let host ← getWorld
  (if !host.dotfiles then cloneDotfiles else pure ())
  issue (.run "cd .dotfiles && git pull".toList)
    (fun host => if host.dotfiles then some host else none)
  sshConfigLoop all
  issue (.sudo "mkdir -p /raid/hadoop".toList) some

/-! ## The loop adds what it does not find -/

variable {env env' : Command → Reply} {s s' : Session Command Host}

/-- The look-up of the loop. -/
abbrev Found (file : Text) (server : HostName) : Prop := server.name <:+: file

/-- A name whose stanza is there is found. -/
theorem infix_stanza (server : HostName) : server.name <:+: server.stanza :=
  ⟨"Host ".toList ++ server.name ++ "\n  HostName ".toList, ".or1".toList, rfl⟩

/-- **One server**: if the body gets through, the file is there and has the
stanza, unless the name has been found. -/
theorem addServer_content {server : HostName}
    (h : addServer server env s = (.ok (), s')) :
    s'.world.sshConfig ≠ none
      ∧ s'.world.content = ensure Found addStanza s.world.content server := by
  unfold addServer at h
  rw [getWorld_bind] at h
  obtain ⟨_, s₁, h₁, h⟩ := exists_of_bind_ok h
  have htouched : s₁.world.sshConfig ≠ none
      ∧ s₁.world.content = s.world.content := by
    split at h₁
    · have hw := world_of_issue_ok h₁
      rw [← Option.some.inj hw]
      exact ⟨Option.some_ne_none _, rfl⟩
    · next hsome =>
      rw [← (Prod.mk.inj h₁).2]
      exact ⟨fun hnone => hsome (by rw [hnone]; rfl), rfl⟩
  rw [getWorld_bind] at h
  rw [← htouched.2]
  by_cases hfound : Found s₁.world.content server
  · rw [contains_iff.mpr hfound] at h
    rw [ensure_of_found hfound, ← (Prod.mk.inj h).2]
    exact ⟨htouched.1, rfl⟩
  · have hstanza : ¬ server.stanza <:+: s₁.world.content :=
      fun hs => hfound ((infix_stanza server).trans hs)
    rw [if_pos (by simpa using fun hc => hfound (contains_iff.mp hc))] at h
    unfold appendSshConfig at h
    rw [getWorld_bind, if_neg hstanza] at h
    have hw := world_of_issue_ok h
    rw [ensure_of_not_found hfound, ← Option.some.inj hw]
    exact ⟨Option.some_ne_none _, rfl⟩

/-- **The whole loop**, if it gets through. -/
theorem sshConfigLoop_content {servers : List HostName}
    (h : sshConfigLoop servers env s = (.ok (), s')) :
    (servers ≠ [] → s'.world.sshConfig ≠ none)
      ∧ s'.world.content = ensureAll Found addStanza s.world.content servers := by
  induction servers generalizing s with
  | nil =>
    rw [← (Prod.mk.inj h).2]
    exact ⟨fun hne => absurd rfl hne, rfl⟩
  | cons server servers ih =>
    obtain ⟨_, s₁, h₁, h⟩ := exists_of_bind_ok h
    obtain ⟨hsome, hcontent⟩ := addServer_content h₁
    obtain ⟨hsome', hcontent'⟩ := ih h
    refine ⟨fun _ => ?_, ?_⟩
    · cases servers with
      | nil =>
        rw [← (Prod.mk.inj h).2]
        exact hsome
      | cons server' servers => exact hsome' (List.cons_ne_nil _ _)
    · rw [hcontent', hcontent, ensureAll_cons]

/-- **A loop that finds every name does nothing**: it changes nothing, and it
cannot fail. -/
theorem sshConfigLoop_of_found {servers : List HostName}
    (hsome : s.world.sshConfig ≠ none)
    (hfound : ∀ server ∈ servers, Found s.world.content server) :
    sshConfigLoop servers env s = (.ok (), s) := by
  induction servers with
  | nil => rfl
  | cons server servers ih =>
    have hbody : addServer server env s = (.ok (), s) := by
      unfold addServer
      rw [getWorld_bind, if_neg (by simpa using hsome),
        bind_of_ok (pure_apply () env s), getWorld_bind,
        contains_iff.mpr (hfound server List.mem_cons_self)]
      rfl
    unfold sshConfigLoop
    rw [bind_of_ok hbody]
    exact ih fun server' hs' => hfound server' (List.mem_cons_of_mem server hs')

/-- **The loop is append-only and idempotent.** Over any file, and with any
list of servers, what it adds are stanzas, at most one for each of them; and
over any of these servers, in any order and any number of times, it then
changes nothing. -/
theorem sshConfigLoop_idempotent (env env' : Command → Reply) (host : Host)
    {servers servers' : List HostName}
    (hsub : ∀ server ∈ servers', server ∈ servers)
    (hok : ((sshConfigLoop servers).exec env host).fst = .ok ()) :
    let host' := ((sshConfigLoop servers).exec env host).snd.world
    (∃ new : List HostName, new.Sublist servers ∧ new.Nodup
        ∧ host'.content = host.content ++ stanzas new)
      ∧ (sshConfigLoop servers').exec env' host' = (.ok (), ⟨host', [], []⟩) := by
  have hrun : sshConfigLoop servers env ⟨host, [], []⟩
      = (.ok (), ((sshConfigLoop servers).exec env host).snd) :=
    Prod.ext hok rfl
  obtain ⟨hsome, hcontent⟩ := sshConfigLoop_content hrun
  refine ⟨⟨added Found addStanza host.content servers,
    added_sublist _ _, lawful.nodup_added _ _, ?_⟩, ?_⟩
  · rw [hcontent, ensureAll_eq_foldl, foldl_addStanza]
  · cases servers with
    | nil =>
      rw [List.eq_nil_iff_forall_not_mem.mpr fun s hs => List.not_mem_nil (hsub s hs)]
      rfl
    | cons server servers =>
      refine sshConfigLoop_of_found (hsome (List.cons_ne_nil _ _)) fun s hs => ?_
      show Found ((sshConfigLoop (server :: servers)).exec env host).snd.world.content s
      rw [hcontent]
      exact lawful.found_of_mem _ (hsub s hs)

/-- Where no command fails the loop gets through. -/
theorem sshConfigLoop_ok (henv : ∀ c, (env c).ok = true)
    (servers : List HostName) (s : Session Command Host) :
    ∃ s', sshConfigLoop servers env s = (.ok (), s') := by
  have hissue : ∀ (c : Command) (f : Host → Host) (s : Session Command Host),
      ∃ s', issue c (fun host => some (f host)) env s = (.ok (), s') :=
    fun c f s => ⟨_, by rw [issue_apply, if_pos (henv c)]⟩
  have happend : ∀ (t : Text) (s : Session Command Host),
      ∃ s', appendSshConfig t env s = (.ok (), s') := by
    intro t s
    unfold appendSshConfig
    rw [getWorld_bind]
    split
    · exact ⟨s, rfl⟩
    · exact hissue _ _ s
  have hbody : ∀ (server : HostName) (s : Session Command Host),
      ∃ s', addServer server env s = (.ok (), s') := by
    intro server s
    unfold addServer
    rw [getWorld_bind]
    obtain ⟨s₁, h₁⟩ : ∃ s₁, (if s.world.sshConfig.isNone then
        issue (.run "touch .ssh/config; chmod 600 .ssh/config".toList)
          (fun host => some host.touched)
      else pure () : Fab Command Host Unit) env s = (.ok (), s₁) := by
      split
      · exact hissue _ _ s
      · exact ⟨s, rfl⟩
    rw [bind_of_ok h₁, getWorld_bind]
    split
    · exact happend _ s₁
    · exact ⟨s₁, rfl⟩
  induction servers generalizing s with
  | nil => exact ⟨s, rfl⟩
  | cons server servers ih =>
    obtain ⟨s₁, h₁⟩ := hbody server s
    unfold sshConfigLoop
    rw [bind_of_ok h₁]
    exact ih s₁

/-- A server of a numbered cluster. -/
def server0 : HostName :=
  ⟨"server0".toList, by decide, List.all_eq_true.mp (by decide)⟩

@[inherit_doc server0]
def server1 : HostName :=
  ⟨"server1".toList, by decide, List.all_eq_true.mp (by decide)⟩

@[inherit_doc server0]
def server10 : HostName :=
  ⟨"server10".toList, by decide, List.all_eq_true.mp (by decide)⟩

/-- A host with a file that ends within a line. -/
def handWritten : Host := ⟨true, some "Host github.com\n  User git".toList⟩

/-- The first stanza is glued to that line; its server is found all the
same. -/
theorem sshConfigLoop_handWritten :
    ((sshConfigLoop [server0, server0]).exec succeeding
        ((sshConfigLoop [server1, server0]).exec succeeding handWritten).snd.world).snd.commands
      = [] := by
  have henv : ∀ c, (succeeding c).ok = true := fun _ => rfl
  obtain ⟨s', hs'⟩ := sshConfigLoop_ok henv [server1, server0]
    ⟨handWritten, [], []⟩
  have h := sshConfigLoop_idempotent succeeding succeeding handWritten
    (show ∀ server ∈ [server0, server0], server ∈ [server1, server0] by simp)
    (congrArg Prod.fst hs')
  rw [h.2]

/-! ## Runs of the task -/

/-- A command that does nothing to the host leaves the file as it is. -/
theorem content_of_some {w w' : Host} (h : some w = some w') :
    w'.content = w.content := by rw [Option.some.inj h]

@[inherit_doc content_of_some]
theorem content_of_dotfiles {w w' : Host}
    (h : (if w.dotfiles then some w else none) = some w') :
    w'.content = w.content := by
  split at h
  · exact content_of_some h
  · exact absurd h (by simp)

/-- Fetching the dotfiles leaves the file as it is. -/
theorem keeps_cloneDotfiles : Keeps Host.content cloneDotfiles := by
  refine keeps_bind (keeps_warnOnly fun w w' hw => ?_)
    fun _ => keeps_warnOnly fun w w' hw => content_of_dotfiles hw
  exact (congrArg Host.content (Option.some.inj hw)).symm

/-- **Only the loop touches the file.** -/
theorem init_content {all : List HostName}
    (h : init all env s = (.ok (), s')) :
    s'.world.content = ensureAll Found addStanza s.world.content all := by
  unfold init at h
  obtain ⟨_, s₁, h₁, h⟩ := exists_of_bind_ok h
  obtain ⟨_, s₂, h₂, h⟩ := exists_of_bind_ok h
  rw [getWorld_bind] at h
  obtain ⟨_, s₃, h₃, h⟩ := exists_of_bind_ok h
  obtain ⟨_, s₄, h₄, h⟩ := exists_of_bind_ok h
  obtain ⟨_, s₅, h₅, h⟩ := exists_of_bind_ok h
  have hclone : s₃.world.content = s₂.world.content := by
    split at h₃
    · have hk := keeps_cloneDotfiles env s₂
      rw [h₃] at hk
      exact hk
    · rw [(Prod.mk.inj h₃).2]
  rw [content_of_some (world_of_issue_ok h), (sshConfigLoop_content h₅).2,
    content_of_dotfiles (world_of_issue_ok h₄), hclone,
    content_of_some (world_of_issue_ok h₂), content_of_some (world_of_issue_ok h₁)]

/-- A run of the task on a host: the servers that `config.yaml` lists then,
and what the commands get for an answer. -/
structure InitRun where
  all : List HostName
  env : Command → Reply

/-- The host after a run. -/
def initStep (host : Host) (r : InitRun) : Host :=
  ((init r.all).exec r.env host).snd.world

/-- All runs get through. -/
def Completed (host : Host) (runs : List InitRun) : Prop :=
  ∀ before r after, runs = before ++ r :: after →
    ((init r.all).exec r.env (run initStep host before)).fst = .ok ()

/-- The first runs of completed ones. -/
theorem Completed.of_append {host : Host} {runs runs' : List InitRun}
    (h : Completed host (runs ++ runs')) : Completed host runs := by
  intro before r after hsplit
  refine h before r (after ++ runs') ?_
  rw [hsplit, List.append_assoc]
  rfl

/-- **After any completed runs** from a host without the file, it is what one
loop over the servers of all of them leaves. -/
theorem run_content {host : Host} (hnone : host.sshConfig = none)
    {runs : List InitRun} (h : Completed host runs) :
    (run initStep host runs).content
      = stanzas (stanzasAdded (runs.flatMap InitRun.all)) := by
  rw [← ensureAll_nil_eq]
  induction runs using List.reverseRecOn with
  | nil =>
    show host.sshConfig.getD [] = []
    rw [hnone]
    rfl
  | append_singleton runs r ih =>
    have hlast := h runs r [] rfl
    have hbefore := h.of_append
    rw [run_concat, List.flatMap_append, ensureAll_append,
      ← ih hbefore]
    refine (init_content (s := ⟨run initStep host runs, [], []⟩)
      (Prod.ext hlast rfl)).trans ?_
    rw [List.flatMap_singleton]

/-- **Every server is resolved after every run** – to its own address, among
completed runs from a host without the file – exactly if every name can be
told from what is written before it. -/
theorem resolved_iff {host : Host} (hnone : host.sshConfig = none)
    {runs : List InitRun} (h : Completed host runs) :
    (∀ before r after, runs = before ++ r :: after → ∀ server ∈ r.all,
        resolve (run initStep host (before ++ [r])).content server.name
          = some server.address)
      ↔ Distinguishable (runs.flatMap InitRun.all) := by
  -- after a run, to be resolved is to have been added by then
  have hresolve : ∀ before r after server, runs = before ++ r :: after →
      (resolve (run initStep host (before ++ [r])).content server.name
          = some server.address
        ↔ server ∈ stanzasAdded ((before ++ [r]).flatMap InitRun.all)) := by
    intro before r after server hsplit
    rw [hsplit, List.append_cons] at h
    rw [run_content hnone h.of_append, resolve_eq_address_iff]
  have hparts : ∀ before r after, runs = before ++ r :: after →
      runs.flatMap InitRun.all
        = (before ++ [r]).flatMap InitRun.all ++ after.flatMap InitRun.all := by
    intro before r after hsplit
    rw [hsplit, ← List.flatMap_append, List.append_assoc]
    rfl
  rw [← forall_mem_stanzasAdded_iff]
  constructor
  · intro hall server hs
    obtain ⟨r, hr, hserver⟩ := List.mem_flatMap.mp hs
    obtain ⟨before, after, hsplit⟩ := List.append_of_mem hr
    have hmem := (hresolve before r after server hsplit).mp
      (hall before r after hsplit server hserver)
    rw [hparts before r after hsplit]
    show server ∈ added Found addStanza [] (_ ++ _)
    rw [added_append]
    exact List.mem_append_left _ hmem
  · intro hall before r after hsplit server hs
    rw [hresolve before r after server hsplit]
    have hmem : server ∈ (before ++ [r]).flatMap InitRun.all :=
      List.mem_flatMap.mpr
        ⟨r, List.mem_append_right before List.mem_cons_self, hs⟩
    rw [hparts before r after hsplit] at hall
    exact lawful.mem_added_of_append hmem
      (hall server (List.mem_append_left _ hmem))

/-- Where no command fails the dotfiles are there afterwards. -/
theorem cloneDotfiles_ok (henv : ∀ c, (env c).ok = true)
    (s : Session Command Host) :
    ∃ s', cloneDotfiles env s = (.ok (), s') ∧ s'.world.dotfiles = true := by
  have hclone : ∀ c : Command, warnOnly c
      (fun host : Host => some { host with dotfiles := true }) env s
        = (.ok (), ⟨{ s.world with dotfiles := true }, s.commands ++ [c],
          s.printed⟩) := fun c => warnOnly_of_ok (henv c) rfl
  unfold cloneDotfiles
  rw [bind_of_ok (hclone _)]
  exact ⟨_, warnOnly_of_ok (henv _) rfl, rfl⟩

/-- **Where no command fails the task gets through.** -/
theorem init_ok (henv : ∀ c, (env c).ok = true) (all : List HostName)
    (s : Session Command Host) :
    ∃ s', init all env s = (.ok (), s') := by
  have hsudo : ∀ (c : Command) (s : Session Command Host),
      issue c some env s = (.ok (), ⟨s.world, s.commands ++ [c], s.printed⟩) :=
    fun c s => issue_of_ok (henv c) rfl
  unfold init
  rw [bind_of_ok (hsudo _ s), bind_of_ok (hsudo _ _), getWorld_bind]
  obtain ⟨s₃, h₃, hdotfiles⟩ : ∃ s₃, (if !s.world.dotfiles then cloneDotfiles
      else pure ()) env ⟨s.world, s.commands
        ++ [.sudo "yum install java-1.7.0-openjdk-devel make puppet zsh -y".toList]
        ++ [.sudo "chsh -s /bin/zsh amos".toList], s.printed⟩ = (.ok (), s₃)
      ∧ s₃.world.dotfiles = true := by
    cases hd : s.world.dotfiles with
    | false => exact cloneDotfiles_ok henv _
    | true => exact ⟨_, rfl, hd⟩
  rw [bind_of_ok h₃]
  have hpull : ∀ c : Command, issue c
      (fun host : Host => if host.dotfiles then some host else none) env s₃
        = (.ok (), ⟨s₃.world, s₃.commands ++ [c], s₃.printed⟩) :=
    fun c => issue_of_ok (henv c) (if_pos hdotfiles)
  rw [bind_of_ok (hpull _)]
  obtain ⟨s₅, h₅⟩ := sshConfigLoop_ok henv all ⟨s₃.world, s₃.commands
    ++ [.run "cd .dotfiles && git pull".toList], s₃.printed⟩
  rw [bind_of_ok h₅]
  exact ⟨_, hsudo _ s₅⟩

/-- Runs in which no command fails are completed. -/
theorem completed_of_ok {host : Host} {runs : List InitRun}
    (h : ∀ r ∈ runs, ∀ c, (r.env c).ok = true) : Completed host runs := by
  intro before r after hsplit
  have hr : r ∈ runs := hsplit ▸ List.mem_append_right before List.mem_cons_self
  obtain ⟨s', hs'⟩ := init_ok (h r hr) r.all ⟨run initStep host before, [], []⟩
  exact congrArg Prod.fst hs'

/-- A run in which no command fails. -/
def succeedingRun (all : List HostName) : InitRun := ⟨all, succeeding⟩

/-- A host as it is before the first run. -/
def freshHost : Host := ⟨false, none⟩

/-- In this order both names are resolved. -/
theorem resolved_ascending :
    resolve (run initStep freshHost [succeedingRun [server1, server10]]).content
        server1.name = some server1.address
      ∧ resolve (run initStep freshHost [succeedingRun [server1, server10]]).content
        server10.name = some server10.address := by
  have hdone : Completed freshHost [succeedingRun [server1, server10]] :=
    completed_of_ok fun r hr c => by rw [List.mem_singleton.mp hr]; rfl
  have hnames : Distinguishable [server1, server10] :=
    (forall_mem_stanzasAdded_iff _).mp (by decide)
  have h := (resolved_iff rfl hdone).mpr hnames [] _ [] rfl
  exact ⟨h server1 List.mem_cons_self,
    h server10 (List.mem_cons_of_mem server1 List.mem_cons_self)⟩

/-- **In the other order one of them is not**: it is found in the stanza of
the first. -/
theorem not_resolved_descending :
    Completed freshHost [succeedingRun [server10, server1]]
      ∧ resolve (run initStep freshHost
          [succeedingRun [server10, server1]]).content server1.name = none := by
  have hdone : Completed freshHost [succeedingRun [server10, server1]] :=
    completed_of_ok fun r hr c => by rw [List.mem_singleton.mp hr]; rfl
  have hadded : stanzasAdded [server10, server1] = [server10] := by decide
  refine ⟨hdone, ?_⟩
  rw [run_content rfl hdone]
  show resolve (stanzas (stanzasAdded [server10, server1])) server1.name = none
  rw [hadded, resolve_stanzas, if_neg (by decide)]

end Bootstrap
