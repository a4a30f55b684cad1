import ClusterDeployment.InitTask

/-!
# Runs of `init` that do not get through

`init` installs packages from the network before it comes to `.ssh/config`, and
it then issues a command for every server. Any of these can fail, and the task
ends there. The operator calls it again.

Whatever has failed, the file has been extended by the stanzas of the servers
up to some point (`appends_init`), so that it always consists of whole stanzas,
one for each server at most (`run_stanzas`). And a run that gets through makes
good what the ones before it have left undone: the file is then the same as if
there had been no other (`init_resumes`).
-/

namespace Bootstrap

open Deployment Ensure Fab Run SshConfig

variable {env : Command → Reply} {s s' : Session Command Host}

/-- A body of the loop that has failed has added nothing. -/
theorem addServer_of_error {server : HostName} {e : Failure}
    (h : addServer server env s = (.error e, s')) :
    s'.world.content = s.world.content := by
  have htouch : Keeps Host.content (if s.world.sshConfig.isNone then
      issue (.run "touch .ssh/config; chmod 600 .ssh/config".toList)
        (fun host => some host.touched)
    else pure () : Fab Command Host Unit) := by
    split
    · refine keeps_issue fun w w' hw => ?_
      rw [← Option.some.inj hw, Host.content_touched]
    · exact fun _ _ => rfl
  unfold addServer at h
  rw [getWorld_bind] at h
  have hkeep := htouch env s
  cases h₁ : (if s.world.sshConfig.isNone then
      issue (.run "touch .ssh/config; chmod 600 .ssh/config".toList)
        (fun host => some host.touched)
    else pure () : Fab Command Host Unit) env s with
  | mk x s₁ =>
    rw [h₁] at hkeep
    cases x with
    | error e' =>
      rw [bind_of_error h₁] at h
      rw [← (Prod.mk.inj h).2]
      exact hkeep
    | ok u =>
      rw [bind_of_ok h₁, getWorld_bind] at h
      split at h
      · unfold appendSshConfig at h
        rw [getWorld_bind] at h
        split at h
        · exact absurd (Prod.mk.inj h).1 (by simp)
        · rw [world_of_issue_error h]
          exact hkeep
      · exact absurd (Prod.mk.inj h).1 (by simp)

/-- **A task that adds the servers up to some point**, and nothing else. -/
def Appends {α : Type} (all : List HostName) (m : Fab Command Host α) : Prop :=
  ∀ env s, ∃ before, before <+: all
    ∧ (m env s).2.world.content = ensureAll Found addStanza s.world.content before

variable {α β : Type} {all : List HostName}

/-- After what does not touch the file. -/
theorem Appends.bind_left {m : Fab Command Host α} {f : α → Fab Command Host β}
    (hm : Keeps Host.content m) (hf : ∀ a, Appends all (f a)) :
    Appends all (m >>= f) := by
  intro env s
  have hkeep := hm env s
  cases h : m env s with
  | mk x s₁ =>
    rw [h] at hkeep
    cases x with
    | error e =>
      rw [bind_of_error h]
      exact ⟨[], List.nil_prefix, hkeep⟩
    | ok a =>
      obtain ⟨before, hbefore, hcontent⟩ := hf a env s₁
      rw [bind_of_ok h]
      refine ⟨before, hbefore, hcontent.trans ?_⟩
      rw [show s₁.world.content = s.world.content from hkeep]

/-- Before what does not touch the file. -/
theorem Appends.bind_right {m : Fab Command Host α} {f : α → Fab Command Host β}
    (hm : Appends all m) (hf : ∀ a, Keeps Host.content (f a)) :
    Appends all (m >>= f) := by
  intro env s
  obtain ⟨before, hbefore, hcontent⟩ := hm env s
  refine ⟨before, hbefore, ?_⟩
  cases h : m env s with
  | mk x s₁ =>
    rw [h] at hcontent
    cases x with
    | error e =>
      rw [bind_of_error h]
      exact hcontent
    | ok a =>
      rw [bind_of_ok h]
      exact (hf a env s₁).trans hcontent

/-- **The loop**, whether it gets through or not. -/
theorem appends_sshConfigLoop (servers : List HostName) :
    Appends servers (sshConfigLoop servers) := by
  induction servers with
  | nil => exact fun env s => ⟨[], List.nil_prefix, rfl⟩
  | cons server servers ih =>
    intro env s
    unfold sshConfigLoop
    cases h : addServer server env s with
    | mk x s₁ =>
      cases x with
      | error e =>
        rw [bind_of_error h]
        exact ⟨[], List.nil_prefix, addServer_of_error h⟩
      | ok u =>
        rw [bind_of_ok h]
        obtain ⟨before, hbefore, hcontent⟩ := ih env s₁
        refine ⟨server :: before, List.cons_prefix_cons.mpr ⟨rfl, hbefore⟩, ?_⟩
        rw [hcontent, (addServer_content h).2, ensureAll_cons]

/-- **The task**, wherever it ends. -/
theorem appends_init (all : List HostName) : Appends all (init all) := by
  have hsome : ∀ c, Keeps Host.content (issue c some : Fab Command Host Unit) :=
    fun c => keeps_issue fun _ _ hw => content_of_some hw
  refine .bind_left (hsome _) fun _ => .bind_left (hsome _) fun _ =>
    .bind_left (fun _ _ => rfl) fun host => .bind_left ?_ fun _ => ?_
  · split
    · exact keeps_cloneDotfiles
    · exact fun _ _ => rfl
  · refine .bind_left (keeps_issue fun _ _ hw => content_of_dotfiles hw) fun _ => ?_
    exact (appends_sshConfigLoop all).bind_right fun _ => hsome _

/-- **The file is whole at all times.** From a host without the file, after any
runs with whatever failures, it consists of the stanzas of some of the servers
that have been listed, none of them twice. -/
theorem run_stanzas {host : Host} (hnone : host.sshConfig = none)
    (runs : List InitRun) :
    ∃ new : List HostName, new.Nodup
      ∧ (∀ server ∈ new, server ∈ runs.flatMap InitRun.all)
      ∧ (run initStep host runs).content = stanzas new := by
  obtain ⟨servers, hmem, hcontent⟩ : ∃ servers : List HostName,
      (∀ server ∈ servers, server ∈ runs.flatMap InitRun.all)
        ∧ (run initStep host runs).content = ensureAll Found addStanza [] servers := by
    induction runs using List.reverseRecOn with
    | nil =>
      refine ⟨[], fun _ h => h, ?_⟩
      show host.sshConfig.getD [] = []
      rw [hnone]
      rfl
    | append_singleton runs r ih =>
      obtain ⟨servers, hmem, hcontent⟩ := ih
      obtain ⟨before, hbefore, hlast⟩ := appends_init r.all r.env
        ⟨run initStep host runs, [], []⟩
      refine ⟨servers ++ before, fun server hs => ?_, ?_⟩
      · rw [List.flatMap_append, List.flatMap_singleton]
        obtain hs | hs := List.mem_append.mp hs
        · exact List.mem_append_left _ (hmem server hs)
        · exact List.mem_append_right _ (hbefore.mem hs)
      · rw [run_concat, ensureAll_append, ← hcontent]
        exact hlast
  rw [ensureAll_nil_eq] at hcontent
  exact ⟨stanzasAdded servers, lawful.nodup_added _ _,
    fun server hs => hmem server ((added_sublist _ _).subset hs), hcontent⟩

/-- An environment in which the stanza of a server cannot be written. -/
def failingAt (server : HostName) : Command → Reply := fun c =>
  ⟨c ≠ .run ("echo '".toList ++ server.stanza ++ "' >> .ssh/config".toList), []⟩

/-- The run ends at the second server, and what is there is a stanza. -/
theorem run_stanzas_failingAt :
    ∃ new : List HostName, new.Nodup
      ∧ (∀ server ∈ new, server ∈ [server1, server10])
      ∧ (run initStep freshHost [⟨[server1, server10], failingAt server10⟩]).content
        = stanzas new :=
  run_stanzas (show freshHost.sshConfig = none from rfl)
    [⟨[server1, server10], failingAt server10⟩]

example : (run initStep freshHost
    [⟨[server1, server10], failingAt server10⟩]).content = stanzas [server1] := by
  decide +kernel

/-- What has been added up to some point is not added again. -/
theorem ensureAll_again {file : Text} {before : List HostName}
    (h : before <+: all) :
    ensureAll Found addStanza (ensureAll Found addStanza file before) all
      = ensureAll Found addStanza file all := by
  obtain ⟨after, rfl⟩ := h
  have hbefore : ensureAll Found addStanza (ensureAll Found addStanza file before) before
      = ensureAll Found addStanza file before :=
    ensureAll_of_forall_found fun server hs => lawful.found_of_mem file hs
  rw [ensureAll_append, hbefore, ensureAll_append]

/-- What runs of any kind leave, the servers of `all` are added to as if there
had been no runs. -/
theorem ensureAll_run (host : Host) (all : List HostName)
    (attempts : List (Command → Reply)) :
    ensureAll Found addStanza
        (run initStep host (attempts.map (InitRun.mk all))).content all
      = ensureAll Found addStanza host.content all := by
  induction attempts using List.reverseRecOn with
  | nil => rfl
  | append_singleton attempts env₁ ih =>
    obtain ⟨before, hbefore, hlast⟩ := appends_init all env₁
      ⟨run initStep host (attempts.map (InitRun.mk all)), [], []⟩
    rw [List.map_append, List.map_singleton, run_concat]
    refine Eq.trans ?_ ((ensureAll_again hbefore).trans ih)
    exact congrArg (ensureAll Found addStanza · all) hlast

/-- **A run that gets through makes good what others have left undone**: after
any number of runs for the same servers, with whatever failures, the file is
what a single run leaves that gets through. -/
theorem init_resumes (host : Host) (all : List HostName)
    (attempts : List (Command → Reply)) {env env' : Command → Reply}
    (hok : ((init all).exec env
      (run initStep host (attempts.map (InitRun.mk all)))).fst = .ok ())
    (hok' : ((init all).exec env' host).fst = .ok ()) :
    (run initStep host (attempts.map (InitRun.mk all) ++ [⟨all, env⟩])).content
      = ((init all).exec env' host).snd.world.content := by
  have hlast := init_content (s := ⟨_, [], []⟩) (Prod.ext hok rfl)
  have hsingle := init_content (s := ⟨host, [], []⟩) (Prod.ext hok' rfl)
  rw [run_concat]
  refine Eq.trans hlast (Eq.trans ?_ hsingle.symm)
  exact ensureAll_run host all attempts

/-- The first run ends at the second server, and the next one completes what it
has begun. -/
theorem init_resumes_failingAt :
    (run initStep freshHost
        [⟨[server1, server10], failingAt server10⟩, succeedingRun [server1, server10]]).content
      = ((init [server1, server10]).exec succeeding freshHost).snd.world.content := by
  have hok : ∀ s : Session Command Host,
      (init [server1, server10] succeeding s).fst = .ok () := by
    intro s
    obtain ⟨s', hs'⟩ := init_ok (show ∀ c, (succeeding c).ok = true from fun _ => rfl)
      [server1, server10] s
    rw [hs']
  exact init_resumes freshHost [server1, server10] [failingAt server10] (hok _) (hok _)

end Bootstrap
