import Mathlib.Data.List.TakeWhile
import ClusterDeployment.JobRecord

/-!
# What start reads, of any output

The two searches of `start` undo the printing of a report. But the output of
`spark-submit` is what the client, the shell and the master make of it, and may
be any text: cut off in the middle of a line, with lines of several drivers in
it, or with something that merely looks like a report. What is read then can be
told from the text alone. It is the leftmost place at which `State of `, a
driver, ` is ` and a status stand, which ends at a blank or with the output, and
the leftmost place at which `Driver running on `, a host, a colon, digits and a
blank stand – anywhere in the output, before or after the other
(`driverRe_eq_some_iff`, `driverServerRe_eq_some_iff`).

So it is known of every output whether `start` ends without an exception
(`start_ok_iff`), and of every run of tasks which job its record is of
(`lastJobStarted_iff`).
-/

open Regex

/-! ## Words and runs -/

/-- A word, a group of two runs with a word before each, and a word. -/
theorem exists_of_matches_runs {w₁ w₂ w₃ w₄ t s : Text} {g g' : Groups Char} {n : ℕ}
    {p : Char → Bool}
    (h : Matches (lit w₁ ++ group n (lit w₂ ++ star p ++ lit w₃ ++ star p) ++ lit w₄)
      t g s g') :
    ∃ v v', (∀ c ∈ v, p c = true) ∧ (∀ c ∈ v', p c = true)
      ∧ t = w₁ ++ (w₂ ++ v ++ w₃ ++ v') ++ w₄ ++ s
      ∧ g' = Function.update g n (some (w₂ ++ v ++ w₃ ++ v')) := by
  simp only [matches_append_iff, matches_lit_iff, matches_group_iff, matches_star_iff] at h
  obtain ⟨_, _, ⟨_, _, ⟨rfl, rfl⟩, _, ⟨_, _, ⟨_, _, ⟨_, _, ⟨rfl, rfl⟩, v, hv, rfl, rfl⟩,
    rfl, rfl⟩, v', hv', rfl, rfl⟩, rfl⟩, rfl, rfl⟩ := h
  refine ⟨v, v', hv, hv', ?_, ?_⟩
  · simp only [List.append_assoc]
  · rw [consumed_of_eq]
    simp only [List.append_assoc]

/-- The words and runs of the pattern for the driver, where they stand. -/
theorem exists_matches_runs {w₁ w₂ w₃ w₄ v v' u : Text} {p q : Char → Bool} {n n' : ℕ}
    (hv : ∀ c ∈ v, p c = true) (hv' : ∀ c ∈ v', p c = true) (hu : ∀ c ∈ u, q c = true)
    (post : Text) (g : Groups Char) :
    ∃ g', Matches (lit w₁ ++ group n (lit w₂ ++ star p ++ lit w₃ ++ star p) ++ lit w₄
        ++ group n' (star q))
      (w₁ ++ (w₂ ++ v ++ w₃ ++ v') ++ w₄ ++ u ++ post) g post g' := by
  simp only [List.append_assoc]
  exact ⟨_, .seq (.seq (.seq (.lit _ _ _) (.group n (.seq (.seq (.seq (.lit _ _ _)
    (.star _ _ hv)) (.lit _ _ _)) (.star _ _ hv')))) (.lit _ _ _)) (.group n' (.star _ _ hu))⟩

/-- Two runs with words before and behind them are a matter of the text. -/
theorem eq_of_runs {w₁ w₂ w₃ w₄ v v' s u u' s' : Text} {p : Char → Bool}
    (hv : ∀ c ∈ v, p c = true) (hv' : ∀ c ∈ v', p c = true)
    (hu : ∀ c ∈ u, p c = true) (hu' : ∀ c ∈ u', p c = true)
    (h₃ : ∀ s, ∀ c ∈ (w₃ ++ s).head?, p c = false)
    (h₄ : ∀ s, ∀ c ∈ (w₄ ++ s).head?, p c = false)
    (h : w₁ ++ (w₂ ++ v ++ w₃ ++ v') ++ w₄ ++ s = w₁ ++ (w₂ ++ u ++ w₃ ++ u') ++ w₄ ++ s') :
    v = u ∧ v' = u' ∧ s = s' := by
  simp only [List.append_assoc, List.append_cancel_left_eq] at h
  obtain ⟨hfst, h⟩ := append_inj_of_class hv hu (h₃ _) (h₃ _) h
  obtain ⟨hsnd, h⟩ := append_inj_of_class hv' hu' (h₄ _) (h₄ _) (List.append_cancel_left h)
  exact ⟨hfst, hsnd, List.append_cancel_left h⟩

/-- A word, a group of one run, a word, a run and a word. -/
theorem exists_of_matches_run {w₁ w₂ w₃ t s : Text} {g g' : Groups Char} {n : ℕ}
    {p q : Char → Bool}
    (h : Matches (lit w₁ ++ group n (star p) ++ lit w₂ ++ star q ++ lit w₃) t g s g') :
    ∃ v v', (∀ c ∈ v, p c = true) ∧ (∀ c ∈ v', q c = true)
      ∧ t = w₁ ++ (v ++ w₂ ++ v') ++ (w₃ ++ s) ∧ g' = Function.update g n (some v) := by
  simp only [matches_append_iff, matches_lit_iff, matches_group_iff, matches_star_iff] at h
  obtain ⟨_, _, ⟨_, _, ⟨_, _, ⟨_, _, ⟨rfl, rfl⟩, _, ⟨v, hv, rfl, rfl⟩, rfl⟩, rfl, rfl⟩,
    v', hv', rfl, rfl⟩, rfl, rfl⟩ := h
  refine ⟨v, v', hv, hv', ?_, ?_⟩
  · simp only [List.append_assoc]
  · rw [consumed_of_eq rfl]

/-- The words and runs of the pattern for the worker, where they stand. -/
theorem exists_matches_run {w₁ w₂ w₃ v v' : Text} {p q : Char → Bool} {n : ℕ}
    (hv : ∀ c ∈ v, p c = true) (hv' : ∀ c ∈ v', q c = true) (post : Text)
    (g : Groups Char) :
    ∃ g', Matches (lit w₁ ++ group n (star p) ++ lit w₂ ++ star q ++ lit w₃)
      (w₁ ++ (v ++ w₂ ++ v') ++ (w₃ ++ post)) g post g' := by
  simp only [List.append_assoc]
  exact ⟨_, .seq (.seq (.seq (.seq (.lit _ _ _) (.group n (.star _ _ hv))) (.lit _ _ _))
    (.star _ _ hv')) (.lit _ _ _)⟩

/-- A run, a symbol and a run of other symbols, taken together. -/
theorem eq_of_last {v v' u u' : Text} {c : Char} {q : Char → Bool} (hc : q c = false)
    (hv' : ∀ d ∈ v', q d = true) (hu' : ∀ d ∈ u', q d = true)
    (h : v ++ [c] ++ v' = u ++ [c] ++ u') : v = u := by
  have hreverse := congrArg List.reverse h
  simp only [List.reverse_append, List.reverse_cons, List.reverse_nil, List.nil_append]
    at hreverse
  have hhead : ∀ w : Text, ∀ d ∈ ([c] ++ w).head?, q d = false := by
    simp [hc]
  obtain ⟨-, hrest⟩ := append_inj_of_class (fun d hd => hv' d (List.mem_reverse.mp hd))
    (fun d hd => hu' d (List.mem_reverse.mp hd)) (hhead _) (hhead _) hreverse
  exact List.reverse_injective (List.append_cancel_left hrest)

/-- There is no blank in the address of a worker. -/
theorem not_blank_of_address {host port : Text} (hhost : ∀ c ∈ host, isNotSpace c = true)
    (hport : ∀ c ∈ port, isDigit c = true) :
    ∀ c ∈ host ++ [':'] ++ port, isNotSpace c = true := by
  intro c hc
  obtain hc | hc := List.mem_append.mp hc
  · obtain hc | hc := List.mem_append.mp hc
    · exact hhost c hc
    · rw [List.mem_singleton.mp hc]
      rfl
  · exact (not_blank_of_isDigit (hport c hc)).1

/-! ## A report in front of a text -/

/-- A driver and its status are reported in front of a text: the status goes as far
as the next blank. -/
def StateReported (x : Text × Text) (t : Text) : Prop :=
  ∃ D₁ D₂ post, (∀ c ∈ D₁, isDigit c = true) ∧ (∀ c ∈ D₂, isDigit c = true)
    ∧ (∀ c ∈ x.2, isNotSpace c = true) ∧ (∀ c ∈ post.head?, isNotSpace c = false)
    ∧ x.1 = driverName D₁ D₂ ∧ t = stateLine x.1 x.2 ++ post

/-- The host of a worker is reported in front of a text. -/
def ServerReported (host t : Text) : Prop :=
  ∃ port post, (∀ c ∈ host, isNotSpace c = true) ∧ (∀ c ∈ port, isDigit c = true)
    ∧ t = "Driver running on ".toList ++ (host ++ ":".toList ++ port)
      ++ (" ".toList ++ post)

/-- What the groups hold then. -/
def stateGroups (x : Text × Text) : Groups Char :=
  Function.update (Function.update (fun _ => none) 1 (some x.1)) 2 (some x.2)

@[inherit_doc stateGroups]
def serverGroups (host : Text) : Groups Char :=
  Function.update (fun _ => none) 1 (some host)

variable {t : Text} {g : Groups Char}

/-- **What is read in front of a text is reported there**, -/
theorem stateReported_of_matchAt (h : driverPattern.matchAt t = some g) :
    ∃ x, StateReported x t ∧ g = stateGroups x := by
  unfold driverPattern matchAt at h
  rw [run_append] at h
  obtain ⟨s, g', hm, hk⟩ := matches_of_run h
  obtain ⟨D₁, D₂, hD₁, hD₂, rfl, rfl⟩ := exists_of_matches_runs hm
  rw [run_group, run_star, starRun_some] at hk
  refine ⟨(driverName D₁ D₂, s.takeWhile isNotSpace), ⟨D₁, D₂, s.dropWhile isNotSpace,
    hD₁, hD₂, fun c hc => List.mem_takeWhile_imp hc, fun c hc => ?_, rfl, ?_⟩, ?_⟩
  · have hhead := List.head?_dropWhile_not isNotSpace s
    rw [Option.mem_def.mp hc] at hhead
    exact hhead
  · show _ = stateLine (driverName D₁ D₂) (s.takeWhile isNotSpace) ++ _
    unfold stateLine
    rw [List.append_assoc _ (s.takeWhile isNotSpace), List.takeWhile_append_dropWhile]
    rfl
  · rw [consumed_of_eq List.takeWhile_append_dropWhile.symm] at hk
    exact (Option.some.inj hk).symm

/-- and only one driver and one status are. -/
theorem StateReported.unique {x x' : Text × Text} (h : StateReported x t)
    (h' : StateReported x' t) : x = x' := by
  obtain ⟨D₁, D₂, post, hD₁, hD₂, hs, hpost, hd, ht⟩ := h
  obtain ⟨D₁', D₂', post', hD₁', hD₂', hs', hpost', hd', ht'⟩ := h'
  have hdash : ∀ s : Text, ∀ c ∈ ("-".toList ++ s).head?, isDigit c = false := by
    simp [isDigit]
  have his : ∀ s : Text, ∀ c ∈ (" is ".toList ++ s).head?, isDigit c = false := by
    simp [isDigit]
  have heq := ht.symm.trans ht'
  rw [hd, hd'] at heq
  unfold stateLine at heq
  rw [List.append_assoc _ x.2, List.append_assoc _ x'.2] at heq
  obtain ⟨h₁, h₂, heq⟩ := eq_of_runs hD₁ hD₂ hD₁' hD₂' hdash his heq
  refine Prod.ext ?_ (append_inj_of_class hs hs' hpost hpost' heq).1
  rw [hd, hd', h₁, h₂]

/-- **The search for the driver in front of a text.** -/
theorem driverPattern_matchAt_iff (t : Text) (g : Groups Char) :
    driverPattern.matchAt t = some g ↔ ∃ x, StateReported x t ∧ g = stateGroups x := by
  refine matchAt_eq_some_iff (fun _ _ => stateReported_of_matchAt)
    (fun _ _ _ => StateReported.unique) (fun t x hx => ?_) t g
  obtain ⟨D₁, D₂, post, hD₁, hD₂, hs, -, hd, ht⟩ := hx
  obtain ⟨g', hm⟩ := exists_matches_runs hD₁ hD₂ hs post fun _ => none
  rw [ht, hd]
  exact matchAt_ne_none hm

/-- What is read of the worker is reported in front of the text, -/
theorem serverReported_of_matchAt (h : driverServerPattern.matchAt t = some g) :
    ∃ host, ServerReported host t ∧ g = serverGroups host := by
  obtain ⟨s, g', hm, hk⟩ := matches_of_run h
  obtain ⟨host, port, hhost, hport, ht, hg⟩ := exists_of_matches_run hm
  exact ⟨host, ⟨port, s, hhost, hport, ht⟩, (Option.some.inj hk).symm.trans hg⟩

/-- and only one host is. -/
theorem ServerReported.unique {host host' : Text} (h : ServerReported host t)
    (h' : ServerReported host' t) : host = host' := by
  obtain ⟨port, post, hhost, hport, ht⟩ := h
  obtain ⟨port', post', hhost', hport', ht'⟩ := h'
  have hblank : ∀ s : Text, ∀ c ∈ (" ".toList ++ s).head?, isNotSpace c = false := by
    simp [isNotSpace, isSpace]
  have heq := ht.symm.trans ht'
  rw [List.append_assoc, List.append_assoc "Driver running on ".toList] at heq
  obtain ⟨haddress, -⟩ := append_inj_of_class (not_blank_of_address hhost hport)
    (not_blank_of_address hhost' hport') (hblank post) (hblank post')
    (List.append_cancel_left heq)
  exact eq_of_last (by decide) hport hport' haddress

/-- **The search for the worker in front of a text.** -/
theorem driverServerPattern_matchAt_iff (t : Text) (g : Groups Char) :
    driverServerPattern.matchAt t = some g
      ↔ ∃ host, ServerReported host t ∧ g = serverGroups host := by
  refine matchAt_eq_some_iff (fun _ _ => serverReported_of_matchAt)
    (fun _ _ _ => ServerReported.unique) (fun t host hx => ?_) t g
  obtain ⟨port, post, hhost, hport, ht⟩ := hx
  obtain ⟨g', hm⟩ := exists_matches_run hhost hport post fun _ => none
  rw [ht]
  exact matchAt_ne_none hm

/-! ## A report anywhere in the output -/

/-- **What `start` takes for its driver and the status** is the leftmost report of a
state. -/
theorem driverRe_eq_some_iff {outStr : Text} {x : Text × Text} :
    driverRe outStr = some x ↔ Leftmost StateReported x outStr :=
  search_map_eq_some_iff driverPattern_matchAt_iff (fun _ => rfl) outStr

-- an output that is cut off behind the driver reports an empty status
example : driverRe "State of driver-1-2 is ".toList = some ("driver-1-2".toList, []) := by
  rfl

/-- **What it takes for the server** is the leftmost report of a worker. -/
theorem driverServerRe_eq_some_iff {outStr host : Text} :
    driverServerRe outStr = some host ↔ Leftmost ServerReported host outStr :=
  search_map_eq_some_iff driverServerPattern_matchAt_iff (fun _ => rfl) outStr

/-- It takes one wherever a worker is reported. -/
theorem driverServerRe_ne_none_iff {outStr : Text} :
    driverServerRe outStr ≠ none ↔ ∃ host t, t <:+ outStr ∧ ServerReported host t := by
  rw [Option.ne_none_iff_exists']
  constructor
  · rintro ⟨host, hhost⟩
    obtain ⟨pre, t, rfl, ht, -⟩ := driverServerRe_eq_some_iff.mp hhost
    exact ⟨host, t, List.suffix_append pre t, ht⟩
  · rintro ⟨host, t, hsuffix, ht⟩
    obtain ⟨host', hhost'⟩ := exists_leftmost hsuffix ht
    exact ⟨host', driverServerRe_eq_some_iff.mpr hhost'⟩

namespace Application

open Fab Run

variable (config : Config)

/-! ## What start makes of it -/

/-- **When `start` ends without an exception**: the submission has succeeded, a
state is reported somewhere in its output, and if the leftmost one is `RUNNING`,
then a worker is reported somewhere, too. -/
theorem start_ok_iff (env : Command → Reply) (d : Dir) :
    ((start config).exec env d).fst = .ok ()
      ↔ (env config.submit).ok = true
        ∧ ∃ x, Leftmost StateReported x (env config.submit).out
          ∧ (x.2 = "RUNNING".toList →
            ∃ host t, t <:+ (env config.submit).out ∧ ServerReported host t) := by
  simp only [← driverRe_eq_some_iff, ← driverServerRe_ne_none_iff]
  rw [start_exec]
  cases (env config.submit).ok with
  | false => exact iff_of_false (by simp) fun h => Bool.false_ne_true h.1
  | true =>
    rw [if_pos rfl]
    cases driverRe (env config.submit).out with
    | none =>
      refine iff_of_false (by simp) ?_
      rintro ⟨-, x, hx, -⟩
      exact Option.some_ne_none x hx.symm
    | some x =>
      obtain ⟨driverId, status⟩ := x
      -- only a driver that runs has to have its worker reported
      have hexits : (true = true ∧ ∃ x, some (driverId, status) = some x
            ∧ (x.2 = "RUNNING".toList → driverServerRe (env config.submit).out ≠ none))
          ↔ (status = "RUNNING".toList →
            driverServerRe (env config.submit).out ≠ none) := by
        constructor
        · rintro ⟨-, x, hx, hworker⟩
          rwa [← Option.some.inj hx] at hworker
        · exact fun hworker => ⟨rfl, _, rfl, hworker⟩
      rw [hexits]
      dsimp only
      by_cases herror : status = "ERROR".toList
      · rw [if_pos herror]
        refine iff_of_true rfl fun hrunning => ?_
        exact absurd (herror.symm.trans hrunning) (by decide)
      · rw [if_neg herror]
        by_cases hrunning : status = "RUNNING".toList
        · rw [if_pos hrunning]
          cases driverServerRe (env config.submit).out with
          | none => exact iff_of_false (by simp) fun hworker => hworker hrunning rfl
          | some host => exact iff_of_true rfl fun _ => Option.some_ne_none host
        · rw [if_neg hrunning]
          exact iff_of_true rfl fun h => absurd h hrunning

/-- **The job that a submission reports as running.** -/
def ReportsRunning (reply : Reply) (job : Job) : Prop :=
  reply.ok = true ∧ Leftmost StateReported (job.driverId, "RUNNING".toList) reply.out
    ∧ Leftmost ServerReported job.driverServer reply.out

/-- It is the one that is written down. -/
theorem recorded_eq_some_iff {t : TaskRun} {job : Job} :
    recorded config t = some job
      ↔ ∃ env, t = (.start, env) ∧ ReportsRunning (env config.submit) job := by
  have hreports : ∀ reply, submitted reply = some job ↔ ReportsRunning reply job := by
    intro reply
    rw [submitted_eq_some_iff, driverRe_eq_some_iff, driverServerRe_eq_some_iff]
    rfl
  obtain ⟨task, env⟩ := t
  cases task with
  | start =>
    show submitted (env config.submit) = some job ↔ _
    rw [hreports]
    constructor
    · exact fun h => ⟨env, rfl, h⟩
    · rintro ⟨env', heq, h⟩
      rwa [(Prod.mk.inj heq).2]
  | kill driverId =>
    constructor
    · exact fun h => absurd h.symm (Option.some_ne_none job)
    · rintro ⟨env', heq, -⟩
      exact absurd (Prod.mk.inj heq).1 Task.noConfusion
  | getOutput driverId driverServer =>
    constructor
    · exact fun h => absurd h.symm (Option.some_ne_none job)
    · rintro ⟨env', heq, -⟩
      exact absurd (Prod.mk.inj heq).1 Task.noConfusion

/-- **Which job the record is of**, after any run of tasks with any output: the one
that the latest start reports as running, of all that report one. -/
theorem lastJobStarted_iff (history : List TaskRun) (job : Job) :
    (run (step config) Dir.fresh history).lastJobStarted = job.pickle
      ↔ ∃ before env after, history = before ++ (.start, env) :: after
        ∧ ReportsRunning (env config.submit) job
        ∧ ∀ env', (.start, env') ∈ after →
          ∀ job', ¬ ReportsRunning (env' config.submit) job' := by
  have hlast : (run (step config) Dir.fresh history).lastJobStarted = job.pickle
      ↔ lastWrite (recorded config) history = some job := by
    rw [lastJobStarted_run]
    cases lastWrite (recorded config) history with
    | none => exact iff_of_false (by simp [Job.pickle]) (Option.some_ne_none job).symm
    | some job' =>
      obtain ⟨driverId, driverServer⟩ := job
      obtain ⟨driverId', driverServer'⟩ := job'
      simp [Job.pickle]
  rw [hlast, lastWrite_eq_some_iff]
  constructor
  · rintro ⟨before, t, after, rfl, ht, hafter⟩
    obtain ⟨env, rfl, hreports⟩ := (recorded_eq_some_iff config).mp ht
    refine ⟨before, env, after, rfl, hreports, fun env' hmem job' h' => ?_⟩
    have hnone := hafter _ hmem
    rw [(recorded_eq_some_iff config).mpr ⟨env', rfl, h'⟩] at hnone
    exact Option.some_ne_none job' hnone
  · rintro ⟨before, env, after, rfl, hreports, hafter⟩
    refine ⟨before, _, after, rfl, (recorded_eq_some_iff config).mpr ⟨env, rfl, hreports⟩,
      fun t ht => Option.eq_none_iff_forall_ne_some.mpr fun job' h' => ?_⟩
    obtain ⟨env', rfl, hreports'⟩ := (recorded_eq_some_iff config).mp h'
    exact hafter env' ht job' hreports'

/-! ## What kill and getOutput hand on -/

/-- A job that is reported has a driver of digits and a host without blanks. -/
theorem ReportsRunning.names {reply : Reply} {job : Job} (h : ReportsRunning reply job) :
    (∃ D₁ D₂, (∀ c ∈ D₁, isDigit c = true) ∧ (∀ c ∈ D₂, isDigit c = true)
        ∧ job.driverId = driverName D₁ D₂)
      ∧ ∀ c ∈ job.driverServer, isNotSpace c = true := by
  obtain ⟨-, ⟨_, _, -, ⟨D₁, D₂, _, hD₁, hD₂, -, -, hd, -⟩, -⟩,
    ⟨_, _, -, ⟨_, _, hhost, -, -⟩, -⟩⟩ := h
  exact ⟨⟨D₁, D₂, hD₁, hD₂, hd⟩, hhost⟩

/-- **Whatever has been printed**, `kill` and `getOutput` without a driver hand
nothing on but a driver that consists of digits and a host without blanks. -/
theorem commands_run (history : List TaskRun) (env : Command → Reply) {task : Task}
    (htask : task = .kill none ∨ ∃ driverServer, task = .getOutput none driverServer)
    {c : Command}
    (hc : c ∈ (TaskRun.exec config (task, env)
      (run (step config) Dir.fresh history)).snd.commands) :
    ∃ D₁ D₂ host, (∀ c ∈ D₁, isDigit c = true) ∧ (∀ c ∈ D₂, isDigit c = true)
      ∧ (∀ c ∈ host, isNotSpace c = true)
      ∧ c ∈ [.sparkKill config.remoteSparkDir config.sparkMaster (driverName D₁ D₂),
        .scp host config.sparkWork (driverName D₁ D₂) .stdout,
        .scp host config.sparkWork (driverName D₁ D₂) .stderr] := by
  obtain ⟨-, hkill, hfetch⟩ := holdsJob_run config history env
  -- whichever of the two it is, its commands are for the job written down last
  have hjob : ∃ job, lastWrite (recorded config) history = some job
      ∧ (c = .sparkKill config.remoteSparkDir config.sparkMaster job.driverId
        ∨ c ∈ config.copies env job) := by
    obtain rfl | ⟨driverServer, rfl⟩ := htask
    · replace hc : c ∈ ((kill config none).exec env _).snd.commands := hc
      rw [hkill] at hc
      cases hlast : lastWrite (recorded config) history with
      | none =>
        rw [hlast] at hc
        exact absurd hc List.not_mem_nil
      | some job =>
        rw [hlast] at hc
        exact ⟨job, rfl, .inl (List.mem_singleton.mp hc)⟩
    · replace hc : c ∈ ((getOutput config none driverServer).exec env _).snd.commands := hc
      rw [hfetch] at hc
      cases hlast : lastWrite (recorded config) history with
      | none =>
        rw [hlast] at hc
        exact absurd hc List.not_mem_nil
      | some job =>
        rw [hlast] at hc
        exact ⟨job, rfl, .inr hc⟩
  obtain ⟨job, hlast, hc⟩ := hjob
  obtain ⟨before, t, after, -, ht, -⟩ := lastWrite_eq_some_iff.mp hlast
  obtain ⟨env', -, hreports⟩ := (recorded_eq_some_iff config).mp ht
  obtain ⟨⟨D₁, D₂, hD₁, hD₂, hd⟩, hhost⟩ := hreports.names
  refine ⟨D₁, D₂, job.driverServer, hD₁, hD₂, hhost, ?_⟩
  rw [← hd]
  obtain rfl | hc := hc
  · exact List.mem_cons_self
  · refine List.mem_cons_of_mem _ ?_
    unfold Config.copies at hc
    split at hc
    · exact hc
    · rw [List.mem_singleton.mp hc]
      exact List.mem_cons_self

/-- A job that runs, and is killed. -/
theorem commands_run_sampleConfig :
    ∃ D₁ D₂ host, (∀ c ∈ D₁, isDigit c = true) ∧ (∀ c ∈ D₂, isDigit c = true)
      ∧ (∀ c ∈ host, isNotSpace c = true)
      ∧ Command.sparkKill "/usr/lib/spark".toList "spark://server_hostname:7077".toList
          "driver-20140731140016-0000".toList
        ∈ [.sparkKill sampleConfig.remoteSparkDir sampleConfig.sparkMaster
            (driverName D₁ D₂),
          .scp host sampleConfig.sparkWork (driverName D₁ D₂) .stdout,
          .scp host sampleConfig.sparkWork (driverName D₁ D₂) .stderr] :=
  commands_run sampleConfig waitingHistory (printing "") (.inl rfl) (by
    have hcommands : (TaskRun.exec sampleConfig (.kill none, printing "")
        (run (step sampleConfig) Dir.fresh waitingHistory)).snd.commands
          = [.sparkKill "/usr/lib/spark".toList "spark://server_hostname:7077".toList
            "driver-20140731140016-0000".toList] := by rfl
    rw [hcommands]
    exact List.mem_cons_self)

end Application
