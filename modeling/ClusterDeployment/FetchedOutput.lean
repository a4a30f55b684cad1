import ClusterDeployment.JobRecord

/-!
# The fetched outputs

`getOutput` overwrites `stdout.txt` and `stderr.txt` with one command each,
and nothing ties the two together: the task is aborted at the first copy that
fails and leaves what it has copied by then. Each of the files is therefore a
cell of the directory of its own, written by the runs that get as far as its
copy (`stdoutTxt_run`, `stderrTxt_run`).

A file is always whole and always of one job. The pair of them is of one job
as long as the runs that get as far as the first copy get past the second one
too; a run that replaces `stdout.txt` and then loses its connection leaves
the `stderr.txt` of the job before beside it, until the next run that
succeeds (`stdoutTxt_ne_stderrTxt_interrupted`). What the task promises is
`fetchedOutput_run`.
-/

namespace Application

open Run

variable (config : Config)

/-- A run of `getOutput`: the arguments it is called with, what the record is
found to hold then, and what its commands get for an answer. -/
structure FetchRun where
  lastJobStarted : Pickle
  driverId : Option Text
  driverServer : Option Text
  env : Command → Reply

/-- The job a run fetches from. -/
def FetchRun.job (f : FetchRun) : Option Job :=
  getOutputJob f.lastJobStarted f.driverId f.driverServer

/-- The directory after a run. -/
def fetchStep (d : Dir) (f : FetchRun) : Dir :=
  ((getOutput config f.driverId f.driverServer).exec f.env
    { d with lastJobStarted := f.lastJobStarted }).snd.world

/-- The job whose first output a run has copied. -/
def copiedStdout (f : FetchRun) : Option Job :=
  f.job.filter fun job => (f.env (config.scp job .stdout)).ok

/-- The job both of whose outputs a run has copied. -/
def copiedStderr (f : FetchRun) : Option Job :=
  f.job.filter fun job =>
    (f.env (config.scp job .stdout)).ok && (f.env (config.scp job .stderr)).ok

/-- A run that copies the second output has copied the first one, of the same
job. -/
theorem copiedStdout_of_copiedStderr {f : FetchRun} {job : Job}
    (h : copiedStderr config f = some job) :
    copiedStdout config f = some job := by
  obtain ⟨hjob, hok⟩ := Option.filter_eq_some_iff.mp h
  exact Option.filter_eq_some_iff.mpr ⟨hjob, (Bool.and_eq_true_iff.mp hok).1⟩

/-- **One run of `getOutput`**: each of the files is of the job the run has
copied it from, or what it was. -/
theorem fetchStep_outputs (d : Dir) (f : FetchRun) :
    (fetchStep config d f).stdoutTxt
        = ((copiedStdout config f).map some).getD d.stdoutTxt
      ∧ (fetchStep config d f).stderrTxt
        = ((copiedStderr config f).map some).getD d.stderrTxt := by
  have h := getOutput_apply config f.env
    { d with lastJobStarted := f.lastJobStarted } f.driverId f.driverServer
  unfold fetchStep copiedStdout copiedStderr FetchRun.job
  cases hjob : getOutputJob f.lastJobStarted f.driverId f.driverServer with
  | none =>
    -- the task fails before its first copy
    rw [hjob] at h
    obtain ⟨e, printed, he⟩ := h
    rw [he]
    exact ⟨rfl, rfl⟩
  | some job =>
    rw [hjob] at h
    dsimp only at h
    rw [h, fetch_exec]
    simp only [Option.filter_some]
    cases (f.env (config.scp job .stdout)).ok with
    | false => exact ⟨rfl, rfl⟩
    | true =>
      cases (f.env (config.scp job .stderr)).ok with
      | false => exact ⟨rfl, rfl⟩
      | true => exact ⟨rfl, rfl⟩

/-- **Any run of fetches**: `stdout.txt` is of the job whose first output was
copied last. -/
theorem stdoutTxt_run (history : List FetchRun) :
    (run (fetchStep config) Dir.fresh history).stdoutTxt
      = lastWrite (copiedStdout config) history := by
  rw [run_cell Dir.stdoutTxt some fun d f => (fetchStep_outputs config d f).1]
  cases lastWrite (copiedStdout config) history <;> rfl

/-- **Any run of fetches**: `stderr.txt` is of the job both of whose outputs
were copied last. -/
theorem stderrTxt_run (history : List FetchRun) :
    (run (fetchStep config) Dir.fresh history).stderrTxt
      = lastWrite (copiedStderr config) history := by
  rw [run_cell Dir.stderrTxt some fun d f => (fetchStep_outputs config d f).2]
  cases lastWrite (copiedStderr config) history <;> rfl

/-- **The last fetch is complete**: the last run that has copied the first
output of its job has copied the second one. -/
def LastFetchComplete (history : List FetchRun) : Prop :=
  ∀ before f after, history = before ++ f :: after →
    (∀ g ∈ after, copiedStdout config g = none) →
    copiedStdout config f ≠ none → copiedStderr config f ≠ none

/-- Where no run fails between its copies the last fetch is complete. -/
theorem lastFetchComplete_of_forall {history : List FetchRun}
    (h : ∀ f ∈ history, copiedStdout config f ≠ none →
      copiedStderr config f ≠ none) :
    LastFetchComplete config history := by
  intro before f after hsplit _ hf
  refine h f ?_ hf
  rw [hsplit]
  exact List.mem_append_right before List.mem_cons_self

/-- If the last fetch is complete, then what was copied last is of one job. -/
theorem lastWrite_copied_eq {history : List FetchRun}
    (h : LastFetchComplete config history) :
    lastWrite (copiedStdout config) history
      = lastWrite (copiedStderr config) history := by
  induction history using List.reverseRecOn with
  | nil => rfl
  | append_singleton history f ih =>
    rw [lastWrite_concat, lastWrite_concat]
    cases hf : copiedStdout config f with
    | some job =>
      have hne := h history f [] rfl (fun g hg => absurd hg List.not_mem_nil)
        (by rw [hf]; exact Option.some_ne_none job)
      obtain ⟨job', hjob'⟩ := Option.ne_none_iff_exists'.mp hne
      have heq := copiedStdout_of_copiedStderr config hjob'
      rw [hf] at heq
      rw [hjob', heq, Option.some_or, Option.some_or]
    | none =>
      have hnone : copiedStderr config f = none := by
        by_contra hne
        obtain ⟨job, hjob⟩ := Option.ne_none_iff_exists'.mp hne
        rw [copiedStdout_of_copiedStderr config hjob] at hf
        exact absurd hf (Option.some_ne_none job)
      rw [hnone, Option.none_or, Option.none_or]
      refine ih fun before g after hsplit hafter => ?_
      refine h before g (after ++ [f]) (by rw [hsplit]; simp) fun g' hg' => ?_
      obtain hg' | hg' := List.mem_append.mp hg'
      · exact hafter g' hg'
      · rw [List.mem_singleton.mp hg', hf]

/-- **What the fetched outputs are**, after any run of `getOutput` with any
arguments, records and failures: each is of one job, the one it was copied
from last, and if the last fetch is complete both are of the same job. -/
theorem fetchedOutput_run (history : List FetchRun) :
    let d := run (fetchStep config) Dir.fresh history
    d.stdoutTxt = lastWrite (copiedStdout config) history
      ∧ d.stderrTxt = lastWrite (copiedStderr config) history
      ∧ (LastFetchComplete config history → d.stdoutTxt = d.stderrTxt) := by
  refine ⟨stdoutTxt_run config history, stderrTxt_run config history, fun h => ?_⟩
  rw [stdoutTxt_run, stderrTxt_run]
  exact lastWrite_copied_eq config h

/-- A job on the first worker. -/
def firstJob : Job := ⟨"driver-20140731140016-0000".toList, "node20".toList⟩

/-- A job on the second worker. -/
def secondJob : Job := ⟨"driver-20140731140242-0001".toList, "node21".toList⟩

/-- A fetch from a job that is named on the command line; `broken` are the
commands that fail. -/
def fetchFrom (job : Job) (broken : List Command) : FetchRun where
  lastJobStarted := .absent
  driverId := some job.driverId
  driverServer := some job.driverServer
  env := fun c => ⟨!broken.contains c, []⟩

/-- Two complete fetches leave the outputs of the second job. -/
theorem fetchedOutput_secondJob :
    (run (fetchStep sampleConfig) Dir.fresh
      [fetchFrom firstJob [], fetchFrom secondJob []]).stdoutTxt
      = (run (fetchStep sampleConfig) Dir.fresh
        [fetchFrom firstJob [], fetchFrom secondJob []]).stderrTxt := by
  refine (fetchedOutput_run sampleConfig _).2.2
    (lastFetchComplete_of_forall sampleConfig fun f hf _ => ?_)
  obtain rfl | hf := List.mem_cons.mp hf
  · exact Option.some_ne_none firstJob
  · rw [List.mem_singleton.mp hf]
    exact Option.some_ne_none secondJob

/-- The second fetch fails between its two copies. -/
def interruptedHistory : List FetchRun :=
  [fetchFrom firstJob [],
    fetchFrom secondJob [sampleConfig.scp secondJob .stderr]]

/-- **The two outputs can be of different jobs**, after a fetch that failed
between its copies. -/
theorem stdoutTxt_ne_stderrTxt_interrupted :
    ∃ job₁ job₂,
      (run (fetchStep sampleConfig) Dir.fresh interruptedHistory).stdoutTxt
          = some job₁
        ∧ (run (fetchStep sampleConfig) Dir.fresh interruptedHistory).stderrTxt
          = some job₂
        ∧ job₁ ≠ job₂ :=
  ⟨secondJob, firstJob, by rfl, by rfl, by decide⟩

end Application
