import ClusterDeployment.Slots
import ClusterDeployment.Text

/-!
# The log rotation of the runner scripts

The runner script of a Spark daemon renames the logs of its earlier launches
before it launches the daemon, which then appends to the log. The renaming is
a loop from the oldest name down to `log.1`, so that each file moves to a name
that has just been vacated; in the other direction the first file would be
carried to the last name over everything else.

The log and its numbered copies are the slots of `Slots`, in their order, and
a rotation of the script is the rotation of the slots (`slots_sparkRotateLog`).
What holds of slots holds of the files: a rotation loses at most what was in
the file with the last number, and after any number of launches the files hold
the outputs of the latest ones.
-/

namespace Spark

open Run Slots

/-- The files of the log directory, by their paths. -/
abbrev Files : Type := Text → Option Text

/-- `mv` of a file that exists. -/
def Files.mv (a b : Text) (files : Files) : Files :=
  Function.update (Function.update files b (files a)) a none

/-- `>> f`: the file is created if there is none. -/
def Files.append (f output : Text) (files : Files) : Files :=
  Function.update files f (some ((files f).getD [] ++ output))

/-- `$log.$k` -/
def numbered (log : Text) (k : ℕ) : Text := log ++ ".".toList ++ k.repr.toList

/-- The loop of `spark_rotate_log`, with what it leaves in `num`. -/
def rotateLoop (log : Text) : ℕ → Files → ℕ × Files
  | num + 2, files =>
    let prev := num + 1
    rotateLoop log prev
      (if (files (numbered log prev)).isSome then
        files.mv (numbered log prev) (numbered log (num + 2))
      else files)
  | num, files => (num, files)

/-- The function `spark_rotate_log`, with its second argument. -/
def sparkRotateLog (log : Text) (arg2 : Option ℕ) (files : Files) : Files :=
  let num := arg2.getD 5
  if (files log).isSome then
    let (num, files) := rotateLoop log num files
    files.mv log (numbered log num)
  else files

/-- The daemons of a Spark cluster. -/
inductive Daemon where
  | master
  | worker
  deriving DecidableEq

/-- The log of a daemon. -/
def Daemon.log : Daemon → Text
  | master => "/var/log/spark/master.log".toList
  | worker => "/var/log/spark/worker.log".toList

/-- A launch by the runner script: `spark_rotate_log`, and then the daemon,
which appends its output to the log. -/
def launch (daemon : Daemon) (files : Files) (output : Text) : Files :=
  (sparkRotateLog daemon.log none files).append daemon.log output

/-! ## The names are different -/

variable {log : Text}

/-- The log and its numbered copies, as slots. -/
def slot (log : Text) : ℕ → Text
  | 0 => log
  | k + 1 => numbered log (k + 1)

@[simp] theorem slot_zero (log : Text) : slot log 0 = log := rfl

@[simp] theorem slot_succ (log : Text) (k : ℕ) :
    slot log (k + 1) = numbered log (k + 1) := rfl

/-- A number has one decimal. -/
theorem numbered_injective (log : Text) : Function.Injective (numbered log) := by
  intro k k' h
  have hdigits := List.append_cancel_left h
  rw [Nat.toList_repr, Nat.toList_repr] at hdigits
  have hvalue := congrArg (fun ds => Nat.ofDigitChars 10 ds 0) hdigits
  simpa using hvalue

/-- No name is that of two slots. -/
theorem slot_injective (log : Text) : Function.Injective (slot log) := by
  have hlog : ∀ k, log ≠ numbered log k := by
    intro k h
    have hlen := congrArg List.length h
    simp [numbered] at hlen
  intro k k' h
  match k, k' with
  | 0, 0 => rfl
  | 0, k' + 1 => exact absurd h (hlog (k' + 1))
  | k + 1, 0 => exact absurd h.symm (hlog (k + 1))
  | k + 1, k' + 1 => exact numbered_injective log h

/-! ## The script rotates the slots -/

/-- What the slots hold in a directory. -/
def slots (log : Text) (files : Files) (k : ℕ) : Option Text :=
  files (slot log k)

/-- `mv` of a slot to the next one, where there is a file. -/
theorem slots_mv (log : Text) (files : Files) (i : ℕ) :
    slots log (if (files (slot log i)).isSome then
        files.mv (slot log i) (slot log (i + 1))
      else files)
      = push i (slots log files) := by
  funext k
  have hinj := fun k k' => (slot_injective log).eq_iff (a := k) (b := k')
  show _ = if k = i then none
    else if k = i + 1 then (files (slot log i)).or (files (slot log (i + 1)))
    else files (slot log k)
  unfold slots
  cases h : files (slot log i) with
  | none =>
    rw [if_neg (by simp)]
    by_cases hi : k = i
    · rw [if_pos hi, hi, h]
    · rw [if_neg hi]
      split
      · next hj => rw [hj, Option.none_or]
      · rfl
  | some c =>
    rw [if_pos (Option.isSome_some)]
    unfold Files.mv
    rw [Function.update_apply, Function.update_apply, h]
    simp only [hinj, Option.some_or]

/-- **What the loop does to the slots**, from any number: it leaves `1` in
`num` and the log where it is, and one more move completes the rotation. -/
theorem rotateLoop_slots (log : Text) (n : ℕ) (files : Files) :
    (rotateLoop log (n + 1) files).fst = 1
      ∧ (rotateLoop log (n + 1) files).snd log = files log
      ∧ push 0 (slots log (rotateLoop log (n + 1) files).snd)
        = rotate (n + 1) (slots log files) := by
  induction n generalizing files with
  | zero => exact ⟨rfl, rfl, push_zero (slots log files)⟩
  | succ n ih =>
    have hmv := slots_mv log files (n + 1)
    obtain ⟨hnum, hlog, hslots⟩ := ih
      (if (files (slot log (n + 1))).isSome then
        files.mv (slot log (n + 1)) (slot log (n + 2))
      else files)
    refine ⟨hnum, hlog.trans ?_, hslots.trans ?_⟩
    · exact (congrFun hmv 0).trans
        (push_of_ne (Nat.succ_ne_zero n).symm (Nat.succ_ne_zero (n + 1)).symm)
    · rw [hmv]
      exact rotate_push n (slots log files)

/-- **The script rotates the slots**, where there is a log. -/
theorem slots_sparkRotateLog {files : Files} {num : ℕ} (hlog : files log ≠ none)
    (hnum : 0 < num) :
    slots log (sparkRotateLog log (some num) files)
      = rotate num (slots log files) := by
  obtain ⟨n, rfl⟩ : ∃ n, num = n + 1 := ⟨num - 1, by omega⟩
  obtain ⟨hfst, hkeep, hslots⟩ := rotateLoop_slots log n files
  rw [← hslots, ← slots_mv]
  unfold sparkRotateLog
  simp only [Option.getD_some, hfst]
  rw [if_pos (Option.isSome_iff_ne_none.mpr hlog), if_pos]
  · rfl
  · show ((rotateLoop log (n + 1) files).snd log).isSome = true
    rw [hkeep]
    exact Option.isSome_iff_ne_none.mpr hlog

/-- Without a log the script does nothing. -/
theorem sparkRotateLog_of_none {files : Files} (arg2 : Option ℕ)
    (hlog : files log = none) : sparkRotateLog log arg2 files = files := by
  unfold sparkRotateLog
  rw [if_neg (by simp [hlog])]

/-- A move between two slots is not about other files. -/
theorem mv_other {f : Text} (hf : ∀ k, f ≠ slot log k) (i j : ℕ)
    (files : Files) : files.mv (slot log i) (slot log j) f = files f := by
  unfold Files.mv
  rw [Function.update_of_ne (hf i), Function.update_of_ne (hf j)]

/-- The loop renames numbered files only. -/
theorem rotateLoop_other {f : Text} (hf : ∀ k, f ≠ slot log k) (n : ℕ)
    (files : Files) : (rotateLoop log (n + 1) files).snd f = files f := by
  induction n generalizing files with
  | zero => rfl
  | succ n ih =>
    show (rotateLoop log (n + 1) (if (files (slot log (n + 1))).isSome then
        files.mv (slot log (n + 1)) (slot log (n + 2))
      else files)).snd f = files f
    rw [ih]
    split
    · exact mv_other hf (n + 1) (n + 2) files
    · rfl

/-- **The script renames the log and its copies only.** -/
theorem sparkRotateLog_other {f : Text} (hf : ∀ k, f ≠ slot log k)
    {num : ℕ} (hnum : 0 < num) (files : Files) :
    sparkRotateLog log (some num) files f = files f := by
  obtain ⟨n, rfl⟩ : ∃ n, num = n + 1 := ⟨num - 1, by omega⟩
  unfold sparkRotateLog
  split
  · simp only [Option.getD_some, (rotateLoop_slots log n files).1]
    exact (mv_other hf 0 1 _).trans (rotateLoop_other hf n files)
  · rfl

/-- **A rotation with `num` numbered copies**: what has become of the files,
of each by its number and of all of them together. -/
structure Rotated (log : Text) (num : ℕ) (before after : Files) : Prop where
  /-- The log is gone, -/
  gone : after log = none
  /-- and its content is in the first copy. -/
  first : after (numbered log 1) = before log
  /-- A copy below the last one moves on to the next name. -/
  shifted : ∀ k, 0 < k → k < num → before (numbered log k) ≠ none →
    after (numbered log (k + 1)) = before (numbered log k)
  /-- The last copy is overwritten only by its neighbour. -/
  last : num ≠ 1 → before (numbered log (num - 1)) = none →
    after (numbered log num) = before (numbered log num)
  /-- What is beyond the last copy is untouched, -/
  beyond : ∀ k, num < k → after (numbered log k) = before (numbered log k)
  /-- and so is everything with another name. -/
  other : ∀ f, (∀ k, f ≠ slot log k) → after f = before f
  /-- No other content is lost, and none is duplicated. -/
  bijective : Set.BijOn (moved num) (kept num (slots log before))
      {j | slots log after j ≠ none}
    ∧ ∀ k ∈ kept num (slots log before),
      slots log after (moved num k) = slots log before k

/-- **The script rotates the log and its copies.** -/
theorem rotated_sparkRotateLog {files : Files} {num : ℕ}
    (hlog : files log ≠ none) (hnum : 0 < num) :
    Rotated log num files (sparkRotateLog log (some num) files) := by
  have hslots := slots_sparkRotateLog hlog hnum
  have hsucc : ∀ k, sparkRotateLog log (some num) files (numbered log (k + 1))
      = rotate num (slots log files) (k + 1) := fun k => congrFun hslots (k + 1)
  refine ⟨congrFun hslots 0, ?_, fun k hk hlt hne => ?_, fun hne hnone => ?_,
    fun k hlt => ?_, fun f hf => sparkRotateLog_other hf hnum files, ?_⟩
  · obtain ⟨c, hc⟩ := Option.ne_none_iff_exists'.mp hlog
    rw [hsucc, rotate_of_some hnum hc, hc]
  · obtain ⟨c, hc⟩ := Option.ne_none_iff_exists'.mp hne
    obtain ⟨j, rfl⟩ : ∃ j, k = j + 1 := ⟨k - 1, by omega⟩
    rw [hsucc, rotate_of_some hlt hc, hc]
  · obtain ⟨j, rfl⟩ : ∃ j, num = j + 2 := ⟨num - 2, by omega⟩
    exact (hsucc (j + 1)).trans (rotate_last hnone)
  · obtain ⟨j, rfl⟩ : ∃ j, k = j + 1 := ⟨k - 1, by omega⟩
    exact (hsucc j).trans (rotate_of_gt hlt)
  · rw [hslots]
    exact ⟨rotate_bijOn hnum _, fun k hk => rotate_moved hnum hk⟩

/-! ## Launches -/

/-- **A launch stores its output** in slot `0`, with five numbered copies
behind it. -/
theorem slots_launch (daemon : Daemon) (files : Files) (output : Text) :
    slots daemon.log (launch daemon files output)
      = store 5 (slots daemon.log files) output := by
  have hrotated : slots daemon.log (sparkRotateLog daemon.log none files)
      = if slots daemon.log files 0 = none then slots daemon.log files
        else rotate 5 (slots daemon.log files) := by
    split
    · next hlog =>
      have hlog' : files daemon.log = none := hlog
      rw [sparkRotateLog_of_none none hlog']
    · next hlog =>
      show slots daemon.log (sparkRotateLog daemon.log (some 5) files) = _
      exact slots_sparkRotateLog hlog (by omega)
  have hgone : sparkRotateLog daemon.log none files daemon.log = none := by
    refine (congrFun hrotated 0).trans ?_
    split
    · next hlog => exact hlog
    · rfl
  funext k
  unfold store
  rw [← hrotated]
  show Function.update (sparkRotateLog daemon.log none files) daemon.log
    (some ((sparkRotateLog daemon.log none files daemon.log).getD [] ++ output))
    (slot daemon.log k) = _
  rw [hgone, Function.update_apply, Function.update_apply]
  have hzero : slot daemon.log k = daemon.log ↔ k = 0 :=
    (slot_injective daemon.log).eq_iff (b := 0)
  exact ite_congr (propext hzero) (fun _ => rfl) fun _ => rfl

/-- **Any number of launches** from an empty directory: the log and its copies
hold the outputs of the latest ones. -/
theorem slots_run (daemon : Daemon) (outputs : List Text) :
    slots daemon.log (run (launch daemon) (fun _ => none) outputs)
      = run (store 5) (fun _ => none) outputs := by
  induction outputs using List.reverseRecOn with
  | nil => rfl
  | append_singleton outputs output ih =>
    rw [run_concat, run_concat, slots_launch, ih]

/-- **The rotation loses only the oldest log and keeps the rest in order**,
with any number of copies and over any files; without a log nothing changes.
So after any launches of a daemon its log and the five copies hold the outputs
of the last six, newest first. -/
theorem sparkRotateLog_spec (log : Text) {num : ℕ} (hnum : 0 < num)
    (files : Files) :
    (files log ≠ none →
        Rotated log num files (sparkRotateLog log (some num) files))
      ∧ (files log = none → sparkRotateLog log (some num) files = files)
      ∧ ∀ (daemon : Daemon) (outputs : List Text), ∀ k ≤ 5,
        run (launch daemon) (fun _ => none) outputs (slot daemon.log k)
          = outputs.reverse[k]? := by
  refine ⟨fun hlog => rotated_sparkRotateLog hlog hnum,
    sparkRotateLog_of_none (some num), fun daemon outputs k hk => ?_⟩
  rw [← stored_run 5 outputs k hk, ← slots_run]
  rfl

/-- A directory with a log and two of three copies: the second one is missing. -/
def sampleFiles : Files :=
  Function.update (Function.update (Function.update (fun _ => none) "worker.log".toList
    (some "new".toList)) "worker.log.1".toList (some "old".toList))
    "worker.log.3".toList (some "oldest".toList)

/-- The gap is closed, and nothing is lost. -/
theorem sparkRotateLog_sampleFiles :
    sparkRotateLog "worker.log".toList (some 3) sampleFiles
          (numbered "worker.log".toList 1) = some "new".toList
      ∧ sparkRotateLog "worker.log".toList (some 3) sampleFiles
          (numbered "worker.log".toList 2) = some "old".toList
      ∧ sparkRotateLog "worker.log".toList (some 3) sampleFiles
          (numbered "worker.log".toList 3) = some "oldest".toList := by
  have hnum : 0 < 3 := by decide
  have h := (sparkRotateLog_spec "worker.log".toList hnum sampleFiles).1 (by decide)
  refine ⟨h.first, ?_, ?_⟩
  · exact (h.shifted 1 Nat.one_pos (by decide) (by decide +kernel)).trans
      (by decide +kernel)
  · exact (h.last (by decide) (by decide +kernel)).trans (by decide +kernel)

end Spark
