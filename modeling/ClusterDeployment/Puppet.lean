import Mathlib.Data.List.Nodup
import Mathlib.Logic.Function.Basic

/-!
# Applying a Puppet catalog

A catalog lists the files a host is to have and a service that is to run. What
applying it does to the files depends on the catalog alone: each gets the
content it has there. What it does to the service depends on the host as well:
a service that does not run is started, and one that runs is restarted only if
a file has been rewritten that notifies it.

A daemon reads its files when it is launched, and what it has read is all that
counts later on. It is given here by what a launch reads, `reads`. So the files
of a host follow the catalogs that are applied to it, while a daemon keeps what
it has read for as long as nothing notifies it (`apply_daemons_of_running`).
-/

namespace Puppet

variable {π γ σ α : Type} [DecidableEq π] [DecidableEq γ] [DecidableEq σ]

/-- A file with its content, and the service it notifies. -/
structure FileResource (π γ σ : Type) where
  path : π
  content : γ
  notify : Option σ

/-- **A catalog**: no file is declared twice. -/
structure Catalog (π γ σ : Type) where
  files : List (FileResource π γ σ)
  nodup : (files.map FileResource.path).Nodup
  service : σ

/-- **A host**: its files, and for each service that runs what its daemon has
read. -/
structure Node (π γ σ α : Type) where
  files : π → Option γ
  daemons : σ → Option α

/-- The files once the resources are in place. -/
def write : List (FileResource π γ σ) → (π → Option γ) → π → Option γ
  | [], files => files
  | r :: rs, files => write rs (Function.update files r.path (some r.content))

/-- Whether a file has to be rewritten that notifies the service. -/
def Catalog.notified (catalog : Catalog π γ σ) (files : π → Option γ) : Bool :=
  catalog.files.any fun r =>
    decide (r.notify = some catalog.service) && decide (files r.path ≠ some r.content)

/-- **Applying a catalog.** -/
def Catalog.apply (reads : σ → (π → Option γ) → α) (catalog : Catalog π γ σ)
    (node : Node π γ σ α) : Node π γ σ α :=
  let files := write catalog.files node.files
  let launched := reads catalog.service files
  { files := files
    daemons := Function.update node.daemons catalog.service
      (match node.daemons catalog.service with
        | none => some launched
        | some a => some (if catalog.notified node.files then launched else a)) }

/-- The host once a service has been stopped. -/
def Node.stop (s : σ) (node : Node π γ σ α) : Node π γ σ α :=
  ⟨node.files, Function.update node.daemons s none⟩

variable {reads : σ → (π → Option γ) → α} {catalog : Catalog π γ σ}
variable {node : Node π γ σ α}

/-! ## The files -/

omit [DecidableEq γ] [DecidableEq σ] in
/-- A file that is not declared is left alone. -/
theorem write_of_not_mem {rs : List (FileResource π γ σ)} {p : π}
    (hp : p ∉ rs.map FileResource.path) (files : π → Option γ) :
    write rs files p = files p := by
  induction rs generalizing files with
  | nil => rfl
  | cons r rs ih =>
    rw [List.map_cons, List.mem_cons, not_or] at hp
    exact (ih hp.2 _).trans (Function.update_of_ne hp.1 _ _)

omit [DecidableEq γ] [DecidableEq σ] in
/-- **A declared file has the content that is declared.** -/
theorem write_of_mem {rs : List (FileResource π γ σ)}
    (hnd : (rs.map FileResource.path).Nodup) {r : FileResource π γ σ}
    (hr : r ∈ rs) (files : π → Option γ) :
    write rs files r.path = some r.content := by
  induction rs generalizing files with
  | nil => exact absurd hr List.not_mem_nil
  | cons r' rs ih =>
    obtain ⟨hr', hnd⟩ := List.nodup_cons.mp hnd
    obtain rfl | hr := List.mem_cons.mp hr
    · exact (write_of_not_mem hr' _).trans (Function.update_self _ _ _)
    · exact ih hnd hr _

/-- After a catalog its files are in place. -/
theorem apply_files_of_mem {r : FileResource π γ σ} (hr : r ∈ catalog.files) :
    (catalog.apply reads node).files r.path = some r.content :=
  write_of_mem catalog.nodup hr node.files

/-- The other files are as they were. -/
theorem apply_files_of_not_mem {p : π}
    (hp : p ∉ catalog.files.map FileResource.path) :
    (catalog.apply reads node).files p = node.files p :=
  write_of_not_mem hp node.files

/-! ## The service -/

variable {s : σ}

/-- A service that does not run is launched with the files as they are now. -/
theorem apply_daemons_of_stopped (hs : catalog.service = s)
    (h : node.daemons s = none) :
    (catalog.apply reads node).daemons s
      = some (reads s (catalog.apply reads node).files) := by
  subst hs
  unfold Catalog.apply
  dsimp only
  rw [Function.update_self, h]

/-- **A service that runs, and that nothing notifies, keeps what it has
read.** -/
theorem apply_daemons_of_running {a : α} (hs : catalog.service = s)
    (h : node.daemons s = some a)
    (hquiet : ∀ r ∈ catalog.files, r.notify = some s →
      node.files r.path = some r.content) :
    (catalog.apply reads node).daemons s = some a := by
  subst hs
  have hnot : catalog.notified node.files = false := by
    refine List.any_eq_false.mpr fun r hr hn => ?_
    simp only [Bool.and_eq_true, decide_eq_true_eq] at hn
    exact hn.2 (hquiet r hr hn.1)
  unfold Catalog.apply
  dsimp only
  rw [Function.update_self, h, hnot]
  rfl

/-- One that is notified has read the files as they are now. -/
theorem apply_daemons_of_notified {a : α} (hs : catalog.service = s)
    (h : node.daemons s = some a) {r : FileResource π γ σ} (hr : r ∈ catalog.files)
    (hnotify : r.notify = some s) (hout : node.files r.path ≠ some r.content) :
    (catalog.apply reads node).daemons s
      = some (reads s (catalog.apply reads node).files) := by
  subst hs
  have hnotified : catalog.notified node.files = true := by
    refine List.any_eq_true.mpr ⟨r, hr, ?_⟩
    rw [decide_eq_true hnotify, decide_eq_true hout]
    rfl
  unfold Catalog.apply
  dsimp only
  rw [Function.update_self, h, hnotified]
  rfl

/-- The other services are not concerned. -/
theorem apply_daemons_of_ne (hs : s ≠ catalog.service) :
    (catalog.apply reads node).daemons s = node.daemons s :=
  Function.update_of_ne hs _ _

end Puppet
