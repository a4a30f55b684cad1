import ClusterDeployment.Run
import ClusterDeployment.Text
import Mathlib.Logic.Function.Basic

/-!
# Shell scripts and what they export

A script sets variables, and some of these it exports: a process that is
started from it begins with the exported ones and nothing else. A script can be
sourced, so that what it sets stays, and while `set -a` is in force everything
that is set is exported as well.

Whether a script leaves some variables alone can mostly be seen from what it
writes. Not if it sources a file – but the scripts that do this often begin by
asking whether it has been done before. `Script.spares` is that reading of a
script: it does not write the variables, given that a marker is set. It is
enough (`keeps_of_spares`), also along any number of processes that are started
one from the other (`chain_of_spares`).
-/

namespace Shell

/-- The value of a variable, and whether it is exported. -/
structure Var where
  value : Text
  exported : Bool
  deriving DecidableEq

/-- **The variables** of a shell. -/
abbrev Env : Type := Text → Option Var

namespace Env

/-- What a variable expands to. -/
def get (e : Env) (x : Text) : Text := ((e x).map Var.value).getD []

/-- What a process begins with that is started from the shell. -/
def child (e : Env) : Env := fun x => (e x).filter Var.exported

/-- The variables once one of them has been set. -/
def set (e : Env) (x : Text) (v : Var) : Env := Function.update e x (some v)

variable {e : Env} {x y : Text} {v : Var}

@[simp] theorem set_self : e.set x v x = some v := Function.update_self x _ e

theorem set_of_ne (h : y ≠ x) : e.set x v y = e y := Function.update_of_ne h _ e

@[simp] theorem get_set_self : (e.set x v).get x = v.value := by
  unfold get
  rw [set_self]
  rfl

theorem get_set_of_ne (h : y ≠ x) : (e.set x v).get y = e.get y := by
  unfold get
  rw [set_of_ne h]

/-- What a variable expands to is a matter of the variable. -/
theorem get_congr {e e' : Env} {x : Text} (h : e' x = e x) : e'.get x = e.get x :=
  congrArg (fun v : Option Var => (v.map Var.value).getD []) h

theorem child_congr {e e' : Env} {x : Text} (h : e' x = e x) :
    e'.child x = e.child x :=
  congrArg (Option.filter Var.exported) h

/-- What is empty is so for a process as well. -/
theorem child_get_of_empty (h : e.get x = []) : e.child.get x = [] := by
  show (((e x).filter Var.exported).map Var.value).getD [] = []
  unfold get at h
  cases hx : e x with
  | none => rfl
  | some v =>
    rw [hx] at h
    rw [Option.filter_some]
    split
    · exact h
    · rfl

/-- What is exported is handed on as it is. -/
theorem child_of_exported (h : e x = some v) (hv : v.exported = true) :
    e.child x = some v := by
  unfold child
  rw [h]
  simp [hv]

end Env

/-! ## Words and scripts -/

/-- A word, before its expansion. -/
inductive Word where
  | lit (t : Text)
  | var (x : Text)
  | orElse (x : Text) (w : Word)
  | cat (w w' : Word)
  deriving DecidableEq

/-- The expansion of a word. An empty variable is the same as none in
`${x:-w}`. -/
def Word.expand (e : Env) : Word → Text
  | lit t => t
  | var x => e.get x
  | orElse x w => if e.get x = [] then w.expand e else e.get x
  | cat w w' => w.expand e ++ w'.expand e

/-- The commands that set a variable. -/
inductive Assign where
  | set (x : Text) (w : Word)
  | append (x : Text) (w : Word)
  | setExport (x : Text) (w : Word)
  | exportOnly (x : Text)

/-- The variable a command sets. -/
def Assign.target : Assign → Text
  | set x _ => x
  | append x _ => x
  | setExport x _ => x
  | exportOnly x => x

/-- A shell: its variables, and whether `set -a` is in force. -/
structure State where
  env : Env
  allexport : Bool

/-- The shell a process begins with. -/
def State.initial (e : Env) : State := ⟨e, false⟩

/-- A variable that is set stays exported if it has been. -/
def State.put (s : State) (x : Text) (t : Text) (exported : Bool) : State :=
  let before := ((s.env x).map Var.exported).getD false
  ⟨s.env.set x ⟨t, exported || s.allexport || before⟩, s.allexport⟩

theorem State.put_of_ne {s : State} {x y : Text} (h : y ≠ x) (t : Text)
    (exported : Bool) : (s.put x t exported).env y = s.env y :=
  Env.set_of_ne h

/-- One command. -/
def Assign.exec (s : State) : Assign → State
  | set x w => s.put x (w.expand s.env) false
  | append x w => s.put x (s.env.get x ++ w.expand s.env) false
  | setExport x w => s.put x (w.expand s.env) true
  | exportOnly x => if s.env x = none then s else s.put x (s.env.get x) true

/-- A text that is one word, or none, even where it is not quoted: it is not cut
at blanks, and there is no pattern in it. -/
def plain (t : Text) : Bool :=
  t.all fun c => !c.isWhitespace && !"*?[\\".toList.contains c

/-- `[ x == t ]`, with the first word not quoted. What the test says of several
words is a matter of the words. -/
def sameWord (several : Text → Bool) (x t : Text) : Bool :=
  if plain x then decide (x = t) else several x

/-- **Scripts**, with the files that they source as lists of such commands, and
with tests of variables and of other things. -/
inductive Script where
  | skip
  | exit
  | simple (a : Assign)
  | allexport (b : Bool)
  | source (path : Word)
  | ifEmpty (w : Word) (p q : Script)
  | ifEq (w : Word) (t : Text) (several : Text → Bool) (p q : Script)
  | ifTrue (b : Bool) (p q : Script)
  | seq (p q : Script)

/-- The files that can be sourced. -/
abbrev Files : Type := Text → Option (List Assign)

/-- **Running a script**; there is nothing to go on with after `exit`. A file
that is not there is not sourced. -/
def Script.exec (files : Files) : Script → State → Option State
  | skip, s => some s
  | exit, _ => none
  | simple a, s => some (a.exec s)
  | allexport b, s => some { s with allexport := b }
  | source path, s =>
    some (((files (path.expand s.env)).getD []).foldl Assign.exec s)
  | ifEmpty w p q, s =>
    if w.expand s.env = [] then p.exec files s else q.exec files s
  | ifEq w t several p q, s =>
    if sameWord several (w.expand s.env) t then p.exec files s else q.exec files s
  | ifTrue b p q, s => if b then p.exec files s else q.exec files s
  | seq p q, s => (p.exec files s).bind (q.exec files)

/-- Scripts one after the other. -/
def Script.all : List Script → Script
  | [] => skip
  | p :: ps => seq p (all ps)

/-! ## What a script leaves alone -/

variable {files : Files} {s s' : State} {e e' : Env} {x : Text}

/-- A command sets its variable only. -/
theorem Assign.exec_of_ne {a : Assign} (h : x ≠ a.target) :
    (a.exec s).env x = s.env x := by
  cases a with
  | set y w => exact State.put_of_ne h _ _
  | append y w => exact State.put_of_ne h _ _
  | setExport y w => exact State.put_of_ne h _ _
  | exportOnly y =>
    show (if s.env y = none then s else s.put y (s.env.get y) true).env x = s.env x
    split
    · rfl
    · exact State.put_of_ne h _ _

/-- What is exported, a process begins with. -/
theorem exportOnly_get (s : State) (x : Text) :
    ((Assign.exportOnly x).exec s).env.child.get x = s.env.get x := by
  show ((if s.env x = none then s else s.put x (s.env.get x) true).env.child).get x = _
  split
  · next hnone =>
    have hempty : s.env.get x = [] := by
      unfold Env.get
      rw [hnone]
      rfl
    rw [hempty]
    exact Env.child_get_of_empty hempty
  · have hset : (s.put x (s.env.get x) true).env.child x
        = some ⟨s.env.get x, true⟩ :=
      Env.child_of_exported Env.set_self rfl
    unfold Env.get at hset ⊢
    rw [hset]
    rfl

/-- **A script spares some variables** if it does not write them – given that
the marker is set, if there is one. -/
def Script.spares (marker : Option Text) (xs : List Text) : Script → Bool
  | skip => true
  | exit => true
  | simple a => !xs.contains a.target
  | allexport _ => true
  | source _ => false
  | ifEmpty w p q =>
    (marker.any (fun m => w = .var m) || p.spares marker xs) && q.spares marker xs
  | ifEq _ _ _ p q => p.spares marker xs && q.spares marker xs
  | ifTrue _ p q => p.spares marker xs && q.spares marker xs
  | seq p q => p.spares marker xs && q.spares marker xs

/-- The marker, if there is one, is set and is among the variables. -/
def Marked (marker : Option Text) (xs : List Text) (e : Env) : Prop :=
  ∀ m ∈ marker, m ∈ xs ∧ e.get m ≠ []

/-- Without a marker there is nothing to be set. -/
theorem marked_none {xs : List Text} : Marked none xs e :=
  fun m hm => absurd hm (Option.not_mem_none m)

/-- What is kept along with it stays marked. -/
theorem Marked.of_eq {marker : Option Text} {xs : List Text}
    (h : Marked marker xs e) (heq : ∀ x ∈ xs, e' x = e x) : Marked marker xs e' := by
  intro m hm
  obtain ⟨hmem, hset⟩ := h m hm
  refine ⟨hmem, ?_⟩
  unfold Env.get at hset ⊢
  rwa [heq m hmem]

/-- **What a script spares is kept.** -/
theorem keeps_of_spares {marker : Option Text} {xs : List Text} {p : Script}
    (hp : p.spares marker xs = true) (hmarked : Marked marker xs s.env)
    (h : p.exec files s = some s') : ∀ x ∈ xs, s'.env x = s.env x := by
  induction p generalizing s s' with
  | skip =>
    obtain rfl := Option.some.inj h
    exact fun _ _ => rfl
  | exit => exact absurd h (by simp [Script.exec])
  | simple a =>
    obtain rfl := Option.some.inj h
    intro x hx
    refine Assign.exec_of_ne fun heq => ?_
    simp only [Script.spares, Bool.not_eq_true', List.contains_eq_mem,
      decide_eq_false_iff_not] at hp
    exact hp (heq ▸ hx)
  | allexport b =>
    obtain rfl := Option.some.inj h
    exact fun _ _ => rfl
  | source path => exact absurd hp (by simp [Script.spares])
  | ifEmpty w p q ihp ihq =>
    obtain ⟨hp, hq⟩ := Bool.and_eq_true_iff.mp hp
    change (if _ then _ else _) = some s' at h
    split at h
    · next hempty =>
      obtain hguard | hp := Bool.or_eq_true_iff.mp hp
      · obtain ⟨m, hm, hw⟩ := (Option.any_eq_true _ _).mp hguard
        obtain rfl := of_decide_eq_true hw
        exact absurd hempty (hmarked m hm).2
      · exact ihp hp hmarked h
    · exact ihq hq hmarked h
  | ifEq w t several p q ihp ihq =>
    obtain ⟨hp, hq⟩ := Bool.and_eq_true_iff.mp hp
    change (if _ then _ else _) = some s' at h
    split at h
    · exact ihp hp hmarked h
    · exact ihq hq hmarked h
  | ifTrue b p q ihp ihq =>
    obtain ⟨hp, hq⟩ := Bool.and_eq_true_iff.mp hp
    change (if _ then _ else _) = some s' at h
    split at h
    · exact ihp hp hmarked h
    · exact ihq hq hmarked h
  | seq p q ihp ihq =>
    obtain ⟨hp, hq⟩ := Bool.and_eq_true_iff.mp hp
    obtain ⟨t, ht, h⟩ := Option.bind_eq_some_iff.mp h
    have hfirst := ihp hp hmarked ht
    intro x hx
    rw [ihq hq (hmarked.of_eq hfirst) h x hx, hfirst x hx]

/-- Commands one after the other. -/
theorem exec_simples (as : List Assign) (s : State) :
    (Script.all (as.map .simple)).exec files s = some (as.foldl Assign.exec s) := by
  induction as generalizing s with
  | nil => rfl
  | cons a as ih => exact ih (a.exec s)

/-- A list of scripts in two parts. -/
theorem exec_all_append (ps qs : List Script) (s : State) :
    (Script.all (ps ++ qs)).exec files s
      = ((Script.all ps).exec files s).bind ((Script.all qs).exec files) := by
  induction ps generalizing s with
  | nil => rfl
  | cons p ps ih =>
    show (p.exec files s).bind _ = ((p.exec files s).bind _).bind _
    rw [Option.bind_assoc]
    exact congrArg _ (funext fun t => ih t)

/-! ## Processes that are started one from the other -/

/-- What a script hands on, with the files as it finds them. -/
def Script.handsOn (files : Files) (p : Script) (e : Env) : Option Env :=
  (p.exec files (.initial e)).map fun s => s.env.child

/-- **Processes that are started one from the other**, and what the last one
hands on. -/
def chain : List (Files × Script) → Env → Option Env
  | [], e => some e
  | (files, p) :: ps, e => (p.handsOn files e).bind (chain ps)

/-- What is handed on is exported. -/
theorem Env.child_child (e : Env) : e.child.child = e.child := by
  funext x
  unfold Env.child
  cases e x with
  | none => rfl
  | some v => cases v.exported <;> simp

/-- What a process spares of what is exported, it hands on. -/
theorem handsOn_of_spares {marker : Option Text} {xs : List Text} {p : Script}
    (hp : p.spares marker xs = true) (hmarked : Marked marker xs e)
    (hexported : e.child = e) (h : p.handsOn files e = some e') :
    e'.child = e' ∧ ∀ x ∈ xs, e' x = e x := by
  obtain ⟨s, hs, rfl⟩ := Option.map_eq_some_iff.mp h
  refine ⟨Env.child_child s.env, fun x hx => ?_⟩
  have hkeep := keeps_of_spares (s := .initial e) hp hmarked hs x hx
  show (s.env x).filter Var.exported = e x
  rw [hkeep]
  exact congrFun hexported x

/-- **What every process spares is there at the end**, however many there are
in between. -/
theorem chain_of_spares {marker : Option Text} {xs : List Text}
    {ps : List (Files × Script)} (hps : ∀ p ∈ ps, p.2.spares marker xs = true)
    (hmarked : Marked marker xs e) (hexported : e.child = e)
    (h : chain ps e = some e') : e'.child = e' ∧ ∀ x ∈ xs, e' x = e x := by
  induction ps generalizing e with
  | nil =>
    obtain rfl := Option.some.inj h
    exact ⟨hexported, fun _ _ => rfl⟩
  | cons p ps ih =>
    obtain ⟨e₁, h₁, h⟩ := Option.bind_eq_some_iff.mp h
    obtain ⟨hexported', hkeep⟩ :=
      handsOn_of_spares (hps p List.mem_cons_self) hmarked hexported h₁
    obtain ⟨hexported'', hkeep'⟩ := ih (fun q hq => hps q (List.mem_cons_of_mem p hq))
      (hmarked.of_eq hkeep) hexported' h
    exact ⟨hexported'', fun x hx => (hkeep' x hx).trans (hkeep x hx)⟩

end Shell
