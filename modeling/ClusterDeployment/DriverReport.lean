import ClusterDeployment.Regex
import ClusterDeployment.Text

/-!
# The report of the submission client

`spark-submit` prints, somewhere in its log, which driver the master has
created and in which state it is – and, once the driver runs, on which
worker. `start` takes both out of the text by two searches:

* `State of (driver-\d*-\d*) is (\S*)` for the driver and its status;
* `Driver running on (\S*):\d* ` for the worker's host.

`driverRe_report` and `driverServerRe_report` say that the searches undo the
printing. The first is a matter of where the runs of digits and of
non-blanks end. The second is not: the group for the host is greedy and
swallows the port with the host, and what makes it give back exactly the
port is that the `:` in front of the port is the last one before the blank.
-/

/-- `\d` in a pattern over bytes. -/
def isDigit (c : Char) : Bool := decide ('0' ≤ c ∧ c ≤ '9')

/-- `\s` in a pattern over bytes: blank, tab, line feed, vertical tab, form
feed and carriage return. -/
def isSpace (c : Char) : Bool :=
  c ∈ [' ', '\t', '\n', Char.ofNat 11, Char.ofNat 12, '\r']

/-- `\S` in a pattern over bytes. -/
def isNotSpace (c : Char) : Bool := !isSpace c

open Regex

/-- `State of (driver-\d*-\d*) is (\S*)`. -/
def driverPattern : Regex Char :=
  lit "State of ".toList
    ++ group 1 (lit "driver-".toList ++ star isDigit ++ lit "-".toList
      ++ star isDigit)
    ++ lit " is ".toList ++ group 2 (star isNotSpace)

/-- `Driver running on (\S*):\d* `, with the blank at its end. -/
def driverServerPattern : Regex Char :=
  lit "Driver running on ".toList ++ group 1 (star isNotSpace)
    ++ lit ":".toList ++ star isDigit ++ lit " ".toList

/-- The driver and its status, as `start` reads them. -/
def driverRe (outStr : Text) : Option (Text × Text) :=
  (driverPattern.search outStr).map
    (fun m => ((m 1).getD [], (m 2).getD []))

/-- The host of the worker, as `start` reads it. -/
def driverServerRe (outStr : Text) : Option Text :=
  (driverServerPattern.search outStr).map (fun m => (m 1).getD [])

/-- The driver read is a part of the output. -/
theorem driverId_infix {outStr driverId status : Text}
    (h : driverRe outStr = some (driverId, status)) : driverId <:+: outStr := by
  obtain ⟨m, hm, hr⟩ := Option.map_eq_some_iff.mp h
  have h₁ : (m 1).getD [] = driverId := congrArg Prod.fst hr
  cases hg : m 1 with
  | none => rw [← h₁, hg]; exact List.nil_infix
  | some w => rw [← h₁, hg]; exact infix_of_search hm hg

/-- The host read is a part of the output. -/
theorem driverServer_infix {outStr driverServer : Text}
    (h : driverServerRe outStr = some driverServer) :
    driverServer <:+: outStr := by
  obtain ⟨m, hm, hr⟩ := Option.map_eq_some_iff.mp h
  cases hg : m 1 with
  | none => rw [← hr, hg]; exact List.nil_infix
  | some w => rw [← hr, hg]; exact infix_of_search hm hg

/-! ## The two lines of the report -/

/-- A driver id, as the master composes it of a date and a number. -/
def driverName (D₁ D₂ : Text) : Text :=
  "driver-".toList ++ D₁ ++ "-".toList ++ D₂

/-- What may follow at the end of a line: nothing, or the line's end. -/
def EndOfLine (post : Text) : Prop := ∀ c ∈ post.head?, c = '\n' ∨ c = '\r'

/-- The line with the state of the driver. -/
def stateLine (driverId status : Text) : Text :=
  "State of ".toList ++ driverId ++ " is ".toList ++ status

/-- The line with the worker that runs the driver, at the given host and
port. -/
def runningLine (host port worker : Text) : Text :=
  "Driver running on ".toList ++ host ++ ":".toList ++ port ++ " (".toList
    ++ worker ++ ")".toList

section Report

variable {D₁ D₂ status host port worker pre post : Text}

/-- The match in front of the line with the state. -/
theorem matchAt_stateLine (hD₁ : ∀ c ∈ D₁, isDigit c = true)
    (hD₂ : ∀ c ∈ D₂, isDigit c = true)
    (hs : ∀ c ∈ status, isSpace c = false) (hpost : EndOfLine post) :
    driverPattern.matchAt (stateLine (driverName D₁ D₂) status ++ post)
      = some (Function.update (Function.update (fun _ => none) 1
          (some (driverName D₁ D₂))) 2 (some status)) := by
  have hstop : ∀ c ∈ post.head?, isNotSpace c = false := by
    intro c hc
    obtain rfl | rfl := hpost c hc <;> rfl
  have hstatus : ∀ c ∈ status, isNotSpace c = true := by
    intro c hc
    rw [isNotSpace, hs c hc]
    rfl
  unfold driverPattern matchAt stateLine driverName
  simp only [run_append, run_group, run_star, run_lit_append, List.append_assoc]
  -- the two runs of digits end at a dash and at a blank
  refine starRun_of_stop (by simp [isDigit]) hD₁ ?_
  simp only [run_star, run_lit_append]
  refine starRun_of_stop (by simp [isDigit]) hD₂ ?_
  simp only [run_group, run_star, run_lit_append]
  refine starRun_of_stop hstop hstatus ?_
  rw [consumed_of_eq (w := status) rfl,
    consumed_of_eq (w := "driver-".toList ++ D₁ ++ "-".toList ++ D₂)
      (by simp only [List.append_assoc])]
  simp only [List.append_assoc]

/-- **Reading the driver undoes printing it**: behind any text in which no
state of a driver is reported, the line with the state gives its driver and
its status, whole. -/
theorem driverRe_report (hD₁ : ∀ c ∈ D₁, isDigit c = true)
    (hD₂ : ∀ c ∈ D₂, isDigit c = true)
    (hs : ∀ c ∈ status, isSpace c = false) (hpost : EndOfLine post)
    (hpre : ¬ "State of driver-".toList <:+: pre) :
    driverRe (pre ++ (stateLine (driverName D₁ D₂) status ++ post))
      = some (driverName D₁ D₂, status) := by
  have hm := search_append_of_leading (r := driverPattern) rfl
    (by decide) hpre (matchAt_stateLine hD₁ hD₂ hs hpost)
  unfold driverRe
  rw [hm, Option.map_some, Function.update_self,
    Function.update_of_ne (by decide), Function.update_self, Option.getD_some,
    Option.getD_some]

/-- A digit is neither a blank nor a colon. -/
theorem not_blank_of_isDigit {c : Char} (h : isDigit c = true) :
    isNotSpace c = true ∧ c ≠ ':' := by
  refine ⟨?_, ?_⟩
  · cases hs : isSpace c with
    | false => rw [isNotSpace, hs]; rfl
    | true =>
      have hmem : c ∈ [' ', '\t', '\n', Char.ofNat 11, Char.ofNat 12, '\r'] :=
        of_decide_eq_true hs
      simp only [List.mem_cons, List.not_mem_nil, or_false] at hmem
      obtain rfl | rfl | rfl | rfl | rfl | rfl := hmem <;>
        exact absurd h (by decide)
  · rintro rfl
    exact absurd h (by decide)

/-- **The greedy group gives back the port**: in front of the line with the
worker the group holds the host, whatever colons and digits the host itself
has. -/
theorem matchAt_runningLine (worker post : Text)
    (hh : ∀ c ∈ host, isSpace c = false) (hp : ∀ c ∈ port, isDigit c = true) :
    driverServerPattern.matchAt (runningLine host port worker ++ post)
      = some (Function.update (fun _ => none) 1 (some host)) := by
  have hhost : ∀ c ∈ host, isNotSpace c = true := by
    intro c hc
    rw [isNotSpace, hh c hc]
    rfl
  have hport : ∀ c ∈ ":".toList ++ port, isNotSpace c = true := by
    intro c hc
    obtain rfl | hc := List.mem_cons.mp hc
    · rfl
    · exact (not_blank_of_isDigit (hp c hc)).1
  unfold driverServerPattern matchAt runningLine
  simp only [run_append, run_group, run_star, run_lit_append, List.append_assoc]
  rw [← List.append_assoc ":".toList port]
  refine starRun_of_backtrack (by simp [isNotSpace, isSpace]) hhost hport ?_ ?_
  · -- once the colon is taken, what is left begins with a digit or the blank
    intro v₁ v₂ hv hne
    refine run_lit_eq_none (fun hcolon => ?_)
    obtain ⟨a, v₁, rfl⟩ := List.exists_cons_of_ne_nil hne
    have hport₂ : port = v₁ ++ v₂ := (List.cons.inj hv).2
    cases v₂ with
    | nil => exact absurd hcolon (by simp)
    | cons d v₂ =>
      have hd : isDigit d = true :=
        hp d (hport₂ ▸ List.mem_append_right v₁ List.mem_cons_self)
      exact (not_blank_of_isDigit hd).2 (List.cons_prefix_cons.mp hcolon).1.symm
  · rw [List.append_assoc, run_lit_append, run_star]
    refine starRun_of_stop (by simp [isDigit]) hp ?_
    rw [show " (".toList = " ".toList ++ "(".toList from rfl, List.append_assoc,
      run_lit_append, consumed_of_eq (w := host) (by simp)]

/-- **Reading the server undoes printing it**, behind any text in which no
running driver is reported. -/
theorem driverServerRe_report (hh : ∀ c ∈ host, isSpace c = false)
    (hp : ∀ c ∈ port, isDigit c = true)
    (hpre : ¬ "Driver running on ".toList <:+: pre) :
    driverServerRe (pre ++ (runningLine host port worker ++ post))
      = some host := by
  have hm := search_append_of_leading (r := driverServerPattern) rfl
    (by decide) hpre (matchAt_runningLine worker post hh hp)
  unfold driverServerRe
  rw [hm, Option.map_some, Function.update_self, Option.getD_some]

end Report
