import Mathlib.Logic.Function.Basic
import ClusterDeployment.Text

/-!
# Trees of files, and the paths through them

A file tree says what is at each place: a directory, a file, or a symbolic
link to another place. A path is a text; what it leads to is found by going
from name to name, where `.` stays, `..` goes up, and every name but the last
has to lead to a directory, on its own or as a link.

Two properties of this walk are all that is needed of it. A path that is
joined from two is walked one part after the other (`walk_append`, and
`resolve_join` for a path that ends in a file). And a tree in which fewer
names lead to a directory has fewer walks, but no others (`walk_mono`): where
a file is put, directories can only be lost.
-/

/-- A place in a tree: the names that lead there from the root, the innermost
first. -/
abbrev Place : Type := List Text

/-- What can be at a place. A link is kept by the place it leads to in the end:
the links on its way, and a link that it names, have been followed already. A
link to a place where there is a link leads nowhere. -/
inductive FileTree.Node where
  | dir
  | file (content : Text)
  | link (target : Place)
  deriving DecidableEq

/-- **A tree of files**, with its root. -/
structure FileTree where
  node : Place → Option FileTree.Node
  root : node [] = some .dir

namespace FileTree

variable {t t' : FileTree} {cwd d d' p q : Place} {c content : Text}

/-! ## Paths -/

/-- The names a path is made of; slashes are repeated at will. -/
def components (path : Text) : List Text :=
  (path.splitOn '/').filter (· ≠ [])

/-- The names of a path in two parts. -/
theorem components_append (path path' : Text) :
    components (path ++ '/' :: path') = components path ++ components path' := by
  unfold components
  rw [List.splitOn_append_cons_self, List.filter_append]

/-- A path behind a slash has the same names. -/
theorem components_slash (path : Text) :
    components ('/' :: path) = components path :=
  components_append [] path

/-- A path with something behind its last slash has a name. -/
theorem components_ne_nil {path : Text} (hne : path ≠ [])
    (hslash : path.getLast? ≠ some '/') : components path ≠ [] := by
  intro h
  have hlast : path.getLast hne ≠ '/' := fun heq => hslash (by
    rw [List.getLast?_eq_some_getLast hne, heq])
  obtain ⟨l, hl, hmem⟩ :=
    (infix_splitOn_iff (w := [path.getLast hne]) (by simpa using hlast.symm)
      path).mpr ((List.singleton_infix_iff _ _).mpr (List.getLast_mem hne))
  have hl' : l ∈ components path := by
    refine List.mem_filter.mpr ⟨hl, decide_eq_true ?_⟩
    rintro rfl
    exact absurd (List.infix_nil.mp hmem) (List.cons_ne_nil _ _)
  rw [h] at hl'
  exact absurd hl' List.not_mem_nil

/-- The last name of a path. -/
def baseName (path : Text) : Text := (components path).getLastD []

/-! ## Walking -/

/-- The directory a place is, or a link to a directory leads to, which is one
step only. -/
def enter (t : FileTree) (p : Place) : Option Place :=
  match t.node p with
  | some .dir => some p
  | some (.link q) => if t.node q = some .dir then some q else none
  | _ => none

/-- One name of a path. -/
def step (t : FileTree) (d : Place) (c : Text) : Option Place :=
  if c = ".".toList then some d
  else if c = "..".toList then some d.tail
  else t.enter (c :: d)

/-- A sequence of names. -/
def walk (t : FileTree) (d : Place) (cs : List Text) : Option Place :=
  cs.foldlM t.step d

@[simp] theorem walk_nil (t : FileTree) (d : Place) : t.walk d [] = some d := rfl

/-- **A path in two parts is walked one part after the other.** -/
theorem walk_append (t : FileTree) (d : Place) (cs cs' : List Text) :
    t.walk d (cs ++ cs') = (t.walk d cs).bind fun d' => t.walk d' cs' :=
  List.foldlM_append

/-- The last name of a walk. -/
theorem walk_concat (t : FileTree) (d : Place) (cs : List Text) (c : Text) :
    t.walk d (cs ++ [c]) = (t.walk d cs).bind fun d' => t.step d' c := by
  rw [walk_append]
  refine congrArg (Option.bind _) (funext fun d' => ?_)
  exact Option.bind_fun_some (t.step d' c)

/-- Fewer ways in, fewer steps. -/
theorem step_mono (h : ∀ p q, t'.enter p = some q → t.enter p = some q)
    (hs : t'.step d c = some d') : t.step d c = some d' := by
  unfold step at hs ⊢
  by_cases hdot : c = ".".toList
  · rw [if_pos hdot] at hs ⊢
    exact hs
  · by_cases hup : c = "..".toList
    · rw [if_neg hdot, if_pos hup] at hs ⊢
      exact hs
    · rw [if_neg hdot, if_neg hup] at hs ⊢
      exact h _ _ hs

/-- **Fewer ways in, fewer walks.** -/
theorem walk_mono (h : ∀ p q, t'.enter p = some q → t.enter p = some q)
    {cs : List Text} (hw : t'.walk d cs = some d') : t.walk d cs = some d' := by
  induction cs using List.reverseRecOn generalizing d' with
  | nil => exact hw
  | append_singleton cs c ih =>
    rw [walk_concat] at hw ⊢
    obtain ⟨e, he, hstep⟩ := Option.bind_eq_some_iff.mp hw
    rw [ih he, Option.bind_some]
    exact step_mono h hstep

/-- A walk only asks where it can go in. -/
theorem walk_congr (h : t'.enter = t.enter) : t'.walk = t.walk := by
  unfold walk step
  rw [h]

/-- Where a path begins. -/
def origin (cwd : Place) (path : Text) : Place :=
  if path.head? = some '/' then [] else cwd

/-- The directory a path leads to, from the current one. -/
def dirAt (t : FileTree) (cwd : Place) (path : Text) : Option Place :=
  t.walk (origin cwd path) (components path)

/-- Whether a name can be given to an entry of a directory. -/
def IsName (c : Text) : Prop := c ≠ ".".toList ∧ c ≠ "..".toList

instance : DecidablePred IsName := fun _ => inferInstanceAs (Decidable (_ ∧ _))

/-- **The entry a path names**, by its directory, which has to be there, and
its name, which need not. -/
def entry (t : FileTree) (cwd : Place) (path : Text) : Option (Place × Text) :=
  match (components path).getLast? with
  | none => none
  | some c =>
    if IsName c then
      (t.walk (origin cwd path) (components path).dropLast).map fun d => (d, c)
    else none

/-- An entry is the last step of its path. -/
theorem entry_eq_some_iff {path : Text} :
    t.entry cwd path = some (d, c) ↔ IsName c ∧ ∃ cs,
      components path = cs ++ [c] ∧ t.walk (origin cwd path) cs = some d := by
  unfold entry
  constructor
  · intro h
    split at h
    · exact absurd h (by simp)
    · next c' hlast =>
      obtain ⟨cs, hcs⟩ := List.getLast?_eq_some_iff.mp hlast
      rw [hcs, List.dropLast_concat] at h
      split at h
      · next hname =>
        obtain ⟨d', hd', heq⟩ := Option.map_eq_some_iff.mp h
        obtain ⟨rfl, rfl⟩ := Prod.mk.inj heq
        exact ⟨hname, cs, hcs, hd'⟩
      · exact absurd h (by simp)
  · rintro ⟨hname, cs, hcs, hd⟩
    rw [hcs, List.getLast?_concat, List.dropLast_concat, hd]
    exact if_pos hname

/-- A name that is an entry is stepped into. -/
theorem step_of_isName (hc : IsName c) : t.step d c = t.enter (c :: d) := by
  unfold step
  rw [if_neg hc.1, if_neg hc.2]

/-- **Where a path leads, it leads through its entry**, also if there are more
ways in by now, -/
theorem dirAt_of_entry {path : Text} (he : t.entry cwd path = some (d, c))
    (h : ∀ p q, t.enter p = some q → t'.enter p = some q) :
    t'.dirAt cwd path = t'.enter (c :: d) := by
  obtain ⟨hname, cs, hcs, hd⟩ := entry_eq_some_iff.mp he
  unfold dirAt
  rw [hcs, walk_concat, walk_mono h hd, Option.bind_some, step_of_isName hname]

/-- and if there are fewer. -/
theorem enter_of_dirAt {path : Text} (he : t.entry cwd path = some (d, c))
    (h : ∀ p q, t'.enter p = some q → t.enter p = some q)
    (hdir : t'.dirAt cwd path = some p) : t'.enter (c :: d) = some p := by
  obtain ⟨hname, cs, hcs, hd⟩ := entry_eq_some_iff.mp he
  unfold dirAt at hdir
  rw [hcs, walk_concat] at hdir
  obtain ⟨e, hw, hstep⟩ := Option.bind_eq_some_iff.mp hdir
  obtain rfl : e = d := Option.some.inj ((walk_mono h hw).symm.trans hd)
  rwa [step_of_isName hname] at hstep

/-- The file that is at a place, or that a link there leads to, again in one
step. -/
def fileAt (t : FileTree) (p : Place) : Option Place :=
  match t.node p with
  | some (.file _) => some p
  | some (.link q) =>
    match t.node q with
    | some (.file _) => some q
    | _ => none
  | _ => none

/-- **The file a path leads to.** -/
def resolve (t : FileTree) (cwd : Place) (path : Text) : Option Place :=
  if path.getLast? = some '/' then none
  else (t.entry cwd path).bind fun e => t.fileAt (e.2 :: e.1)

/-- What is in the file a path names; a link is not one. -/
def read (t : FileTree) (cwd : Place) (path : Text) : Option Text :=
  if path.getLast? = some '/' then none
  else (t.entry cwd path).bind fun e =>
    match t.node (e.2 :: e.1) with
    | some (.file content) => some content
    | _ => none

/-! ## Paths in two parts that lead to a file -/

/-- A path that can lead to a file: behind its last slash is a name. -/
structure FilePath (path : Text) : Prop where
  ne_nil : path ≠ []
  no_slash : path.getLast? ≠ some '/'
  isName : IsName (baseName path)

/-- The last of the names. -/
theorem FilePath.components_eq {path : Text} (h : FilePath path) :
    components path = (components path).dropLast ++ [baseName path] := by
  have hne := components_ne_nil h.ne_nil h.no_slash
  unfold baseName
  rw [List.getLastD_eq_getLast?, List.getLast?_eq_some_getLast hne,
    Option.getD_some, List.dropLast_concat_getLast hne]

/-- The last name of a path in two parts is that of the second one. -/
theorem FilePath.baseName_append {path : Text} (h : FilePath path) (dir : Text) :
    baseName (dir ++ '/' :: path) = baseName path := by
  unfold baseName
  rw [components_append, List.getLastD_eq_getLast?, List.getLastD_eq_getLast?,
    List.getLast?_append_of_ne_nil _ (components_ne_nil h.ne_nil h.no_slash)]

/-- What is behind the last slash of the whole path is behind the last one of
its second part. -/
theorem getLast?_append_slash (dir path : Text) :
    (dir ++ '/' :: path).getLast? = some (path.getLast?.getD '/') := by
  rw [List.getLast?_append, List.getLast?_cons]
  rfl

/-- The second part of a path that names an entry, and has no slash behind it,
can lead to a file. -/
theorem filePath_of_entry {dir path : Text} {e : Place × Text}
    (hslash : (dir ++ '/' :: path).getLast? ≠ some '/')
    (he : t.entry cwd (dir ++ '/' :: path) = some e) : FilePath path := by
  rw [getLast?_append_slash] at hslash
  have hne : path ≠ [] := fun hnil => hslash (by rw [hnil]; rfl)
  have hslash' : path.getLast? ≠ some '/' := fun hlast =>
    hslash (by rw [hlast]; rfl)
  obtain ⟨d, c⟩ := e
  obtain ⟨hname, cs, hcs, -⟩ := entry_eq_some_iff.mp he
  refine ⟨hne, hslash', ?_⟩
  have hlast := congrArg List.getLast? hcs
  rw [components_append, List.getLast?_append_of_ne_nil _
    (components_ne_nil hne hslash'), List.getLast?_concat] at hlast
  unfold baseName
  rw [List.getLastD_eq_getLast?, hlast]
  exact hname

/-- The second part of the path of a file can lead to one. -/
theorem filePath_of_read {dir path : Text}
    (h : t.read cwd (dir ++ '/' :: path) = some content) : FilePath path := by
  unfold read at h
  split at h
  · exact absurd h (by simp)
  · next hslash =>
    obtain ⟨e, he, -⟩ := Option.bind_eq_some_iff.mp h
    exact filePath_of_entry hslash he

/-- **The file a path in two parts leads to**: the first part leads to a
directory, and from there the second one leads to the file. -/
theorem resolve_join (t : FileTree) (cwd : Place) {dir path : Text}
    (hdir : dir ≠ []) (h : FilePath path) :
    t.resolve cwd (dir ++ '/' :: path)
      = ((t.dirAt cwd dir).bind fun d => t.walk d (components path).dropLast).bind
          fun d => t.fileAt (baseName path :: d) := by
  have horigin : origin cwd (dir ++ '/' :: path) = origin cwd dir := by
    unfold origin
    rw [List.head?_append_of_ne_nil _ hdir]
  have hslash : (dir ++ '/' :: path).getLast? ≠ some '/' := by
    rw [getLast?_append_slash, List.getLast?_eq_some_getLast h.ne_nil]
    exact fun hlast => h.no_slash ((List.getLast?_eq_some_getLast h.ne_nil).trans hlast)
  unfold resolve entry
  rw [if_neg hslash, horigin, components_append, h.components_eq,
    ← List.append_assoc, List.getLast?_concat, List.dropLast_concat]
  dsimp only
  rw [if_pos h.isName, walk_append, List.dropLast_concat, Option.bind_map]
  rfl

/-! ## Putting something at a place -/

/-- The tree with an entry of a directory replaced. -/
def set (t : FileTree) (d : Place) (c : Text) (n : Option Node) : FileTree where
  node := Function.update t.node (c :: d) n
  root := by
    rw [Function.update_of_ne (List.cons_ne_nil c d).symm]
    exact t.root

variable {n : Option Node}

@[simp] theorem set_node_self (t : FileTree) (d : Place) (c : Text)
    (n : Option Node) : (t.set d c n).node (c :: d) = n := by
  show Function.update t.node (c :: d) n (c :: d) = n
  rw [Function.update_self]

/-- The other places keep what they have. -/
theorem set_node_of_ne (h : p ≠ c :: d) :
    (t.set d c n).node p = t.node p := by
  show Function.update t.node (c :: d) n p = t.node p
  rw [Function.update_of_ne h]

/-- An entry that is replaced twice. -/
theorem set_set (t : FileTree) (d : Place) (c : Text) (n n' : Option Node) :
    (t.set d c n).set d c n' = t.set d c n' := by
  unfold set
  simp only [Function.update_idem]

/-- What it is to lead to a directory. -/
theorem enter_eq_some_iff :
    t.enter p = some q
      ↔ t.node q = some .dir ∧ (p = q ∨ t.node p = some (.link q)) := by
  unfold enter
  cases hp : t.node p with
  | none => grind
  | some n =>
    cases n with
    | dir => grind
    | file content => grind
    | link r => grind

/-- What it is to lead to a file. -/
theorem fileAt_eq_some_iff :
    t.fileAt p = some q ↔ (∃ content, t.node q = some (.file content))
      ∧ (p = q ∨ t.node p = some (.link q)) := by
  unfold fileAt
  cases hp : t.node p with
  | none => grind
  | some n =>
    cases n with
    | dir => grind
    | file content => grind
    | link r => grind

/-- Nothing leads into a file. -/
theorem enter_of_file (h : t.node p = some (.file content)) :
    t.enter p = none := by
  unfold enter
  rw [h]

/-- **Putting a file somewhere opens no ways**, -/
theorem enter_of_enter_set_file
    (h : (t.set d c (some (.file content))).enter p = some q) :
    t.enter p = some q := by
  rw [enter_eq_some_iff] at h ⊢
  have hkeep : ∀ r n, (t.set d c (some (.file content))).node r = some n →
      n ≠ .file content → t.node r = some n := by
    intro r n hr hn
    by_cases hrd : r = c :: d
    · rw [hrd, set_node_self] at hr
      exact absurd (Option.some.inj hr).symm hn
    · rwa [set_node_of_ne hrd] at hr
  refine ⟨hkeep q _ h.1 Node.noConfusion, h.2.imp_right fun hp => ?_⟩
  exact hkeep p _ hp Node.noConfusion

/-- and closes those that lead through its place. -/
theorem enter_set_file (t : FileTree) (d : Place) (c content : Text) :
    (t.set d c (some (.file content))).enter = (t.set d c none).enter := by
  have hiff : ∀ r n, n ≠ .file content →
      ((t.set d c (some (.file content))).node r = some n
        ↔ (t.set d c none).node r = some n) := by
    intro r n hn
    by_cases hrd : r = c :: d
    · rw [hrd, set_node_self, set_node_self]
      exact iff_of_false (fun h => hn (Option.some.inj h).symm) (by simp)
    · rw [set_node_of_ne hrd, set_node_of_ne hrd]
  funext p
  refine Option.ext fun q => ?_
  rw [enter_eq_some_iff, enter_eq_some_iff, hiff q _ Node.noConfusion,
    hiff p _ Node.noConfusion]

/-- Taking away what leads to no directory closes no ways. -/
theorem enter_set_none (h : t.enter (c :: d) = none) :
    (t.set d c none).enter = t.enter := by
  have hne : ∀ p q, t.enter p = some q → p ≠ c :: d := by
    rintro _ q hp rfl
    rw [h] at hp
    exact absurd hp (by simp)
  have hkeep : ∀ p n, (t.set d c none).node p = some n → t.node p = some n := by
    intro p n hp
    by_cases hpd : p = c :: d
    · rw [hpd, set_node_self] at hp
      exact absurd hp (by simp)
    · rwa [set_node_of_ne hpd] at hp
  funext p
  refine Option.ext fun q => ⟨fun hq => ?_, fun hq => ?_⟩
  · rw [enter_eq_some_iff] at hq ⊢
    exact ⟨hkeep q _ hq.1, hq.2.imp_right (hkeep p _)⟩
  · have hdir := (enter_eq_some_iff.mp hq).1
    have hself : t.enter q = some q := enter_eq_some_iff.mpr ⟨hdir, Or.inl rfl⟩
    rw [enter_eq_some_iff, set_node_of_ne (hne q q hself),
      set_node_of_ne (hne p q hq)]
    exact enter_eq_some_iff.mp hq

/-- A new directory closes no ways. -/
theorem enter_set_dir (hnone : t.node (c :: d) = none)
    (h : t.enter p = some q) : (t.set d c (some .dir)).enter p = some q := by
  have hne : ∀ r n, t.node r = some n → r ≠ c :: d := by
    rintro _ n hr rfl
    rw [hnone] at hr
    exact absurd hr (by simp)
  rw [enter_eq_some_iff] at h ⊢
  rw [set_node_of_ne (hne q _ h.1)]
  refine ⟨h.1, h.2.imp_right fun hp => ?_⟩
  rwa [set_node_of_ne (hne p _ hp)]

/-- A path whose entry has become a file leads to no directory. -/
theorem dirAt_set_file {path : Text} (he : t.entry cwd path = some (d, c)) :
    (t.set d c (some (.file content))).dirAt cwd path = none := by
  refine Option.eq_none_iff_forall_ne_some.mpr fun p hp => ?_
  have henter := enter_of_dirAt he (fun _ _ => enter_of_enter_set_file) hp
  rw [enter_of_file (set_node_self t d c _)] at henter
  exact absurd henter (by simp)

/-- **What leads to a file that has been put somewhere**: its place, and the
links to it. -/
theorem fileAt_set_file :
    (t.set d c (some (.file content))).fileAt p = some (c :: d)
      ↔ p = c :: d ∨ t.node p = some (.link (c :: d)) := by
  rw [fileAt_eq_some_iff, set_node_self]
  by_cases hp : p = c :: d
  · exact iff_of_true ⟨⟨content, rfl⟩, Or.inl hp⟩ (Or.inl hp)
  · rw [set_node_of_ne hp]
    exact and_iff_right ⟨content, rfl⟩

/-! ## Trees without links -/

/-- **No links**: a place is found by its own names only. -/
def NoLinks (t : FileTree) : Prop := ∀ p q, t.node p ≠ some (.link q)

/-- Anything but a link can be put somewhere. -/
theorem NoLinks.set (ht : t.NoLinks) (hn : ∀ q, n ≠ some (.link q)) :
    (t.set d c n).NoLinks := by
  intro p q hp
  by_cases hpd : p = c :: d
  · rw [hpd, set_node_self] at hp
    exact hn q hp
  · rw [set_node_of_ne hpd] at hp
    exact ht p q hp

/-- **Names lead down** where there are no links: no sequence of them leads
back. -/
theorem NoLinks.walk_eq (ht : t.NoLinks) {cs : List Text}
    (hcs : ∀ c ∈ cs, IsName c) (hw : t.walk d cs = some d') :
    d' = cs.reverse ++ d := by
  induction cs using List.reverseRecOn generalizing d' with
  | nil => exact (Option.some.inj hw).symm
  | append_singleton cs c ih =>
    rw [walk_concat] at hw
    obtain ⟨e, he, hstep⟩ := Option.bind_eq_some_iff.mp hw
    obtain rfl := ih (fun c' hc' => hcs c' (List.mem_append_left [c] hc')) he
    rw [step_of_isName (hcs c (List.mem_append_right cs List.mem_cons_self))]
      at hstep
    obtain rfl := (enter_eq_some_iff.mp hstep).2.resolve_right (ht _ _)
    rw [List.reverse_append]
    rfl

end FileTree
