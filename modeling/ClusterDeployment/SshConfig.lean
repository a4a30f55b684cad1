import ClusterDeployment.Ensure
import ClusterDeployment.Text

/-!
# Stanzas of `.ssh/config`

The file is written with one notion of what it holds and read with another.
`init` appends the stanza of a server unless some line *contains* its name;
`ssh` goes by the first line that *is* `Host` and the name. The two differ
for a name that is a part of another one, of the address of another one, or
of the keyword `HostName`.

For the writing all that counts is that a name is found once its stanza is
there and stays found (`lawful`): the rest is `Ensure`. For the reading, a
file of nothing but stanzas resolves exactly the names whose stanzas it has
(`resolve_stanzas`), a server to its own address exactly if its stanza is there
(`resolve_eq_address_iff`). Which names are found in such a file is
`infix_stanzas_iff`.
-/

namespace SshConfig

open Ensure

/-- The characters of a host name. -/
def isHostChar (c : Char) : Bool := c.isAlphanum || c == '-' || c == '.'

/-- **A host name.** -/
@[ext] structure HostName where
  name : Text
  ne_nil : name ≠ []
  isHostChar_of_mem : ∀ c ∈ name, isHostChar c = true
  deriving DecidableEq

/-- `contains`: some line of the file has the text as a part. -/
def contains (file t : Text) : Bool :=
  (file.splitOn '\n').any fun line => decide (t <:+: line)

/-- What `init` appends for a server. -/
def HostName.stanza (server : HostName) : Text :=
  "Host ".toList ++ server.name ++ "\n  HostName ".toList ++ server.name
    ++ ".or1".toList

/-- The address a stanza gives. -/
def HostName.address (server : HostName) : Text := server.name ++ ".or1".toList

/-- What a line gives for the keyword `HostName`. -/
def hostNameOf (line : Text) : Option Text :=
  if "  HostName ".toList <+: line then
    some (line.drop "  HostName ".toList.length)
  else none

/-- **What `ssh` makes of a name**: the stanza it uses is the first one for
exactly that name, up to the next one, and the address is the first in it. -/
def resolve (file name : Text) : Option Text :=
  match (file.splitOn '\n').dropWhile fun line => line != "Host ".toList ++ name with
  | [] => none
  | _ :: lines =>
    (lines.takeWhile fun line => !("Host ".toList).isPrefixOf line).findSome? hostNameOf

variable {server : HostName} {file : Text}

/-! ## Writing -/

/-- A separator is not part of a name. -/
theorem HostName.not_mem {c : Char} (hc : isHostChar c = false) :
    c ∉ server.name := by
  intro hmem
  rw [server.isHostChar_of_mem c hmem] at hc
  exact Bool.noConfusion hc

/-- A name lies in a line of the file exactly where it lies in the file: there
is no end of a line in it. -/
theorem contains_iff : contains file server.name = true ↔ server.name <:+: file := by
  unfold contains
  rw [← infix_splitOn_iff (server.not_mem (c := '\n') rfl) file]
  simp

/-- The file with the stanza of a server at its end. -/
def addStanza (file : Text) (server : HostName) : Text :=
  file ++ server.stanza ++ "\n".toList

/-- **Stanzas are found and stay found.** -/
theorem lawful :
    Lawful (fun file (server : HostName) => server.name <:+: file) addStanza where
  found_add file server := by
    unfold addStanza HostName.stanza
    refine List.IsInfix.trans ?_ (List.prefix_append _ _).isInfix
    refine List.IsInfix.trans ?_ (List.suffix_append file _).isInfix
    exact ⟨"Host ".toList ++ server.name ++ "\n  HostName ".toList,
      ".or1".toList, rfl⟩
  mono file server server' h := by
    unfold addStanza
    rw [List.append_assoc]
    exact h.trans (List.prefix_append file _).isInfix

/-- The stanzas of some servers, each with its line end. -/
def stanzas (servers : List HostName) : Text :=
  servers.flatMap fun server => server.stanza ++ "\n".toList

theorem stanzas_cons (server : HostName) (servers : List HostName) :
    stanzas (server :: servers)
      = server.stanza ++ "\n".toList ++ stanzas servers := rfl

/-- Adding stanzas one after the other. -/
theorem foldl_addStanza (file : Text) (servers : List HostName) :
    servers.foldl addStanza file = file ++ stanzas servers := by
  induction servers generalizing file with
  | nil => exact (List.append_nil file).symm
  | cons server servers ih =>
    rw [List.foldl_cons, ih, stanzas_cons]
    unfold addStanza
    rw [List.append_assoc, List.append_assoc, List.append_assoc]

/-- A stanza, cut at its separators. -/
theorem stanza_append (server : HostName) (rest : Text) :
    server.stanza ++ "\n".toList ++ rest
      = "Host".toList ++ ' ' :: (server.name ++ '\n' :: ([] ++ ' ' :: ([] ++ ' ' ::
        ("HostName".toList ++ ' ' :: (server.address ++ '\n' :: rest))))) := by
  unfold HostName.stanza HostName.address
  simp only [List.append_assoc]
  rfl

/-- **Which names are found in a file of stanzas**: the parts of the keyword,
and those of the address of one of its servers. -/
theorem infix_stanzas_iff (server : HostName) (servers : List HostName) :
    server.name <:+: stanzas servers
      ↔ ∃ s ∈ servers, server.name <:+: "HostName".toList
        ∨ server.name <:+: s.address := by
  have hblank := server.not_mem (c := ' ') rfl
  have hline := server.not_mem (c := '\n') rfl
  have hnil : ¬ server.name <:+: [] := by
    rw [List.infix_nil]
    exact server.ne_nil
  induction servers with
  | nil => exact iff_of_false hnil (by simp)
  | cons s servers ih =>
    rw [stanzas_cons, stanza_append, infix_append_cons_iff hblank,
      infix_append_cons_iff hline, infix_append_cons_iff hblank,
      infix_append_cons_iff hblank, infix_append_cons_iff hblank,
      infix_append_cons_iff hline]
    constructor
    · rintro (h | h | h | h | h | h | h)
      · exact ⟨s, List.mem_cons_self,
          Or.inl (h.trans (List.prefix_append "Host".toList "Name".toList).isInfix)⟩
      · exact ⟨s, List.mem_cons_self,
          Or.inr (h.trans (List.prefix_append s.name ".or1".toList).isInfix)⟩
      · exact absurd h hnil
      · exact absurd h hnil
      · exact ⟨s, List.mem_cons_self, Or.inl h⟩
      · exact ⟨s, List.mem_cons_self, Or.inr h⟩
      · obtain ⟨s', hs', h⟩ := ih.mp h
        exact ⟨s', List.mem_cons_of_mem s hs', h⟩
    · rintro ⟨s', hs', h⟩
      obtain h | h := h
      · exact Or.inr (Or.inr (Or.inr (Or.inr (Or.inl h))))
      · obtain rfl | hs' := List.mem_cons.mp hs'
        · exact Or.inr (Or.inr (Or.inr (Or.inr (Or.inr (Or.inl h)))))
        · exact Or.inr (Or.inr (Or.inr (Or.inr (Or.inr (Or.inr
            (ih.mpr ⟨s', hs', Or.inr h⟩))))))

/-! ## Reading -/

/-- The two lines of a stanza. -/
def stanzaLines (server : HostName) : List Text :=
  ["Host ".toList ++ server.name, "  HostName ".toList ++ server.address]

/-- The lines of a file of stanzas. -/
theorem splitOn_stanzas (servers : List HostName) :
    (stanzas servers).splitOn '\n' = servers.flatMap stanzaLines ++ [[]] := by
  have hmem : ∀ (s : HostName) (t : Text), '\n' ∉ t → '\n' ∉ t ++ s.name :=
    fun s t ht hs => (List.mem_append.mp hs).elim ht (s.not_mem rfl)
  induction servers with
  | nil => rfl
  | cons s servers ih =>
    have hsplit : s.stanza ++ "\n".toList ++ stanzas servers
        = ("Host ".toList ++ s.name) ++ '\n' ::
          (("  HostName ".toList ++ s.address) ++ '\n' :: stanzas servers) := by
      unfold HostName.stanza HostName.address
      simp only [List.append_assoc]
      rfl
    rw [stanzas_cons, hsplit,
      List.splitOn_append_cons_self_of_not_mem (hmem s _ (by decide)),
      List.splitOn_append_cons_self_of_not_mem, ih]
    · rfl
    · unfold HostName.address
      rw [← List.append_assoc]
      intro h
      exact (List.mem_append.mp h).elim (hmem s _ (by decide)) (by decide)

/-- **A file of stanzas resolves the names of its servers**, and no others. -/
theorem resolve_stanzas (name : Text) (servers : List HostName) :
    resolve (stanzas servers) name
      = if ∃ s ∈ servers, s.name = name then some (name ++ ".or1".toList)
        else none := by
  unfold resolve
  rw [splitOn_stanzas]
  induction servers with
  | nil =>
    rw [if_neg (by simp)]
    rfl
  | cons s servers ih =>
    have hlines : (s :: servers).flatMap stanzaLines ++ [[]]
        = ("Host ".toList ++ s.name) :: ("  HostName ".toList ++ s.address) ::
          (servers.flatMap stanzaLines ++ [[]]) := rfl
    rw [hlines]
    by_cases hs : s.name = name
    · -- this is the stanza, and its address is on its first line
      rw [if_pos ⟨s, List.mem_cons_self, hs⟩, ← hs,
        List.dropWhile_cons_of_neg (by simp)]
      rfl
    · have hne : "Host ".toList ++ s.name ≠ "Host ".toList ++ name :=
        fun h => hs (List.append_cancel_left h)
      rw [List.dropWhile_cons_of_pos (by simpa using hne),
        List.dropWhile_cons_of_pos rfl, ih]
      refine if_congr ?_ rfl rfl
      simp [hs]

/-- **A server is resolved to its own address** exactly if its stanza is
there. -/
theorem resolve_eq_address_iff (server : HostName) (servers : List HostName) :
    resolve (stanzas servers) server.name = some server.address
      ↔ server ∈ servers := by
  rw [resolve_stanzas]
  constructor
  · intro h
    split at h
    · next hex =>
      obtain ⟨s, hs, hname⟩ := hex
      exact HostName.ext hname ▸ hs
    · exact absurd h (Option.some_ne_none _).symm
  · intro h
    rw [if_pos ⟨server, h, rfl⟩]
    rfl

/-! ## Written and read -/

/-- **Every name can be told from what is written before it**: the first time
it comes up it is no part of the address of an earlier name, and only the very
first one can be a part of the keyword. -/
def Distinguishable (servers : List HostName) : Prop :=
  ∀ before s after, servers = before ++ s :: after → s ∉ before →
    ∀ s' ∈ before, ¬ s.name <:+: "HostName".toList ∧ ¬ s.name <:+: s'.address

/-- The servers whose stanzas are added to an empty file. -/
abbrev stanzasAdded (servers : List HostName) : List HostName :=
  added (fun file (server : HostName) => server.name <:+: file) addStanza []
    servers

/-- The file that servers are added to, from an empty one. -/
theorem ensureAll_nil_eq (servers : List HostName) :
    ensureAll (fun file (server : HostName) => server.name <:+: file) addStanza
        [] servers
      = stanzas (stanzasAdded servers) := by
  rw [ensureAll_eq_foldl, foldl_addStanza]
  rfl

/-- **When everything that is written is read**: every server gets its stanza
exactly if every name can be told from what is written before it. -/
theorem forall_mem_stanzasAdded_iff (servers : List HostName) :
    (∀ s ∈ servers, s ∈ stanzasAdded servers) ↔ Distinguishable servers := by
  rw [lawful.forall_mem_added_iff]
  constructor
  · intro h
    have hall := (lawful.forall_mem_added_iff [] servers).mpr h
    intro before s after hsplit hs s' hs'
    have hfound := h before s after hsplit hs
    have hadded : s' ∈ stanzasAdded before := by
      have hmem := hall s' (hsplit ▸ List.mem_append_left (s :: after) hs')
      rw [hsplit] at hmem
      exact lawful.mem_added_of_append hs' hmem
    rw [ensureAll_nil_eq, infix_stanzas_iff] at hfound
    exact not_or.mp fun hor => hfound ⟨s', hadded, hor⟩
  · intro h before s after hsplit hs hfound
    rw [ensureAll_nil_eq, infix_stanzas_iff] at hfound
    obtain ⟨s', hs', hor⟩ := hfound
    have hmem := (added_sublist [] before).subset hs'
    exact (not_or.mpr (h before s after hsplit hs s' hmem)) hor

end SshConfig
