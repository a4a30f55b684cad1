import Mathlib.Data.Char
import Mathlib.Data.List.Lex
import ClusterDeployment.HdfsWorker

/-!
# What `hdfs-site.xml` is understood as

The template is a list of properties, and whoever reads the file has to find
the same things in it. Several values are lists that are joined by commas. With
two NameNodes there is more to it: the hosts are given identifiers, without the
dots that are between the parts of a property's name, the identifiers are listed
in one property, and each of them goes into the names of two others. A client
goes this way back from the name of the service; what it is to do so is assumed
of it (`Client.GoesByService`).

It gets to all the hosts exactly if no two of them have the same identifier
(`resolve_iff`): a dot and a hyphen are told apart in a name, but not in an
identifier. And the directories that a DataNode finds in the file are those that
the class of the workers has made for it (`dataDirs_there`).
-/

namespace Hdfs

open ResourceGraph Run

/-! ## The template -/

/-- A property, with its name and its value. -/
abbrev Property : Type := Text × Text

/-- `sort`, of texts -/
def sorted (xs : List Text) : List Text := xs.mergeSort fun x y => decide (x ≤ y)

/-- `join` -/
def join (sep : Text) (xs : List Text) : Text := sep.intercalate xs

/-- `namenode_host_to_id`, which is `tr('.', '-')` -/
def namenodeHostToId (host : Text) : Text :=
  host.map fun c => if c = '.' then '-' else c

/-- The path of a place. -/
def pathOf (p : Place) : Text := p.reverse.flatMap fun c => '/' :: c

/-- **The parameters** of the template. -/
structure Site where
  useYarn : Bool := true
  namenodeHosts : List Text
  nameserviceId : Option Text := none
  journalnodeHosts : List Text := []
  journalnodeEditsDir : Text := []
  nameDirs : List Text
  mounts : Option (List Text) := none
  dataPath : Text := "hdfs/dn".toList
  blockSize : ℕ := 67108864
  enableWebhdfs : Bool := true
  configDirectory : Text := "/etc/hadoop/conf".toList

namespace Site

variable (s : Site)

/-- `$primary_namenode_host` -/
def primaryNamenodeHost : Text := s.namenodeHosts.headD []

/-- A list of paths, as a value. -/
def fileUris (paths : List Text) : Text :=
  "file://".toList ++ join ",file://".toList paths

/-- The property with the address of a NameNode's RPC server. -/
def rpcAddress (nameserviceId host : Text) : Property :=
  ("dfs.namenode.rpc-address.".toList ++ nameserviceId ++ ".".toList ++ namenodeHostToId host,
    host ++ ":8020".toList)

/-- The property with the address of a NameNode's web interface. -/
def httpAddress (nameserviceId host : Text) : Property :=
  ("dfs.namenode.http-address.".toList ++ nameserviceId ++ ".".toList
      ++ namenodeHostToId host,
    host ++ ":50070".toList)

/-- The properties with the names of a service and its NameNodes. -/
def nameservice (nameserviceId : Text) : List Property :=
  [("dfs.nameservices".toList, nameserviceId),
    ("dfs.ha.namenodes.".toList ++ nameserviceId,
      join ",".toList ((sorted s.namenodeHosts).map namenodeHostToId))]

/-- The class with which a client goes from one NameNode to the other. -/
def failoverProvider : Text :=
  "org.apache.hadoop.hdfs.server.namenode.ha.ConfiguredFailoverProxyProvider".toList

/-- The properties for two NameNodes. -/
def haProperties (nameserviceId : Text) : List Property :=
  s.nameservice nameserviceId
  ++ (sorted s.namenodeHosts).map (rpcAddress nameserviceId)
  ++ (sorted s.namenodeHosts).map (httpAddress nameserviceId)
  ++ [("dfs.namenode.shared.edits.dir".toList, "qjournal://".toList
      ++ join ":8485;".toList (sorted s.journalnodeHosts) ++ ":8485/".toList ++ nameserviceId),
    ("dfs.journalnode.edits.dir".toList, s.journalnodeEditsDir),
    ("dfs.client.failover.proxy.provider.".toList ++ nameserviceId, failoverProvider),
    ("dfs.ha.fencing.methods".toList, "shell(/bin/true)".toList)]

/-- The text of a truth value. -/
def boolText (b : Bool) : Text := if b then "true".toList else "false".toList

/-- The property with the directories of a DataNode, if there are mounts. -/
def mountProperties : List Property :=
  (s.mounts.map fun mounts => [("dfs.datanode.data.dir".toList,
    fileUris ((sorted mounts).map fun mount => mount ++ "/".toList ++ s.dataPath))]).getD []

/-- `hdfs-site.xml` -/
def hdfsSite : List Property :=
  [("dfs.permissions.superusergroup".toList, "hadoop".toList),
    ("dfs.permissions".toList, "false".toList)]
  ++ (s.nameserviceId.map s.haProperties).getD []
  ++ [("dfs.namenode.name.dir".toList, fileUris s.nameDirs)]
  ++ s.mountProperties
  ++ [("dfs.block.size".toList, s.blockSize.repr.toList),
    ("dfs.webhdfs.enabled".toList, boolText s.enableWebhdfs),
    ("dfs.hosts.exclude".toList, s.configDirectory ++ "/hosts.exclude".toList)]

/-- The host part of the default file system in `core-site.xml`. -/
def authority : Text := s.nameserviceId.getD s.primaryNamenodeHost

/-- The first property of `core-site.xml`. -/
def defaultFs : Property :=
  (if s.useYarn then "fs.defaultFS".toList else "fs.default.name".toList,
    "hdfs://".toList ++ s.authority ++ "/".toList)

end Site

/-! ## Reading it -/

/-- The value of a property: the last one counts. -/
def lookup (name : Text) (ps : List Property) : Option Text :=
  lastWrite (fun p : Property => if p.1 = name then some p.2 else none) ps

/-- The values that are joined by commas. -/
def items (value : Text) : List Text := value.splitOn ','

/-- A part of the name of a host: letters, digits, and hyphens inside. -/
def isLabel (l : Text) : Bool :=
  l.all (fun c => c.isAlphanum || c == '-') && l.head?.any Char.isAlphanum
    && l.getLast?.any Char.isAlphanum

/-- The name of a host, as a URI has it: the last part begins with a letter. -/
def isHostName (host : Text) : Bool :=
  (host.splitOn '.').all isLabel
    && ((host.splitOn '.').getLastD []).head?.any Char.isAlpha

/-- A name that a service can have: a URI takes it for that of a host. -/
def isServiceName (ns : Text) : Bool := isLabel ns && ns.head?.any Char.isAlpha

/-- An identifier that can be a part of the name of a property. -/
def isIdentifier (i : Text) : Bool :=
  i ≠ [] && i.all (fun c => c.isAlphanum || c == '-')

/-- A client of HDFS: the addresses of the NameNodes it goes to, for the default
file system and the properties of `hdfs-site.xml`. -/
abbrev Client : Type := Text → List Property → List Text

/-- **What is assumed of a client**: for a default file system that names a
service with a provider for the failover, it goes to the addresses of the
identifiers that are listed for the service, and to no others. -/
def Client.GoesByService (client : Client) : Prop :=
  ∀ (ps : List Property) (ns : Text) (ids : List Text), isServiceName ns = true →
    lookup "dfs.nameservices".toList ps = some ns →
    lookup ("dfs.client.failover.proxy.provider.".toList ++ ns) ps
      = some Site.failoverProvider →
    ids ≠ [] → (∀ i ∈ ids, isIdentifier i = true) →
    lookup ("dfs.ha.namenodes.".toList ++ ns) ps = some (join ",".toList ids) →
    (∀ i ∈ ids, ∀ address,
      lookup ("dfs.namenode.rpc-address.".toList ++ ns ++ ".".toList ++ i) ps
          = some address →
        ∃ host, isHostName host = true ∧ address = host ++ ":8020".toList) →
    ∀ address, address ∈ client ("hdfs://".toList ++ ns ++ "/".toList) ps
      ↔ ∃ i ∈ ids,
        lookup ("dfs.namenode.rpc-address.".toList ++ ns ++ ".".toList ++ i) ps
          = some address

/-- **What a DataNode makes of it**: its directories. -/
def dataDirs (ps : List Property) : List Text :=
  ((lookup "dfs.datanode.data.dir".toList ps).map fun value =>
    (items value).map (List.drop "file://".toList.length)).getD []

/-! ## Finding a property -/

/-- What tells the properties of the template apart. -/
def key (name : Text) : Text := name.take 14

/-- Only the properties with the same key count. -/
theorem lookup_filter (name : Text) (ps : List Property) :
    lookup name (ps.filter fun p => key p.1 = key name) = lookup name ps := by
  unfold lookup lastWrite
  rw [List.filterMap_filter]
  refine congrArg List.getLast? (List.filterMap_congr fun p _ => ?_)
  by_cases h : p.1 = name
  · rw [if_pos h, if_pos (decide_eq_true (congrArg key h))]
  · rw [if_neg h, ite_self]

theorem lookup_singleton (name value : Text) :
    lookup name [(name, value)] = some value := by
  simp [lookup, lastWrite]

variable {s : Site} {ns : Text}

/-- A list of properties that all have a key, -/
theorem filter_map_of_key (k : Text) {f : Text → Property} (h : ∀ x, key (f x).1 = k)
    (xs : List Text) : (xs.map f).filter (fun p => key p.1 = k) = xs.map f := by
  refine List.filter_eq_self.mpr fun p hp => ?_
  obtain ⟨x, -, rfl⟩ := List.mem_map.mp hp
  exact decide_eq_true (h x)

/-- or that all have another one. -/
theorem filter_map_of_key_ne {k : Text} (k' : Text) {f : Text → Property}
    (h : ∀ x, key (f x).1 = k') (hk : k' ≠ k) (xs : List Text) :
    (xs.map f).filter (fun p => key p.1 = k) = [] := by
  refine List.filter_eq_nil_iff.mpr fun p hp => ?_
  obtain ⟨x, -, rfl⟩ := List.mem_map.mp hp
  rw [h x]
  exact fun heq => hk (of_decide_eq_true heq)

/-- **The properties a client goes by**: those of the service, and of the RPC
servers. -/
theorem filter_hdfsSite (hns : s.nameserviceId = some ns) {k : Text}
    (hk : k ∈ ["dfs.nameservic".toList, "dfs.ha.namenod".toList, "dfs.namenode.r".toList]) :
    s.hdfsSite.filter (fun p => key p.1 = k)
      = (s.nameservice ns).filter (fun p => key p.1 = k)
        ++ ((sorted s.namenodeHosts).map (Site.rpcAddress ns)).filter
          (fun p => key p.1 = k) := by
  have hhttp : ∀ k' : Text, "dfs.namenode.h".toList ≠ k' →
      ((sorted s.namenodeHosts).map (Site.httpAddress ns)).filter
        (fun p => key p.1 = k') = [] :=
    fun k' hk' => filter_map_of_key_ne "dfs.namenode.h".toList (fun _ => rfl) hk' _
  unfold Site.hdfsSite Site.haProperties Site.mountProperties
  rw [hns]
  simp only [List.mem_cons, List.not_mem_nil, or_false] at hk
  obtain rfl | rfl | rfl := hk
  all_goals
    simp only [List.filter_append, Option.map_some, Option.getD_some]
    rw [hhttp _ (by decide)]
    cases s.mounts
    all_goals
      show [] ++ (_ ++ _ ++ [] ++ []) ++ [] ++ [] ++ [] = _
      simp only [List.append_nil, List.nil_append]

theorem lookup_nameservices (hns : s.nameserviceId = some ns) :
    lookup "dfs.nameservices".toList s.hdfsSite = some ns := by
  rw [← lookup_filter, show key "dfs.nameservices".toList = "dfs.nameservic".toList from rfl,
    filter_hdfsSite hns (by decide),
    filter_map_of_key_ne "dfs.namenode.r".toList (fun _ => rfl) (by decide)]
  rfl

theorem lookup_namenodes (hns : s.nameserviceId = some ns) :
    lookup ("dfs.ha.namenodes.".toList ++ ns) s.hdfsSite
      = some (join ",".toList ((sorted s.namenodeHosts).map namenodeHostToId)) := by
  rw [← lookup_filter, show key ("dfs.ha.namenodes.".toList ++ ns)
      = "dfs.ha.namenod".toList from rfl, filter_hdfsSite hns (by decide),
    filter_map_of_key_ne "dfs.namenode.r".toList (fun _ => rfl) (by decide)]
  exact lookup_singleton _ _

theorem lookup_provider (hns : s.nameserviceId = some ns) :
    lookup ("dfs.client.failover.proxy.provider.".toList ++ ns) s.hdfsSite
      = some Site.failoverProvider := by
  rw [← lookup_filter, show key ("dfs.client.failover.proxy.provider.".toList ++ ns)
    = "dfs.client.fai".toList from rfl]
  unfold Site.hdfsSite Site.haProperties Site.mountProperties
  rw [hns]
  simp only [List.filter_append, Option.map_some, Option.getD_some]
  rw [filter_map_of_key_ne "dfs.namenode.r".toList (fun _ => rfl) (by decide),
    filter_map_of_key_ne "dfs.namenode.h".toList (fun _ => rfl) (by decide)]
  cases s.mounts <;> exact lookup_singleton _ _

/-- **The address that belongs to an identifier** is that of the last host with
the identifier. -/
theorem lookup_rpcAddress (hns : s.nameserviceId = some ns) (i : Text) :
    lookup ("dfs.namenode.rpc-address.".toList ++ ns ++ ".".toList ++ i) s.hdfsSite
      = (lastWrite (fun host => if namenodeHostToId host = i then some host else none)
        (sorted s.namenodeHosts)).map fun host => host ++ ":8020".toList := by
  rw [← lookup_filter, show key ("dfs.namenode.rpc-address.".toList ++ ns ++ ".".toList ++ i)
      = "dfs.namenode.r".toList from rfl, filter_hdfsSite hns (by decide),
    filter_map_of_key "dfs.namenode.r".toList (fun _ => rfl)]
  have hnil : (s.nameservice ns).filter (fun p => key p.1 = "dfs.namenode.r".toList)
      = [] := rfl
  unfold lookup lastWrite
  rw [hnil, List.nil_append, List.filterMap_map, ← List.getLast?_map,
    List.map_filterMap]
  refine congrArg List.getLast? (List.filterMap_congr fun host _ => ?_)
  show (if "dfs.namenode.rpc-address.".toList ++ ns ++ ".".toList ++ namenodeHostToId host
      = "dfs.namenode.rpc-address.".toList ++ ns ++ ".".toList ++ i then _ else _) = _
  by_cases hi : namenodeHostToId host = i
  · rw [hi, if_pos rfl, if_pos rfl]
    rfl
  · rw [if_neg fun h => hi (List.append_cancel_left h), if_neg hi]
    rfl

/-! ## What is understood -/

/-- What has been joined by commas is found again. -/
theorem items_join {xs : List Text} (hne : xs ≠ []) (h : ∀ x ∈ xs, ',' ∉ x) :
    items (join ",".toList xs) = xs :=
  List.splitOn_intercalate ',' h hne

theorem mem_sorted {x : Text} {xs : List Text} : x ∈ sorted xs ↔ x ∈ xs :=
  List.mem_mergeSort

/-- What the default file system is called with a service. -/
theorem defaultFs_of_nameservice (hns : s.nameserviceId = some ns) :
    s.defaultFs.2 = "hdfs://".toList ++ ns ++ "/".toList := by
  unfold Site.defaultFs Site.authority
  rw [hns]
  rfl

/-- The identifier of a host is one. -/
theorem isIdentifier_namenodeHostToId {host : Text} (h : isHostName host = true) :
    isIdentifier (namenodeHostToId host) = true := by
  have hlabels : ∀ l ∈ host.splitOn '.', isLabel l = true :=
    List.all_eq_true.mp (Bool.and_eq_true_iff.mp h).1
  have hne : host ≠ [] := by
    rintro rfl
    exact absurd (hlabels [] List.mem_cons_self) (by decide)
  refine Bool.and_eq_true_iff.mpr ⟨decide_eq_true fun hnil => hne
    (List.map_eq_nil_iff.mp hnil), List.all_eq_true.mpr fun c hc => ?_⟩
  obtain ⟨c', hc', rfl⟩ := List.mem_map.mp hc
  split
  · rfl
  · next hdot =>
    -- what is not a dot is in one of the parts
    obtain ⟨l, hl, hmem⟩ := (infix_splitOn_iff (w := [c']) (a := '.')
      (by simpa using Ne.symm hdot) host).mpr ((List.singleton_infix_iff _ _).mpr hc')
    have hlabel := Bool.and_eq_true_iff.mp (Bool.and_eq_true_iff.mp (hlabels l hl)).1
    exact List.all_eq_true.mp hlabel.1 c' ((List.singleton_infix_iff _ _).mp hmem)

/-- An identifier stands for a host that has it. -/
theorem of_lastWrite_id {hosts : List Text} {i host : Text}
    (h : lastWrite (fun host => if namenodeHostToId host = i then some host else none)
      hosts = some host) : host ∈ hosts ∧ namenodeHostToId host = i := by
  obtain ⟨host', hmem, hwrite⟩ := List.mem_filterMap.mp (List.mem_of_getLast? h)
  split at hwrite
  · next hi =>
    obtain rfl := Option.some.inj hwrite
    exact ⟨hmem, hi⟩
  · exact absurd hwrite.symm (Option.some_ne_none host)

/-- An identifier that is listed stands for a host. -/
theorem lastWrite_id_ne_none {hosts : List Text} {host : Text} (h : host ∈ hosts) :
    lastWrite (fun host' => if namenodeHostToId host' = namenodeHostToId host
      then some host' else none) hosts ≠ none := by
  intro hnone
  have hnil := List.getLast?_eq_none_iff.mp hnone
  have hmem : host ∈ hosts.filterMap fun host' =>
      if namenodeHostToId host' = namenodeHostToId host then some host' else none :=
    List.mem_filterMap.mpr ⟨host, h, if_pos rfl⟩
  rw [hnil] at hmem
  exact absurd hmem List.not_mem_nil

/-- The addresses that a client comes to. -/
theorem mem_client_iff {client : Client} (hclient : client.GoesByService)
    (hns : s.nameserviceId = some ns) (hname : isServiceName ns = true)
    (hhosts : ∀ host ∈ s.namenodeHosts, isHostName host = true) (hne : s.namenodeHosts ≠ [])
    (host : Text) :
    host ++ ":8020".toList ∈ client s.defaultFs.2 s.hdfsSite
      ↔ lastWrite (fun host' => if namenodeHostToId host' = namenodeHostToId host
          then some host' else none) (sorted s.namenodeHosts) = some host := by
  have hids : (sorted s.namenodeHosts).map namenodeHostToId ≠ [] := by
    obtain ⟨h, hh⟩ := List.exists_mem_of_ne_nil _ hne
    exact List.ne_nil_of_mem (List.mem_map_of_mem (mem_sorted.mpr hh))
  have hvalid : ∀ i ∈ (sorted s.namenodeHosts).map namenodeHostToId,
      isIdentifier i = true := by
    intro i hi
    obtain ⟨h, hh, rfl⟩ := List.mem_map.mp hi
    exact isIdentifier_namenodeHostToId (hhosts h (mem_sorted.mp hh))
  rw [defaultFs_of_nameservice hns, hclient s.hdfsSite ns _ hname (lookup_nameservices hns)
    (lookup_provider hns) hids hvalid (lookup_namenodes hns) ?_]
  · constructor
    · rintro ⟨i, -, hi⟩
      rw [lookup_rpcAddress hns] at hi
      obtain ⟨host', hlast, heq⟩ := Option.map_eq_some_iff.mp hi
      obtain rfl := List.append_cancel_right heq
      obtain ⟨-, rfl⟩ := of_lastWrite_id hlast
      exact hlast
    · intro hlast
      refine ⟨namenodeHostToId host, List.mem_map_of_mem (of_lastWrite_id hlast).1, ?_⟩
      rw [lookup_rpcAddress hns, hlast]
      rfl
  · intro i _ address hi
    rw [lookup_rpcAddress hns] at hi
    obtain ⟨host', hlast, rfl⟩ := Option.map_eq_some_iff.mp hi
    exact ⟨host', hhosts host' (mem_sorted.mp (of_lastWrite_id hlast).1), rfl⟩

/-- **A client finds all the NameNodes** – beginning with the default file system
– exactly if no two hosts have the same identifier. -/
theorem resolve_iff {client : Client} (hclient : client.GoesByService)
    (hns : s.nameserviceId = some ns) (hname : isServiceName ns = true)
    (hhosts : ∀ host ∈ s.namenodeHosts, isHostName host = true) :
    (∀ host ∈ s.namenodeHosts,
        host ++ ":8020".toList ∈ client s.defaultFs.2 s.hdfsSite)
      ↔ ∀ a ∈ s.namenodeHosts, ∀ b ∈ s.namenodeHosts,
        namenodeHostToId a = namenodeHostToId b → a = b := by
  have hiff : ∀ host ∈ s.namenodeHosts, _ := fun host hhost =>
    mem_client_iff hclient hns hname hhosts (List.ne_nil_of_mem hhost) host
  constructor
  · intro hall a ha b hb hid
    have hlast := (hiff a ha).mp (hall a ha)
    rw [hid, (hiff b hb).mp (hall b hb)] at hlast
    exact (Option.some.inj hlast).symm
  · intro hinj host hhost
    obtain ⟨host', hlast⟩ := Option.ne_none_iff_exists'.mp
      (lastWrite_id_ne_none (mem_sorted.mpr hhost))
    obtain ⟨hmem, hid⟩ := of_lastWrite_id hlast
    rw [hinj host' (mem_sorted.mp hmem) host hhost hid] at hlast
    exact (hiff host hhost).mpr hlast

/-- A client that looks up what it needs. -/
def resolve : Client := fun uri ps =>
  let ns := (uri.drop "hdfs://".toList.length).takeWhile (· ≠ '/')
  (items ((lookup ("dfs.ha.namenodes.".toList ++ ns) ps).getD [])).filterMap
    fun i => lookup ("dfs.namenode.rpc-address.".toList ++ ns ++ ".".toList ++ i) ps

theorem resolve_goesByService : Client.GoesByService resolve := by
  intro ps ns ids hname _ _ hne hvalid hids _ address
  have hns : ∀ c ∈ ns, decide (c ≠ '/') = true := by
    intro c hc
    refine decide_eq_true fun heq => ?_
    have hlabel := Bool.and_eq_true_iff.mp (Bool.and_eq_true_iff.mp
      (Bool.and_eq_true_iff.mp hname).1).1
    have hvalid := List.all_eq_true.mp hlabel.1 c hc
    rw [heq] at hvalid
    exact absurd hvalid (by decide)
  have hhost : (("hdfs://".toList ++ ns ++ "/".toList).drop
      "hdfs://".toList.length).takeWhile (· ≠ '/') = ns := by
    rw [List.append_assoc, List.drop_left, List.takeWhile_append_of_pos hns]
    exact List.append_nil ns
  have hcomma : ∀ i ∈ ids, ',' ∉ i := fun i hi hmem =>
    absurd (List.all_eq_true.mp (Bool.and_eq_true_iff.mp (hvalid i hi)).2 ',' hmem)
      (by decide)
  unfold resolve
  rw [hhost]
  show address ∈ (items ((lookup ("dfs.ha.namenodes.".toList ++ ns) ps).getD [])).filterMap _
    ↔ _
  rw [hids, Option.getD_some, items_join hne hcomma]
  exact List.mem_filterMap

/-- A service with these hosts. -/
def twoNamenodes (hosts : List Text) : Site where
  namenodeHosts := hosts
  nameserviceId := some "cluster".toList
  nameDirs := ["/raid/hadoop/name".toList]

/-- Of two hosts whose names differ by a hyphen for a dot only one is found. -/
theorem resolve_iff_twoNamenodes :
    (∀ host ∈ ["nn.one".toList, "nn.two".toList], host ++ ":8020".toList
        ∈ resolve (twoNamenodes ["nn.one".toList, "nn.two".toList]).defaultFs.2
          (twoNamenodes ["nn.one".toList, "nn.two".toList]).hdfsSite)
      ∧ ¬ ∀ host ∈ ["nn.one".toList, "nn-one".toList], host ++ ":8020".toList
        ∈ resolve (twoNamenodes ["nn.one".toList, "nn-one".toList]).defaultFs.2
          (twoNamenodes ["nn.one".toList, "nn-one".toList]).hdfsSite := by
  have hname : isServiceName "cluster".toList = true := by decide
  have hhosts : ∀ host ∈ ["nn.one".toList, "nn.two".toList, "nn-one".toList],
      isHostName host = true := by decide +kernel
  constructor
  · refine (resolve_iff (s := twoNamenodes ["nn.one".toList, "nn.two".toList])
      resolve_goesByService rfl hname fun host h => hhosts host ?_).mpr ?_
    · revert host
      unfold twoNamenodes
      decide
    · unfold twoNamenodes
      decide
  · intro h
    have hinj := (resolve_iff (s := twoNamenodes ["nn.one".toList, "nn-one".toList])
      resolve_goesByService rfl hname fun host hh => hhosts host (by
        revert host
        unfold twoNamenodes
        decide)).mp h
    revert hinj
    unfold twoNamenodes
    decide

/-! ## The directories of a DataNode -/

/-- The property with the directories of a DataNode is found. -/
theorem lookup_dataDir (mounts : List Text) (hm : s.mounts = some mounts) :
    lookup "dfs.datanode.data.dir".toList s.hdfsSite
      = some (Site.fileUris ((sorted mounts).map
        fun mount => mount ++ "/".toList ++ s.dataPath)) := by
  have hha : ∀ o : Option Text, ((o.map s.haProperties).getD []).filter
      (fun p => key p.1 = "dfs.datanode.d".toList) = [] := by
    intro o
    cases o with
    | none => rfl
    | some ns =>
      show (s.haProperties ns).filter _ = []
      unfold Site.haProperties
      simp only [List.filter_append]
      rw [filter_map_of_key_ne "dfs.namenode.r".toList (fun _ => rfl) (by decide),
        filter_map_of_key_ne "dfs.namenode.h".toList (fun _ => rfl) (by decide)]
      rfl
  rw [← lookup_filter, show key "dfs.datanode.data.dir".toList
    = "dfs.datanode.d".toList from rfl]
  unfold Site.hdfsSite Site.mountProperties
  rw [hm]
  simp only [List.filter_append, hha]
  exact lookup_singleton _ _

/-- The paths of a value are found again. -/
theorem items_fileUris {paths : List Text} (hne : paths ≠ [])
    (hcomma : ∀ path ∈ paths, ',' ∉ path) :
    (items (Site.fileUris paths)).map (List.drop "file://".toList.length) = paths := by
  have huris : ∀ xs : List Text, xs ≠ [] → Site.fileUris xs
      = join ",".toList (xs.map fun path => "file://".toList ++ path) := by
    intro xs
    induction xs with
    | nil => exact fun h => absurd rfl h
    | cons x xs ih =>
      intro _
      cases xs with
      | nil =>
        unfold Site.fileUris join
        rw [List.map_singleton, List.intercalate_singleton, List.intercalate_singleton]
      | cons y ys =>
        have hnext := ih (List.cons_ne_nil y ys)
        have hsep : ",file://".toList = ",".toList ++ "file://".toList := rfl
        unfold Site.fileUris join at hnext ⊢
        rw [List.intercalate_cons_cons, List.map_cons, List.map_cons,
          List.intercalate_cons_cons, ← List.map_cons, ← hnext, hsep]
        simp only [List.append_assoc]
  rw [huris paths hne, items_join (by simpa using hne) ?_, List.map_map]
  · refine (List.map_congr_left fun path _ => ?_).trans (List.map_id paths)
    exact List.drop_left
  · intro x hx hmem
    obtain ⟨path, hpath, rfl⟩ := List.mem_map.mp hx
    obtain hmem | hmem := List.mem_append.mp hmem
    · exact absurd hmem (by decide)
    · exact hcomma path hpath hmem

/-- A name that can be part of a path, and of a list of paths. -/
def IsName (c : Text) : Prop := c ≠ [] ∧ '/' ∉ c ∧ ',' ∉ c

theorem pathOf_append (p q : Place) : pathOf (p ++ q) = pathOf q ++ pathOf p := by
  unfold pathOf
  rw [List.reverse_append, List.flatMap_append]

/-- A directory of a mount, as the templates put it together. -/
theorem pathOf_join {path : Text} {p : Place} (hpath : "/".toList ++ path = pathOf p)
    (m : Place) : pathOf m ++ "/".toList ++ path = pathOf (p ++ m) := by
  rw [pathOf_append, List.append_assoc, hpath]

/-- A path leads to its place. -/
theorem components_pathOf {p : Place} (h : ∀ c ∈ p, IsName c) :
    FileTree.components (pathOf p) = p.reverse := by
  induction p with
  | nil => rfl
  | cons c p ih =>
    obtain ⟨hne, hslash, -⟩ := h c List.mem_cons_self
    have hone : FileTree.components c = [c] := by
      unfold FileTree.components
      have hsplit : (['/'].intercalate [c]).splitOn '/' = [c] :=
        List.splitOn_intercalate '/' (List.forall_mem_singleton.mpr hslash)
          (List.cons_ne_nil _ _)
      rw [List.intercalate_singleton] at hsplit
      rw [hsplit]
      exact List.filter_eq_self.mpr (List.forall_mem_singleton.mpr (decide_eq_true hne))
    have hpath : pathOf (c :: p) = pathOf p ++ '/' :: c := by
      rw [← List.singleton_append, pathOf_append]
      exact congrArg (pathOf p ++ ·) (List.append_nil ('/' :: c))
    rw [hpath, FileTree.components_append, ih fun x hx => h x (List.mem_cons_of_mem c hx),
      hone, List.reverse_cons]

theorem comma_not_mem_pathOf {p : Place} (h : ∀ c ∈ p, IsName c) : ',' ∉ pathOf p := by
  intro hmem
  obtain ⟨c, hc, hmem⟩ := List.mem_flatMap.mp hmem
  obtain heq | hmem := List.mem_cons.mp hmem
  · exact absurd heq (by decide)
  · exact (h c (List.mem_reverse.mp hc)).2.2 hmem

variable {γ : Type} {w : WorkerHadoop γ} {n : WorkerNode γ}

/-- **The directories in the file** are those of the blocks, on each of the
mounts. -/
theorem perm_dataDirs (hm : s.mounts = some (w.mounts.map pathOf))
    (hpath : "/".toList ++ s.dataPath = pathOf w.dataPath) (hne : w.mounts ≠ [])
    (hnames : ∀ p ∈ w.dataPath :: w.mounts, ∀ c ∈ p, IsName c) :
    ((dataDirs s.hdfsSite).map fun dir => (FileTree.components dir).reverse).Perm
      (w.mounts.map (w.dataPath ++ ·)) := by
  have hok : ∀ m ∈ w.mounts, ∀ c ∈ w.dataPath ++ m, IsName c := fun m hmem =>
    List.forall_mem_append.mpr ⟨hnames _ List.mem_cons_self,
      hnames m (List.mem_cons_of_mem _ hmem)⟩
  have hsorted : ∀ path ∈ sorted (w.mounts.map pathOf), ∃ m ∈ w.mounts, path = pathOf m := by
    intro path hmem
    obtain ⟨m, hm, rfl⟩ := List.mem_map.mp (mem_sorted.mp hmem)
    exact ⟨m, hm, rfl⟩
  have hdirs : dataDirs s.hdfsSite = (sorted (w.mounts.map pathOf)).map
      fun mount => mount ++ "/".toList ++ s.dataPath := by
    unfold dataDirs
    rw [lookup_dataDir _ hm, Option.map_some, Option.getD_some]
    refine items_fileUris ?_ fun path hmem => ?_
    · obtain ⟨m, hm⟩ := List.exists_mem_of_ne_nil _ hne
      exact List.ne_nil_of_mem
        (List.mem_map_of_mem (mem_sorted.mpr (List.mem_map_of_mem hm)))
    · obtain ⟨mount, hmount, rfl⟩ := List.mem_map.mp hmem
      obtain ⟨m, hm, rfl⟩ := hsorted mount hmount
      rw [pathOf_join hpath]
      exact comma_not_mem_pathOf (hok m hm)
  rw [hdirs, List.map_map]
  refine ((List.mergeSort_perm (w.mounts.map pathOf) _).map _).trans ?_
  rw [List.map_map]
  refine List.Perm.of_eq (List.map_congr_left fun m hm => ?_)
  show (FileTree.components (pathOf m ++ "/".toList ++ s.dataPath)).reverse = _
  rw [pathOf_join hpath, components_pathOf (hok m hm), List.reverse_reverse]

variable [DecidableEq γ]

/-- **A DataNode finds the directories that have been made for it**: after a
run in which no command is cut off, where the disks are ready. There is a mount,
and the names in the paths have no commas. -/
theorem dataDirs_there (hm : s.mounts = some (w.mounts.map pathOf))
    (hpath : "/".toList ++ s.dataPath = pathOf w.dataPath) (hne : w.mounts ≠ [])
    (hnames : ∀ p ∈ w.dataPath :: w.mounts, ∀ c ∈ p, IsName c) (r : WorkerRun w)
    (hreply : ∀ x, 4 ≤ r.reply x) (hs : WorkerSane n) (hready : DisksReady w n) :
    ((dataDirs s.hdfsSite).map fun dir => (FileTree.components dir).reverse).Perm
        (w.mounts.map (w.dataPath ++ ·))
      ∧ ∀ dir ∈ dataDirs s.hdfsSite,
        (r.result n).folders (FileTree.components dir).reverse
          = some ⟨"hdfs".toList, "hdfs".toList, "0700".toList⟩ := by
  have hperm := perm_dataDirs hm hpath hne hnames
  refine ⟨hperm, fun dir hdir => ?_⟩
  obtain ⟨m, hmem, heq⟩ := List.mem_map.mp
    (hperm.mem_iff.mp (List.mem_map_of_mem hdir))
  let d : Folder := ⟨w.dataPath ++ m, "hdfs".toList, "hdfs".toList, "0700".toList⟩
  have hd : d ∈ w.folders :=
    List.mem_flatMap.mpr ⟨m, hmem, List.mem_append_left _
      (List.mem_cons_of_mem _ (List.mem_cons_of_mem _ List.mem_cons_self))⟩
  rw [← heq]
  exact r.folders_of_disksReady hreply hs hready hd

/-- The file of the deployment. -/
def sampleSite : Site where
  namenodeHosts := ["namenode_server".toList]
  nameDirs := ["/raid/hadoop/name".toList]
  mounts := some ["/raid/hadoop/data".toList]

/-- What the worker of the deployment finds there. -/
theorem dataDirs_there_sampleSite :
    (sampleRun.result (withFolders
        [[], ["raid".toList], ["hadoop".toList, "raid".toList]])).folders
      ["dn".toList, "hdfs".toList, "data".toList, "hadoop".toList, "raid".toList]
    = some ⟨"hdfs".toList, "hdfs".toList, "0700".toList⟩ := by
  have hnames : ∀ p ∈ sampleWorker.dataPath :: sampleWorker.mounts, ∀ c ∈ p, IsName c := by
    unfold IsName
    decide
  have hready : DisksReady sampleWorker
      (withFolders [[], ["raid".toList], ["hadoop".toList, "raid".toList]]) := by
    unfold DisksReady
    decide +kernel
  have hsane : WorkerSane
      (withFolders [[], ["raid".toList], ["hadoop".toList, "raid".toList]]) :=
    ⟨by decide, fun s hs => absurd (or_self_iff.mp hs) Bool.false_ne_true⟩
  exact (dataDirs_there (s := sampleSite) rfl rfl (List.cons_ne_nil _ _) hnames
    sampleRun (fun _ => Nat.le_refl 4) hsane hready).2
    "/raid/hadoop/data/hdfs/dn".toList (by decide +kernel)

end Hdfs
