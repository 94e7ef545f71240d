import Mathlib.Data.List.AList
import Mathlib.Data.List.Dedup
import Mathlib.Data.List.TakeWhile
import ImServer.Base.ServerLink
import ImServer.Lib.CText
import ImServer.Lib.Hex

/-!
# The registry of servers

A server registers a node whose name holds its address (`RegistService`,
base/zookeeper.cpp), and its peers read the names of the nodes back and enter an entry for
each into a map by host string (`RefreshAssocSvr`). The map is a `std::tr1::unordered_map`:
here an association list, whose order means nothing.

The texts are C strings. `RegistService` and `GetHostString` print the port into
`char str[5]`, which is one byte too short for the terminator. `portText` and `getHostString`
give the texts that are meant, with which the rest of the development works; the functions
that end in `In` print into a buffer of a given size and have no result where it is overrun.
-/

namespace ImServer

/-- An address: the text of the ip and the port. -/
abbrev Host := String × UInt16

/-- `ServerInfoMap_t`. -/
abbrev ServerInfoMap := AList fun _ : String => ServInfo

/-- `AssocSvrList_t`: the servers of a service that were read from the registry. -/
structure AssocSvrList where
  bUpdate : Bool := false
  assocSvrId : Int16
  mapAssocSvr : ServerInfoMap := ∅

def ServInfo.host (e : ServInfo) : Host := (e.serverIp, e.serverPort)

/-- The entry for a host that was read from the registry. -/
def ServInfo.refreshed (host : Host) : ServInfo := { serverIp := host.1, serverPort := host.2 }

namespace CZookeeper

/-- The port as it is printed with the format `:%04x`. -/
def portText (port : UInt16) : String := ":" ++ String.ofList (Hex.padded 4 port.toNat)

/-- The name of the node that `RegistService` creates below the path of the service. -/
def nodeName (host : Host) : String := "node_" ++ host.1 ++ portText host.2

/-- What follows the mark of a hexadecimal number. -/
def skipMark : List Char → List Char
  | '0' :: 'x' :: rest => rest
  | '0' :: 'X' :: rest => rest
  | rest => rest

/-- What `sscanf` converts for `%4hx`: at most four characters after white space. -/
def scanPort (text : List Char) : Option UInt16 :=
  let (negative, rest) := CText.sign ((text.dropWhile CText.isSpace).take 4)
  let digits := (skipMark rest).takeWhile Hex.isDigit
  if digits = [] then none
  else
    let n := UInt16.ofNat (Hex.ofDigits digits)
    some (if negative then 0 - n else n)

end CZookeeper

namespace AssocSvrList

variable (l : AssocSvrList)

def clearAssocSvr : AssocSvrList := { l with mapAssocSvr := ∅ }

def refreshAssocSvrItem (host : Host) : AssocSvrList :=
  { l with
    mapAssocSvr := l.mapAssocSvr.insert (getHostString host.1 host.2) (.refreshed host)
    bUpdate := true }

/-- One turn of the loop of `RefreshAssocSvr`. A port that does not convert leaves the
variable with the last port. -/
def refreshName (s : AssocSvrList × UInt16) (name : String) : AssocSvrList × UInt16 :=
  match name.toList.dropWhile (· ≠ '_') with
  | [] => s
  | _ :: ipStr =>
    match ipStr.dropWhile (· ≠ ':') with
    | [] => s
    | _ :: str =>
      let port := (CZookeeper.scanPort str).getD s.2
      (s.1.refreshAssocSvrItem (String.ofList (ipStr.takeWhile (· ≠ ':')), port), port)

/-- `RefreshAssocSvr` with the names of the nodes; `port` is the uninitialised variable. -/
def refreshAssocSvr (port : UInt16) (names : List String) : AssocSvrList :=
  (names.foldl refreshName (l.clearAssocSvr, port)).1

/-- The items that a refresh enters, one for each host, in a list that is cleared before. -/
def refreshItems (hosts : List Host) : AssocSvrList :=
  hosts.foldl refreshAssocSvrItem l.clearAssocSvr

end AssocSvrList

theorem toList_getHostString (host : Host) :
    (getHostString host.1 host.2).toList = host.1.toList ++ ':' :: Hex.padded 4 host.2.toNat := by
  simp [getHostString, Hex.padded]

theorem length_padded_port (port : UInt16) : (Hex.padded 4 port.toNat).length = 4 :=
  Hex.length_padded (by decide) port.toNat_lt

theorem padded_port_injective {p q : UInt16}
    (h : Hex.padded 4 p.toNat = Hex.padded 4 q.toNat) : p = q := by
  apply UInt16.toNat.inj
  rw [← Hex.ofDigits_padded 4 p.toNat, h, Hex.ofDigits_padded]

/-- The port takes the last five characters, so the host string determines the host. -/
theorem hostText_injective {p q : Host}
    (h : p.1.toList ++ ':' :: Hex.padded 4 p.2.toNat =
      q.1.toList ++ ':' :: Hex.padded 4 q.2.toNat) : p = q := by
  obtain ⟨hip, hport⟩ := List.append_inj' h (by simp [length_padded_port])
  exact Prod.ext (String.toList_injective hip) (padded_port_injective (List.cons.inj hport).2)

theorem getHostString_injective {p q : Host}
    (h : getHostString p.1 p.2 = getHostString q.1 q.2) : p = q := by
  apply hostText_injective
  rw [← toList_getHostString, ← toList_getHostString, h]

namespace CZookeeper

theorem toList_nodeName (host : Host) :
    (nodeName host).toList =
      "node".toList ++ '_' :: (host.1.toList ++ ':' :: Hex.padded 4 host.2.toNat) := by
  simp [nodeName, portText]

theorem nodeName_injective {p q : Host} (h : nodeName p = nodeName q) : p = q := by
  apply hostText_injective
  have htext := congrArg String.toList h
  rw [toList_nodeName, toList_nodeName] at htext
  exact (List.cons.inj (List.append_cancel_left htext)).2

theorem isSpace_digitChar {d : Nat} (h : d < 16) : CText.isSpace d.digitChar = false := by
  revert d
  decide

theorem sign_digitChar {d : Nat} (h : d < 16) (rest : List Char) :
    CText.sign (d.digitChar :: rest) = (false, d.digitChar :: rest) := by
  obtain ⟨hminus, hplus, -, -⟩ := Hex.digitChar_ne h
  unfold CText.sign
  split
  · next heq => exact absurd (List.cons.inj heq).1 hminus
  · next heq => exact absurd (List.cons.inj heq).1 hplus
  · rfl

theorem skipMark_digitChar {d : Nat} (h : d < 16) (c : Char) (rest : List Char) :
    skipMark (c :: d.digitChar :: rest) = c :: d.digitChar :: rest := by
  obtain ⟨-, -, hx, hX⟩ := Hex.digitChar_ne h
  unfold skipMark
  split
  · next heq => exact absurd (List.cons.inj (List.cons.inj heq).2).1 hx
  · next heq => exact absurd (List.cons.inj (List.cons.inj heq).2).1 hX
  · rfl

theorem scanPort_padded (port : UInt16) : scanPort (Hex.padded 4 port.toNat) = some port := by
  have hlength := length_padded_port port
  have hdigits : (Hex.padded 4 port.toNat).takeWhile Hex.isDigit = Hex.padded 4 port.toNat :=
    List.takeWhile_eq_self_iff.mpr fun c hc => Hex.isDigit_padded hc
  have hvalue : UInt16.ofNat (Hex.ofDigits (Hex.padded 4 port.toNat)) = port := by
    rw [Hex.ofDigits_padded, UInt16.ofNat_toNat]
  have hmem := fun c => Hex.mem_padded (c := c) (w := 4) (n := port.toNat)
  match hpad : Hex.padded 4 port.toNat with
  | [] => rw [hpad] at hlength; cases hlength
  | [_] => rw [hpad] at hlength; cases hlength
  | a :: b :: rest =>
    rw [hpad] at hlength hdigits hvalue hmem
    obtain ⟨d, hd, rfl⟩ := hmem a List.mem_cons_self
    obtain ⟨d', hd', rfl⟩ := hmem b (List.mem_cons_of_mem _ List.mem_cons_self)
    have hfield : ((d.digitChar :: d'.digitChar :: rest).dropWhile CText.isSpace).take 4 =
        d.digitChar :: d'.digitChar :: rest := by
      rw [List.dropWhile_cons_of_neg (by rw [isSpace_digitChar hd]; decide)]
      exact List.take_of_length_le (Nat.le_of_eq hlength)
    simp only [scanPort, hfield, sign_digitChar hd, skipMark_digitChar hd', hdigits, hvalue]
    rfl

end CZookeeper

namespace AssocSvrList

variable {l : AssocSvrList} {host : Host} {hosts : List Host}

/-- The name of a node is read back as the host it was built from. -/
theorem refreshName_nodeName (l : AssocSvrList) (port : UInt16) (hip : ':' ∉ host.1.toList) :
    refreshName (l, port) (CZookeeper.nodeName host) = (l.refreshAssocSvrItem host, host.2) := by
  have hnode : (CZookeeper.nodeName host).toList.dropWhile (· ≠ '_') =
      '_' :: (host.1.toList ++ ':' :: Hex.padded 4 host.2.toNat) := by
    rw [CZookeeper.toList_nodeName]
    rfl
  have hother : ∀ c ∈ host.1.toList, decide (c ≠ ':') = true := by
    intro c hc
    refine decide_eq_true ?_
    rintro rfl
    exact hip hc
  have hport : (host.1.toList ++ ':' :: Hex.padded 4 host.2.toNat).dropWhile (· ≠ ':') =
      ':' :: Hex.padded 4 host.2.toNat := by
    rw [List.dropWhile_append_of_pos hother]
    rfl
  have htext : (host.1.toList ++ ':' :: Hex.padded 4 host.2.toNat).takeWhile (· ≠ ':') =
      host.1.toList := by
    rw [List.takeWhile_append_of_pos hother]
    simp
  simp only [refreshName, hnode, hport, htext, CZookeeper.scanPort_padded, Option.getD_some,
    String.ofList_toList]

theorem foldl_refreshName (l : AssocSvrList) (port : UInt16)
    (hips : ∀ host ∈ hosts, ':' ∉ host.1.toList) :
    ((hosts.map CZookeeper.nodeName).foldl refreshName (l, port)).1 =
      hosts.foldl refreshAssocSvrItem l := by
  induction hosts generalizing l port with
  | nil => rfl
  | cons host hosts ih =>
    rw [List.map_cons, List.foldl_cons, refreshName_nodeName l port (hips host List.mem_cons_self)]
    exact ih _ _ fun host hhost => hips host (List.mem_cons_of_mem _ hhost)

/-- Entries for exactly these hosts, each under its host string and marked as refreshed. -/
def Holds (l : AssocSvrList) (p : Host → Prop) : Prop :=
  ∀ key e, l.mapAssocSvr.lookup key = some e ↔
    ∃ host, p host ∧ key = getHostString host.1 host.2 ∧ e = .refreshed host

theorem Holds.refreshAssocSvrItem {p : Host → Prop} (h : l.Holds p) (host : Host) :
    (l.refreshAssocSvrItem host).Holds fun host' => host' = host ∨ p host' := by
  intro key e
  by_cases hkey : key = getHostString host.1 host.2
  · subst hkey
    simp only [AssocSvrList.refreshAssocSvrItem, AList.lookup_insert, Option.some.injEq]
    constructor
    · rintro rfl
      exact ⟨host, .inl rfl, rfl, rfl⟩
    · rintro ⟨host', -, hkey, rfl⟩
      rw [getHostString_injective hkey]
  · simp only [AssocSvrList.refreshAssocSvrItem, AList.lookup_insert_ne hkey, h key e]
    constructor
    · rintro ⟨host', hp, hhost'⟩
      exact ⟨host', .inr hp, hhost'⟩
    · rintro ⟨host', rfl | hp, hkey', he⟩
      · exact absurd hkey' hkey
      · exact ⟨host', hp, hkey', he⟩

theorem Holds.foldl {p : Host → Prop} (h : l.Holds p) (hosts : List Host) :
    (hosts.foldl AssocSvrList.refreshAssocSvrItem l).Holds fun host => host ∈ hosts ∨ p host := by
  induction hosts generalizing l p with
  | nil =>
    simp only [List.not_mem_nil, false_or]
    exact h
  | cons host hosts ih =>
    have htail := ih (h.refreshAssocSvrItem host)
    intro key e
    rw [List.foldl_cons, htail key e]
    simp only [List.mem_cons, or_assoc, or_left_comm]

theorem holds_refreshItems (l : AssocSvrList) (hosts : List Host) :
    (l.refreshItems hosts).Holds (· ∈ hosts) := by
  have hclear : l.clearAssocSvr.Holds fun _ => False := by
    intro key e
    simp [clearAssocSvr]
  have hall := hclear.foldl hosts
  intro key e
  rw [refreshItems, hall key e]
  simp only [or_false]

/-- The hosts of the entries. -/
def heldHosts (l : AssocSvrList) : List Host := l.mapAssocSvr.entries.map fun e => e.2.host

theorem Holds.mem_heldHosts {p : Host → Prop} (h : l.Holds p) : host ∈ l.heldHosts ↔ p host := by
  simp only [AssocSvrList.heldHosts, List.mem_map]
  constructor
  · rintro ⟨⟨key, e⟩, he, rfl⟩
    obtain ⟨host, hp, -, rfl⟩ := (h key e).mp (AList.mem_lookup_iff.mpr he)
    exact hp
  · intro hp
    have hlookup := (h _ _).mpr ⟨host, hp, rfl, rfl⟩
    exact ⟨⟨_, _⟩, AList.mem_lookup_iff.mp hlookup, rfl⟩

theorem Holds.nodup_heldHosts {p : Host → Prop} (h : l.Holds p) : l.heldHosts.Nodup := by
  have hkeys : (l.mapAssocSvr.entries.map Sigma.fst).Nodup := l.mapAssocSvr.nodupKeys
  refine List.Nodup.of_map (fun host => getHostString host.1 host.2) ?_
  have heq : l.heldHosts.map (fun host => getHostString host.1 host.2) =
      l.mapAssocSvr.entries.map Sigma.fst := by
    rw [AssocSvrList.heldHosts, List.map_map]
    refine List.map_congr_left ?_
    rintro ⟨key, e⟩ he
    obtain ⟨host, -, rfl, rfl⟩ := (h key e).mp (AList.mem_lookup_iff.mpr he)
    rfl
  rw [heq]
  exact hkeys

theorem Holds.perm_dedup (h : l.Holds (· ∈ hosts)) : l.heldHosts.Perm hosts.dedup := by
  refine (List.perm_ext_iff_of_nodup h.nodup_heldHosts hosts.nodup_dedup).mpr ?_
  intro host
  rw [h.mem_heldHosts, List.mem_dedup]

/-- Names that are all built from hosts of a list are the names of hosts, in their order. -/
theorem exists_map_nodeName {names : List String}
    (h : ∀ name ∈ names, name ∈ hosts.map CZookeeper.nodeName) :
    ∃ read : List Host, names = read.map CZookeeper.nodeName ∧ ∀ host ∈ read, host ∈ hosts := by
  induction names with
  | nil => exact ⟨[], rfl, fun _ hhost => absurd hhost List.not_mem_nil⟩
  | cons name names ih =>
    obtain ⟨read, rfl, hread⟩ := ih fun name hname => h name (List.mem_cons_of_mem _ hname)
    obtain ⟨host, hhost, rfl⟩ := List.mem_map.mp (h name List.mem_cons_self)
    refine ⟨host :: read, rfl, ?_⟩
    rintro host' (_ | ⟨_, hhost'⟩)
    · exact hhost
    · exact hread host' hhost'

/-- The servers of a service are read back from the registry as they were registered, each
once, and no two servers share a node name or a host string. -/
theorem registry_round_trip (l : AssocSvrList) (port : UInt16) {children : List String}
    (hips : ∀ host ∈ hosts, ':' ∉ host.1.toList)
    (hchildren : ∀ name, name ∈ children ↔ name ∈ hosts.map CZookeeper.nodeName) :
    (l.refreshAssocSvr port children).heldHosts.Perm hosts.dedup ∧
      ∀ p q : Host, p ≠ q →
        CZookeeper.nodeName p ≠ CZookeeper.nodeName q ∧
          getHostString p.1 p.2 ≠ getHostString q.1 q.2 := by
  constructor
  · obtain ⟨read, rfl, hread⟩ := exists_map_nodeName fun name => (hchildren name).mp
    have hmem : ∀ host, host ∈ read ↔ host ∈ hosts := by
      intro host
      refine ⟨hread host, fun hhost => ?_⟩
      have hname := (hchildren _).mpr (List.mem_map_of_mem (f := CZookeeper.nodeName) hhost)
      obtain ⟨host', hhost', heq⟩ := List.mem_map.mp hname
      rwa [← CZookeeper.nodeName_injective heq]
    have hitems : l.refreshAssocSvr port (read.map CZookeeper.nodeName) = l.refreshItems read :=
      foldl_refreshName _ _ fun host hhost => hips host (hread host hhost)
    rw [hitems]
    apply Holds.perm_dedup
    simp only [← hmem]
    exact holds_refreshItems l read
  · intro p q hne
    exact ⟨fun h => hne (CZookeeper.nodeName_injective h), fun h => hne (getHostString_injective h)⟩

end AssocSvrList

namespace CZookeeper

/-- `char str[5]`, the buffer of `RegistService` and of `GetHostString`. -/
def strSize : Nat := 5

/-- `sprintf(str, ":%04x", port)` into a buffer of `size` bytes: the text is there only if its
terminator fits behind it, and otherwise `sprintf` writes past the end of the buffer, so that
the call has no result. The characters are ASCII, a byte each. -/
def printPortIn (size : Nat) (port : UInt16) : Option String :=
  if (portText port).length < size then some (portText port) else none

/-- The node name that `RegistService` builds, printing the port into `size` bytes. -/
def nodeNameIn (size : Nat) (host : Host) : Option String :=
  (printPortIn size host.2).map fun str => "node_" ++ host.1 ++ str

/-- `GetHostString`, printing the port into `size` bytes. -/
def getHostStringIn (size : Nat) (host : Host) : Option String :=
  (printPortIn size host.2).map fun str => host.1 ++ str

variable {size : Nat}

theorem length_portText (port : UInt16) : (portText port).length = 5 := by
  have hcolon : ":".length = 1 := rfl
  simp [portText, length_padded_port, hcolon]

theorem printPortIn_of_lt (h : 5 < size) (port : UInt16) :
    printPortIn size port = some (portText port) :=
  if_pos (by rwa [length_portText])

theorem printPortIn_of_le (h : size ≤ 5) (port : UInt16) : printPortIn size port = none :=
  if_neg (by rw [length_portText]; omega)

theorem nodeNameIn_of_lt (h : 5 < size) (host : Host) :
    nodeNameIn size host = some (nodeName host) := by
  rw [nodeNameIn, printPortIn_of_lt h]
  rfl

theorem getHostStringIn_of_lt (h : 5 < size) (host : Host) :
    getHostStringIn size host = some (getHostString host.1 host.2) := by
  rw [getHostStringIn, printPortIn_of_lt h, Option.map_some]
  congr 1
  apply String.toList_injective
  rw [toList_getHostString]
  simp [portText]

theorem nodeNameIn_of_le (h : size ≤ 5) (host : Host) : nodeNameIn size host = none := by
  rw [nodeNameIn, printPortIn_of_le h]
  rfl

end CZookeeper

namespace AssocSvrList

variable (l : AssocSvrList) (size : Nat)

/-- `RefreshAssocSvrItem`, whose `GetHostString` prints into `size` bytes. -/
def refreshAssocSvrItemIn (host : Host) : Option AssocSvrList :=
  (CZookeeper.getHostStringIn size host).map fun sHost =>
    { l with
      mapAssocSvr := l.mapAssocSvr.insert sHost (.refreshed host)
      bUpdate := true }

/-- One turn of the loop of `RefreshAssocSvr`, as `refreshName`, over `refreshAssocSvrItemIn`. -/
def refreshNameIn (s : AssocSvrList × UInt16) (name : String) : Option (AssocSvrList × UInt16) :=
  match name.toList.dropWhile (· ≠ '_') with
  | [] => some s
  | _ :: ipStr =>
    match ipStr.dropWhile (· ≠ ':') with
    | [] => some s
    | _ :: str =>
      let port := (CZookeeper.scanPort str).getD s.2
      (s.1.refreshAssocSvrItemIn size (String.ofList (ipStr.takeWhile (· ≠ ':')), port)).map
        fun l => (l, port)

/-- `RefreshAssocSvr`, as `refreshAssocSvr`, over `refreshNameIn`. -/
def refreshAssocSvrIn (port : UInt16) (names : List String) : Option AssocSvrList :=
  (names.foldlM (refreshNameIn size) (l.clearAssocSvr, port)).map Prod.fst

theorem refreshAssocSvrIn_of_lt (h : 5 < size) (port : UInt16) (names : List String) :
    l.refreshAssocSvrIn size port names = some (l.refreshAssocSvr port names) := by
  have hname : refreshNameIn size = fun s name => pure (refreshName s name) := by
    funext s name
    simp only [refreshNameIn, refreshName, refreshAssocSvrItemIn,
      CZookeeper.getHostStringIn_of_lt h, Option.map_some, Option.pure_def]
    split
    · rfl
    · split <;> rfl
  rw [refreshAssocSvrIn, hname, List.foldlM_pure]
  rfl

/-- The servers of a list are registered and read back as they are, each once, whichever list
was held before and in whatever order the registry gives the names. -/
def ReadBack (hosts : List Host) : Prop :=
  ∃ names, hosts.mapM (CZookeeper.nodeNameIn size) = some names ∧
    ∀ (l : AssocSvrList) (port : UInt16) (children : List String),
      (∀ name, name ∈ children ↔ name ∈ names) →
        ∃ l', l.refreshAssocSvrIn size port children = some l' ∧ l'.heldHosts.Perm hosts.dedup

/-- Two hosts get different names of nodes and different host strings, so that neither takes the
place of the other in ZooKeeper or in a list. -/
def Told (p q : Host) : Prop :=
  ∃ name name' sHost sHost',
    CZookeeper.nodeNameIn size p = some name ∧ CZookeeper.nodeNameIn size q = some name' ∧
      CZookeeper.getHostStringIn size p = some sHost ∧
        CZookeeper.getHostStringIn size q = some sHost' ∧ name ≠ name' ∧ sHost ≠ sHost'

variable {size : Nat} {hosts : List Host}

/-- With one byte more the registry would keep what it is given. -/
theorem readBack_of_lt (h : 5 < size) (hips : ∀ host ∈ hosts, ':' ∉ host.1.toList) :
    ReadBack size hosts := by
  have hname : CZookeeper.nodeNameIn size = fun host => pure (CZookeeper.nodeName host) :=
    funext (CZookeeper.nodeNameIn_of_lt h)
  refine ⟨hosts.map CZookeeper.nodeName, by rw [hname, List.mapM_pure]; rfl, ?_⟩
  intro l port children hchildren
  exact ⟨_, refreshAssocSvrIn_of_lt l size h port children,
    (registry_round_trip l port hips hchildren).1⟩

theorem readBack_iff_of_le (h : size ≤ 5) : ReadBack size hosts ↔ hosts = [] := by
  constructor
  · rintro ⟨names, hnames, -⟩
    cases hosts with
    | nil => rfl
    | cons host hosts =>
      rw [List.mapM_cons, CZookeeper.nodeNameIn_of_le h] at hnames
      cases hnames
  · rintro rfl
    refine ⟨[], rfl, ?_⟩
    intro l port children hchildren
    obtain rfl : children = [] := List.eq_nil_iff_forall_not_mem.mpr fun name hname =>
      absurd ((hchildren name).mp hname) List.not_mem_nil
    exact ⟨_, rfl, (holds_refreshItems l []).perm_dedup⟩

theorem not_told_of_le (h : size ≤ 5) (p q : Host) : ¬ Told size p q := by
  rintro ⟨_, _, _, _, hname, -⟩
  rw [CZookeeper.nodeNameIn_of_le h] at hname
  cases hname

/-- The buffer of the code is overrun by every port, so nothing that was registered is read
back, and no two hosts are told apart: only an empty list, for which nothing is printed, comes
back as it is. -/
theorem registry_overruns (hosts : List Host) (p q : Host) :
    (ReadBack CZookeeper.strSize hosts ↔ hosts = []) ∧ ¬ Told CZookeeper.strSize p q :=
  ⟨readBack_iff_of_le (Nat.le_refl 5), not_told_of_le (Nat.le_refl 5) p q⟩

/-- One server on the port 8000. -/
theorem not_readBack_one : ¬ ReadBack CZookeeper.strSize [("10.0.0.1", 8000)] := fun h =>
  nomatch (readBack_iff_of_le (Nat.le_refl 5)).mp h

end AssocSvrList

end ImServer
