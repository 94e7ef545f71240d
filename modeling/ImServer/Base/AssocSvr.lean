import ImServer.Base.Zookeeper

/-!
# Refreshing the lists of associated servers

`ConnectAssocSvr` (base/serverlinkmgr.cpp) replaces the list of each service for which the
registry had servers. `MergeAssocSvr` first moves the old entries with links into the map
that was read from the registry, so that their links are kept; the map is then copied to a
new array, the links are pointed to their new entries, and `serv_init` connects to the
servers without links.

The order in which an unordered map is traversed is an argument. The number of servers of
a service is a 16-bit integer, and a service for which the registry had no server keeps its
list as it is.
-/

namespace ImServer

/-- The orders in which the maps of the services are traversed. -/
abbrev Traversal :=
  Nat → (map : ServerInfoMap) → { order : List ServInfo // order.Perm (map.entries.map Sigma.snd) }

def ServInfo.hostKey (e : ServInfo) : String := getHostString e.serverIp e.serverPort

namespace CServerLinkMgr

variable (m : CServerLinkMgr)

/-- `MergeAssocSvr`: old entries with links replace the entries of their hosts. -/
def mergeAssocSvr (old : List ServInfo) (map : ServerInfoMap) : ServerInfoMap :=
  old.foldl (fun map e => if e.servConn = none then map else map.insert e.hostKey e) map

/-- One turn of the loop that copies the map to the array `list`. -/
def copyEntry (list : Nat) (m : CServerLinkMgr) (item : ServInfo × Nat) : CServerLinkMgr :=
  let m := match item.1.servConn with
    | none => m
    | some c => m.modify c fun l => { l with assocSvrInfo := some ⟨list, item.2⟩ }
  m.modifyEntry ⟨list, item.2⟩ fun _ => item.1

/-- The new array of the service `i`, with the entries in `order`. -/
def replaceList (i : Nat) (serviceId : Int16) (order : List ServInfo) : CServerLinkMgr :=
  let copied := order.zipIdx.foldl (copyEntry m.nextList) m
  { copied with
    services := copied.services.set i ⟨serviceId, Int16.ofNat order.length, m.nextList⟩
    nextList := m.nextList + 1 }

/-- The part of `ConnectAssocSvr` for the service `i`. An array of negative size throws. -/
def refreshService (traverse : Traversal) (s : CServerLinkMgr × List AssocSvrList) (i : Nat) :
    Option (CServerLinkMgr × List AssocSvrList) :=
  match s.1.services[i]?, s.2[i]? with
  | some service, some l =>
    if l.bUpdate then
      if service.serviceCount < 0 then none
      else
        let map := mergeAssocSvr (service.refs.map s.1.entries) l.mapAssocSvr
        some (s.1.replaceList i l.assocSvrId (traverse i map).1,
          s.2.set i { l with bUpdate := false, mapAssocSvr := map })
    else some s
  | _, _ => none

/-- `ConnectAssocSvr`. Each service is refreshed, and only if a list was updated are the links
started anew. -/
def connectAssocSvr (traverse : Traversal) (lists : List AssocSvrList) (handles : Handles) :
    Option (CServerLinkMgr × List AssocSvrList) :=
  (Run.run (refreshService traverse) (m, lists) (List.range m.services.length)).bind fun s =>
    if lists.any AssocSvrList.bUpdate then (s.1.servInit handles).map fun m => (m, s.2)
    else if handles = [] then some s else none

/-- The entries of the service `i`, and none if there is no such service. -/
def refsOf (i : Nat) : List EntryRef := (m.services[i]?.map AssocSvrInfo.refs).getD []

/-- The hosts of the service `i`, in the order of its entries and with those that have no link. -/
def hostsOf (i : Nat) : List Host := (m.refsOf i).map fun r => (m.entries r).host

/-- The hosts of the service `i` whose entries have links, whether these are established or not. -/
def connectedHosts (i : Nat) : List Host :=
  ((m.refsOf i).filter fun r => (m.entries r).servConn ≠ none).map fun r => (m.entries r).host

/-- Lists as they are left by earlier refreshes: each service has an array of its own, the
hosts of a service are distinct, and links point back to their entries. -/
structure Prior (m : CServerLinkMgr) : Prop where
  lists : (m.services.map AssocSvrInfo.serverList).Nodup
  fresh : ∀ service ∈ m.services, service.serverList < m.nextList
  hosts : ∀ i, (m.hostsOf i).Nodup
  link : ∀ i, ∀ r ∈ m.refsOf i, ∀ c, (m.entries r).servConn = some c →
    (m.links c).assocSvrInfo = some r ∧ c < m.net.next

/-- What a refresh of the service `i` with the hosts that were read is to make of its list. -/
structure Refreshed (m m' : CServerLinkMgr) (i : Nat) (hosts : List Host) : Prop where
  once : ∀ host, host ∈ hosts ∨ host ∈ m.connectedHosts i → (m'.hostsOf i).count host = 1
  only : ∀ host ∈ m'.hostsOf i, host ∈ hosts ∨ host ∈ m.connectedHosts i
  kept : ∀ r ∈ m.refsOf i, ∀ c, (m.entries r).servConn = some c →
    ∃ r' ∈ m'.refsOf i, (m'.entries r').host = (m.entries r).host ∧
      (m'.entries r').servConn = some c ∧ (m'.links c).assocSvrInfo = some r'
  started : ∀ r' ∈ m'.refsOf i, ∀ c, (m'.entries r').servConn = some c → m.net.next ≤ c →
    (m'.entries r').host ∉ m.connectedHosts i

variable {m} {m' : CServerLinkMgr} {i : Nat} {r : EntryRef} {c : SocketId} {e : ServInfo}

theorem mem_refsOf {service : AssocSvrInfo} (hi : m.services[i]? = some service) :
    r ∈ m.refsOf i ↔ r.list = service.serverList ∧ r.index < service.serviceCount.toInt.toNat := by
  simp only [refsOf, hi, Option.map_some, Option.getD_some, AssocSvrInfo.refs, List.mem_map,
    List.mem_range]
  constructor
  · rintro ⟨j, hj, rfl⟩
    exact ⟨rfl, hj⟩
  · rintro ⟨hlist, hindex⟩
    exact ⟨r.index, hindex, by rw [← hlist]⟩

theorem mem_connectedHosts {host : Host} :
    host ∈ m.connectedHosts i ↔
      ∃ r ∈ m.refsOf i, (m.entries r).servConn ≠ none ∧ (m.entries r).host = host := by
  simp only [connectedHosts, List.mem_map, List.mem_filter, decide_eq_true_eq, and_assoc]

section Merge

variable {old : List ServInfo} {map : ServerInfoMap} {key : String} {p : Host → Prop}

theorem hostKey_injective {e e' : ServInfo} (h : e.hostKey = e'.hostKey) : e.host = e'.host :=
  getHostString_injective (p := e.host) (q := e'.host) h

/-- Old entries with links come first, and the entries of other hosts stay. -/
theorem lookup_mergeAssocSvr (hold : (old.map ServInfo.host).Nodup) :
    (mergeAssocSvr old map).lookup key = some e ↔
      (e ∈ old ∧ e.servConn ≠ none ∧ key = e.hostKey) ∨
        (map.lookup key = some e ∧ ∀ e' ∈ old, e'.servConn ≠ none → e'.hostKey ≠ key) := by
  induction old generalizing map with
  | nil => simp [mergeAssocSvr]
  | cons x old ih =>
    rw [List.map_cons, List.nodup_cons] at hold
    have hcons : mergeAssocSvr (x :: old) map =
        mergeAssocSvr old (if x.servConn = none then map else map.insert x.hostKey x) := rfl
    rw [hcons, ih hold.2]
    by_cases hx : x.servConn ≠ none ∧ key = x.hostKey
    · obtain ⟨hconn, rfl⟩ := hx
      have hother : ∀ e' ∈ old, e'.hostKey ≠ x.hostKey := by
        intro e' he' heq
        exact hold.1 (List.mem_map.mpr ⟨e', he', hostKey_injective heq⟩)
      rw [if_neg hconn, AList.lookup_insert]
      constructor
      · rintro (⟨he, -, heq⟩ | ⟨heq, -⟩)
        · exact absurd heq.symm (hother e he)
        · obtain rfl : x = e := Option.some.inj heq
          exact .inl ⟨List.mem_cons_self, hconn, rfl⟩
      · rintro (⟨_ | ⟨_, he⟩, -, heq⟩ | ⟨-, hnone⟩)
        · exact .inr ⟨rfl, fun e' he' _ => hother e' he'⟩
        · exact absurd heq.symm (hother e he)
        · exact absurd rfl (hnone x List.mem_cons_self hconn)
    · -- an entry without a link or of another host
      have hmap : (if x.servConn = none then map else map.insert x.hostKey x).lookup key =
          map.lookup key := by
        split
        · rfl
        · next hconn => exact AList.lookup_insert_ne fun hkey => hx ⟨hconn, hkey⟩
      rw [hmap]
      constructor
      · rintro (⟨he, hrest⟩ | ⟨hlookup, hnone⟩)
        · exact .inl ⟨List.mem_cons_of_mem _ he, hrest⟩
        · refine .inr ⟨hlookup, ?_⟩
          rintro e' (_ | ⟨_, he'⟩) hconn'
          · exact fun heq => hx ⟨hconn', heq.symm⟩
          · exact hnone e' he' hconn'
      · rintro (⟨_ | ⟨_, he⟩, hconn', hkey⟩ | ⟨hlookup, hnone⟩)
        · exact absurd ⟨hconn', hkey⟩ hx
        · exact .inl ⟨he, hconn', hkey⟩
        · exact .inr ⟨hlookup, fun e' he' => hnone e' (List.mem_cons_of_mem _ he')⟩

variable {l : AssocSvrList} {order : List ServInfo}

/-- The entries of the new list: those with links, and new ones for the hosts that have none. -/
theorem mem_order (hold : (old.map ServInfo.host).Nodup) (hl : l.Holds p)
    (horder : order.Perm ((mergeAssocSvr old l.mapAssocSvr).entries.map Sigma.snd)) :
    e ∈ order ↔ (e ∈ old ∧ e.servConn ≠ none) ∨
      ∃ host, p host ∧ e = .refreshed host ∧
        ∀ e' ∈ old, e'.servConn ≠ none → e'.host ≠ host := by
  have hlookup : e ∈ order ↔ ∃ key, (mergeAssocSvr old l.mapAssocSvr).lookup key = some e := by
    rw [horder.mem_iff, List.mem_map]
    constructor
    · rintro ⟨⟨key, e'⟩, he', rfl⟩
      exact ⟨key, AList.mem_lookup_iff.mpr he'⟩
    · rintro ⟨key, hkey⟩
      exact ⟨⟨key, e⟩, AList.mem_lookup_iff.mp hkey, rfl⟩
  rw [hlookup]
  constructor
  · rintro ⟨key, hkey⟩
    obtain ⟨he, hconn, -⟩ | ⟨hmap, hnone⟩ := (lookup_mergeAssocSvr hold).mp hkey
    · exact .inl ⟨he, hconn⟩
    · obtain ⟨host, hp, rfl, rfl⟩ := (hl key e).mp hmap
      refine .inr ⟨host, hp, rfl, ?_⟩
      rintro e' he' hconn rfl
      exact hnone e' he' hconn rfl
  · rintro (⟨he, hconn⟩ | ⟨host, hp, rfl, hnone⟩)
    · exact ⟨e.hostKey, (lookup_mergeAssocSvr hold).mpr (.inl ⟨he, hconn, rfl⟩)⟩
    · refine ⟨_, (lookup_mergeAssocSvr hold).mpr (.inr ⟨(hl _ _).mpr ⟨host, hp, rfl, rfl⟩, ?_⟩)⟩
      intro e' he' hconn heq
      exact hnone e' he' hconn (getHostString_injective (p := e'.host) heq)

theorem nodup_order (hold : (old.map ServInfo.host).Nodup) (hl : l.Holds p)
    (horder : order.Perm ((mergeAssocSvr old l.mapAssocSvr).entries.map Sigma.snd)) :
    (order.map ServInfo.host).Nodup := by
  have hkeys : ((mergeAssocSvr old l.mapAssocSvr).entries.map fun e => e.2.hostKey) =
      (mergeAssocSvr old l.mapAssocSvr).entries.map Sigma.fst := by
    refine List.map_congr_left ?_
    rintro ⟨key, e⟩ he
    obtain ⟨-, -, hkey⟩ | ⟨hmap, -⟩ := (lookup_mergeAssocSvr hold).mp (AList.mem_lookup_iff.mpr he)
    · exact hkey.symm
    · obtain ⟨host, -, rfl, rfl⟩ := (hl key e).mp hmap
      rfl
  refine List.Nodup.of_map (fun host => getHostString host.1 host.2) ?_
  rw [List.map_map]
  refine ((horder.map _).nodup_iff).mpr ?_
  rw [List.map_map]
  exact hkeys ▸ (mergeAssocSvr old l.mapAssocSvr).nodupKeys

end Merge

section Copy

variable {list : Nat} {items : List (ServInfo × Nat)} {item : ServInfo × Nat}
  {order : List ServInfo} {j : Nat} {serviceId : Int16}

theorem copyEntry_entries :
    (copyEntry list m item).entries = Function.update m.entries ⟨list, item.2⟩ item.1 := by
  unfold copyEntry
  cases item.1.servConn <;> rfl

theorem copyEntry_links :
    (copyEntry list m item).links = match item.1.servConn with
      | none => m.links
      | some c => Function.update m.links c
          { m.links c with assocSvrInfo := some ⟨list, item.2⟩ } := by
  unfold copyEntry
  cases item.1.servConn <;> rfl

theorem copyEntry_eq :
    copyEntry list m item =
      { m with
        entries := (copyEntry list m item).entries, links := (copyEntry list m item).links } := by
  unfold copyEntry
  cases item.1.servConn <;> rfl

theorem foldl_copyEntry_eq :
    items.foldl (copyEntry list) m =
      { m with
        entries := (items.foldl (copyEntry list) m).entries
        links := (items.foldl (copyEntry list) m).links } := by
  induction items generalizing m with
  | nil => rfl
  | cons item items ih =>
    rw [List.foldl_cons, ih, copyEntry_eq]

theorem foldl_copyEntry_entries_of_ne (hr : r.list ≠ list) :
    (items.foldl (copyEntry list) m).entries r = m.entries r := by
  refine Run.foldl_keeps (fun m : CServerLinkMgr => m.entries r) ?_ m
  intro m item _
  simp only [copyEntry_entries]
  refine Function.update_of_ne ?_ _ _
  rintro rfl
  exact hr rfl

theorem mem_zipIdx (hj : order[j]? = some e) : (e, j) ∈ order.zipIdx :=
  List.mem_zipIdx_iff_getElem?.mpr hj

theorem foldl_copyEntry_entries (hj : order[j]? = some e) :
    (order.zipIdx.foldl (copyEntry list) m).entries ⟨list, j⟩ = e := by
  refine Run.foldl_sets (fun m : CServerLinkMgr => m.entries ⟨list, j⟩)
    (fun item : ServInfo × Nat => item.2 = j) ?_ ?_
    (mem_zipIdx hj) rfl m
  · rintro m ⟨e', j'⟩ hmem rfl
    have he' : order[j']? = some e' := List.mem_zipIdx_iff_getElem?.mp hmem
    rw [hj] at he'
    simp only [copyEntry_entries, Function.update_self]
    exact (Option.some.inj he').symm
  · rintro m ⟨e', j'⟩ - hne
    simp only [copyEntry_entries]
    refine Function.update_of_ne ?_ _ _
    intro heq
    exact hne (congrArg EntryRef.index heq).symm

theorem copyEntry_links_of_ne (hc : item.1.servConn ≠ some c) :
    (copyEntry list m item).links c = m.links c := by
  rw [copyEntry_links]
  cases hconn : item.1.servConn with
  | none => rfl
  | some c' =>
    refine Function.update_of_ne ?_ _ _
    rintro rfl
    exact hc hconn

theorem foldl_copyEntry_links_of_ne (hc : ∀ e ∈ order, e.servConn ≠ some c) :
    (order.zipIdx.foldl (copyEntry list) m).links c = m.links c := by
  refine Run.foldl_keeps (fun m : CServerLinkMgr => m.links c) ?_ m
  rintro m ⟨e, j⟩ hmem
  exact copyEntry_links_of_ne (hc e (List.mem_of_getElem? (List.mem_zipIdx_iff_getElem?.mp hmem)))

theorem foldl_copyEntry_links (hj : order[j]? = some e) (hc : e.servConn = some c)
    (hone : ∀ j' e', order[j']? = some e' → e'.servConn = some c → j' = j) :
    ((order.zipIdx.foldl (copyEntry list) m).links c).assocSvrInfo = some ⟨list, j⟩ := by
  refine Run.foldl_sets (fun m : CServerLinkMgr => (m.links c).assocSvrInfo)
    (fun item : ServInfo × Nat => item.1.servConn = some c) ?_ ?_
    (mem_zipIdx hj) hc m
  · rintro m ⟨e', j'⟩ hmem hconn
    obtain rfl := hone j' e' (List.mem_zipIdx_iff_getElem?.mp hmem) hconn
    simp only at hconn
    simp only [copyEntry_links, hconn, Function.update_self]
  · rintro m ⟨e', j'⟩ - hne
    simp only [copyEntry_links_of_ne hne]

theorem replaceList_entries_of_ne (hr : r.list ≠ m.nextList) :
    (m.replaceList i serviceId order).entries r = m.entries r := foldl_copyEntry_entries_of_ne hr

theorem replaceList_entries (hj : order[j]? = some e) :
    (m.replaceList i serviceId order).entries ⟨m.nextList, j⟩ = e := foldl_copyEntry_entries hj

theorem replaceList_net : (m.replaceList i serviceId order).net = m.net := by
  simp only [replaceList]
  rw [foldl_copyEntry_eq]

theorem replaceList_services :
    (m.replaceList i serviceId order).services =
      m.services.set i ⟨serviceId, Int16.ofNat order.length, m.nextList⟩ := by
  simp only [replaceList]
  rw [foldl_copyEntry_eq]

theorem count_le (n : Nat) : (Int16.ofNat n).toInt.toNat ≤ n ∧
    (Int16.ofNat n).toInt.toNat ≤ 32767 := by
  have hlt := (Int16.ofNat n).toInt_lt
  by_cases hn : n < 2 ^ 15
  · rw [Int16.toInt_ofNat_of_lt hn]
    omega
  · omega

end Copy

section Refresh

variable {service : AssocSvrInfo} {l : AssocSvrList} {p : Host → Prop} {order : List ServInfo}
  {serviceId : Int16} {j k : Nat}

/-- What the list of a service is made from: the service, and the order of the merged map. -/
structure Refreshes (m : CServerLinkMgr) (i : Nat) (service : AssocSvrInfo) (l : AssocSvrList)
    (p : Host → Prop) (order : List ServInfo) : Prop where
  prior : m.Prior
  isService : m.services[i]? = some service
  holds : l.Holds p
  perm : order.Perm
    ((mergeAssocSvr (service.refs.map m.entries) l.mapAssocSvr).entries.map Sigma.snd)

theorem refsOf_eq (hi : m.services[i]? = some service) : m.refsOf i = service.refs := by
  simp only [refsOf, hi, Option.map_some, Option.getD_some]

theorem Refreshes.old_nodup (h : Refreshes m i service l p order) :
    ((service.refs.map m.entries).map ServInfo.host).Nodup := by
  have hhosts := h.prior.hosts i
  rw [hostsOf, refsOf_eq h.isService] at hhosts
  rwa [List.map_map]

/-- An entry of the new list is an old one with a link, or new. -/
theorem Refreshes.mem_order (h : Refreshes m i service l p order) :
    e ∈ order ↔ (∃ r ∈ m.refsOf i, m.entries r = e ∧ e.servConn ≠ none) ∨
      ∃ host, p host ∧ e = .refreshed host ∧ host ∉ m.connectedHosts i := by
  rw [CServerLinkMgr.mem_order h.old_nodup h.holds h.perm, refsOf_eq h.isService]
  simp only [mem_connectedHosts, refsOf_eq h.isService, List.mem_map]
  constructor
  · rintro (⟨⟨r, hr, rfl⟩, hconn⟩ | ⟨host, hp, rfl, hnone⟩)
    · exact .inl ⟨r, hr, rfl, hconn⟩
    · refine .inr ⟨host, hp, rfl, ?_⟩
      rintro ⟨r, hr, hconn, rfl⟩
      exact hnone _ ⟨r, hr, rfl⟩ hconn rfl
  · rintro (⟨r, hr, rfl, hconn⟩ | ⟨host, hp, rfl, hnone⟩)
    · exact .inl ⟨⟨r, hr, rfl⟩, hconn⟩
    · refine .inr ⟨host, hp, rfl, ?_⟩
      rintro _ ⟨r, hr, rfl⟩ hconn rfl
      exact hnone ⟨r, hr, hconn, rfl⟩

theorem Refreshes.nodup_order (h : Refreshes m i service l p order) :
    (order.map ServInfo.host).Nodup :=
  CServerLinkMgr.nodup_order h.old_nodup h.holds h.perm

/-- The link of an entry of the new list points to the entry it had. -/
theorem Refreshes.link (h : Refreshes m i service l p order) (he : e ∈ order)
    (hc : e.servConn = some c) :
    ∃ r ∈ m.refsOf i, m.entries r = e ∧ (m.links c).assocSvrInfo = some r ∧ c < m.net.next := by
  obtain ⟨r, hr, rfl, -⟩ | ⟨host, -, rfl, -⟩ := h.mem_order.mp he
  · exact ⟨r, hr, rfl, h.prior.link i r hr c hc⟩
  · cases hc

theorem Refreshes.index_eq (h : Refreshes m i service l p order) {e' : ServInfo}
    (hj : order[j]? = some e) (hk : order[k]? = some e') (hc : e.servConn = some c)
    (hc' : e'.servConn = some c) : k = j := by
  obtain ⟨r, -, rfl, hr, -⟩ := h.link (List.mem_of_getElem? hj) hc
  obtain ⟨r', -, rfl, hr', -⟩ := h.link (List.mem_of_getElem? hk) hc'
  obtain rfl : r = r' := Option.some.inj (hr.symm.trans hr')
  have hnodup : order.Nodup := List.Nodup.of_map _ h.nodup_order
  obtain ⟨hjlt, hj⟩ := List.getElem?_eq_some_iff.mp hj
  obtain ⟨hklt, hk⟩ := List.getElem?_eq_some_iff.mp hk
  exact (hnodup.getElem_inj_iff).mp (hk.trans hj.symm)

theorem Refreshes.assocSvrInfo (h : Refreshes m i service l p order) (hj : order[j]? = some e)
    (hc : e.servConn = some c) :
    ((m.replaceList i serviceId order).links c).assocSvrInfo = some ⟨m.nextList, j⟩ := by
  apply foldl_copyEntry_links hj hc
  intro k e' hk hc'
  exact h.index_eq hj hk hc hc'

theorem Refreshes.isService' (h : Refreshes m i service l p order) :
    (m.replaceList i serviceId order).services[i]? =
      some ⟨serviceId, Int16.ofNat order.length, m.nextList⟩ := by
  have hlt : i < m.services.length := (List.getElem?_eq_some_iff.mp h.isService).1
  rw [replaceList_services, List.getElem?_set_self hlt]

/-- The entries of the new list, as far as they are counted. -/
theorem Refreshes.mem_refsOf (h : Refreshes m i service l p order) :
    r ∈ (m.replaceList i serviceId order).refsOf i ↔
      ∃ j, j < (Int16.ofNat order.length).toInt.toNat ∧ r = ⟨m.nextList, j⟩ := by
  rw [CServerLinkMgr.mem_refsOf h.isService']
  constructor
  · rintro ⟨hlist, hindex⟩
    simp only at hlist
    exact ⟨r.index, hindex, by rw [← hlist]⟩
  · rintro ⟨j, hj, rfl⟩
    exact ⟨rfl, hj⟩

theorem Refreshes.entry (h : Refreshes m i service l p order)
    (hr : r ∈ (m.replaceList i serviceId order).refsOf i) :
    ∃ j e, r = ⟨m.nextList, j⟩ ∧ order[j]? = some e ∧
      (m.replaceList i serviceId order).entries r = e := by
  obtain ⟨j, hj, rfl⟩ := h.mem_refsOf.mp hr
  have hlt : j < order.length := Nat.lt_of_lt_of_le hj (count_le order.length).1
  refine ⟨j, order[j], rfl, List.getElem?_eq_getElem hlt, ?_⟩
  exact replaceList_entries (List.getElem?_eq_getElem hlt)

/-- The hosts of the new list, as far as they are counted. -/
theorem Refreshes.hostsOf (h : Refreshes m i service l p order) :
    (m.replaceList i serviceId order).hostsOf i =
      (order.take (Int16.ofNat order.length).toInt.toNat).map ServInfo.host := by
  have hle := (count_le order.length).1
  rw [CServerLinkMgr.hostsOf, refsOf_eq h.isService', AssocSvrInfo.refs, List.map_map]
  apply List.ext_getElem
  · rw [List.length_map, List.length_range, List.length_map, List.length_take, Nat.min_eq_left hle]
  · intro j hj hj'
    have hlt : j < order.length := by
      simp only [List.length_map, List.length_range] at hj
      exact Nat.lt_of_lt_of_le hj hle
    simp only [List.getElem_map, List.getElem_range, List.getElem_take, Function.comp_apply]
    rw [replaceList_entries (List.getElem?_eq_getElem hlt)]

/-- The other services keep their lists and links. -/
structure SameService (m m' : CServerLinkMgr) (k : Nat) : Prop where
  service : m'.services[k]? = m.services[k]?
  entry : ∀ r ∈ m.refsOf k, m'.entries r = m.entries r
  link : ∀ r ∈ m.refsOf k, ∀ c, (m.entries r).servConn = some c →
    (m'.links c).assocSvrInfo = (m.links c).assocSvrInfo

theorem SameService.refl (m : CServerLinkMgr) (k : Nat) : SameService m m k :=
  ⟨rfl, fun _ _ => rfl, fun _ _ _ _ => rfl⟩

theorem SameService.refsOf (h : SameService m m' k) : m'.refsOf k = m.refsOf k := by
  rw [CServerLinkMgr.refsOf, h.service, CServerLinkMgr.refsOf]

theorem SameService.hostsOf (h : SameService m m' k) : m'.hostsOf k = m.hostsOf k := by
  rw [CServerLinkMgr.hostsOf, h.refsOf, CServerLinkMgr.hostsOf]
  refine List.map_congr_left ?_
  intro r hr
  rw [h.entry r hr]

theorem SameService.trans {m'' : CServerLinkMgr} (h : SameService m m' k)
    (h' : SameService m' m'' k) : SameService m m'' k := by
  refine ⟨h'.service.trans h.service, ?_, ?_⟩
  · intro r hr
    rw [h'.entry r (h.refsOf ▸ hr), h.entry r hr]
  · intro r hr c hc
    rw [h'.link r (h.refsOf ▸ hr) c (by rw [h.entry r hr, hc]), h.link r hr c hc]

theorem exists_service (hr : r ∈ m.refsOf i) :
    ∃ service, m.services[i]? = some service ∧ service.serverList = r.list := by
  cases hi : m.services[i]? with
  | none =>
    simp only [CServerLinkMgr.refsOf, hi, Option.map_none, Option.getD_none] at hr
    cases hr
  | some service => exact ⟨service, rfl, ((CServerLinkMgr.mem_refsOf hi).mp hr).1.symm⟩

theorem Prior.list_lt (h : m.Prior) (hr : r ∈ m.refsOf i) : r.list < m.nextList := by
  obtain ⟨service, hi, hlist⟩ := exists_service hr
  rw [← hlist]
  exact h.fresh service (List.mem_of_getElem? hi)

theorem Prior.service_eq (h : m.Prior) (hi : r ∈ m.refsOf i) (hk : r ∈ m.refsOf k) : i = k := by
  obtain ⟨a, ha, halist⟩ := exists_service hi
  obtain ⟨b, hb, hblist⟩ := exists_service hk
  have hlt : i < (m.services.map AssocSvrInfo.serverList).length := by
    rw [List.length_map]
    exact (List.getElem?_eq_some_iff.mp ha).1
  refine (List.getElem?_inj hlt h.lists).mp ?_
  rw [List.getElem?_map, List.getElem?_map, ha, hb, Option.map_some, Option.map_some, halist, hblist]

theorem Refreshes.sameService (h : Refreshes m i service l p order) (hk : k ≠ i) :
    SameService m (m.replaceList i serviceId order) k := by
  refine ⟨?_, ?_, ?_⟩
  · rw [replaceList_services, List.getElem?_set_ne hk.symm]
  · intro r hr
    exact replaceList_entries_of_ne (Nat.ne_of_lt (h.prior.list_lt hr))
  · intro r hr c hc
    refine congrArg CServerLink.assocSvrInfo (foldl_copyEntry_links_of_ne ?_)
    intro e he hce
    obtain ⟨r', hr', -, hinfo, -⟩ := h.link he hce
    obtain rfl : r = r' := Option.some.inj ((h.prior.link k r hr c hc).1.symm.trans hinfo)
    exact hk (h.prior.service_eq hr hr')

theorem Refreshes.replaced (h : Refreshes m i service l p order) :
    (m.replaceList i serviceId order).Prior := by
  have hfresh : m.nextList ∉ m.services.map AssocSvrInfo.serverList := by
    intro hmem
    obtain ⟨service, hservice, heq⟩ := List.mem_map.mp hmem
    exact absurd heq (Nat.ne_of_lt (h.prior.fresh service hservice))
  refine ⟨?_, ?_, ?_, ?_⟩
  · rw [replaceList_services, List.map_set]
    exact h.prior.lists.set hfresh
  · intro service' hservice'
    rw [replaceList_services] at hservice'
    obtain hmem | rfl := List.mem_or_eq_of_mem_set hservice'
    · exact Nat.lt_succ_of_lt (h.prior.fresh service' hmem)
    · exact Nat.lt_succ_self _
  · intro k
    by_cases hk : k = i
    · subst hk
      rw [h.hostsOf, List.map_take]
      exact h.nodup_order.sublist (List.take_sublist _ _)
    · rw [(h.sameService hk).hostsOf]
      exact h.prior.hosts k
  · intro k r hr c hc
    rw [replaceList_net]
    by_cases hk : k = i
    · subst hk
      obtain ⟨j, e, rfl, hj, he⟩ := h.entry hr
      rw [he] at hc
      obtain ⟨-, -, -, -, hlt⟩ := h.link (List.mem_of_getElem? hj) hc
      exact ⟨h.assocSvrInfo hj hc, hlt⟩
    · have hsame : SameService m (m.replaceList i serviceId order) k := h.sameService hk
      rw [hsame.refsOf] at hr
      rw [hsame.entry r hr] at hc
      rw [hsame.link r hr c hc]
      exact h.prior.link k r hr c hc

end Refresh

end CServerLinkMgr

end ImServer
