import ImServer.Base.AssocSvr

/-!
# What a refresh makes of the lists

The loop of `ConnectAssocSvr` over the services replaces one list in each turn and leaves
the others and their links alone; `serv_init` then gives links to the entries without one.
The list of a service comes out as intended exactly if its hosts fit into the 16-bit count,
and, where the registry had no server, if no old entry was without a link.
-/

namespace ImServer

namespace CServerLinkMgr

variable {m m' : CServerLinkMgr} {i : Nat} {r : EntryRef} {c : SocketId} {e : ServInfo}

section Init

variable {m₀ : CServerLinkMgr} {s s' : CServerLinkMgr × Handles} {handles : Handles} {k : Nat}

/-- What `serv_init` keeps: hosts, entries with links, and old links. New links point back to
their entries. -/
structure Initialised (m₀ m : CServerLinkMgr) : Prop where
  services : m.services = m₀.services
  nextList : m.nextList = m₀.nextList
  next : m₀.net.next ≤ m.net.next
  links : ∀ c < m₀.net.next, m.links c = m₀.links c
  host : ∀ r, (m.entries r).host = (m₀.entries r).host
  entry : ∀ r, m.entries r = m₀.entries r ∨
    (m₀.entries r).servConn = none ∧
      ∃ c, (m.entries r).servConn = some c ∧ m₀.net.next ≤ c ∧ c < m.net.next ∧
        (m.links c).assocSvrInfo = some r

theorem Initialised.refl (m : CServerLinkMgr) : Initialised m m :=
  ⟨rfl, rfl, Nat.le_refl _, fun _ _ => rfl, fun _ => rfl, fun _ => .inl rfl⟩

theorem attempted_next {handle : Option Fd} (hfree : ∀ fd ∈ handle, m.net.socketMap fd = none) :
    (m.attempted r handle).net.next = m.net.next + 1 := by
  cases handle with
  | none => rfl
  | some fd => exact (Netlib.connect_opens (hfree fd rfl)).next

theorem Initialised.servInitEntry (h : Initialised m₀ s.1) (hbody : servInitEntry s r = some s') :
    Initialised m₀ s'.1 := by
  unfold CServerLinkMgr.servInitEntry at hbody
  split at hbody
  · next hnull =>
    obtain ⟨s₁, hs₁, rfl⟩ := Option.map_eq_some_iff.mp hbody
    obtain ⟨handle, -, hfree, hattempt⟩ := connectEntry_eq_some hs₁
    have hnext : s₁.1.net.next = s.1.net.next + 1 := by rw [hattempt, attempted_next hfree]
    have hlinks : s₁.1.links = Function.update s.1.links s.1.net.next
        { handle, assocSvrInfo := some r } := by rw [hattempt, attempted_links]
    have hentries : s₁.1.entries = Function.update s.1.entries r
        { s.1.entries r with servConn := some s.1.net.next } := by
      rw [hattempt, attempted_entries]
    have hservices : s₁.1.services = s.1.services := by
      rw [hattempt]
      rfl
    have hlist : s₁.1.nextList = s.1.nextList := by
      rw [hattempt]
      rfl
    refine ⟨hservices.trans h.services, hlist.trans h.nextList, ?_, ?_, ?_, ?_⟩
    · change m₀.net.next ≤ s₁.1.net.next
      rw [hnext]
      exact Nat.le_succ_of_le h.next
    · intro c hc
      change s₁.1.links c = _
      have hne : c ≠ s.1.net.next := Nat.ne_of_lt (Nat.lt_of_lt_of_le hc h.next)
      rw [hlinks, Function.update_of_ne hne, h.links c hc]
    · intro r'
      rw [← h.host r']
      by_cases hr : r' = r
      · subst hr
        simp only [modifyEntry, hentries, Function.update_self]
        rfl
      · simp only [modifyEntry, hentries, Function.update_of_ne hr]
    · intro r'
      by_cases hr : r' = r
      · subst hr
        have hnull₀ : (m₀.entries r').servConn = none := by
          obtain heq | ⟨hnull₀, -⟩ := h.entry r'
          · rw [← heq, hnull]
          · exact hnull₀
        refine .inr ⟨hnull₀, s.1.net.next, ?_, h.next, ?_, ?_⟩
        · simp only [modifyEntry, hentries, Function.update_self]
        · change s.1.net.next < s₁.1.net.next
          rw [hnext]
          exact Nat.lt_succ_self _
        · change (s₁.1.links s.1.net.next).assocSvrInfo = some r'
          rw [hlinks, Function.update_self]
      · simp only [modifyEntry, hentries, Function.update_of_ne hr]
        obtain heq | ⟨hnull₀, c, hc, hle, hlt, hinfo⟩ := h.entry r'
        · exact .inl heq
        · refine .inr ⟨hnull₀, c, hc, hle, ?_, ?_⟩
          · rw [hnext]
            exact Nat.lt_succ_of_lt hlt
          · rw [hlinks, Function.update_of_ne (Nat.ne_of_lt hlt), hinfo]
  · cases hbody
    exact h

theorem initialised_servInit (h : m₀.servInit handles = some m) : Initialised m₀ m :=
  Run.run_invariant (fun s => Initialised m₀ s.1) (.refl m₀)
    (fun _ _ _ _ hs hbody => hs.servInitEntry hbody) (forEntries_eq_some h)

theorem Initialised.refsOf (h : Initialised m₀ m) : m.refsOf k = m₀.refsOf k := by
  rw [CServerLinkMgr.refsOf, h.services, CServerLinkMgr.refsOf]

theorem Initialised.hostsOf (h : Initialised m₀ m) : m.hostsOf k = m₀.hostsOf k := by
  rw [CServerLinkMgr.hostsOf, h.refsOf, CServerLinkMgr.hostsOf]
  simp only [h.host]

theorem Initialised.prior (h : Initialised m₀ m) (hprior : m₀.Prior) : m.Prior := by
  refine ⟨?_, ?_, ?_, ?_⟩
  · rw [h.services]
    exact hprior.lists
  · rw [h.services, h.nextList]
    exact hprior.fresh
  · intro k
    rw [h.hostsOf]
    exact hprior.hosts k
  · intro k r hr c hc
    rw [h.refsOf] at hr
    obtain heq | ⟨-, c', hc', -, hlt, hinfo⟩ := h.entry r
    · rw [heq] at hc
      obtain ⟨hinfo, hlt⟩ := hprior.link k r hr c hc
      rw [h.links c hlt]
      exact ⟨hinfo, Nat.lt_of_lt_of_le hlt h.next⟩
    · obtain rfl : c' = c := Option.some.inj (hc'.symm.trans hc)
      exact ⟨hinfo, hlt⟩

end Init

section Services

variable {traverse : Traversal} {s s' : CServerLinkMgr × List AssocSvrList}
  {lists lists' : List AssocSvrList} {handles : Handles} {hosts : List Host} {k : Nat}
  {m₁ m₂ m₃ : CServerLinkMgr} {l : AssocSvrList} {service : AssocSvrInfo} {order : List ServInfo}

/-- What the loop over the services keeps. -/
structure LoopPrior (s : CServerLinkMgr × List AssocSvrList) : Prop where
  prior : s.1.Prior
  holds : ∀ l ∈ s.2, l.bUpdate = true → ∃ p, l.Holds p

theorem refreshService_cases (hstep : refreshService traverse s k = some s') (hs : s.1.Prior) :
    ∃ l, s.2[k]? = some l ∧
      (l.bUpdate = false ∧ s' = s ∨
        l.bUpdate = true ∧ ∃ service order, (∀ p, l.Holds p → Refreshes s.1 k service l p order) ∧
          s'.1 = s.1.replaceList k l.assocSvrId order ∧
          ∃ map, s'.2 = s.2.set k { l with bUpdate := false, mapAssocSvr := map }) := by
  unfold refreshService at hstep
  split at hstep
  · next service l hservice hl =>
    refine ⟨l, hl, ?_⟩
    cases hupdate : l.bUpdate with
    | false =>
      simp only [hupdate, Bool.false_eq_true, if_false] at hstep
      exact .inl ⟨rfl, (Option.some.inj hstep).symm⟩
    | true =>
      simp only [hupdate, if_true] at hstep
      split at hstep
      · cases hstep
      · cases hstep
        refine .inr ⟨rfl, service, _, ?_, rfl, _, rfl⟩
        intro p hp
        exact ⟨hs, hservice, hp, (traverse k _).2⟩
  · cases hstep

theorem LoopPrior.refreshService (h : LoopPrior s) (hstep : refreshService traverse s k = some s') :
    LoopPrior s' := by
  obtain ⟨l, hl, ⟨-, rfl⟩ | ⟨hupdate, service, order, hrefreshes, hm, map, hlists⟩⟩ :=
    refreshService_cases hstep h.prior
  · exact h
  · obtain ⟨p, hp⟩ := h.holds l (List.mem_of_getElem? hl) hupdate
    constructor
    · rw [hm]
      exact (hrefreshes p hp).replaced
    · rw [hlists]
      intro l' hl' hupdate'
      obtain hmem | rfl := List.mem_or_eq_of_mem_set hl'
      · exact h.holds l' hmem hupdate'
      · cases hupdate'

theorem LoopPrior.other (h : LoopPrior s) (hstep : CServerLinkMgr.refreshService traverse s k = some s')
    (hk : i ≠ k) :
    SameService s.1 s'.1 i ∧ s'.2[i]? = s.2[i]? ∧ s'.1.net = s.1.net := by
  obtain ⟨l, hl, ⟨-, rfl⟩ | ⟨hupdate, service, order, hrefreshes, hm, map, hlists⟩⟩ :=
    refreshService_cases hstep h.prior
  · exact ⟨.refl _ _, rfl, rfl⟩
  · obtain ⟨p, hp⟩ := h.holds l (List.mem_of_getElem? hl) hupdate
    refine ⟨?_, ?_, ?_⟩
    · rw [hm]
      exact (hrefreshes p hp).sameService hk
    · rw [hlists, List.getElem?_set_ne hk.symm]
    · rw [hm, replaceList_net]

theorem LoopPrior.others (h : LoopPrior s) {ks : List Nat} (hks : i ∉ ks)
    (hrun : Run.run (CServerLinkMgr.refreshService traverse) s ks = some s') :
    LoopPrior s' ∧ SameService s.1 s'.1 i ∧ s'.2[i]? = s.2[i]? ∧ s'.1.net = s.1.net := by
  refine Run.run_invariant (fun s' => LoopPrior s' ∧ SameService s.1 s'.1 i ∧
    s'.2[i]? = s.2[i]? ∧ s'.1.net = s.1.net) ⟨h, .refl _ _, rfl, rfl⟩ ?_ hrun
  rintro s₁ s₂ k hk ⟨hloop, hsame, hlist, hnet⟩ hstep
  have hne : i ≠ k := by
    rintro rfl
    exact hks hk
  obtain ⟨hsame', hlist', hnet'⟩ := hloop.other hstep hne
  exact ⟨hloop.refreshService hstep, hsame.trans hsame', hlist'.trans hlist, hnet'.trans hnet⟩

theorem SameService.connectedHosts (h : SameService m m' k) :
    m'.connectedHosts k = m.connectedHosts k := by
  have hentry : ∀ r ∈ m.refsOf k, m'.entries r = m.entries r := h.entry
  rw [CServerLinkMgr.connectedHosts, h.refsOf, CServerLinkMgr.connectedHosts]
  have hfilter : (m.refsOf k).filter (fun r => (m'.entries r).servConn ≠ none) =
      (m.refsOf k).filter fun r => (m.entries r).servConn ≠ none := by
    refine List.filter_congr ?_
    intro r hr
    rw [hentry r hr]
  rw [hfilter]
  refine List.map_congr_left ?_
  intro r hr
  rw [hentry r (List.mem_of_mem_filter hr)]

theorem refreshed_nil_iff (hprior : m.Prior) (hsame : SameService m m₃ i)
    (hnet : m₃.net = m.net) (hinit : Initialised m₃ m') :
    Refreshed m m' i [] ↔ ∀ r ∈ m.refsOf i, (m.entries r).servConn ≠ none := by
  have hhosts : m'.hostsOf i = m.hostsOf i := hinit.hostsOf.trans hsame.hostsOf
  have hrefs : m'.refsOf i = m.refsOf i := hinit.refsOf.trans hsame.refsOf
  constructor
  · intro h r hr hnull
    have hmem : (m.entries r).host ∈ m'.hostsOf i := by
      rw [hhosts]
      exact List.mem_map_of_mem hr
    obtain hnil | hconnected := h.only _ hmem
    · cases hnil
    · obtain ⟨r', hr', hconn, heq⟩ := mem_connectedHosts.mp hconnected
      obtain rfl : r' = r := List.inj_on_of_nodup_map (hprior.hosts i) hr' hr heq
      exact hconn hnull
  · intro hall
    have hkept : ∀ r ∈ m.refsOf i, m'.entries r = m.entries r := by
      intro r hr
      obtain heq | ⟨hnull, -⟩ := hinit.entry r
      · rw [heq, hsame.entry r hr]
      · rw [hsame.entry r hr] at hnull
        exact absurd hnull (hall r hr)
    refine ⟨?_, ?_, ?_, ?_⟩
    · rintro host (hnil | hconnected)
      · cases hnil
      · obtain ⟨r, hr, -, rfl⟩ := mem_connectedHosts.mp hconnected
        rw [hhosts]
        exact List.count_eq_one_of_mem (hprior.hosts i) (List.mem_map_of_mem hr)
    · intro host hhost
      rw [hhosts] at hhost
      obtain ⟨r, hr, rfl⟩ := List.mem_map.mp hhost
      exact .inr (mem_connectedHosts.mpr ⟨r, hr, hall r hr, rfl⟩)
    · intro r hr c hc
      obtain ⟨hinfo, hlt⟩ := hprior.link i r hr c hc
      refine ⟨r, hrefs ▸ hr, by rw [hkept r hr], by rw [hkept r hr, hc], ?_⟩
      rw [hinit.links c (hnet ▸ hlt), hsame.link r hr c hc, hinfo]
    · intro r hr c hc hle
      rw [hrefs] at hr
      rw [hkept r hr] at hc
      exact absurd (hprior.link i r hr c hc).2 (Nat.not_lt.mpr hle)

/-- The hosts of the new list are those that were read and those with links. -/
theorem Refreshes.perm_hosts (h : Refreshes m i service l (· ∈ hosts) order) :
    (order.map ServInfo.host).Perm (hosts ++ m.connectedHosts i).dedup := by
  refine (List.perm_ext_iff_of_nodup h.nodup_order (List.nodup_dedup _)).mpr ?_
  intro host
  rw [List.mem_dedup, List.mem_append, List.mem_map]
  constructor
  · rintro ⟨e, he, rfl⟩
    obtain ⟨r, hr, rfl, hconn⟩ | ⟨host, hhost, rfl, -⟩ := h.mem_order.mp he
    · exact .inr (mem_connectedHosts.mpr ⟨r, hr, hconn, rfl⟩)
    · exact .inl hhost
  · intro hhost
    by_cases hconnected : host ∈ m.connectedHosts i
    · obtain ⟨r, hr, hconn, rfl⟩ := mem_connectedHosts.mp hconnected
      exact ⟨_, h.mem_order.mpr (.inl ⟨r, hr, rfl, hconn⟩), rfl⟩
    · refine ⟨.refreshed host, h.mem_order.mpr (.inr ⟨host, ?_, rfl, hconnected⟩), rfl⟩
      exact hhost.resolve_right hconnected

/-- If the list is no longer than the count can say, it is read as a whole. -/
theorem count_eq (hsmall : order.length ≤ 32767) :
    (Int16.ofNat order.length).toInt.toNat = order.length := by
  rw [Int16.toInt_ofNat_of_lt (by omega)]
  exact Int.toNat_natCast _

/-- A link goes with its entry to the new list, and points to it. -/
theorem Refreshes.kept_replaced (h : Refreshes m i service l (· ∈ hosts) order)
    (hsame : SameService (m.replaceList i l.assocSvrId order) m₃ i) (hnet : m₃.net = m.net)
    (hinit : Initialised m₃ m') (hsmall : order.length ≤ 32767) {r : EntryRef} (hr : r ∈ m.refsOf i)
    {c : SocketId} (hc : (m.entries r).servConn = some c) :
    ∃ r' ∈ m'.refsOf i, (m'.entries r').host = (m.entries r).host ∧
      (m'.entries r').servConn = some c ∧ (m'.links c).assocSvrInfo = some r' := by
  have he : m.entries r ∈ order :=
    h.mem_order.mpr (.inl ⟨r, hr, rfl, by rw [hc]; exact Option.some_ne_none c⟩)
  obtain ⟨j, hlt, hj⟩ := List.getElem_of_mem he
  have hj : order[j]? = some (m.entries r) := by rw [List.getElem?_eq_getElem hlt, hj]
  have hr' : ⟨m.nextList, j⟩ ∈ (m.replaceList i l.assocSvrId order).refsOf i :=
    h.mem_refsOf.mpr ⟨j, by rw [count_eq hsmall]; exact hlt, rfl⟩
  have hentry₃ : m₃.entries ⟨m.nextList, j⟩ = m.entries r :=
    (hsame.entry _ hr').trans (replaceList_entries hj)
  have hentry : m'.entries ⟨m.nextList, j⟩ = m.entries r := by
    obtain heq | ⟨hnull, -⟩ := hinit.entry ⟨m.nextList, j⟩
    · rw [heq, hentry₃]
    · rw [hentry₃, hc] at hnull
      cases hnull
  have hrefs := hinit.refsOf.trans hsame.refsOf
  refine ⟨⟨m.nextList, j⟩, hrefs ▸ hr', by rw [hentry], by rw [hentry, hc], ?_⟩
  have hlt' : c < m₃.net.next := hnet ▸ (h.prior.link i r hr c hc).2
  have hconn : ((m.replaceList i l.assocSvrId order).entries ⟨m.nextList, j⟩).servConn =
      some c := by rw [replaceList_entries hj, hc]
  rw [hinit.links c hlt', hsame.link _ hr' c hconn]
  exact h.assocSvrInfo hj hc

theorem Refreshes.started_replaced (h : Refreshes m i service l (· ∈ hosts) order)
    (hsame : SameService (m.replaceList i l.assocSvrId order) m₃ i) (hinit : Initialised m₃ m')
    {r : EntryRef} (hr : r ∈ m'.refsOf i) {c : SocketId} (hc : (m'.entries r).servConn = some c)
    (hle : m.net.next ≤ c) : (m'.entries r).host ∉ m.connectedHosts i := by
  rw [hinit.refsOf.trans hsame.refsOf] at hr
  obtain ⟨j, e, rfl, hj, he⟩ := h.entry hr
  have hentry₃ : m₃.entries ⟨m.nextList, j⟩ = e := (hsame.entry _ hr).trans he
  rw [hinit.host, hentry₃]
  have hmem := List.mem_of_getElem? hj
  obtain heq | ⟨hnull, -⟩ := hinit.entry ⟨m.nextList, j⟩
  · rw [heq, hentry₃] at hc
    obtain ⟨-, -, -, -, hlt⟩ := h.link hmem hc
    exact absurd hlt (Nat.not_lt.mpr hle)
  · rw [hentry₃] at hnull
    obtain ⟨-, -, -, hconn⟩ | ⟨host, -, rfl, hnot⟩ := h.mem_order.mp hmem
    · exact absurd hnull hconn
    · exact hnot

theorem refreshed_replaced_iff (h : Refreshes m i service l (· ∈ hosts) order)
    (hsame : SameService (m.replaceList i l.assocSvrId order) m₃ i) (hnet : m₃.net = m.net)
    (hinit : Initialised m₃ m') :
    Refreshed m m' i hosts ↔ (hosts ++ m.connectedHosts i).dedup.length ≤ 32767 := by
  have hhosts := hinit.hostsOf.trans (hsame.hostsOf.trans h.hostsOf)
  have hlength := h.perm_hosts.length_eq
  rw [List.length_map] at hlength
  constructor
  · intro hrefreshed
    have hsubset : (hosts ++ m.connectedHosts i).dedup ⊆ m'.hostsOf i := by
      intro host hhost
      rw [List.mem_dedup, List.mem_append] at hhost
      exact List.count_pos_iff.mp (by rw [hrefreshed.once host hhost]; exact Nat.one_pos)
    have hle := (List.subperm_of_subset (List.nodup_dedup _) hsubset).length_le
    rw [hhosts, List.length_map, List.length_take] at hle
    exact Nat.le_trans hle (Nat.le_trans (Nat.min_le_left _ _) (count_le order.length).2)
  · intro hsmall
    rw [← hlength] at hsmall
    have hall : m'.hostsOf i = order.map ServInfo.host := by
      rw [hhosts, count_eq hsmall, List.take_length]
    have hmem : ∀ host, host ∈ m'.hostsOf i ↔ host ∈ hosts ∨ host ∈ m.connectedHosts i := by
      intro host
      rw [hall, h.perm_hosts.mem_iff, List.mem_dedup, List.mem_append]
    refine ⟨?_, fun host => (hmem host).mp, ?_, ?_⟩
    · intro host hhost
      refine List.count_eq_one_of_mem ?_ ((hmem host).mpr hhost)
      rw [hall]
      exact h.nodup_order
    · exact fun r hr c hc => h.kept_replaced hsame hnet hinit hsmall hr hc
    · exact fun r hr c hc hle => h.started_replaced hsame hinit hr hc hle

theorem Refreshed.of_same (hsame : SameService m m₁ i) (hnet : m₁.net = m.net) :
    Refreshed m m' i hosts ↔ Refreshed m₁ m' i hosts := by
  have hrefs := hsame.refsOf
  have hconnected := hsame.connectedHosts
  constructor
  · intro h
    refine ⟨?_, ?_, ?_, ?_⟩
    · rw [hconnected]
      exact h.once
    · rw [hconnected]
      exact h.only
    · intro r hr c hc
      rw [hrefs] at hr
      rw [hsame.entry r hr] at hc ⊢
      exact h.kept r hr c hc
    · rw [hconnected, hnet]
      exact h.started
  · intro h
    refine ⟨?_, ?_, ?_, ?_⟩
    · rw [← hconnected]
      exact h.once
    · rw [← hconnected]
      exact h.only
    · intro r hr c hc
      rw [← hsame.entry r hr] at hc ⊢
      exact h.kept r (hrefs ▸ hr) c hc
    · rw [← hconnected, ← hnet]
      exact h.started

theorem bUpdate_foldl (l : AssocSvrList) (hosts : List Host) :
    (hosts.foldl AssocSvrList.refreshAssocSvrItem l).bUpdate = (l.bUpdate || !hosts.isEmpty) := by
  induction hosts generalizing l with
  | nil => simp
  | cons host hosts ih =>
    rw [List.foldl_cons, ih]
    simp [AssocSvrList.refreshAssocSvrItem]

theorem bUpdate_refreshItems (l : AssocSvrList) (hosts : List Host) :
    (l.refreshItems hosts).bUpdate = (l.bUpdate || !hosts.isEmpty) := bUpdate_foldl _ hosts

/-- The lists that a refresh starts from: those that are marked were read from the registry. -/
def Pulled (lists : List AssocSvrList) : Prop :=
  ∀ l ∈ lists, l.bUpdate = true → ∃ l₀ hosts, l = AssocSvrList.refreshItems l₀ hosts

theorem loopPrior_of_pulled (hprior : m.Prior) (hpulled : Pulled lists) :
    LoopPrior (m, lists) := by
  refine ⟨hprior, ?_⟩
  intro l hl hupdate
  obtain ⟨l₀, hosts, rfl⟩ := hpulled l hl hupdate
  exact ⟨_, AssocSvrList.holds_refreshItems l₀ hosts⟩

theorem connectAssocSvr_eq_some
    (h : m.connectAssocSvr traverse lists handles = some (m', lists')) :
    ∃ s, Run.run (refreshService traverse) (m, lists) (List.range m.services.length) = some s ∧
      Initialised s.1 m' := by
  obtain ⟨s, hrun, hend⟩ := Option.bind_eq_some_iff.mp h
  refine ⟨s, hrun, ?_⟩
  split at hend
  · obtain ⟨m'', hinit, heq⟩ := Option.map_eq_some_iff.mp hend
    cases heq
    exact initialised_servInit hinit
  · split at hend
    · cases hend
      exact .refl _
    · cases hend

/-- A refresh makes of the list of a service what it is to make of it, exactly if the hosts
are no more than a 16-bit count can hold, and all old entries have links where the registry
had no server. -/
theorem refreshed_iff (hprior : m.Prior) (hlength : lists.length = m.services.length)
    (hpulled : Pulled lists) (hlist : lists[i]? = some (l.refreshItems hosts))
    (hunmarked : l.bUpdate = false)
    (hrun : m.connectAssocSvr traverse lists handles = some (m', lists')) :
    Refreshed m m' i hosts ↔
      if hosts = [] then ∀ r ∈ m.refsOf i, (m.entries r).servConn ≠ none
      else (hosts ++ m.connectedHosts i).dedup.length ≤ 32767 := by
  obtain ⟨s₃, hrun, hinit⟩ := connectAssocSvr_eq_some hrun
  have hloop : LoopPrior (m, lists) := loopPrior_of_pulled hprior hpulled
  -- the turns before and after the one for the service `i` leave it alone
  have hi : i ∈ List.range m.services.length := by
    rw [List.mem_range, ← hlength]
    exact (List.getElem?_eq_some_iff.mp hlist).1
  obtain ⟨before, after, hrange⟩ := List.append_of_mem hi
  have hnodup : (before ++ i :: after).Nodup := hrange ▸ List.nodup_range
  have hbefore : i ∉ before := fun hmem =>
    (List.nodup_append'.mp hnodup).2.2 hmem List.mem_cons_self
  have hafter : i ∉ after := (List.nodup_cons.mp (List.nodup_append'.mp hnodup).2.1).1
  rw [hrange] at hrun
  obtain ⟨s₁, hrun₁, hrun⟩ := Run.run_append.mp hrun
  obtain ⟨s₂, hstep, hrun₃⟩ := Run.run_cons.mp hrun
  obtain ⟨hloop₁, hsame₁, hlist₁, hnet₁⟩ := hloop.others hbefore hrun₁
  obtain ⟨-, hsame₃, -, hnet₃⟩ := (hloop₁.refreshService hstep).others hafter hrun₃
  rw [Refreshed.of_same hsame₁ hnet₁, ← hsame₁.connectedHosts]
  obtain ⟨l', hl', hcases⟩ := refreshService_cases hstep hloop₁.prior
  obtain rfl : l.refreshItems hosts = l' := by
    rw [hlist₁, hlist] at hl'
    exact Option.some.inj hl'
  have hmarked := bUpdate_refreshItems l hosts
  rw [hunmarked, Bool.false_or] at hmarked
  obtain ⟨hmark, rfl⟩ | ⟨hmark, service, order, hrefreshes, hm₂, -⟩ := hcases
  · obtain rfl : hosts = [] := by
      rw [hmark] at hmarked
      exact List.isEmpty_iff.mp (by simpa using hmarked.symm)
    rw [if_pos rfl, refreshed_nil_iff hloop₁.prior hsame₃ hnet₃ hinit, hsame₁.refsOf]
    constructor
    · intro hall r hr
      rw [← hsame₁.entry r hr]
      exact hall r hr
    · intro hall r hr
      rw [hsame₁.entry r hr]
      exact hall r hr
  · have hne : hosts ≠ [] := by
      rintro rfl
      rw [hmark] at hmarked
      cases hmarked
    rw [if_neg hne]
    rw [hm₂] at hsame₃
    refine refreshed_replaced_iff (hrefreshes _ (AssocSvrList.holds_refreshItems l hosts)) hsame₃ ?_
      hinit
    rw [hnet₃, hm₂, replaceList_net]

theorem prior_connectAssocSvr (hprior : m.Prior) (hpulled : Pulled lists)
    (hrun : m.connectAssocSvr traverse lists handles = some (m', lists')) : m'.Prior := by
  obtain ⟨s, hrun, hinit⟩ := connectAssocSvr_eq_some hrun
  have hloop : LoopPrior (m, lists) := loopPrior_of_pulled hprior hpulled
  refine hinit.prior (Run.run_invariant LoopPrior hloop ?_ hrun).prior
  intro s s' k _ hs hstep
  exact hs.refreshService hstep

end Services

/-- One service, without any server yet. -/
def noServers : CServerLinkMgr := { services := [⟨2, 0, 0⟩], nextList := 1 }

/-- One service with one server that has no link. -/
def oneUnconnected : CServerLinkMgr :=
  { services := [⟨2, 1, 0⟩], nextList := 1
    entries := fun _ => { serverIp := "10.0.0.1", serverPort := 8000, reconnectCnt := 4 } }

/-- The order in which the entries of a map are listed, which is one of those that a traversal may
take. -/
def inListOrder : Traversal := fun _ map => ⟨map.entries.map Sigma.snd, .refl _⟩

theorem prior_noServers : noServers.Prior := by
  have hrefs : ∀ i, noServers.refsOf i = [] := by
    intro i
    cases i <;> rfl
  refine ⟨by decide, by decide, ?_, ?_⟩
  · intro i
    rw [hostsOf, hrefs]
    exact List.nodup_nil
  · intro i r hr
    rw [hrefs] at hr
    cases hr

theorem prior_oneUnconnected : oneUnconnected.Prior := by
  refine ⟨by decide, by decide, ?_, ?_⟩
  · intro i
    cases i with
    | zero => decide
    | succ i => exact List.nodup_nil
  · intro i r hr c hc
    cases hc

/-- What is read from the registry for the service if these hosts are registered there. -/
def readHosts (hosts : List Host) : List AssocSvrList :=
  [AssocSvrList.refreshItems { assocSvrId := 2 } hosts]

theorem pulled_readHosts (hosts : List Host) : Pulled (readHosts hosts) := by
  intro l hl _
  obtain rfl := List.mem_singleton.mp hl
  exact ⟨_, hosts, rfl⟩

/-- The first server is found, and then the second one while the link to the first is open. -/
theorem refreshed_second_server :
    ∃ m₁ m₂ lists₁ lists₂,
      noServers.connectAssocSvr inListOrder (readHosts [("10.0.0.1", 8000)]) [some 5] =
        some (m₁, lists₁) ∧
      m₁.connectAssocSvr inListOrder (readHosts [("10.0.0.2", 8000)]) [some 7] =
        some (m₂, lists₂) ∧
      Refreshed m₁ m₂ 0 [("10.0.0.2", 8000)] := by
  have hrun : ∃ m₁ m₂ lists₁ lists₂,
      noServers.connectAssocSvr inListOrder (readHosts [("10.0.0.1", 8000)]) [some 5] =
        some (m₁, lists₁) ∧
      m₁.connectAssocSvr inListOrder (readHosts [("10.0.0.2", 8000)]) [some 7] =
        some (m₂, lists₂) ∧
      (readHosts [("10.0.0.2", 8000)]).length = m₁.services.length ∧
      ([("10.0.0.2", 8000)] ++ m₁.connectedHosts 0).dedup.length ≤ 32767 :=
    ⟨_, _, _, _, rfl, rfl, rfl, by decide⟩
  obtain ⟨m₁, m₂, lists₁, lists₂, hrun₁, hrun₂, hlength, hsmall⟩ := hrun
  have hprior := prior_connectAssocSvr prior_noServers (pulled_readHosts _) hrun₁
  refine ⟨m₁, m₂, lists₁, lists₂, hrun₁, hrun₂, ?_⟩
  refine (refreshed_iff hprior hlength (pulled_readHosts _) rfl rfl hrun₂).mpr ?_
  rw [if_neg (List.cons_ne_nil _ _)]
  exact hsmall

/-- The last server of a service is gone from the registry, its link is closed, and it stays
in the list. -/
theorem not_refreshed_last_server :
    ∃ m' lists', oneUnconnected.Prior ∧
      oneUnconnected.connectAssocSvr inListOrder (readHosts []) [] = some (m', lists') ∧
      m'.hostsOf 0 = [("10.0.0.1", 8000)] ∧ ¬ Refreshed oneUnconnected m' 0 [] := by
  have hrun : ∃ m' lists',
      oneUnconnected.connectAssocSvr inListOrder (readHosts []) [] = some (m', lists') ∧
      m'.hostsOf 0 = [("10.0.0.1", 8000)] := ⟨_, _, rfl, by decide⟩
  obtain ⟨m', lists', hrun, hhosts⟩ := hrun
  refine ⟨m', lists', prior_oneUnconnected, hrun, hhosts, ?_⟩
  intro h
  have hmem : ("10.0.0.1", 8000) ∈ m'.hostsOf 0 := by
    rw [hhosts]
    exact List.mem_singleton.mpr rfl
  obtain hnil | hconnected := h.only _ hmem
  · cases hnil
  · exact absurd hconnected (by decide)

end CServerLinkMgr

end ImServer
