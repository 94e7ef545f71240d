import ImServer.Lib.Run
import Mathlib.Data.List.Nodup
import Mathlib.Data.List.Perm.Subperm
import Mathlib.Data.Nat.ModEq
import Mathlib.Logic.Function.Basic

/-!
# The connection that a push request takes

`CPostMgr::Post` (ipush/ssl_post_mgr.cpp) goes round the connections until one of them takes the
request. The index of the connection that was used last is shared by all senders. Each read,
increment and assignment of it is one step here, and the senders take their steps in any order. The
index is set back only when it is found to be the number of connections, so that two increments in a
row carry it past this number for good.

All connections have been inserted. A sender that is alone goes round them once.
-/

namespace ImServer

structure CPost where
  usrable : Bool
  deriving DecidableEq, Repr

/-- Where a sender is in `Post`: `i` is the counter of the loop, and `ret` what it returns if
nothing more happens. -/
inductive PostLoop where
  | idle
  | size (i : ℕ) (ret : ℤ)
  | increment (i : ℕ) (ret : ℤ)
  | compare (i : ℕ) (ret : ℤ)
  | reset (i : ℕ) (ret : ℤ)
  | visit (i : ℕ) (ret : ℤ)
  | request (i : ℕ)
  | returned (ret : ℤ)
  deriving DecidableEq, Repr

namespace PostLoop

/-- The sender has incremented the index and not read the connection yet. -/
def chooses : PostLoop → Bool
  | compare .. | reset .. | visit .. => true
  | idle | size .. | increment .. | request _ | returned _ => false

/-- The sender may still set the index back. -/
def resets : PostLoop → Bool
  | compare .. | reset .. => true
  | idle | size .. | increment .. | visit .. | request _ | returned _ => false

theorem chooses_of_resets {p : PostLoop} (h : p.resets = true) : p.chooses = true := by
  cases p with
  | compare i ret | reset i ret => rfl
  | idle | size i ret | increment i ret | visit i ret | request i | returned ret => cases h

theorem ne_reset {p : PostLoop} (h : p.chooses = false) {i : ℕ} {ret : ℤ} : p ≠ .reset i ret := by
  rintro rfl
  cases h

end PostLoop

/-- `CPostMgr` with the senders `ι`. The pointer of a connection may be null, and the index is
shared without a lock. -/
structure CPostMgr (ι : Type) where
  postIndex : ℤ := 0
  postVec : List (Option CPost)
  post : ι → PostLoop := fun _ => .idle
  /-- The indices that connections were read with, and whether a usable connection was there. -/
  visits : List (ℤ × Bool) := []

namespace CPostMgr

variable {ι : Type}

/-- `ret` is what `Request` returns if this turn calls it. Other threads set whether a connection
is usable. -/
inductive Event (ι : Type) where
  | call (i : ι)
  | turn (i : ι) (ret : ℤ)
  | setUsrable (c : ℕ) (flag : Bool)
  deriving DecidableEq, Repr

/-- `GetPostSize`. -/
def size (s : CPostMgr ι) : ℕ := s.postVec.length

/-- There is a connection, and it is usable. Beyond the end nothing is found. -/
def usrable (s : CPostMgr ι) (index : ℤ) : Bool :=
  0 ≤ index && (s.postVec[index.toNat]?.join).any (·.usrable)

def setUsrable (s : CPostMgr ι) (c : ℕ) (flag : Bool) : CPostMgr ι :=
  { s with postVec := s.postVec.modify c (·.map fun _ => ⟨flag⟩) }

section Steps

variable [DecidableEq ι] (s : CPostMgr ι)

def goTo (i : ι) (place : PostLoop) : CPostMgr ι := { s with post := Function.update s.post i place }

/-- The turn of a sender: a read or write of the index, after which another sender may come. -/
def turn (i : ι) (ret : ℤ) : Option (CPostMgr ι) :=
  match s.post i with
  | .idle | .returned _ => none
  | .size k r => some (s.goTo i (if k < s.size then .increment k r else .returned r))
  | .increment k r => some ({ s with postIndex := s.postIndex + 1 }.goTo i (.compare k r))
  | .compare k r => some (s.goTo i (if s.postIndex = s.size then .reset k r else .visit k r))
  | .reset k r => some ({ s with postIndex := 0 }.goTo i (.visit k r))
  | .visit k r =>
    let usrable := s.usrable s.postIndex
    some ({ s with visits := s.visits ++ [(s.postIndex, usrable)] }.goTo i
      (if usrable then .request k else .size (k + 1) r))
  | .request k => some (s.goTo i (if ret < 0 then .size (k + 1) ret else .returned ret))

def step : Event ι → Option (CPostMgr ι)
  | .call i =>
    match s.post i with
    | .idle | .returned _ => some (s.goTo i (.size 0 (-2)))
    | _ => none
  | .turn i ret => s.turn i ret
  | .setUsrable c flag => some (s.setUsrable c flag)

end Steps

def start (postVec : List (Option CPost)) : CPostMgr ι := { postVec := postVec }

/-- Connections were read within the vector only, whatever the senders have made of the index. -/
def InRange (s : CPostMgr ι) : Prop := ∀ visit ∈ s.visits, 0 ≤ visit.1 ∧ visit.1 < s.size

/-- Nobody increments the index to the number of connections while another sender is choosing. -/
def Good (s : CPostMgr ι) : Event ι → Prop
  | .turn i _ => (∃ k r, s.post i = .increment k r) →
      s.postIndex + 1 < s.size ∨ ∀ j, j ≠ i → (s.post j).chooses = false
  | .call _ | .setUsrable .. => True

/-- If the index is the number of connections, the one sender that is choosing sets it back. -/
structure Inv (n : ℕ) (s : CPostMgr ι) : Prop where
  pos : 0 < n
  size : s.size = n
  nonneg : 0 ≤ s.postIndex
  le : s.postIndex ≤ n
  top : s.postIndex = n → ∃ i, (s.post i).resets = true ∧ ∀ j, j ≠ i → (s.post j).chooses = false
  reset : ∀ i k r, s.post i = .reset k r → s.postIndex = n
  inRange : s.InRange

variable {s s' : CPostMgr ι} {n : ℕ} {i : ι}

theorem inv_start {postVec : List (Option CPost)} (h : postVec ≠ []) :
    (start postVec : CPostMgr ι).Inv postVec.length where
  pos := List.length_pos_iff.mpr h
  size := rfl
  nonneg := Int.le_refl 0
  le := Int.natCast_nonneg _
  top htop := by
    have hpos := List.length_pos_iff.mpr h
    simp only [start] at htop
    omega
  reset _ _ _ h := by cases h
  inRange _ hvisit := absurd hvisit List.not_mem_nil

theorem Inv.setUsrable (h : s.Inv n) (c : ℕ) (flag : Bool) : (s.setUsrable c flag).Inv n := by
  have hsize : (s.setUsrable c flag).size = s.size := List.length_modify _ _ _
  refine ⟨h.pos, hsize.trans h.size, h.nonneg, h.le, h.top, h.reset, fun visit hvisit => ?_⟩
  rw [hsize]
  exact h.inRange visit hvisit

theorem usrable_setUsrable {c c' : ℕ} {flag : Bool} (h : s.usrable c = true)
    (hkept : c' = c → flag = true) : (s.setUsrable c' flag).usrable c = true := by
  simp only [usrable, setUsrable, Int.natCast_nonneg, decide_true, Bool.true_and, Int.toNat_natCast,
    List.getElem?_modify] at h ⊢
  cases hconn : s.postVec[c]? with
  | none => simp [hconn] at h
  | some conn =>
    cases conn with
    | none => simp [hconn] at h
    | some post =>
      by_cases hc : c' = c
      · simp [hc, hkept hc]
      · simpa [hc, hconn] using h

theorem good_of_subsingleton [Subsingleton ι] (s : CPostMgr ι) (e : Event ι) : s.Good e := by
  cases e with
  | turn i ret => exact fun _ => .inr fun j hj => absurd (Subsingleton.elim j i) hj
  | call i | setUsrable c flag => trivial

section Threads

variable [DecidableEq ι]

@[simp] theorem goTo_post_self (s : CPostMgr ι) (i : ι) (place : PostLoop) :
    (s.goTo i place).post i = place :=
  Function.update_self _ _ _

theorem goTo_post_of_ne (s : CPostMgr ι) {i j : ι} (place : PostLoop) (h : j ≠ i) :
    (s.goTo i place).post j = s.post j :=
  Function.update_of_ne h _ _

theorem Inv.goTo (h : s.Inv n) {place : PostLoop} (hbefore : (s.post i).chooses = false)
    (hafter : place.chooses = false) : (s.goTo i place).Inv n := by
  refine ⟨h.pos, h.size, h.nonneg, h.le, fun htop => ?_, fun j k r hj => ?_, h.inRange⟩
  · obtain ⟨j, hj, hothers⟩ := h.top htop
    have hji : j ≠ i := by
      rintro rfl
      rw [PostLoop.chooses_of_resets hj] at hbefore
      cases hbefore
    refine ⟨j, by rwa [goTo_post_of_ne s _ hji], fun j' hj' => ?_⟩
    by_cases hi : j' = i
    · rw [hi, goTo_post_self, hafter]
    · rw [goTo_post_of_ne s _ hi]
      exact hothers j' hj'
  · by_cases hi : j = i
    · rw [hi, goTo_post_self] at hj
      rw [hj] at hafter
      cases hafter
    · rw [goTo_post_of_ne s _ hi] at hj
      exact h.reset j k r hj

/-- Whoever reads while the index is the number of connections is the one that sets it back. -/
theorem Inv.eq_of_top (h : s.Inv n) (htop : s.postIndex = n) (hi : (s.post i).chooses = true) :
    (s.post i).resets = true ∧ ∀ j, j ≠ i → (s.post j).chooses = false := by
  obtain ⟨j, hj, hothers⟩ := h.top htop
  have hij : i = j := by
    by_contra hne
    rw [hothers i hne] at hi
    cases hi
  subst hij
  exact ⟨hj, hothers⟩

theorem Inv.increment (h : s.Inv n) {k : ℕ} {r : ℤ} (hplace : s.post i = .increment k r)
    (hgood : s.postIndex + 1 < s.size ∨ ∀ j, j ≠ i → (s.post j).chooses = false) :
    ({ s with postIndex := s.postIndex + 1 }.goTo i (.compare k r) : CPostMgr ι).Inv n := by
  have hnonneg := h.nonneg
  have hsize := h.size
  refine ⟨h.pos, h.size, by simp only [CPostMgr.goTo]; omega, ?_, fun htop => ?_, fun j k' r' hj => ?_,
    h.inRange⟩
  · obtain hlt | hothers := hgood
    · simp only [CPostMgr.goTo]
      omega
    · have hne : s.postIndex ≠ n := by
        intro htop
        obtain ⟨j, hj, -⟩ := h.top htop
        have hji : j ≠ i := by
          rintro rfl
          rw [hplace] at hj
          cases hj
        have hchooses := PostLoop.chooses_of_resets hj
        rw [hothers j hji] at hchooses
        cases hchooses
      have hle := h.le
      simp only [CPostMgr.goTo]
      omega
  · obtain hlt | hothers := hgood
    · simp only [CPostMgr.goTo] at htop
      omega
    · refine ⟨i, by rw [goTo_post_self]; rfl, fun j hj => ?_⟩
      rw [goTo_post_of_ne _ _ hj]
      exact hothers j hj
  · have hji : j ≠ i := by
      rintro rfl
      rw [goTo_post_self] at hj
      cases hj
    rw [goTo_post_of_ne _ _ hji] at hj
    have htop : s.postIndex = n := h.reset j k' r' hj
    obtain hlt | hothers := hgood
    · omega
    · exact absurd hj (PostLoop.ne_reset (hothers j hji))

theorem Inv.compare (h : s.Inv n) {k : ℕ} {r : ℤ} (hplace : s.post i = .compare k r) :
    (s.goTo i (if s.postIndex = s.size then .reset k r else .visit k r)).Inv n := by
  have hchooses : (s.post i).chooses = true := by rw [hplace]; rfl
  by_cases htop : s.postIndex = s.size
  · rw [if_pos htop]
    rw [h.size] at htop
    obtain ⟨-, hothers⟩ := h.eq_of_top htop hchooses
    refine ⟨h.pos, h.size, h.nonneg, h.le, fun _ => ⟨i, by rw [goTo_post_self]; rfl, fun j hj => ?_⟩,
      fun _ _ _ _ => htop, h.inRange⟩
    rw [goTo_post_of_ne s _ hj]
    exact hothers j hj
  · rw [if_neg htop]
    rw [h.size] at htop
    refine ⟨h.pos, h.size, h.nonneg, h.le, fun htop' => absurd htop' htop,
      fun j k' r' hj => ?_, h.inRange⟩
    by_cases hi : j = i
    · rw [hi, goTo_post_self] at hj
      cases hj
    · rw [goTo_post_of_ne s _ hi] at hj
      exact h.reset j k' r' hj

theorem Inv.resets (h : s.Inv n) {k : ℕ} {r : ℤ} (hplace : s.post i = .reset k r) :
    ({ s with postIndex := 0 }.goTo i (.visit k r) : CPostMgr ι).Inv n := by
  have hchooses : (s.post i).chooses = true := by rw [hplace]; rfl
  have hpos := h.pos
  obtain ⟨-, hothers⟩ := h.eq_of_top (h.reset i k r hplace) hchooses
  refine ⟨h.pos, h.size, Int.le_refl 0, Int.natCast_nonneg n, fun htop => ?_, fun j k' r' hj => ?_,
    h.inRange⟩
  · simp only [CPostMgr.goTo] at htop
    omega
  · by_cases hi : j = i
    · rw [hi, goTo_post_self] at hj
      cases hj
    · rw [goTo_post_of_ne _ _ hi] at hj
      exact absurd hj (PostLoop.ne_reset (hothers j hi))

theorem Inv.visit (h : s.Inv n) {k : ℕ} {r : ℤ} (hplace : s.post i = .visit k r) {place : PostLoop}
    (hafter : place.chooses = false) (found : Bool) :
    ({ s with visits := s.visits ++ [(s.postIndex, found)] }.goTo i place : CPostMgr ι).Inv n := by
  have hchooses : (s.post i).chooses = true := by rw [hplace]; rfl
  have hne : s.postIndex ≠ n := by
    intro htop
    have hresets := (h.eq_of_top htop hchooses).1
    rw [hplace] at hresets
    cases hresets
  refine ⟨h.pos, h.size, h.nonneg, h.le, fun htop => absurd htop hne, fun j k' r' hj => ?_,
    fun visit hvisit => ?_⟩
  · by_cases hi : j = i
    · rw [hi, goTo_post_self] at hj
      rw [hj] at hafter
      cases hafter
    · rw [goTo_post_of_ne _ _ hi] at hj
      exact h.reset j k' r' hj
  · obtain hold | hnew := List.mem_append.mp hvisit
    · exact h.inRange visit hold
    · have hle := h.le
      have hsize := h.size
      rw [List.mem_singleton.mp hnew]
      simp only [CPostMgr.goTo, CPostMgr.size] at hsize ⊢
      exact ⟨h.nonneg, by omega⟩

theorem Inv.step {e : Event ι} (h : s.Inv n) (hgood : s.Good e) (hstep : s.step e = some s') :
    s'.Inv n := by
  cases e with
  | call i =>
    simp only [CPostMgr.step] at hstep
    split at hstep
    · next hplace =>
      cases hstep
      exact h.goTo (by rw [hplace]; rfl) rfl
    · next hplace =>
      cases hstep
      exact h.goTo (by rw [hplace]; rfl) rfl
    · cases hstep
  | setUsrable c flag =>
    cases hstep
    exact h.setUsrable c flag
  | turn i ret =>
    simp only [CPostMgr.step, turn] at hstep
    cases hplace : s.post i with
    | idle | returned r =>
      simp only [hplace] at hstep
      cases hstep
    | size k r =>
      simp only [hplace] at hstep
      cases hstep
      exact h.goTo (by rw [hplace]; rfl) (by split <;> rfl)
    | increment k r =>
      simp only [hplace] at hstep
      cases hstep
      exact h.increment hplace (hgood ⟨k, r, hplace⟩)
    | compare k r =>
      simp only [hplace] at hstep
      cases hstep
      exact h.compare hplace
    | reset k r =>
      simp only [hplace] at hstep
      cases hstep
      exact h.resets hplace
    | visit k r =>
      simp only [hplace] at hstep
      cases hstep
      exact h.visit hplace (by split <;> rfl) _
    | request k =>
      simp only [hplace] at hstep
      cases hstep
      exact h.goTo (by rw [hplace]; rfl) (by split <;> rfl)

theorem inRange_of_good {postVec : List (Option CPost)} (hpos : postVec ≠ [])
    (h : Run.Reaches step Good (start postVec) s) :
    s.InRange :=
  (h.invariant (Inv postVec.length) (inv_start hpos) fun _ _ _ hinv hgood hstep =>
    hinv.step hgood hstep).inRange

/-- All interleavings of the senders, with any answers of the connections. -/
abbrev Reachable (postVec : List (Option CPost)) (s : CPostMgr ι) : Prop :=
  Run.Reaches step (fun _ _ => True) (start postVec) s

variable {j : ι} {postVec : List (Option CPost)} {k : ℕ} {r : ℤ}

/-- A sender goes on with the index at `index`; the others stay where they are. -/
structure Gone (i : ι) (s s' : CPostMgr ι) (place : PostLoop) (index : ℤ) : Prop where
  place : s'.post i = place
  index : s'.postIndex = index
  size : s'.size = s.size
  others : ∀ j, j ≠ i → s'.post j = s.post j

theorem exists_called (hs : Reachable postVec s) (h : s.post i = .idle) :
    ∃ s', Reachable postVec s' ∧ Gone i s s' (.size 0 (-2)) s.postIndex := by
  have hstep : s.step (.call i) = some (s.goTo i (.size 0 (-2))) := by simp only [CPostMgr.step, h]
  exact ⟨_, hs.next trivial hstep, goTo_post_self s i _, rfl, rfl, fun j hj => goTo_post_of_ne s _ hj⟩

theorem exists_incremented (hs : Reachable postVec s) (h : s.post i = .size k r) (hk : k < s.size) :
    ∃ s', Reachable postVec s' ∧ Gone i s s' (.compare k r) (s.postIndex + 1) := by
  have hsize : s.step (.turn i 0) = some (s.goTo i (.increment k r)) := by
    simp only [CPostMgr.step, turn, h, if_pos hk]
  have hincrement : (s.goTo i (.increment k r)).step (.turn i 0) =
      some ({ s.goTo i (.increment k r) with postIndex := s.postIndex + 1 }.goTo i (.compare k r)) := by
    simp only [CPostMgr.step, turn, goTo_post_self]
    rfl
  refine ⟨_, (hs.next trivial hsize).next trivial hincrement, goTo_post_self _ i _, rfl, rfl,
    fun j hj => ?_⟩
  exact (goTo_post_of_ne _ _ hj).trans (goTo_post_of_ne s _ hj)

theorem exists_compared (hs : Reachable postVec s) (h : s.post i = .compare k r)
    (hne : s.postIndex ≠ s.size) :
    ∃ s', Reachable postVec s' ∧ Gone i s s' (.visit k r) s.postIndex := by
  have hstep : s.step (.turn i 0) = some (s.goTo i (.visit k r)) := by
    simp only [CPostMgr.step, turn, h, if_neg hne]
  exact ⟨_, hs.next trivial hstep, goTo_post_self s i _, rfl, rfl, fun j hj => goTo_post_of_ne s _ hj⟩

/-- A connection that is not usable, or that does not take the request, is left. -/
theorem exists_left (hs : Reachable postVec s) (h : s.post i = .visit k r) :
    ∃ s' r', Reachable postVec s' ∧ Gone i s s' (.size (k + 1) r') s.postIndex ∧
      ∃ found, (s.postIndex, found) ∈ s'.visits := by
  let place : PostLoop := if s.usrable s.postIndex then .request k else .size (k + 1) r
  let visited : CPostMgr ι :=
    { s with visits := s.visits ++ [(s.postIndex, s.usrable s.postIndex)] }.goTo i place
  have hvisit : s.step (.turn i 0) = some visited := by simp only [CPostMgr.step, turn, h, visited, place]
  have hplace : visited.post i = place := goTo_post_self _ i _
  have hothers : ∀ j, j ≠ i → visited.post j = s.post j := fun j hj => goTo_post_of_ne _ _ hj
  have hmem : (s.postIndex, s.usrable s.postIndex) ∈ visited.visits :=
    List.mem_append.mpr (.inr List.mem_cons_self)
  by_cases husrable : s.usrable s.postIndex = true
  · have hrequest : visited.step (.turn i (-1)) = some (visited.goTo i (.size (k + 1) (-1))) := by
      simp only [CPostMgr.step, turn, hplace, place, husrable, if_true]
      rfl
    refine ⟨_, -1, (hs.next trivial hvisit).next trivial hrequest,
      ⟨goTo_post_self _ i _, rfl, rfl, fun j hj => ?_⟩, _, hmem⟩
    exact (goTo_post_of_ne _ _ hj).trans (hothers j hj)
  · have hplace' : place = .size (k + 1) r := if_neg husrable
    exact ⟨_, r, hs.next trivial hvisit, ⟨hplace.trans hplace', rfl, rfl, hothers⟩, _, hmem⟩

/-- The first sender has looked at `k` connections, and the second one has not begun. -/
structure Early (i j : ι) (n k : ℕ) (s : CPostMgr ι) : Prop where
  size : s.size = n
  index : s.postIndex = k
  first : ∃ r, s.post i = .size k r
  second : s.post j = .idle

theorem Early.next (h : s.Early i j n k) (hk : k + 1 < n) (hji : j ≠ i) (hs : Reachable postVec s) :
    ∃ s', Reachable postVec s' ∧ s'.Early i j n (k + 1) := by
  obtain ⟨hsize, hindex, ⟨r, hfirst⟩, hsecond⟩ := h
  obtain ⟨s₁, hs₁, h₁⟩ := exists_incremented hs hfirst (by omega)
  have hne : s₁.postIndex ≠ s₁.size := by
    rw [h₁.index, h₁.size]
    omega
  obtain ⟨s₂, hs₂, h₂⟩ := exists_compared hs₁ h₁.place hne
  obtain ⟨s₃, r', hs₃, h₃, -⟩ := exists_left hs₂ h₂.place
  refine ⟨s₃, hs₃, ?_, ?_, ⟨r', h₃.place⟩, ?_⟩
  · rw [h₃.size, h₂.size, h₁.size, hsize]
  · rw [h₃.index, h₂.index, h₁.index, hindex]
    omega
  · rw [h₃.others j hji, h₂.others j hji, h₁.others j hji, hsecond]

theorem exists_early (hji : j ≠ i) :
    ∀ k < postVec.length, ∃ s, Reachable postVec s ∧ s.Early i j postVec.length k
  | 0, _ => by
      have hstart : Reachable postVec (start postVec : CPostMgr ι) := .refl
      obtain ⟨s, hs, h⟩ := exists_called (i := i) hstart rfl
      exact ⟨s, hs, h.size, h.index, ⟨-2, h.place⟩, h.others j hji⟩
  | k + 1, hk => by
      obtain ⟨s, hs, hearly⟩ := exists_early hji k (by omega)
      exact hearly.next hk hji hs

/-- The first sender increments the index to the number of connections, and the second one
increments it once more before it has been compared. -/
theorem exists_outside (hpos : postVec ≠ []) (hji : j ≠ i) :
    ∃ s : CPostMgr ι, Reachable postVec s ∧ ¬ s.InRange := by
  have hlen := List.length_pos_iff.mpr hpos
  obtain ⟨s, hs, hsize, hindex, ⟨r, hfirst⟩, hsecond⟩ : ∃ s : CPostMgr ι, Reachable postVec s ∧
      s.Early i j postVec.length (postVec.length - 1) := exists_early hji _ (by omega)
  obtain ⟨s₁, hs₁, h₁⟩ := exists_incremented hs hfirst (by omega)
  obtain ⟨s₂, hs₂, h₂⟩ := exists_called hs₁ ((h₁.others j hji).trans hsecond)
  obtain ⟨s₃, hs₃, h₃⟩ := exists_incremented hs₂ h₂.place (by rw [h₂.size, h₁.size]; omega)
  have hplace : s₃.post i = .compare (postVec.length - 1) r := by
    rw [h₃.others i hji.symm, h₂.others i hji.symm, h₁.place]
  have hindex₃ : s₃.postIndex = postVec.length + 1 := by
    rw [h₃.index, h₂.index, h₁.index, hindex]
    omega
  have hsize₃ : s₃.size = postVec.length := by rw [h₃.size, h₂.size, h₁.size, hsize]
  obtain ⟨s₄, hs₄, h₄⟩ := exists_compared hs₃ hplace (by omega)
  obtain ⟨s₅, _, hs₅, h₅, found, hmem⟩ := exists_left hs₄ h₄.place
  refine ⟨s₅, hs₅, fun hrange => ?_⟩
  have hlt := (hrange _ hmem).2
  rw [h₅.size, h₄.size] at hlt
  simp only [h₄.index] at hlt
  omega

end Threads

/-- The connections of `k` turns of the loop after the one at `b`. -/
def rotation (n b k : ℕ) : List ℤ := (List.range k).map fun t => (((b + t + 1) % n : ℕ) : ℤ)

theorem rotation_succ (n b k : ℕ) :
    rotation n b (k + 1) = rotation n b k ++ [(((b + k + 1) % n : ℕ) : ℤ)] := by
  rw [rotation, List.range_succ, List.map_append]
  rfl

theorem rotation_perm (n b : ℕ) : (rotation n b n).Perm ((List.range n).map (↑)) := by
  have hmod : (((List.range n).map fun t => (b + t + 1) % n)).Perm (List.range n) := by
    have hnodup : ((List.range n).map fun t => (b + t + 1) % n).Nodup := by
      refine List.Nodup.map_on (fun t ht t' ht' heq => ?_) List.nodup_range
      have hmodeq : t ≡ t' [MOD n] := Nat.ModEq.add_left_cancel' b (Nat.ModEq.add_right_cancel' 1 heq)
      exact hmodeq.eq_of_lt_of_lt (List.mem_range.mp ht) (List.mem_range.mp ht')
    refine (hnodup.subperm fun c hc => ?_).perm_of_length_le (by simp)
    obtain ⟨t, ht, rfl⟩ := List.mem_map.mp hc
    have hpos : 0 < n := Nat.zero_lt_of_lt (List.mem_range.mp ht)
    exact List.mem_range.mpr (Nat.mod_lt _ hpos)
  have hmap := hmod.map (fun c : ℕ => (c : ℤ))
  rwa [List.map_map] at hmap

/-- What a call that began at `b` has done: `seen` are the connections it has looked at. -/
def Rotated (n b : ℕ) (index : ℤ) (seen : List ℤ) : PostLoop → Prop
  | .idle => False
  | .size k r => k ≤ n ∧ r < 0 ∧ index = ((b + k) % n : ℕ) ∧ seen = rotation n b k
  | .increment k r => k < n ∧ r < 0 ∧ index = ((b + k) % n : ℕ) ∧ seen = rotation n b k
  | .compare k r => k < n ∧ r < 0 ∧ index = ((b + k) % n : ℕ) + 1 ∧ seen = rotation n b k
  | .reset k r => k < n ∧ r < 0 ∧ ((b + k) % n : ℕ) + 1 = n ∧ seen = rotation n b k
  | .visit k r => k < n ∧ r < 0 ∧ index = ((b + k + 1) % n : ℕ) ∧ seen = rotation n b k
  | .request k => k < n ∧ index = ((b + k + 1) % n : ℕ) ∧ seen = rotation n b (k + 1)
  | .returned r => r < 0 → seen = rotation n b n

/-- The call of `i` that began in `s₀`, while the connections of `kept` stay usable. -/
structure Alone (i : ι) (s₀ : CPostMgr ι) (b : ℕ) (kept : ℕ → Prop) (s : CPostMgr ι) : Prop where
  size : s.size = s₀.size
  usrable : ∀ c, kept c → s.usrable c = true
  seen : ∃ seen, s.visits = s₀.visits ++ seen ∧
    Rotated s₀.size b s.postIndex (seen.map Prod.fst) (s.post i) ∧
    ∀ c, kept c → ∀ found, ((c : ℤ), found) ∈ seen → found = true

/-- The sender takes its turns, and connections become usable or not. -/
def Event.alone (i : ι) : Event ι → Prop
  | .call _ => False
  | .turn j _ => j = i
  | .setUsrable .. => True

theorem succ_mod (a n : ℕ) (hn : 0 < n) : (a + 1) % n = if a % n + 1 = n then 0 else a % n + 1 := by
  have hlt : a % n < n := Nat.mod_lt a hn
  rw [← Nat.mod_add_mod]
  split
  · next heq => rw [heq, Nat.mod_self]
  · next hne => exact Nat.mod_eq_of_lt (by omega)

theorem Alone.setUsrable {s₀ : CPostMgr ι} {b : ℕ} {kept : ℕ → Prop} (h : Alone i s₀ b kept s) (c : ℕ)
    {flag : Bool} (hkept : kept c → flag = true) : Alone i s₀ b kept (s.setUsrable c flag) where
  size := (List.length_modify _ _ _).trans h.size
  usrable c' hc' := usrable_setUsrable (h.usrable c' hc') fun heq => hkept (heq ▸ hc')
  seen := h.seen

section Turns

variable [DecidableEq ι]

theorem Alone.turn {s₀ : CPostMgr ι} {b : ℕ} {kept : ℕ → Prop} {ret : ℤ} (h : Alone i s₀ b kept s)
    (hstep : s.turn i ret = some s') : Alone i s₀ b kept s' := by
  obtain ⟨hsize, husrable, seen, hvisits, hrotated, hfound⟩ := h
  cases hplace : s.post i with
  | idle | returned r =>
    simp only [CPostMgr.turn, hplace] at hstep
    cases hstep
  | size k r =>
    simp only [CPostMgr.turn, hplace] at hstep
    cases hstep
    rw [hplace] at hrotated
    obtain ⟨hk, hr, hindex, hseen⟩ := hrotated
    refine ⟨hsize, husrable, seen, hvisits, ?_, hfound⟩
    rw [goTo_post_self, hsize]
    split
    · next hlt => exact ⟨hlt, hr, hindex, hseen⟩
    · next hge =>
      have hlast : k = s₀.size := by omega
      exact fun _ => hlast ▸ hseen
  | increment k r =>
    simp only [CPostMgr.turn, hplace] at hstep
    cases hstep
    rw [hplace] at hrotated
    obtain ⟨hk, hr, hindex, hseen⟩ := hrotated
    refine ⟨hsize, husrable, seen, hvisits, ?_, hfound⟩
    rw [goTo_post_self]
    exact ⟨hk, hr, congrArg (· + 1) hindex, hseen⟩
  | compare k r =>
    simp only [CPostMgr.turn, hplace] at hstep
    cases hstep
    rw [hplace] at hrotated
    obtain ⟨hk, hr, hindex, hseen⟩ := hrotated
    have hmod := succ_mod (b + k) s₀.size (by omega)
    refine ⟨hsize, husrable, seen, hvisits, ?_, hfound⟩
    rw [goTo_post_self, hsize]
    split
    · next htop => exact ⟨hk, hr, by omega, hseen⟩
    · next hne =>
      have hindex' : s.postIndex = ((b + k + 1) % s₀.size : ℕ) := by
        rw [hmod, if_neg (by omega), hindex]
        rfl
      exact ⟨hk, hr, hindex', hseen⟩
  | reset k r =>
    simp only [CPostMgr.turn, hplace] at hstep
    cases hstep
    rw [hplace] at hrotated
    obtain ⟨hk, hr, htop, hseen⟩ := hrotated
    have hmod := succ_mod (b + k) s₀.size (by omega)
    refine ⟨hsize, husrable, seen, hvisits, ?_, hfound⟩
    rw [goTo_post_self]
    refine ⟨hk, hr, ?_, hseen⟩
    rw [hmod, if_pos htop]
    rfl
  | visit k r =>
    simp only [CPostMgr.turn, hplace] at hstep
    cases hstep
    rw [hplace] at hrotated
    obtain ⟨hk, hr, hindex, hseen⟩ := hrotated
    have hseen' : (seen ++ [(s.postIndex, s.usrable s.postIndex)]).map Prod.fst =
        rotation s₀.size b (k + 1) := by
      rw [List.map_append, hseen, rotation_succ, hindex]
      rfl
    refine ⟨hsize, husrable, seen ++ [(s.postIndex, s.usrable s.postIndex)], ?_, ?_,
      fun c hc found hmem => ?_⟩
    · rw [← List.append_assoc, ← hvisits]
      rfl
    · rw [goTo_post_self]
      split
      · exact ⟨hk, hindex, hseen'⟩
      · exact ⟨hk, hr, hindex, hseen'⟩
    · obtain hold | hnew := List.mem_append.mp hmem
      · exact hfound c hc found hold
      · obtain ⟨hc', rfl⟩ := Prod.mk.inj (List.mem_singleton.mp hnew)
        rw [← hc']
        exact husrable c hc
  | request k =>
    simp only [CPostMgr.turn, hplace] at hstep
    cases hstep
    rw [hplace] at hrotated
    obtain ⟨hk, hindex, hseen⟩ := hrotated
    refine ⟨hsize, husrable, seen, hvisits, ?_, hfound⟩
    rw [goTo_post_self]
    split
    · next hfail => exact ⟨hk, hfail, hindex, hseen⟩
    · next hok => exact fun hfail => absurd hfail hok

/-- A call of a sender that is alone fails only after it has looked at every connection once, and
has asked those that were usable all the time. -/
def TriesOnce (s₀ : CPostMgr ι) : Prop :=
  ∀ (i : ι) (events : List (Event ι)) (s : CPostMgr ι) (ret : ℤ),
    0 ≤ s₀.postIndex → s₀.postIndex < s₀.size → s₀.post i = .size 0 (-2) →
    (∀ e ∈ events, e.alone i) → Run.run step s₀ events = some s → s.post i = .returned ret → ret < 0 →
    ∃ seen, s.visits = s₀.visits ++ seen ∧
      (seen.map Prod.fst).Perm ((List.range s₀.size).map (↑)) ∧
      ∀ c : ℕ, c < s₀.size → s₀.usrable c = true → .setUsrable c false ∉ events →
        ((c : ℤ), true) ∈ seen

theorem tries_once (s₀ : CPostMgr ι) : s₀.TriesOnce := by
  intro i events s ret hnonneg hlt hcall halone hrun hret hfail
  let kept (c : ℕ) : Prop := s₀.usrable c = true ∧ .setUsrable c false ∉ events
  have hb : s₀.postIndex.toNat < s₀.size := by omega
  have hstart : Alone i s₀ s₀.postIndex.toNat kept s₀ := by
    refine ⟨rfl, fun c hc => hc.1, [], (List.append_nil _).symm, ?_, fun c _ found hmem => absurd hmem
      List.not_mem_nil⟩
    rw [hcall]
    refine ⟨Nat.zero_le _, by decide, ?_, rfl⟩
    rw [Nat.add_zero, Nat.mod_eq_of_lt hb, Int.toNat_of_nonneg hnonneg]
  have hend : Alone i s₀ s₀.postIndex.toNat kept s := by
    refine Run.run_invariant (Alone i s₀ s₀.postIndex.toNat kept) hstart
      (fun s s' e he h hstep => ?_) hrun
    cases e with
    | call j => exact absurd (halone _ he) id
    | turn j ret =>
      obtain rfl : j = i := halone _ he
      exact h.turn hstep
    | setUsrable c flag =>
      cases hstep
      refine h.setUsrable c fun hc => ?_
      by_contra hflag
      rw [Bool.not_eq_true] at hflag
      exact hc.2 (hflag ▸ he)
  obtain ⟨-, -, seen, hvisits, hrotated, hfound⟩ := hend
  rw [hret] at hrotated
  have hperm : (seen.map Prod.fst).Perm ((List.range s₀.size).map (↑)) :=
    hrotated hfail ▸ rotation_perm s₀.size s₀.postIndex.toNat
  refine ⟨seen, hvisits, hperm, fun c hc husrable hevents => ?_⟩
  have hmem : (c : ℤ) ∈ seen.map Prod.fst :=
    hperm.mem_iff.mpr (List.mem_map.mpr ⟨c, List.mem_range.mpr hc, rfl⟩)
  obtain ⟨⟨index, found⟩, hseen, hindex⟩ := List.mem_map.mp hmem
  simp only at hindex
  subst hindex
  exact hfound c ⟨husrable, hevents⟩ found hseen ▸ hseen

/-- Senders whose increments do not cross each other stay within the connections. Without this they
all do so only if there is one sender at most. A sender that is alone tries every connection. -/
theorem posts_in_range (m : ℕ) {postVec : List (Option CPost)} (hpos : postVec ≠ []) :
    (∀ s : CPostMgr (Fin m), Run.Reaches step Good (start postVec) s → s.InRange) ∧
    ((∀ s : CPostMgr (Fin m), Reachable postVec s → s.InRange) ↔ m ≤ 1) ∧
    ∀ s : CPostMgr (Fin m), s.TriesOnce := by
  refine ⟨fun s hs => inRange_of_good hpos hs, ⟨fun hall => ?_, fun hm s hs => ?_⟩, tries_once⟩
  · by_contra hm
    obtain ⟨s, hs, hout⟩ := exists_outside (i := (⟨0, by omega⟩ : Fin m)) (j := ⟨1, by omega⟩) hpos
      (by simp)
    exact hout (hall s hs)
  · have : Subsingleton (Fin m) := Fin.subsingleton_iff_le_one.mpr hm
    refine inRange_of_good hpos (hs.invariant (Run.Reaches step Good (start postVec)) .refl ?_)
    exact fun s e s' hreach _ hstep => hreach.next (good_of_subsingleton s e) hstep

theorem posts_in_range_two_senders :
    (∀ s : CPostMgr (Fin 2), Run.Reaches step Good (start [some ⟨true⟩]) s → s.InRange) ∧
    ((∀ s : CPostMgr (Fin 2), Reachable [some ⟨true⟩] s → s.InRange) ↔ 2 ≤ 1) ∧
    ∀ s : CPostMgr (Fin 2), s.TriesOnce :=
  posts_in_range 2 (List.cons_ne_nil _ _)

end Turns

instance inRangeDecidable (s : CPostMgr ι) : Decidable s.InRange :=
  inferInstanceAs (Decidable (∀ visit ∈ s.visits, 0 ≤ visit.1 ∧ visit.1 < s.size))

def firstSender : Fin 2 := ⟨0, Nat.zero_lt_two⟩

def secondSender : Fin 2 := ⟨1, Nat.one_lt_two⟩

/-- A request that is taken at once. -/
def request (i : Fin 2) : List (Event (Fin 2)) := .call i :: List.replicate 5 (.turn i 0)

/-- Nine requests are taken; then both senders increment the index. -/
def twoIncrements : List (Event (Fin 2)) :=
  (List.replicate 9 (request firstSender)).flatten ++
    Event.call firstSender :: List.replicate 2 (Event.turn firstSender 0) ++
    Event.call secondSender :: List.replicate 2 (Event.turn secondSender 0) ++
    List.replicate 2 (Event.turn firstSender 0)

theorem not_posts_in_range :
    ∃ s, Run.run step (start (List.replicate 10 (some ⟨true⟩))) twoIncrements = some s ∧ ¬ s.InRange :=
  ⟨_, rfl, by decide⟩

end CPostMgr

end ImServer
