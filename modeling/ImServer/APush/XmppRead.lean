import Mathlib.Algebra.Group.Nat.Defs
import ImServer.Lib.CText
import ImServer.Lib.Search
import Mathlib.Data.List.TakeWhile

/-!
# Stanzas of the XMPP connection

`CXmppImpl::OnRead` (apush/xmpp_ssl_google_fcm_impl.cpp). What is received is a stream of stanzas,
and of single spaces between them, cut into chunks anywhere. What is left over of a chunk is kept
and put in front of the next.

A stanza is taken out with `substr`, which is given the place behind the stanza instead of its
length. So if spaces are in front of it, as many characters behind it are handed on with it.
-/

namespace ImServer

namespace CXmppImpl

def head : List UInt8 := CText.bytes "<message>"

def tail : List UInt8 := CText.bytes "</message>"

def recvbufSize : ℕ := 2048

/-- What `find` returns, as an `int`. -/
def position (pattern strTmp : List UInt8) : ℤ :=
  match Search.find pattern strTmp with
  | none => -1
  | some n => (n : ℤ).bmod (2 ^ 32)

/-- The inner loop when nothing is left over: what is handed to `OnFcmNotify`, and what is left. -/
def drain : ℕ → List UInt8 → List (List UInt8) × List UInt8
  | 0, _ => ([], [])
  | fuel + 1, strTmp =>
    let beginPos := position head strTmp
    let endPos := position tail strTmp
    if strTmp = [] then ([], [])
    else if endPos < 0 ∧ beginPos < 0 then ([], if strTmp = [32] then [] else strTmp)
    else if 0 ≤ beginPos ∧ 0 < endPos ∧ beginPos < endPos then
      let completeStr := (strTmp.drop beginPos.toNat).take (endPos.toNat + tail.length)
      let (notified, packageCache) := drain fuel (strTmp.drop (endPos.toNat + tail.length))
      (completeStr :: notified, packageCache)
    else if 0 ≤ beginPos ∧ endPos < 0 then ([], strTmp.drop beginPos.toNat)
    else ([], [])

/-- `m_packageCache`, and the texts that were handed to `OnFcmNotify`. -/
structure Reader where
  packageCache : List UInt8 := []
  notified : List (List UInt8) := []
  deriving DecidableEq, Repr

/-- A turn of the outer loop. What is received is read as a C string, and put behind what is left of
the chunks before. Each turn of the inner loop takes something away. -/
def Reader.receive (s : Reader) (chunk : List UInt8) : Reader :=
  let strTmp := CText.cStr chunk
  if strTmp = [] then s
  else
    let text := s.packageCache ++ strTmp
    let (notified, packageCache) := drain (text.length + 1) text
    { packageCache, notified := s.notified ++ notified }

/-- A text between the two tags, neither of which is inside. -/
structure Stanza where
  body : List UInt8
  no_head : ¬head <:+: body
  no_tail : ¬tail <:+: body
  no_nul : 0 ∉ body

def Stanza.text (stanza : Stanza) : List UInt8 := head ++ (stanza.body ++ tail)

inductive Item where
  | heartbeat
  | stanza (stanza : Stanza)

def Item.text : Item → List UInt8
  | .heartbeat => [32]
  | .stanza s => s.text

/-- The text of a stream, as the peer sends it: its stanzas and what stands between them. -/
def text (items : List Item) : List UInt8 := items.flatMap Item.text

/-- The texts of its stanzas, one for each, with their tags and without the heartbeats between
them. -/
def stanzas (items : List Item) : List (List UInt8) :=
  items.flatMap fun
    | .heartbeat => []
    | .stanza s => [s.text]

/-- A way of cutting a stream into chunks that are shorter than the buffer. -/
structure Cut (items : List Item) where
  chunks : List (List UInt8)
  received : ∀ chunk ∈ chunks, chunk ≠ [] ∧ chunk.length < recvbufSize
  whole : chunks.flatten = text items

/-- A property of each text that is looked at: what was left over, and a chunk behind it. -/
def EachText (P : List UInt8 → Prop) : Reader → List (List UInt8) → Prop
  | _, [] => True
  | s, chunk :: chunks => P (s.packageCache ++ chunk) ∧ EachText P (s.receive chunk) chunks

/-- In the text a space is in front of a stanza that has something behind it. -/
def Spoils (text : List UInt8) : Prop :=
  ∃ front stanza rest, text = front ++ 32 :: (Stanza.text stanza ++ rest) ∧ rest ≠ []

/-- In whatever is left of the text, the next tag is at a position that an `int` can hold. -/
def Fits (text : List UInt8) : Prop :=
  ∀ front rest, text = front ++ rest →
    (∀ j ∈ Search.find head rest, j < 2 ^ 31) ∧ ∀ j ∈ Search.find tail rest, j + tail.length < 2 ^ 31

theorem Fits.of_append {front rest : List UInt8} (h : Fits (front ++ rest)) : Fits rest := by
  rintro front' rest' rfl
  exact h (front ++ front') rest' (List.append_assoc ..).symm

theorem fits_of_length_lt {text : List UInt8} (h : text.length < 2 ^ 31) : Fits text := by
  rintro front rest rfl
  rw [List.length_append] at h
  refine ⟨fun j hj => ?_, fun j hj => ?_⟩
  · have hle := Search.find_add_length_le hj
    omega
  · have hle := Search.find_add_length_le hj
    omega

section Tags

variable {s : Stanza} {rest : List UInt8} {j n : ℕ}

theorem skips_spaces {mark : UInt8} (hmark : mark ≠ 32) (pattern : List UInt8) (j : ℕ)
    (text : List UInt8) : Search.Skips (mark :: pattern) (List.replicate j 32) text :=
  Search.skips_of_notMem (fun hmem => hmark (List.eq_of_mem_replicate hmem)) text

/-- The closing tag begins nowhere in front of the end of a stanza. -/
theorem skips_tail (s : Stanza) (rest : List UInt8) :
    Search.Skips tail (head ++ s.body) (tail ++ rest) := by
  refine Search.Skips.append (Search.Skips.cons ?_ ?_) ?_
  · intro hprefix
    have hsecond := (List.cons_prefix_cons.mp (List.cons_prefix_cons.mp hprefix).2).1
    exact absurd hsecond (by decide)
  · exact Search.skips_of_notMem (by decide) _
  · exact Search.skips_of_not_infix (by decide) s.no_tail _

/-- The opening tag begins nowhere in a stanza but at its beginning. -/
theorem skips_head (s : Stanza) (rest : List UInt8) :
    Search.Skips head (head.drop 1 ++ (s.body ++ tail)) rest := by
  refine Search.Skips.append (Search.skips_of_notMem (by decide) _)
    (Search.Skips.append ?_ (Search.Skips.cons ?_ ?_))
  · exact Search.skips_of_not_infix (by decide) s.no_head _
  · intro hprefix
    have hsecond := (List.cons_prefix_cons.mp (List.cons_prefix_cons.mp hprefix).2).1
    exact absurd hsecond (by decide)
  · exact Search.skips_of_notMem (by decide) _

theorem find_head (j : ℕ) (text : List UInt8) :
    Search.find head (List.replicate j 32 ++ (head ++ text)) = some j := by
  have hskips : Search.Skips head (List.replicate j 32) (head ++ text) :=
    skips_spaces (by decide) _ j _
  rw [Search.find_append hskips, Search.find_self, Option.map_some, List.length_replicate,
    Nat.zero_add]

theorem find_tail (j : ℕ) (s : Stanza) (rest : List UInt8) :
    Search.find tail (List.replicate j 32 ++ (s.text ++ rest)) =
      some (j + (head.length + s.body.length)) := by
  have hskips : Search.Skips tail (List.replicate j 32) (s.text ++ rest) :=
    skips_spaces (by decide) _ j _
  have htext : s.text ++ rest = (head ++ s.body) ++ (tail ++ rest) := by
    rw [Stanza.text]
    simp only [List.append_assoc]
  rw [Search.find_append hskips, htext, Search.find_append (skips_tail s rest), Search.find_self,
    Option.map_some, Option.map_some, List.length_replicate, List.length_append, Nat.zero_add,
    Nat.add_comm]

theorem length_text (s : Stanza) :
    s.text.length = head.length + s.body.length + tail.length := by
  rw [Stanza.text, List.length_append, List.length_append, Nat.add_assoc]

theorem text_append_inj {s' : Stanza} {rest' : List UInt8} (h : s.text ++ rest = s'.text ++ rest') :
    s.text = s'.text ∧ rest = rest' := by
  have hfind := find_tail 0 s rest
  rw [h, find_tail 0 s' rest'] at hfind
  have hbody := Option.some.inj hfind
  refine List.append_inj h ?_
  rw [length_text, length_text]
  omega

theorem find_tail_part {part more : List UInt8} (h : s.text ++ rest = part ++ more)
    (hpart : part.length < s.text.length) (j : ℕ) :
    Search.find tail (List.replicate j 32 ++ part) = none := by
  have hfind := find_tail j s rest
  rw [h, ← List.append_assoc] at hfind
  refine Search.find_eq_none hfind ?_
  rw [length_text] at hpart
  rw [List.length_append, List.length_replicate]
  omega

theorem find_head_part {part more : List UInt8} (h : s.text ++ rest = part ++ more) (j : ℕ) :
    Search.find head (List.replicate j 32 ++ part) =
      if head.length ≤ part.length then some j else none := by
  have htext : head ++ ((s.body ++ tail) ++ rest) = part ++ more := by
    rw [← h, Stanza.text]
    simp only [List.append_assoc]
  split
  · next hlong =>
    have hprefix : head <+: part := by
      refine List.prefix_of_prefix_length_le ?_ (List.prefix_append part more) hlong
      rw [← htext]
      exact List.prefix_append _ _
    obtain ⟨part', rfl⟩ := hprefix
    exact find_head j part'
  · next hshort =>
    have hfind := find_head j ((s.body ++ tail) ++ rest)
    rw [htext, ← List.append_assoc] at hfind
    refine Search.find_eq_none hfind ?_
    rw [List.length_append, List.length_replicate]
    omega

theorem find_spaces (j : ℕ) : Search.find head (List.replicate j 32) = none ∧
    Search.find tail (List.replicate j 32) = none := by
  have hhead : Search.Skips head (List.replicate j 32) [] := skips_spaces (by decide) _ j []
  have htail : Search.Skips tail (List.replicate j 32) [] := skips_spaces (by decide) _ j []
  have hfindHead := Search.find_append hhead
  have hfindTail := Search.find_append htail
  rw [List.append_nil] at hfindHead hfindTail
  exact ⟨hfindHead.trans rfl, hfindTail.trans rfl⟩

end Tags

section Spoiled

variable {s : Stanza} {rest text : List UInt8} {j : ℕ}

theorem not_spoils_of_find (h : Search.find tail text = none) : ¬Spoils text := by
  rintro ⟨front, s, rest, rfl, -⟩
  refine Search.not_infix_of_find_eq_none h ⟨front ++ 32 :: (head ++ s.body), rest, ?_⟩
  rw [Stanza.text]
  simp only [List.append_assoc, List.cons_append]

theorem spoils_iff (j : ℕ) (s : Stanza) (rest : List UInt8) :
    Spoils (List.replicate j 32 ++ (s.text ++ rest)) ↔ 0 < j ∧ rest ≠ [] ∨ Spoils rest := by
  constructor
  · rintro ⟨front, s', rest', htext, hrest'⟩
    have hhead : head <+: (List.replicate j 32 ++ (s.text ++ rest)).drop (front.length + 1) := by
      rw [htext, List.drop_append, List.drop_eq_nil_of_le (Nat.le_succ _), Nat.add_sub_cancel_left,
        List.nil_append]
      show head <+: s'.text ++ rest'
      rw [Stanza.text, List.append_assoc]
      exact List.prefix_append _ _
    have hspaces : j ≤ front.length + 1 := by
      by_contra hlt
      refine skips_spaces (by decide) (head.drop 1) j (s.text ++ rest) (front.length + 1) ?_ hhead
      rw [List.length_replicate]
      omega
    obtain heq | hlt := Nat.eq_or_lt_of_le hspaces
    · -- the stanza behind the spaces
      have hsplit : List.replicate j 32 ++ (s.text ++ rest) =
          (front ++ [32]) ++ (s'.text ++ rest') := by
        rw [htext, List.append_assoc]
        rfl
      have hlen : (List.replicate j (32 : UInt8)).length = (front ++ [32]).length := by
        rw [List.length_replicate, List.length_append]
        exact heq
      have hrest := (text_append_inj (List.append_inj hsplit hlen).2).2
      exact .inl ⟨by omega, hrest ▸ hrest'⟩
    · -- a stanza further behind, not inside the first one
      obtain ⟨m, hm⟩ := Nat.exists_eq_add_of_le hlt
      have hinside : ¬m < (head.drop 1 ++ (s.body ++ tail)).length := by
        intro hlt
        refine skips_head s rest m hlt ?_
        have hdrop : (List.replicate j 32 ++ (s.text ++ rest)).drop (front.length + 1) =
            ((head.drop 1 ++ (s.body ++ tail)) ++ rest).drop m := by
          have hcount : front.length + 1 = j + (1 + m) := by omega
          rw [hcount, List.drop_append, List.length_replicate, Nat.add_sub_cancel_left,
            List.drop_eq_nil_of_le (by rw [List.length_replicate]; omega), List.nil_append,
            ← List.drop_drop]
          rfl
        rw [← hdrop]
        exact hhead
      right
      rw [← List.append_assoc] at htext
      obtain ⟨more, -, hrest⟩ | ⟨more, hfront, hrest⟩ := List.append_eq_append_iff.mp htext
      · exact ⟨more, s', rest', hrest, hrest'⟩
      · have hlen := congrArg List.length hfront
        rw [List.length_append, List.length_append, List.length_replicate, length_text] at hlen
        rw [List.length_append, List.length_append, List.length_drop] at hinside
        have hheadLen : head.length = 9 := rfl
        match more with
        | [] => exact ⟨[], s', rest', hrest.symm, hrest'⟩
        | [c] =>
          -- a stanza does not end with a space
          have hc : (32 : UInt8) = c := (List.cons.inj hrest).1
          have hlast : (List.replicate j 32 ++ (head ++ (s.body ++ tail.take 9))) ++ [62] =
              front ++ [c] := by
            rw [← hfront, Stanza.text]
            simp only [List.append_assoc]
            rfl
          have hend := (List.append_inj' hlast rfl).2
          rw [← hc] at hend
          exact absurd hend (by decide)
        | c :: c' :: more =>
          rw [List.length_cons, List.length_cons] at hlen
          omega
  · rintro (⟨hj, hrest⟩ | ⟨front, s', rest', rfl, hrest'⟩)
    · obtain ⟨k, rfl⟩ := Nat.exists_eq_succ_of_ne_zero hj.ne'
      refine ⟨List.replicate k 32, s, rest, ?_, hrest⟩
      rw [List.replicate_succ', List.append_assoc]
      rfl
    · refine ⟨List.replicate j 32 ++ (s.text ++ front), s', rest', ?_, hrest'⟩
      simp only [List.append_assoc]

end Spoiled

section Drain

variable {s : Stanza} {fuel j n : ℕ} {strTmp pattern : List UInt8}

theorem position_of_some (h : Search.find pattern strTmp = some n) (hn : n < 2 ^ 31) :
    position pattern strTmp = n := by
  rw [position, h]
  show (n : ℤ).bmod (2 ^ 32) = n
  rw [Int.bmod_def]
  omega

theorem position_of_none (h : Search.find pattern strTmp = none) :
    position pattern strTmp = -1 := by
  rw [position, h]

/-- A text without tags is kept, unless it is a heartbeat. -/
theorem drain_nothing (hhead : Search.find head strTmp = none)
    (htail : Search.find tail strTmp = none) :
    drain (fuel + 1) strTmp = ([], if strTmp = [32] then [] else strTmp) := by
  rw [drain]
  simp only [position_of_none hhead, position_of_none htail]
  by_cases hnil : strTmp = []
  · rw [if_pos hnil, hnil]
    rfl
  · rw [if_neg hnil]
    exact if_pos (by decide)

theorem drain_begun (hhead : Search.find head strTmp = some j)
    (htail : Search.find tail strTmp = none) (hj : j < 2 ^ 31) :
    drain (fuel + 1) strTmp = ([], strTmp.drop j) := by
  have hnil : strTmp ≠ [] := by
    rintro rfl
    cases hhead
  rw [drain]
  simp only [position_of_some hhead hj, position_of_none htail, Int.toNat_natCast]
  rw [if_neg hnil, if_neg (by omega), if_neg (by omega), if_pos (by omega)]

/-- A stanza is handed on, with as many characters behind it as there are spaces in front. -/
theorem drain_stanza (rest : List UInt8) (hfits : Fits (List.replicate j 32 ++ (s.text ++ rest))) :
    drain (fuel + 1) (List.replicate j 32 ++ (s.text ++ rest)) =
      ((s.text ++ rest.take j) :: (drain fuel rest).1, (drain fuel rest).2) := by
  have htext := length_text s
  have hhead : Search.find head (List.replicate j 32 ++ (s.text ++ rest)) = some j := by
    rw [Stanza.text, List.append_assoc]
    exact find_head j _
  have hj := (hfits [] _ rfl).1 j hhead
  have hendFits := (hfits [] _ rfl).2 _ (find_tail j s rest)
  have hnil : List.replicate j 32 ++ (s.text ++ rest) ≠ [] := by
    intro hnil
    rw [hnil] at hhead
    cases hhead
  have hheadLen : head.length = 9 := rfl
  have hend : j + (head.length + s.body.length) + tail.length = j + s.text.length := by omega
  have hdrop : (List.replicate j 32 ++ (s.text ++ rest)).drop j = s.text ++ rest :=
    List.drop_left' List.length_replicate
  have hcomplete : (s.text ++ rest).take (j + s.text.length) = s.text ++ rest.take j := by
    rw [Nat.add_comm, List.take_length_add_append]
  have hrest : (List.replicate j 32 ++ (s.text ++ rest)).drop (j + s.text.length) = rest := by
    rw [← List.drop_drop, hdrop, List.drop_left]
  rw [drain]
  simp only [position_of_some hhead (by omega), position_of_some (find_tail j s rest) (by omega),
    Int.toNat_natCast, hend, hdrop, hcomplete, hrest]
  rw [if_neg hnil, if_neg (by omega), if_pos (by omega)]

end Drain

theorem stanzas_append (items items' : List Item) :
    stanzas (items ++ items') = stanzas items ++ stanzas items' := List.flatMap_append

/-- What is left over are spaces and a part of the next stanza. -/
def Pending (packageCache : List UInt8) (todo : List Item) (more : List UInt8) : Prop :=
  ∃ j part, packageCache = List.replicate j 32 ++ part ∧ text todo = part ++ more ∧
    (part = [] ∨ ∃ s rest, todo = .stanza s :: rest ∧ part.length < s.text.length)

/-- What comes of a text: some stanzas and what is left over. -/
def Drained (drained : List (List UInt8) × List UInt8) (todo : List Item) (more : List UInt8) :
    Prop :=
  ∃ done todo', todo = done ++ todo' ∧ drained.1 = stanzas done ∧ Pending drained.2 todo' more

theorem drained_spaces (fuel j : ℕ) (todo : List Item) :
    Drained (drain (fuel + 1) (List.replicate j 32)) todo (text todo) := by
  obtain ⟨hhead, htail⟩ := find_spaces j
  rw [drain_nothing hhead htail]
  refine ⟨[], todo, rfl, rfl, ?_⟩
  show Pending (if List.replicate j 32 = [32] then [] else List.replicate j 32) todo (text todo)
  split
  · exact ⟨0, [], rfl, rfl, .inl rfl⟩
  · exact ⟨j, [], (List.append_nil _).symm, rfl, .inl rfl⟩

/-- The stanzas of a text are handed on unless one is spoilt, and then they are not those of the
stream. -/
theorem drain_spec (todo : List Item) : ∀ {fuel j : ℕ} {part more : List UInt8},
    text todo = part ++ more → (List.replicate j 32 ++ part).length < fuel →
    Fits (List.replicate j 32 ++ part) →
    (¬Spoils (List.replicate j 32 ++ part) ∧
      Drained (drain fuel (List.replicate j 32 ++ part)) todo more) ∨
    (Spoils (List.replicate j 32 ++ part) ∧
      ¬(drain fuel (List.replicate j 32 ++ part)).1 <+: stanzas todo) := by
  induction todo with
  | nil =>
    intro fuel j part more htext hfuel hfits
    obtain ⟨rfl, rfl⟩ := List.append_eq_nil_iff.mp htext.symm
    obtain ⟨fuel, rfl⟩ := Nat.exists_eq_succ_of_ne_zero (Nat.ne_zero_of_lt hfuel)
    rw [List.append_nil]
    exact .inl ⟨not_spoils_of_find (find_spaces j).2, drained_spaces fuel j []⟩
  | cons item rest ih =>
    intro fuel j part more htext hfuel hfits
    obtain ⟨fuel, rfl⟩ := Nat.exists_eq_succ_of_ne_zero (Nat.ne_zero_of_lt hfuel)
    cases item with
    | heartbeat =>
      cases part with
      | nil =>
        have hmore : more = text (.heartbeat :: rest) := htext.symm
        rw [List.append_nil, hmore]
        exact .inl ⟨not_spoils_of_find (find_spaces j).2, drained_spaces fuel j _⟩
      | cons c part =>
        -- the space is one more in front
        obtain ⟨rfl, hrest⟩ := List.cons.inj (show 32 :: text rest = c :: (part ++ more) from htext)
        have hspaces : List.replicate j 32 ++ (32 : UInt8) :: part =
            List.replicate (j + 1) 32 ++ part := by
          rw [List.replicate_succ', List.append_assoc]
          rfl
        rw [hspaces] at hfuel hfits ⊢
        rcases ih hrest hfuel hfits with ⟨hspoils, done, todo', rfl, hdone, hpending⟩ | hspoilt
        · exact .inl ⟨hspoils, .heartbeat :: done, todo', rfl, hdone, hpending⟩
        · exact .inr hspoilt
    | stanza s =>
      have hstanza : s.text ++ text rest = part ++ more := htext
      obtain hlt | hle := Nat.lt_or_ge part.length s.text.length
      · -- a part of the stanza
        have htail := find_tail_part hstanza hlt j
        have hhead := find_head_part hstanza j
        refine .inl ⟨not_spoils_of_find htail, ?_⟩
        split at hhead
        · have hj := (hfits [] _ rfl).1 j hhead
          rw [drain_begun hhead htail hj, List.drop_left' List.length_replicate]
          exact ⟨[], _, rfl, rfl, 0, part, rfl, hstanza, .inr ⟨s, rest, rfl, hlt⟩⟩
        · rw [drain_nothing hhead htail]
          refine ⟨[], _, rfl, rfl, ?_⟩
          show Pending (if List.replicate j 32 ++ part = [32] then []
            else List.replicate j 32 ++ part) _ more
          split
          · next hone =>
            have hpart : part = [] := by
              cases part with
              | nil => rfl
              | cons c part =>
                have hc : (60 : UInt8) = c := (List.cons.inj hstanza).1
                have hmem : c ∈ List.replicate j 32 ++ c :: part :=
                  List.mem_append_right _ List.mem_cons_self
                rw [hone, List.mem_singleton, ← hc] at hmem
                exact absurd hmem (by decide)
            exact ⟨0, [], rfl, hpart ▸ hstanza, .inl rfl⟩
          · exact ⟨j, part, rfl, hstanza, .inr ⟨s, rest, rfl, hlt⟩⟩
      · -- the whole stanza
        have hprefix : s.text <+: part := by
          refine List.prefix_of_prefix_length_le ?_ (List.prefix_append part more) hle
          rw [← hstanza]
          exact List.prefix_append _ _
        obtain ⟨part, rfl⟩ := hprefix
        rw [List.append_assoc] at hstanza
        have hrest : text rest = part ++ more := List.append_cancel_left hstanza
        have hpos : 0 < s.text.length := Nat.succ_pos _
        have hlen : (List.replicate j 32 ++ (s.text ++ part)).length =
            j + (s.text.length + part.length) := by
          rw [List.length_append, List.length_append, List.length_replicate]
        have hshort : part.length < fuel := by omega
        have hpartFits : Fits part := by
          rw [← List.append_assoc] at hfits
          exact hfits.of_append
        have hnext : (¬Spoils part ∧ Drained (drain fuel part) rest more) ∨
            (Spoils part ∧ ¬(drain fuel part).1 <+: stanzas rest) :=
          ih (j := 0) hrest hshort hpartFits
        rw [drain_stanza part hfits, spoils_iff]
        by_cases hbehind : 0 < j ∧ part ≠ []
        · -- something behind the stanza is handed on with it
          refine .inr ⟨.inl hbehind, fun hprefix => ?_⟩
          have hsame : s.text ++ part.take j = s.text := (List.cons_prefix_cons.mp hprefix).1
          rcases List.take_eq_nil_iff.mp (List.append_right_eq_self.mp hsame) with hj | hpart
          · exact hbehind.1.ne' hj
          · exact hbehind.2 hpart
        · have htake : part.take j = [] := by
            by_contra htake
            rw [List.take_eq_nil_iff, not_or] at htake
            exact hbehind ⟨Nat.pos_of_ne_zero htake.1, htake.2⟩
          rw [htake, List.append_nil, or_iff_right hbehind]
          rcases hnext with ⟨hspoils, done, todo', rfl, hdone, hpending⟩ | ⟨hspoils, hnot⟩
          · refine .inl ⟨hspoils, .stanza s :: done, todo', rfl, ?_, hpending⟩
            show s.text :: (drain fuel part).1 = s.text :: stanzas done
            rw [hdone]
          · exact .inr ⟨hspoils, fun hprefix => hnot (List.cons_prefix_cons.mp hprefix).2⟩

/-- What is handed on of the chunks, if they are received one after the other by a new reader. -/
def notifiedOf (chunks : List (List UInt8)) : List (List UInt8) :=
  (chunks.foldl Reader.receive {}).notified

theorem notified_foldl (s : Reader) (chunks : List (List UInt8)) :
    s.notified <+: (chunks.foldl Reader.receive s).notified := by
  induction chunks generalizing s with
  | nil => exact List.prefix_rfl
  | cons chunk chunks ih =>
    refine List.IsPrefix.trans ?_ (ih (s.receive chunk))
    rw [Reader.receive]
    dsimp only
    split
    · exact List.prefix_rfl
    · exact List.prefix_append _ _

theorem receive_eq {s : Reader} {chunk : List UInt8} (hne : chunk ≠ []) (hnul : 0 ∉ chunk) :
    s.receive chunk =
      { packageCache := (drain ((s.packageCache ++ chunk).length + 1) (s.packageCache ++ chunk)).2
        notified := s.notified ++
          (drain ((s.packageCache ++ chunk).length + 1) (s.packageCache ++ chunk)).1 } := by
  have hstr : CText.cStr chunk = chunk := CText.cStr_eq_self_iff.mpr hnul
  rw [Reader.receive, hstr]
  exact if_neg hne

/-- The rest of the stream is handed on exactly if nothing in it is spoilt. -/
theorem foldl_iff {chunks : List (List UInt8)} : ∀ {s : Reader} {todo : List Item},
    Pending s.packageCache todo chunks.flatten → (∀ chunk ∈ chunks, chunk ≠ [] ∧ 0 ∉ chunk) →
    EachText Fits s chunks →
    ((chunks.foldl Reader.receive s).notified = s.notified ++ stanzas todo ↔
      EachText (fun text => ¬Spoils text) s chunks) := by
  induction chunks with
  | nil =>
    intro s todo hpending _ _
    obtain ⟨j, part, -, htext, hpart⟩ := hpending
    rw [List.flatten_nil, List.append_nil] at htext
    have htodo : todo = [] := by
      rcases hpart with rfl | ⟨stanza, rest, rfl, hlt⟩
      · match todo with
        | [] => rfl
        | .heartbeat :: rest => cases htext
        | .stanza stanza :: rest => cases htext
      · have hlen := congrArg List.length (show stanza.text ++ text rest = part from htext)
        rw [List.length_append] at hlen
        omega
    rw [htodo]
    exact iff_of_true (List.append_nil _).symm trivial
  | cons chunk chunks ih =>
    intro s todo hpending hchunks hfits
    obtain ⟨⟨hne, hnul⟩, hrest⟩ := List.forall_mem_cons.mp hchunks
    obtain ⟨j, part, hcache, htext, -⟩ := hpending
    rw [List.flatten_cons, ← List.append_assoc] at htext
    have hlooked : s.packageCache ++ chunk = List.replicate j 32 ++ (part ++ chunk) := by
      rw [hcache, List.append_assoc]
    have hreceive := receive_eq (s := s) hne hnul
    have hspec := drain_spec todo htext (Nat.lt_succ_self _) (hlooked ▸ hfits.1)
    rw [← hlooked] at hspec
    rw [List.foldl_cons]
    rcases hspec with ⟨hspoils, done, todo', rfl, hdone, hnext⟩ | ⟨hspoils, hnot⟩
    · have hnotified : (s.receive chunk).notified = s.notified ++ stanzas done := by
        rw [hreceive]
        exact congrArg (s.notified ++ ·) hdone
      have hcacheNext : Pending (s.receive chunk).packageCache todo' chunks.flatten := by
        rw [hreceive]
        exact hnext
      have hiff := ih hcacheNext hrest hfits.2
      rw [hnotified, List.append_assoc, ← stanzas_append] at hiff
      rw [hiff]
      exact (and_iff_right hspoils).symm
    · refine iff_of_false (fun h => hnot ?_) fun h => h.1 hspoils
      have hprefix := notified_foldl (s.receive chunk) chunks
      rw [h, hreceive] at hprefix
      exact (List.prefix_append_right_inj s.notified).mp hprefix

theorem zero_notMem_text (items : List Item) : 0 ∉ text items := by
  intro hmem
  obtain ⟨item, -, hitem⟩ := List.mem_flatMap.mp hmem
  cases item with
  | heartbeat => exact absurd hitem (by decide)
  | stanza s =>
    rcases List.mem_append.mp (show 0 ∈ head ++ (s.body ++ tail) from hitem) with hhead | hrest
    · exact absurd hhead (by decide)
    · rcases List.mem_append.mp hrest with hbody | htail
      · exact s.no_nul hbody
      · exact absurd htail (by decide)

/-- As long as the positions of the tags are numbers for an `int`, the stanzas of a stream are handed on exactly
if in no text that is looked at a space is in front of a stanza with something behind it. -/
theorem notified_iff {items : List Item} (cut : Cut items) (hfits : EachText Fits {} cut.chunks) :
    notifiedOf cut.chunks = stanzas items ↔ EachText (fun text => ¬Spoils text) {} cut.chunks := by
  have hpending : Pending ({} : Reader).packageCache items cut.chunks.flatten :=
    ⟨0, [], rfl, cut.whole.symm, .inl rfl⟩
  refine foldl_iff hpending ?_ hfits
  intro chunk hchunk
  refine ⟨(cut.received chunk hchunk).1, fun hnul => zero_notMem_text items ?_⟩
  rw [← cut.whole]
  exact List.mem_flatten_of_mem hchunk hnul

/-- A stanza with the letter a. -/
def shortStanza : Stanza where
  body := [97]
  no_head := by decide
  no_tail := by decide
  no_nul := by decide

/-- Two stanzas, and a heartbeat between them. -/
def twoStanzas : List Item := [.stanza shortStanza, .heartbeat, .stanza shortStanza]

/-- The second chunk begins inside the tag behind the heartbeat. -/
def cutInTag : Cut twoStanzas where
  chunks := [(text twoStanzas).take 25, (text twoStanzas).drop 25]
  received := by decide
  whole := by decide

theorem notified_iff_cut_in_tag :
    EachText Fits {} cutInTag.chunks ∧
      (notifiedOf cutInTag.chunks = stanzas twoStanzas ↔
        EachText (fun text => ¬Spoils text) {} cutInTag.chunks) := by
  have hfits : EachText Fits {} cutInTag.chunks := by
    exact ⟨fits_of_length_lt (by decide), fits_of_length_lt (by decide), trivial⟩
  exact ⟨hfits, notified_iff cutInTag hfits⟩

/-- A third stanza stands directly behind the second, and all are received at once. -/
def oneChunk : Cut (twoStanzas ++ [.stanza shortStanza]) where
  chunks := [text (twoStanzas ++ [.stanza shortStanza])]
  received := by decide
  whole := by decide

/-- The bracket of the third stanza is handed on with the second one. -/
theorem not_notified :
    ¬ ∀ (items : List Item) (cut : Cut items), notifiedOf cut.chunks = stanzas items := by
  intro h
  exact absurd (h _ oneChunk) (by decide)

end CXmppImpl

end ImServer
