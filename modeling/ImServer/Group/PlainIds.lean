import ImServer.Group.GroupTasks
import ImServer.Group.SqlTexts

/-!
# What a request puts into SQL

The ids of a request are pasted into statements as they are, and the name, the picture and the
remarks of a new group go through a filter (group/dbhelper.cpp). If the ids are plain, and the
other texts end where they should, the statements are about the rows of these ids and no others, as
the tasks of the model are. With a quote, or a backslash that changes what follows it, a statement
may be about any rows, and at a NUL each id ends for mysql and redis: the tasks do not describe what
happens then.

The members that a chat asks for are looked up with parameters that are escaped
(group/mod_mysql/mysqlGrpmemMgr.cpp), so that only a NUL matters there.
-/

namespace ImServer

namespace Group

open SqlLiteral

namespace Sql

/-- A text as `c_str()` gives it, which ends at the first NUL. -/
def cString (text : String) : CString :=
  ⟨(CText.bytes text).takeWhile (· ≠ 0), fun hmem => absurd (List.mem_takeWhile_imp hmem) (by decide)⟩

/-- The text is as long for C as it is for the server. -/
def NulFree (text : String) : Prop := 0 ∉ CText.bytes text

/-- A text that a statement reads as it was pasted: it has no NUL, no quote, and no backslash but
those before `%` and `_`. -/
def PlainLiteral (text : String) : Prop :=
  NulFree text ∧ quote ∉ CText.bytes text ∧ KeepsBackslashes (CText.bytes text)

/-- A text that ends at its quote once it has been filtered, whatever a statement reads then. The
filter doubles quotes and leaves backslashes alone, and one of these may take the quote behind it. -/
def ClosesFiltered (text : String) : Prop := Closes (sqlFilter (cString text).val)

instance (text : String) : Decidable (NulFree text) := inferInstanceAs (Decidable (¬ _))

instance (text : String) : Decidable (PlainLiteral text) := inferInstanceAs (Decidable (_ ∧ _ ∧ _))

instance (text : String) : Decidable (ClosesFiltered text) := inferInstanceAs (Decidable (Closes _))

/-- The invitees are plain, and the statement that inserts all of them would fit into the buffer
of 4 MB that it is put together in. -/
def PlainInvitees (groupId : String) (userIds : List String) : Prop :=
  (∀ userId ∈ userIds, PlainLiteral userId) ∧
    insertMultiGroupMember.bufferLength (cString groupId) (userIds.map cString) 2 < sqlBatchBufsize

instance (groupId : String) (userIds : List String) : Decidable (PlainInvitees groupId userIds) :=
  inferInstanceAs (Decidable (_ ∧ _))

section Plain

variable {text : String}

theorem NulFree.cString_val (h : NulFree text) : (cString text).val = CText.bytes text := by
  refine List.takeWhile_eq_self_iff.mpr fun b hb => decide_eq_true ?_
  rintro rfl
  exact h hb

theorem PlainLiteral.isPlain (h : PlainLiteral text) : IsPlain (cString text) := by
  rw [IsPlain, h.1.cString_val]
  exact h.2

/-- A letter or digit is one byte, and none of the special ones. -/
theorem bytes_of_isLetter {c : Char} (hc : (Msg.isLetter c || c.isDigit) = true) :
    ∀ b ∈ String.utf8EncodeChar c, b ≠ 0 ∧ b ≠ quote ∧ b ≠ backslash := by
  have hrange : 48 ≤ c.toNat ∧ c.toNat ≤ 57 ∨ 65 ≤ c.toNat ∧ c.toNat ≤ 90 ∨
      97 ≤ c.toNat ∧ c.toNat ≤ 122 := by
    simp only [Msg.isLetter, Char.isDigit, Bool.or_eq_true, Bool.and_eq_true, decide_eq_true_eq] at hc
    obtain (hlow | hup) | hdigit := hc
    · exact .inr (.inr hlow)
    · exact .inr (.inl hup)
    · exact .inl hdigit
  rw [CText.utf8EncodeChar_of_lt (by omega), List.forall_mem_singleton]
  have hbyte : (UInt8.ofNat c.toNat).toNat = c.toNat :=
    (UInt8.toNat_ofNat' ..).trans (Nat.mod_eq_of_lt (by omega))
  have hne : ∀ b : UInt8, b.toNat = 0 ∨ b.toNat = 39 ∨ b.toNat = 92 → UInt8.ofNat c.toNat ≠ b := by
    rintro b hb rfl
    omega
  exact ⟨hne 0 (.inl rfl), hne quote (.inr (.inl rfl)), hne backslash (.inr (.inr rfl))⟩

/-- The ids of groups that the handlers let through are plain. -/
theorem plainLiteral_of_isGrpIdValid (h : Msg.isGrpIdValid text = true) : PlainLiteral text := by
  simp only [Msg.isGrpIdValid, Bool.and_eq_true, List.all_eq_true] at h
  have hall : ∀ b ∈ CText.bytes text, b ≠ 0 ∧ b ≠ quote ∧ b ≠ backslash := by
    intro b hb
    obtain ⟨c, hc, hb⟩ := List.mem_flatMap.mp hb
    exact bytes_of_isLetter (h.1.2 c hc) b hb
  refine ⟨fun hnul => (hall 0 hnul).1 rfl, fun hquote => (hall _ hquote).2.1 rfl, ?_⟩
  exact keepsBackslashes_of_not_mem fun hback => (hall _ hback).2.2 rfl

end Plain

end Sql

open Sql

/-- The ids that the task puts into statements are plain, and the texts of a new group end at their
quotes. The group of any task but a creation is one that the handler has checked, so that its id has
only letters and digits. -/
def Task.Plain : Task → Prop
  | create msg =>
    (PlainLiteral msg.groupId ∧ PlainLiteral msg.userId) ∧
      (ClosesFiltered msg.name ∧ ClosesFiltered msg.grpAvatar ∧ ClosesFiltered msg.remarks) ∧
      PlainInvitees msg.groupId msg.inviteUserIds
  | apply msg => PlainLiteral msg.userId
  | invite msg => PlainInvitees msg.groupId msg.inviteeIds
  | permit msg => PlainLiteral msg.userId
  | quit msg => PlainLiteral msg.userId
  | kickOut msg => PlainLiteral msg.kickId
  | modify msg => PlainLiteral msg.userId ∧ PlainLiteral msg.involvedId

instance : (t : Task) → Decidable t.Plain
  | .create _ => inferInstanceAs (Decidable (_ ∧ _ ∧ _))
  | .apply msg => inferInstanceAs (Decidable (PlainLiteral msg.userId))
  | .invite msg => inferInstanceAs (Decidable (PlainInvitees msg.groupId msg.inviteeIds))
  | .permit msg => inferInstanceAs (Decidable (PlainLiteral msg.userId))
  | .quit msg => inferInstanceAs (Decidable (PlainLiteral msg.userId))
  | .kickOut msg => inferInstanceAs (Decidable (PlainLiteral msg.kickId))
  | .modify _ => inferInstanceAs (Decidable (_ ∧ _))

/-- A task that is started puts only plain texts into statements, and a chat or a cancel that is
looked at names a sender without a NUL. -/
def Event.Plain : Event → Prop
  | task _ t => t.checks = true → t.Plain
  | chat _ msg => checkChat msg = none → NulFree msg.fromId
  | chatCancel msg => checkChatCancel msg = true → NulFree msg.fromId

instance : (e : Event) → Decidable e.Plain
  | .task .. | .chat .. | .chatCancel _ => inferInstanceAs (Decidable (_ → _))

end Group

end ImServer
